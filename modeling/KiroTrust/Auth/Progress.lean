import Mathlib.Algebra.BigOperators.Group.Finset.Basic
import Mathlib.Algebra.Order.BigOperators.Group.Finset
import KiroTrust.Auth.Burned
import KiroTrust.Shared.Rounds

set_option autoImplicit false

namespace KiroTrust.Auth

open Emitter

/-! Every call of `current` ends: each of its steps comes closer to the end, and the gate is never stuck. -/

def Attempt.rank : Attempt → Nat
  | .first _ => 5
  | .second _ => 1

def Phase.rank : Phase → Nat
  | .idle => 17
  | .entered => 16
  | .fastPath => 15
  | .waiting => 14
  | .locked => 13
  | .recheck _ => 12
  | .reading _ => 11
  | .rule1 _ _ => 10
  | .bound _ _ _ => 9
  | .trying attempt _ => attempt.rank + 3
  | .posted attempt _ => attempt.rank + 2
  | .accepted attempt _ => attempt.rank + 1
  | .failed attempt _ => attempt.rank
  | .returned _ | .cancelled => 0

variable (parse : List UInt8 → Option TokenResponse)

theorem Attempt.rank_pos (attempt : Attempt) : 0 < attempt.rank := by
  cases attempt <;> exact Nat.succ_pos _

theorem Phase.rank_le (phase : Phase) : phase.rank ≤ 17 := by
  cases phase with
  | trying attempt | posted attempt | accepted attempt | failed attempt =>
    cases attempt <;> simp [Phase.rank, Attempt.rank]
  | _ => simp [Phase.rank]

theorem Phase.ended {phase : Phase} (last : phase.rank = 0) :
    (∃ result, phase = .returned result) ∨ phase = .cancelled := by
  cases phase with
  | returned result => exact .inl ⟨result, rfl⟩
  | cancelled => exact .inr rfl
  | failed attempt => exact absurd last (Nat.ne_of_gt attempt.rank_pos)
  | _ => cases last

theorem advance_rank {t after : TokenSource} {call : Nat} {w : World} {phase next : Phase} {out : List Observation}
    (moves : advance parse t call w phase = some (after, next, out)) : next.rank < phase.rank := by
  cases phase with
  | entered =>
    simp only [advance] at moves
    cases moves
    split <;> decide
  | locked =>
    cases moves
    exact Nat.lt_succ_self _
  | bound =>
    simp only [advance] at moves
    split at moves <;> cases moves <;> simp [Phase.rank, Attempt.rank]
  | fastPath | recheck | reading | rule1 =>
    simp only [advance] at moves
    split at moves <;> cases moves <;> simp [Phase.rank]
  | trying attempt seed | posted attempt seed | accepted attempt seed =>
    simp only [advance] at moves
    split at moves <;> cases moves <;> simp [Phase.rank, attempt.rank_pos]
  | failed attempt error =>
    cases attempt with
    | first seedExpiresAt =>
      simp only [advance] at moves
      split at moves <;> cases moves <;> simp [Phase.rank, Attempt.rank]
    | second firstErr =>
      cases moves
      exact Nat.lt_succ_self _
  | idle | waiting | returned | cancelled => cases moves

theorem advance_holding {phase : Phase} (t : TokenSource) (call : Nat) (w : World) (holds : phase.holdsGate = true) :
    (advance parse t call w phase).isSome = true := by
  cases phase with
  | failed attempt error =>
    cases attempt with
    | first seedExpiresAt =>
      simp only [advance]
      split <;> rfl
    | second firstErr => rfl
  | locked => rfl
  | recheck | reading | rule1 | bound | trying | posted | accepted =>
    simp only [advance]
    split <;> rfl
  | idle | entered | fastPath | waiting | returned | cancelled => cases holds

def Action.by (n : Nat) : Action → Prop
  | .call number | .resume number _ | .cancel number => number < n
  | .invalidate => False

/-- Every call below `n` arrives and takes a step. -/
def FairRound (n : Nat) (round : List Action) : Prop :=
  ∀ call < n, .call call ∈ round ∧ ∃ w, .resume call w ∈ round

namespace State

def rank (n : Nat) (s : State) : Nat := ∑ call ∈ Finset.range n, (s.calls call).rank

theorem put_rank {n : Nat} {s : State} {call : Nat} {phase : Phase} (source : TokenSource) (inside : call < n)
    (closer : phase.rank < (s.calls call).rank) : (s.put call source phase).rank n < s.rank n := by
  apply Finset.sum_lt_sum
  · intro other _
    by_cases same : other = call
    · subst same
      simpa only [put, Function.update_self] using Nat.le_of_lt closer
    · simp only [put, Function.update_of_ne same, Nat.le_refl]
  · exact ⟨call, Finset.mem_range.2 inside, by simpa only [put, Function.update_self] using closer⟩

structure Crowd (n : Nat) (s : State) : Prop where
  gated : s.Gated
  outsiders : ∀ call, n ≤ call → s.calls call = .idle

theorem put_outsiders {n : Nat} {s : State} {call : Nat} (source : TokenSource) (phase : Phase) (crowd : s.Crowd n)
    (inside : call < n) : ∀ other, n ≤ other → (s.put call source phase).calls other = .idle := by
  intro other outside
  have apart : other ≠ call := by omega
  simpa only [put, Function.update_of_ne apart] using crowd.outsiders other outside

theorem dropped_rank {t after : TokenSource} {phase : Phase} (dropping : dropped t phase = some after) :
    0 < phase.rank := by
  cases phase with
  | entered | waiting => decide
  | posted attempt | accepted attempt => exact Nat.succ_pos _
  | _ => cases dropping

theorem stepped_crowd {n : Nat} {s after : State} {action : Action} {out : List Observation} (crowd : s.Crowd n)
    (among : action.by n) (stepped : s.Stepped parse action after out) :
    after.Crowd n ∧ (after = s ∨ after.rank n < s.rank n) := by
  have gated := (stepped_moves parse crowd.gated stepped).2
  cases stepped with
  | still => exact ⟨crowd, .inl rfl⟩
  | starts idle =>
    refine ⟨⟨gated, put_outsiders _ _ crowd among⟩, .inr (put_rank _ among ?_)⟩
    rw [idle]
    decide
  | locks w waits free =>
    refine ⟨⟨gated, put_outsiders _ _ crowd among⟩, .inr (put_rank _ among ?_)⟩
    rw [waits]
    decide
  | advances moves =>
    exact ⟨⟨gated, put_outsiders _ _ crowd among⟩, .inr (put_rank _ among (advance_rank parse moves))⟩
  | drops dropping =>
    exact ⟨⟨gated, put_outsiders _ _ crowd among⟩, .inr (put_rank _ among (dropped_rank dropping))⟩
  | forces => cases among

theorem moved_of_rank {s after : State} {call : Nat} {source : TokenSource} {phase : Phase}
    (moved : after = s.put call source phase) (closer : phase.rank < (s.calls call).rank) : after ≠ s := by
  intro same
  have there := congrArg (fun s => (s.calls call).rank) (same.symm.trans moved)
  simp only [put, Function.update_self] at there
  omega

theorem resume_moves {s : State} {call : Nat} (w : World)
    (able : (advance parse s.source call w (s.calls call)).isSome = true) :
    (s.step parse (.resume call w)).1 ≠ s := by
  obtain ⟨⟨source, phase, out⟩, moves⟩ := Option.isSome_iff_exists.1 able
  have moved : (s.step parse (.resume call w)).1 = s.put call source phase := by
    simp only [step]
    split
    next waits =>
      rw [waits] at moves
      cases moves
    next => simp only [moves]
  exact moved_of_rank moved (advance_rank parse moves)

theorem fair_moves {n : Nat} {s : State} {round : List Action} (crowd : s.Crowd n) (fair : FairRound n round)
    (left : 0 < s.rank n) : ∃ action ∈ round, (s.step parse action).1 ≠ s := by
  cases gate : s.gate with
  | some holder =>
    -- The holder of the gate never waits.
    have holds := (crowd.gated holder).2 gate
    have inside : holder < n := by
      by_contra outside
      rw [crowd.outsiders holder (by omega)] at holds
      cases holds
    obtain ⟨-, w, resumed⟩ := fair holder inside
    exact ⟨_, resumed, resume_moves parse w (advance_holding parse _ _ _ holds)⟩
  | none =>
    obtain ⟨call, among, unfinished⟩ := Finset.exists_ne_zero_of_sum_ne_zero (Nat.ne_of_gt left)
    obtain ⟨arrives, w, resumed⟩ := fair call (Finset.mem_range.1 among)
    cases phase : s.calls call with
    | idle =>
      have moved : (s.step parse (.call call)).1 = s.put call s.source .entered := by simp only [step, phase]
      refine ⟨_, arrives, moved_of_rank moved ?_⟩
      rw [phase]
      decide
    | waiting =>
      have moved : (s.step parse (.resume call w)).1 = s.put call s.source .locked := by simp [step, phase, gate]
      refine ⟨_, resumed, moved_of_rank moved ?_⟩
      rw [phase]
      decide
    | entered => exact ⟨_, resumed, resume_moves parse w (by rw [phase]; rfl)⟩
    | fastPath =>
      refine ⟨_, resumed, resume_moves parse w ?_⟩
      rw [phase]
      simp only [advance]
      split <;> rfl
    | returned | cancelled => simp [phase, Phase.rank] at unfinished
    | _ =>
      have holds := (crowd.gated call).1 (by rw [phase]; rfl)
      rw [gate] at holds
      cases holds

theorem descent (n : Nat) :
    Rounds.Descent (fun s action => (step parse s action).1) (rank n) (Crowd n) (Action.by n) (FairRound n) where
  keeps := fun crowd among => (stepped_crowd parse crowd among (step_stepped parse _ _)).1
  rests := fun crowd among => (stepped_crowd parse crowd among (step_stepped parse _ _)).2
  moves := fair_moves parse

theorem rank_le (n : Nat) (s : State) : s.rank n ≤ 17 * n := by
  have bound := Finset.sum_le_card_nsmul (Finset.range n) (fun call => (s.calls call).rank) 17
    fun call _ => Phase.rank_le _
  simpa [rank, Nat.mul_comm] using bound

theorem runAll_run (s : State) (actions : List Action) :
    (runAll (step parse) s actions).1 = Rounds.run (fun s action => (step parse s action).1) s actions := by
  induction actions generalizing s with
  | nil => rfl
  | cons action rest ih => exact ih _

theorem new_crowd (n : Nat) (source : TokenSource) : (new source).Crowd n where
  gated := by
    intro call
    simp [new, Phase.holdsGate]
  outsiders := fun _ _ => rfl

theorem fair_finishes {n : Nat} {actions front : List Action} {rounds : List (List Action)} (source : TokenSource)
    (callers : ∀ action ∈ actions, action.by n) (split : actions = front ++ rounds.flatten)
    (fair : ∀ round ∈ rounds, FairRound n round) (enough : 17 * n ≤ rounds.length) :
    ∀ call < n, ((runAll (step parse) (new source) actions).1.calls call).rank = 0 := by
  intro call below
  subst split
  obtain ⟨before, after⟩ := List.forall_mem_append.1 callers
  have crowd := (descent parse n).run_keeps (new_crowd n source) before
  have among : ∀ round ∈ rounds, ∀ action ∈ round, action.by n :=
    fun round inside action here => after action (List.mem_flatten.2 ⟨round, inside, here⟩)
  have ended := (descent parse n).finishes crowd among fair ((rank_le n _).trans enough)
  rw [← Rounds.run_append, ← runAll_run] at ended
  exact Finset.sum_eq_zero_iff.1 ended call (Finset.mem_range.2 below)

end State

end KiroTrust.Auth
