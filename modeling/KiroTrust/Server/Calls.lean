import KiroTrust.Server.Once

set_option autoImplicit false

namespace KiroTrust.Server

open Emitter
open Permits (Event Honest Pool)
open Tracking (RequestUsageGuard UsageErrorKind)

/-! Any number of calls of `post_messages` over one limiter. -/

namespace Handling

def budget (h : Handling) : Nat := if h.stage.early then (!h.replayed).toNat else 0

variable {r : Route} {h : Handling}

theorem call_budget (h : Handling) (elapsed : Nat) :
    (calls (h.call r elapsed).2).length + (h.call r elapsed).1.budget ≤ 1 + (!h.replayed).toNat := by
  obtain ⟨next, same, early, called⟩ | ⟨late, shown, called, ends⟩ := h.call_cases (r := r) elapsed
  · rw [called]
    simp [calls, Seen.generated, budget, early, same.replayed]
  · have single : calls (.generate h.payload :: shown) = h.payload :: calls shown := rfl
    rw [called, single, calls_shown ends]
    simp [budget, late]

theorem step_budget (fits : h.usage.terminal = h.stage.settled) (turn : Turn) :
    (calls (h.step r turn).2).length + (h.step r turn).1.budget ≤ h.budget := by
  cases early : h.stage.early with
  | false =>
    have closing := step_late r h early turn
    simp [calls_shown closing.shown, budget, closing.late]
  | true =>
    have going : h.usage.terminal = false := by
      rw [fits]
      revert early
      cases h.stage <;> simp [Stage.early, Stage.settled]
    have advances := step_advances (r := r) early going turn
    generalize h.step r turn = moved at advances
    cases advances with
    | awaits same early' silent none => simp [none, budget, early', early, same.replayed]
    | @replays f after elapsed late first again called =>
      subst called
      have bound := call_budget (r := r) (new (withoutConversation h.payload) true h.usage.modelIndex h.usage.progress) elapsed
      have noted (out : List Seen) : calls (.primed (.failed f) :: out) = calls out := rfl
      simpa [noted, budget, early, first, new] using bound
    | ends out none never replayed late shown =>
      rw [out, calls_append, none, calls_shown shown]
      simp [budget, late]

end Handling

namespace Call

def waits (c : Call) : Bool :=
  match c.progress with
  | .acquiring _ _ | .identifying _ _ => true
  | .handling _ h => h.stage.waits
  | .gone => false

def settled (c : Call) : Bool :=
  match c.progress with
  | .acquiring _ _ | .identifying _ _ => false
  | .handling _ h => h.usage.terminal
  | .gone => true

/-- The calls of `generate` that are left. -/
def budget (c : Call) : Nat :=
  match c.progress with
  | .acquiring _ _ | .identifying _ _ => 2
  | .handling _ h => h.budget
  | .gone => 0

def working (c : Call) : Bool :=
  match c.progress with
  | .acquiring _ _ | .gone => false
  | .identifying _ _ => true
  | .handling _ h => !h.stage.settled

def Sound (c : Call) : Prop :=
  match c.progress with
  | .acquiring _ usage => usage.terminal = false ∧ c.permit = false
  | .identifying _ usage => usage.terminal = false ∧ c.permit = true
  | .handling _ h =>
    h.usage.terminal = h.stage.settled ∧ (c.permit = false → h.stage.settled = true) ∧
      (h.stage = .ended → c.permit = false)
  | .gone => c.permit = false

structure Moves (c : Call) (dropped : Bool) (moved : Call × List Seen) : Prop where
  sound : moved.1.Sound
  answered : answers moved.2 + moved.1.waits.toNat ≤ c.waits.toNat
  kept : dropped = false → answers moved.2 + moved.1.waits.toNat = c.waits.toNat
  settled : settlements moved.2 + c.settled.toNat = moved.1.settled.toNat
  calls : (Server.calls moved.2).length + moved.1.budget ≤ c.budget

end Call

def Input.drops : Input → Bool
  | .turn (.drop _) => true
  | _ => false

theorem Handling.step_settled {r : Route} {h : Handling} (settled : h.stage.settled = true) (turn : Turn) :
    (h.step r turn).1.stage.settled = true := by
  cases turn with
  | upstream elapsed input =>
    simp only [step]
    split
    next => exact settled
    next _ g stage _ =>
      rw [stage] at settled
      cases settled
    next => exact settled
  | pump elapsed late =>
    simp only [step]
    split
    next stage =>
      rw [stage] at settled
      cases settled
    next stage =>
      rw [stage] at settled
      cases settled
    next b outputBytes stage =>
      have finished : b.finished = true := by
        rw [stage] at settled
        exact settled
      unfold onBody
      rw [Body.poll_finished r.server late finished]
      exact settled
    next => exact settled
    next => exact settled
  | drop elapsed =>
    simp only [step]
    split
    next => exact settled
    next => rfl

namespace Call

variable {x : Service}

theorem fail_moves {c : Call} {usage : RequestUsageGuard} (going : usage.terminal = false) (waits : c.waits = true)
    (unsettled : c.settled = false) (dropped : Bool) (kind : UsageErrorKind) (elapsed : Nat) (error : ApiError) :
    c.Moves dropped (fail usage kind elapsed error) := by
  obtain ⟨t, settles⟩ := settle_open going (.failed kind) elapsed
  simp only [fail, settles]
  refine ⟨rfl, ?_, fun _ => ?_, ?_, Nat.zero_le _⟩
  · rw [waits]
    exact Nat.le_refl _
  · rw [waits]
    rfl
  · rw [unsettled]
    rfl

theorem drop_moves {c : Call} {usage : RequestUsageGuard} (going : usage.terminal = false) (waits : c.waits = true)
    (unsettled : c.settled = false) (elapsed : Nat) :
    c.Moves true (⟨.gone, false⟩, (settle usage .cancelled elapsed).2) := by
  obtain ⟨t, settles⟩ := settle_open going .cancelled elapsed
  simp only [settles]
  refine ⟨rfl, ?_, nofun, ?_, Nat.zero_le _⟩
  · rw [waits]
    exact Nat.zero_le _
  · rw [unsettled]
    rfl

theorem still_moves {c : Call} (sound : c.Sound) (dropped : Bool) : c.Moves dropped (c, []) where
  sound := sound
  answered := Nat.le_of_eq (Nat.zero_add _)
  kept := fun _ => Nat.zero_add _
  settled := Nat.zero_add _
  calls := Nat.le_of_eq (Nat.zero_add _)

theorem keeps_false {before after : Stage} {turn : Turn} (gives : keeps before turn after = false) :
    after = .ended ∨ before.settled = true := by
  unfold keeps at gives
  split at gives
  next => exact .inl rfl
  next =>
    split at gives
    next => exact .inr (by simpa only [Bool.not_eq_false', Stage.settled] using gives)
    next => cases gives
  all_goals cases gives

theorem handling_moves {r : Route} {h : Handling} {permit : Bool} (sound : Call.Sound ⟨.handling r h, permit⟩)
    (turn : Turn) :
    Call.Moves ⟨.handling r h, permit⟩ (Input.drops (.turn turn))
      (⟨.handling r (h.step r turn).1, permit && keeps h.stage turn (h.step r turn).1.stage⟩, (h.step r turn).2) := by
  obtain ⟨fits, spent, ended⟩ := sound
  have calls := Handling.step_budget (r := r) fits turn
  -- Without its permit, a call has settled; and it stays so.
  have leaves : ∀ after : Handling, after = (h.step r turn).1 → after.usage.terminal = after.stage.settled →
      Call.Sound ⟨.handling r after, permit && keeps h.stage turn after.stage⟩ := by
    rintro after rfl same
    refine ⟨same, fun given => ?_, fun gone => ?_⟩
    · obtain spends | gives := Bool.and_eq_false_iff.1 given
      · exact Handling.step_settled (spent spends) turn
      · obtain gone | before := keeps_false gives
        · rw [gone]
          rfl
        · exact Handling.step_settled before turn
    · simp [gone, keeps]
  cases turn with
  | drop elapsed =>
    obtain ⟨unanswered, stage, terminal, settled⟩ := h.drop_once (r := r) fits elapsed
    refine ⟨leaves _ rfl (by rw [terminal, stage]; rfl), ?_, fun kept => ?_, ?_, calls⟩
    · simp [unanswered, waits, stage, Stage.waits]
    · cases kept
    · simpa [Call.settled, terminal] using settled
  | upstream elapsed input =>
    have stays : ∀ late, Turn.upstream elapsed input ≠ .drop late := by
      intro late same
      cases same
    have once := h.step_once (r := r) fits (.upstream elapsed input) stays
    exact ⟨leaves _ rfl once.fits, Nat.le_of_eq once.answered, fun _ => once.answered, once.settled, calls⟩
  | pump elapsed late =>
    have stays : ∀ dropped, Turn.pump elapsed late ≠ .drop dropped := by
      intro dropped same
      cases same
    have once := h.step_once (r := r) fits (.pump elapsed late) stays
    exact ⟨leaves _ rfl once.fits, Nat.le_of_eq once.answered, fun _ => once.answered, once.settled, calls⟩

theorem step_moves {c : Call} (sound : c.Sound) (free : Bool) (input : Input) :
    c.Moves input.drops (c.step x free input) := by
  obtain ⟨progress, permit⟩ := c
  cases progress with
  | gone => exact still_moves sound _
  | acquiring v usage =>
    cases input with
    | acquire elapsed =>
      simp only [step]
      cases free with
      | true => exact ⟨⟨sound.1, rfl⟩, Nat.le_refl _, fun _ => rfl, rfl, Nat.le_refl _⟩
      | false => exact fail_moves sound.1 rfl rfl _ _ elapsed _
    | identity elapsed result => exact still_moves sound _
    | turn turn =>
      cases turn with
      | drop elapsed => exact drop_moves sound.1 rfl rfl elapsed
      | upstream elapsed input => exact still_moves sound _
      | pump elapsed late => exact still_moves sound _
  | identifying v usage =>
    cases input with
    | acquire elapsed => exact still_moves sound _
    | identity elapsed result =>
      cases result with
      | error e => exact fail_moves sound.1 rfl rfl _ _ elapsed _
      | ok identity =>
        simp only [step]
        split
        next => exact fail_moves sound.1 rfl rfl _ _ elapsed _
        next built _ =>
          let r := v.route x built.toolNames.reverseMap
          let h := Handling.new built.payload false usage.modelIndex 0
          have once : Once false true (h.call r elapsed) := Handling.call_once rfl elapsed
          refine ⟨⟨once.fits, fun given => ?_, fun gone => ?_⟩, Nat.le_of_eq once.answered, fun _ => once.answered,
            once.settled, Handling.call_budget h elapsed⟩
          · have ends : begins (h.call r elapsed).1.stage = false := by
              simpa [show permit = true from sound.2] using given
            revert ends
            cases (h.call r elapsed).1.stage <;> simp [begins, Stage.settled]
          · simp only [gone, begins, Bool.and_false]
    | turn turn =>
      cases turn with
      | drop elapsed => exact drop_moves sound.1 rfl rfl elapsed
      | upstream elapsed input => exact still_moves sound _
      | pump elapsed late => exact still_moves sound _
  | handling r h =>
    cases input with
    | acquire elapsed => exact still_moves sound _
    | identity elapsed result => exact still_moves sound _
    | turn turn => exact handling_moves sound turn

theorem run_moves {c : Call} (sound : c.Sound) (turns : List (Bool × Input)) :
    c.Moves (turns.any fun turn => turn.2.drops) (runAll (fun c turn => c.step x turn.1 turn.2) c turns) := by
  induction turns generalizing c with
  | nil => exact still_moves sound false
  | cons turn rest ih =>
    have first := step_moves (x := x) sound turn.1 turn.2
    have later := ih first.sound
    rw [runAll_cons]
    refine ⟨later.sound, ?_, fun kept => ?_, ?_, ?_⟩
    · have here := first.answered
      have there := later.answered
      simp only [answers_append]
      omega
    · obtain ⟨here, there⟩ := Bool.or_eq_false_iff.1 (List.any_cons ▸ kept)
      have here := first.kept here
      have there := later.kept there
      simp only [answers_append]
      omega
    · have here := first.settled
      have there := later.settled
      simp only [settlements_append]
      omega
    · have here := first.calls
      have there := later.calls
      simp only [calls_append, List.length_append]
      omega

theorem new_sound (v : Valid) : (new v).Sound := ⟨rfl, rfl⟩

theorem Sound.holds {c : Call} (sound : c.Sound) (working : c.working = true) : c.permit = true := by
  obtain ⟨progress, permit⟩ := c
  cases progress with
  | gone | acquiring v usage => cases working
  | identifying v usage => exact sound.2
  | handling r h =>
    obtain ⟨-, spent, -⟩ := sound
    cases permit with
    | true => rfl
    | false =>
      simp only [Call.working, spent rfl] at working
      cases working

theorem honest : Honest (clients x) fun c => ∃ v, c = new v where
  turn := by
    rintro free ⟨progress, permit⟩ input
    simp only [clients]
    cases progress with
    | gone => exact .inl
    | acquiring v usage =>
      cases input with
      | acquire elapsed =>
        simp only [step]
        cases free with
        | true => exact fun _ => .inr rfl
        | false => exact nofun
      | identity elapsed result => exact .inl
      | turn turn =>
        cases turn with
        | drop elapsed => exact nofun
        | upstream elapsed input => exact .inl
        | pump elapsed late => exact .inl
    | identifying v usage =>
      cases input with
      | acquire elapsed => exact .inl
      | identity elapsed result =>
        cases result with
        | error e => exact nofun
        | ok identity =>
          simp only [step]
          split
          next => exact nofun
          next => exact fun held => .inl (Bool.and_eq_true_iff.1 held).1
      | turn turn =>
        cases turn with
        | drop elapsed => exact nofun
        | upstream elapsed input => exact .inl
        | pump elapsed late => exact .inl
    | handling r h =>
      cases input with
      | acquire elapsed => exact .inl
      | identity elapsed result => exact .inl
      | turn turn => exact fun held => .inl (Bool.and_eq_true_iff.1 held).1
  join := by
    rintro c ⟨v, rfl⟩
    rfl

theorem drop_leaves (free : Bool) {c : Call} (sound : c.Sound) (elapsed : Nat) :
    (c.step x free (.turn (.drop elapsed))).1.permit = false := by
  obtain ⟨progress, permit⟩ := c
  cases progress with
  | gone => exact sound
  | acquiring v usage | identifying v usage => rfl
  | handling r h =>
    have ends : (h.step r (.drop elapsed)).1.stage = .ended := (h.drop_once sound.1 elapsed).2.1
    simp [step, ends, keeps]

end Call

end KiroTrust.Server
