import Mathlib.Data.List.Basic

set_option autoImplicit false

namespace Rounds

variable {S A : Type} {step : S → A → S} {rank : S → Nat} {Inv : S → Prop} {Allowed : A → Prop}
  {Fair : List A → Prop}

/-! Machines in which every action rests or comes closer to the end, under schedulers that work in fair rounds. -/

structure Descent (step : S → A → S) (rank : S → Nat) (Inv : S → Prop) (Allowed : A → Prop)
    (Fair : List A → Prop) : Prop where
  keeps : ∀ {s a}, Inv s → Allowed a → Inv (step s a)
  rests : ∀ {s a}, Inv s → Allowed a → step s a = s ∨ rank (step s a) < rank s
  moves : ∀ {s round}, Inv s → Fair round → 0 < rank s → ∃ a ∈ round, step s a ≠ s

def run (step : S → A → S) (s : S) (actions : List A) : S := actions.foldl step s

theorem run_append (s : S) (left right : List A) : run step s (left ++ right) = run step (run step s left) right :=
  List.foldl_append

theorem Descent.run_keeps (descent : Descent step rank Inv Allowed Fair) {s : S} {actions : List A} (holds : Inv s)
    (allowed : ∀ a ∈ actions, Allowed a) : Inv (run step s actions) := by
  induction actions generalizing s with
  | nil => exact holds
  | cons a rest ih =>
    obtain ⟨first, later⟩ := List.forall_mem_cons.1 allowed
    exact ih (descent.keeps holds first) later

theorem Descent.run_rests (descent : Descent step rank Inv Allowed Fair) {s : S} {actions : List A} (holds : Inv s)
    (allowed : ∀ a ∈ actions, Allowed a) :
    rank (run step s actions) < rank s ∨ run step s actions = s ∧ ∀ a ∈ actions, step s a = s := by
  induction actions generalizing s with
  | nil => exact .inr ⟨rfl, by simp⟩
  | cons a rest ih =>
    obtain ⟨first, later⟩ := List.forall_mem_cons.1 allowed
    have continues := ih (descent.keeps holds first) later
    change rank (run step (step s a) rest) < _ ∨ run step (step s a) rest = _ ∧ _
    obtain still | closer := descent.rests holds first
    · rw [still] at continues ⊢
      exact continues.imp_right fun ⟨same, all⟩ => ⟨same, List.forall_mem_cons.2 ⟨still, all⟩⟩
    · left
      obtain further | ⟨same, -⟩ := continues
      · exact Nat.lt_trans further closer
      · rwa [same]

theorem Descent.finishes (descent : Descent step rank Inv Allowed Fair) {s : S} {rounds : List (List A)}
    (holds : Inv s) (allowed : ∀ round ∈ rounds, ∀ a ∈ round, Allowed a) (fair : ∀ round ∈ rounds, Fair round)
    (enough : rank s ≤ rounds.length) : rank (run step s rounds.flatten) = 0 := by
  induction rounds generalizing s with
  | nil => exact Nat.le_zero.1 enough
  | cons round rest ih =>
    obtain ⟨first, later⟩ := List.forall_mem_cons.1 allowed
    obtain ⟨fairNow, fairLater⟩ := List.forall_mem_cons.1 fair
    rw [List.flatten_cons, run_append]
    apply ih (descent.run_keeps holds first) later fairLater
    rw [List.length_cons] at enough
    obtain closer | ⟨same, still⟩ := descent.run_rests holds first
    · omega
    · -- Nothing moves in a fair round: nothing is left to do.
      have ended : rank s = 0 := by
        by_contra left
        obtain ⟨a, inside, moved⟩ := descent.moves holds fairNow (Nat.pos_of_ne_zero left)
        exact moved (still a inside)
      rw [same, ended]
      exact Nat.zero_le _

end Rounds
