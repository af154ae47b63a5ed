import Mathlib.Data.List.Chain
import Mathlib.Data.Set.Basic

set_option autoImplicit false

namespace Exchange

variable {I A : Type}

/-! Conversations in which a turn may use things, and the next turn answers with results. -/

structure Turn (I : Type) where
  uses : Set I
  results : Set I

def silent : Turn I := ⟨∅, ∅⟩

def Answers (before after : Turn I) : Prop := after.results ⊆ before.uses

/-- Every result answers a use of the turn directly before it. -/
def Answered (turns : List (Turn I)) : Prop := (silent :: turns).IsChain Answers

theorem silent_answers (before : Turn I) : Answers before silent := Set.empty_subset _

theorem chain_by_uses {before other : Turn I} (same : before.uses = other.uses) {turns : List (Turn I)} :
    (before :: turns).IsChain Answers ↔ (other :: turns).IsChain Answers := by
  simp only [List.isChain_cons, Answers, same]

theorem chain_insert {before : Turn I} (nothing : before.uses = ∅) {turns : List (Turn I)} :
    (before :: silent :: turns).IsChain Answers ↔ (before :: turns).IsChain Answers := by
  rw [List.isChain_cons_cons, and_iff_right (silent_answers before)]
  exact chain_by_uses nothing.symm

theorem chain_insert_before {before next : Turn I} (nothing : next.results = ∅) {turns : List (Turn I)} :
    (before :: silent :: next :: turns).IsChain Answers ↔ (before :: next :: turns).IsChain Answers := by
  have follows (turn : Turn I) : Answers turn next := by
    unfold Answers
    rw [nothing]
    exact Set.empty_subset _
  simp only [List.isChain_cons_cons, silent_answers, follows, true_and]

theorem answered_silent {turns : List (Turn I)} : Answered (silent :: turns) ↔ Answered turns :=
  chain_insert rfl

theorem answered_concat {turns : List (Turn I)} {last : Turn I} :
    Answered (turns ++ [last]) ↔
      Answered turns ∧ ∀ id ∈ last.results, ∃ before ∈ turns.getLast?, id ∈ before.uses := by
  unfold Answered
  rw [← List.cons_append, List.isChain_append, and_congr_right_iff]
  intro chain
  simp only [List.isChain_singleton, true_and]
  cases ends : turns.getLast? with
  | none =>
    obtain rfl := List.getLast?_eq_none_iff.1 ends
    simp [Answers, silent, Set.subset_def]
  | some before =>
    have same : (silent :: turns).getLast? = some before := by
      rw [List.getLast?_cons, ends]
      rfl
    simp [same, Answers, Set.subset_def]

theorem answered_last_silent {turns : List (Turn I)} : Answered (turns ++ [silent]) ↔ Answered turns := by
  simp [answered_concat, silent]

def preceding (turns : List A) : Nat → Option A
  | 0 => none
  | index + 1 => turns[index]?

theorem chain_positions {R : A → A → Prop} {first : A} {turns : List A} :
    (first :: turns).IsChain R ↔
      ∀ (index : Nat) (turn : A), turns[index]? = some turn → R ((preceding turns index).getD first) turn := by
  rw [List.isChain_iff_getElem]
  constructor
  · intro chain index turn there
    obtain ⟨inside, rfl⟩ := List.getElem?_eq_some_iff.1 there
    have related := chain index (by simpa using inside)
    cases index with
    | zero => exact related
    | succ index =>
      have before : turns[index]? = some turns[index] := List.getElem?_eq_getElem (by omega)
      rw [preceding, before]
      exact related
  · intro related index inside
    have inside' : index < turns.length := by simpa using inside
    have here := related index turns[index] (List.getElem?_eq_getElem inside')
    cases index with
    | zero => exact here
    | succ index =>
      have before : turns[index]? = some turns[index] := List.getElem?_eq_getElem (by omega)
      rw [preceding, before] at here
      exact here

theorem answered_iff {turns : List (Turn I)} :
    Answered turns ↔ ∀ (index : Nat) (turn : Turn I), turns[index]? = some turn → ∀ id ∈ turn.results,
      ∃ before ∈ preceding turns index, id ∈ before.uses := by
  refine chain_positions.trans (forall_congr' fun index => forall_congr' fun turn => imp_congr_right fun _ => ?_)
  cases preceding turns index with
  | none => simp [Answers, silent, Set.subset_def]
  | some before => simp [Answers, Set.subset_def]

theorem answered_of_no_results {turns : List (Turn I)} (none : ∀ turn ∈ turns, turn.results = ∅) :
    Answered turns := by
  refine answered_iff.2 fun index turn there id inside => ?_
  rw [none turn (List.mem_of_getElem? there)] at inside
  exact absurd inside (Set.notMem_empty id)

end Exchange
