import Mathlib.Algebra.BigOperators.Group.List.Basic
import Mathlib.Algebra.GroupWithZero.Nat
import Mathlib.Data.List.Nodup
import Mathlib.Order.Nat

set_option autoImplicit false

namespace Tally

/-! Sums and maxima over a history, as a whole and by the classes of its entries. -/

variable {E F K : Type}

def total (weight : E → Nat) (history : List E) : Nat := (history.map weight).sum

def peak (size : E → Nat) (history : List E) : Nat := (history.map size).foldr max 0

@[simp] theorem total_nil (weight : E → Nat) : total weight [] = 0 := rfl

@[simp] theorem total_cons (weight : E → Nat) (entry : E) (history : List E) :
    total weight (entry :: history) = weight entry + total weight history := by
  simp [total]

@[simp] theorem total_append (weight : E → Nat) (left right : List E) :
    total weight (left ++ right) = total weight left + total weight right := by
  simp [total]

theorem total_add (left right : E → Nat) (history : List E) :
    total (fun entry => left entry + right entry) history = total left history + total right history := by
  simp [total, List.sum_map_add]

theorem total_map (weight : F → Nat) (f : E → F) (history : List E) :
    total weight (history.map f) = total (fun entry => weight (f entry)) history := by
  simp [total, Function.comp_def]

theorem total_congr {left right : E → Nat} {history : List E}
    (same : ∀ entry ∈ history, left entry = right entry) : total left history = total right history := by
  simp only [total, List.map_congr_left same]

theorem total_eq_zero {weight : E → Nat} {history : List E} :
    total weight history = 0 ↔ ∀ entry ∈ history, weight entry = 0 := by
  induction history with
  | nil => simp
  | cons entry rest ih => simp [ih]

theorem total_comm (weight : K → E → Nat) (keys : List K) (history : List E) :
    total (fun k => total (weight k) history) keys = total (fun entry => total (weight · entry) keys) history := by
  induction history with
  | nil => exact total_eq_zero.2 fun _ _ => rfl
  | cons entry rest ih => simp only [total_cons, total_add, ih]

theorem total_single [DecidableEq K] (value : Nat) {keys : List K} (distinct : keys.Nodup) {key : K}
    (inside : key ∈ keys) : total (fun k => if key = k then value else 0) keys = value := by
  have once := List.sum_map_eq_nsmul_single key (fun k => if key = k then value else 0) (l := keys)
    fun other differs _ => if_neg differs.symm
  simpa [total, List.count_eq_one_of_mem distinct inside] using once

theorem total_filterMap {kept : E → Option F} {weight : F → Nat} (history : List E) :
    total weight (history.filterMap kept) = total (fun entry => (kept entry).elim 0 weight) history := by
  induction history with
  | nil => rfl
  | cons entry rest ih =>
    cases found : kept entry <;> simp [found, ih]

theorem peak_le {size : E → Nat} {history : List E} {bound : Nat} :
    peak size history ≤ bound ↔ ∀ entry ∈ history, size entry ≤ bound := by
  induction history with
  | nil => simp [peak]
  | cons entry rest ih => rw [List.forall_mem_cons, ← ih, ← Nat.max_le, peak, List.map_cons, List.foldr_cons, peak]

theorem peak_concat (size : E → Nat) (history : List E) (last : E) :
    peak size (history ++ [last]) = max (peak size history) (size last) := by
  apply eq_of_forall_ge_iff
  intro bound
  rw [Nat.max_le, peak_le, peak_le, List.forall_mem_append, List.forall_mem_singleton]

theorem peak_congr {left right : E → Nat} {history : List E}
    (same : ∀ entry ∈ history, left entry = right entry) : peak left history = peak right history := by
  simp only [peak, List.map_congr_left same]

theorem peak_map (size : F → Nat) (f : E → F) (history : List E) :
    peak size (history.map f) = peak (fun entry => size (f entry)) history := by
  simp [peak, Function.comp_def]

theorem peak_filterMap {kept : E → Option F} {size : F → Nat} (history : List E) :
    peak size (history.filterMap kept) = peak (fun entry => (kept entry).elim 0 size) history := by
  apply eq_of_forall_ge_iff
  intro bound
  simp only [peak_le, List.mem_filterMap]
  constructor
  · intro below entry inside
    cases found : kept entry with
    | none => exact Nat.zero_le bound
    | some value => exact below value ⟨entry, inside, found⟩
  · rintro below value ⟨entry, inside, found⟩
    simpa [found] using below entry inside

section Classes

variable [DecidableEq K] (key : E → K)

def ofClass (k : K) (history : List E) : List E := history.filter fun entry => key entry = k

theorem total_classes (weight : E → Nat) {keys : List K} (distinct : keys.Nodup) {history : List E}
    (covered : ∀ entry ∈ history, key entry ∈ keys) :
    total (fun k => total weight (ofClass key k history)) keys = total weight history := by
  induction history with
  | nil => exact total_eq_zero.2 fun _ _ => rfl
  | cons entry rest ih =>
    obtain ⟨here, later⟩ := List.forall_mem_cons.1 covered
    have splits : ∀ k ∈ keys, total weight (ofClass key k (entry :: rest)) =
        (if key entry = k then weight entry else 0) + total weight (ofClass key k rest) := by
      intro k _
      by_cases same : key entry = k <;> simp [ofClass, same]
    rw [total_congr splits, total_add, total_single _ distinct here, ih later, total_cons]

theorem peak_classes (size : E → Nat) {keys : List K} {history : List E}
    (covered : ∀ entry ∈ history, key entry ∈ keys) :
    peak (fun k => peak size (ofClass key k history)) keys = peak size history := by
  apply eq_of_forall_ge_iff
  intro bound
  simp only [peak_le, ofClass, List.mem_filter, decide_eq_true_eq]
  constructor
  · intro below entry inside
    exact below _ (covered entry inside) entry ⟨inside, rfl⟩
  · intro below k _ entry inside
    exact below entry inside.1

end Classes

end Tally
