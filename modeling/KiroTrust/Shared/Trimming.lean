import Mathlib.Data.List.TakeWhile

set_option autoImplicit false

namespace Trimming

/-! A text without the blanks at its ends. -/

variable {A : Type} (blank : A → Bool)

def trim (text : List A) : List A := ((text.dropWhile blank).reverse.dropWhile blank).reverse

structure Solid (core : List A) : Prop where
  first : ∀ a ∈ core.head?, blank a = false
  last : ∀ a ∈ core.getLast?, blank a = false

def Padded (core text : List A) : Prop :=
  ∃ before after, (∀ a ∈ before, blank a = true) ∧ (∀ a ∈ after, blank a = true) ∧ text = before ++ core ++ after

variable {blank}

theorem Solid.reverse {core : List A} (solid : Solid blank core) : Solid blank core.reverse where
  first := by
    rw [List.head?_reverse]
    exact solid.last
  last := by
    rw [List.getLast?_reverse]
    exact solid.first

theorem Solid.of_all {core : List A} (all : ∀ a ∈ core, blank a = false) : Solid blank core where
  first := fun a here => all a (List.mem_of_mem_head? here)
  last := fun a here => all a (List.mem_of_getLast? here)

theorem dropWhile_padded {before core : List A} (rest : List A) (front : ∀ a ∈ before, blank a = true)
    (first : ∀ a ∈ core.head?, blank a = false) (nonempty : core ≠ []) :
    (before ++ (core ++ rest)).dropWhile blank = core ++ rest := by
  obtain ⟨a, more, rfl⟩ := List.exists_cons_of_ne_nil nonempty
  rw [List.dropWhile_append_of_pos front]
  simp [first a rfl]

theorem dropWhile_first (text : List A) : ∀ a ∈ (text.dropWhile blank).head?, blank a = false := by
  intro a here
  have stops := List.head?_dropWhile_not blank text
  rw [Option.mem_def.1 here] at stops
  exact stops

theorem trim_iff {text core : List A} : trim blank text = core ↔ Solid blank core ∧ Padded blank core text := by
  constructor
  · rintro rfl
    let opened := text.dropWhile blank
    have front : text = text.takeWhile blank ++ opened := List.takeWhile_append_dropWhile.symm
    have back : opened = trim blank text ++ (opened.reverse.takeWhile blank).reverse := by
      have whole : opened.reverse = opened.reverse.takeWhile blank ++ opened.reverse.dropWhile blank :=
        List.takeWhile_append_dropWhile.symm
      have turned := congrArg List.reverse whole
      rw [List.reverse_reverse, List.reverse_append] at turned
      exact turned
    refine ⟨⟨fun a here => ?_, fun a here => ?_⟩, _, _, fun a inside => ?_, fun a inside => ?_,
      front.trans (congrArg (_ ++ ·) back |>.trans (List.append_assoc ..).symm)⟩
    · refine dropWhile_first text a ?_
      change a ∈ opened.head?
      rw [back, List.head?_append, Option.mem_def.1 here]
      rfl
    · rw [trim, List.getLast?_reverse] at here
      exact dropWhile_first _ a here
    · exact List.mem_takeWhile_imp inside
    · exact List.mem_takeWhile_imp (List.mem_reverse.1 inside)
  · rintro ⟨solid, before, after, front, back, rfl⟩
    by_cases empty : core = []
    · have all : ∀ a ∈ before ++ after, blank a = true := List.forall_mem_append.2 ⟨front, back⟩
      simp [trim, empty, List.dropWhile_eq_nil_iff.2 all]
    · have behind : ∀ a ∈ after.reverse, blank a = true := fun a inside => back a (List.mem_reverse.1 inside)
      have turned := dropWhile_padded [] behind solid.reverse.first (by simpa using empty)
      rw [trim, List.append_assoc, dropWhile_padded after front solid.first empty, List.reverse_append,
        ← List.append_nil core.reverse, turned]
      simp

end Trimming
