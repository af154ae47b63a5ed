import Mathlib.Data.List.Infix

set_option autoImplicit false

namespace Search

variable {A : Type}

def At (pattern text : List A) (index : Nat) : Prop :=
  index ≤ text.length ∧ pattern <+: text.drop index

def EndsAt (pattern text : List A) (stop : Nat) : Prop :=
  ∃ index, At pattern text index ∧ index + pattern.length = stop

theorem at_zero (pattern text : List A) : At pattern text 0 ↔ pattern <+: text := by
  simp [At]

theorem at_cons_succ (pattern text : List A) (head : A) (index : Nat) :
    At pattern (head :: text) (index + 1) ↔ At pattern text index := by
  simp [At]

theorem At.bound {pattern text : List A} {index : Nat} (found : At pattern text index) :
    index + pattern.length ≤ text.length := by
  have fits := found.2.length_le
  have inside := found.1
  rw [List.length_drop] at fits
  omega

theorem At.append {pattern text : List A} {index : Nat} (found : At pattern text index)
    (later : List A) : At pattern (text ++ later) index := by
  refine ⟨by simpa using Nat.le_add_right_of_le found.1, ?_⟩
  rw [List.drop_append_of_le_length found.1]
  exact found.2.trans (List.prefix_append _ _)

theorem At.of_append {pattern text : List A} {index : Nat} (later : List A)
    (found : At pattern (text ++ later) index) (inside : index + pattern.length ≤ text.length) :
    At pattern text index := by
  have start : index ≤ text.length := by omega
  refine ⟨start, ?_⟩
  have whole := found.2
  rw [List.drop_append_of_le_length start] at whole
  apply List.prefix_of_prefix_length_le whole (List.prefix_append _ _)
  rw [List.length_drop]
  omega

theorem at_append_right (pattern front text : List A) (index : Nat) :
    At pattern (front ++ text) (front.length + index) ↔ At pattern text index := by
  have past : front.drop (front.length + index) = [] := List.drop_eq_nil_of_le (by omega)
  simp [At, List.drop_append, past]

theorem infix_iff_at (pattern text : List A) : pattern <:+: text ↔ ∃ index, At pattern text index := by
  constructor
  · rintro ⟨front, back, rfl⟩
    refine ⟨front.length, by simp, ?_⟩
    simp [List.append_assoc]
  · rintro ⟨index, _, found⟩
    exact found.isInfix.trans (List.drop_suffix index text).isInfix

theorem EndsAt.bound {pattern text : List A} {stop : Nat} (found : EndsAt pattern text stop) :
    stop ≤ text.length := by
  obtain ⟨index, here, rfl⟩ := found
  exact here.bound

theorem EndsAt.append {pattern text : List A} {stop : Nat} (found : EndsAt pattern text stop)
    (later : List A) : EndsAt pattern (text ++ later) stop := by
  obtain ⟨index, here, rfl⟩ := found
  exact ⟨index, here.append later, rfl⟩

theorem EndsAt.of_append {pattern text : List A} {stop : Nat} (later : List A)
    (found : EndsAt pattern (text ++ later) stop) (inside : stop ≤ text.length) :
    EndsAt pattern text stop := by
  obtain ⟨index, here, rfl⟩ := found
  exact ⟨index, here.of_append later inside, rfl⟩

theorem infix_iff_endsAt (pattern text : List A) :
    pattern <:+: text ↔ ∃ stop, EndsAt pattern text stop := by
  rw [infix_iff_at]
  constructor
  · rintro ⟨index, here⟩
    exact ⟨_, index, here, rfl⟩
  · rintro ⟨_, index, here, _⟩
    exact ⟨index, here⟩

theorem infix_take_iff (pattern text : List A) (count : Nat) :
    pattern <:+: text.take count ↔ ∃ stop ≤ count, EndsAt pattern text stop := by
  rw [infix_iff_endsAt]
  constructor
  · rintro ⟨stop, found⟩
    have bound := found.bound
    have whole := found.append (text.drop count)
    rw [List.take_append_drop] at whole
    exact ⟨stop, by simp only [List.length_take] at bound; omega, whole⟩
  · rintro ⟨stop, inside, found⟩
    have bound := found.bound
    refine ⟨stop, EndsAt.of_append (text.drop count) ?_ ?_⟩
    · rwa [List.take_append_drop]
    · simp only [List.length_take]
      omega

/--
A window that keeps the last `pattern.length - 1` elements of a text without the pattern holds
every occurrence that later input completes.
-/
theorem At.in_window {pattern front window later : List A} {index : Nat}
    (here : At pattern (front ++ (window ++ later)) index) (absent : ¬ pattern <:+: front ++ window)
    (kept : front = [] ∨ pattern.length ≤ window.length + 1) : front.length ≤ index := by
  by_contra before
  apply absent
  rw [infix_iff_at]
  refine ⟨index, At.of_append later (by rwa [List.append_assoc]) ?_⟩
  rcases kept with empty | fits
  · simp [empty] at before
  · simp only [List.length_append]
    omega

variable [DecidableEq A]

def find (pattern : List A) : List A → Option Nat
  | [] => if pattern = [] then some 0 else none
  | head :: rest =>
    if pattern.isPrefixOf (head :: rest) then some 0 else (find pattern rest).map (· + 1)

theorem find_some {pattern text : List A} {index : Nat} (found : find pattern text = some index) :
    At pattern text index ∧ ∀ earlier < index, ¬ At pattern text earlier := by
  induction text generalizing index with
  | nil =>
    by_cases empty : pattern = []
    · simp only [find, empty, if_true, Option.some.injEq] at found
      subst found
      simp [At, empty]
    · simp [find, empty] at found
  | cons head rest ih =>
    rw [find] at found
    split at found
    next here =>
      cases found
      exact ⟨(at_zero _ _).2 (List.isPrefixOf_iff_prefix.1 here), by simp⟩
    next absent =>
      obtain ⟨before, inner, rfl⟩ := Option.map_eq_some_iff.1 found
      obtain ⟨here, first⟩ := ih inner
      refine ⟨(at_cons_succ _ _ _ _).2 here, ?_⟩
      intro earlier less occurs
      cases earlier with
      | zero =>
        rw [at_zero, ← List.isPrefixOf_iff_prefix] at occurs
        exact absent occurs
      | succ earlier => exact first earlier (by omega) ((at_cons_succ _ _ _ _).1 occurs)

theorem find_none {pattern text : List A} (found : find pattern text = none) (index : Nat) :
    ¬ At pattern text index := by
  induction text generalizing index with
  | nil =>
    by_cases empty : pattern = []
    · simp [find, empty] at found
    · simp [At, empty]
  | cons head rest ih =>
    rw [find] at found
    split at found
    next here => cases found
    next absent =>
      have inner := Option.map_eq_none_iff.1 found
      cases index with
      | zero =>
        rw [at_zero, ← List.isPrefixOf_iff_prefix]
        exact absent
      | succ index => rw [at_cons_succ]; exact ih inner index

theorem find_eq_none_iff (pattern text : List A) : find pattern text = none ↔ ¬ pattern <:+: text := by
  rw [infix_iff_at]
  constructor
  · rintro absent ⟨index, here⟩
    exact find_none absent index here
  · intro absent
    cases found : find pattern text with
    | none => rfl
    | some index => exact (absent ⟨index, (find_some found).1⟩).elim

theorem find_eq_some_iff (pattern text : List A) (index : Nat) :
    find pattern text = some index ↔
      At pattern text index ∧ ∀ earlier < index, ¬ At pattern text earlier := by
  refine ⟨find_some, fun ⟨here, first⟩ => ?_⟩
  cases found : find pattern text with
  | none => exact (find_none found index here).elim
  | some other =>
    obtain ⟨there, least⟩ := find_some found
    have equal : other = index := by
      rcases lt_trichotomy other index with less | equal | more
      · exact (first other less there).elim
      · exact equal
      · exact (least index more here).elim
    rw [equal]

theorem find_append_from {pattern front text : List A}
    (inside : ∀ index, At pattern (front ++ text) index → front.length ≤ index) :
    find pattern (front ++ text) = (find pattern text).map (front.length + ·) := by
  cases found : find pattern text with
  | none =>
    rw [Option.map_none, find_eq_none_iff, infix_iff_at]
    rintro ⟨index, here⟩
    obtain ⟨offset, rfl⟩ := Nat.exists_eq_add_of_le (inside index here)
    exact find_none found offset ((at_append_right _ _ _ _).1 here)
  | some offset =>
    obtain ⟨here, first⟩ := find_some found
    rw [Option.map_some, find_eq_some_iff]
    refine ⟨(at_append_right _ _ _ _).2 here, fun earlier less occurs => ?_⟩
    obtain ⟨before, rfl⟩ := Nat.exists_eq_add_of_le (inside earlier occurs)
    exact first before (by omega) ((at_append_right _ _ _ _).1 occurs)

theorem find_append_found {pattern text : List A} {index : Nat} (found : find pattern text = some index)
    (later : List A) : find pattern (text ++ later) = some index := by
  obtain ⟨here, first⟩ := find_some found
  rw [find_eq_some_iff]
  refine ⟨here.append later, fun earlier less occurs => ?_⟩
  have bound := here.bound
  exact first earlier less (occurs.of_append later (by omega))

theorem find_append_window {pattern front window : List A} (later : List A)
    (absent : ¬ pattern <:+: front ++ window)
    (kept : front = [] ∨ pattern.length ≤ window.length + 1) :
    find pattern (front ++ (window ++ later)) =
      (find pattern (window ++ later)).map (front.length + ·) :=
  find_append_from fun _ here => here.in_window absent kept

theorem find_append_cut {pattern text : List A} {cut : Nat} (later : List A) (absent : find pattern text = none)
    (inside : cut ≤ text.length) (hopeless : ∀ index < cut, ¬ text.drop index <+: pattern) :
    find pattern (text ++ later) = (find pattern (text.drop cut ++ later)).map (cut + ·) := by
  have length : (text.take cut).length = cut := List.length_take_of_le inside
  have whole : text ++ later = text.take cut ++ (text.drop cut ++ later) := by
    rw [← List.append_assoc, List.take_append_drop]
  rw [whole, find_append_from, length]
  intro index here
  rw [← whole] at here
  rw [length]
  by_contra before
  by_cases fits : index + pattern.length ≤ text.length
  · exact find_none absent index (here.of_append later fits)
  · -- What is left of the text from here on is the beginning of the pattern.
    have start : index ≤ text.length := by omega
    have occurs := here.2
    rw [List.drop_append_of_le_length start] at occurs
    apply hopeless index (by omega)
    apply List.prefix_of_prefix_length_le (List.prefix_append _ later) occurs
    rw [List.length_drop]
    omega

theorem find_downwards (p : Nat → Bool) (bound : Nat) :
    let found := ((List.range' 1 bound).reverse.find? p).getD 0
    found ≤ bound ∧ (0 < found → p found = true) ∧ ∀ n, found < n → n ≤ bound → p n = false := by
  induction bound with
  | zero =>
    refine ⟨Nat.le_refl 0, fun positive => absurd positive (Nat.lt_irrefl 0), ?_⟩
    intro n above below
    omega
  | succ bound ih =>
    have split : (List.range' 1 (bound + 1)).reverse = (bound + 1) :: (List.range' 1 bound).reverse := by
      simp [List.range'_1_concat, Nat.add_comm]
    rw [split, List.find?_cons]
    cases here : p (bound + 1) with
    | true =>
      refine ⟨Nat.le_refl _, fun _ => here, ?_⟩
      intro n above below
      have above : bound + 1 < n := above
      omega
    | false =>
      obtain ⟨small, holds, above⟩ := ih
      refine ⟨Nat.le_succ_of_le small, holds, ?_⟩
      intro n more below
      by_cases last : n = bound + 1
      · rw [last, here]
      · exact above n more (by omega)

end Search
