import KiroTrust.Shared.Search

set_option autoImplicit false

namespace Replace

variable {A : Type}

/-! Texts in which placeholders stand for segments of another text. -/

/-- The second text is the first one with the placeholder in place of some of its segments. -/
inductive Spliced (holder : List A) : List A → List A → Prop where
  | whole (text : List A) : Spliced holder text text
  | splice {text out : List A} (front cut : List A) (later : Spliced holder text out) :
      Spliced holder (front ++ (cut ++ text)) (front ++ (holder ++ out))

theorem Spliced.append_left {holder text out : List A} (front : List A) (spliced : Spliced holder text out) :
    Spliced holder (front ++ text) (front ++ out) := by
  cases spliced with
  | whole => exact .whole _
  | splice gap cut later =>
    rw [← List.append_assoc front gap, ← List.append_assoc front gap]
    exact .splice (front ++ gap) cut later

/-- Neither text contains the other, and neither ends with a part that the other begins with. -/
structure Apart (secret holder : List A) : Prop where
  outside : ¬ secret <:+: holder
  around : ¬ holder <:+: secret
  before : ∀ part, part <:+ secret → part <+: holder → part = []
  after : ∀ part, part <+: secret → part <:+ holder → part = []

theorem Apart.of_infix {secret holder front back : List A} (apart : Apart secret holder)
    (inside : secret <:+: front ++ (holder ++ back)) : secret <:+: front ∨ secret <:+: back := by
  obtain ⟨start, stop, same⟩ := inside
  rw [List.append_assoc] at same
  obtain ⟨rest, rfl, here⟩ | ⟨rest, rfl, here⟩ := List.append_eq_append_iff.1 same
  · -- The occurrence begins inside `front`.
    obtain ⟨common, rfl, -⟩ | ⟨common, rfl, held⟩ := List.append_eq_append_iff.1 here
    · exact .inl ⟨start, common, by simp⟩
    · obtain ⟨more, rfl, -⟩ | ⟨more, rfl, -⟩ := List.append_eq_append_iff.1 held
      · exact absurd ⟨rest, more, by simp⟩ apart.around
      · have none : common = [] := apart.before common (List.suffix_append _ _) (List.prefix_append _ _)
        subst none
        exact .inl ⟨start, [], by simp⟩
  · -- It begins inside the placeholder, or behind it.
    obtain ⟨common, rfl, rfl⟩ | ⟨common, rfl, held⟩ := List.append_eq_append_iff.1 here
    · exact .inr ⟨common, stop, by simp⟩
    · obtain ⟨more, rfl, -⟩ | ⟨more, rfl, rfl⟩ := List.append_eq_append_iff.1 held
      · exact absurd ⟨rest, more, by simp⟩ apart.outside
      · have none : common = [] := apart.after common (List.prefix_append _ _) (List.suffix_append _ _)
        subst none
        exact .inr ⟨[], stop, by simp⟩

theorem Spliced.absent {secret holder text out : List A} (apart : Apart secret holder)
    (spliced : Spliced holder text out) (absent : ¬ secret <:+: text) : ¬ secret <:+: out := by
  induction spliced with
  | whole => exact absent
  | splice front cut later ih =>
    intro inside
    rcases apart.of_infix inside with inFront | inRest
    · exact absent (inFront.trans (List.prefix_append _ _).isInfix)
    · refine ih (fun held => absent ?_) inRest
      exact held.trans ((List.suffix_append cut _).trans (List.suffix_append front _)).isInfix

variable [DecidableEq A]

instance (secret holder : List A) : Decidable (Apart secret holder) :=
  decidable_of_iff
    (¬ secret <:+: holder ∧ ¬ holder <:+: secret ∧
      (∀ part ∈ secret.tails, part <+: holder → part = []) ∧
        ∀ part ∈ secret.inits, part <:+ holder → part = [])
    ⟨fun ⟨outside, around, before, after⟩ =>
      ⟨outside, around, fun part ends => before part ((List.mem_tails _ _).2 ends),
        fun part starts => after part ((List.mem_inits _ _).2 starts)⟩,
    fun apart => ⟨apart.outside, apart.around, fun part ends => apart.before part ((List.mem_tails _ _).1 ends),
      fun part starts => apart.after part ((List.mem_inits _ _).1 starts)⟩⟩

structure Occurrence (A : Type) where
  front : List A
  gap : List A
  back : List A

def scan (pattern front text : List A) : List (Occurrence A) × List A :=
  if pattern = [] then ([], text)
  else
    match _found : Search.find pattern text with
    | none => ([], text)
    | some index =>
      let gap := text.take index
      let back := text.drop (index + pattern.length)
      let later := scan pattern (front ++ (gap ++ pattern)) back
      (⟨front, gap, back⟩ :: later.1, later.2)
termination_by text.length
decreasing_by
  have bound := (Search.find_some _found).1.bound
  have positive : 0 < pattern.length := List.length_pos_of_ne_nil (by assumption)
  rw [List.length_drop]
  omega

def written (write : Occurrence A → List A) (scanned : List (Occurrence A) × List A) : List A :=
  scanned.1.flatMap (fun found => found.gap ++ write found) ++ scanned.2

def rewrite (pattern : List A) (write : Occurrence A → List A) (text : List A) : List A :=
  written write (scan pattern [] text)

/-- `str::replace`, for a pattern that is not empty. -/
def replace (pattern holder text : List A) : List A := rewrite pattern (fun _ => holder) text

def FirstBehind (pattern gap back : List A) : Prop :=
  Search.find pattern (gap ++ (pattern ++ back)) = some gap.length

theorem firstBehind_of_find {pattern text : List A} {index : Nat} (found : Search.find pattern text = some index) :
    ∃ gap back, text = gap ++ (pattern ++ back) ∧ FirstBehind pattern gap back := by
  obtain ⟨⟨inside, back, held⟩, -⟩ := Search.find_some found
  have whole : text = text.take index ++ (pattern ++ back) := by rw [held, List.take_append_drop]
  have length : (text.take index).length = index := List.length_take_of_le inside
  refine ⟨text.take index, back, whole, ?_⟩
  rw [FirstBehind, ← whole, length]
  exact found

theorem FirstBehind.absent {pattern gap back : List A} (first : FirstBehind pattern gap back)
    (nonempty : pattern ≠ []) : ¬ pattern <:+: gap := by
  rw [Search.infix_iff_at]
  rintro ⟨index, here⟩
  have bound := here.bound
  have positive := List.length_pos_of_ne_nil nonempty
  exact (Search.find_some first).2 index (by omega) (here.append _)

theorem firstBehind_of_absent {first : A} {more gap back : List A} (once : first ∉ more)
    (absent : ¬ first :: more <:+: gap) : FirstBehind (first :: more) gap back := by
  rw [FirstBehind, Search.find_eq_some_iff]
  refine ⟨⟨by simp, by simp⟩, fun earlier less found => ?_⟩
  by_cases inside : earlier + (first :: more).length ≤ gap.length
  · exact absent ((Search.infix_iff_at _ _).2 ⟨earlier, found.of_append _ inside⟩)
  · -- The occurrence reaches over the end of the gap, where the pattern begins anew.
    obtain ⟨rest, whole⟩ := found.2
    have reach : gap.length - earlier < (first :: more).length := by omega
    have here : (first :: more)[gap.length - earlier]? = some first := by
      calc (first :: more)[gap.length - earlier]? = (first :: more ++ rest)[gap.length - earlier]? :=
            (List.getElem?_append_left reach).symm
        _ = some first := by
            rw [whole, List.getElem?_drop, Nat.add_sub_cancel' less.le, List.getElem?_append_right le_rfl]
            simp
    obtain ⟨count, counted⟩ := Nat.exists_eq_succ_of_ne_zero (Nat.sub_ne_zero_of_lt less)
    rw [counted, Nat.succ_eq_add_one, List.getElem?_cons_succ] at here
    exact once (List.mem_of_getElem? here)

omit [DecidableEq A] in
theorem drop_behind (pattern gap back : List A) :
    (gap ++ (pattern ++ back)).drop (gap.length + pattern.length) = back := by
  rw [← List.drop_drop, List.drop_left, List.drop_left]

theorem scan_induction {pattern : List A} (nonempty : pattern ≠ []) {motive : List A → Prop}
    (ends : ∀ text, Search.find pattern text = none → motive text)
    (finds : ∀ gap back, FirstBehind pattern gap back → motive back → motive (gap ++ (pattern ++ back)))
    (text : List A) : motive text := by
  induction length : text.length using Nat.strong_induction_on generalizing text with
  | _ size ih =>
    subst length
    cases found : Search.find pattern text with
    | none => exact ends text found
    | some index =>
      obtain ⟨gap, back, rfl, first⟩ := firstBehind_of_find found
      have positive := List.length_pos_of_ne_nil nonempty
      refine finds gap back first (ih back.length ?_ back rfl)
      simp only [List.length_append]
      omega

variable {pattern : List A}

theorem scan_none (front : List A) {text : List A} (found : Search.find pattern text = none) :
    scan pattern front text = ([], text) := by
  rw [scan]
  split
  · rfl
  · split <;> simp_all

theorem scan_found (nonempty : pattern ≠ []) (front : List A) {gap back : List A}
    (first : FirstBehind pattern gap back) :
    scan pattern front (gap ++ (pattern ++ back)) =
      (⟨front, gap, back⟩ :: (scan pattern (front ++ (gap ++ pattern)) back).1,
        (scan pattern (front ++ (gap ++ pattern)) back).2) := by
  rw [scan, if_neg nonempty]
  split
  next none => cases none.symm.trans first
  next index found =>
    cases found.symm.trans first
    simp only [List.take_left, drop_behind]

theorem scan_gaps (nonempty : pattern ≠ []) (front text : List A) :
    (∀ found ∈ (scan pattern front text).1, ¬ pattern <:+: found.gap) ∧
      ¬ pattern <:+: (scan pattern front text).2 := by
  induction text using scan_induction nonempty generalizing front with
  | ends text none =>
    rw [scan_none front none]
    exact ⟨List.forall_mem_nil _, (Search.find_eq_none_iff _ _).1 none⟩
  | finds gap back first ih =>
    obtain ⟨later, rest⟩ := ih (front ++ (gap ++ pattern))
    rw [scan_found nonempty front first]
    exact ⟨List.forall_mem_cons.2 ⟨first.absent nonempty, later⟩, rest⟩

theorem scan_places (front text : List A) :
    ∀ found ∈ (scan pattern front text).1,
      front ++ text = found.front ++ found.gap ++ (pattern ++ found.back) := by
  by_cases empty : pattern = []
  · rw [scan, if_pos empty]
    exact List.forall_mem_nil _
  induction text using scan_induction empty generalizing front with
  | ends text none =>
    rw [scan_none front none]
    exact List.forall_mem_nil _
  | finds gap back first ih =>
    rw [scan_found empty front first]
    refine List.forall_mem_cons.2 ⟨(List.append_assoc _ _ _).symm, fun found later => ?_⟩
    rw [← ih _ found later]
    simp only [List.append_assoc]

omit [DecidableEq A] in
theorem written_cons (write : Occurrence A → List A) (found : Occurrence A) (later : List (Occurrence A))
    (rest : List A) :
    written write (found :: later, rest) = found.gap ++ (write found ++ written write (later, rest)) := by
  simp only [written, List.flatMap_cons, List.append_assoc]

theorem scan_text (front text : List A) : written (fun _ => pattern) (scan pattern front text) = text := by
  by_cases empty : pattern = []
  · rw [scan, if_pos empty]
    rfl
  induction text using scan_induction empty generalizing front with
  | ends text none =>
    rw [scan_none front none]
    rfl
  | finds gap back first ih => rw [scan_found empty front first, written_cons, ih]

theorem rewrite_spliced {holder : List A} {write : Occurrence A → List A}
    (each : ∀ found, write found = holder ∨ write found = pattern) (text : List A) :
    Spliced holder text (rewrite pattern write text) := by
  have splices (scanned : List (Occurrence A) × List A) :
      Spliced holder (written (fun _ => pattern) scanned) (written write scanned) := by
    obtain ⟨all, rest⟩ := scanned
    induction all with
    | nil => exact .whole _
    | cons found later ih =>
      rw [written_cons, written_cons]
      rcases each found with replaced | kept
      · rw [replaced]
        exact .splice _ _ ih
      · rw [kept]
        exact (ih.append_left _).append_left _
  have whole := splices (scan pattern [] text)
  rw [scan_text] at whole
  exact whole

theorem replace_spliced (holder text : List A) : Spliced holder text (replace pattern holder text) :=
  rewrite_spliced (fun _ => .inl rfl) text

omit [DecidableEq A] in
theorem Apart.nonempty {secret holder : List A} (apart : Apart secret holder) : secret ≠ [] := by
  rintro rfl
  exact apart.outside (List.nil_infix)

theorem replace_absent {holder : List A} (apart : Apart pattern holder) (text : List A) :
    ¬ pattern <:+: replace pattern holder text := by
  obtain ⟨gaps, rest⟩ := scan_gaps apart.nonempty [] text
  rw [replace, rewrite]
  generalize scan pattern [] text = scanned at gaps rest
  obtain ⟨all, last⟩ := scanned
  induction all with
  | nil => exact rest
  | cons found later ih =>
    obtain ⟨here, others⟩ := List.forall_mem_cons.1 gaps
    rw [written_cons]
    intro inside
    rcases apart.of_infix inside with inGap | behind
    · exact here inGap
    · exact ih others rest behind

omit [DecidableEq A] in
theorem written_length_le (first second : Occurrence A → List A)
    (each : ∀ found, (first found).length ≤ (second found).length) (scanned : List (Occurrence A) × List A) :
    (written first scanned).length ≤ (written second scanned).length := by
  obtain ⟨all, rest⟩ := scanned
  induction all with
  | nil => exact le_refl _
  | cons found later ih =>
    have here := each found
    simp only [written_cons, List.length_append]
    omega

omit [DecidableEq A] in
theorem written_eq_iff (pattern holder : List A) {first second : Occurrence A → List A}
    (each : ∀ found, first found = second found ∨ first found = holder ∧ second found = pattern)
    (scanned : List (Occurrence A) × List A) :
    written first scanned = written second scanned ↔ ∀ found ∈ scanned.1, first found = second found := by
  obtain ⟨all, rest⟩ := scanned
  induction all with
  | nil => simp [written]
  | cons found later ih =>
    rw [written_cons, written_cons, List.append_cancel_left_eq, List.forall_mem_cons, ← ih]
    constructor
    · intro same
      by_cases agrees : first found = second found
      · rw [agrees, List.append_cancel_left_eq] at same
        exact ⟨agrees, same⟩
      · exfalso
        obtain ⟨holds, keeps⟩ := (each found).resolve_left agrees
        have lengths := congrArg List.length same
        rw [List.length_append, List.length_append, holds, keeps] at lengths
        -- The rest cannot make up for a difference in length: it differs in the same direction.
        have equal : holder.length = pattern.length := by
          rcases Nat.le_total holder.length pattern.length with shorter | longer
          · have rest := written_length_le first second (fun found => by
              obtain same | ⟨holds, keeps⟩ := each found
              · exact (congrArg List.length same).le
              · rwa [holds, keeps]) (later, rest)
            omega
          · have rest := written_length_le second first (fun found => by
              obtain same | ⟨holds, keeps⟩ := each found
              · exact (congrArg List.length same).ge
              · rwa [holds, keeps]) (later, rest)
            omega
        rw [holds, keeps] at same
        exact agrees (holds.trans ((List.append_inj_left same equal).trans keeps.symm))
    · rintro ⟨agrees, same⟩
      rw [agrees, same]

end Replace
