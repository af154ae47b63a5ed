import KiroTrust.Translate.Response

set_option autoImplicit false

namespace KiroTrust.Translate

/-! The thinking tags, and the split of a whole text by them. -/

def tagOf (inside : Bool) : Str := if inside then closeTag else openTag

theorem tagOf_pos (inside : Bool) : 0 < (tagOf inside).length := by cases inside <;> decide

def onSide (inside : Bool) (part : Str) (later : Str × Str) : Str × Str :=
  if inside then (later.1, part ++ later.2) else (part ++ later.1, later.2)

theorem onSide_append (inside : Bool) (left right : Str) (later : Str × Str) :
    onSide inside (left ++ right) later = onSide inside left (onSide inside right later) := by
  cases inside <;> simp [onSide]

/-- The text and the thinking of a text, by alternating tags; what is no whole tag is content. -/
def sides (inside : Bool) (text : Str) : Str × Str :=
  match _found : Search.find (tagOf inside) text with
  | some idx => onSide inside (text.take idx) (sides (!inside) (text.drop (idx + (tagOf inside).length)))
  | none => onSide inside text ([], [])
termination_by text.length
decreasing_by
  have bound := (Search.find_some _found).1.bound
  have positive := tagOf_pos inside
  simp only [List.length_drop]
  omega

theorem sides_found {inside : Bool} {text : Str} {idx : Nat} (found : Search.find (tagOf inside) text = some idx) :
    sides inside text =
      onSide inside (text.take idx) (sides (!inside) (text.drop (idx + (tagOf inside).length))) := by
  rw [sides]
  split
  next other found' =>
    rw [found] at found'
    cases found'
    rfl
  next absent =>
    rw [found] at absent
    cases absent

theorem sides_absent {inside : Bool} {text : Str} (absent : Search.find (tagOf inside) text = none) :
    sides inside text = onSide inside text ([], []) := by
  rw [sides]
  split
  next idx found =>
    rw [absent] at found
    cases found
  next => rfl

theorem partialTagSuffix_spec (s tag : Str) :
    let keep := partialTagSuffix s tag
    keep ≤ min (tag.length - 1) s.length ∧ (0 < keep → s.drop (s.length - keep) = tag.take keep) ∧
      ∀ n, keep < n → n ≤ min (tag.length - 1) s.length → s.drop (s.length - n) ≠ tag.take n := by
  obtain ⟨bound, holds, longest⟩ := Search.find_downwards (fun n => s.drop (s.length - n) = tag.take n)
    (min (tag.length - 1) s.length)
  refine ⟨bound, fun positive => ?_, fun n more less => ?_⟩
  · exact of_decide_eq_true (holds positive)
  · exact of_decide_eq_false (longest n more less)

theorem partialTagSuffix_short (s tag : Str) (positive : 0 < tag.length) : partialTagSuffix s tag < tag.length := by
  have bound := (partialTagSuffix_spec s tag).1
  omega

theorem partialTagSuffix_longest {s tag : Str} (absent : Search.find tag s = none) {index : Nat}
    (before : index < s.length - partialTagSuffix s tag) : ¬ s.drop index <+: tag := by
  -- Where the search stops, every longer suffix has been tried.
  intro starts
  have longest := (partialTagSuffix_spec s tag).2.2 (s.length - index) (by omega)
  have fits := starts.length_le
  rw [List.length_drop] at fits
  by_cases proper : s.length - index ≤ tag.length - 1
  · have begins : s.drop index = tag.take (s.length - index) := by
      rw [List.prefix_iff_eq_take.1 starts, List.length_drop]
    apply longest (by omega)
    rwa [Nat.sub_sub_self (by omega)]
  · -- A whole tag would have been found.
    have whole : s.drop index = tag := starts.eq_of_length (by rw [List.length_drop]; omega)
    exact Search.find_none absent index ⟨by omega, whole ▸ List.prefix_rfl⟩

theorem splitTags_found {inside : Bool} {buf : Str} {idx : Nat} (found : Search.find (tagOf inside) buf = some idx) :
    let later := splitTags (!inside) (buf.drop (idx + (tagOf inside).length))
    let part := onSide inside (buf.take idx) (later.text, later.think)
    (splitTags inside buf).text = part.1 ∧ (splitTags inside buf).think = part.2 ∧
      (splitTags inside buf).inside = later.inside ∧ (splitTags inside buf).buf = later.buf := by
  have nonempty : buf ≠ [] := by
    rintro rfl
    have bound := (Search.find_some found).1.bound
    have positive := tagOf_pos inside
    simp only [List.length_nil] at bound
    omega
  intro later part
  rw [splitTags.eq_def inside buf]
  cases inside <;> simp_all [tagOf, onSide, later, part]

theorem splitTags_absent {inside : Bool} {buf : Str} (absent : Search.find (tagOf inside) buf = none) :
    let cut := buf.length - partialTagSuffix buf (tagOf inside)
    let part := onSide inside (buf.take cut) ([], [])
    (splitTags inside buf).text = part.1 ∧ (splitTags inside buf).think = part.2 ∧
      (splitTags inside buf).inside = inside ∧ (splitTags inside buf).buf = buf.drop cut := by
  rw [splitTags]
  by_cases empty : buf = []
  · cases inside <;> simp [empty, onSide]
  · cases inside <;> simp_all [tagOf, onSide]

theorem find_kept {inside : Bool} {buf : Str} (absent : Search.find (tagOf inside) buf = none) (later : Str) :
    let cut := buf.length - partialTagSuffix buf (tagOf inside)
    Search.find (tagOf inside) (buf ++ later) =
      (Search.find (tagOf inside) (buf.drop cut ++ later)).map (cut + ·) :=
  Search.find_append_cut later absent (Nat.sub_le _ _) fun _ before => partialTagSuffix_longest absent before

theorem sides_splitTags (inside : Bool) (buf later : Str) :
    let split := splitTags inside buf
    let rest := sides split.inside (split.buf ++ later)
    sides inside (buf ++ later) = (split.text ++ rest.1, split.think ++ rest.2) := by
  induction inside, buf using sides.induct with
  | case1 inside buf idx found ih =>
    obtain ⟨text, think, side, kept⟩ := splitTags_found found
    have bound := (Search.find_some found).1.bound
    have whole := sides_found (Search.find_append_found found later)
    rw [List.take_append_of_le_length (by omega), List.drop_append_of_le_length (by omega), ih] at whole
    simp only [text, think, side, kept]
    rw [whole]
    cases inside <;> simp [onSide]
  | case2 inside buf absent =>
    obtain ⟨text, think, side, kept⟩ := splitTags_absent absent
    let cut := buf.length - partialTagSuffix buf (tagOf inside)
    have inBuffer : cut ≤ buf.length := Nat.sub_le _ _
    have search := find_kept absent later
    change _ = Option.map (cut + ·) (Search.find (tagOf inside) (buf.drop cut ++ later)) at search
    have parts : buf.take cut ++ (buf.drop cut ++ later) = buf ++ later := by
      rw [← List.append_assoc, List.take_append_drop]
    simp only [text, think, side, kept]
    cases found : Search.find (tagOf inside) (buf.drop cut ++ later) with
    | none =>
      rw [found] at search
      rw [sides_absent search, sides_absent found, ← parts]
      cases inside <;> simp [onSide, cut]
    | some idx =>
      rw [found] at search
      have length : (buf.take cut).length = cut := List.length_take_of_le inBuffer
      have front : (buf ++ later).take (cut + idx) = buf.take cut ++ (buf.drop cut ++ later).take idx := by
        rw [← parts, List.take_append, List.take_of_length_le (by omega), length, Nat.add_sub_cancel_left]
      have back (count : Nat) : (buf ++ later).drop (cut + idx + count) = (buf.drop cut ++ later).drop (idx + count) := by
        rw [Nat.add_assoc, ← List.drop_drop, List.drop_append_of_le_length inBuffer]
      rw [sides_found search, sides_found found, front, back, onSide_append]
      cases inside <;> simp [onSide, cut]

theorem splitTags_buf (inside : Bool) (buf : Str) :
    Search.find (tagOf (splitTags inside buf).inside) (splitTags inside buf).buf = none := by
  induction inside, buf using sides.induct with
  | case1 inside buf idx found ih =>
    obtain ⟨_, _, side, kept⟩ := splitTags_found found
    rw [side, kept]
    exact ih
  | case2 inside buf absent =>
    obtain ⟨_, _, side, kept⟩ := splitTags_absent absent
    -- What is kept is shorter than the tag.
    have short := partialTagSuffix_short buf (tagOf inside) (tagOf_pos inside)
    rw [side, kept, Search.find_eq_none_iff]
    intro occurs
    have fits := occurs.length_le
    rw [List.length_drop] at fits
    omega

theorem splitTags_plain {delta : Str} (plain : '<' ∉ delta) : splitTags false delta = ⟨delta, [], false, [], false⟩ := by
  have absent : Search.find openTag delta = none := by
    rw [Search.find_eq_none_iff]
    intro occurs
    exact plain (occurs.subset (by decide))
  have nothing : partialTagSuffix delta openTag = 0 := by
    by_contra some
    have positive : 0 < partialTagSuffix delta openTag := Nat.pos_of_ne_zero some
    have begins := (partialTagSuffix_spec delta openTag).2.1 positive
    have first : '<' ∈ openTag.take (partialTagSuffix delta openTag) := by
      obtain ⟨n, same⟩ := Nat.exists_eq_succ_of_ne_zero some
      rw [same]
      exact List.mem_cons_self
    rw [← begins] at first
    exact plain (List.mem_of_mem_drop first)
  rw [splitTags]
  by_cases empty : delta = []
  · simp [empty]
  · simp [empty, absent, nothing]

namespace ResponseTranslator

theorem parseTags_split (t : ResponseTranslator) (delta : Str) :
    let split := splitTags t.tagInside (t.tagBuf ++ delta)
    (t.parseTags delta).2 = (split.text, split.think) ∧ (t.parseTags delta).1.tagInside = split.inside ∧
      (t.parseTags delta).1.tagBuf = split.buf := by
  unfold parseTags
  split
  next plain =>
    obtain ⟨empty, outside, noTag⟩ := plain
    simp [empty, outside, splitTags_plain noTag]
  next => exact ⟨rfl, rfl, rfl⟩

theorem parseTags_sides (t : ResponseTranslator) (delta later : Str) :
    let parsed := t.parseTags delta
    let rest := sides parsed.1.tagInside (parsed.1.tagBuf ++ later)
    sides t.tagInside (t.tagBuf ++ (delta ++ later)) = (parsed.2.1 ++ rest.1, parsed.2.2 ++ rest.2) := by
  obtain ⟨parts, side, kept⟩ := parseTags_split t delta
  have whole := sides_splitTags t.tagInside (t.tagBuf ++ delta) later
  rw [List.append_assoc] at whole
  simp only [parts, side, kept]
  exact whole

end ResponseTranslator

end KiroTrust.Translate
