import KiroTrust.Xtask.Scrub

set_option autoImplicit false

namespace KiroTrust.Xtask

open Replace (FirstBehind)

/-! `mask_msg_ids`: a recorded text is compared up to the ids of its messages. -/

def msgOpen : Str := "\"msg_".toList
def msgMasked : Str := "\"msg_MASKED\"".toList

/-- `end`: behind the closing quote, or the end of the text. -/
def idEnd (after : Str) : Nat :=
  match after.idxOf? '"' with
  | some quote => quote + 1
  | none => after.length

def maskMsgIds (s : Str) : Str :=
  match _found : Search.find msgOpen s with
  | none => s
  | some i =>
    let after := s.drop (i + 1)
    s.take i ++ (msgMasked ++ maskMsgIds (after.drop (idEnd after)))
termination_by s.length
decreasing_by
  have bound := (Search.find_some _found).1.bound
  have long : msgOpen.length = 5 := rfl
  simp only [List.length_drop]
  omega

/-- A text up to the next id, and that id with its closing quote. -/
structure Segment where
  gap : Str
  id : Str
  clean : ¬ msgOpen <:+: gap
  unquoted : '"' ∉ id

def Segment.text (segment : Segment) : Str := segment.gap ++ (msgOpen ++ (segment.id ++ ['"']))

/-- A text that is cut at its ids. The last of them may lack its quote, and then it is the end of the text. -/
structure CutText where
  segments : List Segment
  tail : Str
  last : Option Str
  clean : ¬ msgOpen <:+: tail
  unquoted : ∀ id ∈ last, '"' ∉ id

def openId (last : Option Str) : Str := (last.map fun id => msgOpen ++ id).getD []

def CutText.text (cut : CutText) : Str := cut.segments.flatMap Segment.text ++ (cut.tail ++ openId cut.last)

/-- The texts around the ids; nothing stands behind an open one. -/
def CutText.outside (cut : CutText) : List Str :=
  cut.segments.map Segment.gap ++ cut.tail :: (cut.last.map fun _ => []).toList

theorem find_segment {gap : Str} (absent : ¬ msgOpen <:+: gap) (back : Str) :
    Search.find msgOpen (gap ++ (msgOpen ++ back)) = some gap.length := by
  have begins : msgOpen = '"' :: "msg_".toList := rfl
  rw [begins] at absent ⊢
  exact Replace.firstBehind_of_absent (by decide) absent

theorem mask_none {s : Str} (absent : ¬ msgOpen <:+: s) : maskMsgIds s = s := by
  have none := (Search.find_eq_none_iff _ _).2 absent
  rw [maskMsgIds]
  split
  next => rfl
  next i found => cases none.symm.trans found

theorem mask_found {gap : Str} (absent : ¬ msgOpen <:+: gap) (back : Str) :
    maskMsgIds (gap ++ (msgOpen ++ back)) =
      gap ++ (msgMasked ++ maskMsgIds (("msg_".toList ++ back).drop (idEnd ("msg_".toList ++ back)))) := by
  have first := find_segment absent back
  have after : (gap ++ (msgOpen ++ back)).drop (gap.length + 1) = "msg_".toList ++ back := by
    rw [← List.drop_drop, List.drop_left]
    rfl
  rw [maskMsgIds]
  split
  next none => cases none.symm.trans first
  next i found =>
    cases found.symm.trans first
    simp only [after, List.take_left]

theorem idEnd_closed {id : Str} (closed : '"' ∉ id) (rest : Str) :
    ("msg_".toList ++ (id ++ '"' :: rest)).drop (idEnd ("msg_".toList ++ (id ++ '"' :: rest))) = rest := by
  have unquoted : '"' ∉ "msg_".toList ++ id := by
    rw [List.mem_append, not_or]
    exact ⟨by decide, closed⟩
  have whole : "msg_".toList ++ (id ++ '"' :: rest) = ("msg_".toList ++ id) ++ '"' :: rest := by
    rw [List.append_assoc]
  have quote : (("msg_".toList ++ id) ++ '"' :: rest).idxOf? '"' = some ("msg_".toList ++ id).length := by
    refine List.idxOf?_eq_some_iff.2 ⟨by simp, by simp, fun earlier less same => ?_⟩
    rw [List.getElem_append_left less] at same
    exact unquoted (same ▸ List.getElem_mem less)
  rw [whole, idEnd, quote]
  simp only
  rw [← List.drop_drop, List.drop_left]
  rfl

theorem idEnd_open {id : Str} (unquoted : '"' ∉ id) :
    ("msg_".toList ++ id).drop (idEnd ("msg_".toList ++ id)) = [] := by
  have absent : ("msg_".toList ++ id).idxOf? '"' = none := by
    rw [List.idxOf?_eq_none_iff, List.mem_append, not_or]
    exact ⟨by decide, unquoted⟩
  rw [idEnd, absent]
  exact List.drop_length

theorem mask_segment (segment : Segment) (rest : Str) :
    maskMsgIds (segment.text ++ rest) = segment.gap ++ (msgMasked ++ maskMsgIds rest) := by
  have whole : segment.text ++ rest = segment.gap ++ (msgOpen ++ (segment.id ++ '"' :: rest)) := by
    simp only [Segment.text, List.append_assoc, List.cons_append, List.nil_append]
  rw [whole, mask_found segment.clean, idEnd_closed segment.unquoted]

theorem clean_nil : ¬ msgOpen <:+: ([] : Str) := fun inside => absurd (List.infix_nil.1 inside) (by decide)

theorem mask_cut (cut : CutText) : maskMsgIds cut.text = msgMasked.intercalate cut.outside := by
  obtain ⟨segments, tail, last, clean, unquoted⟩ := cut
  unfold CutText.text CutText.outside
  induction segments with
  | nil =>
    cases last with
    | none =>
      have alone : maskMsgIds (tail ++ []) = tail := by rw [List.append_nil, mask_none clean]
      exact alone.trans List.intercalate_singleton.symm
    | some id =>
      have masked : maskMsgIds (tail ++ (msgOpen ++ id)) = tail ++ (msgMasked ++ []) := by
        rw [mask_found clean, idEnd_open (unquoted id rfl), mask_none clean_nil]
      have joined : msgMasked.intercalate [tail, []] = tail ++ (msgMasked ++ []) := by
        rw [List.intercalate_cons_of_ne_nil (by decide), List.intercalate_singleton, List.append_assoc]
      exact masked.trans joined.symm
  | cons segment rest ih =>
    have others : rest.map Segment.gap ++ tail :: (last.map fun _ => ([] : Str)).toList ≠ [] := by simp
    rw [List.flatMap_cons, List.append_assoc, mask_segment, List.map_cons, List.cons_append,
      List.intercalate_cons_of_ne_nil others]
    dsimp only at ih
    rw [ih, List.append_assoc]

theorem CutText.outside_clean (cut : CutText) : ∀ text ∈ cut.outside, ¬ msgOpen <:+: text := by
  intro text inside
  rcases List.mem_append.1 inside with gap | behind
  · obtain ⟨segment, -, rfl⟩ := List.mem_map.1 gap
    exact segment.clean
  · rcases List.mem_cons.1 behind with rfl | empty
    · exact cut.clean
    · obtain ⟨id, -, rfl⟩ := Option.map_eq_some_iff.1 (Option.mem_toList.1 empty)
      exact clean_nil

theorem cut_cases (s : Str) :
    ¬ msgOpen <:+: s ∨ (∃ (segment : Segment) (rest : Str), s = segment.text ++ rest) ∨
      ∃ gap id, ¬ msgOpen <:+: gap ∧ '"' ∉ id ∧ s = gap ++ (msgOpen ++ id) := by
  by_cases inside : msgOpen <:+: s
  · obtain ⟨i, found⟩ := Option.ne_none_iff_exists'.1 (mt (Search.find_eq_none_iff _ _).1 (not_not.2 inside))
    obtain ⟨gap, back, rfl, first⟩ := Replace.firstBehind_of_find found
    have clean := first.absent (by decide)
    by_cases quoted : '"' ∈ back
    · obtain ⟨id, rest, rfl, unquoted⟩ := List.eq_append_cons_of_mem quoted
      exact .inr (.inl ⟨⟨gap, id, clean, unquoted⟩, rest, by
        simp only [Segment.text, List.append_assoc, List.cons_append, List.nil_append]⟩)
    · exact .inr (.inr ⟨gap, back, clean, quoted, rfl⟩)
  · exact .inl inside

theorem exists_cut (s : Str) : ∃ cut : CutText, cut.text = s := by
  induction size : s.length using Nat.strongRecOn generalizing s with
  | _ n ih =>
    subst size
    obtain clean | ⟨segment, rest, rfl⟩ | ⟨gap, id, clean, unquoted, rfl⟩ := cut_cases s
    · exact ⟨⟨[], s, none, clean, fun id held => nomatch held⟩, List.append_nil s⟩
    · have shorter : rest.length < (segment.text ++ rest).length := by
        simp only [Segment.text, List.length_append, List.length_cons]
        omega
      obtain ⟨cut, rfl⟩ := ih rest.length shorter rest rfl
      refine ⟨{ cut with segments := segment :: cut.segments }, ?_⟩
      simp only [CutText.text, List.flatMap_cons, List.append_assoc]
    · exact ⟨⟨[], gap, some id, clean, fun other held => Option.some.inj held ▸ unquoted⟩, rfl⟩

theorem mask_intercalate {outside : List Str} (clean : ∀ text ∈ outside, ¬ msgOpen <:+: text) :
    maskMsgIds (msgMasked.intercalate outside) = msgMasked.intercalate outside := by
  induction outside with
  | nil => exact mask_none clean_nil
  | cons gap rest ih =>
    obtain ⟨here, later⟩ := List.forall_mem_cons.1 clean
    by_cases last : rest = []
    · rw [last, List.intercalate_singleton, mask_none here]
    · have masked (back : Str) : gap ++ (msgMasked ++ back) =
          (Segment.mk gap "MASKED".toList here (by decide)).text ++ back := by
        have parts : msgMasked = msgOpen ++ ("MASKED".toList ++ ['"']) := rfl
        simp only [Segment.text, parts, List.append_assoc]
      rw [List.intercalate_cons_of_ne_nil last, List.append_assoc]
      calc maskMsgIds (gap ++ (msgMasked ++ msgMasked.intercalate rest)) =
            gap ++ (msgMasked ++ maskMsgIds (msgMasked.intercalate rest)) := by rw [masked, mask_segment]
        _ = gap ++ (msgMasked ++ msgMasked.intercalate rest) := by rw [ih later]

theorem intercalate_inj {outside others : List Str} (clean : ∀ text ∈ outside, ¬ msgOpen <:+: text)
    (cleanOthers : ∀ text ∈ others, ¬ msgOpen <:+: text) (filled : outside ≠ []) (filledOthers : others ≠ [])
    (same : msgMasked.intercalate outside = msgMasked.intercalate others) : outside = others := by
  have front {gap : Str} {rest : List Str} (more : rest ≠ []) :
      msgMasked.intercalate (gap :: rest) = gap ++ (msgOpen ++ ("MASKED\"".toList ++ msgMasked.intercalate rest)) := by
    have parts : msgMasked = msgOpen ++ "MASKED\"".toList := rfl
    rw [List.intercalate_cons_of_ne_nil more]
    nth_rewrite 1 [parts]
    simp only [List.append_assoc]
  have inside {gap : Str} {rest : List Str} (more : rest ≠ []) : msgOpen <:+: msgMasked.intercalate (gap :: rest) := by
    rw [front more]
    exact ⟨gap, _, List.append_assoc ..⟩
  induction outside generalizing others with
  | nil => exact absurd rfl filled
  | cons gap rest ih =>
    obtain ⟨other, behind, rfl⟩ := List.exists_cons_of_ne_nil filledOthers
    obtain ⟨here, later⟩ := List.forall_mem_cons.1 clean
    obtain ⟨there, laterOthers⟩ := List.forall_mem_cons.1 cleanOthers
    by_cases last : rest = []
    · subst last
      by_cases lastOther : behind = []
      · subst lastOther
        rw [List.intercalate_singleton, List.intercalate_singleton] at same
        rw [same]
      · rw [List.intercalate_singleton] at same
        exact absurd (same ▸ inside lastOther) here
    · by_cases lastOther : behind = []
      · subst lastOther
        rw [List.intercalate_singleton] at same
        exact absurd (same ▸ inside last) there
      · -- The first placeholder stands behind the first gap.
        have found := find_segment here ("MASKED\"".toList ++ msgMasked.intercalate rest)
        have foundOther := find_segment there ("MASKED\"".toList ++ msgMasked.intercalate behind)
        rw [← front last, same, front lastOther, foundOther] at found
        rw [front last, front lastOther] at same
        obtain ⟨rfl, back⟩ := List.append_inj same (Option.some.inj found).symm
        rw [ih later laterOthers last lastOther (List.append_cancel_left (List.append_cancel_left back))]

/-- Masked texts are equal exactly when the texts differ in their ids alone; masking again changes nothing. -/
theorem masked_eq_iff :
    (∀ s, maskMsgIds (maskMsgIds s) = maskMsgIds s) ∧ (∀ s, ∃ cut : CutText, cut.text = s) ∧
      ∀ cut other : CutText, maskMsgIds cut.text = maskMsgIds other.text ↔ cut.outside = other.outside := by
  refine ⟨fun s => ?_, exists_cut, fun cut other => ?_⟩
  · obtain ⟨cut, rfl⟩ := exists_cut s
    rw [mask_cut, mask_intercalate cut.outside_clean]
  · have filled (cut : CutText) : cut.outside ≠ [] := by simp [CutText.outside]
    rw [mask_cut, mask_cut]
    constructor
    · exact intercalate_inj cut.outside_clean other.outside_clean (filled cut) (filled other)
    · exact fun same => congrArg _ same

end KiroTrust.Xtask
