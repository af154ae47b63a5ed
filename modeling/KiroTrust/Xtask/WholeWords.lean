import KiroTrust.Xtask.Scrub

set_option autoImplicit false

namespace KiroTrust.Xtask

open Replace (Occurrence)

section Words

variable (isAlphanumeric : Char → Bool)

/-- Each occurrence of the scan is replaced when it stands alone in the input; all else is kept. -/
def wholeWords (placeholder input token : Str) : Str :=
  Replace.rewrite token
    (fun found => if standsAlone isAlphanumeric (found.front ++ found.gap) found.back then placeholder else token) input

/-- The occurrence begins where the one before it ends, which ends inside a word; the word ends with the occurrence. -/
def Joined (found : Occurrence Char) : Prop :=
  found.gap = [] ∧ found.front.getLast?.any (isWordChar isAlphanumeric) ∧
    ¬ found.back.head?.any (isWordChar isAlphanumeric)

theorem standsAlone_gap (front : Str) {gap : Str} (nonempty : gap ≠ []) (back : Str) :
    standsAlone isAlphanumeric (front ++ gap) back = standsAlone isAlphanumeric gap back := by
  rw [standsAlone, standsAlone, List.getLast?_append_of_ne_nil _ nonempty]

theorem standsAlone_of_not_joined {found : Occurrence Char} (apart : ¬ Joined isAlphanumeric found) :
    standsAlone isAlphanumeric found.gap found.back =
      standsAlone isAlphanumeric (found.front ++ found.gap) found.back := by
  by_cases gap : found.gap = []
  · have either : ¬ found.front.getLast?.any (isWordChar isAlphanumeric) ∨
        found.back.head?.any (isWordChar isAlphanumeric) := by
      by_contra neither
      rw [not_or, not_not] at neither
      exact apart ⟨gap, neither⟩
    rw [gap, List.append_nil, standsAlone, standsAlone]
    rcases either with outside | goesOn
    · simp [outside]
    · simp [goesOn]
  · rw [standsAlone_gap isAlphanumeric found.front gap]

theorem standsAlone_of_joined {found : Occurrence Char} (joined : Joined isAlphanumeric found) :
    standsAlone isAlphanumeric found.gap found.back = true ∧
      standsAlone isAlphanumeric (found.front ++ found.gap) found.back = false := by
  obtain ⟨gap, word, ends⟩ := joined
  simp [gap, standsAlone, word, ends]

theorem replaceToken_iff (placeholder input token : Str) :
    replaceToken isAlphanumeric placeholder input token = wholeWords isAlphanumeric placeholder input token ↔
      token = placeholder ∨ ∀ found ∈ (Replace.scan token [] input).1, ¬ Joined isAlphanumeric found := by
  rw [replaceToken_eq isAlphanumeric placeholder [], wholeWords, Replace.rewrite]
  by_cases same : token = placeholder
  · subst same
    simp
  rw [Replace.written_eq_iff token placeholder, or_iff_right same]
  · refine forall₂_congr fun found _ => ?_
    by_cases joined : Joined isAlphanumeric found
    · obtain ⟨loop, whole⟩ := standsAlone_of_joined isAlphanumeric joined
      simp [loop, whole, joined, Ne.symm same]
    · simp [standsAlone_of_not_joined isAlphanumeric joined, joined]
  · intro found
    by_cases joined : Joined isAlphanumeric found
    · obtain ⟨loop, whole⟩ := standsAlone_of_joined isAlphanumeric joined
      simp [loop, whole]
    · left
      rw [standsAlone_of_not_joined isAlphanumeric joined]

/-- An occurrence is replaced exactly when it stands alone in the input, unless it is joined to the one before it. -/
theorem whole_words_iff (input token : Str) :
    (∀ found ∈ (Replace.scan token [] input).1, input = found.front ++ found.gap ++ (token ++ found.back)) ∧
      (replaceHostnameToken isAlphanumeric input token = wholeWords isAlphanumeric "host".toList input token ↔
        token = "host".toList ∨ ∀ found ∈ (Replace.scan token [] input).1, ¬ Joined isAlphanumeric found) ∧
      (replaceNameToken isAlphanumeric input token = wholeWords isAlphanumeric "operator".toList input token ↔
        token = "operator".toList ∨
          ∀ found ∈ (Replace.scan token [] input).1, ¬ Joined isAlphanumeric found) := by
  refine ⟨?_, replaceToken_iff isAlphanumeric _ input token, replaceToken_iff isAlphanumeric _ input token⟩
  exact Replace.scan_places [] input

end Words

/-- The second half of a doubled word is taken for a word of its own. -/
theorem joined_replaced :
    replaceHostnameToken Char.isAlphanum "laptoplaptop".toList "laptop".toList = "laptophost".toList ∧
      replaceHostnameToken Char.isAlphanum "laptoplaptop".toList "laptop".toList ≠
        wholeWords Char.isAlphanum "host".toList "laptoplaptop".toList "laptop".toList ∧
      replaceNameToken Char.isAlphanum "AlexAlex".toList "Alex".toList ≠
        wholeWords Char.isAlphanum "operator".toList "AlexAlex".toList "Alex".toList := by
  decide +kernel

end KiroTrust.Xtask
