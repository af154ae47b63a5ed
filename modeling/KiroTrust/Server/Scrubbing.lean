import Mathlib.Data.List.Basic
import KiroTrust.Server.Error

set_option autoImplicit false

namespace KiroTrust.Server

/-! What an error message shows of the identifiers in its text. -/

def Ends (rest : Str) : Prop := ∀ c ∈ rest.head?, endsArn c

def NoDigit (rest : Str) : Prop := ∀ c ∈ rest.head?, ¬ c.isDigit

def HasAccount (text : Str) : Prop :=
  ∃ front digits back, text = front ++ digits ++ back ∧ digits.length = 12 ∧ (∀ c ∈ digits, c.isDigit) ∧
    (∀ c ∈ front.getLast?, ¬ c.isDigit) ∧ NoDigit back

def ArnsMasked (text : Str) : Prop :=
  ∀ front back, text = front ++ "arn:".toList ++ back → ∃ rest, back = "***".toList ++ rest ∧ Ends rest

/-- The texts differ in the bodies of their ARNs and in the digits of their account ids only. -/
inductive SameOutside : Str → Str → Prop where
  | nil : SameOutside [] []
  | arn {body other rest others : Str} (bodyInside : ∀ c ∈ body, ¬ endsArn c) (otherInside : ∀ c ∈ other, ¬ endsArn c)
      (ends : Ends rest) (endsToo : Ends others) (back : SameOutside rest others) :
      SameOutside ("arn:".toList ++ (body ++ rest)) ("arn:".toList ++ (other ++ others))
  | account {digits other rest others : Str} (length : digits.length = 12) (lengthToo : other.length = 12)
      (all : ∀ c ∈ digits, c.isDigit) (allToo : ∀ c ∈ other, c.isDigit) (stops : NoDigit rest)
      (stopsToo : NoDigit others) (back : SameOutside rest others) : SameOutside (digits ++ rest) (other ++ others)
  | digits {digits rest others : Str} (nonempty : digits ≠ []) (all : ∀ c ∈ digits, c.isDigit) (stops : NoDigit rest)
      (stopsToo : NoDigit others) (back : SameOutside rest others) : SameOutside (digits ++ rest) (digits ++ others)
  | char {c : Char} {rest others : Str} (noDigit : ¬ c.isDigit) (back : SameOutside rest others) :
      SameOutside (c :: rest) (c :: others)

theorem span_run (p : Char → Bool) (text : Str) :
    ∃ run rest, text = run ++ rest ∧ (∀ c ∈ run, p c) ∧ ∀ c ∈ rest.head?, ¬ p c := by
  induction text with
  | nil => exact ⟨[], [], rfl, List.forall_mem_nil _, by simp⟩
  | cons c text ih =>
    by_cases passes : p c
    · obtain ⟨run, rest, rfl, all, stops⟩ := ih
      exact ⟨c :: run, rest, rfl, List.forall_mem_cons.2 ⟨passes, all⟩, stops⟩
    · exact ⟨[], c :: text, rfl, List.forall_mem_nil _, by simpa using passes⟩

theorem takeWhile_run {p : Char → Bool} {run rest : Str} (all : ∀ c ∈ run, p c) (stops : ∀ c ∈ rest.head?, ¬ p c) :
    (run ++ rest).takeWhile p = run := by
  have nothing : rest.takeWhile p = [] := by
    cases rest with
    | nil => rfl
    | cons c rest => exact List.takeWhile_cons_of_neg (stops c rfl)
  rw [List.takeWhile_append_of_pos all, nothing, List.append_nil]

theorem dropWhile_run {p : Char → Bool} {run rest : Str} (all : ∀ c ∈ run, p c) (stops : ∀ c ∈ rest.head?, ¬ p c) :
    (run ++ rest).dropWhile p = rest := by
  rw [List.dropWhile_append_of_pos all]
  cases rest with
  | nil => rfl
  | cons c rest => exact List.dropWhile_cons_of_neg (stops c rfl)

theorem scrub_arn {body rest : Str} (inside : ∀ c ∈ body, ¬ endsArn c) (ends : Ends rest) :
    scrubIdentifiers ("arn:".toList ++ (body ++ rest)) = "arn:***".toList ++ scrubIdentifiers rest := by
  have dropped : (body ++ rest).dropWhile (fun c => !endsArn c) = rest :=
    dropWhile_run (fun c inBody => by simpa using inside c inBody) fun c first => by simpa using ends c first
  have spelled : "arn:".toList ++ (body ++ rest) = 'a' :: ("rn:".toList ++ (body ++ rest)) := rfl
  have found : "arn:".toList.isPrefixOf ('a' :: ("rn:".toList ++ (body ++ rest))) :=
    List.isPrefixOf_iff_prefix.2 (List.prefix_append _ _)
  rw [spelled, scrubIdentifiers, if_pos found]
  have back : ("rn:".toList ++ (body ++ rest)).drop 3 = body ++ rest := rfl
  rw [back, dropped]

theorem scrub_digits {digits rest : Str} (nonempty : digits ≠ []) (all : ∀ c ∈ digits, c.isDigit)
    (stops : NoDigit rest) :
    scrubIdentifiers (digits ++ rest) =
      (if digits.length = 12 then "***".toList else digits) ++ scrubIdentifiers rest := by
  obtain ⟨first, later, rfl⟩ := List.exists_cons_of_ne_nil nonempty
  obtain ⟨digit, digits⟩ := List.forall_mem_cons.1 all
  have noArn : ¬ "arn:".toList.isPrefixOf (first :: (later ++ rest)) := by
    intro found
    obtain ⟨tail, same⟩ := List.isPrefixOf_iff_prefix.1 found
    have head : 'a' = first := Option.some.inj (congrArg List.head? same)
    subst head
    exact absurd digit (by decide)
  rw [List.cons_append, scrubIdentifiers, if_neg noArn, if_pos digit, takeWhile_run digits stops,
    dropWhile_run digits stops]

theorem scrub_char {c : Char} {rest : Str} (noArn : ¬ "arn:".toList <+: c :: rest) (noDigit : ¬ c.isDigit) :
    scrubIdentifiers (c :: rest) = c :: scrubIdentifiers rest := by
  rw [scrubIdentifiers, if_neg fun found => noArn (List.isPrefixOf_iff_prefix.1 found), if_neg noDigit]

theorem scrub_induction {motive : Str → Prop} (nil : motive [])
    (arn : ∀ body rest, (∀ c ∈ body, ¬ endsArn c) → Ends rest → motive rest →
      motive ("arn:".toList ++ (body ++ rest)))
    (digits : ∀ digits rest, digits ≠ [] → (∀ c ∈ digits, c.isDigit) → NoDigit rest → motive rest →
      motive (digits ++ rest))
    (char : ∀ c rest, ¬ "arn:".toList <+: c :: rest → ¬ c.isDigit → motive rest → motive (c :: rest))
    (text : Str) : motive text := by
  induction size : text.length using Nat.strong_induction_on generalizing text with
  | _ size ih =>
    subst size
    cases text with
    | nil => exact nil
    | cons c rest =>
      by_cases isArn : "arn:".toList <+: c :: rest
      · obtain ⟨back, same⟩ := isArn
        obtain ⟨body, rest, rfl, inside, ends⟩ := span_run (fun c => !endsArn c) back
        rw [← same]
        refine arn body rest (fun c inBody => by simpa using inside c inBody)
          (fun c first => by simpa using ends c first) (ih _ ?_ rest rfl)
        rw [← same]
        simp
        omega
      · by_cases digit : c.isDigit
        · obtain ⟨run, others, same, all, stops⟩ := span_run Char.isDigit (c :: rest)
          have nonempty : run ≠ [] := by
            rintro rfl
            exact stops c (congrArg List.head? same).symm digit
          rw [same]
          refine digits run others nonempty all stops (ih _ ?_ others rfl)
          have positive := List.length_pos_iff.2 nonempty
          rw [same, List.length_append]
          omega
        · exact char c rest isArn digit (ih _ (by simp) rest rfl)

theorem noArn_cons {c : Char} (differs : c ≠ 'a') (rest : Str) : ¬ "arn:".toList <+: c :: rest := by
  rintro ⟨tail, same⟩
  exact differs (Option.some.inj (congrArg List.head? same)).symm

theorem endsArn_plain {c : Char} (delimiter : endsArn c) : c ≠ 'a' ∧ ¬ c.isDigit := by
  simp only [endsArn, isAsciiWhitespace, Bool.or_eq_true, decide_eq_true_eq] at delimiter
  obtain ((((rfl | rfl) | rfl) | rfl) | rfl) | rfl | rfl := or_assoc.1 delimiter <;> decide

theorem scrub_ends {rest : Str} (ends : Ends rest) : Ends (scrubIdentifiers rest) := by
  cases rest with
  | nil => simpa [scrubIdentifiers] using ends
  | cons c rest =>
    have delimiter : endsArn c := ends c rfl
    obtain ⟨differs, noDigit⟩ := endsArn_plain delimiter
    rw [scrub_char (noArn_cons differs rest) noDigit]
    exact fun d first => Option.some.inj first ▸ delimiter

theorem scrub_noDigit {rest : Str} (stops : NoDigit rest) : NoDigit (scrubIdentifiers rest) := by
  induction rest using scrub_induction with
  | nil => simpa [scrubIdentifiers] using stops
  | arn body rest inside ends _ =>
    rw [scrub_arn inside ends]
    rintro d ⟨⟩
    decide
  | digits digits rest nonempty all _ _ =>
    obtain ⟨c, later, rfl⟩ := List.exists_cons_of_ne_nil nonempty
    exact absurd (all c List.mem_cons_self) (stops c rfl)
  | char c rest noArn noDigit _ =>
    rw [scrub_char noArn noDigit]
    rintro d ⟨⟩
    exact noDigit

theorem scrub_keeps {text wanted : Str} (plain : ∀ c ∈ wanted, ¬ c.isDigit ∧ c ≠ 'a' ∧ c ≠ '*')
    (found : wanted <+: scrubIdentifiers text) : wanted <+: text := by
  induction wanted generalizing text with
  | nil => exact List.nil_prefix
  | cons c wanted ih =>
    obtain ⟨⟨noDigit, noA, noStar⟩, later⟩ := List.forall_mem_cons.1 plain
    induction text using scrub_induction with
    | nil => simp [scrubIdentifiers] at found
    | arn body rest inside ends _ =>
      rw [scrub_arn inside ends] at found
      obtain ⟨tail, same⟩ := found
      exact absurd (Option.some.inj (congrArg List.head? same)) noA
    | digits digits rest nonempty all stops _ =>
      rw [scrub_digits nonempty all stops] at found
      obtain ⟨first, more, rfl⟩ := List.exists_cons_of_ne_nil nonempty
      obtain ⟨tail, same⟩ := found
      split at same
      · exact absurd (Option.some.inj (congrArg List.head? same)) noStar
      · have head : c = first := Option.some.inj (congrArg List.head? same)
        exact absurd (head ▸ all first List.mem_cons_self) noDigit
    | char d rest noArn _ _ =>
      rw [scrub_char noArn ‹_›] at found
      obtain ⟨same, rest⟩ := List.cons_prefix_cons.1 found
      exact List.cons_prefix_cons.2 ⟨same, ih later rest⟩

theorem scrub_noArn {c : Char} {rest : Str} (noArn : ¬ "arn:".toList <+: c :: rest) :
    ¬ "arn:".toList <+: c :: scrubIdentifiers rest := by
  intro found
  obtain ⟨same, back⟩ := List.cons_prefix_cons.1 found
  exact noArn (List.cons_prefix_cons.2 ⟨same, scrub_keeps (Str.forall_of_all (by decide)) back⟩)

theorem noAccount_char {c : Char} {rest : Str} (noDigit : ¬ c.isDigit) (clean : ¬ HasAccount rest) :
    ¬ HasAccount (c :: rest) := by
  rintro ⟨front, digits, back, split, length, all, before, after⟩
  cases front with
  | nil =>
    obtain ⟨first, later, rfl⟩ := List.exists_cons_of_length_pos (l := digits) (by omega)
    have head : c = first := Option.some.inj (congrArg List.head? split)
    exact noDigit (head ▸ all first List.mem_cons_self)
  | cons d front =>
    obtain ⟨-, split⟩ := List.cons.inj split
    refine clean ⟨front, digits, back, split, length, all, ?_, after⟩
    intro e last
    cases front with
    | nil => cases last
    | cons f front => exact before e (by simpa using last)

theorem noAccount_plain {text rest : Str} (plain : ∀ c ∈ text, ¬ c.isDigit) (clean : ¬ HasAccount rest) :
    ¬ HasAccount (text ++ rest) := by
  induction text with
  | nil => exact clean
  | cons c text ih =>
    obtain ⟨here, later⟩ := List.forall_mem_cons.1 plain
    exact noAccount_char here (ih later)

theorem noAccount_digits {run rest : Str} (all : ∀ c ∈ run, c.isDigit) (stops : NoDigit rest)
    (length : run.length ≠ 12) (clean : ¬ HasAccount rest) : ¬ HasAccount (run ++ rest) := by
  rintro ⟨front, digits, back, split, twelve, each, before, after⟩
  rw [List.append_assoc] at split
  obtain ⟨more, same, others⟩ | ⟨more, same, others⟩ := List.append_eq_append_iff.1 split
  · refine clean ⟨more, digits, back, by rw [others, List.append_assoc], twelve, each, ?_, after⟩
    intro c last
    exact before c (by rw [same, List.getLast?_append, Option.mem_def.1 last]; rfl)
  · cases last : front.getLast? with
    | some c =>
      have inRun : c ∈ run := same ▸ List.mem_append_left more (List.mem_of_getLast? last)
      exact before c last (all c inRun)
    | none =>
      rw [List.getLast?_eq_none_iff.1 last, List.nil_append] at same
      rw [← same] at others
      have whole : digits = run := by
        rw [← takeWhile_run each after, others, takeWhile_run all stops]
      exact length (whole ▸ twelve)

theorem scrub_noAccount (text : Str) : ¬ HasAccount (scrubIdentifiers text) := by
  induction text using scrub_induction with
  | nil =>
    rw [scrubIdentifiers]
    rintro ⟨front, digits, back, split, length, -⟩
    have empty := congrArg List.length split
    simp only [List.length_append, List.length_nil] at empty
    omega
  | arn body rest inside ends ih =>
    rw [scrub_arn inside ends]
    exact noAccount_plain (Str.forall_of_all (by decide)) ih
  | digits digits rest nonempty all stops ih =>
    rw [scrub_digits nonempty all stops]
    split
    · exact noAccount_plain (Str.forall_of_all (by decide)) ih
    next length => exact noAccount_digits all (scrub_noDigit stops) length ih
  | char c rest noArn noDigit ih =>
    rw [scrub_char noArn noDigit]
    exact noAccount_char noDigit ih

theorem arnsMasked_char {c : Char} {rest : Str} (noArn : ¬ "arn:".toList <+: c :: rest) (masked : ArnsMasked rest) :
    ArnsMasked (c :: rest) := by
  intro front back split
  cases front with
  | nil => exact absurd ⟨back, split.symm⟩ noArn
  | cons d front => exact masked front back (List.cons.inj split).2

theorem arnsMasked_plain {text rest : Str} (plain : ∀ c ∈ text, c ≠ 'a') (masked : ArnsMasked rest) :
    ArnsMasked (text ++ rest) := by
  induction text with
  | nil => exact masked
  | cons c text ih =>
    obtain ⟨here, later⟩ := List.forall_mem_cons.1 plain
    exact arnsMasked_char (noArn_cons here _) (ih later)

theorem arnsMasked_arn {rest : Str} (ends : Ends rest) (masked : ArnsMasked rest) :
    ArnsMasked ("arn:***".toList ++ rest) := by
  intro front back split
  cases front with
  | nil =>
    have split : "arn:".toList ++ ("***".toList ++ rest) = "arn:".toList ++ back := split
    exact ⟨rest, (List.append_cancel_left split).symm, ends⟩
  | cons d front =>
    have tail : ArnsMasked ("rn:***".toList ++ rest) := arnsMasked_plain (Str.forall_of_all (by decide)) masked
    exact tail front back (List.cons.inj split).2

theorem scrub_arnsMasked (text : Str) : ArnsMasked (scrubIdentifiers text) := by
  induction text using scrub_induction with
  | nil =>
    rw [scrubIdentifiers]
    intro front back split
    have empty := congrArg List.length split
    simp at empty
  | arn body rest inside ends ih =>
    rw [scrub_arn inside ends]
    exact arnsMasked_arn (scrub_ends ends) ih
  | digits digits rest nonempty all stops ih =>
    rw [scrub_digits nonempty all stops]
    refine arnsMasked_plain (fun c inside => ?_) ih
    split at inside
    · exact Str.forall_of_all (p := fun c => c ≠ 'a') (by decide) c inside
    · rintro rfl
      exact absurd (all 'a' inside) (by decide)
  | char c rest noArn noDigit ih =>
    rw [scrub_char noArn noDigit]
    exact arnsMasked_char (scrub_noArn noArn) ih

theorem scrub_stars (rest : Str) :
    scrubIdentifiers ("***".toList ++ rest) = "***".toList ++ scrubIdentifiers rest := by
  have star (rest : Str) : scrubIdentifiers ('*' :: rest) = '*' :: scrubIdentifiers rest :=
    scrub_char (noArn_cons (by decide) rest) (by decide)
  have spelled (rest : Str) : "***".toList ++ rest = '*' :: '*' :: '*' :: rest := rfl
  rw [spelled, star, star, star, spelled]

theorem scrub_idempotent (text : Str) : scrubIdentifiers (scrubIdentifiers text) = scrubIdentifiers text := by
  induction text using scrub_induction with
  | nil => simp [scrubIdentifiers]
  | arn body rest inside ends ih =>
    have masked : scrubIdentifiers ("arn:".toList ++ ("***".toList ++ scrubIdentifiers rest)) =
        "arn:***".toList ++ scrubIdentifiers (scrubIdentifiers rest) :=
      scrub_arn (Str.forall_of_all (by decide)) (scrub_ends ends)
    rw [scrub_arn inside ends]
    exact masked.trans (congrArg ("arn:***".toList ++ ·) ih)
  | digits digits rest nonempty all stops ih =>
    rw [scrub_digits nonempty all stops]
    split
    · rw [scrub_stars, ih]
    next length => rw [scrub_digits nonempty all (scrub_noDigit stops), if_neg length, ih]
  | char c rest noArn noDigit ih =>
    rw [scrub_char noArn noDigit, scrub_char (scrub_noArn noArn) noDigit, ih]

theorem run_unique {p : Char → Bool} {run rest others : Str} {other : Str} (all : ∀ c ∈ run, p c)
    (stops : ∀ c ∈ rest.head?, ¬ p c) (allToo : ∀ c ∈ other, p c) (stopsToo : ∀ c ∈ others.head?, ¬ p c)
    (same : run ++ rest = other ++ others) : run = other ∧ rest = others := by
  constructor
  · rw [← takeWhile_run all stops, same, takeWhile_run allToo stopsToo]
  · rw [← dropWhile_run all stops, same, dropWhile_run allToo stopsToo]

theorem SameOutside.symm {text other : Str} (alike : SameOutside text other) : SameOutside other text := by
  induction alike with
  | nil => exact .nil
  | arn inside insideToo ends endsToo _ ih => exact .arn insideToo inside endsToo ends ih
  | account length lengthToo all allToo stops stopsToo _ ih =>
    exact .account lengthToo length allToo all stopsToo stops ih
  | digits nonempty all stops stopsToo _ ih => exact .digits nonempty all stopsToo stops ih
  | char noDigit _ ih => exact .char noDigit ih

theorem digit_inside {c : Char} (digit : c.isDigit) : ¬ endsArn c := fun delimiter =>
  (endsArn_plain delimiter).2 digit

theorem dropWhile_arn {body rest : Str} (inside : ∀ c ∈ body, ¬ endsArn c) (ends : Ends rest) :
    ("arn:".toList ++ (body ++ rest)).dropWhile (fun c => !endsArn c) = rest := by
  have spelled : ∀ c ∈ "arn:".toList, !endsArn c := Str.forall_of_all (by decide)
  rw [List.dropWhile_append_of_pos spelled]
  exact dropWhile_run (fun c inBody => by simpa using inside c inBody) fun c first => by simpa using ends c first

theorem SameOutside.dropBody {text other : Str} (alike : SameOutside text other) :
    SameOutside (text.dropWhile fun c => !endsArn c) (other.dropWhile fun c => !endsArn c) := by
  have passed {run : Str} (all : ∀ c ∈ run, c.isDigit) : ∀ c ∈ run, !endsArn c := fun c inside => by
    simpa using digit_inside (all c inside)
  induction alike with
  | nil => exact .nil
  | arn inside insideToo ends endsToo back _ =>
    rw [dropWhile_arn inside ends, dropWhile_arn insideToo endsToo]
    exact back
  | account _ _ all allToo _ _ _ ih =>
    rw [List.dropWhile_append_of_pos (passed all), List.dropWhile_append_of_pos (passed allToo)]
    exact ih
  | digits _ all _ _ _ ih =>
    rw [List.dropWhile_append_of_pos (passed all), List.dropWhile_append_of_pos (passed all)]
    exact ih
  | @char c rest others noDigit back ih =>
    by_cases delimiter : endsArn c
    · rw [List.dropWhile_cons_of_neg (by simp [delimiter]), List.dropWhile_cons_of_neg (by simp [delimiter])]
      exact .char noDigit back
    · rw [List.dropWhile_cons_of_pos (by simp [delimiter]), List.dropWhile_cons_of_pos (by simp [delimiter])]
      exact ih

theorem head_of_digits {digits rest tail : Str} {c : Char} (nonempty : digits ≠ []) (all : ∀ c ∈ digits, c.isDigit)
    (same : c :: tail = digits ++ rest) : c.isDigit := by
  obtain ⟨first, later, rfl⟩ := List.exists_cons_of_ne_nil nonempty
  have head : c = first := (List.cons.inj same).1
  exact head ▸ all first List.mem_cons_self

theorem SameOutside.keeps {text other wanted : Str} (alike : SameOutside text other)
    (plain : ∀ c ∈ wanted, ¬ c.isDigit ∧ c ≠ 'a') (found : wanted <+: text) : wanted <+: other := by
  induction wanted generalizing text other with
  | nil => exact List.nil_prefix
  | cons c wanted ih =>
    obtain ⟨⟨noDigit, noA⟩, later⟩ := List.forall_mem_cons.1 plain
    obtain ⟨tail, same⟩ := found
    cases alike with
    | nil => cases same
    | arn => exact absurd (Option.some.inj (congrArg List.head? same)) noA
    | account length _ all =>
      exact absurd (head_of_digits (List.ne_nil_of_length_eq_add_one length) all same) noDigit
    | digits nonempty all => exact absurd (head_of_digits nonempty all same) noDigit
    | char _ back =>
      exact List.cons_prefix_cons.2 ⟨(List.cons.inj same).1, ih back later ⟨tail, (List.cons.inj same).2⟩⟩

theorem SameOutside.isArn {text other : Str} (alike : SameOutside text other) (found : "arn:".toList <+: text) :
    "arn:".toList <+: other := by
  obtain ⟨tail, same⟩ := found
  have digitless : ¬ ('a' : Char).isDigit := by decide
  cases alike with
  | nil => exact absurd (congrArg List.length same) (by simp)
  | arn => exact List.prefix_append _ _
  | account length _ all =>
    exact absurd (head_of_digits (List.ne_nil_of_length_eq_add_one length) all same) digitless
  | digits nonempty all => exact absurd (head_of_digits nonempty all same) digitless
  | char _ back =>
    have head := (List.cons.inj same).1
    have rest : "rn:".toList <+: _ := ⟨tail, (List.cons.inj same).2⟩
    exact List.cons_prefix_cons.2 ⟨head, back.keeps (Str.forall_of_all (by decide)) rest⟩

theorem SameOutside.afterDigits {text other run rest : Str} (alike : SameOutside text other) (split : text = run ++ rest)
    (nonempty : run ≠ []) (all : ∀ c ∈ run, c.isDigit) (stops : NoDigit rest) :
    ∃ runToo others, other = runToo ++ others ∧ (runToo = run ∨ run.length = 12 ∧ runToo.length = 12) ∧
      (∀ c ∈ runToo, c.isDigit) ∧ NoDigit others ∧ SameOutside rest others := by
  cases alike with
  | nil => exact absurd (List.append_eq_nil_iff.1 split.symm).1 nonempty
  | arn =>
    have digit : ('a' : Char).isDigit := head_of_digits nonempty all split
    exact absurd digit (by decide)
  | account length lengthToo allHere allToo stopsHere stopsToo back =>
    obtain ⟨rfl, rfl⟩ := run_unique allHere stopsHere all stops split
    exact ⟨_, _, rfl, .inr ⟨length, lengthToo⟩, allToo, stopsToo, back⟩
  | digits _ allHere stopsHere stopsToo back =>
    obtain ⟨rfl, rfl⟩ := run_unique allHere stopsHere all stops split
    exact ⟨_, _, rfl, .inl rfl, allHere, stopsToo, back⟩
  | char noDigit _ => exact absurd (head_of_digits nonempty all split) noDigit

theorem SameOutside.ofNil {other : Str} (alike : SameOutside [] other) : other = [] := by
  generalize empty : ([] : Str) = text at alike
  cases alike with
  | nil => rfl
  | arn => cases empty
  | account length =>
    rw [(List.append_eq_nil_iff.1 empty.symm).1] at length
    cases length
  | digits nonempty => exact absurd (List.append_eq_nil_iff.1 empty.symm).1 nonempty
  | char => cases empty

theorem SameOutside.afterChar {c : Char} {rest other : Str} (alike : SameOutside (c :: rest) other)
    (noArn : ¬ "arn:".toList <+: c :: rest) (noDigit : ¬ c.isDigit) :
    ∃ others, other = c :: others ∧ SameOutside rest others := by
  generalize same : c :: rest = text at alike noArn
  cases alike with
  | nil => cases same
  | arn => exact absurd (List.prefix_append _ _) noArn
  | account length _ all =>
    exact absurd (head_of_digits (List.ne_nil_of_length_eq_add_one length) all same) noDigit
  | digits nonempty all => exact absurd (head_of_digits nonempty all same) noDigit
  | char _ back =>
    obtain ⟨rfl, rfl⟩ := List.cons.inj same
    exact ⟨_, rfl, back⟩

theorem scrub_sameOutside {text other : Str} (alike : SameOutside text other) :
    scrubIdentifiers text = scrubIdentifiers other := by
  induction text using scrub_induction generalizing other with
  | nil => rw [alike.ofNil]
  | arn body rest inside ends ih =>
    obtain ⟨tail, rfl⟩ := alike.isArn (List.prefix_append _ _)
    obtain ⟨bodyToo, others, rfl, insideToo, endsToo⟩ := span_run (fun c => !endsArn c) tail
    have insideToo : ∀ c ∈ bodyToo, ¬ endsArn c := fun c inBody => by simpa using insideToo c inBody
    have endsToo : Ends others := fun c first => by simpa using endsToo c first
    have back := alike.dropBody
    rw [dropWhile_arn inside ends, dropWhile_arn insideToo endsToo] at back
    rw [scrub_arn inside ends, scrub_arn insideToo endsToo, ih back]
  | digits run rest nonempty all stops ih =>
    obtain ⟨runToo, others, rfl, same, allToo, stopsToo, back⟩ := alike.afterDigits rfl nonempty all stops
    obtain rfl | ⟨length, lengthToo⟩ := same
    · rw [scrub_digits nonempty all stops, scrub_digits nonempty all stopsToo, ih back]
    · rw [scrub_digits nonempty all stops, scrub_digits (List.ne_nil_of_length_eq_add_one lengthToo) allToo stopsToo,
        if_pos length, if_pos lengthToo, ih back]
  | char c rest noArn noDigit ih =>
    obtain ⟨others, rfl, back⟩ := alike.afterChar noArn noDigit
    have noArnToo : ¬ "arn:".toList <+: c :: others := fun found => noArn (alike.symm.isArn found)
    rw [scrub_char noArn noDigit, scrub_char noArnToo noDigit, ih back]

theorem SameOutside.refl (text : Str) : SameOutside text text := by
  induction text using scrub_induction with
  | nil => exact .nil
  | arn body rest inside ends ih => exact .arn inside inside ends ends ih
  | digits digits rest nonempty all stops ih => exact .digits nonempty all stops stops ih
  | char c rest _ noDigit ih => exact .char noDigit ih

theorem takeBytes_prefix (limit : Nat) (text : Str) : takeBytes limit text <+: text := by
  induction text generalizing limit with
  | nil => exact List.nil_prefix
  | cons c text ih =>
    rw [takeBytes]
    split
    · exact List.cons_prefix_cons.2 ⟨rfl, ih _⟩
    · exact List.nil_prefix

theorem cap_prefix (text : Str) (limit : Nat) : cap text limit <+: text := by
  rw [cap]
  split
  · exact List.prefix_rfl
  · exact takeBytes_prefix limit text

/-- A scrubbed text has no account id and no ARN left, and neither shows in an error message. -/
theorem scrubbing :
    (∀ text, ¬ HasAccount (scrubIdentifiers text) ∧ ArnsMasked (scrubIdentifiers text) ∧
      scrubIdentifiers (scrubIdentifiers text) = scrubIdentifiers text) ∧
      (∀ text other, SameOutside text other → scrubIdentifiers text = scrubIdentifiers other ∧
        ∀ status kind, (ApiError.new status kind text).message = (ApiError.new status kind other).message) ∧
      ∀ status kind text, (ApiError.new status kind text).message.byteLen ≤ maxMessageBytes ∧
        (ApiError.new status kind text).message <+: scrubIdentifiers text := by
  refine ⟨fun text => ⟨scrub_noAccount text, scrub_arnsMasked text, scrub_idempotent text⟩, ?_, ?_⟩
  · intro text other alike
    have same := scrub_sameOutside alike
    exact ⟨same, fun status kind => congrArg (cap · maxMessageBytes) same⟩
  · exact fun status kind text => ⟨cap_byteLen _ _, cap_prefix _ _⟩

theorem scrubbing_sample :
    scrubIdentifiers "123456789012 arn:aws:iam".toList = scrubIdentifiers "210987654321 arn:x".toList := by
  have alike : SameOutside ("123456789012".toList ++ (' ' :: ("arn:".toList ++ ("aws:iam".toList ++ []))))
      ("210987654321".toList ++ (' ' :: ("arn:".toList ++ ("x".toList ++ [])))) :=
    .account rfl rfl (Str.forall_of_all (by decide)) (Str.forall_of_all (by decide)) (by simp [NoDigit]) (by simp [NoDigit])
      (.char (by decide) (.arn (Str.forall_of_all (by decide)) (Str.forall_of_all (by decide)) (by simp [Ends])
        (by simp [Ends]) .nil))
  exact (scrubbing.2.1 _ _ alike).1

end KiroTrust.Server
