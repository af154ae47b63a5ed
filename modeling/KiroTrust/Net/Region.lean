import Mathlib.Computability.RegularExpressions
import KiroTrust.Protocol.Text

set_option autoImplicit false

namespace KiroTrust.Net

/-! `region.rs` -/

def runtimeAllowlist : List Str :=
  ["us-east-1".toList, "eu-central-1".toList, "us-gov-east-1".toList, "us-gov-west-1".toList]

def maxLen : Nat := 32

inductive RegionError where
  | pattern (shown : Str)
  | notServed (region : Str)
  deriving DecidableEq

def RegionError.display (debug : Str → Str) : RegionError → Str
  -- `debug` is how `{:?}` shows a string.
  | .pattern shown =>
    "region ".toList ++ debug shown ++ " does not match ^[a-z]\x7b2\x7d(-gov)?-[a-z]+-[0-9]$".toList
  | .notServed region =>
    "region ".toList ++ region ++
      (" has no Kiro runtime; allowed: us-east-1, eu-central-1, us-gov-east-1, us-gov-west-1 " ++
        "(spec 6.2)").toList

def isAsciiLowercase (b : UInt8) : Bool := 0x61 ≤ b && b ≤ 0x7a

def isAsciiDigit (b : UInt8) : Bool := 0x30 ≤ b && b ≤ 0x39

def lowerAlpha (x : Str) : Bool := x ≠ [] && x.bytes.all isAsciiLowercase

def regionParts : List Str → Option (Str × Str × Str)
  | [p, d, n] => some (p, d, n)
  | [p, gov, d, n] => if gov = "gov".toList then some (p, d, n) else none
  | _ => none

def checkRegion (s : Str) : Except RegionError Unit :=
  let err := RegionError.pattern (s.take 40)
  if s = [] ∨ s.byteLen > maxLen then .error err
  else
    match regionParts (s.splitOn '-') with
    | none => .error err
    | some (area, direction, number) =>
      if area.byteLen ≠ 2 ∨ ¬ lowerAlpha area ∨ ¬ lowerAlpha direction then .error err
      else if number.byteLen ≠ 1 ∨ ¬ number.bytes.all isAsciiDigit then .error err
      else .ok ()

structure Region where
  str : Str
  checked : checkRegion str = .ok ()

def Region.parse (s : Str) : Except RegionError Region :=
  match checked : checkRegion s with
  | .ok () => .ok ⟨s, checked⟩
  | .error e => .error e

structure RuntimeRegion where
  region : Region
  served : region.str ∈ runtimeAllowlist

def RuntimeRegion.parse (s : Str) : Except RegionError RuntimeRegion := do
  let r ← Region.parse s
  if served : r.str ∈ runtimeAllowlist then return ⟨r, served⟩ else .error (.notServed r.str)

/-! The documented pattern, `^[a-z]{2}(-gov)?-[a-z]+-[0-9]$`. -/

open RegularExpression in
def oneOf (chars : List Char) : RegularExpression Char := chars.foldr (fun c others => char c + others) 0

open RegularExpression in
def literally (text : Str) : RegularExpression Char := text.foldr (fun c rest => char c * rest) 1

def letters : List Char := "abcdefghijklmnopqrstuvwxyz".toList

def figures : List Char := "0123456789".toList

def regionPattern : RegularExpression Char :=
  let lower := oneOf letters
  lower * lower * (1 + literally "-gov".toList) * literally "-".toList * (lower * lower.star) *
    literally "-".toList * oneOf figures

theorem mem_oneOf (chars : List Char) (text : Str) :
    text ∈ (oneOf chars).matches' ↔ ∃ c ∈ chars, text = [c] := by
  induction chars with
  | nil => exact ⟨fun inside => inside.elim, fun ⟨_, inside, _⟩ => absurd inside List.not_mem_nil⟩
  | cons first rest ih =>
    change text ∈ (RegularExpression.char first + oneOf rest).matches' ↔ _
    rw [RegularExpression.matches'_add, Language.mem_add, ih, List.exists_mem_cons_iff]
    rfl

theorem mem_literally (literal text : Str) : text ∈ (literally literal).matches' ↔ text = literal := by
  induction literal generalizing text with
  | nil => exact Iff.rfl
  | cons c rest ih =>
    change text ∈ (RegularExpression.char c * literally rest).matches' ↔ _
    rw [RegularExpression.matches'_mul, Language.mem_mul]
    constructor
    · rintro ⟨first, rfl, back, inside, rfl⟩
      rw [(ih back).1 inside]
      rfl
    · rintro rfl
      exact ⟨[c], rfl, rest, (ih rest).2 rfl, rfl⟩

theorem mem_star (chars : List Char) (text : Str) :
    text ∈ (oneOf chars).star.matches' ↔ ∀ c ∈ text, c ∈ chars := by
  rw [RegularExpression.matches'_star, Language.mem_kstar]
  constructor
  · rintro ⟨pieces, rfl, each⟩ c inside
    obtain ⟨piece, inPieces, inPiece⟩ := List.mem_flatten.1 inside
    obtain ⟨d, known, rfl⟩ := (mem_oneOf chars piece).1 (each piece inPieces)
    exact List.mem_singleton.1 inPiece ▸ known
  · intro each
    refine ⟨text.map fun c => [c], by rw [← List.flatMap_def, List.flatMap_singleton'], ?_⟩
    intro piece inside
    obtain ⟨c, inText, rfl⟩ := List.mem_map.1 inside
    exact (mem_oneOf chars [c]).2 ⟨c, each c inText, rfl⟩

theorem mem_regionPattern (s : Str) :
    s ∈ regionPattern.matches' ↔
      ∃ a b gov c tail n, s = [a] ++ [b] ++ gov ++ "-".toList ++ ([c] ++ tail) ++ "-".toList ++ [n] ∧
        a ∈ letters ∧ b ∈ letters ∧ (gov = [] ∨ gov = "-gov".toList) ∧ c ∈ letters ∧
        (∀ c ∈ tail, c ∈ letters) ∧ n ∈ figures := by
  simp only [regionPattern, RegularExpression.matches'_mul, RegularExpression.matches'_add,
    RegularExpression.matches'_epsilon, Language.mem_mul, Language.mem_add, Language.mem_one, mem_oneOf,
    mem_literally, mem_star]
  constructor
  · rintro ⟨-, ⟨-, ⟨-, ⟨-, ⟨-, ⟨-, ⟨a, letterA, rfl⟩, -, ⟨b, letterB, rfl⟩, rfl⟩, gov, government, rfl⟩, -, rfl, rfl⟩,
      -, ⟨-, ⟨c, letterC, rfl⟩, tail, letterTail, rfl⟩, rfl⟩, -, rfl, rfl⟩, -, ⟨n, figure, rfl⟩, rfl⟩
    exact ⟨a, b, gov, c, tail, n, rfl, letterA, letterB, government, letterC, letterTail, figure⟩
  · rintro ⟨a, b, gov, c, tail, n, rfl, letterA, letterB, government, letterC, letterTail, figure⟩
    exact ⟨_, ⟨_, ⟨_, ⟨_, ⟨_, ⟨_, ⟨a, letterA, rfl⟩, _, ⟨b, letterB, rfl⟩, rfl⟩, gov, government, rfl⟩, _, rfl, rfl⟩,
      _, ⟨_, ⟨c, letterC, rfl⟩, tail, letterTail, rfl⟩, rfl⟩, _, rfl, rfl⟩, _, ⟨n, figure, rfl⟩, rfl⟩

theorem encode_long {c : Char} (long : c.utf8Size ≠ 1) :
    ∃ b rest, String.utf8EncodeChar c = b :: rest ∧ 128 ≤ b.toNat := by
  have high (x : UInt8) (mark : UInt8) (marked : 128 ≤ mark.toNat) : 128 ≤ (x ||| mark).toNat := by
    rw [UInt8.toNat_or]
    exact marked.trans Nat.right_le_or
  obtain one | two | three | four := c.utf8Size_eq
  · exact absurd one long
  · exact ⟨_, _, String.utf8EncodeChar_eq_cons_cons two, high _ _ (by decide)⟩
  · exact ⟨_, _, String.utf8EncodeChar_eq_cons_cons_cons three, high _ _ (by decide)⟩
  · exact ⟨_, _, String.utf8EncodeChar_eq_cons_cons_cons_cons four, high _ _ (by decide)⟩

theorem encode_all {p : UInt8 → Bool} (ascii : ∀ b, p b → b.toNat < 128) (c : Char) :
    (String.utf8EncodeChar c).all p ↔ c.utf8Size = 1 ∧ p c.val.toUInt8 := by
  by_cases one : c.utf8Size = 1
  · simp [String.utf8EncodeChar_eq_singleton one, one]
  · obtain ⟨b, rest, bytes, high⟩ := encode_long one
    have fails : p b = false := by
      by_contra passes
      have small := ascii b (by simpa using passes)
      omega
    simp [bytes, fails, one]

theorem bytes_all {p : UInt8 → Bool} (ascii : ∀ b, p b → b.toNat < 128) (text : Str) :
    text.bytes.all p ↔ ∀ c ∈ text, c.utf8Size = 1 ∧ p c.val.toUInt8 := by
  rw [Str.bytes, List.all_flatMap, List.all_eq_true]
  exact forall₂_congr fun c _ => encode_all ascii c

theorem byteLen_of_single {text : Str} (single : ∀ c ∈ text, c.utf8Size = 1) : text.byteLen = text.length := by
  induction text with
  | nil => rfl
  | cons c rest ih =>
    obtain ⟨here, later⟩ := List.forall_mem_cons.1 single
    rw [Str.byteLen_cons, here, ih later, List.length_cons, Nat.add_comm]

theorem mem_of_code {chars : List Char} {low high : Nat}
    (all : ∀ code < 128, low ≤ code → code ≤ high → Char.ofNat code ∈ chars) {c : Char} (single : c.utf8Size = 1)
    (atLeast : low ≤ c.val.toUInt8.toNat) (atMost : c.val.toUInt8.toNat ≤ high) : c ∈ chars := by
  have small : c.val.toNat ≤ 127 := UInt32.le_iff_toNat_le.1 (Char.utf8Size_eq_one_iff.1 single)
  have code : c.val.toUInt8.toNat = c.val.toNat := by
    rw [UInt32.toNat_toUInt8]
    omega
  rw [code] at atLeast atMost
  have inside := all c.val.toNat (by omega) atLeast atMost
  have same : Char.ofNat c.val.toNat = c := Char.ofNat_toNat c
  rwa [same] at inside

theorem isAsciiLowercase_iff (b : UInt8) : isAsciiLowercase b ↔ 0x61 ≤ b.toNat ∧ b.toNat ≤ 0x7a := by
  rw [isAsciiLowercase, Bool.and_eq_true, decide_eq_true_eq, decide_eq_true_eq]
  exact and_congr UInt8.le_iff_toNat_le UInt8.le_iff_toNat_le

theorem isAsciiDigit_iff (b : UInt8) : isAsciiDigit b ↔ 0x30 ≤ b.toNat ∧ b.toNat ≤ 0x39 := by
  rw [isAsciiDigit, Bool.and_eq_true, decide_eq_true_eq, decide_eq_true_eq]
  exact and_congr UInt8.le_iff_toNat_le UInt8.le_iff_toNat_le

theorem isAsciiLowercase_ascii (b : UInt8) (lower : isAsciiLowercase b) : b.toNat < 128 := by
  have range := (isAsciiLowercase_iff b).1 lower
  omega

theorem isAsciiDigit_ascii (b : UInt8) (digit : isAsciiDigit b) : b.toNat < 128 := by
  have range := (isAsciiDigit_iff b).1 digit
  omega

theorem mem_letters (c : Char) : c ∈ letters ↔ c.utf8Size = 1 ∧ isAsciiLowercase c.val.toUInt8 := by
  constructor
  · have each : ∀ c ∈ letters, c.utf8Size = 1 ∧ isAsciiLowercase c.val.toUInt8 :=
      Str.forall_of_all (by decide)
    exact each c
  · rintro ⟨single, lower⟩
    obtain ⟨atLeast, atMost⟩ := (isAsciiLowercase_iff _).1 lower
    exact mem_of_code (by decide) single atLeast atMost

theorem mem_figures (c : Char) : c ∈ figures ↔ c.utf8Size = 1 ∧ isAsciiDigit c.val.toUInt8 := by
  constructor
  · have each : ∀ c ∈ figures, c.utf8Size = 1 ∧ isAsciiDigit c.val.toUInt8 :=
      Str.forall_of_all (by decide)
    exact each c
  · rintro ⟨single, digit⟩
    obtain ⟨atLeast, atMost⟩ := (isAsciiDigit_iff _).1 digit
    exact mem_of_code (by decide) single atLeast atMost

theorem lowerAlpha_iff (x : Str) : lowerAlpha x ↔ x ≠ [] ∧ ∀ c ∈ x, c ∈ letters := by
  simp only [lowerAlpha, Bool.and_eq_true, decide_eq_true_eq, bytes_all isAsciiLowercase_ascii, mem_letters]

theorem letters_single {x : Str} (letter : ∀ c ∈ x, c ∈ letters) : ∀ c ∈ x, c.utf8Size = 1 := fun c inside =>
  ((mem_letters c).1 (letter c inside)).1

theorem figures_single {x : Str} (figure : ∀ c ∈ x, c ∈ figures) : ∀ c ∈ x, c.utf8Size = 1 := fun c inside =>
  ((mem_figures c).1 (figure c inside)).1

theorem number_iff (x : Str) :
    x.byteLen = 1 ∧ x.bytes.all isAsciiDigit ↔ ∃ n ∈ figures, x = [n] := by
  rw [bytes_all isAsciiDigit_ascii]
  simp only [← mem_figures]
  constructor
  · rintro ⟨length, figure⟩
    rw [byteLen_of_single (figures_single figure)] at length
    obtain ⟨n, rfl⟩ := List.length_eq_one_iff.1 length
    exact ⟨n, figure n List.mem_cons_self, rfl⟩
  · rintro ⟨n, figure, rfl⟩
    have all : ∀ c ∈ [n], c ∈ figures := fun c inside => List.mem_singleton.1 inside ▸ figure
    exact ⟨byteLen_of_single (figures_single all), all⟩

theorem area_iff (x : Str) :
    x.byteLen = 2 ∧ lowerAlpha x ↔ ∃ a ∈ letters, ∃ b ∈ letters, x = [a] ++ [b] := by
  rw [lowerAlpha_iff]
  constructor
  · rintro ⟨length, -, letter⟩
    rw [byteLen_of_single (letters_single letter)] at length
    obtain ⟨a, b, rfl⟩ := List.length_eq_two.1 length
    exact ⟨a, letter a (by simp), b, letter b (by simp), rfl⟩
  · rintro ⟨a, letterA, b, letterB, rfl⟩
    have all : ∀ c ∈ [a] ++ [b], c ∈ letters := by simp [letterA, letterB]
    exact ⟨byteLen_of_single (letters_single all), by simp, all⟩

theorem direction_iff (x : Str) :
    lowerAlpha x ↔ ∃ c ∈ letters, ∃ tail, (∀ c ∈ tail, c ∈ letters) ∧ x = [c] ++ tail := by
  rw [lowerAlpha_iff]
  constructor
  · rintro ⟨nonempty, letter⟩
    obtain ⟨c, tail, rfl⟩ := List.exists_cons_of_ne_nil nonempty
    obtain ⟨here, later⟩ := List.forall_mem_cons.1 letter
    exact ⟨c, here, tail, later, rfl⟩
  · rintro ⟨c, here, tail, later, rfl⟩
    exact ⟨List.cons_ne_nil c tail, List.forall_mem_cons.2 ⟨here, later⟩⟩

theorem regionParts_some {parts : List Str} {area direction number : Str} :
    regionParts parts = some (area, direction, number) ↔
      parts = [area, direction, number] ∨ parts = [area, "gov".toList, direction, number] := by
  constructor
  · intro found
    match parts with
    | [p, d, n] =>
      cases found
      exact .inl rfl
    | [p, gov, d, n] =>
      rw [regionParts] at found
      split at found
      next government =>
        cases found
        rw [government]
        exact .inr rfl
      next => cases found
  · rintro (rfl | rfl)
    · rfl
    · rw [regionParts, if_pos rfl]

theorem checkRegion_ok (s : Str) :
    checkRegion s = .ok () ↔
      s ≠ [] ∧ s.byteLen ≤ maxLen ∧ ∃ area direction number,
        regionParts (s.splitOn '-') = some (area, direction, number) ∧
          (area.byteLen = 2 ∧ lowerAlpha area) ∧ lowerAlpha direction ∧
          number.byteLen = 1 ∧ number.bytes.all isAsciiDigit := by
  constructor
  · intro ok
    simp only [checkRegion] at ok
    split at ok
    next => cases ok
    next sized =>
      obtain ⟨nonempty, short⟩ := not_or.1 sized
      split at ok
      next => cases ok
      next area direction number found =>
        split at ok
        next => cases ok
        next lettered =>
          split at ok
          next => cases ok
          next numbered =>
            obtain ⟨two, lettered⟩ := not_or.1 lettered
            obtain ⟨lowerArea, lowerDirection⟩ := not_or.1 lettered
            obtain ⟨one, digit⟩ := not_or.1 numbered
            exact ⟨nonempty, Nat.not_lt.1 short, area, direction, number, found,
              ⟨not_not.1 two, not_not.1 lowerArea⟩, not_not.1 lowerDirection, not_not.1 one, not_not.1 digit⟩
  · rintro ⟨nonempty, short, area, direction, number, found, ⟨two, lowerArea⟩, lowerDirection, one, digit⟩
    simp [checkRegion, nonempty, Nat.not_lt.2 short, found, two, lowerArea, lowerDirection, one, digit]

theorem dashless {x : Str} (letter : ∀ c ∈ x, c ∈ letters ∨ c ∈ figures) : '-' ∉ x := fun inside =>
  absurd (letter '-' inside) (by decide)

/-- `Region::parse` takes the strings of at most 32 bytes that match its documented pattern. -/
theorem checkRegion_iff (s : Str) :
    checkRegion s = .ok () ↔ s.byteLen ≤ 32 ∧ s ∈ regionPattern.matches' := by
  rw [checkRegion_ok, mem_regionPattern]
  constructor
  · rintro ⟨-, short, area, direction, number, split, areaOk, directionOk, numberOk⟩
    obtain ⟨a, letterA, b, letterB, rfl⟩ := (area_iff area).1 areaOk
    obtain ⟨c, letterC, tail, letterTail, rfl⟩ := (direction_iff direction).1 directionOk
    obtain ⟨n, figure, rfl⟩ := (number_iff number).1 numberOk
    have whole : ['-'].intercalate (s.splitOn '-') = s := List.intercalate_splitOn '-'
    obtain three | four := regionParts_some.1 split
    · refine ⟨short, a, b, [], c, tail, n, ?_, letterA, letterB, .inl rfl, letterC, letterTail, figure⟩
      rw [← whole, three]
      simp [List.intercalate]
    · refine ⟨short, a, b, "-gov".toList, c, tail, n, ?_, letterA, letterB, .inr rfl, letterC, letterTail, figure⟩
      rw [← whole, four]
      simp [List.intercalate]
  · rintro ⟨short, a, b, gov, c, tail, n, rfl, letterA, letterB, government, letterC, letterTail, figure⟩
    refine ⟨by simp, short, [a] ++ [b], [c] ++ tail, [n], regionParts_some.2 ?_,
      (area_iff _).2 ⟨a, letterA, b, letterB, rfl⟩, (direction_iff _).2 ⟨c, letterC, tail, letterTail, rfl⟩,
      (number_iff _).2 ⟨n, figure, rfl⟩⟩
    have areaDashless : '-' ∉ [a] ++ [b] := dashless (by simp [letterA, letterB])
    have directionDashless : '-' ∉ [c] ++ tail :=
      dashless fun d inside => .inl ((List.forall_mem_cons.2 ⟨letterC, letterTail⟩) d inside)
    have numberDashless : '-' ∉ [n] := dashless (by simp [figure])
    have lastDashless : ∀ part ∈ [[c] ++ tail, [n]], '-' ∉ part :=
      List.forall_mem_cons.2 ⟨directionDashless, List.forall_mem_singleton.2 numberDashless⟩
    obtain rfl | rfl := government
    · have joined : [a] ++ [b] ++ [] ++ "-".toList ++ ([c] ++ tail) ++ "-".toList ++ [n] =
          ['-'].intercalate [[a] ++ [b], [c] ++ tail, [n]] := by simp [List.intercalate]
      refine .inl ?_
      rw [joined]
      exact List.splitOn_intercalate '-' (List.forall_mem_cons.2 ⟨areaDashless, lastDashless⟩) (List.cons_ne_nil _ _)
    · have joined : [a] ++ [b] ++ "-gov".toList ++ "-".toList ++ ([c] ++ tail) ++ "-".toList ++ [n] =
          ['-'].intercalate [[a] ++ [b], "gov".toList, [c] ++ tail, [n]] := by simp [List.intercalate]
      refine .inr ?_
      rw [joined]
      exact List.splitOn_intercalate '-'
        (List.forall_mem_cons.2 ⟨areaDashless, List.forall_mem_cons.2 ⟨by decide, lastDashless⟩⟩)
        (List.cons_ne_nil _ _)

end KiroTrust.Net
