import KiroTrust.Protocol.Catalog
import KiroTrust.Shared.Trimming
import KiroTrust.Translate.Request

set_option autoImplicit false

namespace KiroTrust.Catalog

open Translate (trim)

/-! `catalog.rs`: how a model id of a request is resolved. -/

def defaultContext : Nat := 200000
def oneMContext : Nat := 1000000
def suffix : Str := "[1m]".toList

def full : List Str := ["low".toList, "medium".toList, "high".toList, "xhigh".toList, "max".toList]
def standard : List Str := ["low".toList, "medium".toList, "high".toList, "max".toList]
def ranked : List Str := ["low".toList, "medium".toList, "high".toList, "xhigh".toList, "max".toList]

structure FullRow extends Row where
  kiro : Str
  display : Str
  effort : List Str

def fullRow (row : Row) (kiro display : String) (effort : List Str) : FullRow :=
  { row with kiro := kiro.toList, display := display.toList, effort }

def fullRows : List FullRow := [
  fullRow (row "claude-opus-5" none true) "claude-opus-5" "Opus 5" full,
  fullRow (row "claude-opus-4-8" none true) "claude-opus-4.8" "Opus 4.8" full,
  fullRow (row "claude-opus-4-7" none true) "claude-opus-4.7" "Opus 4.7" full,
  fullRow (row "claude-opus-4-6" none true) "claude-opus-4.6" "Opus 4.6" standard,
  fullRow (row "claude-sonnet-5" none true) "claude-sonnet-5" "Sonnet 5" full,
  fullRow (row "claude-sonnet-4-6" (some "claude-sonnet-4.6-1m") false) "claude-sonnet-4.6" "Sonnet 4.6" standard,
  fullRow (row "claude-sonnet-4-5" (some "claude-sonnet-4.5-1m") false) "claude-sonnet-4.5" "Sonnet 4.5" [],
  fullRow (row "claude-opus-4-5" none false) "claude-opus-4.5" "Opus 4.5" [],
  fullRow (row "claude-haiku-4-5" none false) "claude-haiku-4.5" "Haiku 4.5" []]

theorem fullRows_rows : fullRows.map FullRow.toRow = rows := rfl

theorem fullRows_length : fullRows.length = rows.length := rfl

def entry (index : Fin rows.length) : FullRow := fullRows.get (index.cast fullRows_length.symm)

structure Resolved where
  key : ModelKey
  kiroModel : Str
  anthropicModel : Str
  contextWindow : Nat
  thinking : Bool
  effortLevels : List Str
  deriving DecidableEq

/-- `rsplit_once` -/
def rsplitOnce (sep : Char) (s : Str) : Option (Str × Str) :=
  if sep ∈ s then
    some ((s.reverse.dropWhile (· ≠ sep)).tail.reverse, (s.reverse.takeWhile (· ≠ sep)).reverse)
  else none

def allDigits (s : Str) : Bool := s.all Char.isDigit

def stripDate (s : Str) : Str :=
  match rsplitOnce '-' s with
  | some (base, tail) => if tail.length = 8 ∧ allDigits tail then base else s
  | none => s

def canonicalSku (s : Str) : Str :=
  let parts := s.splitOn '-'
  if 3 ≤ parts.length then
    let major := parts.getD (parts.length - 2) []
    let minor := parts.getD (parts.length - 1) []
    if allDigits major && allDigits minor then
      ['-'].intercalate (parts.take (parts.length - 2)) ++ '-' :: major ++ '.' :: minor
    else s
  else s

def findRow (sku : Str) : Option (Fin rows.length × Bool) :=
  (List.finRange rows.length).findSome? fun index =>
    if (entry index).kiro = sku then some (index, false)
    else if (entry index).kiro1m = some sku then some (index, true)
    else none

/-- The end of `resolve`, once the row is found. -/
def routed (index : Fin rows.length) (context1mBeta hasSuffix inputWas1mSku : Bool) : Resolved :=
  let row := entry index
  let thinking := hasSuffix && !row.always1m && row.kiro1m.isSome
  let want1m := context1mBeta || hasSuffix || inputWas1mSku
  let (kiroModel, contextWindow) :=
    if row.always1m then (row.kiro, oneMContext)
    else
      match row.kiro1m with
      | some one => if want1m then (one, oneMContext) else (row.kiro, defaultContext)
      | none => (row.kiro, defaultContext)
  { key := .route index want1m
    kiroModel
    anthropicModel := row.anthropic ++ if contextWindow = oneMContext then suffix else []
    contextWindow
    thinking
    effortLevels := row.effort }

def resolve (model : Str) (context1mBeta : Bool) : Except Str Resolved :=
  let trimmed := trim model
  let hasSuffix := suffix.isSuffixOf (trimmed.map Char.toLower)
  let base := if hasSuffix then trimmed.take (trimmed.length - suffix.length) else trimmed
  match findRow (canonicalSku (stripDate base)) with
  | some (index, inputWas1mSku) => .ok (routed index context1mBeta hasSuffix inputWas1mSku)
  | none => .error model

def names (index : Fin rows.length) : List Str :=
  [(entry index).anthropic, (entry index).kiro] ++ (entry index).kiro1m.toList

def IsDate (date : Str) : Prop := ∃ digits, date = '-' :: digits ∧ digits.length = 8 ∧ allDigits digits = true

def IsMark (mark : Str) : Prop := mark.map Char.toLower = suffix

theorem rsplitOnce_iff {sep : Char} {s front back : Str} :
    rsplitOnce sep s = some (front, back) ↔ s = front ++ sep :: back ∧ sep ∉ back := by
  constructor
  · intro split
    unfold rsplitOnce at split
    split_ifs at split with inside
    cases split
    have whole : s.reverse.takeWhile (· ≠ sep) ++ s.reverse.dropWhile (· ≠ sep) = s.reverse :=
      List.takeWhile_append_dropWhile
    cases rest : s.reverse.dropWhile (· ≠ sep) with
    | nil =>
      -- A text without the separator at which to stop.
      have absent := List.dropWhile_eq_nil_iff.1 rest sep (List.mem_reverse.2 inside)
      simp at absent
    | cons head tail =>
      have stops : head = sep := by
        have first := List.head?_dropWhile_not (fun c => decide (c ≠ sep)) s.reverse
        rw [rest] at first
        simpa using first
      rw [rest, stops] at whole
      refine ⟨?_, fun absurdly => ?_⟩
      · have back := congrArg List.reverse whole
        simpa using back.symm
      · have passed := List.mem_takeWhile_imp (List.mem_reverse.1 absurdly)
        simp at passed
  · rintro ⟨rfl, absent⟩
    have passes : ∀ c ∈ back.reverse, decide (c ≠ sep) = true := fun c inside =>
      decide_eq_true fun same => absent (same ▸ List.mem_reverse.1 inside)
    have reversed : (front ++ sep :: back).reverse = back.reverse ++ sep :: front.reverse := by simp
    rw [rsplitOnce, if_pos (by simp), reversed, List.takeWhile_append_of_pos passes,
      List.dropWhile_append_of_pos passes]
    simp

theorem stripDate_cases (s : Str) :
    stripDate s = s ∨ ∃ digits, s = stripDate s ++ '-' :: digits ∧ digits.length = 8 ∧ allDigits digits = true := by
  unfold stripDate
  split
  next base tail split =>
    split_ifs with date
    · exact .inr ⟨tail, (rsplitOnce_iff.1 split).1, date.1, date.2⟩
    · exact .inl rfl
  next => exact .inl rfl

theorem dashless_digits {digits : Str} (all : allDigits digits = true) {c : Char} (other : c.isDigit = false) :
    c ∉ digits := fun inside => by
  have digit := List.all_eq_true.1 all c inside
  simp [other] at digit

theorem stripDate_date (name digits : Str) (eight : digits.length = 8) (all : allDigits digits = true) :
    stripDate (name ++ '-' :: digits) = name := by
  have split : rsplitOnce '-' (name ++ '-' :: digits) = some (name, digits) :=
    rsplitOnce_iff.2 ⟨rfl, dashless_digits all (by decide)⟩
  simp [stripDate, split, eight, all]

theorem intercalate_concat (sep : Char) (parts : List Str) (last : Str) (nonempty : parts ≠ []) :
    [sep].intercalate (parts ++ [last]) = [sep].intercalate parts ++ sep :: last := by
  induction parts with
  | nil => exact absurd rfl nonempty
  | cons part rest ih =>
    by_cases alone : rest = []
    · simp [alone, List.intercalate]
    · rw [List.cons_append, List.intercalate_cons_of_ne_nil (by simp), List.intercalate_cons_of_ne_nil alone, ih alone]
      simp

theorem canonicalSku_cases (s : Str) :
    canonicalSku s = s ∨
      ∃ front minor, s = front ++ '-' :: minor ∧ allDigits minor = true ∧ canonicalSku s = front ++ '.' :: minor := by
  by_cases long : 3 ≤ (s.splitOn '-').length
  · obtain short | ⟨butLast, minor, split⟩ := List.eq_nil_or_concat' (s.splitOn '-')
    · simp [short] at long
    obtain short | ⟨init, major, split'⟩ := List.eq_nil_or_concat' butLast
    · simp [split, short] at long
    have whole : ['-'].intercalate (s.splitOn '-') = s := List.intercalate_splitOn '-'
    subst split'
    have nonempty : init ≠ [] := by
      rintro rfl
      simp [split] at long
    have parts : s = ['-'].intercalate init ++ '-' :: major ++ '-' :: minor := by
      rw [← whole, split, intercalate_concat _ _ _ (by simp), intercalate_concat _ _ _ nonempty]
    simp only [canonicalSku, if_pos long]
    simp only [split]
    have majorIs : (init ++ [major] ++ [minor]).getD ((init ++ [major] ++ [minor]).length - 2) [] = major := by
      simp [List.getD]
    have minorIs : (init ++ [major] ++ [minor]).getD ((init ++ [major] ++ [minor]).length - 1) [] = minor := by
      simp [List.getD]
    have front : (init ++ [major] ++ [minor]).take ((init ++ [major] ++ [minor]).length - 2) = init := by
      simp
    rw [majorIs, minorIs, front]
    cases digits : allDigits major && allDigits minor with
    | false => exact .inl (by simp)
    | true =>
      have minorDigits := (Bool.and_eq_true_iff.1 digits).2
      exact .inr ⟨['-'].intercalate init ++ '-' :: major, minor, by simpa using parts, minorDigits, by simp⟩
  · exact .inl (by simp only [canonicalSku, if_neg long])

/-- The one other text with this canonical form: its last dot is written as a dash. -/
def dashed (sku : Str) : Option Str :=
  match rsplitOnce '.' sku with
  | some (front, minor) => if allDigits minor then some (front ++ '-' :: minor) else none
  | none => none

theorem canonicalSku_inverse {s sku : Str} (canonical : canonicalSku s = sku) : s = sku ∨ dashed sku = some s := by
  obtain same | ⟨front, minor, whole, digits, dotted⟩ := canonicalSku_cases s
  · exact .inl (same.symm.trans canonical)
  · have split : rsplitOnce '.' sku = some (front, minor) :=
      rsplitOnce_iff.2 ⟨canonical ▸ dotted, dashless_digits digits (by decide)⟩
    exact .inr (by simp [dashed, split, digits, whole])

theorem findRow_name : ∀ index, ∀ name ∈ names index,
    stripDate name = name ∧ findRow (canonicalSku name) = some (index, decide ((entry index).kiro1m = some name)) := by
  decide +kernel

theorem name_plain : ∀ index, ∀ name ∈ names index,
    name.all (fun c => decide (c.toLower ≠ ']')) = true ∧
      name.all (fun c => decide (Translate.isWhitespace c = false)) = true := by
  decide +kernel

theorem dashed_kiro : ∀ index, (∀ name ∈ dashed (entry index).kiro, name = (entry index).anthropic) ∧
    (∀ one ∈ (entry index).kiro1m, dashed one = none) ∧
      (entry index).kiro1m ≠ some (entry index).anthropic ∧ (entry index).kiro1m ≠ some (entry index).kiro := by
  decide +kernel

theorem findRow_some {sku : Str} {index : Fin rows.length} {was1m : Bool} (found : findRow sku = some (index, was1m)) :
    (entry index).kiro = sku ∧ was1m = false ∨ (entry index).kiro1m = some sku ∧ was1m = true := by
  obtain ⟨other, -, here⟩ := List.exists_of_findSome?_eq_some found
  split_ifs at here with plain separate
  · cases here
    exact .inl ⟨plain, rfl⟩
  · cases here
    exact .inr ⟨separate, rfl⟩

theorem name_of_canonical {s : Str} {index : Fin rows.length} {was1m : Bool}
    (found : findRow (canonicalSku s) = some (index, was1m)) :
    s ∈ names index ∧ was1m = decide ((entry index).kiro1m = some s) := by
  obtain ⟨plain, separate, notDashed, notKiro⟩ := dashed_kiro index
  obtain ⟨kiro, rfl⟩ | ⟨one, rfl⟩ := findRow_some found
  · obtain same | other := canonicalSku_inverse kiro.symm
    · rw [same]
      exact ⟨by simp [names], by simp [notKiro]⟩
    · rw [plain s other]
      exact ⟨by simp [names], by simp [notDashed]⟩
  · obtain same | other := canonicalSku_inverse (rfl : canonicalSku s = _)
    · rw [← same] at one
      exact ⟨by simp [names, one], by simp [one]⟩
    · have none := separate (canonicalSku s) one
      simp [none] at other

theorem findRow_iff {base : Str} {index : Fin rows.length} {was1m : Bool} :
    findRow (canonicalSku (stripDate base)) = some (index, was1m) ↔
      ∃ name date, name ∈ names index ∧ (date = [] ∨ IsDate date) ∧ base = name ++ date ∧
        was1m = decide ((entry index).kiro1m = some name) := by
  constructor
  · intro found
    obtain ⟨named, tier⟩ := name_of_canonical found
    obtain same | ⟨digits, dated, eight, all⟩ := stripDate_cases base
    · rw [same] at named tier
      exact ⟨base, [], named, .inl rfl, (List.append_nil _).symm, tier⟩
    · exact ⟨stripDate base, '-' :: digits, named, .inr ⟨digits, rfl, eight, all⟩, dated, tier⟩
  · rintro ⟨name, date, named, rfl | ⟨digits, rfl, eight, all⟩, rfl, rfl⟩
    · obtain ⟨whole, found⟩ := findRow_name index name named
      rw [List.append_nil, whole, found]
    · rw [stripDate_date name digits eight all]
      exact (findRow_name index name named).2

theorem toLower_same {c : Char} (other : c.toNat < 65 ∨ 90 < c.toNat) : c.toLower = c := by
  have number : c.val.toNat = c.toNat := rfl
  have plain : ¬ (c.val ≥ 'A'.val ∧ c.val ≤ 'Z'.val) := by
    simp [UInt32.le_iff_toNat_le]
    omega
  exact dif_neg plain

theorem digit_number {c : Char} (digit : c.isDigit = true) : 48 ≤ c.toNat ∧ c.toNat ≤ 57 := by
  have number : c.val.toNat = c.toNat := rfl
  simp only [Char.isDigit, Bool.and_eq_true, decide_eq_true_eq] at digit
  simp [UInt32.le_iff_toNat_le] at digit
  omega

theorem blank_number {c : Char} (blank : Translate.isWhitespace c = true) : c.toNat < 65 ∨ 90 < c.toNat := by
  simp only [Translate.isWhitespace, Bool.or_eq_true, Bool.and_eq_true, decide_eq_true_eq] at blank
  omega

theorem isMark_length {mark : Str} (isMark : IsMark mark) : mark.length = suffix.length := by
  rw [← isMark, List.length_map]

theorem marked_iff {text : Str} :
    suffix.isSuffixOf (text.map Char.toLower) = true ↔
      ∃ mark, IsMark mark ∧ text = text.take (text.length - suffix.length) ++ mark := by
  rw [List.isSuffixOf_iff_suffix]
  constructor
  · rintro ⟨front, whole⟩
    have length := congrArg List.length whole
    simp only [List.length_append, List.length_map] at length
    have cut : text.length - suffix.length = front.length := by omega
    refine ⟨text.drop (text.length - suffix.length), ?_, (List.take_append_drop _ _).symm⟩
    rw [IsMark, List.map_drop, ← whole, cut, List.drop_left]
  · rintro ⟨mark, isMark, whole⟩
    rw [whole, List.map_append, show mark.map Char.toLower = suffix from isMark]
    exact List.suffix_append _ _

theorem unmarked {index : Fin rows.length} {name date : Str} (named : name ∈ names index) (dated : date = [] ∨ IsDate date) :
    suffix.isSuffixOf ((name ++ date).map Char.toLower) = false := by
  rw [Bool.eq_false_iff, ne_eq, List.isSuffixOf_iff_suffix]
  rintro suffixed
  have bracket : ']' ∈ (name ++ date).map Char.toLower := suffixed.subset (by decide)
  obtain ⟨c, inside, lowered⟩ := List.mem_map.1 bracket
  obtain inside | inside := List.mem_append.1 inside
  · exact Str.forall_of_all (name_plain index name named).1 c inside lowered
  · obtain rfl | ⟨digits, rfl, -, all⟩ := dated
    · simp at inside
    obtain rfl | inside := List.mem_cons.1 inside
    · revert lowered
      decide
    · have digit : c.isDigit = true := List.all_eq_true.1 all c inside
      have kept : c.toLower = c := toLower_same (.inl (by have number := digit_number digit; omega))
      obtain rfl := kept.symm.trans lowered
      revert digit
      decide

theorem resolve_shape {model : Str} {beta : Bool} {r : Resolved} (resolved : resolve model beta = .ok r) :
    ∃ index name date mark, name ∈ names index ∧ (date = [] ∨ IsDate date) ∧ (mark = [] ∨ IsMark mark) ∧
      trim model = name ++ date ++ mark ∧
        r = routed index beta (decide (mark ≠ [])) (decide ((entry index).kiro1m = some name)) := by
  simp only [resolve] at resolved
  split at resolved
  next index was1m found =>
    cases resolved
    obtain ⟨name, date, named, dated, base, rfl⟩ := findRow_iff.1 found
    refine ⟨index, name, date, ?_⟩
    cases marked : suffix.isSuffixOf ((trim model).map Char.toLower) with
    | true =>
      simp only [marked, if_true] at base
      obtain ⟨mark, isMark, whole⟩ := marked_iff.1 marked
      have present : mark ≠ [] := List.ne_nil_of_length_pos (by rw [isMark_length isMark]; decide)
      exact ⟨mark, named, dated, .inr isMark, by rw [← base, ← whole], by simp [present]⟩
    | false =>
      simp only [marked, Bool.false_eq_true, if_false] at base
      exact ⟨[], named, dated, .inl rfl, by rw [base, List.append_nil], by simp⟩
  next => cases resolved

theorem resolve_parts {model name date mark : Str} {index : Fin rows.length} (beta : Bool) (named : name ∈ names index)
    (dated : date = [] ∨ IsDate date) (marks : mark = [] ∨ IsMark mark) (whole : trim model = name ++ date ++ mark) :
    resolve model beta =
      .ok (routed index beta (decide (mark ≠ [])) (decide ((entry index).kiro1m = some name))) := by
  have found := findRow_iff.2 ⟨name, date, named, dated, rfl, rfl⟩
  obtain rfl | isMark := marks
  · have plain := unmarked named dated
    simp only [resolve, whole, List.append_nil, plain, Bool.false_eq_true, if_false, found]
    simp
  · have present : mark ≠ [] := List.ne_nil_of_length_pos (by rw [isMark_length isMark]; decide)
    have marked : suffix.isSuffixOf ((trim model).map Char.toLower) = true := by
      rw [List.isSuffixOf_iff_suffix, whole, List.map_append, show mark.map Char.toLower = suffix from isMark]
      exact List.suffix_append _ _
    have cut : (trim model).take ((trim model).length - suffix.length) = name ++ date := by
      rw [whole, List.length_append, isMark_length isMark, Nat.add_sub_cancel, List.take_left]
    simp only [resolve, marked, if_true, cut, found]
    simp [present]

/-- `resolve` takes the names of the rows, behind each of them a date or none, and the mark or none; the mark, the
beta header and the name of a separate 1M model each ask for the 1M tier. -/
theorem resolve_iff (model : Str) (beta : Bool) (r : Resolved) :
    resolve model beta = .ok r ↔
      ∃ index name date mark, name ∈ names index ∧ (date = [] ∨ IsDate date) ∧ (mark = [] ∨ IsMark mark) ∧
        trim model = name ++ date ++ mark ∧
          r = routed index beta (decide (mark ≠ [])) (decide ((entry index).kiro1m = some name)) := by
  constructor
  · exact resolve_shape
  · rintro ⟨index, name, date, mark, named, dated, marks, whole, rfl⟩
    exact resolve_parts beta named dated marks whole

def addAlias (aliases : List Str) (added : Str) : List Str := if added ∈ aliases then aliases else aliases ++ [added]

structure FullInfo where
  key : ModelKey
  id : Str
  displayName : Str
  kiroModel : Str
  aliases : List Str
  acceptsDateSuffix : Bool
  contextWindow : Nat
  effortLevels : List Str
  proxyInputTypes : List Str
  historyImagesForwarded : Bool
  deriving DecidableEq

def fullInfo (key : ModelKey) : FullInfo :=
  let row := entry key.row
  let kiroModel := if key.context1m && !row.always1m then row.kiro1m.getD row.kiro else row.kiro
  let id := row.anthropic ++ if key.context1m then suffix else []
  let dotted := canonicalSku row.anthropic
  let aliases :=
    if key.context1m then
      let aliases := addAlias (addAlias (addAlias [] id) (dotted ++ suffix)) kiroModel
      if row.always1m then addAlias (addAlias aliases row.anthropic) dotted else aliases
    else addAlias (addAlias (addAlias [] id) dotted) kiroModel
  { key
    id
    displayName := if key.context1m then row.display ++ " (1M context)".toList else row.display
    kiroModel
    aliases
    acceptsDateSuffix := true
    contextWindow := if key.context1m then oneMContext else defaultContext
    effortLevels := row.effort
    proxyInputTypes := ["text".toList, "image".toList]
    historyImagesForwarded := false }

def fullModels : List FullInfo := models.map fun info => fullInfo info.key

def model (id : Str) : Except Str FullInfo := do
  let resolved ← resolve id false
  match fullModels.find? fun info => info.key = resolved.key with
  | some info => .ok info
  | none => .error id

def supportsKiroModel (modelId : Str) : Bool :=
  fullRows.any fun row => row.kiro = modelId || row.kiro1m = some modelId

def resolveEffort (model : Resolved) (requested : Option Str) (thinking : Bool) : Option Str :=
  let levels := model.effortLevels
  if levels = [] then none
  else
    match requested with
    | some req => if req ∈ levels then some req else if req ∈ ranked then levels.getLast? else none
    | none => if thinking then some "medium".toList else none

structure ModelListing where
  id : Str
  displayName : Option Str

def addListing (out : List ModelListing) (id : Str) (displayName : Option Str) : List ModelListing :=
  if out.any fun listing => listing.id = id then out else out ++ [⟨id, displayName⟩]

def listRow (out : List ModelListing) (row : FullRow) : List ModelListing :=
  let long := some (row.display ++ " (1M context)".toList)
  let out :=
    if row.always1m then addListing (addListing out (row.anthropic ++ suffix) long) row.anthropic none
    else
      let out := addListing out row.anthropic (some row.display)
      if row.kiro1m.isSome then addListing out (row.anthropic ++ suffix) long else out
  addListing out row.kiro none

def listModels : List ModelListing := fullRows.foldl listRow []

theorem routed_listed : ∀ index beta marked was1m,
    let r := routed index beta marked was1m
    (fullModels.find? fun info => info.key = r.key) = some (fullInfo r.key) ∧
      (fullInfo r.key).id = r.anthropicModel ∧ (fullInfo r.key).kiroModel = r.kiroModel ∧
      (fullInfo r.key).contextWindow = r.contextWindow ∧ (fullInfo r.key).effortLevels = r.effortLevels ∧
      (∃ listing ∈ listModels, listing.id = r.anthropicModel) ∧
      supportsKiroModel r.kiroModel = true ∧ ¬suffix <:+: r.kiroModel := by
  decide +kernel

theorem routed_again : ∀ index beta marked was1m,
    let r := routed index beta marked was1m
    ∀ echo ∈ [r.anthropicModel, r.kiroModel],
      (resolve echo beta).map (fun again => { again with thinking := r.thinking }) = .ok r := by
  decide +kernel

theorem resolve_routed {model : Str} {beta : Bool} {r : Resolved} (resolved : resolve model beta = .ok r) :
    ∃ index marked was1m, r = routed index beta marked was1m := by
  obtain ⟨index, name, date, mark, -, -, -, -, rfl⟩ := resolve_shape resolved
  exact ⟨index, _, _, rfl⟩

theorem resolveEffort_level (r : Resolved) (requested : Option Str) (thinking : Bool) (medium : r.effortLevels ≠ [] →
    "medium".toList ∈ r.effortLevels) {level : Str} (chosen : resolveEffort r requested thinking = some level) :
    level ∈ r.effortLevels := by
  cases requested with
  | some req =>
    simp only [resolveEffort] at chosen
    split_ifs at chosen with bare offered
    · cases chosen
      exact offered
    · exact List.mem_of_getLast? chosen
  | none =>
    simp only [resolveEffort] at chosen
    split_ifs at chosen with bare
    cases chosen
    exact medium bare

/-- Every id that is taken is one of the catalog: `model` finds it, the echo is listed and stands for the same model,
the model sent upstream is a compiled one without a mark, and no effort is asked of it that it does not offer. -/
theorem catalog_agrees (id : Str) (beta : Bool) (r : Resolved) (resolved : resolve id beta = .ok r) :
    fullInfo r.key ∈ fullModels ∧ (fullInfo r.key).id = r.anthropicModel ∧
      (fullInfo r.key).kiroModel = r.kiroModel ∧ (fullInfo r.key).contextWindow = r.contextWindow ∧
      (beta = false → model id = .ok (fullInfo r.key)) ∧
      (∃ listing ∈ listModels, listing.id = r.anthropicModel) ∧
      supportsKiroModel r.kiroModel = true ∧ ¬suffix <:+: r.kiroModel ∧
      (∀ echo ∈ [r.anthropicModel, r.kiroModel],
        ∃ again, resolve echo beta = .ok again ∧ { again with thinking := r.thinking } = r) ∧
      ∀ requested thinking, ∀ level ∈ resolveEffort r requested thinking, level ∈ r.effortLevels := by
  obtain ⟨index, marked, was1m, routes⟩ := resolve_routed resolved
  obtain ⟨found, id, kiro, window, -, listed, supported, plain⟩ := routed_listed index beta marked was1m
  have again := routed_again index beta marked was1m
  simp only [← routes] at found id kiro window listed supported plain again
  refine ⟨List.mem_of_find?_eq_some found, id, kiro, window, ?_, listed, supported, plain, ?_, ?_⟩
  · rintro rfl
    simp only [model, resolved, bind, Except.bind, found]
  · intro echo inside
    obtain ⟨second, resolves, same⟩ := Walk.map_ok.1 (again echo inside)
    exact ⟨second, resolves, same⟩
  · intro requested thinking level chosen
    have offers : ∀ index, (entry index).effort ≠ [] → "medium".toList ∈ (entry index).effort := by decide +kernel
    exact resolveEffort_level r requested thinking (by rw [routes]; exact offers index) chosen

theorem sonnet46_listed : 5 < rows.length := by decide

def sonnet46 : Fin rows.length := ⟨5, sonnet46_listed⟩

theorem catalog_agrees_dated : let r := routed sonnet46 false true false
    model "claude-sonnet-4-6-20250929[1M]".toList = .ok (fullInfo r.key) ∧
      r.kiroModel = "claude-sonnet-4.6-1m".toList ∧
      ∀ requested thinking, ∀ level ∈ resolveEffort r requested thinking, level ∈ r.effortLevels := by
  obtain ⟨-, -, -, -, finds, -, -, -, -, efforts⟩ :=
    catalog_agrees "claude-sonnet-4-6-20250929[1M]".toList false (routed sonnet46 false true false) (by decide +kernel)
  exact ⟨finds rfl, by decide +kernel, efforts⟩

theorem mark_solid {mark : Str} (isMark : IsMark mark) : ∀ c ∈ mark, Translate.isWhitespace c = false := by
  intro c inside
  have lowered : c.toLower ∈ suffix := by
    rw [← isMark]
    exact List.mem_map_of_mem inside
  by_contra blank
  have kept := toLower_same (blank_number (by simpa using blank))
  rw [kept] at lowered
  revert blank
  rw [Bool.not_eq_false]
  have solid : suffix.all (fun d => decide (Translate.isWhitespace d = false)) = true := by decide
  exact Bool.eq_false_iff.1 (Str.forall_of_all solid c lowered)

theorem date_solid {date : Str} (dated : date = [] ∨ IsDate date) : ∀ c ∈ date, Translate.isWhitespace c = false := by
  obtain rfl | ⟨digits, rfl, -, all⟩ := dated
  · simp
  · refine List.forall_mem_cons.2 ⟨by decide, fun c inside => ?_⟩
    have digit := digit_number (List.all_eq_true.1 all c inside)
    simp only [Translate.isWhitespace, Bool.or_eq_false_iff, Bool.and_eq_false_iff, decide_eq_false_iff_not]
    omega

theorem alias_parts : ∀ info ∈ fullModels, ∀ listed ∈ info.aliases, ∃ index, ∃ name ∈ names index, ∃ mark ∈ [[], suffix],
    listed = name ++ mark ∧
      let r := routed index false (decide (mark ≠ [])) (decide ((entry index).kiro1m = some name))
      r.key = info.key ∧ r.kiroModel = info.kiroModel ∧ r.anthropicModel = info.id := by
  decide +kernel

/-- An alias is taken in either case of its mark, with a date in front of the mark and with white space around it;
it stands for the model that advertises it. -/
theorem aliases_route (info : FullInfo) (known : info ∈ fullModels) (listed : Str) (advertised : listed ∈ info.aliases) :
    ∃ name mark, listed = name ++ mark ∧ (mark = [] ∨ mark = suffix) ∧
      ∀ date marked before after : Str, (date = [] ∨ IsDate date) → marked.map Char.toLower = mark →
        (∀ c ∈ before, Translate.isWhitespace c = true) → (∀ c ∈ after, Translate.isWhitespace c = true) →
          ∃ r, resolve (before ++ (name ++ date ++ marked) ++ after) false = .ok r ∧ r.key = info.key ∧
            r.kiroModel = info.kiroModel ∧ r.anthropicModel = info.id := by
  obtain ⟨index, name, named, mark, mark', whole, key, kiro, echo⟩ := alias_parts info known listed advertised
  have marks : mark = [] ∨ mark = suffix := by simpa using mark'
  refine ⟨name, mark, whole, marks, fun date marked before after dated written front back => ?_⟩
  have isMark : marked = [] ∨ IsMark marked := by
    obtain rfl | rfl := marks
    · exact .inl (List.map_eq_nil_iff.1 written)
    · exact .inr written
  have solidMark : ∀ c ∈ marked, Translate.isWhitespace c = false := by
    obtain rfl | isMark := isMark
    · simp
    · exact mark_solid isMark
  have solidName := Str.forall_of_all (name_plain index name named).2
  have solid : ∀ c ∈ name ++ date ++ marked, Translate.isWhitespace c = false :=
    List.forall_mem_append.2 ⟨List.forall_mem_append.2 ⟨solidName, date_solid dated⟩, solidMark⟩
  have resolves := resolve_parts false named dated isMark
    (Trimming.trim_iff.2 ⟨.of_all solid, before, after, front, back, rfl⟩)
  have same : decide (marked ≠ []) = decide (mark ≠ []) := by
    rw [← written]
    simp
  rw [same] at resolves
  exact ⟨_, resolves, key, kiro, echo⟩

theorem aliases_route_sonnet : ∃ name mark, "claude-sonnet-4.6[1m]".toList = name ++ mark ∧ (mark = [] ∨ mark = suffix) ∧
    ∀ date marked before after : Str, (date = [] ∨ IsDate date) → marked.map Char.toLower = mark →
      (∀ c ∈ before, Translate.isWhitespace c = true) → (∀ c ∈ after, Translate.isWhitespace c = true) →
        ∃ r, resolve (before ++ (name ++ date ++ marked) ++ after) false = .ok r ∧
          r.key = (fullInfo (.route sonnet46 true)).key ∧ r.kiroModel = (fullInfo (.route sonnet46 true)).kiroModel ∧
            r.anthropicModel = (fullInfo (.route sonnet46 true)).id :=
  aliases_route (fullInfo (.route sonnet46 true)) (by decide +kernel) "claude-sonnet-4.6[1m]".toList (by decide +kernel)

example : (resolve " claude-sonnet-4-6-20250929[1M]".toList false).map Resolved.kiroModel =
    .ok "claude-sonnet-4.6-1m".toList := by
  decide +kernel

end KiroTrust.Catalog
