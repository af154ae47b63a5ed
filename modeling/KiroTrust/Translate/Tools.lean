import KiroTrust.Shared.Emitter
import KiroTrust.Translate.Content
import KiroTrust.Translate.Schema

set_option autoImplicit false

namespace KiroTrust.Translate

open Anthropic
open Kiro (ToolEntry)

/-! `tool_names.rs` -/

def maxToolNameLen : Nat := 64

structure ToolNameMap where
  toShort : Str → Option Str
  toOriginal : Str → Option Str

/-- `format!("{b:02x}")` -/
def hexByte (b : UInt8) : Str := [Nat.digitChar (b.toNat / 16), Nat.digitChar (b.toNat % 16)]

def hexDigest (prims : Primitives) (name : Str) : Str := (prims.sha256 name.bytes).toList.flatMap hexByte

def digestTag (prims : Primitives) (name : Str) : Str := (hexDigest prims name).take 13

def shortForm (prims : Primitives) (name : Str) : Str := takeBytes 50 name ++ "_".toList ++ digestTag prims name

namespace ToolNameMap

def empty : ToolNameMap := ⟨fun _ => none, fun _ => none⟩

def shorten (prims : Primitives) (names : ToolNameMap) (name : Str) : ToolNameMap × Str :=
  if name.byteLen ≤ maxToolNameLen then (names, name)
  else
    match names.toShort name with
    | some short => (names, short)
    | none =>
      let short := shortForm prims name
      ({ toShort := fun key => if key = name then some short else names.toShort key
         toOriginal := fun key => if key = short then some name else names.toOriginal key }, short)

def restore (names : ToolNameMap) (name : Str) : Str := (names.toOriginal name).getD name

def reverseMap (names : ToolNameMap) : Str → Option Str := names.toOriginal

end ToolNameMap

/-! `tools.rs` -/

def callableTools (tools : List Tool) : List Tool := tools.filter fun t => !t.isServerTool

def convertTool (prims : Primitives) (names : ToolNameMap) (t : Tool) : ToolNameMap × List ToolEntry :=
  let (names, name) := names.shorten prims t.name
  let description := if t.description = [] then "Tool: ".toList ++ t.name else t.description
  let schema := t.inputSchema.getD []
  (names, [.toolSpecification { name, description, inputSchema := ⟨ensureObjectRoot (sanitizeSchema schema)⟩ }])

def convertTools (prims : Primitives) (names : ToolNameMap) (tools : List Tool) : ToolNameMap × List ToolEntry :=
  Emitter.runAll (convertTool prims) names tools

def applyToolCachePoints : List Tool → List ToolEntry → List ToolEntry
  | [], entries => entries
  | t :: rest, entries =>
    entries.head?.toList ++ (if t.cacheControl.isSome then [.cachePoint ⟨"default".toList⟩] else []) ++
      applyToolCachePoints rest entries.tail

def overlong (name : Str) : Prop := maxToolNameLen < name.byteLen

instance (name : Str) : Decidable (overlong name) := inferInstanceAs (Decidable (_ < _))

def kiroName (prims : Primitives) (name : Str) : Str := if overlong name then shortForm prims name else name

theorem byteLen_append (left right : Str) : (left ++ right).byteLen = left.byteLen + right.byteLen := by
  simp [Str.byteLen, Str.bytes]

theorem byteLen_ascii {text : Str} (ascii : ∀ char ∈ text, char.utf8Size = 1) : text.byteLen = text.length := by
  induction text with
  | nil => rfl
  | cons head rest ih =>
    rw [Str.byteLen_cons, ascii head (by simp), ih fun char later => ascii char (by simp [later]), List.length_cons,
      Nat.add_comm]

theorem digitChar_ascii {digit : Nat} (hex : digit < 16) : (Nat.digitChar digit).utf8Size = 1 := by
  have each : ∀ digit : Fin 16, (Nat.digitChar digit).utf8Size = 1 := by decide
  exact each ⟨digit, hex⟩

theorem hexDigest_ascii (prims : Primitives) (name : Str) : ∀ char ∈ hexDigest prims name, char.utf8Size = 1 := by
  intro char inside
  obtain ⟨b, -, digit⟩ := List.mem_flatMap.1 inside
  have bound := b.toNat_lt
  simp only [hexByte, List.mem_cons, List.not_mem_nil, or_false] at digit
  obtain rfl | rfl := digit
  · exact digitChar_ascii (by omega)
  · exact digitChar_ascii (by omega)

theorem hexDigest_length (prims : Primitives) (name : Str) : (hexDigest prims name).length = 64 := by
  have each : ∀ digest : List UInt8, (digest.flatMap hexByte).length = 2 * digest.length := by
    intro digest
    induction digest with
    | nil => rfl
    | cons b rest ih =>
      simp only [List.flatMap_cons, List.length_append, List.length_cons, ih, hexByte, List.length_nil]
      omega
  rw [hexDigest, each, Vector.length_toList]

theorem digestTag_length (prims : Primitives) (name : Str) : (digestTag prims name).length = 13 := by
  simp [digestTag, hexDigest_length]

theorem digestTag_byteLen (prims : Primitives) (name : Str) : (digestTag prims name).byteLen = 13 := by
  rw [byteLen_ascii, digestTag_length]
  exact fun char inside => hexDigest_ascii prims name char (List.mem_of_mem_take inside)

theorem shortForm_byteLen (prims : Primitives) (name : Str) : (shortForm prims name).byteLen ≤ maxToolNameLen := by
  have front := takeBytes_byteLen 50 name
  have separator : Str.byteLen "_".toList = 1 := by decide
  rw [shortForm, byteLen_append, byteLen_append, separator, digestTag_byteLen]
  unfold maxToolNameLen
  omega

theorem kiroName_byteLen (prims : Primitives) (name : Str) : (kiroName prims name).byteLen ≤ maxToolNameLen := by
  unfold kiroName
  split
  next => exact shortForm_byteLen prims name
  next short => exact Nat.le_of_not_lt short

theorem digestTag_of_shortForm {prims : Primitives} {left right : Str}
    (same : shortForm prims left = shortForm prims right) : digestTag prims left = digestTag prims right :=
  (List.append_inj' same (by rw [digestTag_length, digestTag_length])).2

namespace ToolNameMap

structure Records (prims : Primitives) (seen : List Str) (names : ToolNameMap) : Prop where
  short : ∀ name, names.toShort name = if name ∈ seen ∧ overlong name then some (shortForm prims name) else none
  sound : ∀ key name, names.toOriginal key = some name → name ∈ seen ∧ overlong name ∧ shortForm prims name = key
  complete : ∀ name ∈ seen, overlong name → names.toOriginal (shortForm prims name) ≠ none

theorem empty_records (prims : Primitives) : empty.Records prims [] where
  short name := by simp [empty]
  sound key name found := by simp [empty] at found
  complete name inside := by simp at inside

theorem Records.again {prims : Primitives} {seen : List Str} {names : ToolNameMap} {name : Str}
    (records : names.Records prims seen) (known : overlong name → name ∈ seen) :
    names.Records prims (seen ++ [name]) where
  short other := by
    rw [records.short]
    by_cases same : other = name
    · subst same
      by_cases long : overlong other <;> simp [long, known]
    · simp [same]
  sound key other found := by
    obtain ⟨inside, rest⟩ := records.sound key other found
    exact ⟨List.mem_append_left _ inside, rest⟩
  complete other inside long := by
    obtain before | now := List.mem_append.1 inside
    · exact records.complete other before long
    · obtain rfl := List.mem_singleton.1 now
      exact records.complete other (known long) long

theorem shorten_records {prims : Primitives} {seen : List Str} {names : ToolNameMap}
    (records : names.Records prims seen) (name : Str) :
    (names.shorten prims name).1.Records prims (seen ++ [name]) ∧
      (names.shorten prims name).2 = kiroName prims name := by
  unfold shorten kiroName
  by_cases fits : name.byteLen ≤ maxToolNameLen
  · have short : ¬ overlong name := Nat.not_lt.2 fits
    simp only [fits, if_true, short, if_false, and_true]
    exact records.again fun long => absurd long short
  · have long : overlong name := Nat.lt_of_not_le fits
    have cached := records.short name
    simp only [fits, if_false, long, if_true]
    by_cases known : name ∈ seen
    · simp only [known, long, and_true, if_true] at cached
      simp only [cached, and_true]
      exact records.again fun _ => known
    · simp only [known, false_and, if_false] at cached
      simp only [cached, and_true]
      -- A name that is seen for the first time enters both maps.
      exact
        { short := fun other => by
            by_cases same : other = name
            · simp [same, long]
            · simp [same, records.short]
          sound := fun key other found => by
            by_cases same : key = shortForm prims name
            · obtain rfl : name = other := by simpa [same] using found
              exact ⟨by simp, long, same.symm⟩
            · obtain ⟨inside, rest⟩ := records.sound key other (by simpa [same] using found)
              exact ⟨List.mem_append_left _ inside, rest⟩
          complete := fun other inside otherLong => by
            by_cases same : shortForm prims other = shortForm prims name
            · simp [same]
            · have before : other ∈ seen := by
                obtain before | now := List.mem_append.1 inside
                · exact before
                · obtain rfl := List.mem_singleton.1 now
                  exact absurd rfl same
              simpa [same] using records.complete other before otherLong }

end ToolNameMap

def shortenEach {X O : Type} (prims : Primitives) (key : X → Str) (place : X → Str → O) (names : ToolNameMap)
    (items : List X) : ToolNameMap × List O :=
  Emitter.runAll (fun names x => ((names.shorten prims (key x)).1, [place x (names.shorten prims (key x)).2])) names
    items

theorem shortenEach_cons {X O : Type} (prims : Primitives) (key : X → Str) (place : X → Str → O) (names : ToolNameMap)
    (x : X) (rest : List X) :
    shortenEach prims key place names (x :: rest) =
      let later := shortenEach prims key place (names.shorten prims (key x)).1 rest
      (later.1, place x (names.shorten prims (key x)).2 :: later.2) :=
  Emitter.runAll_cons _ _ _ _

theorem shortenEach_records {X O : Type} {prims : Primitives} (key : X → Str) (place : X → Str → O)
    {seen : List Str} {names : ToolNameMap} (records : names.Records prims seen) (items : List X) :
    (shortenEach prims key place names items).1.Records prims (seen ++ items.map key) ∧
      (shortenEach prims key place names items).2 = items.map fun x => place x (kiroName prims (key x)) := by
  induction items generalizing seen names with
  | nil => exact ⟨by simpa [shortenEach] using records, rfl⟩
  | cons x rest ih =>
    obtain ⟨recorded, sent⟩ := ToolNameMap.shorten_records records (key x)
    obtain ⟨later, placed⟩ := ih recorded
    rw [shortenEach_cons]
    refine ⟨by simpa using later, ?_⟩
    rw [List.map_cons, ← placed, ← sent]

def specification (t : Tool) (name : Str) : ToolEntry :=
  .toolSpecification
    { name
      description := if t.description = [] then "Tool: ".toList ++ t.name else t.description
      inputSchema := ⟨ensureObjectRoot (sanitizeSchema (t.inputSchema.getD []))⟩ }

theorem convertTools_eq (prims : Primitives) (names : ToolNameMap) (tools : List Tool) :
    convertTools prims names tools = shortenEach prims Tool.name specification names tools := rfl

def specificationName : ToolEntry → Option Str
  | .toolSpecification specification => some specification.name
  | .cachePoint _ => none

def specificationNames (entries : List ToolEntry) : List Str := entries.filterMap specificationName

theorem convertTools_records {prims : Primitives} {seen : List Str} {names : ToolNameMap}
    (records : names.Records prims seen) (tools : List Tool) :
    (convertTools prims names tools).1.Records prims (seen ++ tools.map Tool.name) ∧
      specificationNames (convertTools prims names tools).2 = (tools.map Tool.name).map (kiroName prims) := by
  rw [convertTools_eq]
  obtain ⟨recorded, entries⟩ := shortenEach_records Tool.name specification records tools
  refine ⟨recorded, ?_⟩
  rw [entries, specificationNames, List.filterMap_map, List.map_map]
  exact congrFun List.filterMap_eq_map' tools

theorem applyToolCachePoints_names (tools : List Tool) (entries : List ToolEntry) :
    specificationNames (applyToolCachePoints tools entries) = specificationNames entries := by
  induction tools generalizing entries with
  | nil => rfl
  | cons t rest ih =>
    have point : specificationNames (if t.cacheControl.isSome then [.cachePoint ⟨"default".toList⟩] else []) = [] := by
      split <;> rfl
    have later := ih entries.tail
    unfold specificationNames at *
    rw [applyToolCachePoints, List.filterMap_append, List.filterMap_append, point, later]
    cases entries with
    | nil => rfl
    | cons entry rest => cases named : specificationName entry <;> simp [named]

theorem applyToolCachePoints_nil {tools : List Tool} {entries : List ToolEntry}
    (empty : applyToolCachePoints tools entries = []) : entries = [] := by
  cases tools with
  | nil => exact empty
  | cons t rest =>
    cases entries with
    | nil => rfl
    | cons entry later => exact absurd empty (List.cons_ne_nil _ _)

end KiroTrust.Translate
