import KiroTrust.Translate.SchemaForm

set_option autoImplicit false

namespace KiroTrust.Translate

/-! The literals of a schema: its constants and the elements of its enumerations. -/

/-- The schemas of a schema that has not been sanitized; a constant is a literal, not a schema. -/
inductive SourcePosition (root : Schema) : Schema → Prop where
  | root : SourcePosition root root
  | inner {schema child : Schema} {entry : Str × Value} (position : SourcePosition root schema)
      (holds : entry ∈ schema) (keyword : entry.1 ≠ "const".toList)
      (inside : child ∈ innerSchemas entry) : SourcePosition root child

def IsLiteral (root : Schema) (value : Value) : Prop :=
  ∃ schema, SourcePosition root schema ∧
    (("const".toList, value) ∈ schema ∨ ∃ values, ("enum".toList, .array values) ∈ schema ∧ value ∈ values)

def Enumerated (root : Schema) (value : Value) : Prop :=
  ∃ schema, Position root schema ∧ ∃ values, ("enum".toList, .array values) ∈ schema ∧ value ∈ values

/-- The source's sanitizer goes on into what stands under the keyword. -/
def Entered (entry : Str × Value) : Prop :=
  entry.1 ∉ unsupported ∧ entry.1 ≠ "const".toList ∧ (entry.1 ∈ combinators → ∃ items, entry.2 = .array items)

inductive ReadPosition (root : Schema) : Schema → Prop where
  | root : ReadPosition root root
  | inner {schema child : Schema} {entry : Str × Value} (position : ReadPosition root schema)
      (holds : entry ∈ schema) (enters : Entered entry) (inside : child ∈ innerSchemas entry) : ReadPosition root child

/-- An object in an enumeration; the sanitizer reads it as a schema. -/
def EnumObject (root literal : Schema) : Prop :=
  ∃ schema, ReadPosition root schema ∧
    ∃ values, ("enum".toList, .array values) ∈ schema ∧ .object literal ∈ values

def readLiteral : Value → Value
  | .object schema => .object (sanitizeSchema schema)
  | other => other

theorem sanitizeItems_eq_map (items : List Value) : sanitizeItems items = items.map readLiteral := by
  induction items with
  | nil => rfl
  | cons item rest ih => cases item <;> simp only [sanitizeItems, ih, List.map_cons, readLiteral, sanitizeSchema]

theorem ReadPosition.source {root schema : Schema} (position : ReadPosition root schema) :
    SourcePosition root schema := by
  induction position with
  | root => exact .root
  | inner _ holds enters inside ih => exact .inner ih holds enters.2.1 inside

theorem ReadPosition.trans {root middle schema : Schema} (front : ReadPosition root middle)
    (back : ReadPosition middle schema) : ReadPosition root schema := by
  induction back with
  | root => exact front
  | inner _ holds enters inside ih => exact .inner ih holds enters inside

theorem entered_direct {key : Str} (value : Value) (direct : key = "properties".toList ∨ key = "enum".toList) :
    Entered (key, value) := by
  have known : ∀ key ∈ ["properties".toList, "enum".toList],
      key ∉ unsupported ∧ key ≠ "const".toList ∧ key ∉ combinators := by decide +kernel
  obtain ⟨supported, literal, uncombined⟩ := known key (by simpa using direct)
  exact ⟨supported, literal, fun combining => absurd combining uncombined⟩

section Drawn

variable {L : Value → Prop}

def Drawn (L : Value → Prop) (entry : Str × Value) : Prop :=
  entry.1 = "enum".toList → ∀ values, entry.2 = .array values → ∀ value ∈ values, L value

structure Offers (L : Value → Prop) (entry : Str × Value) : Prop where
  constant : entry.1 = "const".toList → L entry.2
  enumeration : entry.1 = "enum".toList → ∀ values, entry.2 = .array values → ∀ value ∈ values, L (readLiteral value)

def Offered (L : Value → Prop) (root : Schema) : Prop :=
  ∀ schema, ReadPosition root schema → ∀ entry ∈ schema, Offers L entry

def EntryOffered (L : Value → Prop) (entry : Str × Value) : Prop :=
  Offers L entry ∧ (Entered entry → ∀ child ∈ innerSchemas entry, Offered L child)

theorem Offered.entries {root : Schema} (offered : Offered L root) : ∀ entry ∈ root, EntryOffered L entry :=
  fun entry holds => ⟨offered root .root entry holds, fun enters _ inside deeper there =>
    offered deeper (ReadPosition.trans (.inner .root holds enters inside) there)⟩

theorem drawn_other {key : Str} (value : Value) (other : key ≠ "enum".toList) : Drawn L (key, value) :=
  fun named => absurd named other

theorem drawn_enum {values : List Value} (drawn : ∀ value ∈ values, L value) :
    EntryEverywhere (Drawn L) ("enum".toList, .array values) := by
  refine ⟨fun _ others same => ?_, fun child inside => absurd inside (List.not_mem_nil (a := child))⟩
  cases same
  exact drawn

theorem drawn_of_get {schema : Schema} {values : List Value} (all : Everywhere (Drawn L) schema)
    (found : schema.get "enum".toList = some (.array values)) : ∀ value ∈ values, L value := by
  obtain ⟨entry, first, held⟩ := Option.map_eq_some_iff.1 found
  have named : entry.1 = "enum".toList := by simpa using List.find?_some first
  exact all schema .root entry (List.mem_of_find?_eq_some first) named values held

theorem addEnumBranch_all {collected next : EnumBranches} {branch : Option Schema}
    (adds : addEnumBranch collected branch = some next) :
    ∃ schema values, branch = some schema ∧ schema.get "enum".toList = some (.array values) ∧
      next.all = collected.all ++ values := by
  cases branch with
  | none => cases adds
  | some schema =>
    unfold addEnumBranch at adds
    dsimp only at adds
    split at adds
    next values found =>
      refine ⟨schema, values, rfl, found, ?_⟩
      split at adds
      next =>
        split at adds
        next => cases adds; rfl
        next => split at adds <;> cases adds <;> rfl
      next => cases adds; rfl
    next => cases adds

theorem flattened_drawn {branches : List (Option Schema)} {merged : Schema}
    (each : ∀ branch, some branch ∈ branches → Everywhere (Drawn L) branch)
    (flattened : flattenEnumBranches branches = some merged) : Everywhere (Drawn L) merged := by
  have collects (start collected : EnumBranches) (drawn : ∀ value ∈ start.all, L value)
      (folds : branches.foldlM addEnumBranch start = some collected) : ∀ value ∈ collected.all, L value := by
    clear flattened
    induction branches generalizing start with
    | nil =>
      cases folds
      exact drawn
    | cons branch rest ih =>
      obtain ⟨next, adds, continues⟩ := Option.bind_eq_some_iff.1 folds
      obtain ⟨schema, values, rfl, found, all⟩ := addEnumBranch_all adds
      refine ih (fun branch inside => each branch (List.mem_cons_of_mem _ inside)) next ?_ continues
      rw [all, List.forall_mem_append]
      exact ⟨drawn, drawn_of_get (each schema List.mem_cons_self) found⟩
  obtain ⟨collected, folds, rfl⟩ := Option.map_eq_some_iff.1 flattened
  have enumeration := drawn_enum (collects _ collected (List.forall_mem_nil _) folds)
  have typed (kind : Str) : EntryEverywhere (Drawn L) ("type".toList, .string kind) :=
    ⟨drawn_other _ (by decide), fun child inside => absurd inside (List.not_mem_nil (a := child))⟩
  rw [everywhere_iff]
  dsimp only
  split
  next kind _ =>
    split
    next => exact List.forall_mem_cons.2 ⟨enumeration, List.forall_mem_singleton.2 (typed kind)⟩
    next => exact List.forall_mem_singleton.2 enumeration
  next => exact List.forall_mem_singleton.2 enumeration

theorem entry_drawn {key : Str} {value : Value} (drawn : Drawn L (key, value))
    (noProperties : key ≠ "properties".toList)
    (held : ∀ child ∈ heldObjects value, Everywhere (Drawn L) child) : EntryEverywhere (Drawn L) (key, value) := by
  refine ⟨drawn, fun child inside => ?_⟩
  unfold innerSchemas at inside
  rw [if_neg noProperties] at inside
  split at inside
  next => cases inside
  next =>
    split at inside
    next =>
      refine held child ?_
      cases value with
      | object schema => exact inside
      | _ => cases inside
    next => exact held child inside

theorem EntryOffered.held {key : Str} {value : Value} (offered : EntryOffered L (key, value))
    (other : key ≠ "properties".toList ∧ key ≠ "required".toList ∧ key ≠ "enum".toList) (enters : Entered (key, value)) :
    ∀ child ∈ heldObjects value, Offered L child := by
  obtain ⟨noProperties, noRequired, noEnum⟩ := other
  have inner := offered.2 enters
  simp only [innerSchemas, noProperties, noRequired, noEnum, if_false] at inner
  exact inner

theorem EntryOffered.combined {key : Str} {items : List Value} (offered : EntryOffered L (key, .array items))
    (combines : key ∈ combinators) : ∀ child ∈ items.filterMap asObject, Offered L child := by
  have known : ∀ key ∈ combinators, key ∉ unsupported ∧ key ≠ "const".toList ∧ key ≠ "properties".toList ∧
      key ≠ "required".toList ∧ key ≠ "enum".toList := by decide +kernel
  obtain ⟨supported, literal, other⟩ := known key combines
  exact offered.held other ⟨supported, literal, fun _ => ⟨items, rfl⟩⟩

mutual

theorem sanitizeKeywords_drawn (result : Schema) (drawn : Everywhere (Drawn L) result) (entries : List (Str × Value))
    (offered : ∀ entry ∈ entries, EntryOffered L entry) :
    Everywhere (Drawn L) (sanitizeKeywords result entries) := by
  match entries with
  | [] => exact drawn
  | (key, value) :: rest =>
    obtain ⟨here, later⟩ := List.forall_mem_cons.1 offered
    have skips := sanitizeKeywords_drawn result drawn rest later
    have inserts (name : Str) (held : Value) (good : EntryEverywhere (Drawn L) (name, held)) :
        Everywhere (Drawn L) (sanitizeKeywords (result.insert name held) rest) :=
      sanitizeKeywords_drawn _ (drawn.insert good) rest later
    unfold sanitizeKeywords
    by_cases dropped : key ∈ unsupported
    · rw [if_pos dropped]
      exact skips
    rw [if_neg dropped]
    by_cases constant : key = "const".toList
    · rw [if_pos constant]
      subst constant
      exact inserts _ _ (drawn_enum (List.forall_mem_singleton.2 (here.1.constant rfl)))
    rw [if_neg constant]
    by_cases required : key = "required".toList
    · rw [if_pos required]
      subst required
      have kept (value : Value) : EntryEverywhere (Drawn L) ("required".toList, value) :=
        ⟨drawn_other value (by decide), fun child inside => absurd inside (List.not_mem_nil (a := child))⟩
      split
      next => exact skips
      next => exact inserts _ _ (kept value)
    rw [if_neg required]
    by_cases properties : key = "properties".toList
    · rw [if_pos properties]
      subst properties
      match value with
      | .object props =>
        refine inserts _ _ ⟨drawn_other _ (by decide), fun child inside => ?_⟩
        obtain ⟨prop, found, held⟩ := List.mem_flatMap.1 inside
        exact sanitizeProperties_drawn props (here.2 (entered_direct _ (.inl rfl))) prop found child held
      | .array _ | .null | .bool _ | .number _ | .string _ =>
        exact inserts _ _
          ⟨drawn_other _ (by decide), fun child inside => absurd inside (List.not_mem_nil (a := child))⟩
    rw [if_neg properties]
    by_cases combines : key = "anyOf".toList ∨ key = "oneOf".toList ∨ key = "allOf".toList
    · rw [if_pos combines]
      exact skips
    rw [if_neg combines]
    by_cases enumeration : key = "enum".toList
    · subst enumeration
      exact inserts _ _ (sanitizeEnum_drawn value here)
    · have enters : Entered (key, value) := by
        refine ⟨dropped, constant, fun combining => absurd ?_ combines⟩
        simpa only [combinators, List.mem_cons, List.not_mem_nil, or_false] using combining
      exact inserts _ _ (entry_drawn (drawn_other _ enumeration) properties
        (sanitizeValue_drawn value (here.held ⟨properties, required, enumeration⟩ enters)))

theorem sanitizeCombinators_drawn (result : Schema) (drawn : Everywhere (Drawn L) result) (entries : List (Str × Value))
    (offered : ∀ entry ∈ entries, EntryOffered L entry) :
    Everywhere (Drawn L) (sanitizeCombinators result entries) := by
  match entries with
  | [] => exact drawn
  | (key, value) :: rest =>
    obtain ⟨here, later⟩ := List.forall_mem_cons.1 offered
    have skips := sanitizeCombinators_drawn result drawn rest later
    unfold sanitizeCombinators
    by_cases either : key = "anyOf".toList ∨ key = "oneOf".toList
    · rw [if_pos either]
      match value with
      | .array (branch :: others) =>
        have held := here.combined (by rcases either with rfl | rfl <;> decide)
        have branches := sanitizeBranches_drawn (branch :: others) held
        exact sanitizeCombinators_drawn _ (drawn.merge branches fun _ => flattened_drawn branches) rest later
      | .array [] | .object _ | .null | .bool _ | .number _ | .string _ => exact skips
    rw [if_neg either]
    by_cases all : key = "allOf".toList
    · rw [if_pos all]
      match value with
      | .array items =>
        have held := here.combined (by subst all; decide)
        exact sanitizeCombinators_drawn _ (sanitizeAll_drawn result drawn items held) rest later
      | .object _ | .null | .bool _ | .number _ | .string _ => exact skips
    · rw [if_neg all]
      exact skips

theorem sanitizeProperties_drawn (props : List (Str × Value))
    (offered : ∀ child ∈ props.flatMap fun prop => heldObjects prop.2, Offered L child) :
    ∀ prop ∈ sanitizeProperties props, ∀ child ∈ heldObjects prop.2, Everywhere (Drawn L) child := by
  match props with
  | [] => exact List.forall_mem_nil _
  | (key, value) :: rest =>
    rw [List.flatMap_cons, List.forall_mem_append] at offered
    exact List.forall_mem_cons.2 ⟨sanitizeValue_drawn value offered.1, sanitizeProperties_drawn rest offered.2⟩

theorem sanitizeBranches_drawn (items : List Value) (offered : ∀ child ∈ items.filterMap asObject, Offered L child) :
    ∀ branch, some branch ∈ sanitizeBranches items → Everywhere (Drawn L) branch := by
  match items with
  | [] => exact fun branch inside => absurd inside List.not_mem_nil
  | .object schema :: rest =>
    obtain ⟨here, later⟩ := List.forall_mem_cons.1 offered
    intro branch inside
    rw [sanitizeBranches] at inside
    rcases List.mem_cons.1 inside with first | among
    · cases first
      exact sanitizeCombinators_drawn _ (sanitizeKeywords_drawn [] everywhere_nil schema here.entries) schema here.entries
    · exact sanitizeBranches_drawn rest later branch among
  | .null :: rest | .bool _ :: rest | .number _ :: rest | .string _ :: rest | .array _ :: rest =>
    intro branch inside
    rcases List.mem_cons.1 (show some branch ∈ none :: sanitizeBranches rest from inside) with first | among
    · cases first
    · exact sanitizeBranches_drawn rest offered branch among

theorem sanitizeAll_drawn (result : Schema) (drawn : Everywhere (Drawn L) result) (items : List Value)
    (offered : ∀ child ∈ items.filterMap asObject, Offered L child) :
    Everywhere (Drawn L) (sanitizeAll result items) := by
  match items with
  | [] => exact drawn
  | .object schema :: rest =>
    obtain ⟨here, later⟩ := List.forall_mem_cons.1 offered
    rw [sanitizeAll]
    have object := sanitizeCombinators_drawn _ (sanitizeKeywords_drawn [] everywhere_nil schema here.entries) schema here.entries
    exact sanitizeAll_drawn _ (drawn.extend object) rest later
  | .null :: rest | .bool _ :: rest | .number _ :: rest | .string _ :: rest | .array _ :: rest =>
    exact sanitizeAll_drawn result drawn rest offered

theorem sanitizeEnum_drawn (value : Value) (offered : EntryOffered L ("enum".toList, value)) :
    EntryEverywhere (Drawn L) ("enum".toList, sanitizeValue value) := by
  match value with
  | .object schema =>
    have here : Offered L schema := offered.2 (entered_direct _ (.inr rfl)) schema List.mem_cons_self
    refine ⟨fun _ values same => (nomatch same), List.forall_mem_singleton.2 ?_⟩
    exact sanitizeCombinators_drawn _ (sanitizeKeywords_drawn [] everywhere_nil schema here.entries) schema here.entries
  | .array values =>
    rw [sanitizeValue, sanitizeItems_eq_map]
    refine drawn_enum fun read inside => ?_
    obtain ⟨value, among, rfl⟩ := List.mem_map.1 inside
    exact offered.1.enumeration rfl values rfl value among
  | .null | .bool _ | .number _ | .string _ =>
    exact ⟨fun _ values same => (nomatch same), fun child inside => absurd inside (List.not_mem_nil (a := child))⟩

theorem sanitizeValue_drawn (value : Value) (offered : ∀ child ∈ heldObjects value, Offered L child) :
    ∀ child ∈ heldObjects (sanitizeValue value), Everywhere (Drawn L) child := by
  match value with
  | .object schema =>
    have here := List.forall_mem_singleton.1 offered
    exact List.forall_mem_singleton.2
      (sanitizeCombinators_drawn _ (sanitizeKeywords_drawn [] everywhere_nil schema here.entries) schema here.entries)
  | .array items => exact sanitizeItems_drawn items offered
  | .null | .bool _ | .number _ | .string _ => exact List.forall_mem_nil _

theorem sanitizeItems_drawn (items : List Value) (offered : ∀ child ∈ items.filterMap asObject, Offered L child) :
    ∀ child ∈ (sanitizeItems items).filterMap asObject, Everywhere (Drawn L) child := by
  match items with
  | [] => exact List.forall_mem_nil _
  | .object schema :: rest =>
    obtain ⟨here, later⟩ := List.forall_mem_cons.1 offered
    rw [sanitizeItems]
    exact List.forall_mem_cons.2
      ⟨sanitizeCombinators_drawn _ (sanitizeKeywords_drawn [] everywhere_nil schema here.entries) schema here.entries,
        sanitizeItems_drawn rest later⟩
  | .null :: rest | .bool _ :: rest | .number _ :: rest | .string _ :: rest | .array _ :: rest =>
    exact sanitizeItems_drawn rest offered

end

end Drawn

theorem sanitized_literals {schema : Schema} {value : Value} (enumerated : Enumerated (sanitizeSchema schema) value) :
    IsLiteral schema value ∨ ∃ literal, EnumObject schema literal ∧ value = .object (sanitizeSchema literal) := by
  let L (value : Value) : Prop :=
    IsLiteral schema value ∨ ∃ literal, EnumObject schema literal ∧ value = .object (sanitizeSchema literal)
  have offered : Offered L schema := by
    rintro inner position ⟨key, value⟩ holds
    refine ⟨?_, ?_⟩
    · rintro rfl
      exact .inl ⟨inner, position.source, .inl holds⟩
    · rintro rfl values rfl literal among
      cases literal with
      | object literal => exact .inr ⟨literal, ⟨inner, position, values, holds, among⟩, rfl⟩
      | _ => exact .inl ⟨inner, position.source, .inr ⟨values, holds, among⟩⟩
  have drawn :=
    sanitizeCombinators_drawn _ (sanitizeKeywords_drawn [] everywhere_nil schema offered.entries) schema offered.entries
  obtain ⟨inner, position, values, holds, among⟩ := enumerated
  exact drawn inner position _ holds rfl values rfl value among

/-- The schemas that the sanitizer reads under a keyword that it keeps; the elements of an enumeration are among them. -/
def readObjects (entry : Str × Value) : List Schema :=
  if entry.1 = "required".toList then []
  else if entry.1 = "properties".toList then
    match entry.2 with
    | .object props => props.flatMap fun prop => heldObjects prop.2
    | _ => []
  else heldObjects entry.2

/-- No keyword that is dropped, rewritten or merged, at any depth. -/
inductive Untouched : Schema → Prop where
  | intro {schema : Schema} (unique : (schema.map Prod.fst).Nodup) (plain : ∀ entry ∈ schema, Plain entry)
      (inner : ∀ entry ∈ schema, ∀ child ∈ readObjects entry, Untouched child) : Untouched schema

def sanitizeEntry (entry : Str × Value) : Value :=
  if entry.1 = "required".toList then entry.2
  else if entry.1 = "properties".toList then sanitizedProperties entry.2
  else sanitizeValue entry.2

namespace Schema

theorem insert_fresh {key : Str} (value : Value) {schema : Schema} (fresh : key ∉ schema.map Prod.fst) :
    schema.insert key value = schema ++ [(key, value)] := by
  induction schema with
  | nil => rfl
  | cons entry rest ih =>
    rw [List.map_cons, List.mem_cons, not_or] at fresh
    rw [insert, if_neg (Ne.symm fresh.1), ih fresh.2, List.cons_append]

theorem mem_insert_self (key : Str) (value : Value) (schema : Schema) : (key, value) ∈ schema.insert key value := by
  induction schema with
  | nil => exact List.mem_singleton_self _
  | cons entry rest ih =>
    unfold insert
    split
    next => exact List.mem_cons_self
    next => exact List.mem_cons_of_mem _ ih

theorem mem_insert_of_mem {key : Str} {value : Value} {schema : Schema} {entry : Str × Value} (holds : entry ∈ schema)
    (other : entry.1 ≠ key) : entry ∈ schema.insert key value := by
  induction schema with
  | nil => cases holds
  | cons first rest ih =>
    unfold insert
    split
    next same =>
      rcases List.mem_cons.1 holds with rfl | later
      · exact absurd same other
      · exact List.mem_cons_of_mem _ later
    next =>
      rcases List.mem_cons.1 holds with rfl | later
      · exact List.mem_cons_self
      · exact List.mem_cons_of_mem _ (ih later)

end Schema

theorem keywords_direct_cons {key : Str} (value : Value) (direct : key ≠ "const".toList ∧ key ∉ combinators)
    (result : Schema) (rest : Schema) :
    ∃ next : Schema, sanitizeKeywords result ((key, value) :: rest) = sanitizeKeywords next rest ∧
      (next = result ∨ next = result.insert key (sanitizeEntry (key, value))) ∧
      (Plain (key, value) → next = result.insert key (sanitizeEntry (key, value))) := by
  obtain ⟨literal, uncombined⟩ := direct
  simp only [combinators, List.mem_cons, List.not_mem_nil, or_false] at uncombined
  generalize same : sanitizeKeywords result ((key, value) :: rest) = whole
  unfold sanitizeKeywords at same
  subst same
  unfold sanitizeEntry
  by_cases dropped : key ∈ unsupported
  · exact ⟨result, if_pos dropped, .inl rfl, fun plain => absurd dropped plain.supported⟩
  rw [if_neg dropped, if_neg literal]
  by_cases required : key = "required".toList
  · rw [if_pos required, if_pos required]
    split
    next => exact ⟨result, rfl, .inl rfl, fun plain => absurd ⟨required, rfl⟩ plain.required⟩
    next => exact ⟨_, rfl, .inr rfl, fun _ => rfl⟩
  rw [if_neg required, if_neg required]
  by_cases properties : key = "properties".toList
  · rw [if_pos properties, if_pos properties]
    cases value <;> exact ⟨_, rfl, .inr rfl, fun _ => rfl⟩
  · rw [if_neg properties, if_neg properties, if_neg uncombined]
    exact ⟨_, rfl, .inr rfl, fun _ => rfl⟩

theorem keywords_plain {entries : Schema} (plain : ∀ entry ∈ entries, Plain entry) (result : Schema)
    (unique : ((result ++ entries).map Prod.fst).Nodup) :
    sanitizeKeywords result entries = result ++ entries.map fun entry => (entry.1, sanitizeEntry entry) := by
  induction entries generalizing result with
  | nil => exact (List.append_nil result).symm
  | cons entry rest ih =>
    obtain ⟨key, value⟩ := entry
    obtain ⟨here, later⟩ := List.forall_mem_cons.1 plain
    obtain ⟨next, continues, -, inserts⟩ := keywords_direct_cons value here.direct result rest
    have fresh : key ∉ result.map Prod.fst := by
      rw [List.map_append, List.map_cons] at unique
      exact fun inside => (List.nodup_append.1 unique).2.2 key inside key List.mem_cons_self rfl
    rw [continues, inserts here, Schema.insert_fresh _ fresh, ih later _ (by simpa using unique), List.append_assoc]
    rfl

theorem uncombined_of_absent {schema : Schema} (absent : ∀ entry ∈ schema, entry.1 ∉ combinators) :
    schema.Uncombined := by
  intro key listed
  rw [Schema.get_none]
  intro inside
  obtain ⟨entry, holds, rfl⟩ := List.mem_map.1 inside
  exact absent entry holds listed

theorem uncombined_of_plain {schema : Schema} (plain : ∀ entry ∈ schema, Plain entry) : schema.Uncombined :=
  uncombined_of_absent fun entry holds => (plain entry holds).direct.2

theorem sanitizeSchema_plain {schema : Schema} (unique : (schema.map Prod.fst).Nodup)
    (plain : ∀ entry ∈ schema, Plain entry) :
    sanitizeSchema schema = schema.map fun entry => (entry.1, sanitizeEntry entry) := by
  rw [sanitizeSchema, combinators_uncombined (uncombined_of_plain plain), keywords_plain plain [] unique]
  rfl

theorem map_same_iff {α : Type} {f : α → α} {items : List α} :
    items.map f = items ↔ ∀ item ∈ items, f item = item := by
  refine Iff.trans ?_ (List.map_inj_left (g := id))
  rw [List.map_id]

theorem readLiteral_same_iff {value : Value} :
    readLiteral value = value ↔ ∀ child, asObject value = some child → sanitizeSchema child = child := by
  cases value <;> simp [readLiteral, asObject]

theorem sanitizeValue_same_iff {value : Value} :
    sanitizeValue value = value ↔ ∀ child ∈ heldObjects value, sanitizeSchema child = child := by
  cases value with
  | object schema => simp [sanitizeValue, heldObjects, sanitizeSchema]
  | array items =>
    rw [sanitizeValue, sanitizeItems_eq_map, Value.array.injEq, map_same_iff]
    constructor
    · intro same child inside
      obtain ⟨item, among, held⟩ := List.mem_filterMap.1 inside
      exact readLiteral_same_iff.1 (same item among) child held
    · intro same item among
      exact readLiteral_same_iff.2 fun child held => same child (List.mem_filterMap.2 ⟨item, among, held⟩)
  | _ => simp [sanitizeValue, heldObjects]

theorem sanitizeProperties_eq_map (props : List (Str × Value)) :
    sanitizeProperties props = props.map fun prop => (prop.1, sanitizeValue prop.2) := by
  induction props with
  | nil => rfl
  | cons prop rest ih => rw [sanitizeProperties, ih, List.map_cons]

theorem sanitizeEntry_same_iff {entry : Str × Value} :
    sanitizeEntry entry = entry.2 ↔ ∀ child ∈ readObjects entry, sanitizeSchema child = child := by
  obtain ⟨key, value⟩ := entry
  unfold sanitizeEntry readObjects
  by_cases required : key = "required".toList
  · simp [required]
  rw [if_neg required, if_neg required]
  by_cases properties : key = "properties".toList
  · rw [if_pos properties, if_pos properties]
    cases value with
    | object props =>
      rw [sanitizedProperties, sanitizeProperties_eq_map, Value.object.injEq, map_same_iff]
      simp only [List.mem_flatMap, forall_exists_index, and_imp]
      constructor
      · intro same child prop holds held
        exact sanitizeValue_same_iff.1 (congrArg Prod.snd (same prop holds)) child held
      · intro same prop holds
        exact Prod.ext rfl (sanitizeValue_same_iff.2 fun child held => same child prop holds held)
    | _ => simp [sanitizedProperties]
  · rw [if_neg properties, if_neg properties]
    exact sanitizeValue_same_iff

theorem heldObjects_size {value : Value} {child : Schema} (inside : child ∈ heldObjects value) :
    sizeOf child < sizeOf value := by
  cases value with
  | object schema =>
    cases List.mem_singleton.1 inside
    simp
  | array items =>
    obtain ⟨item, among, held⟩ := List.mem_filterMap.1 inside
    have size := List.sizeOf_lt_of_mem among
    cases item with
    | object schema =>
      cases held
      simp only [Value.object.sizeOf_spec, Value.array.sizeOf_spec] at *
      omega
    | _ => cases held
  | _ => cases inside

theorem readObjects_size {schema child : Schema} {entry : Str × Value} (holds : entry ∈ schema)
    (inside : child ∈ readObjects entry) : sizeOf child < sizeOf schema := by
  have here := List.sizeOf_lt_of_mem holds
  obtain ⟨key, value⟩ := entry
  rw [Prod.mk.sizeOf_spec] at here
  unfold readObjects at inside
  split at inside
  next => cases inside
  next =>
    split at inside
    next =>
      split at inside
      next props same =>
        obtain ⟨prop, among, held⟩ := List.mem_flatMap.1 inside
        have below := List.sizeOf_lt_of_mem among
        have deepest := heldObjects_size held
        obtain ⟨name, value⟩ := prop
        cases same
        simp only [Prod.mk.sizeOf_spec, Value.object.sizeOf_spec] at *
        omega
      next => cases inside
    next => have := heldObjects_size inside; dsimp only at this; omega

theorem untouched_iff (schema : Schema) : Untouched schema ↔ sanitizeSchema schema = schema := by
  have entries {schema : Schema} (plain : ∀ entry ∈ schema, Plain entry) (unique : (schema.map Prod.fst).Nodup) :
      sanitizeSchema schema = schema ↔ ∀ entry ∈ schema, ∀ child ∈ readObjects entry, sanitizeSchema child = child := by
    rw [sanitizeSchema_plain unique plain, map_same_iff]
    refine forall₂_congr fun entry _ => ?_
    rw [← sanitizeEntry_same_iff]
    exact ⟨fun same => congrArg Prod.snd same, fun same => Prod.ext rfl same⟩
  constructor
  · intro untouched
    induction untouched with
    | intro unique plain _ ih => exact (entries plain unique).2 ih
  · intro same
    have normal : NormalForm (sanitizeSchema schema) :=
      sanitizeCombinators_normal _ (sanitizeKeywords_normal [] normalForm_nil schema) schema
    rw [same] at normal
    have plain := normal schema .root
    have unique : (schema.map Prod.fst).Nodup := by
      rw [← same, sanitizeSchema, combinators_uncombined (uncombined_of_plain plain)]
      exact sanitizeKeywords_unique (show (([] : Schema).map Prod.fst).Nodup from List.nodup_nil) _
    refine .intro unique plain fun entry holds child inside => ?_
    have := readObjects_size holds inside
    exact (untouched_iff child).2 ((entries plain unique).1 same entry holds child inside)
termination_by sizeOf schema

structure Direct (schema : Schema) : Prop where
  unique : (schema.map Prod.fst).Nodup
  direct : ∀ entry ∈ schema, entry.1 ≠ "const".toList ∧ entry.1 ∉ combinators

/-- A schema of the input that nothing is merged into on the way from the root. -/
inductive DirectPosition (root : Schema) : Schema → Prop where
  | root (direct : Direct root) : DirectPosition root root
  | inner {schema child : Schema} {entry : Str × Value} (position : DirectPosition root schema)
      (holds : entry ∈ schema) (plain : Plain entry) (inside : child ∈ innerSchemas entry)
      (direct : Direct child) : DirectPosition root child

theorem Direct.tail {entry : Str × Value} {rest : Schema} (direct : Direct (entry :: rest)) : Direct rest :=
  ⟨(List.nodup_cons.1 direct.unique).2, fun other later => direct.direct other (List.mem_cons_of_mem _ later)⟩

theorem keywords_held {entries : Schema} (direct : Direct entries) {held : Str × Value} {result : Schema}
    (holds : held ∈ result) (fresh : held.1 ∉ entries.map Prod.fst) : held ∈ sanitizeKeywords result entries := by
  induction entries generalizing result with
  | nil => exact holds
  | cons entry rest ih =>
    obtain ⟨key, value⟩ := entry
    rw [List.map_cons, List.mem_cons, not_or] at fresh
    obtain ⟨next, continues, rfl | rfl, -⟩ :=
      keywords_direct_cons value (direct.direct _ List.mem_cons_self) result rest
    · rw [continues]
      exact ih direct.tail holds fresh.2
    · rw [continues]
      exact ih direct.tail (Schema.mem_insert_of_mem holds fresh.1) fresh.2

theorem keywords_holds {entries : Schema} (direct : Direct entries) {entry : Str × Value} (holds : entry ∈ entries)
    (plain : Plain entry) (result : Schema) : (entry.1, sanitizeEntry entry) ∈ sanitizeKeywords result entries := by
  induction entries generalizing result with
  | nil => cases holds
  | cons first rest ih =>
    obtain ⟨key, value⟩ := first
    obtain ⟨next, continues, -, inserts⟩ :=
      keywords_direct_cons value (direct.direct _ List.mem_cons_self) result rest
    rw [continues]
    rcases List.mem_cons.1 holds with rfl | later
    · rw [inserts plain]
      exact keywords_held direct.tail (Schema.mem_insert_self _ _ _) (List.nodup_cons.1 direct.unique).1
    · exact ih direct.tail later next

theorem Direct.sanitized {schema : Schema} (direct : Direct schema) {entry : Str × Value} (holds : entry ∈ schema)
    (plain : Plain entry) : (entry.1, sanitizeEntry entry) ∈ sanitizeSchema schema := by
  have uncombined := uncombined_of_absent fun entry holds => (direct.direct entry holds).2
  rw [sanitizeSchema, combinators_uncombined uncombined]
  exact keywords_holds direct holds plain []

theorem heldObjects_sanitized {value : Value} {child : Schema} (inside : child ∈ heldObjects value) :
    sanitizeSchema child ∈ heldObjects (sanitizeValue value) := by
  cases value with
  | object schema =>
    cases List.mem_singleton.1 inside
    exact List.mem_singleton_self _
  | array items =>
    obtain ⟨item, among, held⟩ := List.mem_filterMap.1 inside
    rw [sanitizeValue, sanitizeItems_eq_map]
    refine List.mem_filterMap.2 ⟨readLiteral item, List.mem_map_of_mem among, ?_⟩
    cases item with
    | object schema =>
      cases held
      rfl
    | _ => cases held
  | _ => cases inside

theorem innerSchemas_sanitized {entry : Str × Value} {child : Schema} (inside : child ∈ innerSchemas entry) :
    sanitizeSchema child ∈ innerSchemas (entry.1, sanitizeEntry entry) := by
  obtain ⟨key, value⟩ := entry
  unfold innerSchemas at *
  unfold sanitizeEntry
  by_cases properties : key = "properties".toList
  · have optional : key ≠ "required".toList := by subst properties; decide
    rw [if_pos properties] at inside
    rw [if_pos properties, if_neg optional, if_pos properties]
    cases value with
    | object props =>
      obtain ⟨prop, among, held⟩ := List.mem_flatMap.1 inside
      dsimp only [sanitizedProperties]
      rw [sanitizeProperties_eq_map]
      exact List.mem_flatMap.2 ⟨_, List.mem_map_of_mem among, heldObjects_sanitized held⟩
    | _ => cases inside
  rw [if_neg properties] at inside
  rw [if_neg properties]
  by_cases required : key = "required".toList
  · rw [if_pos required] at inside
    cases inside
  rw [if_neg required] at inside
  rw [if_neg required, if_neg required, if_neg properties]
  by_cases enumeration : key = "enum".toList
  · rw [if_pos enumeration] at inside
    rw [if_pos enumeration]
    cases value with
    | object schema =>
      cases List.mem_singleton.1 inside
      exact List.mem_singleton_self _
    | _ => cases inside
  · rw [if_neg enumeration] at inside
    rw [if_neg enumeration]
    exact heldObjects_sanitized inside

theorem DirectPosition.sanitized {root schema : Schema} (position : DirectPosition root schema) :
    Direct schema ∧ Position (sanitizeSchema root) (sanitizeSchema schema) := by
  induction position with
  | root direct => exact ⟨direct, .root⟩
  | inner _ holds plain inside direct ih =>
    exact ⟨direct, .inner ih.2 (ih.1.sanitized holds plain) (innerSchemas_sanitized inside)⟩

theorem DirectPosition.enumerated {root schema literal : Schema} {values : List Value}
    (position : DirectPosition root schema) (holds : ("enum".toList, .array values) ∈ schema)
    (among : .object literal ∈ values) : Enumerated (sanitizeSchema root) (.object (sanitizeSchema literal)) := by
  obtain ⟨direct, there⟩ := position.sanitized
  refine ⟨_, there, values.map readLiteral, ?_, List.mem_map.2 ⟨.object literal, among, rfl⟩⟩
  have sanitized := direct.sanitized holds (plain_enum _)
  have entry : sanitizeEntry ("enum".toList, .array values) = .array (values.map readLiteral) := by
    have other : "enum".toList ≠ "required".toList ∧ "enum".toList ≠ "properties".toList := by decide
    rw [sanitizeEntry, if_neg other.1, if_neg other.2, sanitizeValue, sanitizeItems_eq_map]
  rwa [entry] at sanitized

/-- The second part: a touched object that reaches the result is changed, to what may by chance be another literal. -/
theorem untouched_literals_kept (schema : Schema) :
    ((∀ literal, EnumObject schema literal → Untouched literal) →
      ∀ value, Enumerated (sanitizeSchema schema) value → IsLiteral schema value) ∧
    ((∀ value, Enumerated (sanitizeSchema schema) value → IsLiteral schema value) →
      ∀ inner values literal, DirectPosition schema inner → ("enum".toList, .array values) ∈ inner →
        .object literal ∈ values → ¬ Untouched literal →
          ∃ other, other ≠ literal ∧ NormalForm other ∧ IsLiteral schema (.object other)) := by
  constructor
  · intro untouched value enumerated
    rcases sanitized_literals enumerated with literal | ⟨literal, object, rfl⟩
    · exact literal
    · obtain ⟨inner, position, values, holds, among⟩ := object
      rw [(untouched_iff literal).1 (untouched literal ⟨inner, position, values, holds, among⟩)]
      exact ⟨inner, position.source, .inr ⟨values, holds, among⟩⟩
  · intro kept inner values literal position holds among touched
    exact ⟨sanitizeSchema literal, fun same => touched ((untouched_iff literal).2 same),
      sanitizeCombinators_normal _ (sanitizeKeywords_normal [] normalForm_nil literal) literal,
      kept _ (position.enumerated holds among)⟩

theorem enumeration_positions {values : List Value} {schema : Schema}
    (position : SourcePosition [("enum".toList, .array values)] schema) : schema = [("enum".toList, .array values)] := by
  induction position with
  | root => rfl
  | inner _ holds _ inside ih =>
    subst ih
    cases List.mem_singleton.1 holds
    cases inside

def presets (extra : List (Str × Value)) : Schema :=
  [("enum".toList, .array [.object (("mode".toList, .string "fast".toList) :: extra)])]

theorem untouched_literals_kept_sample :
    ∀ value, Enumerated (sanitizeSchema (presets [])) value → IsLiteral (presets []) value := by
  refine (untouched_literals_kept (presets [])).1 ?_
  rintro literal ⟨schema, position, values, holds, among⟩
  cases enumeration_positions position.source
  cases List.mem_singleton.1 holds
  cases List.mem_singleton.1 among
  have empty : ∀ child ∈ readObjects ("mode".toList, .string "fast".toList), Untouched child := List.forall_mem_nil _
  refine .intro (List.pairwise_singleton _ _) (List.forall_mem_singleton.2 ?_) (List.forall_mem_singleton.2 empty)
  exact ⟨show "mode".toList ∉ unsupported by decide +kernel,
    show "mode".toList ≠ "const".toList ∧ "mode".toList ∉ combinators by decide,
    fun both => absurd both.1 (show "mode".toList ≠ "required".toList by decide)⟩

def defaulted : Schema := presets [("default".toList, .bool true)]

/-- The enumerated object loses its `default`, as a schema would. -/
theorem literal_rewritten :
    Enumerated (sanitizeSchema defaulted) (.object [("mode".toList, .string "fast".toList)]) ∧
      ¬ IsLiteral defaulted (.object [("mode".toList, .string "fast".toList)]) := by
  constructor
  · exact ⟨_, .root, [.object [("mode".toList, .string "fast".toList)]], List.mem_cons_self, List.mem_cons_self⟩
  · rintro ⟨schema, position, literal⟩
    cases enumeration_positions position
    rcases literal with constant | ⟨values, enumeration, among⟩
    · cases List.mem_singleton.1 constant
    · cases List.mem_singleton.1 enumeration
      cases List.mem_singleton.1 among

end KiroTrust.Translate
