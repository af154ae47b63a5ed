import KiroTrust.Translate.Schema

set_option autoImplicit false

namespace KiroTrust.Translate

/-! The form of sanitized schemas. -/

def asObject : Value → Option Schema
  | .object schema => some schema
  | _ => none

def heldObjects : Value → List Schema
  | .object schema => [schema]
  | .array items => items.filterMap asObject
  | _ => []

def innerSchemas (entry : Str × Value) : List Schema :=
  if entry.1 = "properties".toList then
    match entry.2 with
    | .object props => props.flatMap fun prop => heldObjects prop.2
    | _ => []
  else if entry.1 = "required".toList then []
  else if entry.1 = "enum".toList then (asObject entry.2).toList
  else heldObjects entry.2

inductive Position (root : Schema) : Schema → Prop where
  | root : Position root root
  | inner {schema child : Schema} {entry : Str × Value} (position : Position root schema) (holds : entry ∈ schema)
    (inside : child ∈ innerSchemas entry) : Position root child

def combinators : List Str := ["anyOf".toList, "oneOf".toList, "allOf".toList]

structure Plain (entry : Str × Value) : Prop where
  supported : entry.1 ∉ unsupported
  direct : entry.1 ≠ "const".toList ∧ entry.1 ∉ combinators
  required : ¬ (entry.1 = "required".toList ∧ entry.2 = .array [])

def NormalForm (root : Schema) : Prop := ∀ schema, Position root schema → ∀ entry ∈ schema, Plain entry

def NormalEntry (entry : Str × Value) : Prop := Plain entry ∧ ∀ child ∈ innerSchemas entry, NormalForm child

theorem Position.trans {root middle schema : Schema} (front : Position root middle) (back : Position middle schema) :
    Position root schema := by
  induction back with
  | root => exact front
  | inner _ holds inside ih => exact .inner ih holds inside

def Everywhere (good : Str × Value → Prop) (root : Schema) : Prop :=
  ∀ schema, Position root schema → ∀ entry ∈ schema, good entry

def EntryEverywhere (good : Str × Value → Prop) (entry : Str × Value) : Prop :=
  good entry ∧ ∀ child ∈ innerSchemas entry, Everywhere good child

section Everywhere

variable {good : Str × Value → Prop}

theorem Everywhere.at_position {root schema : Schema} (all : Everywhere good root) (position : Position root schema) :
    Everywhere good schema :=
  fun deeper there => all deeper (position.trans there)

theorem everywhere_iff {root : Schema} : Everywhere good root ↔ ∀ entry ∈ root, EntryEverywhere good entry := by
  constructor
  · intro all entry holds
    exact ⟨all root .root entry holds, fun child inside => all.at_position (.inner .root holds inside)⟩
  · intro entries schema position
    have all : ∀ entry ∈ schema, EntryEverywhere good entry := by
      induction position with
      | root => exact entries
      | inner _ holds inside ih =>
        have child := (ih _ holds).2 _ inside
        exact fun entry found =>
          ⟨child _ .root entry found, fun deeper there => child.at_position (.inner .root found there)⟩
    exact fun entry holds => (all entry holds).1

theorem everywhere_nil : Everywhere good [] := everywhere_iff.2 (List.forall_mem_nil _)

theorem Everywhere.insert {schema : Schema} {key : Str} {value : Value} (all : Everywhere good schema)
    (entry : EntryEverywhere good (key, value)) : Everywhere good (schema.insert key value) := by
  rw [everywhere_iff] at *
  induction schema with
  | nil => exact List.forall_mem_singleton.2 entry
  | cons first rest ih =>
    obtain ⟨here, later⟩ := List.forall_mem_cons.1 all
    unfold Schema.insert
    split
    next => exact List.forall_mem_cons.2 ⟨entry, later⟩
    next => exact List.forall_mem_cons.2 ⟨here, ih later⟩

theorem Everywhere.extend {schema later : Schema} (all : Everywhere good schema) (added : Everywhere good later) :
    Everywhere good (schema.extend later) := by
  unfold Schema.extend
  induction later generalizing schema with
  | nil => exact all
  | cons entry rest ih =>
    obtain ⟨here, others⟩ := List.forall_mem_cons.1 (everywhere_iff.1 added)
    exact ih (all.insert here) (everywhere_iff.2 others)

theorem Everywhere.getD {branch : Option Schema} (each : ∀ schema, branch = some schema → Everywhere good schema) :
    Everywhere good (branch.getD []) := by
  cases branch with
  | none => exact everywhere_nil
  | some schema => exact each schema rfl

theorem Everywhere.merge {branches : List (Option Schema)} {result : Schema} (all : Everywhere good result)
    (each : ∀ branch, some branch ∈ branches → Everywhere good branch)
    (flattened : ∀ merged, flattenEnumBranches branches = some merged → Everywhere good merged) :
    Everywhere good (mergeBranches branches result) := by
  unfold mergeBranches
  split
  next merged flat => exact all.extend (flattened merged flat)
  next =>
    split
    next only alone =>
      have inside : only ∈ dropNullBranches branches := by rw [alone]; exact List.mem_singleton_self _
      exact all.extend (.getD fun schema same => each schema (same ▸ List.mem_of_mem_filter inside))
    next =>
      cases branches with
      | nil => exact all.extend everywhere_nil
      | cons first rest => exact all.extend (.getD fun schema same => each schema (same ▸ List.mem_cons_self))

end Everywhere

theorem normalForm_iff {root : Schema} : NormalForm root ↔ ∀ entry ∈ root, NormalEntry entry := everywhere_iff

theorem normalForm_nil : NormalForm [] := everywhere_nil

theorem NormalForm.insert {schema : Schema} {key : Str} {value : Value} (normal : NormalForm schema)
    (entry : NormalEntry (key, value)) : NormalForm (schema.insert key value) := Everywhere.insert normal entry

theorem NormalForm.extend {schema later : Schema} (normal : NormalForm schema) (added : NormalForm later) :
    NormalForm (schema.extend later) := Everywhere.extend normal added

theorem plain_enum (value : Value) : Plain ("enum".toList, value) :=
  ⟨show "enum".toList ∉ unsupported by decide +kernel,
    show "enum".toList ≠ "const".toList ∧ "enum".toList ∉ combinators by decide,
    fun both => absurd both.1 (show "enum".toList ≠ "required".toList by decide)⟩

theorem plain_type (value : Value) : Plain ("type".toList, value) :=
  ⟨show "type".toList ∉ unsupported by decide +kernel,
    show "type".toList ≠ "const".toList ∧ "type".toList ∉ combinators by decide,
    fun both => absurd both.1 (show "type".toList ≠ "required".toList by decide)⟩

theorem enum_normal (values : List Value) : NormalEntry ("enum".toList, .array values) :=
  ⟨plain_enum _, fun child inside => absurd inside (List.not_mem_nil (a := child))⟩

theorem type_normal (kind : Str) : NormalEntry ("type".toList, .string kind) :=
  ⟨plain_type _, fun child inside => absurd inside (List.not_mem_nil (a := child))⟩

theorem flattened_normal {branches : List (Option Schema)} {merged : Schema}
    (flattened : flattenEnumBranches branches = some merged) : NormalForm merged := by
  obtain ⟨collected, -, rfl⟩ := Option.map_eq_some_iff.1 flattened
  rw [normalForm_iff]
  dsimp only
  split
  next kind _ =>
    split
    next => exact List.forall_mem_cons.2 ⟨enum_normal _, List.forall_mem_singleton.2 (type_normal kind)⟩
    next => exact List.forall_mem_singleton.2 (enum_normal _)
  next => exact List.forall_mem_singleton.2 (enum_normal _)

theorem merged_normal {branches : List (Option Schema)} {result : Schema} (normal : NormalForm result)
    (each : ∀ branch, some branch ∈ branches → NormalForm branch) : NormalForm (mergeBranches branches result) :=
  Everywhere.merge normal each fun _ => flattened_normal

theorem value_normal {value : Value} {key : Str} (plain : Plain (key, value))
    (other : key ≠ "properties".toList) (held : ∀ child ∈ heldObjects value, NormalForm child) :
    NormalEntry (key, value) := by
  refine ⟨plain, fun child inside => ?_⟩
  unfold innerSchemas at inside
  rw [if_neg other] at inside
  split at inside
  next => cases inside
  next =>
    split at inside
    next =>
      refine held child ?_
      cases value with
      | object schema => exact inside
      | _ => cases inside
    next => exact held child inside

mutual

theorem sanitizeKeywords_normal (result : Schema) (normal : NormalForm result) (entries : List (Str × Value)) :
    NormalForm (sanitizeKeywords result entries) := by
  match entries with
  | [] => exact normal
  | (key, value) :: rest =>
    unfold sanitizeKeywords
    split
    next => exact sanitizeKeywords_normal result normal rest
    next supported =>
      split
      next => exact sanitizeKeywords_normal _ (normal.insert (enum_normal _)) rest
      next literal =>
        split
        next named =>
          have direct : key ≠ "const".toList ∧ key ∉ combinators := by subst named; decide
          split
          next => exact sanitizeKeywords_normal result normal rest
          next filled =>
            refine sanitizeKeywords_normal _ (normal.insert ⟨⟨supported, direct, fun both => filled both.2⟩, ?_⟩) rest
            subst named
            exact List.forall_mem_nil _
        next optional =>
          have filled : ¬ (key = "required".toList ∧ value = .array []) := fun both => optional both.1
          split
          next named =>
            have direct : key ≠ "const".toList ∧ key ∉ combinators := by subst named; decide
            subst named
            split
            next props =>
              refine sanitizeKeywords_normal _ (normal.insert ⟨⟨supported, direct, fun both => optional both.1⟩, ?_⟩) rest
              intro child inside
              obtain ⟨prop, found, held⟩ := List.mem_flatMap.1 inside
              exact sanitizeProperties_normal props prop found child held
            next other =>
              refine sanitizeKeywords_normal _ (normal.insert ⟨⟨supported, direct, filled⟩, ?_⟩) rest
              cases value with
              | object props => exact absurd rfl (other props)
              | _ => exact List.forall_mem_nil _
          next named =>
            split
            next => exact sanitizeKeywords_normal result normal rest
            next uncombined =>
              have direct : key ∉ combinators := by
                simpa only [combinators, List.mem_cons, List.not_mem_nil, or_false] using uncombined
              exact sanitizeKeywords_normal _ (normal.insert (value_normal
                ⟨supported, ⟨literal, direct⟩, fun both => optional both.1⟩ named (sanitizeValue_normal value))) rest

theorem sanitizeCombinators_normal (result : Schema) (normal : NormalForm result) (entries : List (Str × Value)) :
    NormalForm (sanitizeCombinators result entries) := by
  match entries with
  | [] => exact normal
  | (key, value) :: rest =>
    unfold sanitizeCombinators
    split
    next =>
      split
      next => exact sanitizeCombinators_normal result normal rest
      next branches _ =>
        exact sanitizeCombinators_normal _ (merged_normal normal (sanitizeBranches_normal branches)) rest
      next => exact sanitizeCombinators_normal result normal rest
    next =>
      split
      next =>
        split
        next items => exact sanitizeCombinators_normal _ (sanitizeAll_normal result normal items) rest
        next => exact sanitizeCombinators_normal result normal rest
      next => exact sanitizeCombinators_normal result normal rest

theorem sanitizeProperties_normal (props : List (Str × Value)) :
    ∀ prop ∈ sanitizeProperties props, ∀ child ∈ heldObjects prop.2, NormalForm child := by
  match props with
  | [] => exact List.forall_mem_nil _
  | (key, value) :: rest =>
    exact List.forall_mem_cons.2 ⟨sanitizeValue_normal value, sanitizeProperties_normal rest⟩

theorem sanitizeBranches_normal (items : List Value) :
    ∀ branch, some branch ∈ sanitizeBranches items → NormalForm branch := by
  match items with
  | [] => exact fun branch inside => absurd inside List.not_mem_nil
  | .object schema :: rest =>
    intro branch inside
    rw [sanitizeBranches] at inside
    rcases List.mem_cons.1 inside with here | later
    · cases here
      exact sanitizeCombinators_normal _ (sanitizeKeywords_normal [] normalForm_nil schema) schema
    · exact sanitizeBranches_normal rest branch later
  | .null :: rest | .bool _ :: rest | .number _ :: rest | .string _ :: rest | .array _ :: rest =>
    intro branch inside
    rcases List.mem_cons.1 (show some branch ∈ none :: sanitizeBranches rest from inside) with here | later
    · cases here
    · exact sanitizeBranches_normal rest branch later

theorem sanitizeAll_normal (result : Schema) (normal : NormalForm result) (items : List Value) :
    NormalForm (sanitizeAll result items) := by
  match items with
  | [] => exact normal
  | .object schema :: rest =>
    rw [sanitizeAll]
    exact sanitizeAll_normal _ (normal.extend
      (sanitizeCombinators_normal _ (sanitizeKeywords_normal [] normalForm_nil schema) schema)) rest
  | .null :: rest | .bool _ :: rest | .number _ :: rest | .string _ :: rest | .array _ :: rest =>
    exact sanitizeAll_normal result normal rest

theorem sanitizeValue_normal (value : Value) : ∀ child ∈ heldObjects (sanitizeValue value), NormalForm child := by
  match value with
  | .object schema =>
    exact List.forall_mem_singleton.2
      (sanitizeCombinators_normal _ (sanitizeKeywords_normal [] normalForm_nil schema) schema)
  | .array items => exact sanitizeItems_normal items
  | .null | .bool _ | .number _ | .string _ => exact List.forall_mem_nil _

theorem sanitizeItems_normal (items : List Value) :
    ∀ child ∈ (sanitizeItems items).filterMap asObject, NormalForm child := by
  match items with
  | [] => exact List.forall_mem_nil _
  | .object schema :: rest =>
    rw [sanitizeItems]
    exact List.forall_mem_cons.2
      ⟨sanitizeCombinators_normal _ (sanitizeKeywords_normal [] normalForm_nil schema) schema, sanitizeItems_normal rest⟩
  | .null :: rest | .bool _ :: rest | .number _ :: rest | .string _ :: rest | .array _ :: rest =>
    exact sanitizeItems_normal rest

end

namespace Schema

theorem get_cons (key : Str) (entry : Str × Value) (rest : Schema) :
    get key (entry :: rest) = if entry.1 = key then some entry.2 else get key rest := by
  unfold get
  by_cases same : entry.1 = key <;> simp [same]

theorem get_insert (key other : Str) (value : Value) (schema : Schema) :
    get other (schema.insert key value) = if key = other then some value else get other schema := by
  induction schema with
  | nil => rw [insert, get_cons]
  | cons entry rest ih =>
    unfold insert
    by_cases same : entry.1 = key
    next =>
      rw [if_pos same, get_cons, get_cons, same]
      by_cases here : key = other <;> simp [here]
    next =>
      rw [if_neg same, get_cons, ih, get_cons]
      by_cases here : key = other
      next => rw [if_neg (by rw [← here]; exact same), if_pos here, if_pos here]
      next => rw [if_neg here, if_neg here]

theorem get_none {key : Str} {schema : Schema} : get key schema = none ↔ key ∉ schema.map Prod.fst := by
  induction schema with
  | nil => simp [get]
  | cons entry rest ih =>
    rw [get_cons, List.map_cons, List.mem_cons, not_or, ← ih]
    by_cases same : entry.1 = key
    next => simp [same]
    next => simp [same, Ne.symm same]

theorem insert_unique {key : Str} {value : Value} {schema : Schema} (unique : (schema.map Prod.fst).Nodup) :
    ((schema.insert key value).map Prod.fst).Nodup := by
  induction schema with
  | nil => exact List.pairwise_singleton _ _
  | cons entry rest ih =>
    obtain ⟨fresh, others⟩ := List.nodup_cons.1 unique
    unfold insert
    split
    next same => exact List.nodup_cons.2 ⟨same ▸ fresh, others⟩
    next other =>
      refine List.nodup_cons.2 ⟨?_, ih others⟩
      rw [← get_none, get_insert, if_neg (Ne.symm other), get_none]
      exact fresh

theorem get_extend (key : Str) {schema later : Schema} (unique : (later.map Prod.fst).Nodup) :
    get key (schema.extend later) = (get key later).or (get key schema) := by
  unfold extend
  induction later generalizing schema with
  | nil => rfl
  | cons entry rest ih =>
    obtain ⟨fresh, others⟩ := List.nodup_cons.1 unique
    rw [List.foldl_cons, ih others, get_insert, get_cons]
    by_cases same : entry.1 = key
    next =>
      have absent : get key rest = none := get_none.2 (same ▸ fresh)
      rw [if_pos same, if_pos same, absent]
      rfl
    next => rw [if_neg same, if_neg same]

end Schema

/-- The map of a JSON object: each key once. -/
structure ObjectSchema where
  entries : Schema
  unique : (entries.map Prod.fst).Nodup

def Schema.Uncombined (schema : Schema) : Prop := ∀ key ∈ combinators, schema.get key = none

def parameterNames : Option Value → List Str
  | some (.object props) => props.map Prod.fst
  | _ => []

def Schema.declared (schema : Schema) : List Str := parameterNames (schema.get "properties".toList)

def sanitizedProperties : Value → Value
  | .object props => .object (sanitizeProperties props)
  | other => other

theorem sanitizeProperties_names (props : List (Str × Value)) :
    (sanitizeProperties props).map Prod.fst = props.map Prod.fst := by
  induction props with
  | nil => rfl
  | cons prop rest ih => rw [sanitizeProperties, List.map_cons, List.map_cons, ih]

theorem sanitizeKeywords_unique {result : Schema} (unique : (result.map Prod.fst).Nodup) (entries : Schema) :
    ((sanitizeKeywords result entries).map Prod.fst).Nodup := by
  induction entries generalizing result with
  | nil => exact unique
  | cons entry rest ih =>
    obtain ⟨key, value⟩ := entry
    unfold sanitizeKeywords
    repeat' split
    all_goals first | exact ih unique | exact ih (Schema.insert_unique unique)

theorem keywords_properties_cons (result : Schema) (value : Value) (rest : Schema) :
    sanitizeKeywords result (("properties".toList, value) :: rest) =
      sanitizeKeywords (result.insert "properties".toList (sanitizedProperties value)) rest := by
  cases value <;> rfl

theorem keywords_other_cons {key : Str} (other : key ≠ "properties".toList) (result : Schema) (value : Value)
    (rest : Schema) :
    ∃ next : Schema, sanitizeKeywords result ((key, value) :: rest) = sanitizeKeywords next rest ∧
      next.get "properties".toList = result.get "properties".toList := by
  have kept (key : Str) (other : key ≠ "properties".toList) (value : Value) :
      (result.insert key value).get "properties".toList = result.get "properties".toList := by
    rw [Schema.get_insert, if_neg other]
  generalize same : sanitizeKeywords result ((key, value) :: rest) = whole
  unfold sanitizeKeywords at same
  split at same
  next => exact ⟨_, same.symm, rfl⟩
  next =>
    split at same
    next => exact ⟨_, same.symm, kept _ (by decide) _⟩
    next =>
      split at same
      next =>
        split at same
        next => exact ⟨_, same.symm, rfl⟩
        next => exact ⟨_, same.symm, kept key other value⟩
      next =>
        split at same
        next => exact ⟨_, same.symm, rfl⟩
        next => exact ⟨_, same.symm, kept key other _⟩

theorem sanitizeKeywords_properties {entries : Schema} (unique : (entries.map Prod.fst).Nodup) (result : Schema) :
    (sanitizeKeywords result entries).get "properties".toList =
      ((entries.get "properties".toList).map sanitizedProperties).or (result.get "properties".toList) := by
  induction entries generalizing result with
  | nil => rfl
  | cons entry rest ih =>
    obtain ⟨key, value⟩ := entry
    obtain ⟨fresh, others⟩ := List.nodup_cons.1 unique
    rw [Schema.get_cons]
    by_cases named : key = "properties".toList
    next =>
      have absent : Schema.get "properties".toList rest = none := Schema.get_none.2 (by rw [← named]; exact fresh)
      rw [if_pos named, named, keywords_properties_cons, ih others, Schema.get_insert, if_pos rfl, absent]
      rfl
    next =>
      obtain ⟨next, continues, kept⟩ := keywords_other_cons named result value rest
      rw [if_neg named, continues, ih others, kept]

theorem combinators_uncombined {entries : Schema} (uncombined : entries.Uncombined) (result : Schema) :
    sanitizeCombinators result entries = result := by
  induction entries with
  | nil => rfl
  | cons entry rest ih =>
    obtain ⟨key, value⟩ := entry
    have absent : key ∉ combinators := by
      intro named
      have found := uncombined key named
      rw [Schema.get_cons, if_pos rfl] at found
      cases found
    have direct : ¬ (key = "anyOf".toList ∨ key = "oneOf".toList) ∧ key ≠ "allOf".toList := by
      simp only [combinators, List.mem_cons, List.not_mem_nil, or_false, not_or] at absent
      exact ⟨not_or.2 ⟨absent.1, absent.2.1⟩, absent.2.2⟩
    have others : Schema.Uncombined rest := by
      intro name listed
      have found := uncombined name listed
      rw [Schema.get_cons] at found
      split at found
      next => cases found
      next => exact found
    unfold sanitizeCombinators
    rw [if_neg direct.1, if_neg direct.2]
    exact ih others

theorem sanitizeSchema_properties {schema : ObjectSchema} (uncombined : schema.entries.Uncombined) :
    (sanitizeSchema schema.entries).get "properties".toList =
      (schema.entries.get "properties".toList).map sanitizedProperties := by
  rw [sanitizeSchema, combinators_uncombined uncombined, sanitizeKeywords_properties schema.unique]
  exact Option.or_none

theorem ensureObjectRoot_normal {schema : Schema} (normal : NormalForm schema) :
    NormalForm (ensureObjectRoot schema) := by
  have wrapped (props : List (Str × Value)) (held : ∀ prop ∈ props, ∀ child ∈ heldObjects prop.2, NormalForm child) :
      NormalForm [("type".toList, .string "object".toList), ("properties".toList, .object props)] := by
    refine normalForm_iff.2 (List.forall_mem_cons.2 ⟨type_normal _, List.forall_mem_singleton.2 ⟨?_, ?_⟩⟩)
    · exact ⟨show "properties".toList ∉ unsupported by decide +kernel,
        show "properties".toList ≠ "const".toList ∧ "properties".toList ∉ combinators by decide,
        fun both => absurd both.1 (show "properties".toList ≠ "required".toList by decide)⟩
    · intro child inside
      obtain ⟨prop, found, within⟩ := List.mem_flatMap.1 inside
      exact held prop found child within
  unfold ensureObjectRoot
  dsimp only
  split
  next => exact wrapped [] (List.forall_mem_nil _)
  next =>
    split
    next => exact normal.insert (type_normal _)
    next =>
      split
      next => exact normal
      next => exact wrapped _ (List.forall_mem_singleton.2 (List.forall_mem_singleton.2 normal))

theorem ensureObjectRoot_type (schema : Schema) :
    (ensureObjectRoot schema).get "type".toList = some (.string "object".toList) := by
  unfold ensureObjectRoot
  dsimp only
  split
  next => rfl
  next =>
    split
    next => rw [Schema.get_insert, if_pos rfl]
    next kind found =>
      split
      next named =>
        obtain ⟨value, has, text⟩ := Option.bind_eq_some_iff.1 found
        cases value with
        | string text' => cases text; rw [has, named]
        | _ => cases text
      next => rfl

theorem sanitized_normal_form (schema : ObjectSchema) :
    let result := ensureObjectRoot (sanitizeSchema schema.entries)
    result.get "type".toList = some (.string "object".toList) ∧ NormalForm result ∧
      ∀ called : ObjectSchema, called.entries.Uncombined →
        ∀ props, called.entries.get "properties".toList = some (.object props) →
          ∃ kept, (sanitizeSchema called.entries).get "properties".toList = some (.object kept) ∧
            kept.map Prod.fst = props.map Prod.fst := by
  refine ⟨ensureObjectRoot_type _, ensureObjectRoot_normal ?_, ?_⟩
  · exact sanitizeCombinators_normal _ (sanitizeKeywords_normal [] normalForm_nil _) _
  · intro called uncombined props found
    refine ⟨sanitizeProperties props, ?_, sanitizeProperties_names props⟩
    rw [sanitizeSchema_properties uncombined, found]
    rfl

def plainParameters (names : List String) : Value :=
  .object (names.map fun name => (name.toList, .object [("type".toList, .string "string".toList)]))

theorem sanitized_normal_form_sample :
    ∃ kept, (sanitizeSchema [("$schema".toList, .null), ("properties".toList, plainParameters ["format", "const"])]).get
        "properties".toList = some (.object kept) ∧ kept.map Prod.fst = ["format".toList, "const".toList] :=
  (sanitized_normal_form ⟨[], List.nodup_nil⟩).2.2
    ⟨[("$schema".toList, .null), ("properties".toList, plainParameters ["format", "const"])], by decide⟩
    (by intro key listed; revert key; decide) _ rfl

/-! Merging `allOf` -/

/-- What the last `properties` keyword of the schemas declares. -/
def lastDeclared (schemas : List ObjectSchema) : List Str :=
  parameterNames (schemas.reverse.findSome? fun schema => schema.entries.get "properties".toList)

theorem sanitizeSchema_unique {schema : ObjectSchema} (uncombined : schema.entries.Uncombined) :
    ((sanitizeSchema schema.entries).map Prod.fst).Nodup := by
  rw [sanitizeSchema, combinators_uncombined uncombined]
  exact sanitizeKeywords_unique (show (([] : Schema).map Prod.fst).Nodup from List.nodup_nil) _

theorem sanitizeAll_properties {branches : List ObjectSchema}
    (flat : ∀ branch ∈ branches, branch.entries.Uncombined) (result : Schema) :
    (sanitizeAll result (branches.map fun branch => .object branch.entries)).get "properties".toList =
      ((branches.reverse.findSome? fun branch => branch.entries.get "properties".toList).map
        sanitizedProperties).or (result.get "properties".toList) := by
  induction branches generalizing result with
  | nil => rfl
  | cons branch rest ih =>
    obtain ⟨here, later⟩ := List.forall_mem_cons.1 flat
    have step : sanitizeAll result ((branch :: rest).map fun branch => .object branch.entries) =
        sanitizeAll (result.extend (sanitizeSchema branch.entries)) (rest.map fun branch => .object branch.entries) := rfl
    rw [step, ih later, Schema.get_extend _ (sanitizeSchema_unique here), sanitizeSchema_properties here,
      List.reverse_cons, List.findSome?_append]
    cases rest.reverse.findSome? fun branch => branch.entries.get "properties".toList <;> simp

theorem combinators_all {entries : Schema} {items : List Value} (unique : (entries.map Prod.fst).Nodup)
    (noAny : entries.get "anyOf".toList = none) (noOne : entries.get "oneOf".toList = none)
    (all : entries.get "allOf".toList = some (.array items)) (result : Schema) :
    sanitizeCombinators result entries = sanitizeAll result items := by
  induction entries with
  | nil => cases all
  | cons entry rest ih =>
    obtain ⟨key, value⟩ := entry
    obtain ⟨fresh, others⟩ := List.nodup_cons.1 unique
    rw [Schema.get_cons] at noAny noOne all
    split at noAny
    next => cases noAny
    next notAny =>
      split at noOne
      next => cases noOne
      next notOne =>
        unfold sanitizeCombinators
        rw [if_neg (not_or.2 ⟨notAny, notOne⟩)]
        split at all
        next named =>
          cases all
          have absent : Schema.get "allOf".toList rest = none := Schema.get_none.2 (named ▸ fresh)
          have rest : Schema.Uncombined rest := by
            intro name listed
            simp only [combinators, List.mem_cons, List.not_mem_nil, or_false] at listed
            rcases listed with rfl | rfl | rfl
            · exact noAny
            · exact noOne
            · exact absent
          rw [if_pos named]
          exact combinators_uncombined rest _
        next other =>
          rw [if_neg other]
          exact ih others noAny noOne all

theorem parameterNames_sanitized (source : Option Value) :
    parameterNames (source.map sanitizedProperties) = parameterNames source := by
  cases source with
  | none => rfl
  | some value =>
    cases value with
    | object props => exact sanitizeProperties_names props
    | _ => rfl

theorem allOf_declared {schema : ObjectSchema} {branches : List ObjectSchema}
    (noAny : schema.entries.get "anyOf".toList = none) (noOne : schema.entries.get "oneOf".toList = none)
    (all : schema.entries.get "allOf".toList = some (.array (branches.map fun branch => .object branch.entries)))
    (flat : ∀ branch ∈ branches, branch.entries.Uncombined) :
    (sanitizeSchema schema.entries).declared = lastDeclared (schema :: branches) := by
  unfold lastDeclared Schema.declared
  refine Eq.trans ?_ (parameterNames_sanitized _)
  rw [sanitizeSchema, combinators_all schema.unique noAny noOne all, sanitizeAll_properties flat,
    sanitizeKeywords_properties schema.unique, List.reverse_cons, List.findSome?_append, List.findSome?_singleton]
  -- Either a branch has the keyword or the schema itself is the last that may.
  cases branches.reverse.findSome? fun branch => branch.entries.get "properties".toList with
  | none =>
    have start : Schema.get "properties".toList [] = none := rfl
    rw [start, Option.or_none]
    rfl
  | some value => rfl

theorem allOf_declares_iff (schema : ObjectSchema) (branches : List ObjectSchema)
    (noAny : schema.entries.get "anyOf".toList = none) (noOne : schema.entries.get "oneOf".toList = none)
    (all : schema.entries.get "allOf".toList = some (.array (branches.map fun branch => .object branch.entries)))
    (flat : ∀ branch ∈ branches, branch.entries.Uncombined) :
    (∀ part ∈ schema :: branches, ∀ name ∈ part.entries.declared, name ∈ (sanitizeSchema schema.entries).declared) ↔
      ∀ part ∈ schema :: branches, ∀ name ∈ part.entries.declared, name ∈ lastDeclared (schema :: branches) := by
  rw [allOf_declared noAny noOne all flat]

def sampleBranches : List ObjectSchema :=
  [⟨[("properties".toList, plainParameters ["path"])], by decide⟩,
    ⟨[("required".toList, .array [.string "path".toList])], by decide⟩]

def sampleAllOf : ObjectSchema :=
  ⟨[("allOf".toList, .array (sampleBranches.map fun branch => .object branch.entries))], by decide⟩

theorem allOf_declares_sample : "path".toList ∈ (sanitizeSchema sampleAllOf.entries).declared :=
  (allOf_declares_iff sampleAllOf sampleBranches rfl rfl rfl (by unfold Schema.Uncombined; decide)).2 (by decide) _
    (List.mem_cons_of_mem _ List.mem_cons_self) "path".toList (by decide)

def overlappingBranches : List ObjectSchema := [⟨[("properties".toList, plainParameters ["mode"])], by decide⟩]

def overlapping : ObjectSchema :=
  ⟨[("properties".toList, plainParameters ["path"]),
      ("allOf".toList, .array (overlappingBranches.map fun branch => .object branch.entries))], by decide⟩

theorem allOf_loses_parameters :
    ¬ ∀ (schema : ObjectSchema) (branches : List ObjectSchema),
        schema.entries.get "anyOf".toList = none → schema.entries.get "oneOf".toList = none →
        schema.entries.get "allOf".toList = some (.array (branches.map fun branch => .object branch.entries)) →
        (∀ branch ∈ branches, branch.entries.Uncombined) →
        ∀ part ∈ schema :: branches, ∀ name ∈ part.entries.declared,
          name ∈ (sanitizeSchema schema.entries).declared := by
  intro keeps
  have kept := keeps overlapping overlappingBranches rfl rfl rfl (by unfold Schema.Uncombined; decide) overlapping
    List.mem_cons_self "path".toList (by decide)
  exact absurd kept (by decide)

end KiroTrust.Translate
