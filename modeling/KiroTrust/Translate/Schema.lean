import KiroTrust.Protocol.Json

set_option autoImplicit false

namespace KiroTrust.Translate

/-! `schema.rs`: the schemas of tools, in the form Kiro accepts. -/

/-- A `serde_json::Map`, which keeps the order of insertion. -/
abbrev Schema := List (Str × Value)

namespace Schema

def get (key : Str) (schema : Schema) : Option Value := (schema.find? fun entry => entry.1 = key).map Prod.snd

def insert (key : Str) (value : Value) : Schema → Schema
  | [] => [(key, value)]
  | entry :: rest => if entry.1 = key then (key, value) :: rest else entry :: insert key value rest

def extend (schema later : Schema) : Schema := later.foldl (fun schema entry => schema.insert entry.1 entry.2) schema

end Schema

def unsupported : List Str :=
  ["additionalProperties".toList, "$schema".toList, "propertyNames".toList, "default".toList,
    "exclusiveMinimum".toList, "exclusiveMaximum".toList, "$defs".toList, "$ref".toList,
    "patternProperties".toList, "if".toList, "then".toList, "else".toList, "dependentRequired".toList,
    "dependentSchemas".toList, "prefixItems".toList, "unevaluatedProperties".toList,
    "unevaluatedItems".toList, "contentMediaType".toList, "contentEncoding".toList, "format".toList,
    "pattern".toList, "minLength".toList, "maxLength".toList, "minimum".toList, "maximum".toList,
    "minItems".toList, "maxItems".toList, "uniqueItems".toList, "multipleOf".toList, "not".toList]

def isNullBranch : Option Schema → Bool
  | some branch =>
    match branch.get "type".toList with
    | some (.string kind) => kind = "null".toList
    | _ => false
  | none => false

def dropNullBranches (branches : List (Option Schema)) : List (Option Schema) :=
  branches.filter fun branch => !isNullBranch branch

structure EnumBranches where
  all : List Value
  typ : Option Str
  consistent : Bool

def addEnumBranch (collected : EnumBranches) : Option Schema → Option EnumBranches
  | none => none
  | some branch =>
    match branch.get "enum".toList with
    | some (.array values) =>
      let collected := { collected with all := collected.all ++ values }
      match (branch.get "type".toList).bind Value.asStr with
      | some kind =>
        match collected.typ with
        | none => some { collected with typ := some kind }
        | some previous =>
          if previous ≠ kind then some { collected with consistent := false } else some collected
      | none => some { collected with consistent := false }
    | _ => none

def flattenEnumBranches (branches : List (Option Schema)) : Option Schema :=
  (branches.foldlM addEnumBranch ⟨[], none, true⟩).map fun collected =>
    let merged := [("enum".toList, Value.array collected.all)]
    match collected.typ with
    | some kind => if collected.consistent then merged ++ [("type".toList, .string kind)] else merged
    | none => merged

/-- What an `anyOf` or `oneOf` puts over the result. -/
def mergeBranches (branches : List (Option Schema)) (result : Schema) : Schema :=
  match flattenEnumBranches branches with
  | some merged => result.extend merged
  | none =>
    match dropNullBranches branches with
    | [only] => result.extend (only.getD [])
    | _ => result.extend ((branches.head?.bind fun first => first).getD [])

mutual

/-- The first loop of `sanitize_schema`. -/
def sanitizeKeywords (result : Schema) : List (Str × Value) → Schema
  | [] => result
  | (key, value) :: rest =>
    if key ∈ unsupported then sanitizeKeywords result rest
    else if key = "const".toList then sanitizeKeywords (result.insert "enum".toList (.array [value])) rest
    else if key = "required".toList then
      match value with
      | .array [] => sanitizeKeywords result rest
      | _ => sanitizeKeywords (result.insert key value) rest
    else if key = "properties".toList then
      -- The keys are parameter names, not keywords.
      match value with
      | .object props => sanitizeKeywords (result.insert key (.object (sanitizeProperties props))) rest
      | _ => sanitizeKeywords (result.insert key value) rest
    else if key = "anyOf".toList ∨ key = "oneOf".toList ∨ key = "allOf".toList then sanitizeKeywords result rest
    else sanitizeKeywords (result.insert key (sanitizeValue value)) rest

def sanitizeCombinators (result : Schema) : List (Str × Value) → Schema
  | [] => result
  | (key, value) :: rest =>
    if key = "anyOf".toList ∨ key = "oneOf".toList then
      match value with
      | .array [] => sanitizeCombinators result rest
      | .array branches => sanitizeCombinators (mergeBranches (sanitizeBranches branches) result) rest
      | _ => sanitizeCombinators result rest
    else if key = "allOf".toList then
      match value with
      | .array items => sanitizeCombinators (sanitizeAll result items) rest
      | _ => sanitizeCombinators result rest
    else sanitizeCombinators result rest

def sanitizeProperties : List (Str × Value) → List (Str × Value)
  | [] => []
  | (key, value) :: rest => (key, sanitizeValue value) :: sanitizeProperties rest

def sanitizeBranches : List Value → List (Option Schema)
  | [] => []
  | .object branch :: rest =>
    some (sanitizeCombinators (sanitizeKeywords [] branch) branch) :: sanitizeBranches rest
  | _ :: rest => none :: sanitizeBranches rest

def sanitizeAll (result : Schema) : List Value → Schema
  | [] => result
  | .object item :: rest =>
    sanitizeAll (result.extend (sanitizeCombinators (sanitizeKeywords [] item) item)) rest
  | _ :: rest => sanitizeAll result rest

def sanitizeValue : Value → Value
  | .object schema => .object (sanitizeCombinators (sanitizeKeywords [] schema) schema)
  | .array items => .array (sanitizeItems items)
  | other => other

def sanitizeItems : List Value → List Value
  | [] => []
  | .object item :: rest =>
    .object (sanitizeCombinators (sanitizeKeywords [] item) item) :: sanitizeItems rest
  | other :: rest => other :: sanitizeItems rest

end

def sanitizeSchema (schema : Schema) : Schema := sanitizeCombinators (sanitizeKeywords [] schema) schema

/-- Kiro rejects a tool whose root type is not `object`. -/
def ensureObjectRoot (schema : Schema) : Schema :=
  let object := ("type".toList, Value.string "object".toList)
  if schema.isEmpty then [object, ("properties".toList, .object [])]
  else
    match (schema.get "type".toList).bind Value.asStr with
    | none => schema.insert object.1 object.2
    | some kind =>
      if kind = "object".toList then schema
      else [object, ("properties".toList, .object [("input".toList, .object schema)])]

end KiroTrust.Translate
