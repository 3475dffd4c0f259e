import MercuryTools.Execution.ActionPath
import MercuryTools.Framework.JsonLocations
import MercuryTools.Mcp.PublicOutput

/-!
# Wire schemas

The checks of a wire model in `providers/streamable_mcp.py`: its schema is closed
(`_assert_closed_wire_schema`), and every reference in it leads to a closed schema of the same
document, without coming back to where it started (`_assert_closed_local_ref_targets`).

A schema of the document is identified by its location in it.  Every recursion counts down from the
depth of the interpreter's stack; the validator of `jsonschema`, what pydantic does with a model and
the digest are parameters.
-/

namespace MercuryTools.Providers

open Checks
open Mcp (Schema Validator forbidsOthers namesObject recursionError unescapeSegment)

namespace WireSchema

def schemaModelInvalid : String := "provider_schema_model_invalid"

/-! ## Keywords -/

/-- `_SCHEMA_MAP_KEYWORDS` -/
def schemaMapKeywords : List String :=
  ["$defs", "definitions", "dependentSchemas", "patternProperties", "properties"]

/-- `_SCHEMA_SINGLE_KEYWORDS` -/
def schemaSingleKeywords : List String :=
  ["contains", "contentSchema", "else", "if", "items", "not", "propertyNames", "then",
    "unevaluatedItems"]

/-- `_SCHEMA_LIST_KEYWORDS` -/
def schemaListKeywords : List String :=
  ["allOf", "anyOf", "oneOf", "prefixItems"]

/-- `_SCHEMA_OBJECT_KEYWORDS` -/
def schemaObjectKeywords : List String :=
  ["additionalProperties", "dependencies", "dependentRequired", "dependentSchemas", "maxProperties",
    "minProperties", "patternProperties", "properties", "propertyNames", "required",
    "unevaluatedProperties"]

/-- `_WIRE_SCHEMA_DIALECT` -/
def wireSchemaDialect : String := "https://json-schema.org/draft/2020-12/schema"

/-- `_SUPPORTED_WIRE_FORMATS` -/
def supportedWireFormats : List String :=
  ["date", "date-time", "duration", "email", "hostname", "idn-email", "idn-hostname", "ipv4",
    "ipv6", "iri", "iri-reference", "json-pointer", "regex", "relative-json-pointer", "time", "uri",
    "uri-reference", "uri-template", "uuid"]

/-- `_assert_wire_schema_dialect` -/
def hasWireSchemaDialect (value : Json) : Bool :=
  value.all fun part =>
    match part.get? "$schema" with
    | some dialect => dialect == .str wireSchemaDialect
    | none => true

/-! ## References -/

def isHexDigit (c : Char) : Bool :=
  ('0' ≤ c && c ≤ '9') || ('a' ≤ c && c ≤ 'f') || ('A' ≤ c && c ≤ 'F')

/-- `_INVALID_URI_PERCENT_ESCAPE` is found nowhere. -/
def percentEscapesAreValid : List Char → Bool
  | [] => true
  | '%' :: rest => (rest.take 2).length = 2 && (rest.take 2).all isHexDigit &&
      percentEscapesAreValid rest
  | _ :: rest => percentEscapesAreValid rest

/-- `_INVALID_JSON_POINTER_ESCAPE` is found nowhere. -/
def pointerEscapesAreValid : List Char → Bool
  | [] => true
  | '~' :: rest => (rest.head?.any fun c => c = '0' || c = '1') && pointerEscapesAreValid rest
  | _ :: rest => pointerEscapesAreValid rest

/-- `unquote_to_bytes`, of a text that is not ASCII alone. -/
def unquoteToBytes (text : List Char) : List UInt8 :=
  Execution.unquoteToBytes
    ((text.flatMap String.utf8EncodeChar).map fun byte => Char.ofNat byte.toNat)

/-- One token of a pointer, without its escapes. -/
def decodeToken (token : List Char) : Except String String := do
  require (pointerEscapesAreValid token) schemaModelInvalid
  return unescapeSegment token

/-- `_decode_local_json_pointer` -/
def decodeLocalJsonPointer : Json → Except String (List String)
  | .str reference =>
      match reference.toList with
      | '#' :: fragment => do
          require (percentEscapesAreValid fragment) schemaModelInvalid
          match String.fromUTF8? ⟨(unquoteToBytes fragment).toArray⟩ with
          | none => throw schemaModelInvalid
          | some pointer =>
              match pointer.toList with
              | [] => return []
              | '/' :: tokens => (tokens.splitOn '/').mapM decodeToken
              | _ => throw schemaModelInvalid
      | _ => .error schemaModelInvalid
  | _ => .error schemaModelInvalid

/-- `_JSON_POINTER_ARRAY_INDEX` -/
def isArrayIndex (token : String) : Bool :=
  token == "0" ||
    match token.toList with
    | c :: cs => ('1' ≤ c && c ≤ '9') && cs.all fun d => '0' ≤ d && d ≤ '9'
    | [] => false

/-- The step that a token takes from a value. -/
def pointerStep (token : String) : Json → Except String Json.Step
  | .obj fields =>
      if (Dict.get fields token).isSome then .ok (.key token) else .error schemaModelInvalid
  | .arr items => do
      require (isArrayIndex token) schemaModelInvalid
      let index ← (Drivers.readInt token).mapError fun _ => schemaModelInvalid
      if index < items.length then return .index index else throw schemaModelInvalid
  | _ => .error schemaModelInvalid

/-- The location that the tokens lead to, from a value. -/
def followTokens : List String → Json → Except String Json.Location
  | [], _ => .ok []
  | token :: tokens, value => do
      let step ← pointerStep token value
      match value.child? step with
      | some child => (step :: ·) <$> followTokens tokens child
      | none => throw schemaModelInvalid

/-- The schema at a location. -/
def schemaAt (document : Json) (location : Json.Location) : Except String Schema :=
  match document.at? location with
  | some (.obj schema) => .ok schema
  | _ => .error schemaModelInvalid

/-- `_resolve_local_schema_ref`: the location of the target, which is a schema. -/
def resolveLocalSchemaRef (rootSchema : Json) (reference : Json) : Except String Json.Location := do
  let tokens ← decodeLocalJsonPointer reference
  let location ← followTokens tokens rootSchema
  let _ ← schemaAt rootSchema location
  return location

/-! ## Subschemas -/

/-- The subschemas under one keyword, as locations in the schema. -/
def keywordChildren (keyword : String) (value : Json) : Except String (List Json.Location) :=
  if keyword ∈ schemaMapKeywords then
    match value with
    | .obj fields =>
        if fields.all fun field => field.2.isObj then
          .ok (fields.map fun field => [.key keyword, .key field.1])
        else .error schemaModelInvalid
    | _ => .error schemaModelInvalid
  else if keyword ∈ schemaSingleKeywords then
    if value.isObj then .ok [[.key keyword]] else .error schemaModelInvalid
  else if keyword ∈ schemaListKeywords then
    match value with
    | .arr items =>
        if !items.isEmpty && items.all Json.isObj then
          .ok ((List.range items.length).map fun i => [.key keyword, .index i])
        else .error schemaModelInvalid
    | _ => .error schemaModelInvalid
  else .ok []

/-- `_wire_schema_children` -/
def wireSchemaChildren (schema : Schema) : Except String (List Json.Location) :=
  List.flatten <$> schema.mapM fun entry => keywordChildren entry.1 entry.2

/-! ## Closed schemas -/

/-- `bool(value)` -/
def isTruthy : Json → Bool
  | .null => false
  | .bool value => value
  | .int n => n != 0
  | .float text => text != "0.0" && text != "-0.0"
  | .str text => text != ""
  | .arr items => !items.isEmpty
  | .obj fields => !fields.isEmpty

/-- The format, where there is one, is supported and `FormatChecker` knows it. -/
def formatIsSupported (formatCheckers : List String) (schema : Schema) : Bool :=
  match schema.get "format" with
  | none | some .null => true
  | some (.str name) => decide (name ∈ supportedWireFormats) && decide (name ∈ formatCheckers)
  | some _ => false

/-- `object_schema`, in `_assert_closed_wire_schema` -/
def isObjectSchema (schema : Schema) : Bool :=
  namesObject (schema.get "type") ||
    (schemaObjectKeywords.any fun key => (schema.get key).isSome) ||
    ((schema.get "type").all (· == .null) && (schema.get "$ref").isNone &&
      !schemaListKeywords.any fun key => (schema.get key).isSome)

/-- An object schema has the properties that it names only. -/
def closesObjects (schema : Schema) : Except String Bool :=
  if isObjectSchema schema then
    return (← forbidsOthers schema) && !(schema.get "patternProperties").any isTruthy
  else return true

/-- What `_assert_closed_wire_schema` requires of one schema. -/
def checkNode (formatCheckers : List String) (schema : Schema) : Except String Unit := do
  require (!schema.isEmpty) schemaModelInvalid
  require (formatIsSupported formatCheckers schema) schemaModelInvalid
  require (← closesObjects schema) schemaModelInvalid

/-- `_assert_closed_wire_schema` -/
def assertClosedWireSchema (formatCheckers : List String) : ℕ → Schema → Except String Unit
  | 0, _ => .error recursionError
  | depth + 1, schema => do
      checkNode formatCheckers schema
      (← wireSchemaChildren schema).forM fun location => do
        assertClosedWireSchema formatCheckers depth (← schemaAt (.obj schema) location)

/-! ## The targets of references -/

/-- Where the reference of a schema leads, if it has one; the target is closed. -/
def referenceTargets (formatCheckers : List String) (rootSchema : Json) (depth : ℕ)
    (schema : Schema) : Except String (List Json.Location) :=
  match schema.get "$ref" with
  | none => .ok []
  | some reference => do
      let target ← resolveLocalSchemaRef rootSchema reference
      assertClosedWireSchema formatCheckers depth (← schemaAt rootSchema target)
      return [target]

/-- `visit`, in `_assert_closed_local_ref_targets`: the schemas that are being visited, and those
that have been. -/
def visit (formatCheckers : List String) (rootSchema : Json) :
    ℕ → List Json.Location → List Json.Location → Json.Location →
      Except String (List Json.Location)
  | 0, _, _, _ => .error recursionError
  | depth + 1, active, checked, location => do
      let schema ← schemaAt rootSchema location
      require (location.isEmpty || (schema.get "$id").isNone) schemaModelInvalid
      if location ∈ checked then return checked
      require (!active.contains location) schemaModelInvalid
      let walk := visit formatCheckers rootSchema depth (location :: active)
      let targets ← referenceTargets formatCheckers rootSchema depth schema
      let checked ← targets.foldlM walk checked
      let children ← wireSchemaChildren schema
      let checked ← (children.map (location ++ ·)).foldlM walk checked
      return location :: checked

/-- `_assert_closed_local_ref_targets` -/
def assertClosedLocalRefTargets (formatCheckers : List String) (depth : ℕ) (rootSchema : Json) :
    Except String Unit := do
  let _ ← visit formatCheckers rootSchema depth [] [] []
  return ()

end WireSchema

end MercuryTools.Providers
