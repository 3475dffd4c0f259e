import MercuryTools.Framework.Checks
import MercuryTools.Framework.Json
import MercuryTools.Framework.Numerals
import MercuryTools.Framework.ThreeValued

/-!
# The two checks of a create schema

`mercury_create_schema_is_closed` of the operations migration, over `jsonb` values that may be
`NULL` (`none`), and `_require_closed_object_schemas` of `execution/hosted/preview_service.py`.
Both walk a JSON schema along its `properties` and `items`.
-/

namespace MercuryTools
namespace Hosted

open Checks

/-! ## The operators of `jsonb` -/

/-- How `jsonb` prints the values that are not strings: a number with a fraction or an exponent,
an array and an object. -/
structure JsonbText where
  number : String → String
  items : List Json → String
  fields : List (String × Json) → String
  number_plain : ∀ text, (number text).toList.all (fun c => c.isDigit || c == '-' || c == '.') = true
  items_bracket : ∀ xs, (items xs).toList.head? = some '['
  fields_brace : ∀ xs, (fields xs).toList.head? = some '\x7b'

namespace Jsonb

/-- The text of a value, `value #>> '\x7b\x7d'`. -/
def text (t : JsonbText) : Json → Option String
  | .null => none
  | .bool value => some (if value then "true" else "false")
  | .int value => some (toString value)
  | .float value => some (t.number value)
  | .str value => some value
  | .arr items => some (t.items items)
  | .obj fields => some (t.fields fields)

/-- `jsonb_typeof`. -/
def typeof (value : Option Json) : Option String :=
  value.map fun
    | .null => "null"
    | .bool _ => "boolean"
    | .int _ | .float _ => "number"
    | .str _ => "string"
    | .arr _ => "array"
    | .obj _ => "object"

/-- `value -> key`. -/
def get (value : Option Json) (key : String) : Option Json :=
  value.bind (·.get? key)

/-- `value ->> key`. -/
def getText (t : JsonbText) (value : Option Json) (key : String) : Option String :=
  (get value key).bind (text t)

/-- `value ? key`. -/
def exists? : Option Json → Option String → Truth
  | some (.obj fields), some key => some (fields.any (·.1 == key))
  | some (.arr items), some key => some (items.any (· == .str key))
  | some (.str value), some key => some (value == key)
  | some _, some _ => some false
  | _, _ => none

/-- `jsonb_array_length`, which raises where the value is not an array. -/
def arrayLength : Option Json → Option Nat
  | some (.arr items) => some items.length
  | _ => none

/-- `jsonb_array_elements_text`. -/
def elementsText (t : JsonbText) : Option Json → List (Option String)
  | some (.arr items) => items.map (text t)
  | _ => []

/-- The values of `jsonb_each`. -/
def each : Option Json → List Json
  | some (.obj fields) => fields.map (·.2)
  | _ => []

end Jsonb

/-! ## Sizes -/

variable {fields : List (String × Json)} {key : String} {value child : Json}

lemma sizeOf_lookup (h : fields.lookup key = some value) : sizeOf value < sizeOf fields := by
  induction fields with
  | nil => simp at h
  | cons field fields ih =>
      obtain ⟨k, v⟩ := field
      rw [List.lookup_cons] at h
      split at h
      · obtain rfl := Option.some.inj h
        simp only [List.cons.sizeOf_spec, Prod.mk.sizeOf_spec]
        omega
      · have := ih h
        simp only [List.cons.sizeOf_spec]
        omega

lemma sizeOf_get? (h : value.get? key = some child) : sizeOf child < sizeOf value := by
  cases value with
  | obj fields =>
      have := sizeOf_lookup h
      simp only [Json.obj.sizeOf_spec]
      omega
  | _ => simp [Json.get?] at h

lemma sizeOf_field (h : child ∈ fields.map (·.2)) : sizeOf child < sizeOf (Json.obj fields) := by
  obtain ⟨⟨key, value⟩, hmem, rfl⟩ := List.mem_map.1 h
  have hlt := List.sizeOf_lt_of_mem hmem
  simp only [Prod.mk.sizeOf_spec, Json.obj.sizeOf_spec] at hlt ⊢
  omega

/-- The size of what a call is made on, `NULL` being the smallest. -/
noncomputable def jsonbSize : Option Json → Nat
  | none => 0
  | some value => sizeOf value + 1

lemma jsonbSize_each {value : Option Json} (h : child ∈ Jsonb.each (Jsonb.get value key)) :
    jsonbSize (some child) < jsonbSize value := by
  cases value with
  | none => simp [Jsonb.get, Jsonb.each] at h
  | some value =>
      cases hget : value.get? key with
      | none => simp [Jsonb.get, Jsonb.each, hget] at h
      | some properties =>
          have hsize := sizeOf_get? hget
          cases properties with
          | obj fields =>
              simp only [Jsonb.get, Option.bind_some, hget] at h
              have := sizeOf_field h
              simp only [jsonbSize]
              omega
          | _ => simp [Jsonb.get, Jsonb.each, hget] at h

lemma jsonbSize_get {value : Option Json} (h : value ≠ none) (key : String) :
    jsonbSize (Jsonb.get value key) < jsonbSize value := by
  cases value with
  | none => exact absurd rfl h
  | some value =>
      cases hget : value.get? key with
      | none => simp [Jsonb.get, hget, jsonbSize]
      | some child =>
          have := sizeOf_get? hget
          simp only [Jsonb.get, Option.bind_some, hget, jsonbSize]
          omega

/-! ## The database function -/

def combinators : List String :=
  ["$ref", "allOf", "anyOf", "oneOf", "not", "if", "then", "else"]

/-- `_CONSTRAINED_INTEGER_KEYWORDS`, which the database function names one by one. -/
def constrainedIntegerKeywords : List String :=
  ["minLength", "maxLength", "minItems", "maxItems", "minContains", "maxContains",
    "minProperties", "maxProperties"]

def maxSchemaConstrainedInteger : Nat := 2147483647

section

variable (t : JsonbText)

open Jsonb

/-- `mercury_schema_count_keyword_is_valid`. -/
def schemaCountKeywordIsValid (value : Option Json) (keyword : String) : Truth :=
  if (Truth.ne (typeof value) (some "object")).isTrue then some false
  else if (exists? value (some keyword)).not.isTrue then some true
  else if (Truth.ne (typeof (get value keyword)) (some "number")).isTrue then some false
  else
    let candidate := (getText t value keyword).map String.toList
    if (Truth.not (candidate.map (Numerals.isNumeral 10))).isTrue then some false
    else candidate.map fun digits => decide (Numerals.value digits ≤ maxSchemaConstrainedInteger)

/-- `mercury_create_schema_is_closed`.  A call on `NULL` is made where an array schema has no
items. -/
def createSchemaIsClosed (value : Option Json) (isRoot : Bool) : Truth :=
  if (Truth.orAll ([Truth.ne (typeof value) (some "object"), Truth.eq value (some (.obj []))] ++
      combinators.map fun key => exists? value (some key))).isTrue then some false
  else if (Truth.orAll (constrainedIntegerKeywords.map fun keyword =>
      (schemaCountKeywordIsValid t value keyword).not)).isTrue then some false
  else if (Truth.or (some (getText t value "type").isNone)
      (Truth.and (some isRoot) (Truth.ne (getText t value "type") (some "object")))).isTrue then
    some false
  else if (Truth.eq (getText t value "type") (some "object")).isTrue then
    let properties := Jsonb.get value "properties"
    let requiredKeys := Jsonb.get value "required"
    if (Truth.orAll [
        Truth.ne (typeof properties) (some "object"),
        Truth.eq properties (some (.obj [])),
        Truth.ne (typeof requiredKeys) (some "array"),
        Truth.eq (arrayLength requiredKeys) (some 0),
        Truth.ne (Jsonb.get value "additionalProperties") (some (.bool false)),
        Truth.and (exists? value (some "unevaluatedProperties"))
          (Truth.ne (Jsonb.get value "unevaluatedProperties") (some (.bool false))),
        exists? value (some "patternProperties")]).isTrue then some false
    else if (elementsText t requiredKeys).any fun key => (exists? properties key).not.isTrue then
      some false
    else if (each properties).attach.any fun child =>
        (createSchemaIsClosed (some child.1) false).not.isTrue then some false
    else some true
  else if _harray : (Truth.eq (getText t value "type") (some "array")).isTrue then
    let child := Jsonb.get value "items"
    if (Truth.orAll [
        Truth.ne (typeof child) (some "object"),
        Truth.eq child (some (.obj [])),
        (exists? value (some "maxItems")).not,
        Truth.eq (getText t value "maxItems") (some "0")]).isTrue then some false
    else createSchemaIsClosed child false
  else Truth.isIn (getText t value "type") ["string", "integer", "boolean", "null"]
termination_by jsonbSize value
decreasing_by
  · exact jsonbSize_each child.2
  · apply jsonbSize_get
    rintro rfl
    simp [getText, Jsonb.get, Truth.eq] at _harray

end

/-! ## The service's check -/

/-- `isinstance(value, int)`, not a `bool`, and within the bounds of a count. -/
def isCount : Json → Bool
  | .int value => 0 ≤ value && value ≤ maxSchemaConstrainedInteger
  | _ => false

/-- `isinstance(name, str) and name in properties`. -/
def isDeclared (properties : List (String × Json)) : Json → Bool
  | .str name => name ∈ properties.map (·.1)
  | _ => false

/-- `_require_closed_object_schemas`. -/
def requireClosedObjectSchemas (value : Json) (root : Bool) : Except String Unit := do
  let code := "capability_unavailable"
  require (value.isObj && value.keys != []) code
  require (!combinators.any (· ∈ value.keys)) code
  require (constrainedIntegerKeywords.all fun keyword => (value.get? keyword).all isCount) code
  match value.get? "type" with
  | some (.str schemaType) => do
      require (!(root && schemaType != "object")) code
      if schemaType = "object" then
        match _hproperties : value.get? "properties", value.get? "required" with
        | some (.obj properties), some (.arr required) => do
            require (properties != [] && required != []) code
            require (required.all (isDeclared properties)) code
            require (value.get? "additionalProperties" == some (.bool false) &&
              value.getD "unevaluatedProperties" (.bool false) == .bool false &&
              !(value.get? "patternProperties").isSome) code
            (properties.map (·.2)).attach.forM fun child =>
              requireClosedObjectSchemas child.1 false
        | _, _ => .error code
      else if schemaType = "array" then
        match _hitems : value.get? "items", value.get? "maxItems" with
        | some (.obj items), some (.int maxItems) => do
            require (items != [] && 1 ≤ maxItems) code
            requireClosedObjectSchemas (.obj items) false
        | _, _ => .error code
      else require (schemaType ∈ ["string", "integer", "boolean", "null"]) code
  | _ => .error code
termination_by sizeOf value
decreasing_by
  · exact Nat.lt_trans (sizeOf_field child.2) (sizeOf_get? _hproperties)
  · exact sizeOf_get? _hitems

end Hosted
end MercuryTools
