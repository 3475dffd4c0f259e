import Mathlib.Data.Finset.Insert
import MercuryTools.Catalog.CanonicalJson
import MercuryTools.Drivers.ResponseRedaction
import MercuryTools.Framework.Dictionaries
import MercuryTools.Framework.JsonReader

/-!
# The public part of a provider's output

`public_output_schema` and `project_provider_read_data` of `mcp/generated_tools.py`.  A reviewed
output schema and a list of public field paths give the schema of what a generated tool returns,
and project a raw value to it.  The schema of the tool comes from one recursion over the reviewed
schema, the projected value from another, and both follow references, branches and conditions.

Every recursion counts down from the depth of the interpreter's stack.  The validator of
`jsonschema` is a parameter.
-/

namespace MercuryTools.Mcp

open Checks Drivers

/-- The keywords of a schema node with their values. -/
abbrev Schema : Type :=
  Dict String Json

/-- The names that lead to a field; `*` stands for the items of a list. -/
abbrev FieldPath : Type :=
  List String

/-- `Draft202012Validator` with a format checker: whether `check_schema` passes, and whether
`validate` does. -/
structure Validator where
  checkSchema : Json → Bool
  validates : Json → Json → Bool

def recursionError : String := "RecursionError"

def schemaInvalid : String := "generated_schema_invalid"

def outputInvalid : String := "generated_output_invalid"

/-! ## Keywords -/

/-- `_SCHEMA_ANNOTATIONS` -/
def schemaAnnotations : List String :=
  ["$comment", "default", "deprecated", "description", "examples", "readOnly", "title", "writeOnly"]

/-- `_SUPPORTED_SCHEMA_KEYWORDS` -/
def supportedSchemaKeywords : List String :=
  ["$defs", "$ref", "$schema", "additionalProperties", "allOf", "anyOf", "const", "else", "enum",
    "exclusiveMaximum", "exclusiveMinimum", "format", "if", "items", "maxItems", "maxLength",
    "maxProperties", "maximum", "minItems", "minLength", "minProperties", "minimum", "multipleOf",
    "oneOf", "pattern", "properties", "required", "then", "type", "unevaluatedProperties",
    "uniqueItems"] ++ schemaAnnotations

/-- `_PUBLIC_SCALAR_KEYWORDS` -/
def publicScalarKeywords : List String :=
  ["const", "enum", "exclusiveMaximum", "exclusiveMinimum", "format", "maxItems", "maxLength",
    "maximum", "minItems", "minLength", "minimum", "multipleOf", "pattern", "type", "uniqueItems"]

/-- `_REF_ANNOTATIONS` -/
def refAnnotations : List String :=
  schemaAnnotations ++ ["$ref"]

/-- The keywords one of which a node without a reference has. -/
def constrainingKeywords : List String :=
  ["type", "properties", "items", "allOf", "anyOf", "const", "enum", "oneOf", "if"]

/-- `schema.get(keyword)`: a missing keyword and a `null` are both `None`. -/
def keyword? (schema : Schema) (keyword : String) : Option Json :=
  (schema.get keyword).filter (· ≠ .null)

/-- The mapping that a value is. -/
def mapping? : Json → Option Schema
  | .obj fields => some fields
  | _ => none

/-- The mappings in the list that a value is. -/
def mappings : Option Json → List Schema
  | some (.arr items) => items.filterMap mapping?
  | _ => []

/-! ## References -/

/-- `text.replace("~" + digit, replacement)` -/
def replaceEscape (digit replacement : Char) : List Char → List Char
  | '~' :: c :: text =>
      if c = digit then replacement :: replaceEscape digit replacement text
      else '~' :: replaceEscape digit replacement (c :: text)
  | c :: text => c :: replaceEscape digit replacement text
  | [] => []

/-- `segment.replace("~1", "/").replace("~0", "~")` -/
def unescapeSegment (segment : List Char) : String :=
  String.ofList (replaceEscape '0' '~' (replaceEscape '1' '/' segment))

/-- `text.split("/")`, every segment without its escapes. -/
def segments (text : List Char) : List String :=
  (text.splitOn '/').map unescapeSegment

/-- One segment of a reference; `None` is what is not there. -/
def referenceStep (key : String) : Json → Except String (Option Json)
  | .obj fields => .ok (keyword? fields key)
  | .arr items =>
      if isDigits key then do
        let index ← readInt key
        return items[index]?.filter (· ≠ .null)
      else .ok none
  | _ => .ok none

/-- `_reference_target` -/
def referenceTarget (reference : String) (root : Schema) : Except String Schema :=
  if reference = "#" then .ok root
  else
    match reference.toList with
    | '#' :: '/' :: pointer => do
        let target ← (segments pointer).foldlM (fun target key =>
          match target with
          | some value => referenceStep key value
          | none => .ok none) (some (Json.obj root))
        match target with
        | some (.obj schema) => return schema
        | _ => throw schemaInvalid
    | _ => .error schemaInvalid

/-- The reference of a node with the schema that it names.  One that is being followed is not
followed again. -/
def follow (code : String) (root : Schema) (references : List String) :
    Json → Except String (String × Schema)
  | .str reference =>
      if reference ∈ references then .error code
      else (reference, ·) <$> referenceTarget reference root
  | _ => .error code

/-! ## Closed schemas -/

/-- `value == "object"` or `"object" in value`, of the keyword `type`. -/
def namesObject : Option Json → Bool
  | some (.str name) => name == "object"
  | some (.arr names) => decide (Json.str "object" ∈ names)
  | _ => false

/-- `_schema_allows_object` -/
def schemaAllowsObject (schema : Schema) : Bool :=
  namesObject (schema.get "type") || (schema.get "properties").isSome

/-- `_schema_may_allow_object` -/
def schemaMayAllowObject (schema : Schema) : Bool :=
  match schema.get "type" with
  | some (.str name) => namesObject (some (.str name))
  | some (.arr names) => namesObject (some (.arr names))
  | _ => true

/-- `value in {False, None}`: a zero equals `False`, and a container has no hash. -/
def isFalseOrNone : Json → Except String Bool
  | .null => .ok true
  | .bool value => .ok !value
  | .int n => .ok (n == 0)
  | .float text => .ok (text == "0.0" || text == "-0.0")
  | .str _ => .ok false
  | .arr _ | .obj _ => .error "TypeError"

/-- `additionalProperties` is `False`, and `unevaluatedProperties` too unless it is missing. -/
def forbidsOthers (schema : Schema) : Except String Bool :=
  if schema.get "additionalProperties" = some (.bool false) then
    isFalseOrNone ((schema.get "unevaluatedProperties").getD (.bool false))
  else .ok false

/-- The check, where the value is a mapping. -/
def onMapping (check : Schema → Except String Bool) : Json → Except String Bool
  | .obj schema => check schema
  | _ => .ok false

/-- The items of a list that is not empty. -/
def nonemptyItems? : Option Json → Option (List Json)
  | some (.arr (item :: items)) => some (item :: items)
  | _ => none

/-- `_schema_has_closed_object_guard` -/
def schemaHasClosedObjectGuard (root : Schema) : ℕ → List String → Schema → Except String Bool
  | 0, _, _ => .error recursionError
  | depth + 1, references, schema =>
      match keyword? schema "$ref" with
      | some reference => do
          let followed ← follow schemaInvalid root references reference
          schemaHasClosedObjectGuard root depth (followed.1 :: references) followed.2
      | none =>
          if schemaAllowsObject schema then forbidsOthers schema
          else do
            let guarded ← ((nonemptyItems? (schema.get "allOf")).getD []).anyM
              (onMapping (schemaHasClosedObjectGuard root depth references))
            if guarded then return true
            match (nonemptyItems? (schema.get "anyOf")).or (nonemptyItems? (schema.get "oneOf")) with
            | some branches =>
                branches.allM (onMapping fun branch =>
                  if schemaMayAllowObject branch then
                    schemaHasClosedObjectGuard root depth references branch
                  else .ok true)
            | none => return false

/-! ## `_assert_closed_schema` -/

/-- The schemas of `properties` or `$defs`. -/
def namedSchemas (schema : Schema) (keyword : String) : Except String (List Json) :=
  match keyword? schema keyword with
  | none => .ok []
  | some (.obj fields) =>
      if fields.all fun entry => entry.2.isObj then .ok (fields.map (·.2)) else .error schemaInvalid
  | some _ => .error schemaInvalid

/-- The schema of `items`, `if`, `then` or `else`. -/
def singleSchema (schema : Schema) (keyword : String) : Except String (List Json) :=
  match keyword? schema keyword with
  | none => .ok []
  | some (.obj fields) => .ok [.obj fields]
  | some _ => .error schemaInvalid

/-- The schemas of `allOf`, `anyOf` or `oneOf`. -/
def branchSchemas (schema : Schema) (keyword : String) : Except String (List Json) :=
  match keyword? schema keyword with
  | none => .ok []
  | some (.arr items) =>
      if !items.isEmpty && items.all Json.isObj then .ok items else .error schemaInvalid
  | some _ => .error schemaInvalid

def isString : Json → Bool
  | .str _ => true
  | _ => false

/-- `isinstance(value, Mapping | list | tuple)` -/
def isContainer : Json → Bool
  | .arr _ | .obj _ => true
  | _ => false

/-- `required` is a list of strings. -/
def checkRequired (schema : Schema) : Except String Unit :=
  match keyword? schema "required" with
  | none => .ok ()
  | some (.arr items) => require (items.all isString) schemaInvalid
  | some _ => .error schemaInvalid

/-- Only scalars are listed. -/
def checkConstants (schema : Schema) (keyword : String) : Except String Unit :=
  match schema.get keyword with
  | none => .ok ()
  | some value =>
      if keyword = "enum" then
        match value with
        | .arr items => require (items.all (!isContainer ·)) schemaInvalid
        | _ => .error schemaInvalid
      else require (!isContainer value) schemaInvalid

/-- A node that allows objects forbids other properties. -/
def checkForbids (schema : Schema) : Except String Unit :=
  if schemaAllowsObject schema then do
    require (← forbidsOthers schema) schemaInvalid
  else .ok ()

/-- A conditional node that may allow objects is closed whatever its branches are. -/
def checkGuard (root : Schema) (depth : ℕ) (references : List String) (schema : Schema) :
    Except String Unit :=
  if schemaMayAllowObject schema then do
    require (← schemaHasClosedObjectGuard root depth references schema) schemaInvalid
  else .ok ()

/-- The condition of a node with its branches, each visited. -/
def visitCondition (root : Schema) (depth : ℕ) (references : List String)
    (visit : Json → Except String Unit) (schema : Schema) : Except String Unit :=
  match keyword? schema "if" with
  | none => .ok ()
  | some condition => do
      require condition.isObj schemaInvalid
      checkGuard root depth references schema
      visit condition
      (← singleSchema schema "then").forM visit
      (← singleSchema schema "else").forM visit

/-- `visit`, in `_assert_closed_schema` -/
def visit (root : Schema) : ℕ → List String → Json → Except String Unit
  | 0, _, _ => .error recursionError
  | depth + 1, references, node => do
      let schema ← (mapping? node).elim (.error schemaInvalid) .ok
      require (schema.keys.all (· ∈ supportedSchemaKeywords)) schemaInvalid
      match keyword? schema "$ref" with
      | some reference => do
          require (schema.keys.all (· ∈ refAnnotations)) schemaInvalid
          let followed ← follow schemaInvalid root references reference
          visit root depth (followed.1 :: references) (.obj followed.2)
      | none => do
          require (constrainingKeywords.any fun keyword => (schema.get keyword).isSome) schemaInvalid
          checkForbids schema
          (← namedSchemas schema "properties").forM (visit root depth references)
          checkRequired schema
          (← namedSchemas schema "$defs").forM (visit root depth references)
          (← singleSchema schema "items").forM (visit root depth references)
          (← branchSchemas schema "allOf").forM (visit root depth references)
          (← branchSchemas schema "anyOf").forM (visit root depth references)
          (← branchSchemas schema "oneOf").forM (visit root depth references)
          visitCondition root depth references (visit root depth references) schema
          checkConstants schema "const"
          checkConstants schema "enum"

/-- `_assert_closed_schema`: whatever is raised is one error. -/
def assertClosedSchema (validator : Validator) (depth : ℕ) (schema : Schema) : Except String Unit :=
  (do
    require (validator.checkSchema (.obj schema)) schemaInvalid
    visit schema depth [] (.obj schema)).mapError fun _ => schemaInvalid

/-- `_schema_copy`: the text of `canonical_json` read back has its keys sorted, and an integer of too
many digits has no text. -/
def schemaCopy (schema : Schema) : Except String Schema :=
  if Catalog.IntegersFit Catalog.maxStrDigits (.obj schema) then
    match Catalog.pythonStyle.normal (.obj schema) with
    | .obj sorted => .ok sorted
    | _ => .error "ValueError"
  else .error "ValueError"

/-! ## Wire models -/

/-- The schema that the validator of a wire model is given. -/
def validationSchema (checked : Schema) : Schema :=
  Dict.setAll [("$schema", .str "https://json-schema.org/draft/2020-12/schema")] checked

/-- `catalog_wire_model`: the model is the copy of its schema. -/
def catalogWireModel (validator : Validator) (depth : ℕ) (schema : Schema) :
    Except String Schema := do
  let checked ← schemaCopy schema
  assertClosedSchema validator depth checked
  return checked

/-- `_CatalogWireModel.model_validate`, then `model_dump` -/
def modelValidate (validator : Validator) (model : Schema) (source : Json) : Except String Json :=
  if source.isObj && validator.validates (.obj (validationSchema model)) source then .ok source
  else .error "generated_schema_validation_failed"

/-! ## Public paths -/

/-- `_public_field_path` -/
def publicFieldPath (path : String) : FieldPath :=
  segments (path.toList.drop 1)

/-- `_PublicOutputClassification` -/
structure PublicOutputClassification where
  paths : Finset FieldPath

namespace PublicOutputClassification

/-- `from_paths` -/
def fromPaths (paths : List String) : PublicOutputClassification where
  paths := (paths.map publicFieldPath).toFinset

variable (classification : PublicOutputClassification)

def isPublic (path : FieldPath) : Bool :=
  decide (path ∈ classification.paths)

def hasPublicDescendant (path : FieldPath) : Bool :=
  decide (∃ candidate ∈ classification.paths,
    path.length < candidate.length ∧ candidate.take path.length = path)

def exposes (path : FieldPath) : Bool :=
  classification.isPublic path || classification.hasPublicDescendant path

/-- What the projection shows at a path: a container above or at a public path, a scalar at one. -/
def shows (path : FieldPath) (value : Json) : Bool :=
  if isContainer value then classification.exposes path else classification.isPublic path

end PublicOutputClassification

section

variable (classification : PublicOutputClassification) (root : Schema)

/-! ## The public schema -/

/-- Whether one of the checks holds, made one after the other. -/
def firstTrue (checks : List (Unit → Except String Bool)) : Except String Bool :=
  checks.anyM fun check => check ()

/-- A property that is not shown, or that mentions one. -/
def propertyIsPrivate (mentions : FieldPath → Schema → Except String Bool) (path : FieldPath)
    (property : String × Json) : Except String Bool :=
  match mapping? property.2 with
  | some child =>
      if classification.exposes (path ++ [property.1]) then mentions (path ++ [property.1]) child
      else .ok true
  | none => .error schemaInvalid

/-- A required property that is not shown. -/
def requiresPrivate (path : FieldPath) (schema : Schema) : Bool :=
  match schema.get "required" with
  | some (.arr names) => names.any fun
      | .str name => !classification.exposes (path ++ [name])
      | _ => false
  | _ => false

/-- The properties of a schema. -/
def properties (schema : Schema) : List (String × Json) :=
  match schema.get "properties" with
  | some (.obj fields) => fields
  | _ => []

/-- The schema of `if`, `then`, `else` or `items`, if it is a mapping. -/
def subschema (schema : Schema) (keyword : String) : List Schema :=
  ((schema.get keyword).bind mapping?).toList

/-- `_schema_mentions_private_field` -/
def schemaMentionsPrivateField : ℕ → List String → FieldPath → Schema → Except String Bool
  | 0, _, _, _ => .error recursionError
  | depth + 1, references, path, schema =>
      match keyword? schema "$ref" with
      | some reference => do
          let followed ← follow schemaInvalid root references reference
          schemaMentionsPrivateField depth (followed.1 :: references) path followed.2
      | none =>
          firstTrue [
            fun _ => (properties schema).anyM (propertyIsPrivate classification
              (schemaMentionsPrivateField depth references) path),
            fun _ => .ok (requiresPrivate classification path schema),
            fun _ => (mappings (schema.get "allOf")).anyM
              (schemaMentionsPrivateField depth references path),
            fun _ => (mappings (schema.get "anyOf")).anyM
              (schemaMentionsPrivateField depth references path),
            fun _ => (mappings (schema.get "oneOf")).anyM
              (schemaMentionsPrivateField depth references path),
            fun _ => (subschema schema "if").anyM (schemaMentionsPrivateField depth references path),
            fun _ => (subschema schema "then").anyM
              (schemaMentionsPrivateField depth references path),
            fun _ => (subschema schema "else").anyM
              (schemaMentionsPrivateField depth references path),
            fun _ => (subschema schema "items").anyM
              (schemaMentionsPrivateField depth references (path ++ ["*"]))]

/-- Computations with the set `matched_paths`. -/
abbrev Matching : Type → Type :=
  StateT (Finset FieldPath) (Except String)

/-- `matched_paths.add(path)`, of a public path. -/
def addMatched (path : FieldPath) : Matching Unit :=
  modify fun matched => if classification.isPublic path then insert path matched else matched

/-- One property of the public schema, if it is shown. -/
def publicProperty (node : FieldPath → Schema → Matching Schema) (path : FieldPath)
    (property : String × Json) : Matching (Option (String × Json)) :=
  match mapping? property.2 with
  | some child =>
      if classification.exposes (path ++ [property.1]) then do
        addMatched classification (path ++ [property.1])
        let shown ← node (path ++ [property.1]) child
        return some (property.1, .obj shown)
      else return none
  | none => throw schemaInvalid

/-- The keywords of a node that allows objects. -/
def publicObject (node : FieldPath → Schema → Matching Schema) (path : FieldPath)
    (schema result : Schema) : Matching Schema :=
  if schemaAllowsObject schema then
    match (schema.get "properties").getD (.obj []), (schema.get "required").getD (.arr []) with
    | .obj fields, required => do
        let shown := (← fields.mapM (publicProperty classification node path)).reduceOption
        match required with
        | .arr names =>
            if names.all isString then
              return result.setAll [
                ("type", (schema.get "type").getD (.str "object")),
                ("properties", .obj shown),
                ("required", .arr (names.filter fun name =>
                  decide (name ∈ shown.map fun property => Json.str property.1))),
                ("additionalProperties", .bool false)]
            else throw schemaInvalid
        | _ => throw schemaInvalid
    | _, _ => throw schemaInvalid
  else return result

/-- The items of a node. -/
def publicItems (node : FieldPath → Schema → Matching Schema) (path : FieldPath)
    (schema result : Schema) : Matching Schema :=
  match schema.get "items" with
  | none => return result
  | some (.obj items) => do
      addMatched classification (path ++ ["*"])
      let shown ← node (path ++ ["*"]) items
      return result.set "items" (.obj shown)
  | some _ => throw schemaInvalid

/-- The branches of a node.  Without its private fields a value may fit more than one branch, so
`oneOf` becomes `anyOf`. -/
def publicBranches (node : FieldPath → Schema → Matching Schema) (path : FieldPath)
    (schema : Schema) (keyword : String) (result : Schema) : Matching Schema :=
  match schema.get keyword with
  | none => return result
  | some (.arr values) =>
      if values.all Json.isObj then do
        let transformed ← (mappings (some (.arr values))).mapM (node path)
        return result.set (if keyword = "oneOf" then "anyOf" else keyword)
          (.arr (transformed.map Json.obj))
      else throw schemaInvalid
  | some _ => throw schemaInvalid

/-- The `then` or `else` of a condition that is shown. -/
def publicArm (node : FieldPath → Schema → Matching Schema) (path : FieldPath) (schema : Schema)
    (keyword : String) (result : Schema) : Matching Schema :=
  match schema.get keyword with
  | some (.obj branch) => do
      let shown ← node path branch
      return result.set keyword (.obj shown)
  | _ => return result

/-- Both arms of a condition that is not shown, either of which may hold. -/
def publicUnion (node : FieldPath → Schema → Matching Schema) (path : FieldPath)
    (schema result : Schema) : Matching Schema :=
  match schema.get "then", schema.get "else" with
  | some (.obj thenBranch), some (.obj elseBranch) => do
      let first ← node path thenBranch
      let second ← node path elseBranch
      let union := Json.obj [("anyOf", .arr [.obj first, .obj second])]
      match (result.get "allOf").getD (.arr []) with
      | .arr conjuncts => return result.set "allOf" (.arr (conjuncts ++ [union]))
      | _ => throw "AttributeError"
  | _, _ => return result

/-- The condition of a node.  The interpreter asks `mentions` whether it is about a private field. -/
def publicCondition (mentions : Schema → Except String Bool)
    (node : FieldPath → Schema → Matching Schema) (path : FieldPath) (schema result : Schema) :
    Matching Schema :=
  match keyword? schema "if" with
  | none => return result
  | some (.obj condition) => do
      if ← mentions condition then publicUnion node path schema result
      else do
        let shown ← node path condition
        let result ← publicArm node path schema "then" (result.set "if" (.obj shown))
        publicArm node path schema "else" result
  | some _ => throw schemaInvalid

/-- `_public_schema_node` -/
def publicSchemaNode : ℕ → List String → FieldPath → Schema → Matching Schema
  | 0, _, _, _ => throw recursionError
  | depth + 1, references, path, schema =>
      match keyword? schema "$ref" with
      | some reference => do
          let followed ← follow schemaInvalid root references reference
          publicSchemaNode depth (followed.1 :: references) path followed.2
      | none => do
          let node := publicSchemaNode depth references
          let result := schema.filter fun entry => entry.1 ∈ publicScalarKeywords
          let result ← publicObject classification node path schema result
          let result ← publicItems classification node path schema result
          let result ← publicBranches node path schema "allOf" result
          let result ← publicBranches node path schema "anyOf" result
          let result ← publicBranches node path schema "oneOf" result
          publicCondition (schemaMentionsPrivateField classification root depth [] path) node path
            schema result

/-! ## The projected value -/

/-- The schemas in the branches and conditions of a node. -/
def branchesOf (schema : Schema) : List Schema :=
  mappings (schema.get "allOf") ++ mappings (schema.get "anyOf") ++ mappings (schema.get "oneOf") ++
    subschema schema "if" ++ subschema schema "then" ++ subschema schema "else"

/-- `_schema_nodes` -/
def schemaNodes : ℕ → List String → List Schema → Except String (List Schema)
  | 0, _, _ => .error recursionError
  | depth + 1, references, schemas =>
      List.flatten <$> schemas.mapM fun schema =>
        match keyword? schema "$ref" with
        | some reference => do
            let followed ← follow outputInvalid root references reference
            schemaNodes depth (followed.1 :: references) [followed.2]
        | none =>
            if (branchesOf schema).isEmpty then .ok [schema]
            else (schema :: ·) <$> schemaNodes depth references (branchesOf schema)

/-- `properties.setdefault(name, []).append(child)`, for the properties of all nodes. -/
def collectProperties (nodes : List Schema) : Dict String (List Schema) :=
  (nodes.flatMap properties).foldl (fun collected property =>
    match mapping? property.2 with
    | some child =>
        collected.set property.1 ((collected.get property.1).getD [] ++ [child])
    | none => collected) []

/-- `_project_value` -/
def projectValue : ℕ → Json → List Schema → FieldPath → Except String Json
  | 0, _, _, _ => .error recursionError
  | depth + 1, value, schemas, path => do
      let nodes ← schemaNodes root depth [] schemas
      let properties := collectProperties nodes
      let itemSchemas := nodes.flatMap (subschema · "items")
      match value with
      | .obj fields =>
          Json.obj <$> (fields.filter fun field => (properties.get field.1).isSome &&
            classification.shows (path ++ [field.1]) field.2).mapM fun field =>
              (field.1, ·) <$> projectValue depth field.2 ((properties.get field.1).getD [])
                (path ++ [field.1])
      | .arr items =>
          if itemSchemas.isEmpty then .ok (.arr [])
          else
            Json.arr <$> (items.filter (classification.shows (path ++ ["*"]))).mapM fun item =>
              projectValue depth item itemSchemas (path ++ ["*"])
      | value => .ok value

end

/-! ## The two entry points -/

section

variable (validator : Validator) (depth : ℕ)

/-- `public_output_schema` -/
def publicOutputSchema (schema : Schema) (publicOutputFieldPaths : List String) :
    Except String Schema := do
  let source ← schemaCopy schema
  assertClosedSchema validator depth source
  let classification := PublicOutputClassification.fromPaths publicOutputFieldPaths
  let projected ← (publicSchemaNode classification source depth [] [] source).run ∅
  require (decide (projected.2 = classification.paths)) "generated_public_classification_invalid"
  assertClosedSchema validator depth projected.1
  return projected.1

/-- `project_provider_read_data` -/
def projectProviderReadData (value : Json) (outputSchema : Schema)
    (publicOutputFieldPaths : List String) : Except String Json := do
  require value.isObj outputInvalid
  let source ← schemaCopy outputSchema
  let model ← catalogWireModel validator depth source
  let rawValue ← modelValidate validator model value
  let classification := PublicOutputClassification.fromPaths publicOutputFieldPaths
  let publicSchema ← publicOutputSchema validator depth source publicOutputFieldPaths
  let publicModel ← catalogWireModel validator depth publicSchema
  let projected ← projectValue classification source depth rawValue [source] []
  require projected.isObj outputInvalid
  modelValidate validator publicModel projected

end

end MercuryTools.Mcp
