import Mathlib.Algebra.Group.Int.Defs
import MercuryTools.Hosted.ClosedSchemas

/-!
# Where the two schema checks agree

Both checks test every schema that is reached along `properties` and `items` (`Subschema`).  What
they test alike is `Admitted`, and the database function tests nothing else: it accepts a value
whose schemas are all admitted (`createSchemaIsClosed_iff`).  The service's check also wants
every schema to be `Explicit`: a comparison with a key that is not there is `NULL`, and a branch
of the database function on `NULL` is not taken.
-/

namespace MercuryTools
namespace Hosted

open Checks Jsonb

/-! ## The schemas in a value -/

/-- The schemas a check goes on to from a schema. -/
def SchemaChild (value child : Json) : Prop :=
  (value.get? "type" = some (.str "object") ∧
      ∃ fields, value.get? "properties" = some (.obj fields) ∧ child ∈ fields.map (·.2)) ∨
    value.get? "type" = some (.str "array") ∧ value.get? "items" = some child

variable {value : Json}

lemma SchemaChild.sizeOf_lt {child : Json} (h : SchemaChild value child) :
    sizeOf child < sizeOf value := by
  rcases h with ⟨-, fields, hfields, hchild⟩ | ⟨-, hchild⟩
  · exact Nat.lt_trans (sizeOf_field hchild) (sizeOf_get? hfields)
  · exact sizeOf_get? hchild

/-- The schemas at any depth, and whether they are at the root. -/
inductive Subschema : Json → Bool → Json → Bool → Prop
  | self (value : Json) (root : Bool) : Subschema value root value root
  | child {value child schema : Json} {root isRoot : Bool} (h : SchemaChild value child)
      (hschema : Subschema child false schema isRoot) : Subschema value root schema isRoot

/-- A check that tests a schema and goes on to its children tests every schema in the value. -/
theorem forall_subschema_iff {C P : Json → Bool → Prop}
    (h : ∀ value root, C value root ↔
      P value root ∧ ∀ child, SchemaChild value child → C child false)
    (value : Json) (root : Bool) :
    C value root ↔ ∀ schema isRoot, Subschema value root schema isRoot → P schema isRoot := by
  constructor
  · intro hcheck schema isRoot hschema
    induction hschema with
    | self value root => exact ((h value root).1 hcheck).1
    | child hchild _ ih => exact ih (((h _ _).1 hcheck).2 _ hchild)
  · intro hall
    rw [h]
    refine ⟨hall value root (.self value root), fun child hchild => ?_⟩
    exact (forall_subschema_iff h child false).2 fun schema isRoot hschema =>
      hall schema isRoot (.child hchild hschema)
termination_by sizeOf value
decreasing_by exact hchild.sizeOf_lt

/-! ## What is tested of a schema -/

section

variable (t : JsonbText)

/-- A number that `jsonb` prints as a count. -/
def ReadsAsCount (count : Json) : Prop :=
  isCount count = true ∨ ∃ text, count = .float text ∧
    Numerals.isNumeral 10 (t.number text).toList = true ∧
    Numerals.value (t.number text).toList ≤ maxSchemaConstrainedInteger

/-- What both checks test of an object schema. -/
structure ObjectAdmitted (value : Json) : Prop where
  properties : ∀ properties, value.get? "properties" = some properties →
    ∃ fields, fields ≠ [] ∧ properties = .obj fields
  required : ∀ required, value.get? "required" = some required →
    ∃ names, names ≠ [] ∧ required = .arr names ∧
      ∀ name ∈ names, ∀ key, text t name = some key →
        ∀ fields, value.get? "properties" = some (.obj fields) → key ∈ fields.map (·.1)
  additional : ∀ additional, value.get? "additionalProperties" = some additional →
    additional = .bool false
  unevaluated : ∀ unevaluated, value.get? "unevaluatedProperties" = some unevaluated →
    unevaluated = .bool false
  pattern : value.get? "patternProperties" = none

/-- What both checks test of an array schema. -/
structure ArrayAdmitted (value : Json) : Prop where
  items : ∃ fields, fields ≠ [] ∧ value.get? "items" = some (.obj fields)
  maxItems : ∃ count, value.get? "maxItems" = some count ∧ text t count ≠ some "0"

def schemaTypes : List String :=
  ["object", "array", "string", "integer", "boolean", "null"]

/-- What both checks test of a schema. -/
structure Admitted (value : Json) (root : Bool) : Prop where
  nonempty : ∃ fields, fields ≠ [] ∧ value = .obj fields
  plain : ∀ key ∈ combinators, value.get? key = none
  counts : ∀ keyword ∈ constrainedIntegerKeywords, ∀ count, value.get? keyword = some count →
    ReadsAsCount t count
  type : ∃ name ∈ schemaTypes, value.get? "type" = some (.str name) ∧
    (root = true → name = "object")
  object : value.get? "type" = some (.str "object") → ObjectAdmitted t value
  array : value.get? "type" = some (.str "array") → ArrayAdmitted t value

end

/-- The schema states what it needs: an object schema has its three keys and requires names, and
no count is written with a fraction or an exponent. -/
structure Explicit (value : Json) : Prop where
  counts : ∀ keyword ∈ constrainedIntegerKeywords, ∀ text, value.get? keyword ≠ some (.float text)
  object : value.get? "type" = some (.str "object") →
    (∃ properties, value.get? "properties" = some properties) ∧
      (∃ additional, value.get? "additionalProperties" = some additional) ∧
      ∃ required, value.get? "required" = some required ∧
        ∀ names, required = .arr names → ∀ name ∈ names, ∃ key, name = .str key

/-- A closed object schema: `additionalProperties` is false, `properties` an object, and
`required` a list of declared names. -/
def ClosedObject (value : Json) : Prop :=
  value.get? "additionalProperties" = some (.bool false) ∧
    ∃ fields, value.get? "properties" = some (.obj fields) ∧
      ∃ names, value.get? "required" = some (.arr names) ∧
        ∀ name ∈ names, ∃ key ∈ fields.map (·.1), name = .str key

lemma closedObject_of_explicit {t : JsonbText} (h : ObjectAdmitted t value)
    (hexplicit : Explicit value) (htype : value.get? "type" = some (.str "object")) :
    ClosedObject value := by
  obtain ⟨⟨properties, hproperties⟩, ⟨additional, hadditional⟩, required, hrequired, hnames⟩ :=
    hexplicit.object htype
  obtain ⟨fields, -, rfl⟩ := h.properties properties hproperties
  obtain ⟨names, -, rfl, hdeclared⟩ := h.required required hrequired
  refine ⟨?_, fields, hproperties, names, hrequired, fun name hname => ?_⟩
  · rw [hadditional, h.additional additional hadditional]
  · obtain ⟨key, rfl⟩ := hnames names rfl name hname
    exact ⟨key, hdeclared _ hname key rfl fields hproperties, rfl⟩

/-! ## Texts -/

section

variable {t : JsonbText}

/-- The characters of numbers. -/
def isPlain (c : Char) : Bool :=
  c.isDigit || c == '-' || c == '.'

lemma plain_toDigits (n : Nat) : (Nat.toDigits 10 n).all isPlain = true := by
  refine List.all_eq_true.2 fun c hc => ?_
  have hdigit : c.isDigit = true := Nat.isDigit_of_mem_toDigits (by omega) (by omega) hc
  simp [isPlain, hdigit]

lemma plain_toString (value : Int) : (toString value).toList.all isPlain = true := by
  rw [Int.toString_eq_repr, Int.repr_eq_if]
  split
  · rw [Nat.toList_repr]
    exact plain_toDigits _
  · rw [String.toList_append, Nat.toList_repr, List.all_append, plain_toDigits]
    rfl

lemma spelling_schemaTypes : ∀ name ∈ schemaTypes,
    name.toList.all isPlain = false ∧ name.toList.head? ≠ some '[' ∧
      name.toList.head? ≠ some '\x7b' ∧ name ≠ "true" ∧ name ≠ "false" := by
  decide

variable {value : Json} {name key : String} {root : Bool}

/-- What has the text of a type name is a string. -/
lemma eq_str_of_text (hname : name ∈ schemaTypes) (h : text t value = some name) :
    value = .str name := by
  obtain ⟨hplain, hbracket, hbrace, htrue, hfalse⟩ := spelling_schemaTypes name hname
  cases value with
  | null => simp [text] at h
  | str value => rw [Option.some.inj h]
  | bool value =>
      have heq := Option.some.inj h
      cases value
      · exact absurd heq.symm hfalse
      · exact absurd heq.symm htrue
  | int value =>
      rw [← Option.some.inj h, plain_toString] at hplain
      cases hplain
  | float value =>
      have hnumber := t.number_plain value
      rw [← Option.some.inj h] at hplain
      exact absurd (hnumber.symm.trans hplain) (by decide)
  | arr items =>
      have hitems := t.items_bracket items
      rw [Option.some.inj h] at hitems
      exact absurd hitems hbracket
  | obj fields =>
      have hfields := t.fields_brace fields
      rw [Option.some.inj h] at hfields
      exact absurd hfields hbrace

/-- The text of an integer is a numeral where the integer is not negative and not too long. -/
lemma isNumeral_toString (value : Int) :
    Numerals.isNumeral 10 (toString value).toList = decide (0 ≤ value ∧ value < 10 ^ 10) := by
  rw [Int.toString_eq_repr, Int.repr_eq_if]
  split
  · rw [Nat.toList_repr, Numerals.isNumeral_toDigits (by omega)]
    rw [Bool.eq_iff_iff, decide_eq_true_eq, decide_eq_true_eq]
    omega
  · rw [String.toList_append]
    have hfirst : ∀ cs, Numerals.isNumeral 10 ("-".toList ++ cs) = false := fun cs => by
      simp [Numerals.isNumeral]
    rw [hfirst, eq_comm, decide_eq_false_iff_not]
    omega

lemma value_toString {value : Int} (h : 0 ≤ value) :
    Numerals.value (toString value).toList = value.toNat := by
  rw [Int.toString_eq_repr, Int.repr_eq_if, if_pos h, Nat.toList_repr, Numerals.value_toDigits]

/-! ## The tests of the database function -/

lemma any_key_eq (fields : List (String × Json)) (key : String) :
    fields.any (·.1 == key) = (fields.lookup key).isSome := by
  induction fields with
  | nil => rfl
  | cons field fields ih =>
      obtain ⟨k, v⟩ := field
      rw [List.any_cons, List.lookup_cons, ih]
      by_cases h : key = k
      · simp [h]
      · simp [beq_false_of_ne h, beq_false_of_ne (Ne.symm h)]

lemma exists?_obj (fields : List (String × Json)) (key : String) :
    exists? (some (.obj fields)) (some key) = some (((Json.obj fields).get? key).isSome) := by
  rw [exists?, any_key_eq]
  rfl

lemma get_some (value : Json) (key : String) : Jsonb.get (some value) key = value.get? key := rfl

lemma shape_test (value : Json) :
    (Truth.orAll ([Truth.ne (typeof (some value)) (some "object"),
        Truth.eq (some value) (some (.obj []))] ++
      combinators.map fun key => exists? (some value) (some key))).isTrue = false ↔

    (∃ fields, fields ≠ [] ∧ value = .obj fields) ∧ ∀ key ∈ combinators, value.get? key = none := by
  rw [Truth.isTrue_orAll, List.any_eq_false]
  cases value with
  | obj fields =>
      simp only [List.cons_append, List.nil_append, List.forall_mem_cons, List.forall_mem_map,
        exists?_obj, typeof, Option.map_some, Truth.ne_some, Truth.eq_some, Truth.isTrue_some]
      simp
  | _ => simp [typeof]

/-- The text of an integer is a count where the integer is one. -/
lemma isCount_iff (value : Int) :
    Numerals.isNumeral 10 (toString value).toList = true ∧
        Numerals.value (toString value).toList ≤ maxSchemaConstrainedInteger ↔
      isCount (.int value) = true := by
  rw [isNumeral_toString, decide_eq_true_eq]
  have hcount : isCount (.int value) = true ↔ 0 ≤ value ∧ value ≤ 2147483647 := by
    rw [isCount, Bool.and_eq_true, decide_eq_true_eq, decide_eq_true_eq]
    rfl
  rw [hcount, maxSchemaConstrainedInteger]
  constructor
  · rintro ⟨⟨hpos, -⟩, hle⟩
    rw [value_toString hpos] at hle
    omega
  · rintro ⟨hpos, hle⟩
    rw [value_toString hpos]
    omega

/-- The branches on a candidate text. -/
lemma candidate_test (digits : List Char) :
    ((if (Truth.not (some (Numerals.isNumeral 10 digits))).isTrue then some false
      else some (decide (Numerals.value digits ≤ maxSchemaConstrainedInteger)) : Truth).not).isTrue =
        false ↔
      Numerals.isNumeral 10 digits = true ∧
        Numerals.value digits ≤ maxSchemaConstrainedInteger := by
  rw [Truth.not_some, Truth.isTrue_some]
  by_cases h : Numerals.isNumeral 10 digits = true
  · simp [h]
  · simp [h]

lemma count_test (fields : List (String × Json)) (keyword : String) :
    ((schemaCountKeywordIsValid t (some (.obj fields)) keyword).not).isTrue = false ↔
      ∀ count, (Json.obj fields).get? keyword = some count → ReadsAsCount t count := by
  obtain ⟨found, hfound⟩ : ∃ found, (Json.obj fields).get? keyword = found := ⟨_, rfl⟩
  rw [schemaCountKeywordIsValid, exists?_obj]
  simp only [getText, get_some, hfound]
  cases found with
  | none => simp [typeof]
  | some count =>
      cases count with
      | int value =>
          have h := (candidate_test (toString value).toList).trans (isCount_iff value)
          simpa [typeof, text, ReadsAsCount] using h
      | float value =>
          have h := candidate_test (t.number value).toList
          simpa [typeof, text, ReadsAsCount, isCount] using h
      | _ => simp [typeof, ReadsAsCount, isCount]

lemma counts_test (fields : List (String × Json)) :
    (Truth.orAll (constrainedIntegerKeywords.map fun keyword =>
      (schemaCountKeywordIsValid t (some (.obj fields)) keyword).not)).isTrue = false ↔
      ∀ keyword ∈ constrainedIntegerKeywords, ∀ count,
        (Json.obj fields).get? keyword = some count → ReadsAsCount t count := by
  rw [Truth.isTrue_orAll, List.any_eq_false, List.forall_mem_map]
  simp only [Bool.not_eq_true, count_test]

lemma type_test (schemaType : Option String) (root : Bool) :
    (Truth.or (some schemaType.isNone) (Truth.and (some root)
      (Truth.ne schemaType (some "object")))).isTrue = false ↔
      ∃ name, schemaType = some name ∧ (root = true → name = "object") := by
  cases schemaType with
  | none => simp
  | some name => cases root <;> simp

/-! ### An object schema -/

lemma properties_test (properties : Option Json) :
    (Truth.ne (typeof properties) (some "object")).isTrue = false ∧
        (Truth.eq properties (some (.obj []))).isTrue = false ↔
      ∀ value, properties = some value → ∃ fields, fields ≠ [] ∧ value = .obj fields := by
  rcases properties with _ | value
  · simp [typeof]
  · cases value <;> simp [typeof]

lemma required_test (required : Option Json) :
    (Truth.ne (typeof required) (some "array")).isTrue = false ∧
        (Truth.eq (arrayLength required) (some 0)).isTrue = false ↔
      ∀ value, required = some value → ∃ names, names ≠ [] ∧ value = .arr names := by
  rcases required with _ | value
  · simp [typeof, arrayLength]
  · cases value <;> simp [typeof, arrayLength]

lemma false_test (value : Option Json) :
    (Truth.ne value (some (.bool false))).isTrue = false ↔
      ∀ found, value = some found → found = .bool false := by
  cases value <;> simp

lemma unevaluated_test (fields : List (String × Json)) (key : String) :
    (Truth.and (exists? (some (.obj fields)) (some key))
        (Truth.ne ((Json.obj fields).get? key) (some (.bool false)))).isTrue = false ↔
      ∀ found, (Json.obj fields).get? key = some found → found = .bool false := by
  rw [exists?_obj, ← false_test]
  cases (Json.obj fields).get? key <;> simp

lemma mem_keys_iff (fields : List (String × Json)) (key : String) :
    key ∈ fields.map (·.1) ↔ fields.any (·.1 == key) = true := by
  simp

/-- A name counts as declared where its text is, or where one of the two is not known. -/
lemma names_test {properties : Option Json} (hproperties : ∀ value, properties = some value →
      ∃ fields, fields ≠ [] ∧ value = .obj fields) (names : List Json) :
    ((elementsText t (some (.arr names))).any fun key => (exists? properties key).not.isTrue) =
        false ↔
      ∀ name ∈ names, ∀ key, text t name = some key →
        ∀ fields, properties = some (.obj fields) → key ∈ fields.map (·.1) := by
  rw [elementsText, List.any_map, List.any_eq_false]
  refine forall₂_congr fun name _ => ?_
  rw [Function.comp_apply]
  cases properties with
  | none => cases text t name <;> simp [exists?]
  | some value =>
      obtain ⟨fields, -, rfl⟩ := hproperties value rfl
      cases text t name with
      | none => simp [exists?]
      | some key =>
          simp only [exists?, Truth.not_some, Truth.isTrue_some, Bool.not_eq_true',
            Bool.not_eq_false, Option.some.injEq, forall_eq', Json.obj.injEq, mem_keys_iff]

/-- The tests of an object schema pass where it is admitted. -/
lemma object_test (fields : List (String × Json)) :
    (Truth.orAll [
        Truth.ne (typeof ((Json.obj fields).get? "properties")) (some "object"),
        Truth.eq ((Json.obj fields).get? "properties") (some (.obj [])),
        Truth.ne (typeof ((Json.obj fields).get? "required")) (some "array"),
        Truth.eq (arrayLength ((Json.obj fields).get? "required")) (some 0),
        Truth.ne ((Json.obj fields).get? "additionalProperties") (some (.bool false)),
        Truth.and (exists? (some (.obj fields)) (some "unevaluatedProperties"))
          (Truth.ne ((Json.obj fields).get? "unevaluatedProperties") (some (.bool false))),
        exists? (some (.obj fields)) (some "patternProperties")]).isTrue = false ∧
      ((elementsText t ((Json.obj fields).get? "required")).any fun key =>
        (exists? ((Json.obj fields).get? "properties") key).not.isTrue) = false ↔
      ObjectAdmitted t (.obj fields) := by
  have hpattern : (exists? (some (.obj fields)) (some "patternProperties")).isTrue = false ↔
      (Json.obj fields).get? "patternProperties" = none := by
    rw [exists?_obj]
    simp
  rw [Truth.isTrue_orAll]
  simp only [List.any_cons, List.any_nil, Bool.or_false, Bool.or_eq_false_iff]
  constructor
  · rintro ⟨⟨h1, h2, h3, h4, h5, h6, h7⟩, hnames⟩
    have hproperties := (properties_test _).1 ⟨h1, h2⟩
    refine ⟨hproperties, ?_, (false_test _).1 h5, (unevaluated_test _ _).1 h6, hpattern.1 h7⟩
    intro required hrequired
    obtain ⟨names, hne, rfl⟩ := (required_test _).1 ⟨h3, h4⟩ required hrequired
    rw [hrequired] at hnames
    exact ⟨names, hne, rfl, (names_test hproperties names).1 hnames⟩
  · intro h
    have hproperties := (properties_test _).2 h.properties
    have hrequired := (required_test ((Json.obj fields).get? "required")).2 fun value hvalue => by
      obtain ⟨names, hne, heq, -⟩ := h.required value hvalue
      exact ⟨names, hne, heq⟩
    refine ⟨⟨hproperties.1, hproperties.2, hrequired.1, hrequired.2, (false_test _).2 h.additional,
      (unevaluated_test _ _).2 h.unevaluated, hpattern.2 h.pattern⟩, ?_⟩
    cases hget : (Json.obj fields).get? "required" with
    | none => rfl
    | some required =>
        obtain ⟨names, -, rfl, hdeclared⟩ := h.required required hget
        exact (names_test h.properties names).2 hdeclared

/-! ### An array schema -/

lemma array_test (fields : List (String × Json)) :
    (Truth.orAll [
        Truth.ne (typeof ((Json.obj fields).get? "items")) (some "object"),
        Truth.eq ((Json.obj fields).get? "items") (some (.obj [])),
        (exists? (some (.obj fields)) (some "maxItems")).not,
        Truth.eq (getText t (some (.obj fields)) "maxItems") (some "0")]).isTrue = false ∧
      (∃ child, (Json.obj fields).get? "items" = some child) ↔ ArrayAdmitted t (.obj fields) := by
  have hmax : (exists? (some (.obj fields)) (some "maxItems")).not.isTrue = false ∧
      (Truth.eq (getText t (some (.obj fields)) "maxItems") (some "0")).isTrue = false ↔
        ∃ count, (Json.obj fields).get? "maxItems" = some count ∧ text t count ≠ some "0" := by
    rw [exists?_obj, getText, get_some]
    rcases (Json.obj fields).get? "maxItems" with _ | count
    · simp
    · cases htext : text t count <;> simp [htext]
  rw [Truth.isTrue_orAll]
  simp only [List.any_cons, List.any_nil, Bool.or_false, Bool.or_eq_false_iff]
  constructor
  · rintro ⟨⟨h1, h2, h3⟩, child, hchild⟩
    obtain ⟨items, hne, rfl⟩ := (properties_test _).1 ⟨h1, h2⟩ child hchild
    exact ⟨⟨items, hne, hchild⟩, hmax.1 h3⟩
  · rintro ⟨⟨items, hne, hitems⟩, hcount⟩
    have hshape := (properties_test ((Json.obj fields).get? "items")).2 fun value hvalue =>
      ⟨items, hne, Option.some.inj (hvalue.symm.trans hitems)⟩
    exact ⟨⟨hshape.1, hshape.2, hmax.2 hcount⟩, _, hitems⟩

/-! ## The database function tests every schema -/

/-- The function returns true or false, also on `NULL`. -/
lemma createSchemaIsClosed_isSome (value : Option Json) (root : Bool) :
    (createSchemaIsClosed t value root).isSome = true := by
  fun_induction createSchemaIsClosed t value root with
  | case9 _ _ _ _ _ _ _ _ _ ih => exact ih
  | case10 _ _ _ _ htype =>
      simp only [Bool.not_eq_true] at htype
      obtain ⟨name, hname, -⟩ := (type_test _ _).1 htype
      rw [hname]
      rfl
  | _ => rfl

lemma reject_eq_true (b : Bool) (x : Truth) :
    (if b = true then some false else x) = some true ↔ b = false ∧ x = some true := by
  cases b <;> simp

/-- `NULL` has no type, so a call on it is rejected. -/
lemma createSchemaIsClosed_null (root : Bool) : createSchemaIsClosed t none root ≠ some true := by
  rw [createSchemaIsClosed, ne_eq, reject_eq_true, reject_eq_true, reject_eq_true, type_test]
  rintro ⟨-, -, ⟨name, hname, -⟩, -⟩
  simp [getText, Jsonb.get] at hname

/-- No child is rejected where every child is accepted. -/
lemma children_test (properties : Option Json) :
    ((each properties).attach.any fun child =>
        (createSchemaIsClosed t (some child.1) false).not.isTrue) = false ↔
      ∀ fields, properties = some (.obj fields) → ∀ child ∈ fields.map (·.2),
        createSchemaIsClosed t (some child) false = some true := by
  have hcall : ∀ child, (createSchemaIsClosed t (some child) false).not.isTrue = false ↔
      createSchemaIsClosed t (some child) false = some true := by
    intro child
    have hsome := createSchemaIsClosed_isSome (t := t) (some child) false
    cases hclosed : createSchemaIsClosed t (some child) false with
    | none => simp [hclosed] at hsome
    | some b => cases b <;> simp
  rw [List.any_eq_false]
  simp only [List.mem_attach, forall_const, Subtype.forall, Bool.not_eq_true, hcall]
  constructor
  · rintro h fields rfl child hchild
    exact h child hchild
  · intro h child hchild
    rcases properties with _ | value
    · simp [each] at hchild
    · cases value with
      | obj fields => exact h fields rfl child hchild
      | _ => simp [each] at hchild

/-- What is left of the function for each type. -/
def TypeTested (t : JsonbText) (value : Json) (name : String) : Prop :=
  name = "object" ∧ ObjectAdmitted t value ∧
      (∀ fields, value.get? "properties" = some (.obj fields) → ∀ child ∈ fields.map (·.2),
        createSchemaIsClosed t (some child) false = some true) ∨
    name = "array" ∧ ArrayAdmitted t value ∧
      (∀ child, value.get? "items" = some child →
        createSchemaIsClosed t (some child) false = some true) ∨
    name ∈ ["string", "integer", "boolean", "null"]

/-- The branches of the function on the type. -/
lemma branches_eq_true (fields : List (String × Json)) (name : String) :
    (if name = "object" then
        if (Truth.orAll [
            Truth.ne (typeof ((Json.obj fields).get? "properties")) (some "object"),
            Truth.eq ((Json.obj fields).get? "properties") (some (.obj [])),
            Truth.ne (typeof ((Json.obj fields).get? "required")) (some "array"),
            Truth.eq (arrayLength ((Json.obj fields).get? "required")) (some 0),
            Truth.ne ((Json.obj fields).get? "additionalProperties") (some (.bool false)),
            Truth.and (exists? (some (.obj fields)) (some "unevaluatedProperties"))
              (Truth.ne ((Json.obj fields).get? "unevaluatedProperties") (some (.bool false))),
            exists? (some (.obj fields)) (some "patternProperties")]).isTrue then some false
        else if (elementsText t ((Json.obj fields).get? "required")).any fun key =>
            (exists? ((Json.obj fields).get? "properties") key).not.isTrue then some false
        else if (each ((Json.obj fields).get? "properties")).attach.any fun child =>
            (createSchemaIsClosed t (some child.1) false).not.isTrue then some false
        else some true
      else if name = "array" then
        if (Truth.orAll [
            Truth.ne (typeof ((Json.obj fields).get? "items")) (some "object"),
            Truth.eq ((Json.obj fields).get? "items") (some (.obj [])),
            (exists? (some (.obj fields)) (some "maxItems")).not,
            Truth.eq (getText t (some (.obj fields)) "maxItems") (some "0")]).isTrue then some false
        else createSchemaIsClosed t ((Json.obj fields).get? "items") false
      else Truth.isIn (some name) ["string", "integer", "boolean", "null"]) = some true ↔
      TypeTested t (.obj fields) name := by
  by_cases hobject : name = "object"
  · subst hobject
    rw [if_pos rfl, reject_eq_true, reject_eq_true, reject_eq_true, children_test, ← and_assoc,
      object_test]
    simp [TypeTested]
  · rw [if_neg hobject]
    by_cases harray : name = "array"
    · subst harray
      rw [if_pos rfl, reject_eq_true]
      constructor
      · rintro ⟨htest, hclosed⟩
        cases hitems : (Json.obj fields).get? "items" with
        | none =>
            rw [hitems] at hclosed
            exact absurd hclosed (createSchemaIsClosed_null false)
        | some child =>
            rw [hitems] at hclosed
            refine .inr (.inl ⟨rfl, (array_test fields).1 ⟨htest, child, hitems⟩, ?_⟩)
            intro found hfound
            rw [← Option.some.inj (hitems.symm.trans hfound)]
            exact hclosed
      · rintro (⟨h, -⟩ | ⟨-, hadmitted, hchild⟩ | h)
        · exact absurd h hobject
        · obtain ⟨htest, child, hitems⟩ := (array_test fields).2 hadmitted
          exact ⟨htest, by rw [hitems]; exact hchild child hitems⟩
        · exact absurd h (by decide)
    · simp [TypeTested, hobject, harray]

lemma createSchemaIsClosed_obj (fields : List (String × Json)) (root : Bool) :
    createSchemaIsClosed t (some (.obj fields)) root = some true ↔
      (fields ≠ [] ∧ ∀ key ∈ combinators, (Json.obj fields).get? key = none) ∧
      (∀ keyword ∈ constrainedIntegerKeywords, ∀ count,
        (Json.obj fields).get? keyword = some count → ReadsAsCount t count) ∧
      ∃ name, getText t (some (.obj fields)) "type" = some name ∧
        (root = true → name = "object") ∧ TypeTested t (.obj fields) name := by
  rw [createSchemaIsClosed, reject_eq_true, reject_eq_true, reject_eq_true, shape_test, counts_test,
    type_test]
  refine and_congr (by simp) (and_congr_right fun _ => ?_)
  constructor
  · rintro ⟨⟨name, hname, hroot⟩, hrest⟩
    simp only [hname, Truth.eq_some, Truth.isTrue_some, beq_iff_eq, get_some,
      dite_eq_ite] at hrest
    exact ⟨name, hname, hroot, (branches_eq_true fields name).1 hrest⟩
  · rintro ⟨name, hname, hroot, htested⟩
    refine ⟨⟨name, hname, hroot⟩, ?_⟩
    simp only [hname, Truth.eq_some, Truth.isTrue_some, beq_iff_eq, get_some, dite_eq_ite]
    exact (branches_eq_true fields name).2 htested

lemma getText_type (hname : name ∈ schemaTypes) :
    getText t (some value) "type" = some name ↔ value.get? "type" = some (.str name) := by
  rw [getText, get_some]
  constructor
  · intro h
    obtain ⟨found, hfound, htext⟩ := Option.bind_eq_some_iff.1 h
    rw [hfound, eq_str_of_text hname htext]
  · intro h
    rw [h]
    rfl

lemma isObj_of_createSchemaIsClosed (h : createSchemaIsClosed t (some value) root = some true) :
    ∃ fields, value = .obj fields := by
  rw [createSchemaIsClosed, reject_eq_true, shape_test] at h
  obtain ⟨⟨⟨fields, -, rfl⟩, -⟩, -⟩ := h
  exact ⟨fields, rfl⟩

/-- The types of the schemas that are tested. -/
lemma TypeTested.mem_schemaTypes (h : TypeTested t value name) : name ∈ schemaTypes := by
  have hsimple : ∀ name ∈ ["string", "integer", "boolean", "null"], name ∈ schemaTypes := by decide
  obtain ⟨rfl, -⟩ | ⟨rfl, -⟩ | hmem := h
  · decide
  · decide
  · exact hsimple name hmem

/-- The function tests a schema and goes on to its children. -/
lemma createSchemaIsClosed_step (value : Json) (root : Bool) :
    createSchemaIsClosed t (some value) root = some true ↔ Admitted t value root ∧
      ∀ child, SchemaChild value child → createSchemaIsClosed t (some child) false = some true := by
  constructor
  · intro h
    obtain ⟨fields, rfl⟩ := isObj_of_createSchemaIsClosed h
    obtain ⟨⟨hne, hplain⟩, hcounts, name, hname, hroot, htested⟩ :=
      (createSchemaIsClosed_obj fields root).1 h
    have htype := (getText_type htested.mem_schemaTypes).1 hname
    have hsame : ∀ {other}, (Json.obj fields).get? "type" = some (.str other) → name = other := by
      intro other hother
      simpa using htype.symm.trans hother
    refine ⟨⟨⟨fields, hne, rfl⟩, hplain, hcounts, ⟨name, htested.mem_schemaTypes, htype, hroot⟩,
      ?_, ?_⟩, ?_⟩
    · intro hobject
      obtain rfl := hsame hobject
      obtain ⟨-, hadmitted, -⟩ | ⟨heq, -⟩ | hmem := htested
      · exact hadmitted
      · exact absurd heq (by decide)
      · exact absurd hmem (by decide)
    · intro harray
      obtain rfl := hsame harray
      obtain ⟨heq, -⟩ | ⟨-, hadmitted, -⟩ | hmem := htested
      · exact absurd heq (by decide)
      · exact hadmitted
      · exact absurd hmem (by decide)
    · rintro child (⟨hobject, properties, hproperties, hchild⟩ | ⟨harray, hitems⟩)
      · obtain rfl := hsame hobject
        obtain ⟨-, -, hall⟩ | ⟨heq, -⟩ | hmem := htested
        · exact hall properties hproperties child hchild
        · exact absurd heq (by decide)
        · exact absurd hmem (by decide)
      · obtain rfl := hsame harray
        obtain ⟨heq, -⟩ | ⟨-, -, hall⟩ | hmem := htested
        · exact absurd heq (by decide)
        · exact hall child hitems
        · exact absurd hmem (by decide)
  · rintro ⟨⟨⟨fields, hne, rfl⟩, hplain, hcounts, ⟨name, hmem, hname, hroot⟩, hobject, harray⟩,
      hchildren⟩
    refine (createSchemaIsClosed_obj fields root).2 ⟨⟨hne, hplain⟩, hcounts, name,
      (getText_type hmem).2 hname, hroot, ?_⟩
    have hcases : name = "object" ∨ name = "array" ∨
        name ∈ ["string", "integer", "boolean", "null"] := by
      simpa [schemaTypes] using hmem
    obtain rfl | rfl | hsimple := hcases
    · exact .inl ⟨rfl, hobject hname, fun properties hproperties child hchild =>
        hchildren child (.inl ⟨hname, properties, hproperties, hchild⟩)⟩
    · exact .inr (.inl ⟨rfl, harray hname, fun child hitems =>
        hchildren child (.inr ⟨hname, hitems⟩)⟩)
    · exact .inr (.inr hsimple)

/-- The database function accepts a value exactly where every schema in it is admitted. -/
theorem createSchemaIsClosed_iff (value : Json) (root : Bool) :
    createSchemaIsClosed t (some value) root = some true ↔
      ∀ schema isRoot, Subschema value root schema isRoot → Admitted t schema isRoot :=
  forall_subschema_iff (C := fun value root =>
    createSchemaIsClosed t (some value) root = some true) createSchemaIsClosed_step value root

/-! ## The service's check tests every schema -/

/-- What is left of the service's check for each type. -/
def ServiceTested (value : Json) (name : String) : Prop :=
  name = "object" ∧ (∃ properties required, value.get? "properties" = some (.obj properties) ∧
      value.get? "required" = some (.arr required) ∧ properties ≠ [] ∧ required ≠ [] ∧
      (∀ name ∈ required, ∃ key ∈ properties.map (·.1), name = .str key) ∧
      value.get? "additionalProperties" = some (.bool false) ∧
      (∀ unevaluated, value.get? "unevaluatedProperties" = some unevaluated →
        unevaluated = .bool false) ∧
      value.get? "patternProperties" = none ∧
      ∀ child ∈ properties.map (·.2), requireClosedObjectSchemas child false = .ok ()) ∨
    name = "array" ∧ (∃ items maxItems, value.get? "items" = some (.obj items) ∧
      value.get? "maxItems" = some (.int maxItems) ∧ items ≠ [] ∧ 1 ≤ maxItems ∧
      requireClosedObjectSchemas (.obj items) false = .ok ()) ∨
    name ∈ ["string", "integer", "boolean", "null"]

lemma getD_eq_false :
    value.getD key (.bool false) = .bool false ↔
      ∀ found, value.get? key = some found → found = .bool false := by
  rw [Json.getD]
  cases value.get? key <;> simp

lemma isDeclared_iff {fields : List (String × Json)} {name : Json} :
    isDeclared fields name = true ↔ ∃ key ∈ fields.map (·.1), name = .str key := by
  cases name <;> simp [isDeclared]

lemma not_mem_keys_iff : key ∉ value.keys ↔ value.get? key = none := by
  cases value with
  | obj fields =>
      rw [Json.keys, mem_keys_iff, any_key_eq, Bool.not_eq_true, Option.isSome_eq_false_iff,
        Option.isNone_iff_eq_none]
      rfl
  | _ => simp [Json.keys, Json.get?]

lemma requireClosedObjectSchemas_iff (value : Json) (root : Bool) :
    requireClosedObjectSchemas value root = .ok () ↔
      ((∃ fields, fields ≠ [] ∧ value = .obj fields) ∧ ∀ key ∈ combinators, value.get? key = none) ∧
      (∀ keyword ∈ constrainedIntegerKeywords, ∀ count, value.get? keyword = some count →
        isCount count = true) ∧
      ∃ name, value.get? "type" = some (.str name) ∧ (root = true → name = "object") ∧
        ServiceTested value name := by
  have hshape : (value.isObj && value.keys != []) = true ∧
      (!combinators.any (· ∈ value.keys)) = true ↔
      (∃ fields, fields ≠ [] ∧ value = .obj fields) ∧
        ∀ key ∈ combinators, value.get? key = none := by
    refine and_congr ?_ ?_
    · cases value <;> simp [Json.isObj, Json.keys]
    · simp only [Bool.not_eq_true', List.any_eq_false, decide_eq_true_eq, not_mem_keys_iff]
  have hcounts : (constrainedIntegerKeywords.all fun keyword =>
      (value.get? keyword).all isCount) = true ↔
      ∀ keyword ∈ constrainedIntegerKeywords, ∀ count, value.get? keyword = some count →
        isCount count = true := by
    simp only [List.all_eq_true, Option.all_eq_true]
  rw [requireClosedObjectSchemas]
  simp only [bind_eq_ok, require_eq_ok, exists_const]
  rw [← and_assoc, hshape, hcounts]
  refine and_congr_right fun _ => and_congr_right fun _ => ?_
  split
  · rename_i name hname
    have hsame : (∃ other, value.get? "type" = some (.str other) ∧ (root = true → other = "object") ∧
        ServiceTested value other) ↔ (root = true → name = "object") ∧ ServiceTested value name := by
      rw [hname]
      simp
    rw [hsame]
    simp only [bind_eq_ok, require_eq_ok, exists_const]
    refine and_congr (by cases root <;> simp) ?_
    by_cases hobject : name = "object"
    · subst hobject
      rw [if_pos rfl]
      split
      · rename_i properties required hproperties hrequired
        simp only [bind_eq_ok, require_eq_ok, exists_const, forM_eq_ok, List.mem_attach,
          forall_const, Subtype.forall, List.all_eq_true, isDeclared_iff, Bool.and_eq_true,
          bne_iff_ne, beq_iff_eq, getD_eq_false, Bool.not_eq_true', Option.isSome_eq_false_iff,
          Option.isNone_iff_eq_none]
        constructor
        · rintro ⟨⟨hp, hr⟩, hnames, ⟨⟨hadditional, hunevaluated⟩, hpattern⟩, hchildren⟩
          exact .inl ⟨rfl, properties, required, hproperties, hrequired, hp, hr, hnames, hadditional,
            hunevaluated, hpattern, hchildren⟩
        · rintro (⟨-, _, _, hproperties', hrequired', hp, hr, hnames, hadditional, hunevaluated,
            hpattern, hchildren⟩ | ⟨heq, -⟩ | hmem)
          · obtain rfl : properties = _ := by simpa using hproperties.symm.trans hproperties'
            obtain rfl : required = _ := by simpa using hrequired.symm.trans hrequired'
            exact ⟨⟨hp, hr⟩, hnames, ⟨⟨hadditional, hunevaluated⟩, hpattern⟩, hchildren⟩
          · exact absurd heq (by decide)
          · exact absurd hmem (by decide)
      · rename_i hnone
        constructor
        · simp
        · rintro (⟨-, properties, required, hproperties, hrequired, -⟩ | ⟨heq, -⟩ | hmem)
          · exact absurd hrequired (hnone properties required hproperties)
          · exact absurd heq (by decide)
          · exact absurd hmem (by decide)
    · rw [if_neg hobject]
      by_cases harray : name = "array"
      · subst harray
        rw [if_pos rfl]
        split
        · rename_i items maxItems hitems hmax
          simp only [bind_eq_ok, require_eq_ok, exists_const, Bool.and_eq_true, bne_iff_ne,
            decide_eq_true_eq]
          constructor
          · rintro ⟨⟨hne, hpos⟩, hclosed⟩
            exact .inr (.inl ⟨rfl, items, maxItems, hitems, hmax, hne, hpos, hclosed⟩)
          · rintro (⟨heq, -⟩ | ⟨-, _, _, hitems', hmax', hne, hpos, hclosed⟩ | hmem)
            · exact absurd heq (by decide)
            · obtain rfl : items = _ := by simpa using hitems.symm.trans hitems'
              obtain rfl : maxItems = _ := by simpa using hmax.symm.trans hmax'
              exact ⟨⟨hne, hpos⟩, hclosed⟩
            · exact absurd hmem (by decide)
        · rename_i hnone
          constructor
          · simp
          · rintro (⟨heq, -⟩ | ⟨-, items, maxItems, hitems, hmax, -⟩ | hmem)
            · exact absurd heq (by decide)
            · exact absurd hmax (hnone items maxItems hitems)
            · exact absurd hmem (by decide)
      · rw [if_neg harray]
        simp [ServiceTested, hobject, harray]
  · rename_i hne
    constructor
    · simp
    · rintro ⟨name, hname, -⟩
      exact absurd hname (hne name)

lemma text_int_ne_zero {value : Int} (h : 0 ≤ value) :
    text t (.int value) ≠ some "0" ↔ 1 ≤ value := by
  have hzero : toString value = "0" ↔ value = 0 := by
    constructor
    · intro htext
      have hvalue := value_toString h
      rw [htext] at hvalue
      have : Numerals.value "0".toList = 0 := by decide
      omega
    · rintro rfl
      rfl
  rw [text, ne_eq, Option.some.injEq, hzero]
  omega

/-- A schema of the service's check is admitted and explicit. -/
lemma admitted_of_tested (hne : ∃ fields, fields ≠ [] ∧ value = .obj fields)
    (hplain : ∀ key ∈ combinators, value.get? key = none)
    (hcounts : ∀ keyword ∈ constrainedIntegerKeywords, ∀ count, value.get? keyword = some count →
      isCount count = true) (hname : value.get? "type" = some (.str name))
    (hroot : root = true → name = "object") (htested : ServiceTested value name) :
    Admitted t value root ∧ Explicit value := by
  have hsimple : ∀ name ∈ ["string", "integer", "boolean", "null"],
      name ∈ schemaTypes ∧ name ≠ "object" ∧ name ≠ "array" := by decide
  have hexplicit : ∀ keyword ∈ constrainedIntegerKeywords, ∀ text,
      value.get? keyword ≠ some (.float text) := fun keyword hkeyword text hfloat =>
    absurd (hcounts keyword hkeyword _ hfloat) (by simp [isCount])
  have hsame : ∀ {other}, value.get? "type" = some (.str other) → other = name := by
    intro other hother
    simpa using hother.symm.trans hname
  obtain ⟨rfl, properties, required, hproperties, hrequired, hp, hr, hnames, hadditional,
    hunevaluated, hpattern, -⟩ | ⟨rfl, items, maxItems, hitems, hmax, hne', hpos, -⟩ | hmem := htested
  · refine ⟨⟨hne, hplain, fun keyword hkeyword count hcount => .inl (hcounts keyword hkeyword count
      hcount), ⟨_, by decide, hname, hroot⟩, fun _ => ⟨?_, ?_, ?_, hunevaluated, hpattern⟩,
      fun harray => absurd (hsame harray) (by decide)⟩, hexplicit, fun _ => ⟨⟨_, hproperties⟩,
      ⟨_, hadditional⟩, _, hrequired, ?_⟩⟩
    · intro found hfound
      exact ⟨properties, hp, Option.some.inj (hfound.symm.trans hproperties)⟩
    · intro found hfound
      refine ⟨required, hr, Option.some.inj (hfound.symm.trans hrequired), ?_⟩
      intro entry hentry key hkey fields hfields
      obtain ⟨declared, hdeclared, rfl⟩ := hnames entry hentry
      obtain rfl : declared = key := Option.some.inj hkey
      obtain rfl : properties = fields := by simpa using hproperties.symm.trans hfields
      exact hdeclared
    · intro found hfound
      exact Option.some.inj (hfound.symm.trans hadditional)
    · rintro names ⟨⟩ entry hentry
      obtain ⟨key, -, hkey⟩ := hnames entry hentry
      exact ⟨key, hkey⟩
  · refine ⟨⟨hne, hplain, fun keyword hkeyword count hcount => .inl (hcounts keyword hkeyword count
      hcount), ⟨_, by decide, hname, hroot⟩, fun hobject => absurd (hsame hobject) (by decide),
      fun _ => ⟨⟨items, hne', hitems⟩, _, hmax, (text_int_ne_zero (by omega)).2 hpos⟩⟩, hexplicit,
      fun hobject => absurd (hsame hobject) (by decide)⟩
  · obtain ⟨htype, hobject, harray⟩ := hsimple name hmem
    exact ⟨⟨hne, hplain, fun keyword hkeyword count hcount => .inl (hcounts keyword hkeyword count
      hcount), ⟨name, htype, hname, hroot⟩, fun h => absurd (hsame h).symm hobject,
      fun h => absurd (hsame h).symm harray⟩, hexplicit, fun h => absurd (hsame h).symm hobject⟩

lemma isCount_of_explicit (h : Admitted t value root) (hexplicit : Explicit value)
    {keyword : String} (hkeyword : keyword ∈ constrainedIntegerKeywords) {count : Json}
    (hcount : value.get? keyword = some count) : isCount count = true := by
  obtain hcount' | ⟨text, rfl, -⟩ := h.counts keyword hkeyword count hcount
  · exact hcount'
  · exact absurd hcount (hexplicit.counts keyword hkeyword text)

lemma tested_of_admitted (h : Admitted t value root) (hexplicit : Explicit value)
    (hchildren : ∀ child, SchemaChild value child → requireClosedObjectSchemas child false = .ok ())
    (hmem : name ∈ schemaTypes) (hname : value.get? "type" = some (.str name)) :
    ServiceTested value name := by
  have hcases : name = "object" ∨ name = "array" ∨
      name ∈ ["string", "integer", "boolean", "null"] := by
    simpa [schemaTypes] using hmem
  obtain rfl | rfl | hsimple := hcases
  · have hadmitted := h.object hname
    obtain ⟨hadditional, properties, hproperties, required, hrequired, hnames⟩ :=
      closedObject_of_explicit hadmitted hexplicit hname
    obtain ⟨_, hp, heq⟩ := hadmitted.properties _ hproperties
    obtain rfl : properties = _ := by simpa using heq
    obtain ⟨_, hr, heq, -⟩ := hadmitted.required _ hrequired
    obtain rfl : required = _ := by simpa using heq
    exact .inl ⟨rfl, properties, required, hproperties, hrequired, hp, hr, hnames, hadditional,
      hadmitted.unevaluated, hadmitted.pattern, fun child hchild =>
        hchildren child (.inl ⟨hname, properties, hproperties, hchild⟩)⟩
  · obtain ⟨⟨items, hne, hitems⟩, count, hmax, hzero⟩ := h.array hname
    have hcount := isCount_of_explicit h hexplicit (by decide) hmax
    cases count with
    | int maxItems =>
        have hpos : 0 ≤ maxItems := by
          rw [isCount, Bool.and_eq_true, decide_eq_true_eq] at hcount
          exact hcount.1
        exact .inr (.inl ⟨rfl, items, maxItems, hitems, hmax, hne, (text_int_ne_zero hpos).1 hzero,
          hchildren _ (.inr ⟨hname, hitems⟩)⟩)
    | _ => simp [isCount] at hcount
  · exact .inr (.inr hsimple)

variable (t) in
/-- The check tests a schema and goes on to its children. -/
lemma requireClosedObjectSchemas_step (value : Json) (root : Bool) :
    requireClosedObjectSchemas value root = .ok () ↔ (Admitted t value root ∧ Explicit value) ∧
      ∀ child, SchemaChild value child → requireClosedObjectSchemas child false = .ok () := by
  rw [requireClosedObjectSchemas_iff]
  constructor
  · rintro ⟨⟨hne, hplain⟩, hcounts, name, hname, hroot, htested⟩
    refine ⟨admitted_of_tested hne hplain hcounts hname hroot htested, ?_⟩
    have hsame : ∀ {other}, value.get? "type" = some (.str other) → other = name := by
      intro other hother
      simpa using hother.symm.trans hname
    rintro child (⟨hobject, fields, hfields, hchild⟩ | ⟨harray, hchild⟩)
    · obtain ⟨-, properties, _, hproperties, -, -, -, -, -, -, -, hall⟩ | ⟨heq, -⟩ | hmem := htested
      · obtain rfl : properties = fields := by simpa using hproperties.symm.trans hfields
        exact hall child hchild
      · exact absurd ((hsame hobject).trans heq) (by decide)
      · rw [← hsame hobject] at hmem
        exact absurd hmem (by decide)
    · obtain ⟨heq, -⟩ | ⟨-, items, _, hitems, -, -, -, hclosed⟩ | hmem := htested
      · exact absurd ((hsame harray).trans heq) (by decide)
      · rw [← Option.some.inj (hitems.symm.trans hchild)]
        exact hclosed
      · rw [← hsame harray] at hmem
        exact absurd hmem (by decide)
  · rintro ⟨⟨hadmitted, hexplicit⟩, hchildren⟩
    obtain ⟨name, hmem, hname, hroot⟩ := hadmitted.type
    exact ⟨⟨hadmitted.nonempty, hadmitted.plain⟩,
      fun keyword hkeyword count hcount => isCount_of_explicit hadmitted hexplicit hkeyword hcount,
      name, hname, hroot, tested_of_admitted hadmitted hexplicit hchildren hmem hname⟩

variable (t) in
/-- The service's check accepts a value exactly where every schema in it is admitted and
explicit. -/
theorem requireClosedObjectSchemas_eq_ok (value : Json) (root : Bool) :
    requireClosedObjectSchemas value root = .ok () ↔
      ∀ schema isRoot, Subschema value root schema isRoot →
        Admitted t schema isRoot ∧ Explicit schema :=
  forall_subschema_iff (C := fun value root => requireClosedObjectSchemas value root = .ok ())
    (requireClosedObjectSchemas_step t) value root

/-! ## Where they agree -/

/-- The database function accepts what the service's check does, and then every object schema
in the value is closed. -/
def SchemaChecksAgree (t : JsonbText) (value : Json) (root : Bool) : Prop :=
  (createSchemaIsClosed t (some value) root = some true ↔
      requireClosedObjectSchemas value root = .ok ()) ∧
    (createSchemaIsClosed t (some value) root = some true →
      ∀ schema isRoot, Subschema value root schema isRoot →
        schema.get? "type" = some (.str "object") → ClosedObject schema)

/-- The two checks agree on a value exactly where some schema in it is not admitted, or every
schema in it is explicit. -/
theorem schema_checks_agree_iff (t : JsonbText) (value : Json) (root : Bool) :
    SchemaChecksAgree t value root ↔
      (∃ schema isRoot, Subschema value root schema isRoot ∧ ¬ Admitted t schema isRoot) ∨
        ∀ schema isRoot, Subschema value root schema isRoot → Explicit schema := by
  rw [SchemaChecksAgree, createSchemaIsClosed_iff, requireClosedObjectSchemas_eq_ok t]
  constructor
  · rintro ⟨hiff, -⟩
    by_cases hadmitted : ∀ schema isRoot, Subschema value root schema isRoot →
        Admitted t schema isRoot
    · exact .inr fun schema isRoot hschema => (hiff.1 hadmitted schema isRoot hschema).2
    · simp only [not_forall, exists_prop] at hadmitted
      exact .inl hadmitted
  · rintro (⟨schema, isRoot, hschema, hnot⟩ | hexplicit)
    · exact ⟨⟨fun h => absurd (h schema isRoot hschema) hnot,
        fun h => absurd (h schema isRoot hschema).1 hnot⟩,
        fun h => absurd (h schema isRoot hschema) hnot⟩
    · refine ⟨⟨fun h schema isRoot hschema => ⟨h schema isRoot hschema, hexplicit schema isRoot
        hschema⟩, fun h schema isRoot hschema => (h schema isRoot hschema).1⟩, ?_⟩
      intro h schema isRoot hschema htype
      exact closedObject_of_explicit ((h schema isRoot hschema).object htype)
        (hexplicit schema isRoot hschema) htype

/-- A printer of the values that the schema below does not have. -/
def bareText : JsonbText where
  number text := String.ofList (text.toList.filter fun c => c.isDigit || c == '-' || c == '.')
  items _ := "[]"
  fields _ := "\x7b\x7d"
  number_plain text := by
    rw [String.toList_ofList, List.all_eq_true]
    exact fun c hc => (List.mem_filter.1 hc).2
  items_bracket _ := by decide
  fields_brace _ := by decide

/-- An object schema that says nothing of its properties. -/
def openSchema : Json :=
  .obj [("type", .str "object")]

/-- The database function takes the open schema for a closed one; the service does not. -/
theorem open_schema_accepted :
    createSchemaIsClosed bareText (some openSchema) true = some true ∧
      requireClosedObjectSchemas openSchema true = .error "capability_unavailable" ∧
      ¬ SchemaChecksAgree bareText openSchema true := by
  have hmissing : ∀ {key : String}, openSchema.get? key = none → ∀ {P : Json → Prop},
      ∀ found, openSchema.get? key = some found → P found := by
    intro key hnone P found hfound
    rw [hnone] at hfound
    cases hfound
  have hcounts : ∀ keyword ∈ constrainedIntegerKeywords, openSchema.get? keyword = none := by decide
  have hclosed : createSchemaIsClosed bareText (some openSchema) true = some true := by
    refine (createSchemaIsClosed_obj _ _).2 ⟨⟨by decide, by decide⟩, ?_, "object", rfl,
      fun _ => rfl, .inl ⟨rfl, ⟨hmissing rfl, hmissing rfl, hmissing rfl, hmissing rfl, rfl⟩, ?_⟩⟩
    · exact fun keyword hkeyword => hmissing (hcounts keyword hkeyword)
    · exact fun fields hfields => hmissing (P := fun _ => _) rfl _ hfields
  have hrejected : requireClosedObjectSchemas openSchema true = .error "capability_unavailable" := by
    rw [requireClosedObjectSchemas]
    rfl
  refine ⟨hclosed, hrejected, fun h => ?_⟩
  have := h.1.1 hclosed
  rw [hrejected] at this
  cases this

end

end Hosted
end MercuryTools
