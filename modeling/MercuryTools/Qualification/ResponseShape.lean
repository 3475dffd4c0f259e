import Mathlib.Algebra.GroupWithZero.Nat
import Mathlib.Data.List.Sort
import Mathlib.Data.String.Basic
import MercuryTools.Framework.Json

/-!
# Shapes of responses

`extract_response_shape` and `_is_approved_public_response_shape` of
`qualification/response_shape.py`.  A shape is a JSON value: a scalar becomes the name of its type,
an object keeps its field names, and an array becomes an object with the fields `type` and `items`.

The shape says nothing about the scalars of a value (`extractResponseShape_eq_of_sameTypes`).  The
shape of an object with public field names is approved unless an object in it has just the fields
`type` and `items`, which the approval takes for an array (`lawfulShape_iff`).
-/

namespace MercuryTools.Qualification.ResponseShape

/-- `MAX_DEPTH` -/
def maxDepth : Nat := 6

/-- `MAX_FIELDS` -/
def maxFields : Nat := 128

/-- `MAX_PUBLIC_FIELD_NAME_LENGTH` -/
def maxPublicFieldNameLength : Nat := 64

/-- `_TYPE_DESCRIPTORS` -/
def typeDescriptors : List String :=
  ["boolean", "integer", "null", "number", "string", "truncated", "unknown"]

/-- `_PUBLIC_FORBIDDEN_FIELD_NAMES` -/
def publicForbiddenFieldNames : List String :=
  ["accesskey", "accesstoken", "apikey", "apisecret", "authorization", "authorizationheader",
    "authtoken", "authheader", "authenticationheader", "clientsecret", "cookie", "credential",
    "credentials", "idtoken", "password", "payload", "providerdocumentid", "providerid",
    "providerrecordid", "raw", "rawpayload", "rawresponse", "refreshtoken", "request",
    "requestbody", "response", "responsebody", "secret", "token"]

/-- `_PUBLIC_FORBIDDEN_FIELD_TOKENS` -/
def publicForbiddenFieldTokens : List String :=
  ["authorization", "auth", "authentication", "cookie", "credential", "credentials", "directory",
    "filepath", "filename", "folder", "header", "headers", "local", "password", "path", "payload",
    "raw", "request", "response", "secret", "source", "token"]

/-! ## Field names -/

def isUpper (c : Char) : Bool :=
  'A' ≤ c && c ≤ 'Z'

def isLower (c : Char) : Bool :=
  'a' ≤ c && c ≤ 'z'

def isDigit (c : Char) : Bool :=
  '0' ≤ c && c ≤ '9'

def isLetter (c : Char) : Bool :=
  isUpper c || isLower c

def isAlphanumeric (c : Char) : Bool :=
  isLetter c || isDigit c

/-- `str.lower` and `str.casefold` on letters of ASCII. -/
def lower (c : Char) : Char :=
  if isUpper c then Char.ofNat (c.toNat + 32) else c

/-- `[A-Za-z0-9]*(?:_[A-Za-z0-9]+)*$`: every underscore is followed by a letter or a digit. -/
def isFieldNameRest : List Char → Bool
  | [] => true
  | '_' :: c :: rest => isAlphanumeric c && isFieldNameRest rest
  | c :: rest => isAlphanumeric c && isFieldNameRest rest

/-- `_PUBLIC_FIELD_NAME` -/
def isFieldName : List Char → Bool
  | [] => false
  | c :: rest => isLetter c && isFieldNameRest rest

/-- `_PUBLIC_EMBEDDED_NUMERIC_ID`: six digits in a row. -/
def hasNumericId : List Char → Bool
  | [] => false
  | c :: rest => ((c :: rest).takeWhile isDigit).length ≥ 6 || hasNumericId rest

/-- `_CAMEL_ACRONYM_BOUNDARY.sub`: `([A-Z]+)([A-Z][a-z])` becomes `\1_\2`. -/
def separateAcronyms : List Char → List Char
  | [] => []
  | a :: rest =>
      match rest with
      | b :: c :: _ =>
          if isUpper a && isUpper b && isLower c then a :: '_' :: separateAcronyms rest
          else a :: separateAcronyms rest
      | _ => a :: separateAcronyms rest

/-- `_CAMEL_WORD_BOUNDARY.sub`: `([a-z0-9])([A-Z])` becomes `\1_\2`. -/
def separateWords : List Char → List Char
  | [] => []
  | a :: rest =>
      match rest with
      | b :: _ =>
          if (isLower a || isDigit a) && isUpper b then a :: '_' :: separateWords rest
          else a :: separateWords rest
      | [] => [a]

/-- `_public_field_name_tokens` -/
def publicFieldNameTokens (fieldName : String) : List String :=
  (((separateWords (separateAcronyms fieldName.toList)).splitOn '_').filter (· ≠ [])).map
    fun token => String.ofList (token.map lower)

/-- `_is_allowed_public_field_name` -/
def isAllowedPublicFieldName (fieldName : String) : Bool :=
  if fieldName.toList.length = 0 || fieldName.toList.length > maxPublicFieldNameLength ||
      !isFieldName fieldName.toList || hasNumericId fieldName.toList then false
  else
    let normalized := String.ofList ((fieldName.toList.map lower).filter isAlphanumeric)
    let tokens := publicFieldNameTokens fieldName
    !publicForbiddenFieldNames.contains normalized &&
      tokens.all (fun token => !publicForbiddenFieldTokens.contains token) &&
      !(tokens.contains "provider" && tokens.contains "id")

/-! ## Extraction -/

/-- `sorted(value, key=str)[:MAX_FIELDS]`, with the values. -/
def keptFields {α : Type} (fields : List (String × α)) : List (String × α) :=
  (fields.insertionSort fun x y => x.1 ≤ y.1).take maxFields

mutual

/-- `extract_response_shape` -/
def extractResponseShape (depth : Nat) : Json → Json
  | .obj fields =>
      if depth ≥ maxDepth then .str "truncated"
      else .obj (keptFields (extractFields (depth + 1) fields))
  | .arr items =>
      if depth ≥ maxDepth then .str "truncated"
      else .obj [("type", .str "array"), ("items", extractFirst (depth + 1) items)]
  | .null => .str (if depth ≥ maxDepth then "truncated" else "null")
  | .bool _ => .str (if depth ≥ maxDepth then "truncated" else "boolean")
  | .int _ => .str (if depth ≥ maxDepth then "truncated" else "integer")
  | .float _ => .str (if depth ≥ maxDepth then "truncated" else "number")
  | .str _ => .str (if depth ≥ maxDepth then "truncated" else "string")

/-- The first item of an array. -/
def extractFirst (depth : Nat) : List Json → Json
  | [] => .str "unknown"
  | x :: _ => extractResponseShape depth x

/-- The values of an object. -/
def extractFields (depth : Nat) : List (String × Json) → List (String × Json)
  | [] => []
  | (key, x) :: fields => (key, extractResponseShape depth x) :: extractFields depth fields

end

/-! ## Approval -/

/-- `set(value) == {"type", "items"}` -/
def isArrayShape {α : Type} (fields : List (String × α)) : Bool :=
  (fields.map (·.1)).all (["type", "items"].contains ·) && (fields.map (·.1)).contains "type" &&
    (fields.map (·.1)).contains "items"

mutual

/-- `_is_approved_public_response_shape`: the fields that remain, if the value is approved. -/
def approve (depth remaining : Nat) : Json → Option Nat
  | .str text =>
      if depth ≤ maxDepth && typeDescriptors.contains text then some remaining else none
  | .obj fields =>
      if depth ≥ maxDepth || fields.length > maxFields then none
      else if isArrayShape fields then
        if fields.lookup "type" = some (.str "array") then approveItems (depth + 1) remaining fields
        else none
      else approveFields (depth + 1) remaining fields
  | _ => none

/-- `value["items"]` -/
def approveItems (depth remaining : Nat) : List (String × Json) → Option Nat
  | [] => none
  | (key, x) :: fields =>
      if key = "items" then approve depth remaining x else approveItems depth remaining fields

/-- The loop over the fields. -/
def approveFields (depth remaining : Nat) : List (String × Json) → Option Nat
  | [] => some remaining
  | (key, x) :: fields =>
      match remaining with
      | 0 => none
      | remaining + 1 =>
          if isAllowedPublicFieldName key then
            match approve depth remaining x with
            | some remaining => approveFields depth remaining fields
            | none => none
          else none

end

/-- `_is_approved_public_response_shape` with its defaults. -/
def isApprovedPublicResponseShape (value : Json) : Bool :=
  (approve 0 maxFields value).isSome

/-! ## What the shape depends on -/

/-- Two values that differ only in scalars of the same type, and in the order of fields. -/
inductive SameTypes : Json → Json → Prop
  | null : SameTypes .null .null
  | bool (a b : Bool) : SameTypes (.bool a) (.bool b)
  | int (a b : Int) : SameTypes (.int a) (.int b)
  | float (a b : String) : SameTypes (.float a) (.float b)
  | str (a b : String) : SameTypes (.str a) (.str b)
  | arr {xs ys : List Json} (items : List.Forall₂ SameTypes xs ys) : SameTypes (.arr xs) (.arr ys)
  | obj {xs ys zs : List (String × Json)} (order : xs.Perm zs)
      (keys : zs.map (·.1) = ys.map (·.1))
      (values : List.Forall₂ (fun x y => SameTypes x.2 y.2) zs ys) : SameTypes (.obj xs) (.obj ys)

/-- The field names are public throughout. -/
def PublicNames (value : Json) : Prop :=
  value.all (fun v => v.keys.all isAllowedPublicFieldName) = true

mutual

/-- How many fields the shape of a value has. -/
def keptCount (depth : Nat) : Json → Nat
  | .obj fields =>
      if depth ≥ maxDepth then 0
      else ((keptFields (keptCounts (depth + 1) fields)).map fun field => field.2 + 1).sum
  | .arr items => if depth ≥ maxDepth then 0 else keptFirst (depth + 1) items
  | _ => 0

def keptFirst (depth : Nat) : List Json → Nat
  | [] => 0
  | x :: _ => keptCount depth x

def keptCounts (depth : Nat) : List (String × Json) → List (String × Nat)
  | [] => []
  | (key, x) :: fields => (key, keptCount depth x) :: keptCounts depth fields

end

mutual

/-- An object in the shape has the fields `type` and `items` and no others. -/
def resemblesArray (depth : Nat) : Json → Bool
  | .obj fields =>
      if depth ≥ maxDepth then false
      else isArrayShape (keptFields (resemblances (depth + 1) fields)) ||
        (keptFields (resemblances (depth + 1) fields)).any (·.2)
  | .arr items => if depth ≥ maxDepth then false else firstResembles (depth + 1) items
  | _ => false

def firstResembles (depth : Nat) : List Json → Bool
  | [] => false
  | x :: _ => resemblesArray depth x

def resemblances (depth : Nat) : List (String × Json) → List (String × Bool)
  | [] => []
  | (key, x) :: fields => (key, resemblesArray depth x) :: resemblances depth fields

end

section

variable {depth remaining : Nat} {fields : List (String × Json)} {items : List Json}

/-! ## Fields one by one -/

lemma extractFields_eq_map (depth : Nat) (fields : List (String × Json)) :
    extractFields depth fields = fields.map fun f => (f.1, extractResponseShape depth f.2) := by
  induction fields with
  | nil => rfl
  | cons field fields ih => rw [extractFields, ih, List.map_cons]

lemma keptCounts_eq_map (depth : Nat) (fields : List (String × Json)) :
    keptCounts depth fields = fields.map fun f => (f.1, keptCount depth f.2) := by
  induction fields with
  | nil => rfl
  | cons field fields ih => rw [keptCounts, ih, List.map_cons]

lemma resemblances_eq_map (depth : Nat) (fields : List (String × Json)) :
    resemblances depth fields = fields.map fun f => (f.1, resemblesArray depth f.2) := by
  induction fields with
  | nil => rfl
  | cons field fields ih => rw [resemblances, ih, List.map_cons]

variable {α β : Type} {value : Json}

/-- Fields are kept by their names. -/
lemma keptFields_map (f : α → β) (fields : List (String × α)) :
    keptFields (fields.map fun field => (field.1, f field.2)) =
      (keptFields fields).map fun field => (field.1, f field.2) := by
  unfold keptFields
  rw [List.map_take, List.map_insertionSort _ fun x y : String × β => x.1 ≤ y.1]
  exact fun _ _ _ _ => Iff.rfl

lemma mem_of_mem_keptFields {fields : List (String × α)} {field : String × α}
    (h : field ∈ keptFields fields) : field ∈ fields :=
  (List.mem_insertionSort _).1 (List.mem_of_mem_take h)

lemma length_keptFields_le (fields : List (String × α)) :
    (keptFields fields).length ≤ maxFields := by
  unfold keptFields
  rw [List.length_take]
  exact Nat.min_le_left _ _

lemma isArrayShape_map (f : α → β) (fields : List (String × α)) :
    isArrayShape (fields.map fun field => (field.1, f field.2)) = isArrayShape fields := by
  unfold isArrayShape
  rw [List.map_map]
  rfl

lemma extract_obj (hdepth : depth < maxDepth) : extractResponseShape depth (.obj fields) =
    .obj ((keptFields fields).map fun f => (f.1, extractResponseShape (depth + 1) f.2)) := by
  rw [extractResponseShape, if_neg (by omega), extractFields_eq_map, keptFields_map]

lemma keptCount_obj (hdepth : depth < maxDepth) : keptCount depth (.obj fields) =
    ((keptFields fields).map fun f => keptCount (depth + 1) f.2 + 1).sum := by
  rw [keptCount, if_neg (by omega), keptCounts_eq_map, keptFields_map, List.map_map]
  rfl

lemma resemblesArray_obj (hdepth : depth < maxDepth) : resemblesArray depth (.obj fields) =
    (isArrayShape (keptFields fields) ||
      (keptFields fields).any fun f => resemblesArray (depth + 1) f.2) := by
  rw [resemblesArray, if_neg (by omega), resemblances_eq_map, keptFields_map, isArrayShape_map,
    List.any_map]
  rfl

lemma extract_of_maxDepth_le (hdepth : maxDepth ≤ depth) (value : Json) :
    extractResponseShape depth value = .str "truncated" := by
  cases value <;> simp [extractResponseShape, hdepth]

/-! ## Approval of what is extracted -/

/-- The shape of a scalar, or of what is too deep. -/
lemma approve_str {text : String} (hdepth : depth ≤ maxDepth) (htext : text ∈ typeDescriptors) :
    approve depth remaining (.str text) = some remaining := by
  rw [approve, if_pos]
  rw [Bool.and_eq_true, decide_eq_true_eq, List.contains_iff_mem]
  exact ⟨hdepth, htext⟩

lemma extract_ne_array (depth : Nat) (value : Json) :
    extractResponseShape depth value ≠ .str "array" := by
  by_cases hdepth : maxDepth ≤ depth
  · rw [extract_of_maxDepth_le hdepth]
    simp
  · cases value <;> simp [extractResponseShape, hdepth]

/-- What a value leaves of the remaining fields, if its shape is approved. -/
def Approves (value : Json) : Prop :=
  ∀ depth remaining, depth ≤ maxDepth → approve depth remaining (extractResponseShape depth value) =
    if resemblesArray depth value = false ∧ keptCount depth value ≤ remaining then
      some (remaining - keptCount depth value)
    else none

lemma approveFields_map (h : ∀ field ∈ fields, Approves field.2)
    (hnames : ∀ field ∈ fields, isAllowedPublicFieldName field.1 = true)
    (hdepth : depth ≤ maxDepth) :
    approveFields depth remaining (fields.map fun f => (f.1, extractResponseShape depth f.2)) =
      if (fields.any fun f => resemblesArray depth f.2) = false ∧
          (fields.map fun f => keptCount depth f.2 + 1).sum ≤ remaining then
        some (remaining - (fields.map fun f => keptCount depth f.2 + 1).sum)
      else none := by
  induction fields generalizing remaining with
  | nil => simp [approveFields]
  | cons field fields ih =>
      obtain ⟨hfield, hfields⟩ := List.forall_mem_cons.1 h
      obtain ⟨hname, hrest⟩ := List.forall_mem_cons.1 hnames
      rw [List.map_cons, List.any_cons, List.map_cons, List.sum_cons]
      cases remaining with
      | zero =>
          rw [approveFields, if_neg (by omega)]
      | succ remaining =>
          rw [approveFields, if_pos hname, hfield depth remaining hdepth]
          cases hresembles : resemblesArray depth field.2 with
          | true => simp
          | false =>
              by_cases hcount : keptCount depth field.2 ≤ remaining
              · rw [if_pos ⟨rfl, hcount⟩]
                dsimp only
                rw [ih hfields hrest, Bool.false_or]
                by_cases hall : (fields.any fun f => resemblesArray depth f.2) = false ∧
                    (fields.map fun f => keptCount depth f.2 + 1).sum ≤
                      remaining - keptCount depth field.2
                · rw [if_pos hall, if_pos ⟨hall.1, by omega⟩]
                  congr 1
                  omega
                · rw [if_neg hall, if_neg fun hsum => hall ⟨hsum.1, by omega⟩]
              · rw [if_neg fun hleft => hcount hleft.2]
                dsimp only
                rw [if_neg fun hsum => hcount (by omega)]

lemma approves_obj (h : ∀ field ∈ fields, Approves field.2)
    (hnames : ∀ field ∈ fields, isAllowedPublicFieldName field.1 = true) :
    Approves (.obj fields) := by
  intro depth remaining hdepth
  by_cases hlt : depth < maxDepth
  · have hkept : ∀ field ∈ keptFields fields, field ∈ fields := fun _ => mem_of_mem_keptFields
    rw [extract_obj hlt, keptCount_obj hlt, resemblesArray_obj hlt, approve, if_neg ?_,
      isArrayShape_map]
    · cases hshape : isArrayShape (keptFields fields) with
      | true =>
          have htype : ((keptFields fields).map fun f =>
              (f.1, extractResponseShape (depth + 1) f.2)).lookup "type" ≠ some (.str "array") := by
            intro hlookup
            obtain ⟨before, after, heq, -⟩ := List.lookup_eq_some_iff.1 hlookup
            have hmem : ("type", Json.str "array") ∈ (keptFields fields).map fun f =>
                (f.1, extractResponseShape (depth + 1) f.2) := by
              rw [heq]
              exact List.mem_append_right _ List.mem_cons_self
            obtain ⟨f, -, hf⟩ := List.mem_map.1 hmem
            exact extract_ne_array _ _ (Prod.ext_iff.1 hf).2
          rw [if_pos rfl, if_neg htype, if_neg (by simp)]
      | false =>
          rw [if_neg Bool.false_ne_true, Bool.false_or]
          exact approveFields_map (fun field hfield => h field (hkept field hfield))
            (fun field hfield => hnames field (hkept field hfield)) hlt
    · have hlength := length_keptFields_le fields
      rw [List.length_map, Bool.or_eq_true, decide_eq_true_eq, decide_eq_true_eq]
      omega
  · have hge : maxDepth ≤ depth := by omega
    rw [extract_of_maxDepth_le hge, approve_str hdepth (by simp [typeDescriptors]), keptCount,
      resemblesArray, if_pos hge, if_pos hge, if_pos ⟨rfl, Nat.zero_le _⟩, Nat.sub_zero]

lemma approves_arr (h : ∀ x ∈ items, Approves x) : Approves (.arr items) := by
  intro depth remaining hdepth
  by_cases hlt : depth < maxDepth
  · have hnot : ¬ maxDepth ≤ depth := by omega
    have happrove : approve depth remaining (extractResponseShape depth (.arr items)) =
        approve (depth + 1) remaining (extractFirst (depth + 1) items) := by
      rw [extractResponseShape, if_neg hnot, approve, if_neg]
      · have harray : isArrayShape [("type", Json.str "array"),
            ("items", extractFirst (depth + 1) items)] = true := rfl
        have hlookup : [("type", Json.str "array"), ("items", extractFirst (depth + 1) items)].lookup
            "type" = some (.str "array") := List.lookup_cons_self
        rw [if_pos harray, if_pos hlookup, approveItems, if_neg (by decide), approveItems,
          if_pos rfl]
      · simp [hnot, maxFields]
    rw [happrove, keptCount, resemblesArray, if_neg hnot, if_neg hnot]
    cases items with
    | nil =>
        rw [extractFirst, approve_str hlt (by simp [typeDescriptors]), keptFirst, firstResembles,
          if_pos ⟨rfl, Nat.zero_le _⟩, Nat.sub_zero]
    | cons x items =>
        rw [extractFirst, keptFirst, firstResembles]
        exact h x List.mem_cons_self _ _ hlt
  · have hge : maxDepth ≤ depth := by omega
    rw [extract_of_maxDepth_le hge, approve_str hdepth (by simp [typeDescriptors]), keptCount,
      resemblesArray, if_pos hge, if_pos hge, if_pos ⟨rfl, Nat.zero_le _⟩, Nat.sub_zero]

lemma approves_scalar (text : String) (htext : text ∈ typeDescriptors)
    (hshape : ∀ depth, extractResponseShape depth value =
      .str (if depth ≥ maxDepth then "truncated" else text))
    (hcount : ∀ depth, keptCount depth value = 0)
    (hresembles : ∀ depth, resemblesArray depth value = false) : Approves value := by
  intro depth remaining hdepth
  have hdescriptor : (if depth ≥ maxDepth then "truncated" else text) ∈ typeDescriptors := by
    split
    · simp [typeDescriptors]
    · exact htext
  rw [hshape, approve_str hdepth hdescriptor, hcount, hresembles, if_pos ⟨rfl, Nat.zero_le _⟩,
    Nat.sub_zero]

/-- The shape of a value with public names. -/
lemma approves_of_publicNames (h : PublicNames value) : Approves value := by
  induction value using Json.induction with
  | null =>
      refine approves_scalar "null" ?_ (fun depth => ?_) (fun depth => ?_) fun depth => ?_
      · simp [typeDescriptors]
      · rw [extractResponseShape]
      · simp [keptCount]
      · simp [resemblesArray]
  | bool b =>
      refine approves_scalar "boolean" ?_ (fun depth => ?_) (fun depth => ?_) fun depth => ?_
      · simp [typeDescriptors]
      · rw [extractResponseShape]
      · simp [keptCount]
      · simp [resemblesArray]
  | int n =>
      refine approves_scalar "integer" ?_ (fun depth => ?_) (fun depth => ?_) fun depth => ?_
      · simp [typeDescriptors]
      · rw [extractResponseShape]
      · simp [keptCount]
      · simp [resemblesArray]
  | float text =>
      refine approves_scalar "number" ?_ (fun depth => ?_) (fun depth => ?_) fun depth => ?_
      · simp [typeDescriptors]
      · rw [extractResponseShape]
      · simp [keptCount]
      · simp [resemblesArray]
  | str text =>
      refine approves_scalar "string" ?_ (fun depth => ?_) (fun depth => ?_) fun depth => ?_
      · simp [typeDescriptors]
      · rw [extractResponseShape]
      · simp [keptCount]
      · simp [resemblesArray]
  | arr items ih => exact approves_arr fun x hx => ih x hx ((Json.all_arr.1 h).2 x hx)
  | obj fields ih =>
      obtain ⟨hkeys, hfields⟩ := Json.all_obj.1 h
      refine approves_obj (fun field hfield => ih field hfield (hfields field hfield)) ?_
      exact fun field hfield =>
        List.all_eq_true.1 hkeys field.1 (List.mem_map_of_mem hfield)

/-! ## The shape and the scalars -/

/-- Fields with distinct names are kept in one order. -/
lemma keptFields_perm {xs ys : List (String × α)} (h : xs.Perm ys) (hnodup : (xs.map (·.1)).Nodup) :
    keptFields xs = keptFields ys := by
  have hsorted : xs.insertionSort (fun x y => x.1 ≤ y.1) =
      ys.insertionSort (fun x y => x.1 ≤ y.1) := by
    have : Std.Total fun x y : String × α => x.1 ≤ y.1 := ⟨fun x y => le_total x.1 y.1⟩
    have : IsTrans (String × α) fun x y => x.1 ≤ y.1 := ⟨fun _ _ _ => le_trans⟩
    refine List.Perm.eq_of_pairwise ?_ (List.pairwise_insertionSort _ _)
      (List.pairwise_insertionSort _ _)
      (((List.perm_insertionSort _ _).trans h).trans (List.perm_insertionSort _ _).symm)
    intro x y hx hy hxy hyx
    have hx' := (List.mem_insertionSort _).1 hx
    have hy' := h.mem_iff.2 ((List.mem_insertionSort _).1 hy)
    exact List.inj_on_of_nodup_map hnodup hx' hy' (le_antisymm hxy hyx)
  unfold keptFields
  rw [hsorted]

/-- Values that differ only in scalars of the same type have the same shape. -/
theorem extractResponseShape_eq_of_sameTypes (hdistinct : value.DistinctKeys) {value' : Json}
    (h : SameTypes value value') (depth : Nat) :
    extractResponseShape depth value = extractResponseShape depth value' := by
  induction value using Json.induction generalizing value' depth with
  | null =>
      cases h
      rfl
  | bool b =>
      cases h
      rfl
  | int n =>
      cases h
      rfl
  | float text =>
      cases h
      rfl
  | str text =>
      cases h
      rfl
  | arr items ih =>
      cases h with
      | arr hitems =>
          rw [extractResponseShape, extractResponseShape]
          cases hitems with
          | nil => rfl
          | cons hfirst hrest =>
              rw [extractFirst, extractFirst,
                ih _ List.mem_cons_self ((Json.all_arr.1 hdistinct).2 _ List.mem_cons_self) hfirst]
  | obj fields ih =>
      cases h with
      | @obj _ ys zs horder hkeys hvalues =>
          obtain ⟨hnodup, hfields⟩ := Json.all_obj.1 hdistinct
          by_cases hdepth : depth < maxDepth
          · -- the fields in the other order, one by one
            have hmap : ∀ zs ys : List (String × Json), zs ⊆ fields → zs.map (·.1) = ys.map (·.1) →
                List.Forall₂ (fun x y => SameTypes x.2 y.2) zs ys →
                zs.map (fun f => (f.1, extractResponseShape (depth + 1) f.2)) =
                  ys.map fun f => (f.1, extractResponseShape (depth + 1) f.2) := by
              intro zs ys hsub hkeys hvalues
              induction hvalues with
              | nil => rfl
              | cons hvalue _ ihvalues =>
                  obtain ⟨hmem, hsub⟩ := List.cons_subset.1 hsub
                  rw [List.map_cons, List.map_cons, List.cons.injEq] at hkeys
                  rw [List.map_cons, List.map_cons, ihvalues hsub hkeys.2, hkeys.1,
                    ih _ hmem (hfields _ hmem) hvalue]
            have hsub : zs ⊆ fields := fun f hf => horder.mem_iff.2 hf
            rw [extractResponseShape, extractResponseShape, if_neg (by omega), if_neg (by omega),
              extractFields_eq_map, extractFields_eq_map, ← hmap zs ys hsub hkeys hvalues]
            refine congrArg Json.obj (keptFields_perm (horder.map _) ?_)
            rw [List.map_map]
            exact of_decide_eq_true hnodup
          · rw [extract_of_maxDepth_le (by omega), extract_of_maxDepth_le (by omega)]

end

/-- The law of the extraction: the shape says nothing about the scalars, and the shape of an object
with public names and at most 128 kept fields is approved. -/
def LawfulShape (value : Json) : Prop :=
  (∀ value', SameTypes value value' →
    extractResponseShape 0 value = extractResponseShape 0 value') ∧
  (value.isObj = true → PublicNames value → keptCount 0 value ≤ maxFields →
    isApprovedPublicResponseShape (extractResponseShape 0 value) = true)

/-- The law holds exactly of the values in whose shape no object has just the fields `type` and
`items`, or which need not be approved. -/
theorem lawfulShape_iff {value : Json} (hdistinct : value.DistinctKeys) : LawfulShape value ↔
    (value.isObj = true → PublicNames value → keptCount 0 value ≤ maxFields →
      resemblesArray 0 value = false) := by
  have happroved : PublicNames value → keptCount 0 value ≤ maxFields →
      (isApprovedPublicResponseShape (extractResponseShape 0 value) = true ↔
        resemblesArray 0 value = false) := by
    intro hnames hcount
    unfold isApprovedPublicResponseShape
    rw [approves_of_publicNames hnames 0 maxFields (Nat.zero_le _)]
    by_cases hresembles : resemblesArray 0 value = false
    · rw [if_pos ⟨hresembles, hcount⟩]
      exact ⟨fun _ => hresembles, fun _ => rfl⟩
    · rw [if_neg fun h => hresembles h.1]
      exact ⟨nofun, fun h => absurd h hresembles⟩
  constructor
  · intro h hobj hnames hcount
    exact (happroved hnames hcount).1 (h.2 hobj hnames hcount)
  · intro h
    refine ⟨fun value' hsame => extractResponseShape_eq_of_sameTypes hdistinct hsame 0, ?_⟩
    intro hobj hnames hcount
    exact (happroved hnames hcount).2 (h hobj hnames hcount)

/-- An invoice with its lines. -/
def invoice : Json :=
  .obj [("number", .str "INV-1"), ("items", .arr [.obj [("quantity", .int 1)]])]

theorem lawfulShape_invoice : LawfulShape invoice :=
  (lawfulShape_iff (by unfold Json.DistinctKeys; decide)).2 fun _ _ _ => by decide

/-- A document with a type and its items is taken for an array. -/
theorem not_lawfulShape_typeAndItems :
    ¬ LawfulShape (.obj [("type", .str "invoice"), ("items", .arr [])]) := by
  intro h
  have hnames : PublicNames (.obj [("type", .str "invoice"), ("items", .arr [])]) := by
    unfold PublicNames
    decide
  exact absurd (h.2 rfl hnames (by decide)) (by decide)

end MercuryTools.Qualification.ResponseShape
