import Mathlib.Data.List.Basic
import Mathlib.Tactic.Common

/-!
# JSON values

The values of `json.loads`: objects keep their keys in insertion order.  A finite float is the
text that prints it, which is what a round trip through JSON preserves.
-/

inductive Json where
  | null
  | bool (value : Bool)
  | int (value : Int)
  | float (text : String)
  | str (value : String)
  | arr (items : List Json)
  | obj (fields : List (String × Json))
  deriving Repr

namespace Json

/-- `value.get(key)` on an object. -/
def get? : Json → String → Option Json
  | .obj fields, key => fields.lookup key
  | _, _ => none

/-- `value.get(key, default)`. -/
def getD (value : Json) (key : String) (default : Json) : Json :=
  (value.get? key).getD default

def isObj : Json → Bool
  | .obj _ => true
  | _ => false

/-- The keys of an object. -/
def keys : Json → List String
  | .obj fields => fields.map (·.1)
  | _ => []

/-! ## Equality -/

mutual

/-- Equality of values, decided. -/
def decEq : (x y : Json) → Decidable (x = y)
  | .null, .null => isTrue rfl
  | .bool a, .bool b => decidable_of_iff (a = b) (by simp)
  | .int a, .int b => decidable_of_iff (a = b) (by simp)
  | .float a, .float b => decidable_of_iff (a = b) (by simp)
  | .str a, .str b => decidable_of_iff (a = b) (by simp)
  | .arr xs, .arr ys =>
      have := decEqItems xs ys
      decidable_of_iff (xs = ys) (by simp)
  | .obj xs, .obj ys =>
      have := decEqFields xs ys
      decidable_of_iff (xs = ys) (by simp)
  | .null, .bool _ | .null, .int _ | .null, .float _ | .null, .str _ | .null, .arr _
  | .null, .obj _ | .bool _, .null | .bool _, .int _ | .bool _, .float _ | .bool _, .str _
  | .bool _, .arr _ | .bool _, .obj _ | .int _, .null | .int _, .bool _ | .int _, .float _
  | .int _, .str _ | .int _, .arr _ | .int _, .obj _ | .float _, .null | .float _, .bool _
  | .float _, .int _ | .float _, .str _ | .float _, .arr _ | .float _, .obj _ | .str _, .null
  | .str _, .bool _ | .str _, .int _ | .str _, .float _ | .str _, .arr _ | .str _, .obj _
  | .arr _, .null | .arr _, .bool _ | .arr _, .int _ | .arr _, .float _ | .arr _, .str _
  | .arr _, .obj _ | .obj _, .null | .obj _, .bool _ | .obj _, .int _ | .obj _, .float _
  | .obj _, .str _ | .obj _, .arr _ => isFalse (by simp)

/-- Equality of the items of arrays, decided. -/
def decEqItems : (xs ys : List Json) → Decidable (xs = ys)
  | [], [] => isTrue rfl
  | [], _ :: _ | _ :: _, [] => isFalse (by simp)
  | x :: xs, y :: ys =>
      have := decEq x y
      have := decEqItems xs ys
      decidable_of_iff (x = y ∧ xs = ys) (by simp)

/-- Equality of the fields of objects, decided. -/
def decEqFields : (xs ys : List (String × Json)) → Decidable (xs = ys)
  | [], [] => isTrue rfl
  | [], _ :: _ | _ :: _, [] => isFalse (by simp)
  | (k, x) :: xs, (l, y) :: ys =>
      have := decEq x y
      have := decEqFields xs ys
      decidable_of_iff (k = l ∧ x = y ∧ xs = ys) (by simp [and_assoc])

end

instance : DecidableEq Json := decEq

/-! ## Induction over a value -/

/-- What holds of a value as soon as it holds of its items, or of the values of its fields, holds
of every value. -/
@[elab_as_elim]
theorem induction {motive : Json → Prop} (null : motive .null) (bool : ∀ b, motive (.bool b))
    (int : ∀ n, motive (.int n)) (float : ∀ text, motive (.float text))
    (str : ∀ text, motive (.str text))
    (arr : ∀ items, (∀ x ∈ items, motive x) → motive (.arr items))
    (obj : ∀ fields, (∀ field ∈ fields, motive field.2) → motive (.obj fields)) (value : Json) :
    motive value :=
  @Json.rec motive (fun items => ∀ x ∈ items, motive x)
    (fun fields => ∀ field ∈ fields, motive field.2) (fun field => motive field.2)
    null bool int float str (fun items h => arr items h) (fun fields h => obj fields h)
    (List.forall_mem_nil _) (fun _ _ hx hxs => List.forall_mem_cons.2 ⟨hx, hxs⟩)
    (List.forall_mem_nil _) (fun _ _ hf hfs => List.forall_mem_cons.2 ⟨hf, hfs⟩)
    (fun _ _ h => h) value

/-! ## What holds throughout a value -/

mutual

/-- The check holds of the value and of everything in it. -/
def all (p : Json → Bool) : Json → Bool
  | .arr items => p (.arr items) && allItems p items
  | .obj fields => p (.obj fields) && allFields p fields
  | value => p value

def allItems (p : Json → Bool) : List Json → Bool
  | [] => true
  | x :: xs => all p x && allItems p xs

def allFields (p : Json → Bool) : List (String × Json) → Bool
  | [] => true
  | (_, x) :: fields => all p x && allFields p fields

end

variable {p : Json → Bool}

variable {items : List Json} {fields : List (String × Json)} {value : Json}

lemma allItems_iff : allItems p items = true ↔ ∀ x ∈ items, x.all p = true := by
  induction items with
  | nil => simp [allItems]
  | cons x xs ih => simp [allItems, ih]

lemma allFields_iff : allFields p fields = true ↔ ∀ field ∈ fields, field.2.all p = true := by
  induction fields with
  | nil => simp [allFields]
  | cons field fields ih => simp [allFields, ih]

lemma all_arr :
    (Json.arr items).all p = true ↔ p (.arr items) = true ∧ ∀ x ∈ items, x.all p = true := by
  rw [all, Bool.and_eq_true, allItems_iff]

lemma all_obj : (Json.obj fields).all p = true ↔
    p (.obj fields) = true ∧ ∀ field ∈ fields, field.2.all p = true := by
  rw [all, Bool.and_eq_true, allFields_iff]

/-- A weaker check holds throughout, too. -/
lemma all_mono {q : Json → Bool} (hpq : ∀ x, p x = true → q x = true) (h : value.all p = true) :
    value.all q = true := by
  induction value using Json.induction with
  | arr items ih =>
      obtain ⟨hself, hitems⟩ := all_arr.1 h
      exact all_arr.2 ⟨hpq _ hself, fun x hx => ih x hx (hitems x hx)⟩
  | obj fields ih =>
      obtain ⟨hself, hfields⟩ := all_obj.1 h
      exact all_obj.2 ⟨hpq _ hself, fun field hfield => ih field hfield (hfields field hfield)⟩
  | _ => exact hpq _ h

/-- Objects list every key once. -/
def DistinctKeys (value : Json) : Prop :=
  value.all (fun v => decide v.keys.Nodup) = true

/-- The numbers are integers. -/
def IntegerNumbers (value : Json) : Prop :=
  value.all (fun
    | .float _ => false
    | _ => true) = true

/-- A character of a number. -/
def isNumberCharacter (c : Char) : Bool :=
  c.isDigit || c == '-' || c == '+' || c == '.' || c == 'e'

/-- The text of a finite float: a digit or a sign first, and a point or an exponent. -/
def isFloatText (text : String) : Bool :=
  text.toList.all isNumberCharacter && text.toList.any (fun c => c == '.' || c == 'e') &&
    match text.toList with
    | c :: _ => c.isDigit || c == '-'
    | [] => false

/-- The floats are written as floats. -/
def PlainNumbers (value : Json) : Prop :=
  value.all (fun
    | .float text => isFloatText text
    | _ => true) = true

lemma IntegerNumbers.plain (h : value.IntegerNumbers) : value.PlainNumbers := by
  induction value using Json.induction with
  | float text => cases h
  | arr items ih =>
      exact all_arr.2 ⟨rfl, fun x hx => ih x hx ((all_arr.1 h).2 x hx)⟩
  | obj fields ih =>
      exact all_obj.2 ⟨rfl, fun x hx => ih x hx ((all_obj.1 h).2 x hx)⟩
  | _ => rfl

/-! ## Equality up to the order of keys -/

/-- The same value: objects are compared as maps, without the order of their keys. -/
inductive Same : Json → Json → Prop
  | refl (value : Json) : Same value value
  | arr {xs ys : List Json} (items : List.Forall₂ Same xs ys) : Same (.arr xs) (.arr ys)
  | obj {xs ys zs : List (String × Json)} (order : xs.Perm zs)
      (keys : zs.map (·.1) = ys.map (·.1))
      (values : List.Forall₂ (fun x y => Same x.2 y.2) zs ys) : Same (.obj xs) (.obj ys)

end Json
