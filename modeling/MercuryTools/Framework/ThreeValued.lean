import Mathlib.Data.List.Basic
import Mathlib.Tactic.Common

/-!
# Three-valued logic

The truth values of SQL: `some b` is known, `none` is `NULL`.  A comparison with `NULL` is `NULL`,
the connectives are those of strong Kleene logic, and a condition is met only where it is known
to be true.  The `some` lemmas reduce what is known to `Bool`.
-/

abbrev Truth := Option Bool

namespace Truth

def not : Truth → Truth
  | some b => some (!b)
  | none => none

def and : Truth → Truth → Truth
  | some false, _ => some false
  | _, some false => some false
  | some true, some true => some true
  | _, _ => none

def or : Truth → Truth → Truth
  | some true, _ => some true
  | _, some true => some true
  | some false, some false => some false
  | _, _ => none

/-- A disjunction of any number of conditions. -/
def orAll (ts : List Truth) : Truth :=
  ts.foldr or (some false)

/-- Whether a branch on the condition is taken. -/
def isTrue (t : Truth) : Bool :=
  t == some true

variable {α : Type} [DecidableEq α]

/-- `x = y`. -/
def eq : Option α → Option α → Truth
  | some x, some y => some (x == y)
  | _, _ => none

/-- `x <> y`. -/
def ne (x y : Option α) : Truth :=
  (eq x y).not

/-- `x in (...)`, for a list of constants. -/
def isIn (x : Option α) (ys : List α) : Truth :=
  x.map (· ∈ ys)

/-- `x = any(ys)`. -/
def eqAny (x : α) : Option (List (Option α)) → Truth
  | none => none
  | some ys => ys.foldr (fun y t => (eq (some x) y).or t) (some false)

/-- `x is null`. -/
def isNull {β : Type} (x : Option β) : Truth :=
  some x.isNone

/-- `x is not null`. -/
def isNotNull {β : Type} (x : Option β) : Truth :=
  some x.isSome

/-- `x is distinct from y`, where `NULL` is a value like any other. -/
def isDistinct (x y : Option α) : Truth :=
  some (x != y)

/-- A test of one value. -/
def test {β : Type} (p : β → Bool) (x : Option β) : Truth :=
  x.map p

/-- A comparison of two values. -/
def compare {β γ : Type} (p : β → γ → Bool) : Option β → Option γ → Truth
  | some x, some y => some (p x y)
  | _, _ => none

/-- A conjunction of any number of conditions. -/
def andAll (ts : List Truth) : Truth :=
  ts.foldr and (some true)

@[simp] lemma not_some (b : Bool) : Truth.not (some b) = some (!b) := rfl

@[simp] lemma not_none : Truth.not none = none := rfl

@[simp] lemma and_some (a b : Bool) : Truth.and (some a) (some b) = some (a && b) := by
  cases a <;> cases b <;> rfl

@[simp] lemma or_some (a b : Bool) : Truth.or (some a) (some b) = some (a || b) := by
  cases a <;> cases b <;> rfl

@[simp] lemma false_and (t : Truth) : Truth.and (some false) t = some false := rfl

@[simp] lemma true_or (t : Truth) : Truth.or (some true) t = some true := rfl

@[simp] lemma isTrue_some (b : Bool) : isTrue (some b) = b := by
  cases b <;> rfl

@[simp] lemma isTrue_none : isTrue none = false := rfl

@[simp] lemma eq_some (x y : α) : eq (some x) (some y) = some (x == y) := rfl

@[simp] lemma ne_some (x y : α) : ne (some x) (some y) = some (x != y) := rfl

@[simp] lemma eq_none (y : Option α) : eq none y = none := by
  cases y <;> rfl

@[simp] lemma ne_none (y : Option α) : ne none y = none := by
  simp [ne]

@[simp] lemma isIn_some (x : α) (ys : List α) : isIn (some x) ys = some (decide (x ∈ ys)) := rfl

@[simp] lemma eqAny_some (x : α) (ys : List α) :
    eqAny x (some (ys.map some)) = some (ys.any (x == ·)) := by
  induction ys with
  | nil => rfl
  | cons y ys ih =>
      have hcons : eqAny x (some ((y :: ys).map some)) =
          (eq (some x) (some y)).or (eqAny x (some (ys.map some))) := rfl
      rw [hcons, ih, eq_some, or_some, List.any_cons]

/-- A disjunction is met where one of its parts is. -/
lemma isTrue_or (s t : Truth) : (s.or t).isTrue = (s.isTrue || t.isTrue) := by
  cases s with
  | none => cases t with
    | none => rfl
    | some b => cases b <;> rfl
  | some a => cases t with
    | none => cases a <;> rfl
    | some b => cases a <;> cases b <;> rfl

lemma isTrue_orAll (ts : List Truth) : (orAll ts).isTrue = ts.any isTrue := by
  induction ts with
  | nil => rfl
  | cons t ts ih =>
      rw [List.any_cons, ← ih, ← isTrue_or]
      rfl

lemma isTrue_and (s t : Truth) : (s.and t).isTrue = (s.isTrue && t.isTrue) := by
  cases s with
  | none => cases t with
    | none => rfl
    | some b => cases b <;> rfl
  | some a => cases t with
    | none => cases a <;> rfl
    | some b => cases a <;> cases b <;> rfl

lemma isTrue_andAll (ts : List Truth) : (andAll ts).isTrue = ts.all isTrue := by
  induction ts with
  | nil => rfl
  | cons t ts ih =>
      rw [List.all_cons, ← ih, ← isTrue_and]
      rfl

/-- A disjunction is not met where none of its parts is. -/
lemma isTrue_orAll_eq_false {ts : List Truth} :
    (orAll ts).isTrue = false ↔ ∀ t ∈ ts, t.isTrue = false := by
  rw [isTrue_orAll, List.any_eq_false]
  exact forall₂_congr fun _ _ => iff_of_eq (Bool.not_eq_true _)

variable {x y : Option α} {β : Type}

@[simp] lemma isTrue_isDistinct : (isDistinct x y).isTrue = false ↔ x = y := by
  simp [isDistinct]

@[simp] lemma isTrue_isNull {x : Option β} : (isNull x).isTrue = false ↔ ∃ a, x = some a := by
  cases x <;> simp [isNull]

/-- An equation is met by known values that are equal. -/
lemma isTrue_eq : (eq x y).isTrue = true ↔ ∃ a, x = some a ∧ y = some a := by
  cases x with
  | none => simp
  | some a => cases y with
    | none => simp [eq, isTrue]
    | some b =>
        rw [eq_some, isTrue_some, beq_iff_eq]
        exact ⟨fun h => ⟨b, congrArg some h, rfl⟩, fun ⟨c, hx, hy⟩ =>
          Option.some.inj (hx.trans hy.symm)⟩

lemma isTrue_eq_of_eq (hx : x.isSome = true) (h : x = y) : (eq x y).isTrue = true := by
  obtain ⟨a, ha⟩ := Option.isSome_iff_exists.1 hx
  exact isTrue_eq.2 ⟨a, ha, h ▸ ha⟩

lemma isTrue_ne_of_ne (hx : x.isSome = true) (hy : y.isSome = true) (h : x ≠ y) :
    (ne x y).isTrue = true := by
  obtain ⟨a, rfl⟩ := Option.isSome_iff_exists.1 hx
  obtain ⟨b, rfl⟩ := Option.isSome_iff_exists.1 hy
  rw [ne_some, isTrue_some, bne_iff_ne]
  exact fun hab => h (congrArg some hab)

end Truth
