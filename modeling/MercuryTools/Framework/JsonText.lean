import Mathlib.Data.List.Nodup
import Mathlib.Data.List.Perm.Basic
import Mathlib.Data.List.Sort
import MercuryTools.Framework.Json
import MercuryTools.Framework.Numerals

/-!
# Compact JSON texts with sorted keys

A value is written without blanks, and the fields of an object in the order of their keys.  What
differs between writers is the order and how the characters of a string are quoted.  Where the
quotations can be told apart, two values of integer numbers with one text are the same value; and
where the order is total, the same value has one text.
-/

/-! ## Fields of the same object -/

namespace Json

variable {xs ys : List (String × Json)}

/-- A field of the one is a field of the other. -/
lemma Same.exists_field (h : Same (.obj xs) (.obj ys)) {key : String} {x : Json}
    (hx : (key, x) ∈ xs) : ∃ y, (key, y) ∈ ys ∧ Same x y := by
  cases h with
  | refl => exact ⟨x, hx, .refl x⟩
  | @obj _ _ zs order keys values =>
      obtain ⟨i, hi, hget⟩ := List.mem_iff_getElem.1 (order.mem_iff.1 hx)
      have hi' : i < ys.length := values.length_eq ▸ hi
      have hkey : ys[i].1 = key := by
        have hkeys := List.getElem_of_eq keys (i := i) (by simpa using hi)
        rw [List.getElem_map, List.getElem_map, hget] at hkeys
        exact hkeys.symm
      have hsame : Same x ys[i].2 := by
        have hvalue := List.Forall₂.get values hi hi'
        simpa [hget] using hvalue
      exact ⟨ys[i].2, List.mem_iff_getElem.2 ⟨i, hi', Prod.ext hkey rfl⟩, hsame⟩

/-- The object has a field with a text that the other one does not have. -/
def lacksText (xs ys : List (String × Json)) : Bool :=
  xs.any fun field =>
    match field.2 with
    | .str _ => !decide (field ∈ ys)
    | _ => false

lemma not_same_of_lacksText (h : lacksText xs ys = true) : ¬ Same (.obj xs) (.obj ys) := by
  intro hsame
  obtain ⟨⟨key, x⟩, hmem, hlacks⟩ := List.any_eq_true.1 h
  obtain ⟨y, hy, hxy⟩ := hsame.exists_field hmem
  cases x with
  | str text =>
      cases hxy
      simp [hy] at hlacks
  | _ => cases hlacks

end Json

namespace JsonText

/-! ## Writing -/

/-- How a writer orders keys and quotes characters. -/
structure Style where
  keyLe : String → String → Bool
  quote : Char → List Char

/-- An integer in decimal digits. -/
def intText : Int → List Char
  | .ofNat n => Nat.toDigits 10 n
  | .negSucc n => '-' :: Nat.toDigits 10 (n + 1)

/-- Parts with commas between them. -/
def joined : List (List Char) → List Char
  | [] => []
  | part :: parts => part ++ parts.flatMap (',' :: ·)

namespace Style

variable (style : Style)

def stringText (s : String) : List Char :=
  '"' :: (s.toList.flatMap style.quote ++ ['"'])

/-- `"key":text` -/
def member (field : String × List Char) : List Char :=
  style.stringText field.1 ++ ':' :: field.2

mutual

/-- The text of a value. -/
def write : Json → List Char
  | .null => ['n', 'u', 'l', 'l']
  | .bool true => ['t', 'r', 'u', 'e']
  | .bool false => ['f', 'a', 'l', 's', 'e']
  | .int n => intText n
  | .float text => text.toList
  | .str s => style.stringText s
  | .arr items => '[' :: (joined (writeItems items) ++ [']'])
  | .obj fields =>
      '{' :: (joined (((writeFields fields).insertionSort fun x y =>
        style.keyLe x.1 y.1).map style.member) ++ ['}'])

def writeItems : List Json → List (List Char)
  | [] => []
  | x :: xs => write x :: writeItems xs

def writeFields : List (String × Json) → List (String × List Char)
  | [] => []
  | (key, x) :: fields => (key, write x) :: writeFields fields

end

/-- Fields in the order of their keys. -/
def sortFields (fields : List (String × Json)) : List (String × Json) :=
  fields.insertionSort fun x y => style.keyLe x.1 y.1

/-- `"key":value` -/
def field (entry : String × Json) : List Char :=
  style.stringText entry.1 ++ ':' :: style.write entry.2

lemma writeItems_eq_map (items : List Json) : style.writeItems items = items.map style.write := by
  induction items with
  | nil => rfl
  | cons x xs ih => rw [writeItems, List.map_cons, ih]

lemma writeFields_eq_map (fields : List (String × Json)) :
    style.writeFields fields = fields.map fun entry => (entry.1, style.write entry.2) := by
  induction fields with
  | nil => rfl
  | cons entry fields ih => rw [writeFields, List.map_cons, ih]

lemma write_arr (items : List Json) :
    style.write (.arr items) = '[' :: (joined (items.map style.write) ++ [']']) := by
  rw [write, writeItems_eq_map]

lemma write_obj (fields : List (String × Json)) :
    style.write (.obj fields) =
      '{' :: (joined ((style.sortFields fields).map style.field) ++ ['}']) := by
  have hsort : (style.sortFields fields).map (fun entry => (entry.1, style.write entry.2)) =
      (fields.map fun entry => (entry.1, style.write entry.2)).insertionSort fun x y =>
        style.keyLe x.1 y.1 :=
    List.map_insertionSort _ _ _ _ fun _ _ _ _ => Iff.rfl
  rw [write, writeFields_eq_map, ← hsort, List.map_map]
  rfl

lemma sortFields_perm (fields : List (String × Json)) : (style.sortFields fields).Perm fields :=
  List.perm_insertionSort _ _

end Style

/-! ## Reading a text back -/

/-- The text does not continue a number. -/
def Stops (r : List Char) : Prop :=
  ∀ c cs, r = c :: cs → Json.isNumberCharacter c = false

variable {c : Char} {number r : List Char} {n : Int} {text : String}

lemma stops_cons (h : Json.isNumberCharacter c = false) (cs : List Char) : Stops (c :: cs) := by
  rintro d ds heq
  rw [← (List.cons.inj heq).1]
  exact h

lemma stops_nil : Stops [] :=
  fun _ _ h => nomatch h

/-- A number ends where the text stops. -/
lemma takeWhile_append (hnumber : ∀ c ∈ number, Json.isNumberCharacter c = true) (hr : Stops r) :
    (number ++ r).takeWhile Json.isNumberCharacter = number := by
  rw [List.takeWhile_append_of_pos hnumber]
  cases r with
  | nil => rw [List.takeWhile_nil, List.append_nil]
  | cons c cs =>
      rw [List.takeWhile_cons_of_neg (by simp [hr c cs rfl]), List.append_nil]

lemma number_append_inj {other s : List Char}
    (hnumber : ∀ c ∈ number, Json.isNumberCharacter c = true)
    (hother : ∀ c ∈ other, Json.isNumberCharacter c = true) (hr : Stops r) (hs : Stops s)
    (h : number ++ r = other ++ s) : number = other ∧ r = s := by
  have heq : number = other := by
    rw [← takeWhile_append hnumber hr, h, takeWhile_append hother hs]
  exact ⟨heq, List.append_cancel_left (heq ▸ h)⟩

lemma toDigits_inj {m n : Nat} (h : Nat.toDigits 10 m = Nat.toDigits 10 n) : m = n := by
  rw [← Numerals.value_toDigits m, h, Numerals.value_toDigits]

/-- A number begins with a digit. -/
lemma exists_toDigits_eq_cons (n : Nat) :
    ∃ c cs, Nat.toDigits 10 n = c :: cs ∧ c.isDigit = true := by
  obtain ⟨c, cs, h⟩ := List.exists_cons_of_ne_nil (Nat.toDigits_ne_nil (b := 10) (n := n))
  refine ⟨c, cs, h, Numerals.isDigit_of_mem_toDigits (n := n) ?_⟩
  rw [h]
  exact List.mem_cons_self

lemma intText_inj {m : Int} (h : intText m = intText n) : m = n := by
  cases m with
  | ofNat m =>
      cases n with
      | ofNat n =>
          obtain rfl := toDigits_inj h
          rfl
      | negSucc n =>
          obtain ⟨c, cs, hcs, hc⟩ := exists_toDigits_eq_cons m
          rw [intText, intText, hcs] at h
          rw [(List.cons.inj h).1] at hc
          cases hc
  | negSucc m =>
      cases n with
      | ofNat n =>
          obtain ⟨c, cs, hcs, hc⟩ := exists_toDigits_eq_cons n
          rw [intText, intText, hcs] at h
          rw [← (List.cons.inj h).1] at hc
          cases hc
      | negSucc n => rw [Nat.add_right_cancel (toDigits_inj (List.cons.inj h).2)]

/-- An integer has digits and a sign. -/
lemma mem_intText (h : c ∈ intText n) : c.isDigit = true ∨ c = '-' := by
  cases n with
  | ofNat n => exact .inl (Numerals.isDigit_of_mem_toDigits h)
  | negSucc n =>
      obtain rfl | h := List.mem_cons.1 h
      · exact .inr rfl
      · exact .inl (Numerals.isDigit_of_mem_toDigits h)

lemma isNumberCharacter_intText : ∀ c ∈ intText n, Json.isNumberCharacter c = true := by
  intro c hc
  obtain h | rfl := mem_intText hc
  · simp [Json.isNumberCharacter, h]
  · rfl

lemma isNumberCharacter_float (h : Json.isFloatText text = true) :
    ∀ c ∈ text.toList, Json.isNumberCharacter c = true := by
  simp only [Json.isFloatText, Bool.and_eq_true] at h
  exact List.all_eq_true.1 h.1.1

/-- No integer is written as a float. -/
lemma intText_ne_float (h : Json.isFloatText text = true) : intText n ≠ text.toList := by
  intro heq
  simp only [Json.isFloatText, Bool.and_eq_true, ← heq] at h
  obtain ⟨c, hmem, hc⟩ := List.any_eq_true.1 h.1.2
  simp only [Bool.or_eq_true, beq_iff_eq] at hc
  obtain hdigit | rfl := mem_intText hmem
  · obtain rfl | rfl := hc <;> cases hdigit
  · obtain hc | hc := hc <;> cases hc

/-! ### Lists of parts -/

section

variable {α β : Type*} {f : α → List Char} {g : β → List Char} {R : α → β → Prop} {close : Char}

lemma stops_tail (hclose : Json.isNumberCharacter close = false) (xs : List α) (r : List Char) :
    Stops ((xs.map f).flatMap (',' :: ·) ++ close :: r) := by
  cases xs with
  | nil => exact stops_cons hclose r
  | cons x xs => exact stops_cons rfl _

variable {xs : List α} {ys : List β} {r s : List Char}

lemma flatMap_append_inj (hclose : Json.isNumberCharacter close = false) (hcomma : close ≠ ',')
    (hread : ∀ x ∈ xs, ∀ y ∈ ys, ∀ r s, Stops r → Stops s →
      f x ++ r = g y ++ s → R x y ∧ r = s) (h : (xs.map f).flatMap (',' :: ·) ++ close :: r =
      (ys.map g).flatMap (',' :: ·) ++ close :: s) : List.Forall₂ R xs ys ∧ r = s := by
  induction xs generalizing ys with
  | nil =>
      cases ys with
      | nil => exact ⟨.nil, (List.cons.inj h).2⟩
      | cons y ys => exact absurd (List.cons.inj h).1 hcomma
  | cons x xs ih =>
      cases ys with
      | nil => exact absurd (List.cons.inj h).1.symm hcomma
      | cons y ys =>
          simp only [List.map_cons, List.flatMap_cons, List.cons_append, List.append_assoc] at h
          obtain ⟨hxy, htail⟩ := hread x List.mem_cons_self y List.mem_cons_self _ _
            (stops_tail hclose xs r) (stops_tail hclose ys s) (List.cons.inj h).2
          have hrest : ∀ x ∈ xs, ∀ y ∈ ys, ∀ r s, Stops r → Stops s →
              f x ++ r = g y ++ s → R x y ∧ r = s := fun x hx y hy =>
            hread x (List.mem_cons_of_mem _ hx) y (List.mem_cons_of_mem _ hy)
          obtain ⟨hall, hrs⟩ := ih hrest htail
          exact ⟨.cons hxy hall, hrs⟩

/-- Parts that can be told apart, between commas and before a closing character that begins none
of them. -/
lemma joined_append_inj (hclose : Json.isNumberCharacter close = false) (hcomma : close ≠ ',')
    (hf : ∀ x ∈ xs, ∃ c cs, f x = c :: cs ∧ c ≠ close)
    (hg : ∀ y ∈ ys, ∃ c cs, g y = c :: cs ∧ c ≠ close)
    (hread : ∀ x ∈ xs, ∀ y ∈ ys, ∀ r s, Stops r → Stops s →
      f x ++ r = g y ++ s → R x y ∧ r = s)
    (h : joined (xs.map f) ++ close :: r = joined (ys.map g) ++ close :: s) :
    List.Forall₂ R xs ys ∧ r = s := by
  cases xs with
  | nil =>
      cases ys with
      | nil => exact ⟨.nil, (List.cons.inj h).2⟩
      | cons y ys =>
          obtain ⟨c, cs, hc, hne⟩ := hg y List.mem_cons_self
          rw [List.map_cons, joined, hc] at h
          exact absurd (List.cons.inj h).1.symm hne
  | cons x xs =>
      cases ys with
      | nil =>
          obtain ⟨c, cs, hc, hne⟩ := hf x List.mem_cons_self
          rw [List.map_cons, joined, hc] at h
          exact absurd (List.cons.inj h).1 hne
      | cons y ys =>
          rw [List.map_cons, List.map_cons, joined, joined, List.append_assoc,
            List.append_assoc] at h
          obtain ⟨hxy, htail⟩ := hread x List.mem_cons_self y List.mem_cons_self _ _
            (stops_tail hclose xs r) (stops_tail hclose ys s) h
          have hrest : ∀ x ∈ xs, ∀ y ∈ ys, ∀ r s, Stops r → Stops s →
              f x ++ r = g y ++ s → R x y ∧ r = s := fun x hx y hy =>
            hread x (List.mem_cons_of_mem _ hx) y (List.mem_cons_of_mem _ hy)
          obtain ⟨hall, hrs⟩ := flatMap_append_inj hclose hcomma hrest htail
          exact ⟨.cons hxy hall, hrs⟩

end

/-! ### Strings -/

/-- Quotations can be told apart, from each other and from the end of the string. -/
structure Style.Readable (style : Style) : Prop where
  quote_inj : ∀ a b r s, style.quote a ++ r = style.quote b ++ s → a = b ∧ r = s
  quote_ne : ∀ a, ∃ c cs, style.quote a = c :: cs ∧ c ≠ '"'

namespace Style

variable {style : Style}

variable {r s : List Char} {x y : Json}

lemma flatMap_quote_inj (h : style.Readable) {a b : List Char}
    (heq : a.flatMap style.quote ++ '"' :: r = b.flatMap style.quote ++ '"' :: s) :
    a = b ∧ r = s := by
  induction a generalizing b with
  | nil =>
      cases b with
      | nil => exact ⟨rfl, (List.cons.inj heq).2⟩
      | cons d b =>
          obtain ⟨c, cs, hc, hne⟩ := h.quote_ne d
          rw [List.flatMap_cons, hc] at heq
          exact absurd (List.cons.inj heq).1.symm hne
  | cons d a ih =>
      cases b with
      | nil =>
          obtain ⟨c, cs, hc, hne⟩ := h.quote_ne d
          rw [List.flatMap_cons, hc] at heq
          exact absurd (List.cons.inj heq).1 hne
      | cons e b =>
          rw [List.flatMap_cons, List.flatMap_cons, List.append_assoc, List.append_assoc] at heq
          obtain ⟨rfl, htail⟩ := h.quote_inj d e _ _ heq
          obtain ⟨rfl, hrest⟩ := ih htail
          exact ⟨rfl, hrest⟩

lemma stringText_append_inj (h : style.Readable) {a b : String}
    (heq : style.stringText a ++ r = style.stringText b ++ s) : a = b ∧ r = s := by
  simp only [stringText, List.cons_append, List.append_assoc, List.nil_append] at heq
  obtain ⟨hab, hrs⟩ := flatMap_quote_inj h (List.cons.inj heq).2
  exact ⟨String.toList_inj.1 hab, hrs⟩

/-! ### Values -/

/-- The constructor of a value; numbers are of one kind. -/
def kind : Json → Nat
  | .null => 0
  | .bool true => 1
  | .bool false => 2
  | .int _ => 3
  | .str _ => 4
  | .arr _ => 5
  | .obj _ => 6
  | .float _ => 3

/-- The constructor that a text begins with. -/
def headKind (c : Char) : Nat :=
  if c = 'n' then 0
  else if c = 't' then 1
  else if c = 'f' then 2
  else if c = '-' ∨ c.isDigit = true then 3
  else if c = '"' then 4
  else if c = '[' then 5
  else if c = '{' then 6
  else 7

lemma headKind_of_isDigit {c : Char} (h : c.isDigit = true) : headKind c = 3 := by
  have hne : ∀ d : Char, d.isDigit = false → c ≠ d := fun d => Numerals.ne_of_isDigit h
  rw [headKind, if_neg (hne 'n' rfl), if_neg (hne 't' rfl), if_neg (hne 'f' rfl),
    if_pos (Or.inr h)]

lemma exists_intText_eq_cons (n : Int) : ∃ c cs, intText n = c :: cs ∧ headKind c = 3 := by
  cases n with
  | ofNat n =>
      obtain ⟨c, cs, hcs, hc⟩ := exists_toDigits_eq_cons n
      exact ⟨c, cs, hcs, headKind_of_isDigit hc⟩
  | negSucc n => exact ⟨'-', _, rfl, rfl⟩

lemma exists_float_eq_cons {text : String} (h : Json.isFloatText text = true) :
    ∃ c cs, text.toList = c :: cs ∧ headKind c = 3 := by
  simp only [Json.isFloatText, Bool.and_eq_true] at h
  obtain ⟨-, hhead⟩ := h
  split at hhead
  · rename_i c cs hcs
    refine ⟨c, cs, hcs, ?_⟩
    obtain hdigit | hsign := Bool.or_eq_true_iff.1 hhead
    · exact headKind_of_isDigit hdigit
    · rw [beq_iff_eq.1 hsign]
      rfl
  · cases hhead

/-- The first character of a text tells the constructor. -/
lemma exists_write_eq_cons (style : Style) (hx : x.PlainNumbers) :
    ∃ c cs, style.write x = c :: cs ∧ headKind c = kind x := by
  cases x with
  | null => exact ⟨'n', _, rfl, rfl⟩
  | bool b =>
      cases b with
      | true => exact ⟨'t', _, rfl, rfl⟩
      | false => exact ⟨'f', _, rfl, rfl⟩
  | int n => exact exists_intText_eq_cons n
  | float text => exact exists_float_eq_cons hx
  | str s => exact ⟨'"', _, rfl, rfl⟩
  | arr items => exact ⟨'[', _, style.write_arr items, rfl⟩
  | obj fields => exact ⟨'{', _, style.write_obj fields, rfl⟩

lemma kind_eq_of_write (hx : x.PlainNumbers) (hy : y.PlainNumbers)
    (h : style.write x ++ r = style.write y ++ s) : kind x = kind y := by
  obtain ⟨c, cs, hc, hkind⟩ := exists_write_eq_cons style hx
  obtain ⟨d, ds, hd, hkind'⟩ := exists_write_eq_cons style hy
  rw [hc, hd] at h
  rw [← hkind, ← hkind', (List.cons.inj h).1]

/-- The text of a value does not begin with a closing bracket. -/
lemma write_head_ne (hx : x.PlainNumbers) : ∃ c cs, style.write x = c :: cs ∧ c ≠ ']' := by
  obtain ⟨c, cs, hc, hkind⟩ := exists_write_eq_cons style hx
  refine ⟨c, cs, hc, ?_⟩
  rintro rfl
  cases x with
  | bool b => cases b <;> cases hkind
  | _ => cases hkind

/-- The same fields in the order of their keys are the fields of the same object. -/
lemma same_of_sortFields {fields fields' : List (String × Json)}
    (hall : List.Forall₂ (fun a b : String × Json => a.1 = b.1 ∧ Json.Same a.2 b.2)
      (style.sortFields fields) (style.sortFields fields')) :
    Json.Same (.obj fields) (.obj fields') := by
  have hcomp := List.forall₂_comp_perm_eq_perm_comp_forall₂
    (r := fun a b : String × Json => a.1 = b.1 ∧ Json.Same a.2 b.2)
  obtain ⟨zs, hperm, hzs⟩ : (Relation.Comp List.Perm (List.Forall₂ fun a b : String × Json =>
      a.1 = b.1 ∧ Json.Same a.2 b.2)) (style.sortFields fields) fields' := by
    rw [← hcomp]
    exact ⟨_, hall, style.sortFields_perm fields'⟩
  refine .obj ((style.sortFields_perm fields).symm.trans hperm) ?_
    (hzs.imp fun _ _ hab => hab.2)
  rw [← List.forall₂_eq_eq_eq, List.forall₂_map_left_iff, List.forall₂_map_right_iff]
  exact hzs.imp fun _ _ hab => hab.1

lemma field_append_inj (h : style.Readable) {a b : String × Json}
    (hvalue : ∀ r s, Stops r → Stops s → style.write a.2 ++ r = style.write b.2 ++ s →
      Json.Same a.2 b.2 ∧ r = s) (hr : Stops r) (hs : Stops s)
    (heq : style.field a ++ r = style.field b ++ s) : (a.1 = b.1 ∧ Json.Same a.2 b.2) ∧ r = s := by
  simp only [field, List.append_assoc, List.cons_append] at heq
  obtain ⟨hkey, htail⟩ := stringText_append_inj h heq
  obtain ⟨hsame, hrs⟩ := hvalue r s hr hs (List.cons.inj htail).2
  exact ⟨⟨hkey, hsame⟩, hrs⟩

/-- A text is read back in one way. -/
theorem write_append_inj (h : style.Readable) (hx : x.PlainNumbers) (hy : y.PlainNumbers)
    (hr : Stops r) (hs : Stops s) (heq : style.write x ++ r = style.write y ++ s) :
    Json.Same x y ∧ r = s := by
  have hkind := kind_eq_of_write hx hy heq
  induction x using Json.induction generalizing y r s with
  | null =>
      cases y with
      | null => exact ⟨.refl _, List.append_cancel_left heq⟩
      | bool b => cases b <;> cases hkind
      | _ => cases hkind
  | bool b =>
      cases y with
      | bool b' =>
          have hb : b = b' := by cases b <;> cases b' <;> first | rfl | cases hkind
          subst hb
          exact ⟨.refl _, List.append_cancel_left heq⟩
      | _ => cases b <;> cases hkind
  | int n =>
      cases y with
      | int m =>
          obtain ⟨hmn, hrs⟩ := number_append_inj isNumberCharacter_intText
            isNumberCharacter_intText hr hs heq
          rw [intText_inj hmn]
          exact ⟨.refl _, hrs⟩
      | float text =>
          obtain ⟨hsame, -⟩ := number_append_inj isNumberCharacter_intText
            (isNumberCharacter_float hy) hr hs heq
          exact absurd hsame (intText_ne_float hy)
      | bool b => cases b <;> cases hkind
      | _ => cases hkind
  | float text =>
      cases y with
      | int m =>
          obtain ⟨hsame, -⟩ := number_append_inj (isNumberCharacter_float hx)
            isNumberCharacter_intText hr hs heq
          exact absurd hsame.symm (intText_ne_float hx)
      | float text' =>
          obtain ⟨hsame, hrs⟩ := number_append_inj (isNumberCharacter_float hx)
            (isNumberCharacter_float hy) hr hs heq
          rw [String.toList_inj.1 hsame]
          exact ⟨.refl _, hrs⟩
      | bool b => cases b <;> cases hkind
      | _ => cases hkind
  | str text =>
      cases y with
      | str text' =>
          obtain ⟨rfl, hrs⟩ := stringText_append_inj h heq
          exact ⟨.refl _, hrs⟩
      | bool b => cases b <;> cases hkind
      | _ => cases hkind
  | arr items ih =>
      cases y with
      | arr items' =>
          rw [write_arr, write_arr, List.cons_append, List.cons_append, List.append_assoc,
            List.append_assoc] at heq
          have hitems := (Json.all_arr.1 hx).2
          have hitems' := (Json.all_arr.1 hy).2
          obtain ⟨hall, hrs⟩ := joined_append_inj (R := Json.Same) rfl (by decide)
            (fun x hx => write_head_ne (hitems x hx)) (fun y hy => write_head_ne (hitems' y hy))
            (fun x hx y hy r s hr hs heq => ih x hx (hitems x hx) (hitems' y hy) hr hs heq
              (kind_eq_of_write (hitems x hx) (hitems' y hy) heq)) (List.cons.inj heq).2
          exact ⟨.arr hall, hrs⟩
      | bool b => cases b <;> cases hkind
      | _ => cases hkind
  | obj fields ih =>
      cases y with
      | obj fields' =>
          rw [write_obj, write_obj, List.cons_append, List.cons_append, List.append_assoc,
            List.append_assoc] at heq
          have hfields : ∀ entry ∈ style.sortFields fields, entry ∈ fields := fun entry =>
            (style.sortFields_perm fields).mem_iff.1
          have hfields' : ∀ entry ∈ style.sortFields fields', entry ∈ fields' := fun entry =>
            (style.sortFields_perm fields').mem_iff.1
          have hint := (Json.all_obj.1 hx).2
          have hint' := (Json.all_obj.1 hy).2
          have hread : ∀ a ∈ style.sortFields fields, ∀ b ∈ style.sortFields fields', ∀ r s,
              Stops r → Stops s → style.field a ++ r = style.field b ++ s →
                (a.1 = b.1 ∧ Json.Same a.2 b.2) ∧ r = s := by
            intro a ha b hb r s hr hs heq
            have ha' := hint a (hfields a ha)
            have hb' := hint' b (hfields' b hb)
            exact field_append_inj h (fun r s hr hs heq => ih a (hfields a ha) ha' hb' hr hs heq
              (kind_eq_of_write ha' hb' heq)) hr hs heq
          obtain ⟨hall, hrs⟩ := joined_append_inj rfl (by decide)
            (fun _ _ => ⟨'"', _, rfl, by decide⟩) (fun _ _ => ⟨'"', _, rfl, by decide⟩) hread
            (List.cons.inj heq).2
          exact ⟨same_of_sortFields hall, hrs⟩
      | bool b => cases b <;> cases hkind
      | _ => cases hkind

/-- Values with one text are the same. -/
theorem same_of_plain_write_eq (h : style.Readable) (hx : x.PlainNumbers) (hy : y.PlainNumbers)
    (heq : style.write x = style.write y) : Json.Same x y :=
  (write_append_inj h hx hy stops_nil stops_nil (congrArg (· ++ []) heq)).1

/-- Values of integer numbers with one text are the same. -/
theorem same_of_write_eq (h : style.Readable) (hx : x.IntegerNumbers) (hy : y.IntegerNumbers)
    (heq : style.write x = style.write y) : Json.Same x y :=
  same_of_plain_write_eq h hx.plain hy.plain heq

end Style

/-! ## One text for one value -/

/-- The order of the keys is total, and no two keys are equal in it. -/
structure Style.Ordered (style : Style) : Prop where
  total : ∀ a b, (style.keyLe a b || style.keyLe b a) = true
  trans : ∀ a b c, style.keyLe a b = true → style.keyLe b c = true → style.keyLe a c = true
  antisymm : ∀ a b, style.keyLe a b = true → style.keyLe b a = true → a = b

namespace Style

variable {style : Style}

/-- The order in which distinct keys are listed does not matter. -/
lemma sortFields_eq_of_perm (h : style.Ordered) {xs ys : List (String × Json)}
    (hdistinct : (xs.map (·.1)).Nodup) (hperm : xs.Perm ys) :
    style.sortFields xs = style.sortFields ys := by
  have hsorted : ∀ zs, (style.sortFields zs).Pairwise
      fun x y => style.keyLe x.1 y.1 = true := by
    have : Std.Total fun x y : String × Json => style.keyLe x.1 y.1 = true :=
      ⟨fun x y => Bool.or_eq_true_iff.1 (h.total x.1 y.1)⟩
    have : IsTrans (String × Json) fun x y => style.keyLe x.1 y.1 = true :=
      ⟨fun x y z => h.trans x.1 y.1 z.1⟩
    exact fun zs => List.pairwise_insertionSort _ zs
  have hall : (style.sortFields xs).Perm (style.sortFields ys) :=
    (style.sortFields_perm xs).trans (hperm.trans (style.sortFields_perm ys).symm)
  refine hall.eq_of_pairwise (fun a b ha hb hab hba => ?_) (hsorted xs) (hsorted ys)
  have hkey : a.1 = b.1 := h.antisymm _ _ hab hba
  have hmem : b ∈ xs := hperm.mem_iff.2 ((style.sortFields_perm ys).mem_iff.1 hb)
  exact List.inj_on_of_nodup_map hdistinct ((style.sortFields_perm xs).mem_iff.1 ha) hmem hkey

lemma map_eq_map_of_forall₂ {α β γ : Type*} {R : α → β → Prop} {f : α → γ} {g : β → γ}
    {xs : List α} {ys : List β} (h : List.Forall₂ R xs ys)
    (hfg : ∀ x ∈ xs, ∀ y, R x y → f x = g y) : xs.map f = ys.map g := by
  induction h with
  | nil => rfl
  | @cons x y xs ys hxy _ ih =>
      rw [List.map_cons, List.map_cons, hfg x List.mem_cons_self y hxy,
        ih fun x hx => hfg x (List.mem_cons_of_mem _ hx)]

/-- The same value has one text. -/
theorem write_eq_of_same (h : style.Ordered) {x y : Json} (hx : x.DistinctKeys)
    (hsame : Json.Same x y) : style.write x = style.write y := by
  induction x using Json.induction generalizing y with
  | arr items ih =>
      cases hsame with
      | refl => rfl
      | arr hitems =>
          have hall := (Json.all_arr.1 hx).2
          rw [write_arr, write_arr,
            map_eq_map_of_forall₂ hitems fun x hx y => ih x hx (hall x hx)]
  | obj fields ih =>
      cases hsame with
      | refl => rfl
      | @obj _ ys zs order keys values =>
          have hall := (Json.all_obj.1 hx).2
          have hdistinct : (fields.map (·.1)).Nodup := of_decide_eq_true (Json.all_obj.1 hx).1
          have hvalues : zs.map (fun entry => style.write entry.2) =
              ys.map fun entry => style.write entry.2 := by
            refine map_eq_map_of_forall₂ values fun x hx y hvalue => ?_
            have hmem := order.mem_iff.2 hx
            exact ih x hmem (hall x hmem) hvalue
          have htexts : zs.map (fun entry => (entry.1, style.write entry.2)) =
              ys.map fun entry => (entry.1, style.write entry.2) := by
            rw [← List.zip_map', ← List.zip_map', keys, hvalues]
          rw [write_obj, sortFields_eq_of_perm h hdistinct order, ← write_obj, write, write,
            writeFields_eq_map, writeFields_eq_map, htexts]
  | _ => cases hsame; rfl

end Style

end JsonText
