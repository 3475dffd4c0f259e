import Mathlib.Data.Char
import Mathlib.Data.List.Lex
import Mathlib.Order.Lattice
import Mathlib.Tactic.Common

/-!
# Byte order and code point order

Texts are compared by their code points or by the bytes of their UTF-8 encoding.  Both orders are
lexicographic and agree: the encodings of two characters differ first at a byte that compares as
the characters do.
-/

namespace Collation

/-! ## Codes that keep the order -/

section

variable {α β : Type*} [LT α] [LT β]

/-- Where the two words differ first, the left one is smaller. -/
def Below (xs ys : List β) : Prop :=
  ∃ p x y xs' ys', xs = p ++ x :: xs' ∧ ys = p ++ y :: ys' ∧ x < y

lemma Below.cons {xs ys : List β} (h : Below xs ys) (b : β) : Below (b :: xs) (b :: ys) := by
  obtain ⟨p, x, y, xs', ys', rfl, rfl, hlt⟩ := h
  exact ⟨b :: p, x, y, xs', ys', rfl, rfl, hlt⟩

lemma below_head {x y : β} (h : x < y) (xs ys : List β) : Below (x :: xs) (y :: ys) :=
  ⟨[], x, y, xs, ys, rfl, rfl, h⟩

/-- What follows two such words does not matter. -/
lemma Below.append_lt {xs ys : List β} (h : Below xs ys) (r s : List β) : xs ++ r < ys ++ s := by
  obtain ⟨p, x, y, xs', ys', rfl, rfl, hlt⟩ := h
  induction p with
  | nil => exact List.Lex.rel hlt
  | cons b p ih => exact List.Lex.cons ih

/-- A code whose words keep the order of the letters keeps the order of the texts. -/
lemma flatMap_lt {f : α → List β} (hf : ∀ a b, a < b → Below (f a) (f b)) (hne : ∀ a, f a ≠ [])
    {xs ys : List α} (h : xs < ys) : xs.flatMap f < ys.flatMap f := by
  induction h with
  | @nil a l =>
      obtain ⟨b, w, hw⟩ := List.exists_cons_of_ne_nil (hne a)
      rw [List.flatMap_nil, List.flatMap_cons, hw]
      exact List.Lex.nil
  | @cons a l₁ l₂ _ ih =>
      rw [List.flatMap_cons, List.flatMap_cons]
      generalize f a = w
      induction w with
      | nil => exact ih
      | cons b w hw => exact List.Lex.cons hw
  | @rel a l₁ b l₂ hab =>
      rw [List.flatMap_cons, List.flatMap_cons]
      exact (hf a b hab).append_lt _ _

end

/-- Such a code decides the order of the texts. -/
theorem flatMap_lt_iff {α β : Type*} [LinearOrder α] [LT β]
    (hasymm : ∀ x y : β, x < y → ¬ y < x) {f : α → List β}
    (hf : ∀ a b, a < b → Below (f a) (f b)) (hne : ∀ a, f a ≠ []) (xs ys : List α) :
    xs.flatMap f < ys.flatMap f ↔ xs < ys := by
  refine ⟨fun h => ?_, flatMap_lt hf hne⟩
  have hirrefl : ∀ x : β, ¬ x < x := fun x hx => hasymm x x hx hx
  rcases lt_trichotomy xs ys with hlt | rfl | hgt
  · exact hlt
  · exact absurd h (List.lex_irrefl hirrefl _)
  · exact absurd h (List.lex_asymm (hasymm _ _) (flatMap_lt hf hne hgt))

/-! ## UTF-8 -/

/-- The bytes of a text in UTF-8. -/
def utf8Bytes (s : String) : List UInt8 :=
  s.toList.flatMap String.utf8EncodeChar

/-- Order by bytes, as in the C locale. -/
def bytesLe (s t : String) : Bool :=
  !decide (utf8Bytes t < utf8Bytes s)

/-- Order by code points. -/
def codePointsLe (s t : String) : Bool :=
  !decide (t.toList < s.toList)

lemma ofNat_lt_ofNat {m n : Nat} (hn : n < 256) (h : m < n) : UInt8.ofNat m < UInt8.ofNat n := by
  rw [UInt8.lt_iff_toNat_lt, UInt8.toNat_ofNat_of_lt' hn, UInt8.toNat_ofNat_of_lt' (h.trans hn)]
  exact h

lemma val_lt (c : Char) : c.val.toNat < 0x110000 := by
  rcases c.valid with h | h
  · exact lt_trans h (by decide)
  · exact h.2

lemma below_ofNat {m n : Nat} (hn : n < 256) (h : m < n) (xs ys : List UInt8) :
    Below (UInt8.ofNat m :: xs) (UInt8.ofNat n :: ys) :=
  below_head (ofNat_lt_ofNat hn h) xs ys

/-- The words compare by their first digits, and by the others where these are equal. -/
lemma below_cons_ofNat {m n : Nat} {xs ys : List UInt8} (hn : n < 256) (hle : m ≤ n)
    (h : m = n → Below xs ys) : Below (UInt8.ofNat m :: xs) (UInt8.ofNat n :: ys) := by
  rcases hle.lt_or_eq with hlt | rfl
  · exact below_ofNat hn hlt xs ys
  · exact (h rfl).cons _

/-- The first bytes of two encodings of different lengths, and the digits of two of one length,
compare as the characters do. -/
lemma below_utf8EncodeChar {a b : Char} (h : a < b) :
    Below (String.utf8EncodeChar a) (String.utf8EncodeChar b) := by
  have hval : a.val.toNat < b.val.toNat := UInt32.lt_iff_toNat_lt.1 h
  have hmax := val_lt b
  simp only [String.utf8EncodeChar]
  generalize a.val.toNat = v at hval
  generalize b.val.toNat = w at hval hmax
  by_cases hone : w ≤ 0x7f
  · rw [if_pos hone, if_pos (by omega)]
    exact below_ofNat (by omega) hval _ _
  rw [if_neg hone]
  by_cases htwo : w ≤ 0x7ff
  · rw [if_pos htwo]
    split
    · exact below_ofNat (by omega) (by omega) _ _
    · rw [if_pos (by omega)]
      refine below_cons_ofNat (by omega) (by omega) fun _ => ?_
      exact below_ofNat (by omega) (by omega) _ _
  rw [if_neg htwo]
  by_cases hthree : w ≤ 0xffff
  · rw [if_pos hthree]
    split
    · exact below_ofNat (by omega) (by omega) _ _
    · split
      · exact below_ofNat (by omega) (by omega) _ _
      · rw [if_pos (by omega)]
        refine below_cons_ofNat (by omega) (by omega) fun _ => ?_
        refine below_cons_ofNat (by omega) (by omega) fun _ => ?_
        exact below_ofNat (by omega) (by omega) _ _
  rw [if_neg hthree]
  split
  · exact below_ofNat (by omega) (by omega) _ _
  · split
    · exact below_ofNat (by omega) (by omega) _ _
    · split
      · exact below_ofNat (by omega) (by omega) _ _
      · refine below_cons_ofNat (by omega) (by omega) fun _ => ?_
        refine below_cons_ofNat (by omega) (by omega) fun _ => ?_
        refine below_cons_ofNat (by omega) (by omega) fun _ => ?_
        exact below_ofNat (by omega) (by omega) _ _

/-- The two orders are the same. -/
theorem bytesLe_eq_codePointsLe : bytesLe = codePointsLe := by
  funext s t
  have hiff : utf8Bytes t < utf8Bytes s ↔ t.toList < s.toList :=
    flatMap_lt_iff (fun x y => UInt8.lt_asymm) (fun _ _ => below_utf8EncodeChar)
      (fun _ => String.utf8EncodeChar_ne_nil) _ _
  unfold bytesLe codePointsLe
  rw [decide_eq_decide.2 hiff]

/-! ## The order of the code points -/

lemma codePointsLe_iff {s t : String} : codePointsLe s t = true ↔ s.toList ≤ t.toList := by
  rw [codePointsLe, Bool.not_eq_true', decide_eq_false_iff_not, not_lt]

lemma codePointsLe_total (s t : String) : (codePointsLe s t || codePointsLe t s) = true := by
  rw [Bool.or_eq_true, codePointsLe_iff, codePointsLe_iff]
  exact le_total s.toList t.toList

lemma codePointsLe_trans {s t u : String} (hst : codePointsLe s t = true)
    (htu : codePointsLe t u = true) : codePointsLe s u = true := by
  rw [codePointsLe_iff] at hst htu ⊢
  exact hst.trans htu

lemma codePointsLe_antisymm {s t : String} (hst : codePointsLe s t = true)
    (hts : codePointsLe t s = true) : s = t := by
  rw [codePointsLe_iff] at hst hts
  exact String.toList_inj.1 (le_antisymm hst hts)

end Collation
