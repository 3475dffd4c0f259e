import Mathlib.Algebra.BigOperators.Group.List.Basic
import Mathlib.Data.List.Lex
import Mathlib.Data.Prod.Lex
import Mathlib.Tactic.Linarith
import Mathlib.Tactic.Ring

/-!
# Criteria as digits

Criteria of decreasing importance are added up to one number, each with a weight that is larger than
all that the less important ones can come to.  A number that is not larger then stands for criteria
that are not larger in lexicographic order (`toLex_le_of_weight`), and a number to a base for digits
that are not (`le_of_digitValue_le`).
-/

namespace DigitWeights

/-! ## Two criteria -/

/-- If a weight is larger than the rest, the sums are in the order of the pairs. -/
lemma lt_or_eq_of_weight {a a' b b' weight : ℕ} (hb' : b' < weight)
    (h : a * weight + b ≤ a' * weight + b') : a < a' ∨ a = a' ∧ b ≤ b' := by
  rcases lt_trichotomy a a' with hlt | rfl | hgt
  · exact .inl hlt
  · exact .inr ⟨rfl, by omega⟩
  · have hle : (a' + 1) * weight ≤ a * weight := Nat.mul_le_mul_right _ hgt
    rw [add_mul, one_mul] at hle
    omega

/-- The weight of a criterion, where the rest is in some order already. -/
theorem toLex_le_of_weight {κ : Type*} [LinearOrder κ] {a a' b b' weight : ℕ} {k k' : κ}
    (hb' : b' < weight) (hrest : b ≤ b' → k ≤ k') (h : a * weight + b ≤ a' * weight + b') :
    toLex (a, k) ≤ toLex (a', k') := by
  rw [Prod.Lex.toLex_le_toLex]
  exact (lt_or_eq_of_weight hb' h).imp_right fun heq => ⟨heq.1, hrest heq.2⟩

/-- What a criterion and the rest come to. -/
lemma weight_lt {a bound b weight : ℕ} (ha : a ≤ bound) (hb : b < weight) :
    a * weight + b < (bound + 1) * weight := by
  have hle : a * weight ≤ bound * weight := Nat.mul_le_mul_right _ ha
  rw [add_mul, one_mul]
  omega

/-! ## Digits -/

/-- The number of digits to a base, the first digit being the most important. -/
def digitValue (base : ℕ) : List ℕ → ℕ
  | [] => 0
  | digit :: digits => digit * base ^ digits.length + digitValue base digits

variable {base : ℕ}

lemma digitValue_lt {digits : List ℕ} (h : ∀ digit ∈ digits, digit < base) :
    digitValue base digits < base ^ digits.length := by
  induction digits with
  | nil => exact Nat.one_pos
  | cons digit digits ih =>
    obtain ⟨hdigit, hdigits⟩ := List.forall_mem_cons.1 h
    have hlt := weight_lt (Nat.le_sub_one_of_lt hdigit) (ih hdigits)
    rw [Nat.sub_add_cancel (Nat.one_le_of_lt hdigit), ← pow_succ'] at hlt
    exact hlt

/-- Lists of one length are in the order of the numbers whose digits stand for their elements. -/
theorem le_of_digitValue_le {κ : Type*} [LinearOrder κ] {digit : κ → ℕ} {xs ys : List κ}
    (hlength : xs.length = ys.length) (hdigits : ∀ y ∈ ys, digit y < base)
    (hlt : ∀ x ∈ xs, ∀ y ∈ ys, digit x < digit y → x < y)
    (heq : ∀ x ∈ xs, ∀ y ∈ ys, digit x = digit y → x = y)
    (h : digitValue base (xs.map digit) ≤ digitValue base (ys.map digit)) : xs ≤ ys := by
  induction xs generalizing ys with
  | nil =>
    cases ys with
    | nil => exact le_rfl
    | cons => cases hlength
  | cons x xs ih =>
    cases ys with
    | nil => cases hlength
    | cons y ys =>
      have hlengths := Nat.succ.inj hlength
      have hrest : ∀ d ∈ ys.map digit, d < base :=
        List.forall_mem_map.2 (List.forall_mem_cons.1 hdigits).2
      simp only [List.map_cons, digitValue, List.length_map, hlengths] at h
      have hvalue := digitValue_lt hrest
      rw [List.length_map] at hvalue
      rcases lt_or_eq_of_weight hvalue h with hdigit | ⟨hdigit, hle⟩
      · exact le_of_lt (List.Lex.rel (hlt x List.mem_cons_self y List.mem_cons_self hdigit))
      · rw [heq x List.mem_cons_self y List.mem_cons_self hdigit]
        refine List.cons_le_cons _ (ih hlengths (List.forall_mem_cons.1 hdigits).2 ?_ ?_ hle)
        · exact fun x hx y hy => hlt x (List.mem_cons_of_mem _ hx) y (List.mem_cons_of_mem _ hy)
        · exact fun x hx y hy => heq x (List.mem_cons_of_mem _ hx) y (List.mem_cons_of_mem _ hy)

/-- The number of the digits of the elements of a list, by their places. -/
lemma digitValue_map {κ : Type*} [DecidableEq κ] {keys : List κ} (hkeys : keys.Nodup)
    (digit : κ → ℕ) :
    digitValue base (keys.map digit) =
      (keys.map fun key => digit key * base ^ (keys.length - keys.idxOf key - 1)).sum := by
  induction keys with
  | nil => rfl
  | cons key keys ih =>
    obtain ⟨hkey, hnodup⟩ := List.nodup_cons.1 hkeys
    rw [List.map_cons, digitValue, ih hnodup, List.map_cons, List.sum_cons, List.idxOf_cons_self,
      List.length_map, List.length_cons]
    congr 1
    refine congrArg List.sum (List.map_congr_left fun other hother => ?_)
    have hne : key ≠ other := by
      rintro rfl
      exact hkey hother
    rw [List.idxOf_cons_ne _ hne, Nat.succ_sub_succ]

end DigitWeights
