import Mathlib.Algebra.Group.Nat.Defs
import Mathlib.Data.List.Basic
import Mathlib.Data.List.Induction
import Mathlib.Tactic.Common
import Mathlib.Tactic.Ring

/-!
# Decimal numerals

Texts that are decimal numerals without a leading zero, as a validator that works on texts
recognises them, and the number such a text stands for.  The digits of a natural number are the
numeral of that number.
-/

namespace Numerals

/-- `0`, or at most `k` digits of which the first is not a zero. -/
def isNumeral (k : Nat) : List Char → Bool
  | [] => false
  | c :: cs => (c == '0' && cs.isEmpty) ||
      (c.isDigit && c != '0' && cs.all (·.isDigit) && cs.length < k)

/-- The number of a digit. -/
def digitValue (c : Char) : Nat :=
  c.toNat - '0'.toNat

/-- The number a sequence of digits stands for. -/
def value (cs : List Char) : Nat :=
  cs.foldl (fun n c => 10 * n + digitValue c) 0

lemma digitValue_digitChar {d : Nat} (h : d < 10) : digitValue (Nat.digitChar d) = d := by
  revert d
  decide

lemma value_append_singleton (cs : List Char) (c : Char) :
    value (cs ++ [c]) = 10 * value cs + digitValue c := by
  simp [value]

theorem value_toDigits (n : Nat) : value (Nat.toDigits 10 n) = n := by
  induction n using Nat.strongRecOn with
  | ind n ih =>
      by_cases h : n < 10
      · rw [Nat.toDigits_of_lt_base h]
        simp [value, digitValue_digitChar h]
      · have hdigit : n % 10 < 10 := Nat.mod_lt n (by omega)
        rw [Nat.toDigits_of_base_le (by omega) (Nat.le_of_not_lt h), value_append_singleton,
          ih (n / 10) (by omega), digitValue_digitChar hdigit]
        omega

lemma digitChar_ne_zero {d : Nat} (hlt : d < 10) (hpos : 0 < d) : Nat.digitChar d ≠ '0' := by
  revert d
  decide

/-- The digits of a positive number do not begin with a zero. -/
lemma head_toDigits {n : Nat} (h : 0 < n) : (Nat.toDigits 10 n).head? ≠ some '0' := by
  induction n using Nat.strongRecOn with
  | ind n ih =>
      by_cases hlt : n < 10
      · rw [Nat.toDigits_of_lt_base hlt]
        simpa using digitChar_ne_zero hlt h
      · rw [Nat.toDigits_of_base_le (by omega) (Nat.le_of_not_lt hlt),
          List.head?_append_of_ne_nil _ Nat.toDigits_ne_nil]
        exact ih (n / 10) (by omega) (by omega)

lemma value_append (cs ds : List Char) :
    value (cs ++ ds) = value cs * 10 ^ ds.length + value ds := by
  induction ds using List.reverseRecOn with
  | nil => simp [value]
  | append_singleton ds d ih =>
      rw [← List.append_assoc, value_append_singleton, value_append_singleton, ih,
        List.length_append, List.length_singleton, pow_succ]
      ring

@[simp] lemma value_replicate_zero (k : Nat) : value (List.replicate k '0') = 0 := by
  induction k with
  | zero => rfl
  | succ k ih =>
      rw [List.replicate_succ', value_append_singleton, ih]
      rfl

/-- Zeros in front do not count. -/
lemma value_zeros_append (k : Nat) (cs : List Char) :
    value (List.replicate k '0' ++ cs) = value cs := by
  simp [value_append]

lemma isDigit_of_mem_toDigits {n : Nat} {c : Char} (h : c ∈ Nat.toDigits 10 n) :
    c.isDigit = true :=
  Nat.isDigit_of_mem_toDigits (by omega) (by omega) h

lemma ne_of_isDigit {c d : Char} (hc : c.isDigit = true) (hd : d.isDigit = false) : c ≠ d := by
  rintro rfl
  rw [hc] at hd
  cases hd

/-- A power of ten appends zeros. -/
lemma toDigits_mul_pow {n : Nat} (h : 0 < n) (k : Nat) :
    Nat.toDigits 10 (n * 10 ^ k) = Nat.toDigits 10 n ++ List.replicate k '0' := by
  induction k with
  | zero => simp
  | succ k ih =>
      have hpos : 0 < n * 10 ^ k := Nat.mul_pos h (Nat.pow_pos (by omega))
      have hstep : n * 10 ^ (k + 1) = 10 * (n * 10 ^ k) := by ring
      rw [hstep, Nat.toDigits_of_base_le (by omega) (by omega),
        Nat.mul_div_cancel_left _ (by omega : 0 < 10), Nat.mul_mod_right, ih,
        List.append_assoc, List.replicate_succ']
      rfl

/-- The digits of a number are a numeral where there are not too many of them. -/
theorem isNumeral_toDigits {k : Nat} (hk : 0 < k) (n : Nat) :
    isNumeral k (Nat.toDigits 10 n) = decide (n < 10 ^ k) := by
  rcases Nat.eq_zero_or_pos n with rfl | hpos
  · have hlt : 0 < 10 ^ k := Nat.pow_pos (by omega)
    simp [isNumeral, hlt]
  · have hhead := head_toDigits hpos
    have hdigits : ∀ c ∈ Nat.toDigits 10 n, c.isDigit = true := fun c hc =>
      Nat.isDigit_of_mem_toDigits (by omega) (by omega) hc
    have hlength := Nat.length_toDigits_le_iff (n := n) (by omega : 1 < 10) hk
    cases hcs : Nat.toDigits 10 n with
    | nil => exact absurd hcs Nat.toDigits_ne_nil
    | cons c cs =>
        rw [hcs] at hhead hdigits hlength
        have hc : c ≠ '0' := by simpa using hhead
        have hall : cs.all (·.isDigit) = true :=
          List.all_eq_true.2 fun d hd => hdigits d (List.mem_cons_of_mem _ hd)
        have hnumeral : isNumeral k (c :: cs) = decide (cs.length < k) := by
          simp only [isNumeral, hall, hdigits c List.mem_cons_self, beq_eq_false_iff_ne.2 hc,
            bne_iff_ne.2 hc, Bool.false_and, Bool.true_and, Bool.false_or]
        rw [hnumeral, decide_eq_decide, ← hlength, List.length_cons]
        exact Nat.lt_iff_add_one_le

/-- Digits of which the first is not a zero are a numeral. -/
lemma isNumeral_of_head {c : Char} {cs : List Char} (hc : c ≠ '0')
    (hdigits : ∀ d ∈ c :: cs, d.isDigit = true) : isNumeral (cs.length + 1) (c :: cs) = true := by
  rw [List.forall_mem_cons] at hdigits
  simpa [isNumeral, hc, hdigits.1] using hdigits.2

end Numerals
