import MercuryTools.Framework.Numerals
import Mathlib.Algebra.Order.Field.Rat
import Mathlib.Algebra.Order.Floor.Defs
import Mathlib.Data.List.TakeWhile
import Mathlib.Data.Rat.Floor
import Mathlib.Tactic.FieldSimp
import Mathlib.Tactic.NormNum

/-!
# Decimal numbers and their texts

A finite decimal number is a sign, a coefficient and an exponent; numbers of one value may have
different exponents, and zero has two signs.  A decimal is printed without an exponent
(`text`), and such a text is read back digit by digit (`parse`).  Reading what was printed
keeps the value and the text, and loses only a positive exponent (`parse_text`).

Arithmetic is exact on the values and then rounded, to a number of significant digits
(`roundSignificant`) or of places (`roundHalfUp`).
-/

namespace Decimals

open Numerals

structure Decimal where
  negative : Bool
  coefficient : Nat
  exponent : Int
  deriving DecidableEq, Repr

namespace Decimal

/-- The number a decimal stands for. -/
def value (d : Decimal) : ℚ :=
  (if d.negative then -1 else 1) * d.coefficient * 10 ^ d.exponent

/-- The text without the sign. -/
def unsignedText (d : Decimal) : List Char :=
  let digits := Nat.toDigits 10 d.coefficient
  if 0 ≤ d.exponent then
    if d.coefficient = 0 then ['0'] else digits ++ List.replicate d.exponent.toNat '0'
  else
    let places := (-d.exponent).toNat
    if digits.length ≤ places then
      '0' :: '.' :: (List.replicate (places - digits.length) '0' ++ digits)
    else
      digits.take (digits.length - places) ++ '.' :: digits.drop (digits.length - places)

/-- The text without an exponent. -/
def text (d : Decimal) : String :=
  String.ofList (if d.negative then '-' :: d.unsignedText else d.unsignedText)

/-- A numeral, or a numeral and at most `places` further digits after a point. -/
def parseUnsigned (places : Nat) (negative : Bool) (cs : List Char) : Option Decimal :=
  let whole := cs.takeWhile (· != '.')
  if isNumeral whole.length whole then
    match cs.dropWhile (· != '.') with
    | [] => some ⟨negative, Numerals.value whole, 0⟩
    | _ :: fraction =>
        if 1 ≤ fraction.length && fraction.length ≤ places && fraction.all (·.isDigit) then
          some ⟨negative, Numerals.value (whole ++ fraction), -fraction.length⟩
        else none
  else none

/-- The decimal of a text that has an optional sign and at most `places` places. -/
def parse (places : Nat) (s : String) : Option Decimal :=
  match s.toList with
  | '-' :: cs => parseUnsigned places true cs
  | cs => parseUnsigned places false cs

/-- The decimal of the same value without a positive exponent. -/
def plain (d : Decimal) : Decimal :=
  if 0 ≤ d.exponent then ⟨d.negative, d.coefficient * 10 ^ d.exponent.toNat, 0⟩ else d

/-- The coefficient with the sign. -/
def signed (d : Decimal) : ℤ :=
  if d.negative then -d.coefficient else d.coefficient

/-- The exact sum, with the smaller exponent. -/
def add (a b : Decimal) : Decimal :=
  let exponent := min a.exponent b.exponent
  let sum := a.signed * 10 ^ (a.exponent - exponent).toNat +
    b.signed * 10 ^ (b.exponent - exponent).toNat
  ⟨decide (sum < 0), sum.natAbs, exponent⟩

/-- The exact sum of a list. -/
def sum (ds : List Decimal) : Decimal :=
  ds.foldl add ⟨false, 0, 0⟩

/-! ### Reading what was printed -/

variable {d : Decimal} {places : Nat} {negative : Bool} {cs : List Char}

lemma plain_of_nonneg (h : 0 ≤ d.exponent) :
    d.plain = ⟨d.negative, d.coefficient * 10 ^ d.exponent.toNat, 0⟩ :=
  if_pos h

lemma plain_of_neg (h : ¬ 0 ≤ d.exponent) : d.plain = d :=
  if_neg h

@[simp] lemma negative_plain (d : Decimal) : d.plain.negative = d.negative := by
  unfold plain
  split <;> rfl

@[simp] lemma value_plain (d : Decimal) : d.plain.value = d.value := by
  by_cases h : 0 ≤ d.exponent
  · have hexponent : (10 : ℚ) ^ d.exponent = 10 ^ d.exponent.toNat := by
      conv_lhs => rw [← Int.toNat_of_nonneg h]
      rw [zpow_natCast]
    rw [plain_of_nonneg h, value, value, hexponent]
    push_cast
    ring
  · rw [plain_of_neg h]

lemma exponent_plain_le {places : Int} (hplaces : places ≤ 0) :
    places ≤ d.plain.exponent ↔ places ≤ d.exponent := by
  by_cases h : 0 ≤ d.exponent
  · rw [plain_of_nonneg h]
    exact ⟨fun _ => Int.le_trans hplaces h, fun _ => hplaces⟩
  · rw [plain_of_neg h]

@[simp] lemma unsignedText_plain (d : Decimal) : d.plain.unsignedText = d.unsignedText := by
  by_cases h : 0 ≤ d.exponent
  · rw [plain_of_nonneg h]
    by_cases hzero : d.coefficient = 0
    · simp [unsignedText, h, hzero]
    · have hne : d.coefficient * 10 ^ d.exponent.toNat ≠ 0 :=
        Nat.mul_ne_zero hzero (Nat.pow_pos (by omega)).ne'
      simp [unsignedText, h, hzero, toDigits_mul_pow (Nat.pos_of_ne_zero hzero)]
  · rw [plain_of_neg h]

@[simp] lemma text_plain (d : Decimal) : d.plain.text = d.text := by
  simp [text]

/-- A text without a point is a whole number. -/
lemma parseUnsigned_whole (hnumeral : isNumeral cs.length cs = true)
    (hdigits : ∀ c ∈ cs, c.isDigit = true) :
    parseUnsigned places negative cs = some ⟨negative, Numerals.value cs, 0⟩ := by
  have hpoint : ∀ c ∈ cs, (c != '.') = true := fun c hc =>
    bne_iff_ne.2 (ne_of_isDigit (hdigits c hc) (by decide))
  have htake : cs.takeWhile (· != '.') = cs := List.takeWhile_eq_self_iff.2 hpoint
  have hdrop : cs.dropWhile (· != '.') = [] := List.dropWhile_eq_nil_iff.2 hpoint
  simp only [parseUnsigned, htake, hdrop, hnumeral, if_true]

/-- A text with a point. -/
lemma parseUnsigned_point {fraction : List Char} (hnumeral : isNumeral cs.length cs = true)
    (hdigits : ∀ c ∈ cs, c.isDigit = true) (hfraction : ∀ c ∈ fraction, c.isDigit = true)
    (hpos : 1 ≤ fraction.length) (hle : fraction.length ≤ places) :
    parseUnsigned places negative (cs ++ '.' :: fraction) =
      some ⟨negative, Numerals.value (cs ++ fraction), -fraction.length⟩ := by
  have hpoint : ∀ c ∈ cs, (c != '.') = true := fun c hc =>
    bne_iff_ne.2 (ne_of_isDigit (hdigits c hc) (by decide))
  have htake : (cs ++ '.' :: fraction).takeWhile (· != '.') = cs := by
    rw [List.takeWhile_append_of_pos hpoint]
    simp
  have hdrop : (cs ++ '.' :: fraction).dropWhile (· != '.') = '.' :: fraction := by
    rw [List.dropWhile_append_of_pos hpoint]
    simp
  have hall : fraction.all (·.isDigit) = true := List.all_eq_true.2 hfraction
  simp only [parseUnsigned, htake, hdrop, hnumeral, if_true, hpos, hle, decide_true, hall,
    Bool.true_and]

lemma isNumeral_digits (n : Nat) :
    isNumeral (Nat.toDigits 10 n).length (Nat.toDigits 10 n) = true := by
  rw [isNumeral_toDigits (List.length_pos_iff.2 Nat.toDigits_ne_nil), decide_eq_true_eq]
  exact (Nat.length_toDigits_le_iff (by omega)
    (List.length_pos_iff.2 Nat.toDigits_ne_nil)).1 (Nat.le_refl _)

/-- The unsigned text is read back. -/
lemma parseUnsigned_unsignedText (negative : Bool) (h : -(places : Int) ≤ d.exponent) :
    parseUnsigned places negative d.unsignedText =
      some ⟨negative, d.plain.coefficient, d.plain.exponent⟩ := by
  by_cases hexponent : 0 ≤ d.exponent
  · rw [plain_of_nonneg hexponent]
    by_cases hzero : d.coefficient = 0
    · simp only [unsignedText, hexponent, if_true, hzero, Nat.zero_mul]
      rfl
    · have htext : d.unsignedText = Nat.toDigits 10 (d.coefficient * 10 ^ d.exponent.toNat) := by
        simp [unsignedText, hexponent, hzero, toDigits_mul_pow (Nat.pos_of_ne_zero hzero)]
      rw [htext, parseUnsigned_whole (isNumeral_digits _) fun c => isDigit_of_mem_toDigits,
        value_toDigits]
  · rw [plain_of_neg hexponent]
    have hplaces : ((-d.exponent).toNat : Int) = -d.exponent := Int.toNat_of_nonneg (by omega)
    have hcast : d.exponent = -((-d.exponent).toNat : Int) := by omega
    generalize (-d.exponent).toNat = k at hplaces hcast
    by_cases hle : (Nat.toDigits 10 d.coefficient).length ≤ k
    · have htext : d.unsignedText = ['0'] ++ '.' :: (List.replicate
          (k - (Nat.toDigits 10 d.coefficient).length) '0' ++ Nat.toDigits 10 d.coefficient) := by
        simp only [unsignedText, hexponent, if_false, ← hplaces, Int.toNat_natCast, hle, if_true]
        rfl
      have hlength : (List.replicate (k - (Nat.toDigits 10 d.coefficient).length) '0' ++
          Nat.toDigits 10 d.coefficient).length = k := by
        rw [List.length_append, List.length_replicate]
        omega
      have hdigits : ∀ c ∈ ['0'], c.isDigit = true := by
        rintro c hc
        rw [List.mem_singleton.1 hc]
        rfl
      rw [htext, parseUnsigned_point rfl hdigits, hlength, ← hcast]
      · have hvalue : Numerals.value (['0'] ++ (List.replicate
            (k - (Nat.toDigits 10 d.coefficient).length) '0' ++ Nat.toDigits 10 d.coefficient)) =
            d.coefficient := by
          rw [value_append, value_zeros_append, value_toDigits]
          simp [Numerals.value, digitValue]
        rw [hvalue]
      · intro c hc
        rcases List.mem_append.1 hc with hc | hc
        · rw [List.eq_of_mem_replicate hc]
          decide
        · exact isDigit_of_mem_toDigits hc
      · omega
      · omega
    · have hlt : k < (Nat.toDigits 10 d.coefficient).length := Nat.lt_of_not_le hle
      have htext : d.unsignedText =
          (Nat.toDigits 10 d.coefficient).take ((Nat.toDigits 10 d.coefficient).length - k) ++
            '.' :: (Nat.toDigits 10 d.coefficient).drop
              ((Nat.toDigits 10 d.coefficient).length - k) := by
        simp only [unsignedText, hexponent, if_false, ← hplaces, Int.toNat_natCast, hle]
      have hpos : 0 < d.coefficient := by
        rcases Nat.eq_zero_or_pos d.coefficient with hzero | hpos
        · rw [hzero, Nat.toDigits_zero, List.length_singleton] at hlt
          omega
        · exact hpos
      have hhead := head_toDigits hpos
      have hdigits : ∀ c ∈ Nat.toDigits 10 d.coefficient, c.isDigit = true := fun c =>
        isDigit_of_mem_toDigits
      have hvalue := value_toDigits d.coefficient
      generalize Nat.toDigits 10 d.coefficient = digits at *
      have hlength : (digits.drop (digits.length - k)).length = k := by
        rw [List.length_drop]
        omega
      rw [htext, parseUnsigned_point, List.take_append_drop, hvalue, hlength, ← hcast]
      · cases digits with
        | nil => simp at hlt
        | cons c cs =>
            obtain ⟨m, hm⟩ : ∃ m, (c :: cs).length - k = m + 1 := ⟨(c :: cs).length - k - 1, by omega⟩
            have hc : c ≠ '0' := by simpa using hhead
            rw [hm, List.take_succ_cons, List.length_cons]
            refine isNumeral_of_head hc fun e he => hdigits e ?_
            rcases List.mem_cons.1 he with rfl | he
            · exact List.mem_cons_self
            · exact List.mem_cons_of_mem _ (List.mem_of_mem_take he)
      · exact fun c hc => hdigits c (List.mem_of_mem_take hc)
      · exact fun c hc => hdigits c (List.mem_of_mem_drop hc)
      · omega
      · omega

/-- An unsigned text does not begin with a sign. -/
lemma head_unsignedText (d : Decimal) : d.unsignedText.head? ≠ some '-' := by
  have hdigits : ∀ c ∈ Nat.toDigits 10 d.coefficient, c ≠ '-' := fun c hc =>
    ne_of_isDigit (isDigit_of_mem_toDigits hc) (by decide)
  have hhead : ∀ cs : List Char, (∀ c ∈ cs, c ≠ '-') → cs.head? ≠ some '-' := by
    intro cs hcs heq
    exact hcs '-' (List.mem_of_mem_head? heq) rfl
  unfold unsignedText
  apply hhead
  intro c hc
  split at hc
  · split at hc
    · simp only [List.mem_singleton] at hc
      rw [hc]
      decide
    · rcases List.mem_append.1 hc with hc | hc
      · exact hdigits c hc
      · rw [List.eq_of_mem_replicate hc]
        decide
  · dsimp only at hc
    split at hc
    · simp only [List.mem_cons, List.mem_append] at hc
      rcases hc with rfl | rfl | hc | hc
      · decide
      · decide
      · rw [List.eq_of_mem_replicate hc]
        decide
      · exact hdigits c hc
    · rcases List.mem_append.1 hc with hc | hc
      · exact hdigits c (List.mem_of_mem_take hc)
      · rcases List.mem_cons.1 hc with rfl | hc
        · decide
        · exact hdigits c (List.mem_of_mem_drop hc)

/-- Reading a printed decimal gives the plain one. -/
theorem parse_text (h : -(places : Int) ≤ d.exponent) : parse places d.text = some d.plain := by
  have hplain : (⟨d.negative, d.plain.coefficient, d.plain.exponent⟩ : Decimal) = d.plain := by
    rw [← negative_plain]
  rw [← hplain, parse, text, String.toList_ofList]
  cases hsign : d.negative with
  | true =>
      simp only [if_true]
      exact parseUnsigned_unsignedText true h
  | false =>
      simp only [Bool.false_eq_true, if_false]
      have hhead := head_unsignedText d
      split
      · rename_i cs hcs
        rw [hcs] at hhead
        exact absurd rfl hhead
      · exact parseUnsigned_unsignedText false h

end Decimal

/-! ## Rounding -/

/-- The nearest integer, ties away from zero. -/
def nearestUp (q : ℚ) : ℤ :=
  if 0 ≤ q then ⌊q + 1 / 2⌋ else -⌊-q + 1 / 2⌋

/-- The nearest integer, ties to the even one. -/
def nearestEven (q : ℚ) : ℤ :=
  if q - ⌊q⌋ < 1 / 2 then ⌊q⌋
  else if 1 / 2 < q - ⌊q⌋ then ⌊q⌋ + 1
  else if ⌊q⌋ % 2 = 0 then ⌊q⌋ else ⌊q⌋ + 1

/-- A value rounded to a number of places, ties away from zero. -/
def roundHalfUp (places : Nat) (q : ℚ) : ℚ :=
  nearestUp (q * 10 ^ places) / 10 ^ places

/-- A value rounded to `digits` significant digits, ties to the even digit, where it has more
than that many digits before the point and at most `places` behind it: the surplus is counted
off from the right. -/
def roundSignificant (digits places : Nat) (q : ℚ) : ℚ :=
  let length := (Nat.toDigits 10 (q * 10 ^ places).num.natAbs).length
  if length ≤ digits then q
  else nearestEven (q * 10 ^ places / 10 ^ (length - digits)) * 10 ^ (length - digits) /
    10 ^ places

end Decimals
