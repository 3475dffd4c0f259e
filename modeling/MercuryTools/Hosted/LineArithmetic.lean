import MercuryTools.Framework.DecimalRounding
import MercuryTools.Hosted.PreviewRoundTrip

/-!
# The arithmetic of a document line

`cross_check_line` computes the amounts of a line in a context of twenty-eight digits.  A product of
admitted numbers may have more, and then it is rounded twice: first to twenty-eight digits, then to
the minor units.  The computation is exact just where every amount has at most twenty-eight digits
and the digits of no longer product lie at a half of a minor unit (`computeLine_eq_ok_iff`);
elsewhere it is off by a minor unit, or `quantize` raises an exception that no caller expects.

A line that the validator accepts is never near these limits (`Agreed`).
-/

namespace MercuryTools
namespace Hosted
namespace Documents

open Checks Decimals

/-! ## What is computed -/

/-- What is computed once the discount is accepted. -/
structure LineTaxes where
  vat : ℚ
  withholding : ℚ
  total : ℚ
  deriving DecidableEq

/-- What is computed of a line, up to a discount that is refused. -/
structure LineComputation where
  subtotal : ℚ
  taxes : Except String LineTaxes
  deriving DecidableEq

section

variable (line : DocumentLineAmounts ℚ)

/-- The taxes and the total in `cross_check_line`. -/
def computeTaxes (subtotal : ℚ) : Except String LineTaxes := do
  let taxable := context (subtotal - line.discountAmount)
  let vat ← roundMoney (context (context (taxable * line.vatRate) / 100)) line.minorUnits
  let withholding ←
    roundMoney (context (context (taxable * line.withholdingRate) / 100)) line.minorUnits
  let total ← roundMoney (context (context (taxable + vat) - withholding)) line.minorUnits
  return ⟨vat, withholding, total⟩

/-- The amounts that `cross_check_line` computes.  An exception other than the errors of the
validator is not the result of a computation. -/
def computeLine : Except String LineComputation := do
  let subtotal ← roundMoney (context (line.quantity * line.unitPrice)) line.minorUnits
  let discount ← roundMoney line.discountAmount line.minorUnits
  if line.discountAmount ≠ discount then
    return ⟨subtotal, .error "line_currency_precision_invalid"⟩
  else if ¬ line.discountAmount ≤ subtotal then
    return ⟨subtotal, .error "line_discount_mismatch"⟩
  else do
    let taxes ← computeTaxes line subtotal
    return ⟨subtotal, .ok taxes⟩

/-- The amounts of the line are compared with what was computed. -/
def compareLine (taxes : LineTaxes) : Except String Unit := do
  require (line.vatAmount == taxes.vat) "line_vat_mismatch"
  require (line.withholdingAmount == taxes.withholding) "line_withholding_mismatch"
  require (line.lineTotal == taxes.total) "line_total_mismatch"

/-- `cross_check_line`, from where the discount is accepted. -/
lemma computeTaxes_bind (subtotal : ℚ) :
    (computeTaxes line subtotal >>= compareLine line) = (do
      let taxable := context (subtotal - line.discountAmount)
      let expectedVat ←
        roundMoney (context (context (taxable * line.vatRate) / 100)) line.minorUnits
      let expectedWithholding ←
        roundMoney (context (context (taxable * line.withholdingRate) / 100)) line.minorUnits
      let expectedTotal ←
        roundMoney (context (context (taxable + expectedVat) - expectedWithholding)) line.minorUnits
      require (line.vatAmount == expectedVat) "line_vat_mismatch"
      require (line.withholdingAmount == expectedWithholding) "line_withholding_mismatch"
      require (line.lineTotal == expectedTotal) "line_total_mismatch") := by
  unfold computeTaxes
  simp only [bind_assoc, pure_bind]
  rfl

/-- `cross_check_line` computes these amounts and compares them. -/
theorem crossCheckLine_eq : crossCheckLine line =
    computeLine line >>= fun computation => computation.taxes >>= compareLine line := by
  unfold crossCheckLine computeLine
  cases roundMoney (context (line.quantity * line.unitPrice)) line.minorUnits with
  | error code => rfl
  | ok subtotal =>
    cases roundMoney line.discountAmount line.minorUnits with
    | error code => rfl
    | ok discount =>
      by_cases hdiscount : line.discountAmount = discount
      · have hprecise : require (line.discountAmount == discount)
            "line_currency_precision_invalid" = .ok () :=
          require_eq_ok.2 (beq_iff_eq.2 hdiscount)
        by_cases hsubtotal : line.discountAmount ≤ subtotal
        · have hcovered : require (line.discountAmount ≤ subtotal) "line_discount_mismatch" =
              .ok () := require_eq_ok.2 (decide_eq_true hsubtotal)
          change (require _ _ >>= fun _ => require _ _ >>= fun _ => _) = ite _ _ _ >>= _
          rw [hprecise, if_neg (not_not.2 hdiscount), if_neg (not_not.2 hsubtotal)]
          change (require _ _ >>= fun _ => _) = _
          rw [hcovered, bind_assoc]
          exact (computeTaxes_bind line subtotal).symm
        · have hrefused : require (line.discountAmount ≤ subtotal) "line_discount_mismatch" =
              .error "line_discount_mismatch" := if_neg (by simpa using hsubtotal)
          change (require _ _ >>= fun _ => require _ _ >>= fun _ => _) = ite _ _ _ >>= _
          rw [hprecise, if_neg (not_not.2 hdiscount), if_pos hsubtotal]
          change (require _ _ >>= fun _ => _) = _
          rw [hrefused]
          rfl
      · have hrefused : require (line.discountAmount == discount)
            "line_currency_precision_invalid" = .error "line_currency_precision_invalid" :=
          if_neg (by simpa using hdiscount)
        change (require _ _ >>= fun _ => _) = ite _ _ _ >>= _
        rw [hrefused, if_pos hdiscount]
        rfl

/-! ## The exact results -/

/-- The taxes and the total, each rounded once. -/
def exactTaxes (taxable : ℚ) : LineTaxes where
  vat := roundHalfUp line.minorUnits (taxable * line.vatRate / 100)
  withholding := roundHalfUp line.minorUnits (taxable * line.withholdingRate / 100)
  total := roundHalfUp line.minorUnits (taxable +
    roundHalfUp line.minorUnits (taxable * line.vatRate / 100) -
    roundHalfUp line.minorUnits (taxable * line.withholdingRate / 100))

def exactSubtotal : ℚ :=
  roundHalfUp line.minorUnits (line.quantity * line.unitPrice)

def exactLine : LineComputation where
  subtotal := exactSubtotal line
  taxes :=
    if line.discountAmount ≠ roundHalfUp line.minorUnits line.discountAmount then
      .error "line_currency_precision_invalid"
    else if ¬ line.discountAmount ≤ exactSubtotal line then .error "line_discount_mismatch"
    else .ok (exactTaxes line (exactSubtotal line - line.discountAmount))

end

/-! ## Where the computation is exact -/

/-- The digits of a number with ten places. -/
def coefficient (value : ℚ) : ℕ :=
  (value * 10 ^ 10).num.natAbs

/-- The value is less than half a minor unit below the limit of twenty-eight digits, and where it
has more than twenty-eight digits, they do not lie at a half of a minor unit. -/
structure Settles (minorUnits : ℕ) (value : ℚ) : Prop where
  bound : value * 10 ^ minorUnits + 1 / 2 < 10 ^ 28
  digits : ¬ CrossesHalf 28 10 minorUnits (coefficient value)

/-- The taxes settle, the amount with its VAT has at most twenty-eight digits, and so has the
total. -/
structure TaxesFit (line : DocumentLineAmounts ℚ) (taxable : ℚ) : Prop where
  vat : Settles line.minorUnits (taxable * line.vatRate / 100)
  withholding : Settles line.minorUnits (taxable * line.withholdingRate / 100)
  gross : FewDigits 28 10 (taxable + roundHalfUp line.minorUnits (taxable * line.vatRate / 100))
  total : (taxable + roundHalfUp line.minorUnits (taxable * line.vatRate / 100) -
    roundHalfUp line.minorUnits (taxable * line.withholdingRate / 100)) * 10 ^ line.minorUnits <
      10 ^ 28

/-- The product of quantity and price settles, and unless the discount is refused, so do the
taxes. -/
structure LineFits (line : DocumentLineAmounts ℚ) : Prop where
  subtotal : Settles line.minorUnits (line.quantity * line.unitPrice)
  taxes : line.discountAmount = roundHalfUp line.minorUnits line.discountAmount →
    line.discountAmount ≤ exactSubtotal line →
    TaxesFit line (exactSubtotal line - line.discountAmount)

/-- What the fields of a line admit. -/
structure LineAdmitted (line : DocumentLineAmounts ℚ) : Prop where
  minorUnits : line.minorUnits ≤ 4
  quantity : HasPlaces 4 line.quantity
  quantity_nonneg : 0 ≤ line.quantity
  unitPrice : HasPlaces 4 line.unitPrice
  unitPrice_nonneg : 0 ≤ line.unitPrice
  discount_nonneg : 0 ≤ line.discountAmount
  discount_le : line.discountAmount ≤ maxDecimal
  vatRate : HasPlaces 4 line.vatRate
  vatRate_nonneg : 0 ≤ line.vatRate
  vatRate_le : line.vatRate ≤ 100
  vatAmount_nonneg : 0 ≤ line.vatAmount
  vatAmount_le : line.vatAmount ≤ maxDecimal
  withholdingRate : HasPlaces 4 line.withholdingRate
  withholdingRate_nonneg : 0 ≤ line.withholdingRate
  withholdingRate_le : line.withholdingRate ≤ 100
  withholdingAmount_nonneg : 0 ≤ line.withholdingAmount
  withholdingAmount_le : line.withholdingAmount ≤ maxDecimal
  lineTotal_le : |line.lineTotal| ≤ maxDecimal

lemma lineAdmitted_of_fields {line : DocumentLineAmounts Decimal}
    (hamounts : ∀ d ∈ line.amounts, Admitted d)
    (hfields : lineFieldsValid (line.map Decimal.value) = true) :
    LineAdmitted (line.map Decimal.value) := by
  simp only [LineAmounts.amounts, List.forall_mem_cons, List.not_mem_nil, false_implies,
    implies_true, and_true] at hamounts
  obtain ⟨hquantity, hprice, hdiscount, hvatRate, hvat, hwithholdingRate, hwithholding, htotal⟩ :=
    hamounts
  simp only [lineFieldsValid, Bool.and_eq_true, decide_eq_true_eq] at hfields
  obtain ⟨⟨⟨⟨⟨⟨⟨⟨⟨⟨-, hminor⟩, h1⟩, h2⟩, h3⟩, h4⟩, h5⟩, h6⟩, h7⟩, h8⟩, h9⟩ := hfields
  exact ⟨hminor, Decimal.hasPlaces_value hquantity.2, h1.le, Decimal.hasPlaces_value hprice.2, h2,
    h3, (abs_le.1 hdiscount.1).2, Decimal.hasPlaces_value hvatRate.2, h4, h5, h6,
    (abs_le.1 hvat.1).2, Decimal.hasPlaces_value hwithholdingRate.2, h7, h8, h9,
    (abs_le.1 hwithholding.1).2, htotal.1⟩

/-! ## One rounding -/

variable {m : ℕ} {x y : ℚ}

lemma roundMoney_eq_ok {z : ℚ} : roundMoney x m = .ok z ↔
    |roundHalfUp m x| * 10 ^ m < 10 ^ 28 ∧ z = roundHalfUp m x := by
  simp only [roundMoney, bind_eq_ok, require_eq_ok, pure_eq_ok, decide_eq_true_eq]
  constructor
  · rintro ⟨-, hlt, heq⟩
    exact ⟨hlt, heq.symm⟩
  · rintro ⟨hlt, heq⟩
    exact ⟨(), hlt, heq.symm⟩

/-- An amount with few digits is rounded to itself. -/
lemma roundMoney_of_hasPlaces (hplaces : HasPlaces m x) (hlt : |x| * 10 ^ m < 10 ^ 28) :
    roundMoney x m = .ok x := by
  rw [roundMoney_eq_ok, roundHalfUp_of_hasPlaces hplaces]
  exact ⟨hlt, rfl⟩

lemma context_of_lt (hm : m ≤ 10) (hplaces : HasPlaces m x) (hlt : |x| * 10 ^ m < 10 ^ 28) :
    context x = x :=
  roundSignificant_of_fewDigits (by norm_num) (.of_hasPlaces hm hplaces hlt)

lemma context_nonneg (h : 0 ≤ x) : 0 ≤ context x :=
  roundSignificant_nonneg h

lemma eq_coefficient (hx : 0 ≤ x) (hplaces : HasPlaces 10 x) : x = coefficient x / 10 ^ 10 := by
  obtain ⟨n, rfl⟩ := hplaces
  have hn : 0 ≤ n := by
    have := mul_nonneg hx (ten_pow_pos 10).le
    rw [div_mul_cancel₀ _ (ten_pow_pos 10).ne'] at this
    exact_mod_cast this
  rw [coefficient, HasPlaces.num_eq rfl, Nat.cast_natAbs, abs_of_nonneg hn]

/-- An amount that is short has few surplus digits. -/
lemma surplus_coefficient_le (hx : 0 ≤ x) (hplaces : HasPlaces 10 x) (hm : m ≤ 4)
    (hbound : x * 10 ^ m + 1 / 2 < 10 ^ 28) : surplus 28 (coefficient x) + m ≤ 10 := by
  have hscale : (10 : ℚ) ^ 10 = 10 ^ m * 10 ^ (10 - m) := by
    rw [← pow_add, Nat.add_sub_cancel' (by omega)]
  have hcoefficient : (coefficient x : ℚ) = x * 10 ^ m * 10 ^ (10 - m) := by
    conv_rhs => rw [eq_coefficient hx hplaces]
    rw [mul_assoc, ← hscale, div_mul_cancel₀ _ (ten_pow_pos 10).ne']
  have hlt : (coefficient x : ℚ) < 10 ^ (28 + (10 - m)) := by
    rw [hcoefficient, pow_add]
    exact mul_lt_mul_of_pos_right (by linarith) (ten_pow_pos (10 - m))
  have hlength : (Nat.toDigits 10 (coefficient x)).length ≤ 28 + (10 - m) :=
    (Nat.length_toDigits_le_iff (by norm_num) (by omega)).2 (by exact_mod_cast hlt)
  rw [surplus]
  omega

/-- The computation of an amount is exact just where the value settles. -/
lemma roundMoney_context_iff (hx : 0 ≤ x) (hplaces : HasPlaces 10 x) (hm : m ≤ 4) :
    roundMoney (context x) m = .ok (roundHalfUp m x) ↔ Settles m x := by
  have hbound : |roundHalfUp m x| * 10 ^ m < 10 ^ 28 ↔ x * 10 ^ m + 1 / 2 < 10 ^ 28 := by
    have hpos := ten_pow_pos m
    rw [abs_of_nonneg (roundHalfUp_nonneg hx), roundHalfUp, div_mul_cancel₀ _ hpos.ne',
      nearestUp_of_nonneg (by positivity), show (10 ^ 28 : ℚ) = ((10 ^ 28 : ℤ) : ℚ) by norm_num,
      Int.cast_lt, Int.floor_lt]
  have hdigits : x * 10 ^ m + 1 / 2 < 10 ^ 28 → (roundHalfUp m x = roundHalfUp m (context x) ↔
      ¬ CrossesHalf 28 10 m (coefficient x)) := by
    intro hlt
    have hhalves := halves_roundSignificant_iff (by omega : m < 10)
      (surplus_coefficient_le hx hplaces hm hlt)
    rw [← eq_coefficient hx hplaces] at hhalves
    exact (roundHalfUp_eq_iff hx (context_nonneg hx)).trans hhalves
  rw [roundMoney_eq_ok]
  constructor
  · rintro ⟨hlt, heq⟩
    rw [← heq] at hlt
    exact ⟨hbound.1 hlt, (hdigits (hbound.1 hlt)).1 heq⟩
  · rintro ⟨hlt, hnot⟩
    have heq := (hdigits hlt).2 hnot
    exact ⟨heq ▸ hbound.2 hlt, heq⟩

/-- The division of a tax by one hundred loses nothing. -/
lemma context_tax (h : HasPlaces 8 x) : context (context x / 100) = context (x / 100) := by
  have hmove : context (x / 100) = context x / 100 :=
    roundSignificant_div_hundred (by norm_num) h
  rw [← hmove]
  exact roundSignificant_of_fewDigits (by norm_num)
    (fewDigits_roundSignificant (by norm_num) h.div_hundred)

/-! ## The taxes -/

section

variable {line : DocumentLineAmounts ℚ} {taxable vat withholding : ℚ}

variable {rate subtotal : ℚ} {k : ℕ}

/-- A tax is computed exactly just where it settles. -/
lemma roundMoney_tax_iff (hm : m ≤ 4) (hx : 0 ≤ x) (hplaces : HasPlaces m x) (hrate : 0 ≤ rate)
    (hratePlaces : HasPlaces 4 rate) :
    roundMoney (context (context (x * rate) / 100)) m = .ok (roundHalfUp m (x * rate / 100)) ↔
      Settles m (x * rate / 100) := by
  have hproduct : HasPlaces 8 (x * rate) := (hplaces.mul hratePlaces).mono (by omega)
  rw [context_tax hproduct]
  exact roundMoney_context_iff (by positivity) hproduct.div_hundred hm

/-- The total is computed exactly just where the amount with VAT has few digits and the total is not
too long. -/
lemma roundMoney_total_iff (hm : m ≤ 4) (htaxable : 0 ≤ taxable) (hvat : 0 ≤ vat)
    (hle : withholding ≤ taxable) (hplaces : HasPlaces m taxable)
    (hvatPlaces : HasPlaces m vat) (hwithholdingPlaces : HasPlaces m withholding)
    (hbound : taxable * 10 ^ m < 10 ^ 28) :
    roundMoney (context (context (taxable + vat) - withholding)) m =
        .ok (roundHalfUp m (taxable + vat - withholding)) ↔
      FewDigits 28 10 (taxable + vat) ∧ (taxable + vat - withholding) * 10 ^ m < 10 ^ 28 := by
  have hpos := ten_pow_pos m
  have htotalPlaces : HasPlaces m (taxable + vat - withholding) :=
    (hplaces.add hvatPlaces).sub hwithholdingPlaces
  have htotal : 0 ≤ taxable + vat - withholding := by linarith
  rw [roundHalfUp_of_hasPlaces htotalPlaces]
  constructor
  · intro h
    obtain ⟨hlt, heq⟩ := roundMoney_eq_ok.1 h
    set gross := context (taxable + vat) with hgross
    have hgrossPlaces : HasPlaces m gross :=
      hasPlaces_roundSignificant (by omega) (hplaces.add hvatPlaces)
    have hgross_nonneg : 0 ≤ gross := context_nonneg (by linarith)
    have hdifference : HasPlaces m (gross - withholding) := hgrossPlaces.sub hwithholdingPlaces
    have hrounded : HasPlaces m (context (gross - withholding)) :=
      hasPlaces_roundSignificant (by omega) hdifference
    rw [roundHalfUp_of_hasPlaces hrounded] at hlt heq
    -- a longer difference would stay as long
    have hshort : |gross - withholding| * 10 ^ m < 10 ^ 28 := by
      rcases le_or_gt 0 (gross - withholding) with hnonneg | hneg
      · by_contra hlong
        rw [abs_of_nonneg hnonneg, not_lt] at hlong
        have hscale : (10 : ℚ) ^ 10 = 10 ^ m * 10 ^ (10 - m) := by
          rw [← pow_add, Nat.add_sub_cancel' (by omega)]
        have hpower : (10 : ℚ) ^ (28 + (10 - m)) ≤ (gross - withholding) * 10 ^ 10 := by
          rw [pow_add, hscale, ← mul_assoc]
          gcongr
        have hkept := le_roundSignificant (by norm_num : 0 < 28)
          (hdifference.mono (by omega)) hpower
        rw [pow_add, hscale, ← mul_assoc] at hkept
        have hkept' := le_of_mul_le_mul_right hkept (ten_pow_pos (10 - m))
        rw [abs_of_nonneg (context_nonneg hnonneg)] at hlt
        exact absurd hlt (not_lt.2 hkept')
      · rw [abs_of_neg hneg]
        have : (withholding - gross) * 10 ^ m ≤ taxable * 10 ^ m := by
          gcongr
          linarith
        linarith
    rw [context_of_lt (by omega) hdifference hshort] at heq hlt
    have hsame : gross = taxable + vat := by linarith
    refine ⟨hsame ▸ fewDigits_roundSignificant (by norm_num)
      ((hplaces.add hvatPlaces).mono (by omega)), ?_⟩
    rwa [← heq, abs_of_nonneg htotal] at hlt
  · rintro ⟨hfew, hlt⟩
    have hgross : context (taxable + vat) = taxable + vat :=
      roundSignificant_of_fewDigits (by norm_num) hfew
    rw [← abs_of_nonneg htotal] at hlt
    rw [hgross, context_of_lt (by omega) htotalPlaces hlt, roundMoney_of_hasPlaces htotalPlaces hlt]

/-- A tax of at most one hundred per cent is at most what is taxed. -/
lemma tax_le (hx : 0 ≤ x) (hplaces : HasPlaces m x) (hrate : 0 ≤ rate) (hle : rate ≤ 100) :
    roundHalfUp m (x * rate / 100) ≤ x := by
  refine roundHalfUp_le (by positivity) hplaces ?_
  rw [div_le_iff₀ (by norm_num)]
  gcongr

lemma tax_nonneg (hx : 0 ≤ x) (hrate : 0 ≤ rate) : 0 ≤ roundHalfUp m (x * rate / 100) :=
  roundHalfUp_nonneg (by positivity)

/-- The taxes and the total are computed exactly just where they fit. -/
lemma computeTaxes_eq_ok_iff (hline : LineAdmitted line)
    (hplaces : HasPlaces line.minorUnits subtotal)
    (hbound : subtotal * 10 ^ line.minorUnits < 10 ^ 28)
    (hdiscount : HasPlaces line.minorUnits line.discountAmount)
    (hle : line.discountAmount ≤ subtotal) :
    computeTaxes line subtotal = .ok (exactTaxes line (subtotal - line.discountAmount)) ↔
      TaxesFit line (subtotal - line.discountAmount) := by
  have hm := hline.minorUnits
  have hpos := ten_pow_pos line.minorUnits
  have htaxable : 0 ≤ subtotal - line.discountAmount := by linarith
  have htaxablePlaces := hplaces.sub hdiscount
  have htaxableBound : (subtotal - line.discountAmount) * 10 ^ line.minorUnits < 10 ^ 28 := by
    have := mul_nonneg hline.discount_nonneg hpos.le
    linarith
  have hcontext : context (subtotal - line.discountAmount) = subtotal - line.discountAmount :=
    context_of_lt (by omega) htaxablePlaces (by rwa [abs_of_nonneg htaxable])
  have hvat := roundMoney_tax_iff hm htaxable htaxablePlaces hline.vatRate_nonneg hline.vatRate
  have hwithholding := roundMoney_tax_iff hm htaxable htaxablePlaces
    hline.withholdingRate_nonneg hline.withholdingRate
  have htotal := roundMoney_total_iff hm htaxable (tax_nonneg htaxable hline.vatRate_nonneg)
    (tax_le htaxable htaxablePlaces hline.withholdingRate_nonneg hline.withholdingRate_le)
    htaxablePlaces (hasPlaces_roundHalfUp _ _) (hasPlaces_roundHalfUp _ _) htaxableBound
  have hbind : computeTaxes line subtotal = .ok (exactTaxes line (subtotal - line.discountAmount))
      ↔ roundMoney (context (context ((subtotal - line.discountAmount) * line.vatRate) / 100))
          line.minorUnits = .ok (exactTaxes line (subtotal - line.discountAmount)).vat ∧
        roundMoney (context (context ((subtotal - line.discountAmount) * line.withholdingRate) /
          100)) line.minorUnits = .ok (exactTaxes line (subtotal - line.discountAmount)).withholding ∧
        roundMoney (context (context (subtotal - line.discountAmount +
          (exactTaxes line (subtotal - line.discountAmount)).vat) -
          (exactTaxes line (subtotal - line.discountAmount)).withholding)) line.minorUnits =
          .ok (exactTaxes line (subtotal - line.discountAmount)).total := by
    simp only [computeTaxes, hcontext, bind_eq_ok, pure_eq_ok]
    constructor
    · rintro ⟨vat, h1, withholding, h2, total, h3, heq⟩
      rw [← heq]
      exact ⟨h1, h2, h3⟩
    · rintro ⟨h1, h2, h3⟩
      exact ⟨_, h1, _, h2, _, h3, rfl⟩
  rw [hbind]
  constructor
  · rintro ⟨h1, h2, h3⟩
    obtain ⟨hgross, hlt⟩ := htotal.1 h3
    exact ⟨hvat.1 h1, hwithholding.1 h2, hgross, hlt⟩
  · rintro ⟨h1, h2, hgross, hlt⟩
    exact ⟨hvat.2 h1, hwithholding.2 h2, htotal.2 ⟨hgross, hlt⟩⟩

/-! ## A line -/

/-- The discount is compared with itself rounded. -/
lemma roundMoney_discount (hline : LineAdmitted line) :
    roundMoney line.discountAmount line.minorUnits =
      .ok (roundHalfUp line.minorUnits line.discountAmount) := by
  rw [roundMoney_eq_ok]
  refine ⟨?_, rfl⟩
  have hpos := ten_pow_pos line.minorUnits
  have hone : roundHalfUp line.minorUnits line.discountAmount ≤ 10 ^ 15 := by
    refine roundHalfUp_le hline.discount_nonneg ?_ (hline.discount_le.trans ?_)
    · exact ⟨10 ^ 15 * 10 ^ line.minorUnits, by push_cast; field_simp; norm_num⟩
    · norm_num [maxDecimal]
  rw [abs_of_nonneg (roundHalfUp_nonneg hline.discount_nonneg)]
  have hle : (10 : ℚ) ^ line.minorUnits ≤ 10 ^ 4 :=
    pow_le_pow_right₀ (by norm_num) hline.minorUnits
  calc roundHalfUp line.minorUnits line.discountAmount * 10 ^ line.minorUnits
      ≤ 10 ^ 15 * 10 ^ 4 := by gcongr
    _ < 10 ^ 28 := by norm_num

/-- The rest of the computation, by what becomes of the discount. -/
lemma computeLine_of_subtotal (hline : LineAdmitted line)
    (h : roundMoney (context (line.quantity * line.unitPrice)) line.minorUnits = .ok subtotal) :
    computeLine line =
      if line.discountAmount ≠ roundHalfUp line.minorUnits line.discountAmount then
        .ok ⟨subtotal, .error "line_currency_precision_invalid"⟩
      else if ¬ line.discountAmount ≤ subtotal then
        .ok ⟨subtotal, .error "line_discount_mismatch"⟩
      else (fun taxes => ⟨subtotal, .ok taxes⟩) <$> computeTaxes line subtotal := by
  rw [computeLine, h, roundMoney_discount hline]
  rfl

lemma computeLine_eq_ok_subtotal (hline : LineAdmitted line) {computation : LineComputation}
    (h : computeLine line = .ok computation) :
    roundMoney (context (line.quantity * line.unitPrice)) line.minorUnits =
      .ok computation.subtotal := by
  obtain ⟨subtotal, hsubtotal, -⟩ := bind_eq_ok.1 h
  rw [computeLine_of_subtotal hline hsubtotal] at h
  split_ifs at h
  · rw [← Except.ok.inj h]
    exact hsubtotal
  · obtain ⟨taxes, -, rfl⟩ := map_eq_ok.1 h
    exact hsubtotal
  · rw [← Except.ok.inj h]
    exact hsubtotal

/-- **The line is computed exactly just where it fits.** -/
theorem computeLine_eq_ok_iff (hline : LineAdmitted line) :
    computeLine line = .ok (exactLine line) ↔ LineFits line := by
  have hproduct : 0 ≤ line.quantity * line.unitPrice :=
    mul_nonneg hline.quantity_nonneg hline.unitPrice_nonneg
  have hsettles : roundMoney (context (line.quantity * line.unitPrice)) line.minorUnits =
      .ok (exactSubtotal line) ↔ _ := roundMoney_context_iff hproduct
        ((hline.quantity.mul hline.unitPrice).mono (by norm_num)) hline.minorUnits
  have hplaces : HasPlaces line.minorUnits (exactSubtotal line) := hasPlaces_roundHalfUp _ _
  -- what is left, once the subtotal is exact
  have hrest : roundMoney (context (line.quantity * line.unitPrice)) line.minorUnits =
      .ok (exactSubtotal line) → (computeLine line = .ok (exactLine line) ↔
        (line.discountAmount = roundHalfUp line.minorUnits line.discountAmount →
          line.discountAmount ≤ exactSubtotal line →
          TaxesFit line (exactSubtotal line - line.discountAmount))) := by
    intro hsubtotal
    have hshort : exactSubtotal line * 10 ^ line.minorUnits < 10 ^ 28 := by
      obtain ⟨hlt, heq⟩ := roundMoney_eq_ok.1 hsubtotal
      have hnonneg : 0 ≤ exactSubtotal line := roundHalfUp_nonneg hproduct
      rwa [← heq, abs_of_nonneg hnonneg] at hlt
    rw [computeLine_of_subtotal hline hsubtotal, exactLine]
    by_cases hprecise : line.discountAmount = roundHalfUp line.minorUnits line.discountAmount
    · by_cases hle : line.discountAmount ≤ exactSubtotal line
      · have htaxes := computeTaxes_eq_ok_iff hline hplaces hshort
          (hprecise ▸ hasPlaces_roundHalfUp _ _) hle
        rw [if_neg (not_not.2 hprecise), if_neg (not_not.2 hprecise), if_neg (not_not.2 hle),
          if_neg (not_not.2 hle), map_eq_ok]
        constructor
        · rintro ⟨taxes, hcomputed, heq⟩ - -
          have hsame : taxes = _ := Except.ok.inj (congrArg LineComputation.taxes heq)
          exact htaxes.1 (hsame ▸ hcomputed)
        · intro h
          exact ⟨_, htaxes.2 (h hprecise hle), rfl⟩
      · rw [if_neg (not_not.2 hprecise), if_neg (not_not.2 hprecise), if_pos hle, if_pos hle]
        exact iff_of_true rfl fun _ hle' => absurd hle' hle
    · rw [if_pos hprecise, if_pos hprecise]
      exact iff_of_true rfl fun hprecise' => absurd hprecise' hprecise
  constructor
  · intro h
    have hsubtotal := computeLine_eq_ok_subtotal hline h
    exact ⟨hsettles.1 hsubtotal, (hrest hsubtotal).1 h⟩
  · intro hfits
    exact (hrest (hsettles.2 hfits.subtotal)).2 hfits.taxes

/-! ## Lines that the validator accepts -/

/-- What holds of the amounts of a line that the validator accepts. -/
structure Agreed (line : DocumentLineAmounts ℚ) : Prop where
  product_lt : line.quantity * line.unitPrice < 10 ^ 16
  discount : HasPlaces line.minorUnits line.discountAmount
  vat : HasPlaces line.minorUnits line.vatAmount
  withholding : HasPlaces line.minorUnits line.withholdingAmount
  total : line.lineTotal =
    exactSubtotal line - line.discountAmount + line.vatAmount - line.withholdingAmount
  total_nonneg : 0 ≤ line.lineTotal

/-- What is rounded to less than a power of ten is less. -/
lemma lt_of_context_lt (hplaces : HasPlaces 10 x) (h : context x < 10 ^ k) : x < 10 ^ k := by
  by_contra hge
  rw [not_lt] at hge
  have hpower : (10 : ℚ) ^ (k + 10) ≤ x * 10 ^ 10 := by
    rw [pow_add]
    gcongr
  have hkept := le_roundSignificant (by norm_num : 0 < 28) hplaces hpower
  rw [pow_add] at hkept
  exact absurd h (not_lt.2 (le_of_mul_le_mul_right hkept (ten_pow_pos 10)))

lemma lt_of_roundHalfUp_lt (h : roundHalfUp m x < 10 ^ k) : x < 10 ^ k := by
  by_contra hge
  have hinteger : HasPlaces m ((10 : ℚ) ^ k) := by
    simpa using HasPlaces.intCast m ((10 : ℤ) ^ k)
  exact absurd h (not_lt.2 (le_roundHalfUp (by positivity) hinteger (not_lt.1 hge)))

/-- Amounts with at most four places are kept while they are short. -/
lemma context_of_lt_pow (hm : m ≤ 4) (hplaces : HasPlaces m x) (hx : 0 ≤ x) (h : x < 10 ^ 17) :
    context x = x := by
  refine context_of_lt (by omega) hplaces ?_
  have hle : (10 : ℚ) ^ m ≤ 10 ^ 4 := pow_le_pow_right₀ (by norm_num) hm
  rw [abs_of_nonneg hx]
  calc x * 10 ^ m ≤ 10 ^ 17 * 10 ^ 4 := by gcongr
    _ < 10 ^ 28 := by norm_num

/-- Products are kept while they are short. -/
lemma context_product (hplaces : HasPlaces 8 x) (hx : 0 ≤ x) (h : x < 10 ^ 19) :
    context x = x := by
  refine context_of_lt (by norm_num) hplaces ?_
  rw [abs_of_nonneg hx]
  calc x * 10 ^ 8 ≤ 10 ^ 19 * 10 ^ 8 := by gcongr
    _ < 10 ^ 28 := by norm_num

/-- What the validator has found of a line that it accepts. -/
lemma exists_of_crossCheckLine (hline : LineAdmitted line) (h : crossCheckLine line = .ok ()) :
    ∃ subtotal, roundMoney (context (line.quantity * line.unitPrice)) line.minorUnits =
        .ok subtotal ∧
      line.discountAmount = roundHalfUp line.minorUnits line.discountAmount ∧
      line.discountAmount ≤ subtotal ∧
      computeTaxes line subtotal =
        .ok ⟨line.vatAmount, line.withholdingAmount, line.lineTotal⟩ := by
  rw [crossCheckLine_eq] at h
  obtain ⟨⟨subtotal, taxes⟩, hcomputed, hrest⟩ := bind_eq_ok.1 h
  obtain ⟨taxes, rfl, hcompare⟩ := bind_eq_ok.1 hrest
  have hsubtotal := computeLine_eq_ok_subtotal hline hcomputed
  rw [computeLine_of_subtotal hline hsubtotal] at hcomputed
  have hprecise : line.discountAmount = roundHalfUp line.minorUnits line.discountAmount := by
    by_contra hne
    rw [if_pos hne] at hcomputed
    cases hcomputed
  rw [if_neg (not_not.2 hprecise)] at hcomputed
  have hle : line.discountAmount ≤ subtotal := by
    by_contra hnot
    rw [if_pos hnot] at hcomputed
    cases hcomputed
  rw [if_neg (not_not.2 hle)] at hcomputed
  obtain ⟨taxes', htaxes, heq⟩ := map_eq_ok.1 hcomputed
  obtain rfl : taxes' = taxes := Except.ok.inj (congrArg LineComputation.taxes heq)
  simp only [compareLine, bind_eq_ok, require_eq_ok, beq_iff_eq] at hcompare
  obtain ⟨-, hvat, -, hwithholding, htotal⟩ := hcompare
  refine ⟨subtotal, hsubtotal, hprecise, hle, ?_⟩
  rw [htaxes, hvat, hwithholding, htotal]

/-- **An accepted line is far from the limits**, so that nothing but the minor units is rounded. -/
theorem agreed_of_crossCheckLine (hline : LineAdmitted line)
    (h : crossCheckLine line = .ok ()) : Agreed line := by
  obtain ⟨subtotal, hsubtotal, hprecise, hle, htaxes⟩ := exists_of_crossCheckLine hline h
  have hm := hline.minorUnits
  have hproduct : 0 ≤ line.quantity * line.unitPrice :=
    mul_nonneg hline.quantity_nonneg hline.unitPrice_nonneg
  have hproductPlaces : HasPlaces 8 (line.quantity * line.unitPrice) :=
    hline.quantity.mul hline.unitPrice
  obtain ⟨hshort, hsubtotal⟩ := roundMoney_eq_ok.1 hsubtotal
  have hsubtotalPlaces : HasPlaces line.minorUnits subtotal :=
    hsubtotal ▸ hasPlaces_roundHalfUp _ _
  have hdiscountPlaces : HasPlaces line.minorUnits line.discountAmount :=
    hprecise ▸ hasPlaces_roundHalfUp _ _
  have hmax : maxDecimal < 10 ^ 15 := by norm_num [maxDecimal]
  have hdiscount := hline.discount_nonneg
  have hdiscount_le := hline.discount_le
  have hvat := hline.vatAmount_nonneg
  have hvat_le := hline.vatAmount_le
  have hwithholding := hline.withholdingAmount_nonneg
  have hwithholding_le := hline.withholdingAmount_le
  have htotal_le := (abs_le.1 hline.lineTotal_le).2
  -- the amount that is taxed
  set taxable := subtotal - line.discountAmount with htaxable
  have htaxable_nonneg : 0 ≤ taxable := by linarith
  have htaxablePlaces : HasPlaces line.minorUnits taxable := hsubtotalPlaces.sub hdiscountPlaces
  have hcontext : context taxable = taxable := by
    refine context_of_lt (by omega) htaxablePlaces ?_
    rw [← hsubtotal, abs_of_nonneg (by linarith)] at hshort
    rw [abs_of_nonneg htaxable_nonneg]
    have := mul_nonneg hdiscount (ten_pow_pos line.minorUnits).le
    linarith
  simp only [computeTaxes, ← htaxable, hcontext, bind_eq_ok, pure_eq_ok] at htaxes
  obtain ⟨vat, hvat', withholding, hwithholding', total, htotal', heq⟩ := htaxes
  obtain ⟨rfl, rfl, rfl⟩ := LineTaxes.mk.inj heq
  have hvatPlaces : HasPlaces line.minorUnits line.vatAmount :=
    (roundMoney_eq_ok.1 hvat').2 ▸ hasPlaces_roundHalfUp _ _
  have hwithholdingPlaces : HasPlaces line.minorUnits line.withholdingAmount :=
    (roundMoney_eq_ok.1 hwithholding').2 ▸ hasPlaces_roundHalfUp _ _
  have hgrossPlaces := htaxablePlaces.add hvatPlaces
  obtain ⟨-, htotal'⟩ := roundMoney_eq_ok.1 htotal'
  -- the amount with VAT is short, since the total is
  have hgross : taxable + line.vatAmount < 10 ^ 16 := by
    refine lt_of_context_lt (hgrossPlaces.mono (by omega)) ?_
    have hdifference : context (taxable + line.vatAmount) - line.withholdingAmount < 10 ^ 15 := by
      refine lt_of_context_lt ?_ (lt_of_roundHalfUp_lt (m := line.minorUnits) ?_)
      · exact ((hasPlaces_roundSignificant (by omega) hgrossPlaces).sub
          hwithholdingPlaces).mono (by omega)
      · rw [← htotal']
        linarith
    have : (10 : ℚ) ^ 15 + 10 ^ 15 < 10 ^ 16 := by norm_num
    linarith
  have hgross_eq : context (taxable + line.vatAmount) = taxable + line.vatAmount :=
    context_of_lt_pow hm hgrossPlaces (by linarith) (hgross.trans (by norm_num))
  have htax : line.withholdingAmount ≤ taxable := by
    have hrate : taxable * line.withholdingRate < 10 ^ 19 := by
      have h1 : taxable * line.withholdingRate ≤ 10 ^ 16 * 100 := by
        have := hline.withholdingRate_le
        have := hline.withholdingRate_nonneg
        have : taxable ≤ 10 ^ 16 := by linarith
        gcongr
      linarith [show (10 : ℚ) ^ 16 * 100 < 10 ^ 19 by norm_num]
    have hplaces : HasPlaces 8 (taxable * line.withholdingRate) :=
      (htaxablePlaces.mul hline.withholdingRate).mono (by omega)
    have hnonneg := mul_nonneg htaxable_nonneg hline.withholdingRate_nonneg
    have hdivided : context (taxable * line.withholdingRate / 100) =
        taxable * line.withholdingRate / 100 := by
      rw [← context_tax hplaces, context_product hplaces hnonneg hrate]
      refine context_of_lt (le_refl 10) hplaces.div_hundred ?_
      rw [abs_of_nonneg (by positivity)]
      linarith [show (10 : ℚ) ^ 19 / 100 * 10 ^ 10 < 10 ^ 28 by norm_num]
    rw [(roundMoney_eq_ok.1 hwithholding').2, context_tax hplaces, hdivided]
    exact tax_le htaxable_nonneg htaxablePlaces hline.withholdingRate_nonneg
      hline.withholdingRate_le
  have htotalPlaces := hgrossPlaces.sub hwithholdingPlaces
  have htotal_eq : line.lineTotal = taxable + line.vatAmount - line.withholdingAmount := by
    rw [htotal', hgross_eq, context_of_lt_pow hm htotalPlaces (by linarith) (by linarith),
      roundHalfUp_of_hasPlaces htotalPlaces]
  -- and so are the subtotal and the product
  have hproduct_lt : line.quantity * line.unitPrice < 10 ^ 16 := by
    refine lt_of_context_lt (hproductPlaces.mono (by norm_num))
      (lt_of_roundHalfUp_lt (m := line.minorUnits) ?_)
    rw [← hsubtotal]
    linarith [show (3 : ℚ) * 10 ^ 15 < 10 ^ 16 by norm_num]
  have hexact : subtotal = exactSubtotal line := by
    rw [hsubtotal, context_product hproductPlaces hproduct (hproduct_lt.trans (by norm_num))]
    rfl
  exact ⟨hproduct_lt, hdiscountPlaces, hvatPlaces, hwithholdingPlaces,
    by rw [htotal_eq, htaxable, hexact], by linarith⟩

end

end Documents
end Hosted
end MercuryTools
