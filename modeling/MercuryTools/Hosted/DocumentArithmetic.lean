import MercuryTools.Hosted.LineArithmetic

/-!
# The totals of a document

`cross_check_document` sums the amounts of the lines and rounds the sums.  The lines have been
accepted before, so their amounts are far from the limits of the decimal context, and nothing but
the minor units is rounded (`documentTotals_eq`): the arithmetic of a batch is exact just where the
arithmetic of its lines is (`batchExact_iff`).

Every line rounds its own product of quantity and price, while the subtotal of the document is the
rounded sum of the products.  The grand total is checked against both, so a document is accepted
only where the two agree, and otherwise there are no totals at all that are accepted
(`validate_documentOf_iff`).
-/

namespace MercuryTools
namespace Hosted
namespace Documents

open Checks Decimals

/-! ## What is computed -/

section

variable (minorUnits : ℕ) (lines : List (DocumentLineAmounts ℚ))

/-- The totals that `cross_check_document` expects. -/
def documentTotals : Except String (Totals ℚ) := do
  let subtotal ← roundMoney
    (sumDecimals (lines.map fun line => context (line.quantity * line.unitPrice))) minorUnits
  let discountTotal ← roundMoney (sumDecimals (lines.map (·.discountAmount))) minorUnits
  let vatTotal ← roundMoney (sumDecimals (lines.map (·.vatAmount))) minorUnits
  let withholdingTaxTotal ← roundMoney (sumDecimals (lines.map (·.withholdingAmount))) minorUnits
  let grandTotal ← roundMoney (sumDecimals (lines.map (·.lineTotal))) minorUnits
  return ⟨subtotal, discountTotal, vatTotal, withholdingTaxTotal, grandTotal⟩

/-- The grand total that `cross_check_document` calculates from the other totals. -/
def calculatedTotal (totals : Totals ℚ) : Except String ℚ :=
  roundMoney (context (context (context (totals.subtotal - totals.discountTotal) +
    totals.vatTotal) - totals.withholdingTaxTotal)) minorUnits

/-- The totals of the document are compared with the expected ones. -/
def compareTotals (totals expected : Totals ℚ) : Except String Unit := do
  require (totals.subtotal == expected.subtotal) "document_subtotal_mismatch"
  require (totals.discountTotal == expected.discountTotal) "document_discount_mismatch"
  require (totals.vatTotal == expected.vatTotal) "document_vat_mismatch"
  require (totals.withholdingTaxTotal == expected.withholdingTaxTotal)
    "document_withholding_mismatch"
  require (totals.grandTotal == expected.grandTotal) "document_grand_total_mismatch"

/-- `cross_check_document` computes these totals and compares them. -/
theorem crossCheckDocument_eq (financials : DocumentFinancials ℚ) :
    crossCheckDocument financials = (do
      require (financials.lines.all fun line =>
        line.currency == financials.currency && line.minorUnits == financials.minorUnits)
        "document_currency_mismatch"
      let expected ← documentTotals financials.minorUnits financials.lines
      compareTotals financials.toTotals expected
      let calculated ← calculatedTotal financials.minorUnits financials.toTotals
      require (financials.grandTotal == calculated) "document_grand_total_mismatch") := by
  unfold crossCheckDocument documentTotals compareTotals calculatedTotal
  simp only [bind_assoc, pure_bind]

/-- The totals, each rounded once. -/
def exactTotals : Totals ℚ where
  subtotal :=
    roundHalfUp minorUnits (lines.map fun line => line.quantity * line.unitPrice).sum
  discountTotal := roundHalfUp minorUnits (lines.map (·.discountAmount)).sum
  vatTotal := roundHalfUp minorUnits (lines.map (·.vatAmount)).sum
  withholdingTaxTotal := roundHalfUp minorUnits (lines.map (·.withholdingAmount)).sum
  grandTotal := roundHalfUp minorUnits (lines.map (·.lineTotal)).sum

end

/-! ## Sums -/

variable {values : List ℚ} {m : ℕ} {lines : List (DocumentLineAmounts ℚ)} {totals : Totals ℚ}

/-- The running sum stays short, so that the context never rounds it. -/
lemma foldl_context_eq {start : ℚ} (count : ℕ)
    (hvalues : ∀ value ∈ values, HasPlaces 8 value ∧ |value| ≤ 10 ^ 16) (hstart : HasPlaces 8 start)
    (hbound : |start| ≤ count * 10 ^ 16) (hcount : count + values.length ≤ 2500) :
    values.foldl (fun sum value => context (sum + value)) start = start + values.sum := by
  induction values generalizing start count with
  | nil => rw [List.foldl_nil, List.sum_nil, add_zero]
  | cons value values ih =>
    obtain ⟨⟨hplaces, hle⟩, hrest⟩ := List.forall_mem_cons.1 hvalues
    rw [List.length_cons] at hcount
    have hsum : |start + value| ≤ (count + 1 : ℕ) * 10 ^ 16 := by
      refine (abs_add_le start value).trans ?_
      push_cast
      linarith
    have hcount' : ((count + 1 : ℕ) : ℚ) ≤ 2500 := by exact_mod_cast (by omega : count + 1 ≤ 2500)
    have hcontext : context (start + value) = start + value := by
      refine context_of_lt (by norm_num) (hstart.add hplaces) ?_
      calc |start + value| * 10 ^ 8 ≤ (count + 1 : ℕ) * 10 ^ 16 * 10 ^ 8 := by gcongr
        _ ≤ 2500 * 10 ^ 16 * 10 ^ 8 := by gcongr
        _ < 10 ^ 28 := by norm_num
    rw [List.foldl_cons, hcontext, ih (count + 1) hrest (hstart.add hplaces) hsum (by omega),
      List.sum_cons, add_assoc]

lemma sumDecimals_eq (hvalues : ∀ value ∈ values, HasPlaces 8 value ∧ |value| ≤ 10 ^ 16)
    (hlength : values.length ≤ 2500) : sumDecimals values = values.sum := by
  rw [sumDecimals, foldl_context_eq 0 hvalues (HasPlaces.zero 8) (by simp) (by omega),
    zero_add]

lemma sum_le_of_forall_le (hvalues : ∀ value ∈ values, value ≤ 10 ^ 16)
    (hlength : values.length ≤ 2500) : values.sum ≤ 2500 * 10 ^ 16 := by
  refine (List.sum_le_card_nsmul values _ hvalues).trans ?_
  rw [nsmul_eq_mul]
  have : (values.length : ℚ) ≤ 2500 := by exact_mod_cast hlength
  gcongr

/-- The rounded sum of the amounts of accepted lines. -/
lemma roundMoney_sumDecimals (hm : m ≤ 4)
    (hvalues : ∀ value ∈ values, HasPlaces 8 value ∧ 0 ≤ value ∧ value ≤ 10 ^ 16)
    (hlength : values.length ≤ 2500) :
    roundMoney (sumDecimals values) m = .ok (roundHalfUp m values.sum) := by
  have hnonneg : 0 ≤ values.sum := List.sum_nonneg fun value hvalue => (hvalues value hvalue).2.1
  rw [sumDecimals_eq (fun value hvalue => ?_) hlength, roundMoney_eq_ok]
  · refine ⟨?_, rfl⟩
    have hle := sum_le_of_forall_le (fun value hvalue => (hvalues value hvalue).2.2) hlength
    have hinteger : HasPlaces m (2500 * 10 ^ 16) := ⟨2500 * 10 ^ 16 * 10 ^ m, by
      push_cast
      field_simp
      norm_num⟩
    have hpow : (10 : ℚ) ^ m ≤ 10 ^ 4 := pow_le_pow_right₀ (by norm_num) hm
    rw [abs_of_nonneg (roundHalfUp_nonneg hnonneg)]
    calc roundHalfUp m values.sum * 10 ^ m ≤ 2500 * 10 ^ 16 * 10 ^ 4 := by
          have := roundHalfUp_le hnonneg hinteger hle
          gcongr
      _ < 10 ^ 28 := by norm_num
  · obtain ⟨hplaces, h0, hle⟩ := hvalues value hvalue
    exact ⟨hplaces, by rwa [abs_of_nonneg h0]⟩

/-! ## Accepted lines -/

/-- Lines with these minor units that the validator accepts, at most as many as a document may
have. -/
structure AcceptedLines (m : ℕ) (lines : List (DocumentLineAmounts ℚ)) : Prop where
  minorUnits_le : m ≤ 4
  length : lines.length ≤ 2500
  admitted : ∀ line ∈ lines, LineAdmitted line
  agreed : ∀ line ∈ lines, Agreed line
  minorUnits : ∀ line ∈ lines, line.minorUnits = m

lemma acceptedLines_of_validate {lines : List (DocumentLineAmounts Decimal)} (hm : m ≤ 4)
    (hlength : lines.length ≤ 2500) (hvalid : ∀ line ∈ lines, line.validate = .ok ())
    (hminorUnits : ∀ line ∈ lines, line.minorUnits = m) :
    AcceptedLines m (lines.map (·.map Decimal.value)) where
  minorUnits_le := hm
  length := by rwa [List.length_map]
  admitted := List.forall_mem_map.2 fun line hline =>
    have h := DocumentLineAmounts.validate_eq_ok.1 (hvalid line hline)
    lineAdmitted_of_fields h.1 h.2.1
  agreed := List.forall_mem_map.2 fun line hline =>
    have h := DocumentLineAmounts.validate_eq_ok.1 (hvalid line hline)
    agreed_of_crossCheckLine (lineAdmitted_of_fields h.1 h.2.1) h.2.2
  minorUnits := List.forall_mem_map.2 hminorUnits

namespace AcceptedLines

variable {m : ℕ} {lines : List (DocumentLineAmounts ℚ)}

lemma maxDecimal_le : maxDecimal ≤ 10 ^ 16 := by
  norm_num [maxDecimal]

/-- The sum of one amount of the lines, which has the minor units. -/
lemma roundMoney_amount (h : AcceptedLines m lines) {f : DocumentLineAmounts ℚ → ℚ}
    (hf : ∀ line ∈ lines, HasPlaces m (f line) ∧ 0 ≤ f line ∧ f line ≤ maxDecimal) :
    roundMoney (sumDecimals (lines.map f)) m = .ok (roundHalfUp m (lines.map f).sum) ∧
      roundHalfUp m (lines.map f).sum = (lines.map f).sum := by
  have hm := h.minorUnits_le
  constructor
  · refine roundMoney_sumDecimals hm (List.forall_mem_map.2 fun line hline => ?_)
      (by rw [List.length_map]; exact h.length)
    obtain ⟨hplaces, hnonneg, hle⟩ := hf line hline
    exact ⟨hplaces.mono (by omega), hnonneg, hle.trans maxDecimal_le⟩
  · exact roundHalfUp_of_hasPlaces
      (HasPlaces.sum (List.forall_mem_map.2 fun line hline => (hf line hline).1))

lemma discount (h : AcceptedLines m lines) : ∀ line ∈ lines, HasPlaces m line.discountAmount ∧
    0 ≤ line.discountAmount ∧ line.discountAmount ≤ maxDecimal := by
  intro line hline
  exact ⟨h.minorUnits line hline ▸ (h.agreed line hline).discount,
    (h.admitted line hline).discount_nonneg, (h.admitted line hline).discount_le⟩

lemma vat (h : AcceptedLines m lines) : ∀ line ∈ lines, HasPlaces m line.vatAmount ∧
    0 ≤ line.vatAmount ∧ line.vatAmount ≤ maxDecimal := by
  intro line hline
  exact ⟨h.minorUnits line hline ▸ (h.agreed line hline).vat,
    (h.admitted line hline).vatAmount_nonneg, (h.admitted line hline).vatAmount_le⟩

lemma withholding (h : AcceptedLines m lines) :
    ∀ line ∈ lines, HasPlaces m line.withholdingAmount ∧ 0 ≤ line.withholdingAmount ∧
      line.withholdingAmount ≤ maxDecimal := by
  intro line hline
  exact ⟨h.minorUnits line hline ▸ (h.agreed line hline).withholding,
    (h.admitted line hline).withholdingAmount_nonneg,
    (h.admitted line hline).withholdingAmount_le⟩

lemma total (h : AcceptedLines m lines) : ∀ line ∈ lines, HasPlaces m line.lineTotal ∧
    0 ≤ line.lineTotal ∧ line.lineTotal ≤ maxDecimal := by
  intro line hline
  have hagreed := h.agreed line hline
  refine ⟨?_, hagreed.total_nonneg, (abs_le.1 (h.admitted line hline).lineTotal_le).2⟩
  rw [hagreed.total, ← h.minorUnits line hline]
  exact (((hasPlaces_roundHalfUp _ _).sub hagreed.discount).add hagreed.vat).sub
    hagreed.withholding

/-- The products are not rounded by the context. -/
lemma product (h : AcceptedLines m lines) : ∀ line ∈ lines,
    context (line.quantity * line.unitPrice) = line.quantity * line.unitPrice ∧
      HasPlaces 8 (line.quantity * line.unitPrice) ∧ 0 ≤ line.quantity * line.unitPrice ∧
      line.quantity * line.unitPrice ≤ 10 ^ 16 := by
  intro line hline
  have hadmitted := h.admitted line hline
  have hplaces : HasPlaces 8 (line.quantity * line.unitPrice) :=
    hadmitted.quantity.mul hadmitted.unitPrice
  have hnonneg := mul_nonneg hadmitted.quantity_nonneg hadmitted.unitPrice_nonneg
  have hlt := (h.agreed line hline).product_lt
  exact ⟨context_product hplaces hnonneg (hlt.trans (by norm_num)), hplaces, hnonneg, hlt.le⟩

/-- **The totals of accepted lines are exact.** -/
theorem documentTotals_eq (h : AcceptedLines m lines) :
    documentTotals m lines = .ok (exactTotals m lines) := by
  have hproducts : (lines.map fun line => context (line.quantity * line.unitPrice)) =
      lines.map fun line => line.quantity * line.unitPrice :=
    List.map_congr_left fun line hline => (h.product line hline).1
  have hsubtotal : roundMoney
      (sumDecimals (lines.map fun line => line.quantity * line.unitPrice)) m = _ :=
    roundMoney_sumDecimals h.minorUnits_le
      (List.forall_mem_map.2 fun line hline => (h.product line hline).2)
      (by rw [List.length_map]; exact h.length)
  rw [documentTotals, hproducts, hsubtotal, (h.roundMoney_amount h.discount).1,
    (h.roundMoney_amount h.vat).1, (h.roundMoney_amount h.withholding).1,
    (h.roundMoney_amount h.total).1]
  rfl

end AcceptedLines

/-- The grand total is calculated exactly from admitted totals. -/
lemma calculatedTotal_eq (hm : m ≤ 4) {totals : Totals Decimal}
    (h : ∀ d ∈ totals.amounts, Admitted d) :
    calculatedTotal m (totals.map Decimal.value) =
      .ok (roundHalfUp m (totals.subtotal.value - totals.discountTotal.value +
        totals.vatTotal.value - totals.withholdingTaxTotal.value)) := by
  simp only [Totals.amounts, List.forall_mem_cons, List.not_mem_nil, false_implies, implies_true,
    and_true] at h
  obtain ⟨hsubtotal, hdiscount, hvat, hwithholding, -⟩ := h
  have hbound : maxDecimal < 10 ^ 15 := by norm_num [maxDecimal]
  have hplaces : ∀ {d : Decimal}, Admitted d → HasPlaces 4 d.value := fun hd =>
    Decimal.hasPlaces_value hd.2
  have hexact : ∀ {x : ℚ}, HasPlaces 4 x → |x| ≤ 10 ^ 16 → context x = x := by
    intro x hx hle
    refine context_of_lt (by norm_num) hx ?_
    calc |x| * 10 ^ 4 ≤ 10 ^ 16 * 10 ^ 4 := by gcongr
      _ < 10 ^ 28 := by norm_num
  obtain ⟨hsubtotal', hsubtotal''⟩ := abs_le.1 hsubtotal.1
  obtain ⟨hdiscount', hdiscount''⟩ := abs_le.1 hdiscount.1
  obtain ⟨hvat', hvat''⟩ := abs_le.1 hvat.1
  obtain ⟨hwithholding', hwithholding''⟩ := abs_le.1 hwithholding.1
  have h1 := (hplaces hsubtotal).sub (hplaces hdiscount)
  have h2 := h1.add (hplaces hvat)
  have h3 := h2.sub (hplaces hwithholding)
  have hten : (10 : ℚ) ^ 16 = 10 * 10 ^ 15 := by norm_num
  have hlast : |totals.subtotal.value - totals.discountTotal.value + totals.vatTotal.value -
      totals.withholdingTaxTotal.value| ≤ 10 ^ 16 := abs_le.2 ⟨by linarith, by linarith⟩
  simp only [calculatedTotal, Totals.map]
  rw [hexact h1 (abs_le.2 ⟨by linarith, by linarith⟩),
    hexact h2 (abs_le.2 ⟨by linarith, by linarith⟩), hexact h3 hlast, roundMoney_eq_ok]
  refine ⟨?_, rfl⟩
  have hinteger : HasPlaces m (10 ^ 16) := ⟨10 ^ 16 * 10 ^ m, by
    push_cast
    field_simp
    norm_num⟩
  have hpow : (10 : ℚ) ^ m ≤ 10 ^ 4 := pow_le_pow_right₀ (by norm_num) hm
  rw [abs_roundHalfUp]
  calc _ ≤ (10 : ℚ) ^ 16 * 10 ^ 4 := by
        have := roundHalfUp_le (abs_nonneg _) hinteger hlast
        gcongr
    _ < 10 ^ 28 := by norm_num

/-! ## Batches -/

/-- What the fields of a document admit, before its validators run. -/
structure FieldsAdmitted (financials : DocumentFinancials Decimal) : Prop where
  minorUnits : financials.minorUnits ≤ 4
  length : financials.lines.length ≤ 2500
  lines : ∀ line ∈ financials.lines, (∀ d ∈ line.amounts, Admitted d) ∧
    lineFieldsValid (line.map Decimal.value) = true
  totals : ∀ d ∈ financials.amounts, Admitted d

/-- The amounts that the validators compute are the exact ones, each rounded once: those of every
line, and, once the lines are accepted, those of the document. -/
structure DocumentExact (financials : DocumentFinancials Decimal) : Prop where
  lines : ∀ line ∈ financials.lines,
    computeLine (line.map Decimal.value) = .ok (exactLine (line.map Decimal.value))
  totals : (∀ line ∈ financials.lines, line.validate = .ok () ∧
      line.minorUnits = financials.minorUnits) →
    documentTotals financials.minorUnits (financials.lines.map (·.map Decimal.value)) =
        .ok (exactTotals financials.minorUnits (financials.lines.map (·.map Decimal.value))) ∧
      calculatedTotal financials.minorUnits (financials.toTotals.map Decimal.value) =
        .ok (roundHalfUp financials.minorUnits (financials.subtotal.value -
          financials.discountTotal.value + financials.vatTotal.value -
          financials.withholdingTaxTotal.value))

/-- And so are the totals of the batch. -/
structure BatchExact (batch : List (DocumentFinancials Decimal)) : Prop where
  documents : ∀ financials ∈ batch, DocumentExact financials
  totals : ∀ f : Totals Decimal → Decimal,
    f ∈ [Totals.subtotal, Totals.discountTotal, Totals.vatTotal, Totals.withholdingTaxTotal,
      Totals.grandTotal] →
    sumDecimals (batch.map fun financials => (f financials.toTotals).value) =
      (batch.map fun financials => (f financials.toTotals).value).sum

lemma mem_amounts {α : Type} {totals : Totals α} {f : Totals α → α}
    (hf : f ∈ [Totals.subtotal, Totals.discountTotal, Totals.vatTotal,
      Totals.withholdingTaxTotal, Totals.grandTotal]) : f totals ∈ totals.amounts := by
  simp only [List.mem_cons, List.not_mem_nil, or_false] at hf
  rcases hf with rfl | rfl | rfl | rfl | rfl <;> simp [Totals.amounts]

/-- **The arithmetic of a batch is exact just where its lines fit**: whatever the validators accept
up to there, sums stay far from the limits of the context. -/
theorem batchExact_iff {batch : List (DocumentFinancials Decimal)}
    (hlength : batch.length ≤ maxBatchDocuments)
    (h : ∀ financials ∈ batch, FieldsAdmitted financials) :
    BatchExact batch ↔
      ∀ financials ∈ batch, ∀ line ∈ financials.lines, LineFits (line.map Decimal.value) := by
  have hline : ∀ financials ∈ batch, ∀ line ∈ financials.lines,
      (computeLine (line.map Decimal.value) = .ok (exactLine (line.map Decimal.value)) ↔
        LineFits (line.map Decimal.value)) := by
    intro financials hmem line hline
    obtain ⟨hamounts, hfields⟩ := (h financials hmem).lines line hline
    exact computeLine_eq_ok_iff (lineAdmitted_of_fields hamounts hfields)
  constructor
  · intro hexact financials hmem line hmem'
    exact (hline financials hmem line hmem').1 ((hexact.documents financials hmem).lines line hmem')
  · intro hfits
    refine ⟨fun financials hmem => ⟨fun line hmem' =>
      (hline financials hmem line hmem').2 (hfits financials hmem line hmem'), fun hvalid => ?_⟩,
      fun f hf => ?_⟩
    · have hfields := h financials hmem
      exact ⟨(acceptedLines_of_validate hfields.minorUnits hfields.length
        (fun line hmem' => (hvalid line hmem').1)
        (fun line hmem' => (hvalid line hmem').2)).documentTotals_eq,
        calculatedTotal_eq hfields.minorUnits hfields.totals⟩
    · refine sumDecimals_eq (List.forall_mem_map.2 fun financials hmem => ?_) ?_
      · have hadmitted := (h financials hmem).totals _ (mem_amounts hf)
        exact ⟨(Decimal.hasPlaces_value hadmitted.2).mono (by norm_num),
          hadmitted.1.trans AcceptedLines.maxDecimal_le⟩
      · rw [List.length_map]
        exact hlength.trans (by decide)

/-- A document with one line that has this quantity and this price, and no other amounts. -/
def productDocument (minorUnits : ℕ) (quantity unitPrice : Decimal) :
    DocumentFinancials Decimal where
  currency := "THB"
  minorUnits := minorUnits
  subtotal := ⟨false, 0, 0⟩
  discountTotal := ⟨false, 0, 0⟩
  vatTotal := ⟨false, 0, 0⟩
  withholdingTaxTotal := ⟨false, 0, 0⟩
  grandTotal := ⟨false, 0, 0⟩
  lines := [{
    currency := "THB"
    quantity := quantity
    unitPrice := unitPrice
    discountAmount := ⟨false, 0, 0⟩
    vatRate := ⟨false, 0, 0⟩
    vatAmount := ⟨false, 0, 0⟩
    withholdingRate := ⟨false, 0, 0⟩
    withholdingAmount := ⟨false, 0, 0⟩
    lineTotal := ⟨false, 0, 0⟩
    minorUnits := minorUnits }]

lemma fieldsAdmitted_productDocument {minorUnits : ℕ} {quantity unitPrice : Decimal}
    (hminor : minorUnits ≤ 4) (hquantity : Admitted quantity) (hpositive : 0 < quantity.value)
    (hprice : Admitted unitPrice) (hnonneg : 0 ≤ unitPrice.value) :
    FieldsAdmitted (productDocument minorUnits quantity unitPrice) := by
  have hzero : Admitted ⟨false, 0, 0⟩ := ⟨by norm_num [Decimal.value, maxDecimal], by decide⟩
  have hvalue : (⟨false, 0, 0⟩ : Decimal).value = 0 := by norm_num [Decimal.value]
  have hcurrency : isCurrency "THB" = true := by decide
  refine ⟨hminor, by simp [productDocument], List.forall_mem_singleton.2 ⟨?_, ?_⟩, ?_⟩
  · simp [LineAmounts.amounts, hquantity, hprice, hzero]
  · simp [lineFieldsValid, DocumentLineAmounts.map, LineAmounts.map, hcurrency, hvalue, hpositive,
      hnonneg, hminor]
  · simp [productDocument, Totals.amounts, hzero]

/-- Two pieces at one and a half each, computed exactly. -/
theorem batchExact_oneLine :
    BatchExact [productDocument 2 ⟨false, 2, 0⟩ ⟨false, 15, -1⟩] ∧
      ∀ line ∈ (productDocument 2 ⟨false, 2, 0⟩ ⟨false, 15, -1⟩).lines,
        computeLine (line.map Decimal.value) = .ok ⟨3, .ok ⟨0, 0, 3⟩⟩ := by
  have hexact : BatchExact [productDocument 2 ⟨false, 2, 0⟩ ⟨false, 15, -1⟩] := by
    refine (batchExact_iff (by decide) (List.forall_mem_singleton.2 ?_)).2
      (List.forall_mem_singleton.2 (List.forall_mem_singleton.2 ?_))
    · refine fieldsAdmitted_productDocument (by decide) ⟨?_, by decide⟩ ?_ ⟨?_, by decide⟩ ?_ <;>
        norm_num [Decimal.value, maxDecimal]
    · refine ⟨⟨by decide +kernel, by decide +kernel⟩, fun _ _ =>
        ⟨⟨by decide +kernel, by decide +kernel⟩, ⟨by decide +kernel, by decide +kernel⟩,
          ⟨300, 8, by decide, by decide +kernel⟩, by decide +kernel⟩⟩
  refine ⟨hexact, fun line hline => ?_⟩
  rw [(hexact.documents _ List.mem_cons_self).lines line hline]
  obtain rfl := List.mem_singleton.1 hline
  decide +kernel

/-- The largest quantity at the largest price. -/
def hugeDocument : DocumentFinancials Decimal :=
  productDocument 2 ⟨false, 9999999999999999999, -4⟩ ⟨false, 9999999999999999999, -4⟩

lemma fieldsAdmitted_hugeDocument : FieldsAdmitted hugeDocument := by
  refine fieldsAdmitted_productDocument (by decide) ⟨?_, by decide⟩ ?_ ⟨?_, by decide⟩ ?_ <;>
    norm_num [Decimal.value, maxDecimal]

/-- `quantize` raises an exception that is no error of the validator. -/
theorem exists_inexact :
    FieldsAdmitted hugeDocument ∧ ¬ BatchExact [hugeDocument] ∧
      ∀ line ∈ hugeDocument.lines,
        crossCheckLine (line.map Decimal.value) = .error "InvalidOperation" := by
  refine ⟨fieldsAdmitted_hugeDocument, fun hexact => ?_, ?_⟩
  · obtain ⟨line, hline⟩ : ∃ line, hugeDocument.lines = [line] := ⟨_, rfl⟩
    have hmem : line ∈ hugeDocument.lines := by simp [hline]
    obtain ⟨hamounts, hfields⟩ := fieldsAdmitted_hugeDocument.lines line hmem
    have hcomputed := (hexact.documents _ List.mem_cons_self).lines line hmem
    have hbound := ((computeLine_eq_ok_iff
      (lineAdmitted_of_fields hamounts hfields)).1 hcomputed).subtotal.bound
    obtain rfl := (List.cons.inj hline).1
    revert hbound
    norm_num [DocumentLineAmounts.map, LineAmounts.map, Decimal.value]
  · simp only [hugeDocument, productDocument, List.forall_mem_singleton]
    decide +kernel

/-- A product that would be rounded up to half a minor unit, and from there to the next. -/
example : CrossesHalf 28 10 4
    (coefficient (1000000000000001 / 10000 * (500000000004951 / 10000))) := by
  decide +kernel

/-! ## Completeness and soundness of the totals -/

/-- A decimal of this value, with as many places as the minor units have. -/
def amountDecimal (minorUnits : ℕ) (amount : ℚ) : Decimal :=
  ⟨decide (amount < 0), (amount * 10 ^ minorUnits).num.natAbs, -minorUnits⟩

lemma value_amountDecimal {amount : ℚ} (h : HasPlaces m amount) :
    (amountDecimal m amount).value = amount := by
  obtain ⟨n, rfl⟩ := h
  have hpos := ten_pow_pos m
  rw [amountDecimal, Decimal.value, HasPlaces.num_eq rfl]
  simp only [decide_eq_true_eq, zpow_neg, zpow_natCast]
  have hsign : ((n : ℚ) / 10 ^ m < 0) ↔ n < 0 := by
    rw [div_neg_iff]
    constructor
    · rintro (⟨-, h⟩ | ⟨h, -⟩)
      · exact absurd h (not_lt.2 hpos.le)
      · exact_mod_cast h
    · exact fun h => .inr ⟨by exact_mod_cast h, hpos⟩
  rw [Nat.cast_natAbs, div_eq_mul_inv]
  split_ifs with hneg
  · rw [abs_of_neg (hsign.1 hneg)]
    push_cast
    ring
  · rw [abs_of_nonneg (not_lt.1 fun h => hneg (hsign.2 h)), one_mul]

/-- The document of these lines with the totals that are computed from them; the currency and the
minor units are those of the first line. -/
def documentOf (line : DocumentLineAmounts Decimal) (lines : List (DocumentLineAmounts Decimal)) :
    DocumentFinancials Decimal where
  toTotals := (exactTotals line.minorUnits ((line :: lines).map (·.map Decimal.value))).map
    (amountDecimal line.minorUnits)
  currency := line.currency
  minorUnits := line.minorUnits
  lines := line :: lines

/-- The lines have the same minor units, there are not too many, their totals are not too long, and
the rounded sum of the products of quantity and price is the sum of the rounded products. -/
structure TotalsAgree (m : ℕ) (lines : List (DocumentLineAmounts ℚ)) : Prop where
  minorUnits : ∀ line ∈ lines, line.minorUnits = m
  length : lines.length ≤ 2500
  bounds : ∀ total ∈ (exactTotals m lines).amounts, total ≤ maxDecimal
  rounding : roundHalfUp m (lines.map fun line => line.quantity * line.unitPrice).sum =
    (lines.map exactSubtotal).sum

namespace AcceptedLines

variable {m : ℕ} {lines : List (DocumentLineAmounts ℚ)}

/-- The line totals are the rounded products with the other amounts. -/
lemma sum_total (h : AcceptedLines m lines) : (lines.map (·.lineTotal)).sum =
    (lines.map exactSubtotal).sum - (lines.map (·.discountAmount)).sum +
      (lines.map (·.vatAmount)).sum - (lines.map (·.withholdingAmount)).sum := by
  have hagreed := h.agreed
  clear h
  induction lines with
  | nil => simp
  | cons line lines ih =>
    obtain ⟨hline, hlines⟩ := List.forall_mem_cons.1 hagreed
    simp only [List.map_cons, List.sum_cons]
    rw [ih hlines, hline.total]
    ring

lemma exactTotals_eq (h : AcceptedLines m lines) : exactTotals m lines =
    ⟨roundHalfUp m (lines.map fun line => line.quantity * line.unitPrice).sum,
      (lines.map (·.discountAmount)).sum, (lines.map (·.vatAmount)).sum,
      (lines.map (·.withholdingAmount)).sum, (lines.map (·.lineTotal)).sum⟩ := by
  rw [exactTotals, (h.roundMoney_amount h.discount).2, (h.roundMoney_amount h.vat).2,
    (h.roundMoney_amount h.withholding).2, (h.roundMoney_amount h.total).2]

end AcceptedLines

lemma compareTotals_eq_ok {expected : Totals ℚ} :
    compareTotals totals expected = .ok () ↔ totals = expected := by
  simp only [compareTotals, bind_eq_ok, require_eq_ok, beq_iff_eq, exists_const]
  constructor
  · rintro ⟨h1, h2, h3, h4, h5⟩
    cases totals
    cases expected
    simp only at h1 h2 h3 h4 h5
    rw [h1, h2, h3, h4, h5]
  · rintro rfl
    exact ⟨rfl, rfl, rfl, rfl, rfl⟩

lemma crossCheckDocument_eq_ok {financials : DocumentFinancials ℚ} :
    crossCheckDocument financials = .ok () ↔
      (∀ line ∈ financials.lines, line.currency = financials.currency ∧
        line.minorUnits = financials.minorUnits) ∧
      documentTotals financials.minorUnits financials.lines = .ok financials.toTotals ∧
      calculatedTotal financials.minorUnits financials.toTotals = .ok financials.grandTotal := by
  rw [crossCheckDocument_eq]
  simp only [bind_eq_ok, require_eq_ok, beq_iff_eq, List.all_eq_true, Bool.and_eq_true]
  constructor
  · rintro ⟨-, hsame, expected, hexpected, u, hcompare, calculated, hcalculated, hgrand⟩
    obtain heq := compareTotals_eq_ok.1 hcompare
    refine ⟨hsame, ?_, ?_⟩
    · rw [heq]
      exact hexpected
    · rw [hgrand]
      exact hcalculated
  · rintro ⟨hsame, hexpected, hcalculated⟩
    exact ⟨(), hsame, _, hexpected, (), compareTotals_eq_ok.2 rfl, _, hcalculated, rfl⟩

/-- The grand total is the calculated one just where the rounded products sum up to the
subtotal. -/
lemma AcceptedLines.grandTotal_eq_iff (h : AcceptedLines m lines)
    (heq : totals = exactTotals m lines) :
    totals.grandTotal = roundHalfUp m (totals.subtotal - totals.discountTotal + totals.vatTotal -
        totals.withholdingTaxTotal) ↔
      roundHalfUp m (lines.map fun line => line.quantity * line.unitPrice).sum =
        (lines.map exactSubtotal).sum := by
  have hplaces : ∀ {f : DocumentLineAmounts ℚ → ℚ}, (∀ line ∈ lines, HasPlaces m (f line) ∧
      0 ≤ f line ∧ f line ≤ maxDecimal) → HasPlaces m (lines.map f).sum := fun hf =>
    HasPlaces.sum (List.forall_mem_map.2 fun line hline => (hf line hline).1)
  have hcalculated := (((hasPlaces_roundHalfUp m
    (lines.map fun line => line.quantity * line.unitPrice).sum).sub (hplaces h.discount)).add
      (hplaces h.vat)).sub (hplaces h.withholding)
  rw [heq, h.exactTotals_eq]
  simp only
  rw [roundHalfUp_of_hasPlaces hcalculated, h.sum_total]
  constructor <;> intro hsum <;> linarith

/-- What the validator accepts of a document, if it accepts the lines. -/
theorem validate_iff {financials : DocumentFinancials Decimal} (hne : financials.lines ≠ [])
    (hvalid : ∀ line ∈ financials.lines, line.validate = .ok ()) :
    financials.validate = .ok () ↔
      (∀ line ∈ financials.lines, line.currency = financials.currency ∧
        line.minorUnits = financials.minorUnits) ∧
      financials.lines.length ≤ 2500 ∧ (∀ d ∈ financials.amounts, Admitted d) ∧
      financials.toTotals.map Decimal.value =
        exactTotals financials.minorUnits (financials.lines.map (·.map Decimal.value)) ∧
      roundHalfUp financials.minorUnits ((financials.lines.map (·.map Decimal.value)).map
        fun line => line.quantity * line.unitPrice).sum =
          ((financials.lines.map (·.map Decimal.value)).map exactSubtotal).sum := by
  obtain ⟨first, hfirst⟩ := List.exists_mem_of_ne_nil _ hne
  have hfields := (DocumentLineAmounts.validate_eq_ok.1 (hvalid first hfirst)).2.1
  have haccepted : (∀ line ∈ financials.lines, line.currency = financials.currency ∧
      line.minorUnits = financials.minorUnits) → financials.lines.length ≤ 2500 →
      AcceptedLines financials.minorUnits (financials.lines.map (·.map Decimal.value)) := by
    intro hsame hlength
    have hm : first.minorUnits ≤ 4 :=
      (lineAdmitted_of_fields (DocumentLineAmounts.validate_eq_ok.1 (hvalid first hfirst)).1
        hfields).minorUnits
    exact acceptedLines_of_validate ((hsame first hfirst).2 ▸ hm) hlength hvalid
      fun line hline => (hsame line hline).2
  rw [DocumentFinancials.validate_eq_ok, crossCheckDocument_eq_ok]
  simp only [DocumentFinancials.map, List.forall_mem_map]
  constructor
  · rintro ⟨-, hlength, -, hamounts, -, hsame, hexpected, hcalculated⟩
    have hlength' : financials.lines.length ≤ 2500 := by
      rw [Bool.and_eq_true, decide_eq_true_eq, decide_eq_true_eq] at hlength
      exact hlength.2
    have haccepted := haccepted hsame hlength'
    have heq := Except.ok.inj (hexpected.symm.trans haccepted.documentTotals_eq)
    have hgrand := Except.ok.inj
      (hcalculated.symm.trans (calculatedTotal_eq haccepted.minorUnits_le hamounts))
    exact ⟨hsame, hlength', hamounts, heq, (haccepted.grandTotal_eq_iff heq).1 hgrand⟩
  · rintro ⟨hsame, hlength, hamounts, heq, hrounding⟩
    have haccepted := haccepted hsame hlength
    have hgrand := (haccepted.grandTotal_eq_iff heq).2 hrounding
    refine ⟨?_, ?_, hvalid, hamounts, ?_, hsame, heq ▸ haccepted.documentTotals_eq, ?_⟩
    · simp only [lineFieldsValid, Bool.and_eq_true, decide_eq_true_eq] at hfields
      obtain ⟨⟨⟨⟨⟨⟨⟨⟨⟨⟨hcurrency, hminor⟩, -⟩, -⟩, -⟩, -⟩, -⟩, -⟩, -⟩, -⟩, -⟩ := hfields
      rw [Bool.and_eq_true, decide_eq_true_eq, ← (hsame first hfirst).1, ← (hsame first hfirst).2]
      exact ⟨hcurrency, hminor⟩
    · rw [Bool.and_eq_true, decide_eq_true_eq, decide_eq_true_eq]
      exact ⟨List.length_pos_of_mem hfirst, hlength⟩
    · have hsum : ∀ {f : DocumentLineAmounts ℚ → ℚ}, (∀ line ∈ financials.lines.map
          (·.map Decimal.value), HasPlaces financials.minorUnits (f line) ∧ 0 ≤ f line ∧
            f line ≤ maxDecimal) → 0 ≤ ((financials.lines.map (·.map Decimal.value)).map f).sum :=
        fun hf => List.sum_nonneg (List.forall_mem_map.2 fun line hline => (hf line hline).2.1)
      have hproducts : 0 ≤ ((financials.lines.map (·.map Decimal.value)).map
          fun line => line.quantity * line.unitPrice).sum :=
        List.sum_nonneg (List.forall_mem_map.2 fun line hline =>
          (haccepted.product line hline).2.2.1)
      rw [heq, haccepted.exactTotals_eq]
      simp only [totalsValid, Bool.and_eq_true, decide_eq_true_eq]
      exact ⟨⟨⟨roundHalfUp_nonneg hproducts, hsum haccepted.discount⟩, hsum haccepted.vat⟩,
        hsum haccepted.withholding⟩
    · rw [calculatedTotal_eq haccepted.minorUnits_le hamounts]
      exact congrArg Except.ok hgrand.symm

/-- Exact totals have the minor units and are not negative, and the decimals that are computed of
them have their values. -/
lemma AcceptedLines.exactTotals_amounts (h : AcceptedLines m lines) :
    ∀ total ∈ (exactTotals m lines).amounts, HasPlaces m total ∧ 0 ≤ total := by
  have hamount : ∀ {f : DocumentLineAmounts ℚ → ℚ}, (∀ line ∈ lines, HasPlaces m (f line) ∧
      0 ≤ f line ∧ f line ≤ maxDecimal) → HasPlaces m (lines.map f).sum ∧ 0 ≤ (lines.map f).sum :=
    fun hf => ⟨HasPlaces.sum (List.forall_mem_map.2 fun line hline => (hf line hline).1),
      List.sum_nonneg (List.forall_mem_map.2 fun line hline => (hf line hline).2.1)⟩
  have hproducts : 0 ≤ (lines.map fun line => line.quantity * line.unitPrice).sum :=
    List.sum_nonneg (List.forall_mem_map.2 fun line hline => (h.product line hline).2.2.1)
  rw [h.exactTotals_eq]
  simp only [Totals.amounts, List.forall_mem_cons, List.not_mem_nil, false_implies, implies_true,
    and_true]
  exact ⟨⟨hasPlaces_roundHalfUp _ _, roundHalfUp_nonneg hproducts⟩, hamount h.discount,
    hamount h.vat, hamount h.withholding, hamount h.total⟩

lemma map_value_amountDecimal (h : ∀ total ∈ totals.amounts, HasPlaces m total) :
    (totals.map (amountDecimal m)).map Decimal.value = totals := by
  simp only [Totals.amounts, List.forall_mem_cons, List.not_mem_nil, false_implies, implies_true,
    and_true] at h
  obtain ⟨h1, h2, h3, h4, h5⟩ := h
  simp only [Totals.map]
  rw [value_amountDecimal h1, value_amountDecimal h2, value_amountDecimal h3,
    value_amountDecimal h4, value_amountDecimal h5]

/-- **The totals that are computed from valid lines are accepted just where they agree.** -/
theorem validate_documentOf_iff {line : DocumentLineAmounts Decimal}
    {lines : List (DocumentLineAmounts Decimal)}
    (hvalid : ∀ other ∈ line :: lines, other.validate = .ok ())
    (hcurrency : ∀ other ∈ line :: lines, other.currency = line.currency) :
    (documentOf line lines).validate = .ok () ↔
      TotalsAgree line.minorUnits ((line :: lines).map (·.map Decimal.value)) := by
  have hminor : line.minorUnits ≤ 4 :=
    have h := DocumentLineAmounts.validate_eq_ok.1 (hvalid line List.mem_cons_self)
    (lineAdmitted_of_fields h.1 h.2.1).minorUnits
  rw [@validate_iff (documentOf line lines) (List.cons_ne_nil _ _) hvalid]
  constructor
  · rintro ⟨hsame, hlength, hamounts, heq, hrounding⟩
    refine ⟨List.forall_mem_map.2 fun other hother => (hsame other hother).2,
      by rw [List.length_map]; exact hlength, ?_, hrounding⟩
    rw [show exactTotals line.minorUnits ((line :: lines).map (·.map Decimal.value)) = _ from
      heq.symm, Totals.amounts_map, List.forall_mem_map]
    exact fun d hd => (abs_le.1 (hamounts d hd).1).2
  · rintro ⟨hminorUnits, hlength, hbounds, hrounding⟩
    have hsame := List.forall_mem_map.1 hminorUnits
    rw [List.length_map] at hlength
    have haccepted := acceptedLines_of_validate hminor hlength hvalid hsame
    refine ⟨fun other hother => ⟨hcurrency other hother, hsame other hother⟩, hlength, ?_,
      map_value_amountDecimal fun total htotal => (haccepted.exactTotals_amounts total htotal).1,
      hrounding⟩
    rw [documentOf, Totals.amounts_map, List.forall_mem_map]
    intro total htotal
    obtain ⟨hplaces, hnonneg⟩ := haccepted.exactTotals_amounts total htotal
    refine ⟨?_, ?_⟩
    · rw [value_amountDecimal hplaces, abs_of_nonneg hnonneg]
      exact hbounds total htotal
    · simp only [amountDecimal]
      omega

/-- **The grand total of an accepted document** is the sum of the line totals, and it is the
subtotal with the other totals. -/
theorem grandTotal_of_validate {financials : DocumentFinancials Decimal}
    (h : financials.validate = .ok ()) :
    financials.grandTotal.value = (financials.lines.map fun line => line.lineTotal.value).sum ∧
      financials.grandTotal.value = financials.subtotal.value - financials.discountTotal.value +
        financials.vatTotal.value - financials.withholdingTaxTotal.value := by
  obtain ⟨hfields, hlength, hvalid, -⟩ := DocumentFinancials.validate_eq_ok.1 h
  rw [Bool.and_eq_true, decide_eq_true_eq] at hfields hlength
  have hne : financials.lines ≠ [] := List.ne_nil_of_length_pos hlength.1
  obtain ⟨hsame, hle, -, heq, hrounding⟩ := (validate_iff hne hvalid).1 h
  have haccepted := acceptedLines_of_validate hfields.2 hle hvalid
    fun line hline => (hsame line hline).2
  rw [haccepted.exactTotals_eq] at heq
  obtain ⟨hsubtotal, hdiscount, hvat, hwithholding, hgrand⟩ := Totals.mk.inj heq
  rw [hgrand, hsubtotal, hdiscount, hvat, hwithholding, hrounding, ← haccepted.sum_total,
    List.map_map]
  exact ⟨rfl, rfl⟩

/-- The totals of a document are sound, and they are complete where the lines agree. -/
theorem totals_sound_and_complete :
    (∀ (line : DocumentLineAmounts Decimal) (lines : List (DocumentLineAmounts Decimal)),
      (∀ other ∈ line :: lines, other.validate = .ok ()) →
      (∀ other ∈ line :: lines, other.currency = line.currency) →
      ((documentOf line lines).validate = .ok () ↔
        TotalsAgree line.minorUnits ((line :: lines).map (·.map Decimal.value)))) ∧
    ∀ financials : DocumentFinancials Decimal, financials.validate = .ok () →
      financials.grandTotal.value = (financials.lines.map fun line => line.lineTotal.value).sum ∧
        financials.grandTotal.value = financials.subtotal.value - financials.discountTotal.value +
          financials.vatTotal.value - financials.withholdingTaxTotal.value :=
  ⟨fun _ _ => validate_documentOf_iff, fun _ => grandTotal_of_validate⟩

/-- A line of one piece at this price, without discount and taxes. -/
def pieceLine (unitPrice lineTotal : Decimal) : DocumentLineAmounts Decimal where
  currency := "THB"
  quantity := ⟨false, 1, 0⟩
  unitPrice := unitPrice
  discountAmount := ⟨false, 0, 0⟩
  vatRate := ⟨false, 0, 0⟩
  vatAmount := ⟨false, 0, 0⟩
  withholdingRate := ⟨false, 0, 0⟩
  withholdingAmount := ⟨false, 0, 0⟩
  lineTotal := lineTotal
  minorUnits := 2

/-- Half a satang, rounded up. -/
def halfLine : DocumentLineAmounts Decimal :=
  pieceLine ⟨false, 5, -3⟩ ⟨false, 1, -2⟩

/-- The largest amount of a line. -/
def largestLine : DocumentLineAmounts Decimal :=
  pieceLine ⟨false, 99999999999999999, -2⟩ ⟨false, 99999999999999999, -2⟩

def hundredLine : DocumentLineAmounts Decimal :=
  pieceLine ⟨false, 100, 0⟩ ⟨false, 100, 0⟩

theorem totals_hundredLine :
    (documentOf hundredLine [hundredLine]).validate = .ok () ∧
      (oneLine "THB" 2).grandTotal.value =
        ((oneLine "THB" 2).lines.map fun line => line.lineTotal.value).sum := by
  have hvalid : ∀ line ∈ [hundredLine, hundredLine], line.validate = .ok () := by decide +kernel
  refine ⟨(totals_sound_and_complete.1 hundredLine [hundredLine] hvalid (by decide)).2
    ⟨by decide, by decide, by decide +kernel, by decide +kernel⟩,
    (totals_sound_and_complete.2 (oneLine "THB" 2) (by decide +kernel)).1⟩

/-- Two valid lines of half a satang each: the subtotal is one satang and the grand total two, so no
totals are accepted.  And the totals of two large lines are too long. -/
theorem not_totals_complete :
    ((∀ line ∈ [halfLine, halfLine], line.validate = .ok () ∧ line.currency = "THB") ∧
      ∀ financials : DocumentFinancials Decimal, financials.lines = [halfLine, halfLine] →
        financials.validate ≠ .ok ()) ∧
    (∀ line ∈ [largestLine, largestLine], line.validate = .ok () ∧ line.currency = "THB") ∧
      (documentOf largestLine [largestLine]).validate ≠ .ok () := by
  refine ⟨⟨by decide +kernel, fun financials hlines hvalidate => ?_⟩, by decide +kernel, ?_⟩
  · have hvalid : ∀ line ∈ financials.lines, line.validate = .ok () := by
      rw [hlines]
      decide +kernel
    obtain ⟨hsame, -, -, -, hrounding⟩ :=
      (validate_iff (hlines ▸ List.cons_ne_nil _ _) hvalid).1 hvalidate
    rw [← (hsame halfLine (hlines ▸ List.mem_cons_self)).2, hlines] at hrounding
    revert hrounding
    decide +kernel
  · intro hvalidate
    have hagree := (@validate_documentOf_iff largestLine _ (by decide +kernel)
      (by decide)).1 hvalidate
    exact absurd hagree.bounds (by decide +kernel)

end Documents
end Hosted
end MercuryTools
