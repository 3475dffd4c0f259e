import MercuryTools.Framework.KeyedTable
import MercuryTools.Hosted.DocumentStore

/-!
# Loading a stored preview

A stored preview is loaded as the preview it was exactly where the minor units of its documents
are the default, two, none of its sealed payloads was rotated, and the service reads its display
texts back from what the database makes of them: `model_dump` excludes the minor units, the record
has no column for the rotation, and `mercury_public_text` rewrites the names of the company and of
the counterparties, while everything else is written and passes the validators again.  Loaded so,
it can be confirmed until it expires.
-/

namespace MercuryTools
namespace Hosted
namespace Documents

open Checks Decimals

/-! ## Amounts -/

/-- `_parse_decimal_string` accepts the decimal. -/
def Admitted (d : Decimal) : Prop :=
  |d.value| ≤ maxDecimal ∧ -4 ≤ d.exponent

variable {d : Decimal} {line : DocumentLineAmounts Decimal}
  {financials : DocumentFinancials Decimal} {α : Type}

lemma checkDecimal_eq_ok {d' : Decimal} : checkDecimal d = .ok d' ↔ d' = d ∧ Admitted d := by
  simp only [checkDecimal, bind_eq_ok, require_eq_ok, pure_eq_ok, decide_eq_true_eq, Admitted]
  constructor
  · rintro ⟨-, hvalue, -, hexponent, rfl⟩
    exact ⟨rfl, hvalue, hexponent⟩
  · rintro ⟨rfl, hvalue, hexponent⟩
    exact ⟨(), hvalue, (), hexponent, rfl⟩

lemma forM_checkDecimal {ds : List Decimal} {u : Unit} :
    (ds.forM fun d => do let _ ← checkDecimal d) = .ok u ↔ ∀ d ∈ ds, Admitted d := by
  rw [forM_eq_ok]
  refine forall₂_congr fun d _ => ?_
  simp only [bind_eq_ok, checkDecimal_eq_ok, pure_eq_ok]
  constructor
  · rintro ⟨_, ⟨-, h⟩, -⟩
    exact h
  · exact fun h => ⟨d, ⟨rfl, h⟩, trivial⟩

lemma admitted_plain : Admitted d.plain ↔ Admitted d := by
  rw [Admitted, Admitted, Decimal.value_plain, Decimal.exponent_plain_le (by decide)]

lemma parseDecimalString_text (h : Admitted d) : parseDecimalString d.text = .ok d.plain := by
  rw [parseDecimalString, Decimal.parse_text (show -((4 : Nat) : Int) ≤ d.exponent from h.2)]
  exact checkDecimal_eq_ok.2 ⟨rfl, admitted_plain.2 h⟩

lemma value_comp_plain : Decimal.value ∘ Decimal.plain = Decimal.value :=
  funext Decimal.value_plain

lemma text_comp_plain : Decimal.text ∘ Decimal.plain = Decimal.text :=
  funext Decimal.text_plain

section

variable {α β γ : Type}

lemma LineAmounts.map_map (g : β → γ) (f : α → β) (line : LineAmounts α) :
    (line.map f).map g = line.map (g ∘ f) := rfl

lemma Totals.map_map (g : β → γ) (f : α → β) (totals : Totals α) :
    (totals.map f).map g = totals.map (g ∘ f) := rfl

lemma DocumentLineAmounts.map_map (g : β → γ) (f : α → β) (line : DocumentLineAmounts α) :
    (line.map f).map g = line.map (g ∘ f) := rfl

lemma DocumentFinancials.map_map (g : β → γ) (f : α → β) (financials : DocumentFinancials α) :
    (financials.map f).map g = financials.map (g ∘ f) := by
  simp only [DocumentFinancials.map, Totals.map_map, List.map_map]
  rfl

lemma Totals.amounts_map (f : α → β) (totals : Totals α) :
    (totals.map f).amounts = totals.amounts.map f := rfl

end

/-- Whether amounts are admitted does not depend on a positive exponent. -/
lemma admitted_amounts_plain (ds : List Decimal) :
    (∀ d ∈ ds.map Decimal.plain, Admitted d) ↔ ∀ d ∈ ds, Admitted d := by
  simp only [List.forall_mem_map, admitted_plain]

lemma DocumentLineAmounts.validate_eq_ok :
    line.validate = .ok () ↔ (∀ d ∈ line.amounts, Admitted d) ∧
      lineFieldsValid (line.map Decimal.value) = true ∧
      crossCheckLine (line.map Decimal.value) = .ok () := by
  simp only [validate, bind_eq_ok, forM_checkDecimal, require_eq_ok, exists_const]

lemma DocumentLineAmounts.validate_plain :
    (line.map Decimal.plain).validate = .ok () ↔ line.validate = .ok () := by
  have hamounts : (∀ d ∈ (line.map Decimal.plain).amounts, Admitted d) ↔
      ∀ d ∈ line.amounts, Admitted d := admitted_amounts_plain line.amounts
  rw [validate_eq_ok, validate_eq_ok, map_map, value_comp_plain, hamounts]

lemma DocumentFinancials.validate_eq_ok :
    financials.validate = .ok () ↔
      (isCurrency financials.currency && financials.minorUnits ≤ 4) = true ∧
      (1 ≤ financials.lines.length && financials.lines.length ≤ 2500) = true ∧
      (∀ line ∈ financials.lines, line.validate = .ok ()) ∧
      (∀ d ∈ financials.amounts, Admitted d) ∧
      totalsValid (financials.toTotals.map Decimal.value) = true ∧
      crossCheckDocument (financials.map Decimal.value) = .ok () := by
  simp only [validate, bind_eq_ok, forM_checkDecimal, require_eq_ok, exists_const]
  simp only [forM_eq_ok, exists_const]

lemma DocumentFinancials.validate_plain :
    (financials.map Decimal.plain).validate = .ok () ↔ financials.validate = .ok () := by
  have hlines : (∀ line ∈ (financials.map Decimal.plain).lines, line.validate = .ok ()) ↔
      ∀ line ∈ financials.lines, line.validate = .ok () := by
    simp only [DocumentFinancials.map, List.forall_mem_map, DocumentLineAmounts.validate_plain]
  have hamounts : (∀ d ∈ (financials.map Decimal.plain).amounts, Admitted d) ↔
      ∀ d ∈ financials.amounts, Admitted d := admitted_amounts_plain financials.amounts
  have hlength : (financials.map Decimal.plain).lines.length = financials.lines.length :=
    List.length_map _
  have htotals : (financials.map Decimal.plain).toTotals.map Decimal.value =
      financials.toTotals.map Decimal.value := by
    rw [DocumentFinancials.map, Totals.map_map, value_comp_plain]
  rw [validate_eq_ok, validate_eq_ok, hlines, hamounts, hlength, htotals, map_map,
    value_comp_plain]
  exact Iff.rfl

lemma DocumentFinancials.modelDump_plain (financials : DocumentFinancials Decimal) :
    (financials.map Decimal.plain).modelDump = financials.modelDump := by
  have hline : ∀ line : DocumentLineAmounts Decimal,
      ((line.map Decimal.plain).toLineAmounts.map Decimal.text) =
        line.toLineAmounts.map Decimal.text := fun line => by
    rw [DocumentLineAmounts.map, LineAmounts.map_map, text_comp_plain]
  simp only [modelDump, DocumentFinancials.map, Totals.map, List.map_map, Function.comp_def, hline,
    Decimal.text_plain]

/-- The minor units of the lines of a document are those of the document. -/
lemma DocumentFinancials.minorUnits_of_validate (h : financials.validate = .ok ()) :
    ∀ line ∈ financials.lines, line.minorUnits = financials.minorUnits := by
  obtain ⟨-, -, -, -, -, hcross⟩ := validate_eq_ok.1 h
  simp only [crossCheckDocument, bind_eq_ok, require_eq_ok, List.all_eq_true] at hcross
  obtain ⟨-, hall, -⟩ := hcross
  intro line hline
  have hsame := hall (line.map Decimal.value) (List.mem_map_of_mem hline)
  simp only [Bool.and_eq_true, beq_iff_eq] at hsame
  exact hsame.2

/-- What is read of the amounts that were written: the plain decimals, with the default of the
minor units. -/
def DocumentFinancials.reloaded (financials : DocumentFinancials Decimal) :
    DocumentFinancials Decimal where
  toTotals := financials.toTotals.map Decimal.plain
  currency := financials.currency
  minorUnits := defaultMinorUnits
  lines := financials.lines.map fun line =>
    { line.map Decimal.plain with minorUnits := defaultMinorUnits }

lemma LineAmounts.forall_amounts {P : α → Prop} {line : LineAmounts α} :
    (∀ d ∈ line.amounts, P d) ↔ P line.quantity ∧ P line.unitPrice ∧ P line.discountAmount ∧
      P line.vatRate ∧ P line.vatAmount ∧ P line.withholdingRate ∧ P line.withholdingAmount ∧
      P line.lineTotal := by
  simp only [LineAmounts.amounts, List.forall_mem_cons, List.not_mem_nil, false_implies,
    implies_true, and_true]

lemma Totals.forall_amounts {P : α → Prop} {totals : Totals α} :
    (∀ d ∈ totals.amounts, P d) ↔ P totals.subtotal ∧ P totals.discountTotal ∧
      P totals.vatTotal ∧ P totals.withholdingTaxTotal ∧ P totals.grandTotal := by
  simp only [Totals.amounts, List.forall_mem_cons, List.not_mem_nil, false_implies, implies_true,
    and_true]

lemma Totals.parse_text {totals : Totals Decimal} (h : ∀ d ∈ totals.amounts, Admitted d) :
    (totals.map Decimal.text).parse = .ok (totals.map Decimal.plain) := by
  obtain ⟨h1, h2, h3, h4, h5⟩ := Totals.forall_amounts.1 h
  simp only [Totals.parse, Totals.map, parseDecimalString_text h1, parseDecimalString_text h2,
    parseDecimalString_text h3, parseDecimalString_text h4, parseDecimalString_text h5]
  rfl

lemma DocumentFinancials.parse_modelDump
    (hlines : ∀ line ∈ financials.lines, ∀ d ∈ line.amounts, Admitted d)
    (htotals : ∀ d ∈ financials.amounts, Admitted d) :
    financials.modelDump.parse = .ok financials.reloaded := by
  obtain ⟨h1, h2, h3, h4, h5⟩ := Totals.forall_amounts.1 htotals
  simp only [FinancialsRecord.parse, bind_eq_ok, mapM_eq_ok]
  refine ⟨financials.reloaded.lines, ?_, ?_⟩
  · simp only [modelDump, reloaded, List.forall₂_map_left_iff, List.forall₂_map_right_iff,
      List.forall₂_same]
    intro line hline
    obtain ⟨h1, h2, h3, h4, h5, h6, h7, h8⟩ := LineAmounts.forall_amounts.1 (hlines line hline)
    simp only [LineAmounts.map, parseDecimalString_text h1, parseDecimalString_text h2,
      parseDecimalString_text h3, parseDecimalString_text h4, parseDecimalString_text h5,
      parseDecimalString_text h6, parseDecimalString_text h7, parseDecimalString_text h8,
      Except.ok.injEq, exists_eq_left', pure_eq_ok]
    rfl
  · simp only [modelDump, Totals.map, parseDecimalString_text h1, parseDecimalString_text h2,
      parseDecimalString_text h3, parseDecimalString_text h4, parseDecimalString_text h5,
      Except.ok.injEq, exists_eq_left', pure_eq_ok]
    rfl

/-- Where the minor units have their default, only positive exponents are lost. -/
lemma DocumentFinancials.reloaded_of_default (h : financials.validate = .ok ())
    (hminor : financials.minorUnits = defaultMinorUnits) :
    financials.reloaded = financials.map Decimal.plain := by
  have hlines : financials.reloaded.lines = (financials.map Decimal.plain).lines := by
    refine List.map_congr_left fun line hline => ?_
    rw [← hminor, ← minorUnits_of_validate h line hline]
    rfl
  have hparts : financials.reloaded = { financials.map Decimal.plain with
      minorUnits := financials.reloaded.minorUnits, lines := financials.reloaded.lines } := rfl
  rw [hparts, hlines, reloaded, ← hminor]
  rfl

/-! ## Items -/

section

variable {env : DocumentEnvironment}

namespace StoredPreviewItem

/-- The item with plain decimals. -/
def plain (item : StoredPreviewItem) : StoredPreviewItem :=
  { item with financials := item.financials.map Decimal.plain }

/-- What a validated item passed. -/
structure Checked (env : DocumentEnvironment) (item : StoredPreviewItem) : Prop where
  valid : item.toStoredPreviewItem.isValid = true
  client_id : ∃ s, requireSafePublicIdentifier env.sanitize item.clientItemId
    "preview_item_binding_invalid" = .ok s
  document_type : isDocumentType item.documentType = true
  display_length : (1 ≤ item.counterpartyDisplay.length &&
    item.counterpartyDisplay.length ≤ 200) = true
  financials : item.financials.validate = .ok ()
  review : (reviewCodesValid 100 item.warnings &&
    reviewCodesValid 100 item.accountantReviewPoints) = true
  ids : [item.previewId, item.tenantId, item.authUserId, item.workspaceId,
    item.connectionId].all (· != 0) = true
  dates : item.issueDate ≤ item.dueDate
  envelope : item.envelopeValid = true

variable {item : StoredPreviewItem}

lemma validate_eq_ok {item' : StoredPreviewItem} :
    item.validate env = .ok item' ↔ item.Checked env ∧ ∃ display,
      sanitizePublicText env.sanitize item.counterpartyDisplay "preview_item_binding_invalid" =
        .ok display ∧ item' = { item with counterpartyDisplay := display } := by
  simp only [validate, bind_eq_ok, require_eq_ok, pure_eq_ok, decide_eq_true_eq]
  constructor
  · rintro ⟨-, h1, s, h2, -, h3, -, h4, display, h5, _, h6, -, h7, -, h8, -, h9, -, h10, rfl⟩
    exact ⟨⟨h1, ⟨s, h2⟩, h3, h4, h6, h7, h8, h9, h10⟩, display, h5, rfl⟩
  · rintro ⟨h, display, hdisplay, rfl⟩
    obtain ⟨s, hs⟩ := h.client_id
    exact ⟨(), h.valid, s, hs, (), h.document_type, (), h.display_length, display, hdisplay, (),
      h.financials, (), h.review, (), h.ids, (), h.dates, (), h.envelope, rfl⟩

/-- An item that is valid as it is stays so without positive exponents. -/
lemma validate_plain (h : item.validate env = .ok item) :
    item.plain.validate env = .ok item.plain := by
  obtain ⟨hchecked, display, hdisplay, hitem⟩ := validate_eq_ok.1 h
  have hsame : item.counterpartyDisplay = display := congrArg (·.counterpartyDisplay) hitem
  rw [← hsame] at hdisplay
  refine validate_eq_ok.2 ⟨⟨hchecked.valid, hchecked.client_id, hchecked.document_type,
    hchecked.display_length, DocumentFinancials.validate_plain.2 hchecked.financials,
    hchecked.review, hchecked.ids, hchecked.dates, hchecked.envelope⟩, _, hdisplay, rfl⟩

/-- The envelope is written in full but for its rotation. -/
lemma envelope_storageRecord {provider : ProviderId} {environment : String}
    (hchecked : item.Checked env)
    (hprovider : item.payloadEnvelope.provider = ProviderId.value provider)
    (henvironment : item.payloadEnvelope.environment = environment)
    (hrotated : item.payloadEnvelope.rotatedAt = none) :
    item.storageRecord.envelope provider environment = item.payloadEnvelope := by
  have hvalid := hchecked.envelope
  simp only [envelopeValid, Bool.and_eq_true, beq_iff_eq, Option.isNone_iff_eq_none] at hvalid
  obtain ⟨⟨⟨⟨⟨⟨-, htenant⟩, huser⟩, hworkspace⟩, hconnection⟩, htype⟩, hrevoked⟩ := hvalid
  simp only [storageRecord, ItemRecord.envelope]
  generalize item.payloadEnvelope = envelope at *
  cases envelope
  simp only at htenant huser hworkspace hconnection hprovider henvironment htype hrotated hrevoked
  simp only [htenant, huser, hworkspace, hconnection, hprovider, henvironment, htype, hrotated,
    hrevoked]

end StoredPreviewItem

/-! ## Previews -/

namespace DocumentPreview

/-- The preview with plain decimals. -/
def plain (preview : DocumentPreview) : DocumentPreview :=
  { preview with
    toTotals := preview.toTotals.map Decimal.plain
    items := preview.items.map (·.plain) }

/-- What a validated preview passed. -/
structure Checked (env : DocumentEnvironment) (preview : DocumentPreview) : Prop where
  fields : preview.documentFieldsValid = true
  amounts : ∀ d ∈ preview.amounts, Admitted d
  totals : totalsValid (preview.toTotals.map Decimal.value) = true

variable {preview : DocumentPreview}

lemma validate_eq_ok {preview' : DocumentPreview} :
    preview.validate env = .ok preview' ↔ preview.Checked env ∧ ∃ displayName items,
      sanitizePublicText env.sanitize preview.accountDisplayName "preview_binding_invalid" =
        .ok displayName ∧
      List.Forall₂ (fun item item' => item.validate env = .ok item') preview.items items ∧
      preview' = { preview with accountDisplayName := displayName, items := items } ∧
      preview'.summary.WellFormed ∧ preview'.validateContents env = .ok () := by
  simp only [validate, bind_eq_ok, require_eq_ok, pure_eq_ok, mapM_eq_ok, forM_checkDecimal,
    exists_const]
  constructor
  · rintro ⟨h1, displayName, h2, h3, h4, items, h5, summary, h6, _, h7, rfl⟩
    exact ⟨⟨h1, h3, h4⟩, displayName, items, h2, h5, rfl,
      (Hosted.DocumentPreview.validate_eq_ok.1 h6).2, h7⟩
  · rintro ⟨h, displayName, items, h2, h5, rfl, h6, h7⟩
    exact ⟨h.fields, displayName, h2, h.amounts, h.totals, items, h5, _,
      Hosted.DocumentPreview.validate_eq_ok.2 ⟨rfl, h6⟩, (), h7, rfl⟩

/-- A preview that is valid as it is. -/
structure Valid (env : DocumentEnvironment) (preview : DocumentPreview) : Prop where
  checked : preview.Checked env
  display_name : sanitizePublicText env.sanitize preview.accountDisplayName
    "preview_binding_invalid" = .ok preview.accountDisplayName
  items : ∀ item ∈ preview.items, item.validate env = .ok item
  summary : preview.summary.WellFormed
  contents : preview.validateContents env = .ok ()

lemma validate_self_iff : preview.validate env = .ok preview ↔ preview.Valid env := by
  rw [validate_eq_ok]
  constructor
  · rintro ⟨hchecked, displayName, items, hname, hitems, heq, hsummary, hcontents⟩
    have hsameName : preview.accountDisplayName = displayName := congrArg (·.accountDisplayName) heq
    have hsameItems : preview.items = items := congrArg (·.items) heq
    rw [← hsameName] at hname
    rw [← hsameItems, List.forall₂_same] at hitems
    exact ⟨hchecked, hname, hitems, hsummary, hcontents⟩
  · intro h
    exact ⟨h.checked, _, _, h.display_name, List.forall₂_same.2 h.items, rfl, h.summary,
      h.contents⟩

lemma summary_plain (preview : DocumentPreview) : preview.plain.summary = preview.summary := by
  simp only [summary, plain, List.map_map]
  rfl

lemma itemIntegrityHash_plain (preview : DocumentPreview) (item : StoredPreviewItem) :
    preview.plain.itemIntegrityHash env item.plain = preview.itemIntegrityHash env item := by
  simp only [itemIntegrityHash, StoredPreviewItem.plain, DocumentFinancials.modelDump_plain]
  rfl

lemma validateContents_eq_ok :
    preview.validateContents env = .ok () ↔
      (preview.qualificationId != 0 && preview.supersedesPreviewId.all (· != 0)) = true ∧
      preview.connectionReadiness = .ready ∧
      (∀ item ∈ preview.items, preview.itemBound item = true ∧
        item.previewIntegrityHash = preview.itemIntegrityHash env item) ∧
      (∀ item ∈ preview.items, item.financials.currency = preview.currency) ∧
      (let total (f : Totals ℚ → ℚ) : ℚ := sumDecimals (preview.items.map fun item =>
        f (item.financials.toTotals.map Decimal.value))
      preview.toTotals.map Decimal.value = ⟨total (·.subtotal), total (·.discountTotal),
        total (·.vatTotal), total (·.withholdingTaxTotal), total (·.grandTotal)⟩) ∧
      preview.providerCallHash = preview.previewProviderCallHash env ∧
      preview.previewIntegrityHash = preview.integrityHash env := by
  simp only [validateContents, bind_eq_ok, require_eq_ok, forM_eq_ok, exists_const, beq_iff_eq,
    List.all_eq_true]

lemma validateContents_plain :
    preview.plain.validateContents env = .ok () ↔ preview.validateContents env = .ok () := by
  have hitems : (∀ item ∈ preview.plain.items, preview.plain.itemBound item = true ∧
        item.previewIntegrityHash = preview.plain.itemIntegrityHash env item) ↔
      ∀ item ∈ preview.items, preview.itemBound item = true ∧
        item.previewIntegrityHash = preview.itemIntegrityHash env item := by
    simp only [plain, List.forall_mem_map]
    refine forall₂_congr fun item _ => ?_
    rw [← itemIntegrityHash_plain preview item]
    exact Iff.rfl
  have hcurrency : (∀ item ∈ preview.plain.items,
        item.financials.currency = preview.plain.currency) ↔
      ∀ item ∈ preview.items, item.financials.currency = preview.currency := by
    simp only [plain, List.forall_mem_map]
    exact Iff.rfl
  have htotals : ∀ f : Totals ℚ → ℚ, (preview.plain.items.map fun item =>
        f (item.financials.toTotals.map Decimal.value)) =
      preview.items.map fun item => f (item.financials.toTotals.map Decimal.value) := by
    intro f
    simp only [plain, List.map_map]
    refine List.map_congr_left fun item _ => ?_
    simp only [Function.comp_apply, StoredPreviewItem.plain, DocumentFinancials.map,
      Totals.map_map, value_comp_plain]
  have hown : preview.plain.toTotals.map Decimal.value = preview.toTotals.map Decimal.value := by
    rw [plain, Totals.map_map, value_comp_plain]
  have hcalls : preview.plain.items.map (·.providerCallHash) =
      preview.items.map (·.providerCallHash) := by
    simp only [plain, List.map_map]
    rfl
  have hhashes : preview.plain.items.map (·.previewIntegrityHash) =
      preview.items.map (·.previewIntegrityHash) := by
    simp only [plain, List.map_map]
    rfl
  have hcall : preview.plain.previewProviderCallHash env = preview.previewProviderCallHash env := by
    rw [previewProviderCallHash, hcalls]
    rfl
  have hhash : preview.plain.integrityHash env = preview.integrityHash env := by
    rw [integrityHash, hhashes]
    rfl
  rw [validateContents_eq_ok, validateContents_eq_ok, hitems, hcurrency, hown, hcall, hhash]
  simp only [htotals]
  exact Iff.rfl

/-- A preview that is valid as it is stays so without positive exponents. -/
lemma Valid.plain (h : preview.Valid env) :
    preview.plain.Valid env where
  checked := by
    refine ⟨h.checked.fields, (admitted_amounts_plain preview.amounts).2 h.checked.amounts, ?_⟩
    rw [DocumentPreview.plain, Totals.map_map, value_comp_plain]
    exact h.checked.totals
  display_name := h.display_name
  items := by
    simp only [DocumentPreview.plain, List.forall_mem_map]
    exact fun item hitem => StoredPreviewItem.validate_plain (h.items item hitem)
  summary := (summary_plain preview).symm ▸ h.summary
  contents := validateContents_plain.2 h.contents

end DocumentPreview

/-! ## Loading -/

variable {item item' : StoredPreviewItem} {preview loaded : DocumentPreview}
  {publicText : String → String}

/-- The service accepts the text as a display text and reads it as another one. -/
def ReadsAs (env : DocumentEnvironment) (code text read : String) : Prop :=
  (1 ≤ text.length && text.length ≤ 200) = true ∧
    sanitizePublicText env.sanitize text code = .ok read

/-- What the record does not hold has the value that the loader gives it, and the display texts are
read back from what is stored; the one of an item is read twice. -/
structure DocumentPreview.Written (env : DocumentEnvironment) (publicText : String → String)
    (preview : DocumentPreview) : Prop where
  minor_units : ∀ item ∈ preview.items, item.financials.minorUnits = defaultMinorUnits
  rotated : ∀ item ∈ preview.items, item.payloadEnvelope.rotatedAt = none
  account_display_name : ReadsAs env "preview_binding_invalid"
    (publicText preview.accountDisplayName) preview.accountDisplayName
  counterparty_display : ∀ item ∈ preview.items, ∃ read,
    ReadsAs env "preview_item_binding_invalid" (publicText item.counterpartyDisplay) read ∧
      ReadsAs env "preview_item_binding_invalid" read item.counterpartyDisplay

/-- What an item that has been loaded tells about the one that was stored. -/
structure StoredPreviewItem.ReadFrom (env : DocumentEnvironment) (publicText : String → String)
    (item loaded : StoredPreviewItem) : Prop where
  minor_units : loaded.financials.minorUnits = defaultMinorUnits
  rotated : loaded.payloadEnvelope.rotatedAt = none
  counterparty_display : ∃ read,
    ReadsAs env "preview_item_binding_invalid" (publicText item.counterpartyDisplay) read ∧
      ReadsAs env "preview_item_binding_invalid" read loaded.counterpartyDisplay

/-- The item of a stored row, which is validated once more with the preview. -/
lemma readFrom_of_itemFromRpc {provider : ProviderId} {environment : String}
    (h : itemFromRpc env provider environment (item.storageRecord.stored publicText) = .ok item')
    {item'' : StoredPreviewItem} (hvalid : item'.validate env = .ok item'') :
    item.ReadFrom env publicText item'' := by
  simp only [itemFromRpc, bind_eq_ok, require_eq_ok, FinancialsRecord.parse, pure_eq_ok,
    StoredPreviewItem.validate_eq_ok] at h
  obtain ⟨-, -, financials, ⟨_, -, _, -, _, -, _, -, _, -, _, -, rfl⟩, _, -, hchecked, read, hread,
    rfl⟩ := h
  obtain ⟨hchecked', display, hdisplay, rfl⟩ := StoredPreviewItem.validate_eq_ok.1 hvalid
  exact ⟨rfl, rfl, read, ⟨hchecked.display_length, hread⟩, hchecked'.display_length, hdisplay⟩

lemma readFrom_of_previewFromRpc
    (h : previewFromRpc env (preview.storageRecord.stored publicText)
      (preview.items.map (·.storageRecord.stored publicText)) = .ok loaded) :
    ReadsAs env "preview_binding_invalid" (publicText preview.accountDisplayName)
        loaded.accountDisplayName ∧
      List.Forall₂ (StoredPreviewItem.ReadFrom env publicText) preview.items loaded.items := by
  simp only [previewFromRpc, bind_eq_ok, mapM_eq_ok, List.forall₂_map_left_iff,
    DocumentPreview.validate_eq_ok] at h
  obtain ⟨items, hitems, totals, -, hchecked, displayName, items', hname, hvalid, rfl, -⟩ := h
  have hfields := hchecked.fields
  simp only [DocumentPreview.documentFieldsValid, Bool.and_eq_true] at hfields
  have hread : ∀ item item' item'' : StoredPreviewItem,
      itemFromRpc env (preview.storageRecord.stored publicText).provider
        (preview.storageRecord.stored publicText).environment
        (item.storageRecord.stored publicText) = .ok item' →
      item'.validate env = .ok item'' → item.ReadFrom env publicText item'' :=
    fun _ _ _ hitem hvalid => readFrom_of_itemFromRpc hitem hvalid
  exact ⟨⟨Bool.and_eq_true_iff.2 ⟨hfields.1.1.1.2, hfields.1.1.2⟩, hname⟩,
    KeyedTable.forall₂_comp hread hitems hvalid⟩

/-- An item is loaded as one that is validated to what it was, without positive exponents. -/
lemma itemFromRpc_storageRecord (h : preview.Valid env)
    (hwritten : preview.Written env publicText) (hitem : item ∈ preview.items) :
    ∃ item', itemFromRpc env preview.provider preview.environment
        (item.storageRecord.stored publicText) = .ok item' ∧
      item'.validate env = .ok item.plain := by
  have hvalid := h.items item hitem
  have hchecked := (StoredPreviewItem.validate_eq_ok.1 hvalid).1
  have hbound := ((DocumentPreview.validateContents_eq_ok.1 h.contents).2.2.1 item hitem).1
  simp only [DocumentPreview.itemBound, Bool.and_eq_true, beq_iff_eq] at hbound
  obtain ⟨⟨-, hprovider⟩, henvironment⟩ := hbound
  have henvelope : (item.storageRecord.stored publicText).envelope preview.provider
      preview.environment = item.payloadEnvelope :=
    StoredPreviewItem.envelope_storageRecord hchecked hprovider henvironment
      (hwritten.rotated item hitem)
  have henvelopeValid : item.payloadEnvelope.isValid = true := by
    have hall := hchecked.envelope
    simp only [StoredPreviewItem.envelopeValid, Bool.and_eq_true] at hall
    exact hall.1.1.1.1.1.1
  obtain ⟨-, -, hlines, hamounts, -⟩ := DocumentFinancials.validate_eq_ok.1 hchecked.financials
  have hparse := DocumentFinancials.parse_modelDump
    (fun line hline => (DocumentLineAmounts.validate_eq_ok.1 (hlines line hline)).1) hamounts
  rw [DocumentFinancials.reloaded_of_default hchecked.financials
    (hwritten.minor_units item hitem)] at hparse
  obtain ⟨read, ⟨hlength, hread⟩, hlength', hdisplay⟩ := hwritten.counterparty_display item hitem
  -- The text is read in two turns, and nothing else is changed in them.
  have hwithDisplay : ∀ {text display : String}, (1 ≤ text.length && text.length ≤ 200) = true →
      sanitizePublicText env.sanitize text "preview_item_binding_invalid" = .ok display →
      ({ item.plain with counterpartyDisplay := text } : StoredPreviewItem).validate env =
        .ok { item.plain with counterpartyDisplay := display } := by
    intro text display hlength hdisplay
    refine StoredPreviewItem.validate_eq_ok.2 ⟨⟨hchecked.valid, hchecked.client_id,
      hchecked.document_type, hlength, DocumentFinancials.validate_plain.2 hchecked.financials,
      hchecked.review, hchecked.ids, hchecked.dates, hchecked.envelope⟩, _, hdisplay, rfl⟩
  refine ⟨{ item.plain with counterpartyDisplay := read }, ?_, hwithDisplay hlength' hdisplay⟩
  simp only [itemFromRpc, bind_eq_ok, require_eq_ok, henvelope]
  exact ⟨(), henvelopeValid, _, hparse, (),
    DocumentFinancials.validate_plain.2 hchecked.financials, hwithDisplay hlength hread⟩

/-- A preview is loaded as it was, without positive exponents. -/
lemma previewFromRpc_storageRecord (h : preview.Valid env)
    (hwritten : preview.Written env publicText) :
    previewFromRpc env (preview.storageRecord.stored publicText)
      (preview.items.map (·.storageRecord.stored publicText)) = .ok preview.plain := by
  obtain ⟨items, hitems⟩ := exists_mapM_eq_ok fun item hitem =>
    (itemFromRpc_storageRecord h hwritten hitem).imp fun _ => And.left
  have hloaded := mapM_eq_ok.1 hitems
  have hvalid : List.Forall₂ (fun item' item => item'.validate env = .ok item.plain) items
      preview.items := by
    refine List.Forall₂.flip (((List.forall₂_and_left _ _).2 ⟨fun _ => id, hloaded⟩).imp ?_)
    rintro item item' ⟨hitem, hloads⟩
    obtain ⟨other, hother, hplain⟩ := itemFromRpc_storageRecord h hwritten hitem
    obtain rfl := Except.ok.inj (hloads.symm.trans hother)
    exact hplain
  have hplain := h.plain
  obtain ⟨hlength, hname⟩ := hwritten.account_display_name
  simp only [previewFromRpc, bind_eq_ok, mapM_eq_ok, List.forall₂_map_left_iff]
  refine ⟨items, hloaded, preview.plain.toTotals, Totals.parse_text h.checked.amounts,
    DocumentPreview.validate_eq_ok.2 ⟨⟨?_, hplain.checked.amounts, hplain.checked.totals⟩, _,
      preview.plain.items, hname, List.forall₂_map_right_iff.2 hvalid, rfl, hplain.summary,
      hplain.contents⟩⟩
  have hfields := h.checked.fields
  simp only [DocumentPreview.documentFieldsValid, Bool.and_eq_true] at hfields hlength ⊢
  exact ⟨⟨⟨⟨hfields.1.1.1.1, hlength.1⟩, hlength.2⟩, hfields.1.2⟩, hfields.2⟩

/-! ## Equality of previews -/

/-- Equal items: amounts are equal where their values are. -/
def StoredPreviewItem.Same (item item' : StoredPreviewItem) : Prop :=
  item.financials.map Decimal.value = item'.financials.map Decimal.value ∧
    { item with financials := item'.financials } = item'

/-- Equal previews. -/
structure DocumentPreview.Same (preview preview' : DocumentPreview) : Prop where
  totals : preview.toTotals.map Decimal.value = preview'.toTotals.map Decimal.value
  items : List.Forall₂ StoredPreviewItem.Same preview.items preview'.items
  others : { preview with toTotals := preview'.toTotals, items := preview'.items } = preview'

lemma DocumentPreview.same_plain (preview : DocumentPreview) : preview.plain.Same preview := by
  refine ⟨?_, ?_, rfl⟩
  · rw [plain, Totals.map_map, value_comp_plain]
  · simp only [plain, List.forall₂_map_left_iff, List.forall₂_same]
    intro item _
    refine ⟨?_, rfl⟩
    rw [StoredPreviewItem.plain, DocumentFinancials.map_map, value_comp_plain]

/-- A preview equal to a loaded one has what the loader reads. -/
lemma DocumentPreview.Same.written (h : loaded.Same preview)
    (hname : ReadsAs env "preview_binding_invalid" (publicText preview.accountDisplayName)
      loaded.accountDisplayName)
    (hloaded : List.Forall₂ (StoredPreviewItem.ReadFrom env publicText) preview.items
      loaded.items) : preview.Written env publicText := by
  have hsame : ∀ item item' item'' : StoredPreviewItem, item.ReadFrom env publicText item' →
      item'.Same item'' → item.ReadFrom env publicText item'' := by
    rintro item item' item'' ⟨hminor, hrotated, hdisplay⟩ ⟨hfinancials, hothers⟩
    have hunits : item'.financials.minorUnits = item''.financials.minorUnits :=
      congrArg (·.minorUnits) hfinancials
    rw [← hothers]
    exact ⟨hunits ▸ hminor, hrotated, hdisplay⟩
  have hitems := List.forall₂_same.1 (KeyedTable.forall₂_comp hsame hloaded h.items)
  have haccount : loaded.accountDisplayName = preview.accountDisplayName :=
    congrArg (·.accountDisplayName) h.others
  exact ⟨fun item hitem => (hitems item hitem).minor_units,
    fun item hitem => (hitems item hitem).rotated, haccount ▸ hname,
    fun item hitem => (hitems item hitem).counterparty_display⟩

end

/-! ## Confirming -/

section

variable {Evidence Arguments : Type} {env : ConfirmationEnvironment Evidence Arguments}

/-- What `_build_preview` establishes: every sealed payload opens under the binding of its item
to arguments that have the hash and the projection on record. -/
structure DocumentPreview.Prepared (env : ConfirmationEnvironment Evidence Arguments)
    (evidence : Evidence) (preview : DocumentPreview) : Prop where
  state : preview.state ∈ [PreviewState.prepared, .awaitingConfirmation]
  items : ∀ item ∈ preview.items, ∃ arguments,
    env.openPayload (preview.payloadBinding item) item.payloadEnvelope = some arguments ∧
    env.project evidence arguments = .ok ⟨item.documentType, item.counterpartyDisplay,
      item.issueDate, item.dueDate, item.financials⟩ ∧
    env.providerCallHash preview.callIdentity arguments = item.providerCallHash

/-- A request for the preview: its owner's, at its version, before it expires and under the
authority it was prepared with. -/
structure DocumentPreview.InTime (env : ConfirmationEnvironment Evidence Arguments)
    (evidence : Evidence) (scope : Scope) (now : DateTime) (preview : DocumentPreview) : Prop where
  tenant : preview.tenantId = scope.tenantId
  user : preview.authUserId = scope.authUserId
  workspace : preview.workspaceId = scope.workspaceId
  now_lt : ∃ instant, awareUtc now "preview_state_invalid" = .ok instant ∧
    instant < preview.expiresAt ∧ env.validateAuthority evidence preview.toConfirmationBinding
      preview.toPreviewAuthority instant = .ok ()

variable {preview : DocumentPreview} {evidence : Evidence}

/-- The payload of an item opens to the document on record. -/
lemma openItem_plain (h : preview.Valid env.toDocumentEnvironment)
    (hprepared : preview.Prepared env evidence) {item : StoredPreviewItem}
    (hitem : item ∈ preview.items) :
    ∃ opened, preview.plain.openItem env evidence item.plain = .ok opened := by
  obtain ⟨arguments, hopen, hproject, hcall⟩ := hprepared.items item hitem
  have hhash := ((DocumentPreview.validateContents_eq_ok.1 h.contents).2.2.1 item hitem).2
  have hvalues : item.plain.financials.map Decimal.value = item.financials.map Decimal.value := by
    rw [StoredPreviewItem.plain, DocumentFinancials.map_map, value_comp_plain]
  have hbinding : preview.plain.payloadBinding item.plain = preview.payloadBinding item := rfl
  have henvelope : item.plain.payloadEnvelope = item.payloadEnvelope := rfl
  refine ⟨(item.previewItemId, item.clientItemId, arguments), ?_⟩
  simp only [DocumentPreview.openItem, hbinding, henvelope, hopen, hproject, bind_eq_ok,
    require_eq_ok, pure_eq_ok, Bool.and_eq_true, beq_iff_eq, hvalues]
  refine ⟨(), ⟨⟨⟨⟨⟨⟨hcall, ?_⟩, rfl⟩, rfl⟩, rfl⟩, rfl⟩, trivial⟩, rfl⟩
  have hidentity : preview.plain.callIdentity = preview.callIdentity := rfl
  rw [hidentity, hcall]
  exact hhash.symm

/-- A preview that was loaded as it was can be confirmed until it expires. -/
lemma loadConfirmable_plain (h : preview.Valid env.toDocumentEnvironment)
    (hprepared : preview.Prepared env evidence) {scope : Scope} {now : DateTime}
    (hintime : preview.InTime env evidence scope now) :
    ∃ confirmable, preview.plain.loadConfirmable env scope preview.stateVersion evidence now =
      .ok confirmable := by
  obtain ⟨instant, haware, hlt, hauthority⟩ := hintime.now_lt
  have hopened : ∃ opened, preview.plain.items.mapM (preview.plain.openItem env evidence) =
      .ok opened := by
    refine exists_mapM_eq_ok fun item hitem => ?_
    obtain ⟨original, horiginal, rfl⟩ := List.mem_map.1 hitem
    exact openItem_plain h hprepared horiginal
  obtain ⟨opened, hopened⟩ := hopened
  refine ⟨(preview.plain, opened), ?_⟩
  simp only [DocumentPreview.loadConfirmable, bind_eq_ok, require_eq_ok, pure_eq_ok,
    Bool.and_eq_true, beq_iff_eq, decide_eq_true_eq]
  exact ⟨(), ⟨⟨hintime.tenant, hintime.user⟩, hintime.workspace⟩, instant, haware, (), rfl, (),
    hprepared.state, (), hlt, (), hauthority, opened, hopened, preview.plain,
    DocumentPreview.validate_self_iff.2 h.plain, rfl⟩

/-- The stored record of the preview is loaded as the preview it was, and a preview that was
prepared is confirmed from its record in time. -/
def DocumentPreview.LoadsAndConfirms (env : ConfirmationEnvironment Evidence Arguments)
    (publicText : String → String) (preview : DocumentPreview) : Prop :=
  ∃ loaded, previewFromRpc env.toDocumentEnvironment (preview.storageRecord.stored publicText)
      (preview.items.map (·.storageRecord.stored publicText)) = .ok loaded ∧ loaded.Same preview ∧
    ∀ evidence scope now, preview.Prepared env evidence →
      preview.InTime env evidence scope now →
        ∃ confirmable, loaded.loadConfirmable env scope preview.stateVersion evidence now =
          .ok confirmable

/-- What is not written has to have the value the loader gives it, and the display texts have to be
read back from what is stored. -/
theorem loadsAndConfirms_iff {publicText : String → String} {preview : DocumentPreview}
    (h : preview.validate env.toDocumentEnvironment = .ok preview) :
    preview.LoadsAndConfirms env publicText ↔
      preview.Written env.toDocumentEnvironment publicText := by
  have hvalid := DocumentPreview.validate_self_iff.1 h
  constructor
  · rintro ⟨loaded, hloaded, hsame, -⟩
    obtain ⟨hname, hitems⟩ := readFrom_of_previewFromRpc hloaded
    exact hsame.written hname hitems
  · intro hwritten
    exact ⟨preview.plain, previewFromRpc_storageRecord hvalid hwritten, preview.same_plain,
      fun _ _ _ hprepared hintime => loadConfirmable_plain hvalid hprepared hintime⟩

end

/-! ### A preview of one invoice -/

/-- One line of a hundred units of a currency. -/
def oneLine (currency : String) (minorUnits : Nat) : DocumentFinancials Decimal where
  subtotal := ⟨false, 100, 0⟩
  discountTotal := ⟨false, 0, 0⟩
  vatTotal := ⟨false, 0, 0⟩
  withholdingTaxTotal := ⟨false, 0, 0⟩
  grandTotal := ⟨false, 100, 0⟩
  currency := currency
  minorUnits := minorUnits
  lines := [
    { currency := currency
      quantity := ⟨false, 1, 0⟩
      unitPrice := ⟨false, 100, 0⟩
      discountAmount := ⟨false, 0, 0⟩
      vatRate := ⟨false, 0, 0⟩
      vatAmount := ⟨false, 0, 0⟩
      withholdingRate := ⟨false, 0, 0⟩
      withholdingAmount := ⟨false, 0, 0⟩
      lineTotal := ⟨false, 100, 0⟩
      minorUnits := minorUnits }]

/-- A payload that is sealed for the item of `oneInvoice`. -/
def sealedPayload : CredentialEnvelope where
  id := 9
  tenantId := 2
  workspaceId := 4
  authUserId := 3
  connectionId := 5
  provider := "peak"
  environment := "production"
  credentialType := hostedPreviewPayloadCredentialType
  keyVersion := "v1"
  nonce := List.replicate 12 0
  ciphertext := List.replicate 16 0
  aadHash := List.replicate 32 0
  createdAt := 0
  rotatedAt := none
  revokedAt := none

def oneInvoice (currency : String) (minorUnits : Nat) : DocumentPreview where
  previewId := 1
  tenantId := 2
  authUserId := 3
  workspaceId := 4
  connectionId := 5
  provider := .peak
  environment := "production"
  capabilityId := "documents.invoice.create"
  capabilityVersion := hashOf '5'
  connectionRevision := 1
  providerCallHash := hashOf 'a'
  previewIntegrityHash := hashOf 'a'
  providerAccountSha256 := hashOf '1'
  qualificationId := 6
  providerToolName := "invoices_create"
  schemaHash := hashOf '2'
  responseShapeHash := hashOf '3'
  evidenceRevisionSha256 := hashOf '4'
  projectorId := "peak_invoice"
  projectorVersion := hashOf '7'
  connectionReadiness := .ready
  toTotals := (oneLine currency minorUnits).toTotals
  accountDisplayName := "Company"
  state := .awaitingConfirmation
  stateVersion := 1
  currency := currency
  warnings := []
  accountantReviewPoints := []
  items := [
    { previewItemId := 7
      itemIndex := 0
      clientItemId := "first"
      providerCallHash := hashOf '6'
      previewIntegrityHash := hashOf 'a'
      createdAt := 0
      payloadPurgeAfter := previewTtl + unconfirmedPayloadRetention
      previewId := 1
      tenantId := 2
      authUserId := 3
      workspaceId := 4
      connectionId := 5
      documentType := "invoice"
      counterpartyDisplay := "Customer"
      issueDate := 738000
      dueDate := 738030
      financials := oneLine currency minorUnits
      warnings := []
      accountantReviewPoints := []
      payloadEnvelope := sealedPayload }]
  supersedesPreviewId := none
  createdAt := 0
  expiresAt := previewTtl
  payloadPurgeAfter := previewTtl + unconfirmedPayloadRetention
  confirmedAt := none
  cancelledAt := none

/-- Texts stay as they are, a payload is its own content and hashes are constant. -/
def openEnvironment : ConfirmationEnvironment Unit (DocumentFinancials Decimal) where
  sanitize := some
  canonicalPayloadHash := fun _ => hashOf 'a'
  validateAuthority := fun _ _ _ _ => .ok ()
  openPayload := fun _ _ => some (oneLine "THB" 2)
  project := fun _ financials => .ok ⟨"invoice", "Customer", 738000, 738030, financials⟩
  providerCallHash := fun _ _ => hashOf '6'

lemma wellFormed_oneInvoice (currency : String) (minorUnits : Nat) :
    (oneInvoice currency minorUnits).summary.WellFormed := by
  have hvalidate : (oneInvoice "THB" 2).summary.validate = .ok (oneInvoice "THB" 2).summary := by
    decide +kernel
  exact (Hosted.DocumentPreview.validate_eq_ok.1 hvalidate).2

lemma validate_oneInvoice {currency : String} {minorUnits : Nat}
    (hchecked : (oneInvoice currency minorUnits).Checked openEnvironment.toDocumentEnvironment)
    (hitems : ∀ item ∈ (oneInvoice currency minorUnits).items,
      item.validate openEnvironment.toDocumentEnvironment = .ok item)
    (hcontents : (oneInvoice currency minorUnits).validateContents
      openEnvironment.toDocumentEnvironment = .ok ()) :
    (oneInvoice currency minorUnits).validate openEnvironment.toDocumentEnvironment =
      .ok (oneInvoice currency minorUnits) :=
  DocumentPreview.validate_self_iff.2
    ⟨hchecked, rfl, hitems, wellFormed_oneInvoice currency minorUnits, hcontents⟩

lemma validate_oneInvoice_thb : (oneInvoice "THB" 2).validate openEnvironment.toDocumentEnvironment =
    .ok (oneInvoice "THB" 2) := by
  refine validate_oneInvoice ⟨by decide +kernel, ?_, by decide +kernel⟩ (by decide +kernel)
    (by decide +kernel)
  simp only [Admitted]
  decide +kernel

lemma validate_oneInvoice_jpy : (oneInvoice "JPY" 0).validate openEnvironment.toDocumentEnvironment =
    .ok (oneInvoice "JPY" 0) := by
  refine validate_oneInvoice ⟨by decide +kernel, ?_, by decide +kernel⟩ (by decide +kernel)
    (by decide +kernel)
  simp only [Admitted]
  decide +kernel

/-- `mercury_public_text` leaves the two texts of the preview as they are. -/
theorem loadsAndConfirms_oneInvoice : (oneInvoice "THB" 2).LoadsAndConfirms openEnvironment id := by
  refine (loadsAndConfirms_iff validate_oneInvoice_thb).2 ⟨by decide, by decide, ?_, ?_⟩
  · exact ⟨by decide, rfl⟩
  · intro item hitem
    obtain rfl := List.mem_singleton.1 hitem
    exact ⟨"Customer", ⟨by decide, rfl⟩, by decide, rfl⟩

/-- An invoice in a currency without minor units is not loaded as it was. -/
theorem not_loadsAndConfirms_jpy :
    (oneInvoice "JPY" 0).validate openEnvironment.toDocumentEnvironment =
        .ok (oneInvoice "JPY" 0) ∧
      ¬ (oneInvoice "JPY" 0).LoadsAndConfirms openEnvironment id := by
  refine ⟨validate_oneInvoice_jpy, ?_⟩
  rintro ⟨loaded, hloaded, hsame, -⟩
  obtain ⟨hname, hitems⟩ := readFrom_of_previewFromRpc hloaded
  have hwritten := hsame.written hname hitems
  exact absurd (hwritten.minor_units _ (List.mem_singleton.2 rfl)) (by decide)

end Documents
end Hosted
end MercuryTools
