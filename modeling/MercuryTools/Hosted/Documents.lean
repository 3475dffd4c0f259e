import MercuryTools.Framework.Checks
import MercuryTools.Framework.Decimals
import MercuryTools.Hosted.Preview

/-!
# Previews with their documents

`DocumentPreview` of `execution/hosted/models.py` with everything it holds: the amounts of its
documents with the validators that recompute them, the sealed payloads, and the hashes that
bind the parts together.  The state of a preview, its timestamps and its item order are checked
as in `Hosted.DocumentPreview`, to which `summary` reduces it.

Amounts are decimals.  The arithmetic of the validators is that of the default decimal context:
every result is rounded to twenty-eight significant digits.  No operand has more than ten
places, so the results are taken as exact values that are rounded.
-/

namespace MercuryTools
namespace Hosted
namespace Documents

open Checks Decimals

/-- Days, as `date.toordinal` counts them. -/
abbrev Date := Nat

inductive ConnectionReadiness where
  | requiresValidation
  | ready
  | validationFailed
  | requiresReauthorization
  | disconnected
  deriving DecidableEq, Repr

/-! ## Amounts -/

/-- The amounts of a line: decimals, their texts or their values. -/
structure LineAmounts (α : Type) where
  currency : String
  quantity : α
  unitPrice : α
  discountAmount : α
  vatRate : α
  vatAmount : α
  withholdingRate : α
  withholdingAmount : α
  lineTotal : α
  deriving DecidableEq, Repr

/-- The totals of a document or of a preview. -/
structure Totals (α : Type) where
  subtotal : α
  discountTotal : α
  vatTotal : α
  withholdingTaxTotal : α
  grandTotal : α
  deriving DecidableEq, Repr

def LineAmounts.map {α β : Type} (f : α → β) (line : LineAmounts α) : LineAmounts β where
  currency := line.currency
  quantity := f line.quantity
  unitPrice := f line.unitPrice
  discountAmount := f line.discountAmount
  vatRate := f line.vatRate
  vatAmount := f line.vatAmount
  withholdingRate := f line.withholdingRate
  withholdingAmount := f line.withholdingAmount
  lineTotal := f line.lineTotal

def Totals.map {α β : Type} (f : α → β) (totals : Totals α) : Totals β where
  subtotal := f totals.subtotal
  discountTotal := f totals.discountTotal
  vatTotal := f totals.vatTotal
  withholdingTaxTotal := f totals.withholdingTaxTotal
  grandTotal := f totals.grandTotal

/-- `DocumentLineAmounts`. -/
structure DocumentLineAmounts (α : Type) extends LineAmounts α where
  minorUnits : Nat
  deriving DecidableEq, Repr

/-- `DocumentFinancials`. -/
structure DocumentFinancials (α : Type) extends Totals α where
  currency : String
  minorUnits : Nat
  lines : List (DocumentLineAmounts α)
  deriving DecidableEq, Repr

def DocumentLineAmounts.map {α β : Type} (f : α → β) (line : DocumentLineAmounts α) :
    DocumentLineAmounts β where
  toLineAmounts := line.toLineAmounts.map f
  minorUnits := line.minorUnits

def DocumentFinancials.map {α β : Type} (f : α → β) (financials : DocumentFinancials α) :
    DocumentFinancials β where
  toTotals := financials.toTotals.map f
  currency := financials.currency
  minorUnits := financials.minorUnits
  lines := financials.lines.map (·.map f)

/-- `_MAX_DECIMAL`, `999999999999999.9999`. -/
def maxDecimal : ℚ := 9999999999999999999 / 10000

/-- `_parse_decimal_string` of a decimal. -/
def checkDecimal (d : Decimal) : Except String Decimal := do
  require (|d.value| ≤ maxDecimal) "decimal_string_required"
  require (-4 ≤ d.exponent) "decimal_string_required"
  return d

/-- `_parse_decimal_string` of a text. -/
def parseDecimalString (s : String) : Except String Decimal :=
  match Decimal.parse 4 s with
  | none => .error "decimal_string_required"
  | some d => checkDecimal d

/-- A result of the default context, which has a precision of twenty-eight digits. -/
def context (value : ℚ) : ℚ := roundSignificant 28 10 value

/-- `_round_money`: `quantize` fails where the coefficient would be longer than the
precision. -/
def roundMoney (value : ℚ) (minorUnits : Nat) : Except String ℚ := do
  require (|roundHalfUp minorUnits value| * 10 ^ minorUnits < 10 ^ 28) "InvalidOperation"
  return roundHalfUp minorUnits value

/-- `sum(values, Decimal("0"))`. -/
def sumDecimals (values : List ℚ) : ℚ :=
  values.foldl (fun sum value => context (sum + value)) 0

/-- `_CURRENCY`: `^[A-Z]{3}$`. -/
def isCurrency (s : String) : Bool :=
  s.toList.length = 3 && s.toList.all (fun c => 'A' ≤ c && c ≤ 'Z')

/-- `cross_check_line`. -/
def crossCheckLine (line : DocumentLineAmounts ℚ) : Except String Unit := do
  let subtotal ← roundMoney (context (line.quantity * line.unitPrice)) line.minorUnits
  let discount ← roundMoney line.discountAmount line.minorUnits
  require (line.discountAmount == discount) "line_currency_precision_invalid"
  require (line.discountAmount ≤ subtotal) "line_discount_mismatch"
  let taxable := context (subtotal - line.discountAmount)
  let expectedVat ← roundMoney (context (context (taxable * line.vatRate) / 100)) line.minorUnits
  let expectedWithholding ←
    roundMoney (context (context (taxable * line.withholdingRate) / 100)) line.minorUnits
  let expectedTotal ←
    roundMoney (context (context (taxable + expectedVat) - expectedWithholding)) line.minorUnits
  require (line.vatAmount == expectedVat) "line_vat_mismatch"
  require (line.withholdingAmount == expectedWithholding) "line_withholding_mismatch"
  require (line.lineTotal == expectedTotal) "line_total_mismatch"

/-- The bounds of the fields of a line. -/
def lineFieldsValid (line : DocumentLineAmounts ℚ) : Bool :=
  isCurrency line.currency && line.minorUnits ≤ 4 && 0 < line.quantity && 0 ≤ line.unitPrice &&
    0 ≤ line.discountAmount && 0 ≤ line.vatRate && line.vatRate ≤ 100 && 0 ≤ line.vatAmount &&
    0 ≤ line.withholdingRate && line.withholdingRate ≤ 100 && 0 ≤ line.withholdingAmount

/-- The decimals of a line. -/
def LineAmounts.amounts {α : Type} (line : LineAmounts α) : List α :=
  [line.quantity, line.unitPrice, line.discountAmount, line.vatRate, line.vatAmount,
    line.withholdingRate, line.withholdingAmount, line.lineTotal]

def Totals.amounts {α : Type} (totals : Totals α) : List α :=
  [totals.subtotal, totals.discountTotal, totals.vatTotal, totals.withholdingTaxTotal,
    totals.grandTotal]

/-- `DocumentLineAmounts.model_validate`. -/
def DocumentLineAmounts.validate (line : DocumentLineAmounts Decimal) : Except String Unit := do
  line.amounts.forM fun d => do let _ ← checkDecimal d
  require (lineFieldsValid (line.map Decimal.value)) "line_fields"
  crossCheckLine (line.map Decimal.value)

/-- The bounds of the totals. -/
def totalsValid (totals : Totals ℚ) : Bool :=
  0 ≤ totals.subtotal && 0 ≤ totals.discountTotal && 0 ≤ totals.vatTotal &&
    0 ≤ totals.withholdingTaxTotal

/-- `cross_check_document`. -/
def crossCheckDocument (financials : DocumentFinancials ℚ) : Except String Unit := do
  require (financials.lines.all fun line =>
    line.currency == financials.currency && line.minorUnits == financials.minorUnits)
    "document_currency_mismatch"
  let total (f : DocumentLineAmounts ℚ → ℚ) : Except String ℚ :=
    roundMoney (sumDecimals (financials.lines.map f)) financials.minorUnits
  let subtotal ← total fun line => context (line.quantity * line.unitPrice)
  let discountTotal ← total (·.discountAmount)
  let vatTotal ← total (·.vatAmount)
  let withholdingTaxTotal ← total (·.withholdingAmount)
  let grandTotal ← total (·.lineTotal)
  require (financials.subtotal == subtotal) "document_subtotal_mismatch"
  require (financials.discountTotal == discountTotal) "document_discount_mismatch"
  require (financials.vatTotal == vatTotal) "document_vat_mismatch"
  require (financials.withholdingTaxTotal == withholdingTaxTotal) "document_withholding_mismatch"
  require (financials.grandTotal == grandTotal) "document_grand_total_mismatch"
  let calculatedTotal ← roundMoney (context (context (context (financials.subtotal -
    financials.discountTotal) + financials.vatTotal) - financials.withholdingTaxTotal))
    financials.minorUnits
  require (financials.grandTotal == calculatedTotal) "document_grand_total_mismatch"

/-- `DocumentFinancials.model_validate`. -/
def DocumentFinancials.validate (financials : DocumentFinancials Decimal) :
    Except String Unit := do
  require (isCurrency financials.currency && financials.minorUnits ≤ 4) "currency"
  require (1 ≤ financials.lines.length && financials.lines.length ≤ 2500) "lines"
  financials.lines.forM (·.validate)
  financials.amounts.forM fun d => do let _ ← checkDecimal d
  require (totalsValid (financials.toTotals.map Decimal.value)) "totals"
  crossCheckDocument (financials.map Decimal.value)

/-! ## What is written of the amounts -/

/-- `financials.model_dump(mode="json")`: the minor units are excluded. -/
structure FinancialsRecord extends Totals String where
  currency : String
  lines : List (LineAmounts String)
  deriving DecidableEq, Repr

def DocumentFinancials.modelDump (financials : DocumentFinancials Decimal) :
    FinancialsRecord where
  toTotals := financials.toTotals.map Decimal.text
  currency := financials.currency
  lines := financials.lines.map fun line => line.toLineAmounts.map Decimal.text

/-- The default of `minor_units`. -/
def defaultMinorUnits : Nat := 2

/-- `DocumentFinancials.model_validate` of what was written, up to the checks: the amounts are
read, the minor units have their default. -/
def FinancialsRecord.parse (record : FinancialsRecord) :
    Except String (DocumentFinancials Decimal) := do
  let lines ← record.lines.mapM fun line => do
    return ({ currency := line.currency
              quantity := ← parseDecimalString line.quantity
              unitPrice := ← parseDecimalString line.unitPrice
              discountAmount := ← parseDecimalString line.discountAmount
              vatRate := ← parseDecimalString line.vatRate
              vatAmount := ← parseDecimalString line.vatAmount
              withholdingRate := ← parseDecimalString line.withholdingRate
              withholdingAmount := ← parseDecimalString line.withholdingAmount
              lineTotal := ← parseDecimalString line.lineTotal
              minorUnits := defaultMinorUnits } : DocumentLineAmounts Decimal)
  return { subtotal := ← parseDecimalString record.subtotal
           discountTotal := ← parseDecimalString record.discountTotal
           vatTotal := ← parseDecimalString record.vatTotal
           withholdingTaxTotal := ← parseDecimalString record.withholdingTaxTotal
           grandTotal := ← parseDecimalString record.grandTotal
           currency := record.currency
           minorUnits := defaultMinorUnits
           lines := lines }

/-! ## Items and previews -/

/-- `CredentialEnvelope`, with the sealed payload of an item. -/
structure CredentialEnvelope where
  id : UUID
  tenantId : UUID
  workspaceId : UUID
  authUserId : UUID
  connectionId : UUID
  provider : String
  environment : String
  credentialType : String
  keyVersion : String
  nonce : List UInt8
  ciphertext : List UInt8
  aadHash : List UInt8
  createdAt : Instant
  rotatedAt : Option Instant
  revokedAt : Option Instant
  deriving DecidableEq, Repr

/-- `^[a-z][a-z0-9]*(?:[._-][a-z0-9]+)*$`, with at most 64 characters. -/
def isCredentialIdentifier (s : String) : Bool :=
  let segments := s.toList.splitOnP (· ∈ ['.', '_', '-'])
  s.toList.length ≤ 64 && s.toList.head?.any (fun c => 'a' ≤ c && c ≤ 'z') &&
    segments.all fun segment => !segment.isEmpty &&
      segment.all fun c => ('a' ≤ c && c ≤ 'z') || ('0' ≤ c && c ≤ '9')

/-- `CredentialEnvelope.model_validate`. -/
def CredentialEnvelope.isValid (envelope : CredentialEnvelope) : Bool :=
  [envelope.provider, envelope.environment, envelope.credentialType,
    envelope.keyVersion].all isCredentialIdentifier &&
    envelope.nonce.length == 12 && 16 ≤ envelope.ciphertext.length &&
    envelope.aadHash.length == 32 &&
    [envelope.id, envelope.tenantId, envelope.workspaceId, envelope.authUserId,
      envelope.connectionId].all (· != 0) &&
    envelope.rotatedAt.all (envelope.createdAt ≤ ·) &&
    envelope.revokedAt.all (envelope.createdAt ≤ ·)

def hostedPreviewPayloadCredentialType : String := "hosted_preview_payload"

/-- `StoredPreviewItem`. -/
structure StoredPreviewItem extends Hosted.StoredPreviewItem where
  previewId : UUID
  tenantId : UUID
  authUserId : UUID
  workspaceId : UUID
  connectionId : UUID
  documentType : String
  counterpartyDisplay : String
  issueDate : Date
  dueDate : Date
  financials : DocumentFinancials Decimal
  warnings : List String
  accountantReviewPoints : List String
  payloadEnvelope : CredentialEnvelope
  deriving DecidableEq, Repr

/-- The connection, the qualification and the projector a preview was prepared under, as far as
its operations do not share them. -/
structure PreviewAuthority where
  providerAccountSha256 : String
  qualificationId : UUID
  providerToolName : String
  schemaHash : String
  responseShapeHash : String
  evidenceRevisionSha256 : String
  projectorId : String
  projectorVersion : String
  connectionReadiness : ConnectionReadiness
  deriving DecidableEq, Repr

/-- `DocumentPreview`. -/
structure DocumentPreview extends ConfirmationBinding, PreviewAuthority, Totals Decimal where
  accountDisplayName : String
  state : PreviewState
  stateVersion : Nat
  currency : String
  warnings : List String
  accountantReviewPoints : List String
  items : List StoredPreviewItem
  supersedesPreviewId : Option UUID
  createdAt : Instant
  expiresAt : Instant
  payloadPurgeAfter : Instant
  confirmedAt : Option Instant
  cancelledAt : Option Instant
  deriving DecidableEq, Repr

/-- The part of a preview that its transitions and its operations read. -/
def DocumentPreview.summary (preview : DocumentPreview) : Hosted.DocumentPreview where
  toConfirmationBinding := preview.toConfirmationBinding
  state := preview.state
  stateVersion := preview.stateVersion
  items := preview.items.map (·.toStoredPreviewItem)
  createdAt := preview.createdAt
  expiresAt := preview.expiresAt
  payloadPurgeAfter := preview.payloadPurgeAfter
  confirmedAt := preview.confirmedAt
  cancelledAt := preview.cancelledAt

/-- The dictionaries that `canonical_payload_hash` is taken of. -/
inductive HashPayload where
  | item (clientItemId providerCallHash projectorId projectorVersion documentType
      counterpartyDisplay : String) (issueDate dueDate : Date) (financials : FinancialsRecord)
      (warnings accountantReviewPoints : List String)
  | providerCall (provider : ProviderId) (environment providerToolName capabilityId
      capabilityVersion schemaHash : String) (itemProviderCallHashes : List String)
  | preview (providerCallHash accountDisplayName projectorId projectorVersion : String)
      (itemPreviewIntegrityHashes warnings accountantReviewPoints : List String)
  deriving DecidableEq, Repr

/-- The projection of public texts and the hash of canonical JSON. -/
structure DocumentEnvironment where
  sanitize : String → Option String
  canonicalPayloadHash : HashPayload → String

/-- `_DOCUMENT_TYPE`: `^[a-z][a-z0-9_]{0,63}$`. -/
def isDocumentType (s : String) : Bool :=
  match s.toList with
  | [] => false
  | c :: cs =>
      ('a' ≤ c && c ≤ 'z') && cs.length ≤ 63 &&
        cs.all (fun d => ('a' ≤ d && d ≤ 'z') || ('0' ≤ d && d ≤ '9') || d == '_')

/-- `validate_review_codes`, with the limit of the field. -/
def reviewCodesValid (limit : Nat) (codes : List String) : Bool :=
  codes.length ≤ limit && codes.Nodup && codes.all isIdentifier

def ProviderId.value : ProviderId → String
  | .flowaccount => "flowaccount"
  | .peak => "peak"

section

variable (env : DocumentEnvironment)

/-- The checks of `validate_item` on the sealed payload. -/
def StoredPreviewItem.envelopeValid (item : StoredPreviewItem) : Bool :=
  item.payloadEnvelope.isValid && item.payloadEnvelope.tenantId == item.tenantId &&
    item.payloadEnvelope.authUserId == item.authUserId &&
    item.payloadEnvelope.workspaceId == item.workspaceId &&
    item.payloadEnvelope.connectionId == item.connectionId &&
    item.payloadEnvelope.credentialType == hostedPreviewPayloadCredentialType &&
    item.payloadEnvelope.revokedAt.isNone

/-- `StoredPreviewItem.model_validate`. -/
def StoredPreviewItem.validate (item : StoredPreviewItem) : Except String StoredPreviewItem := do
  require item.toStoredPreviewItem.isValid "preview_item_retention_invalid"
  let _ ← requireSafePublicIdentifier env.sanitize item.clientItemId "preview_item_binding_invalid"
  require (isDocumentType item.documentType) "document_type"
  require (1 ≤ item.counterpartyDisplay.length && item.counterpartyDisplay.length ≤ 200)
    "counterparty_display"
  let display ← sanitizePublicText env.sanitize item.counterpartyDisplay
    "preview_item_binding_invalid"
  item.financials.validate
  require (reviewCodesValid 100 item.warnings && reviewCodesValid 100 item.accountantReviewPoints)
    "preview_item_binding_invalid"
  require ([item.previewId, item.tenantId, item.authUserId, item.workspaceId,
    item.connectionId].all (· != 0)) "preview_item_binding_invalid"
  require (item.issueDate ≤ item.dueDate) "preview_item_binding_invalid"
  require item.envelopeValid "preview_item_envelope_invalid"
  return { item with counterpartyDisplay := display }

namespace DocumentPreview

/-- `preview_item_integrity_hash` of an item. -/
def itemIntegrityHash (preview : DocumentPreview) (item : StoredPreviewItem) : String :=
  env.canonicalPayloadHash (.item item.clientItemId item.providerCallHash preview.projectorId
    preview.projectorVersion item.documentType item.counterpartyDisplay item.issueDate item.dueDate
    item.financials.modelDump item.warnings item.accountantReviewPoints)

/-- `preview_provider_call_hash`. -/
def previewProviderCallHash (preview : DocumentPreview) : String :=
  env.canonicalPayloadHash (.providerCall preview.provider preview.environment
    preview.providerToolName preview.capabilityId preview.capabilityVersion preview.schemaHash
    (preview.items.map (·.providerCallHash)))

/-- `preview_integrity_hash`. -/
def integrityHash (preview : DocumentPreview) : String :=
  env.canonicalPayloadHash (.preview preview.providerCallHash preview.accountDisplayName
    preview.projectorId preview.projectorVersion (preview.items.map (·.previewIntegrityHash))
    preview.warnings preview.accountantReviewPoints)

/-- What `validate_preview` asks of an item beside its timestamps. -/
def itemBound (preview : DocumentPreview) (item : StoredPreviewItem) : Bool :=
  item.previewId == preview.previewId && item.tenantId == preview.tenantId &&
    item.authUserId == preview.authUserId && item.workspaceId == preview.workspaceId &&
    item.connectionId == preview.connectionId &&
    item.payloadEnvelope.provider == ProviderId.value preview.provider &&
    item.payloadEnvelope.environment == preview.environment

/-- The constraints on the fields that the binding does not hold. -/
def documentFieldsValid (preview : DocumentPreview) : Bool :=
  isSha256 preview.providerAccountSha256 && isIdentifier preview.providerToolName &&
    isSha256 preview.schemaHash && isSha256 preview.responseShapeHash &&
    isSha256 preview.evidenceRevisionSha256 && isIdentifier preview.projectorId &&
    isSha256 preview.projectorVersion && isCurrency preview.currency &&
    1 ≤ preview.accountDisplayName.length && preview.accountDisplayName.length ≤ 200 &&
    reviewCodesValid 2500 preview.warnings && reviewCodesValid 2500 preview.accountantReviewPoints

/-- The checks of `validate_preview` on the contents. -/
def validateContents (preview : DocumentPreview) : Except String Unit := do
  require (preview.qualificationId != 0 && preview.supersedesPreviewId.all (· != 0))
    "preview_binding_invalid"
  require (preview.connectionReadiness == .ready) "preview_binding_invalid"
  preview.items.forM fun item => do
    require (preview.itemBound item) "preview_item_binding_invalid"
    require (item.previewIntegrityHash == preview.itemIntegrityHash env item)
      "preview_item_integrity_hash_invalid"
  require (preview.items.all (·.financials.currency == preview.currency))
    "document_currency_mismatch"
  let total (f : Totals ℚ → ℚ) : ℚ :=
    sumDecimals (preview.items.map fun item => f (item.financials.toTotals.map Decimal.value))
  require (preview.toTotals.map Decimal.value ==
    ⟨total (·.subtotal), total (·.discountTotal), total (·.vatTotal),
      total (·.withholdingTaxTotal), total (·.grandTotal)⟩) "preview_total_mismatch"
  require (preview.providerCallHash == preview.previewProviderCallHash env)
    "preview_provider_call_hash_invalid"
  require (preview.previewIntegrityHash == preview.integrityHash env)
    "preview_integrity_hash_invalid"

/-- `DocumentPreview.model_validate`. -/
def validate (preview : DocumentPreview) : Except String DocumentPreview := do
  require preview.documentFieldsValid "preview_binding_invalid"
  let displayName ← sanitizePublicText env.sanitize preview.accountDisplayName
    "preview_binding_invalid"
  preview.amounts.forM fun d => do let _ ← checkDecimal d
  require (totalsValid (preview.toTotals.map Decimal.value)) "totals"
  let items ← preview.items.mapM (·.validate env)
  let checked := { preview with accountDisplayName := displayName, items := items }
  let _ ← checked.summary.validate
  checked.validateContents env
  return checked

end DocumentPreview

end

end Documents
end Hosted
end MercuryTools
