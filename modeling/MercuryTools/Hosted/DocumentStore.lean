import MercuryTools.Hosted.Documents
import MercuryTools.Hosted.OperationStore

/-!
# Stored previews and their confirmation

The record a preview is written as (`storage_record` of `execution/hosted/models.py`), what
`save_mercury_document_preview` makes of its display texts, the loader `_preview_from_rpc` of
`execution/hosted/store.py` that builds a preview from the stored record, and `_load_confirmable`,
which opens the sealed payloads of a loaded preview and compares what the projector makes of them
with the documents on record.

A record has the columns of the two tables: identifiers, instants, bytes and the values of
enumerations are typed, amounts are texts.
-/

namespace MercuryTools
namespace Hosted
namespace Documents

open Checks Decimals

/-! ## Records -/

/-- `StoredPreviewItem.public_record`. -/
structure ItemSummary where
  clientItemId : String
  providerCallHash : String
  previewIntegrityHash : String
  documentType : String
  counterpartyDisplay : String
  issueDate : Date
  dueDate : Date
  financials : FinancialsRecord
  warnings : List String
  accountantReviewPoints : List String
  deriving DecidableEq, Repr

/-- `StoredPreviewItem.storage_record`. -/
structure ItemRecord where
  id : UUID
  previewId : UUID
  tenantId : UUID
  authUserId : UUID
  workspaceId : UUID
  connectionId : UUID
  itemIndex : Nat
  clientItemId : String
  providerCallHash : String
  previewIntegrityHash : String
  documentType : String
  sanitizedSummary : ItemSummary
  payloadEnvelopeId : UUID
  payloadKeyVersion : String
  payloadNonce : List UInt8
  payloadCiphertext : List UInt8
  payloadAadHash : List UInt8
  payloadEnvelopeCreatedAt : Instant
  createdAt : Instant
  payloadPurgeAfter : Instant
  deriving DecidableEq, Repr

/-- `DocumentPreview.public_summary_record`. -/
structure PreviewSummary extends Totals String where
  workspaceId : UUID
  previewId : UUID
  stateVersion : Nat
  status : PreviewState
  provider : ProviderId
  companyDisplayName : String
  environment : String
  capabilityId : String
  capabilityVersion : String
  documentCount : Nat
  currency : String
  warningCount : Nat
  expiresAt : Instant
  deriving DecidableEq, Repr

/-- `DocumentPreview.storage_record`. -/
structure PreviewRecord extends ConfirmationBinding, PreviewAuthority, Totals String where
  accountDisplayName : String
  status : PreviewState
  stateVersion : Nat
  documentCount : Nat
  currency : String
  warningCount : Nat
  sanitizedSummary : PreviewSummary
  warnings : List String
  accountantReviewPoints : List String
  supersedesPreviewId : Option UUID
  createdAt : Instant
  expiresAt : Instant
  payloadPurgeAfter : Instant
  confirmedAt : Option Instant
  cancelledAt : Option Instant
  deriving DecidableEq, Repr

namespace StoredPreviewItem

def publicRecord (item : StoredPreviewItem) : ItemSummary where
  clientItemId := item.clientItemId
  providerCallHash := item.providerCallHash
  previewIntegrityHash := item.previewIntegrityHash
  documentType := item.documentType
  counterpartyDisplay := item.counterpartyDisplay
  issueDate := item.issueDate
  dueDate := item.dueDate
  financials := item.financials.modelDump
  warnings := item.warnings
  accountantReviewPoints := item.accountantReviewPoints

/-- `storage_record`: of the envelope, `rotated_at` is not written. -/
def storageRecord (item : StoredPreviewItem) : ItemRecord where
  id := item.previewItemId
  previewId := item.previewId
  tenantId := item.tenantId
  authUserId := item.authUserId
  workspaceId := item.workspaceId
  connectionId := item.connectionId
  itemIndex := item.itemIndex
  clientItemId := item.clientItemId
  providerCallHash := item.providerCallHash
  previewIntegrityHash := item.previewIntegrityHash
  documentType := item.documentType
  sanitizedSummary := item.publicRecord
  payloadEnvelopeId := item.payloadEnvelope.id
  payloadKeyVersion := item.payloadEnvelope.keyVersion
  payloadNonce := item.payloadEnvelope.nonce
  payloadCiphertext := item.payloadEnvelope.ciphertext
  payloadAadHash := item.payloadEnvelope.aadHash
  payloadEnvelopeCreatedAt := item.payloadEnvelope.createdAt
  createdAt := item.createdAt
  payloadPurgeAfter := item.payloadPurgeAfter

end StoredPreviewItem

namespace DocumentPreview

def publicSummaryRecord (preview : DocumentPreview) : PreviewSummary where
  toTotals := preview.toTotals.map Decimal.text
  workspaceId := preview.workspaceId
  previewId := preview.previewId
  stateVersion := preview.stateVersion
  status := preview.state
  provider := preview.provider
  companyDisplayName := preview.accountDisplayName
  environment := preview.environment
  capabilityId := preview.capabilityId
  capabilityVersion := preview.capabilityVersion
  documentCount := preview.items.length
  currency := preview.currency
  warningCount := preview.warnings.length
  expiresAt := preview.expiresAt

def storageRecord (preview : DocumentPreview) : PreviewRecord where
  toConfirmationBinding := preview.toConfirmationBinding
  toPreviewAuthority := preview.toPreviewAuthority
  toTotals := preview.toTotals.map Decimal.text
  accountDisplayName := preview.accountDisplayName
  status := preview.state
  stateVersion := preview.stateVersion
  documentCount := preview.items.length
  currency := preview.currency
  warningCount := preview.warnings.length
  sanitizedSummary := preview.publicSummaryRecord
  warnings := preview.warnings
  accountantReviewPoints := preview.accountantReviewPoints
  supersedesPreviewId := preview.supersedesPreviewId
  createdAt := preview.createdAt
  expiresAt := preview.expiresAt
  payloadPurgeAfter := preview.payloadPurgeAfter
  confirmedAt := preview.confirmedAt
  cancelledAt := preview.cancelledAt

end DocumentPreview

/-! ## Storing -/

section

variable (publicText : String → String)

/-- `save_mercury_document_preview`, for an item. -/
def ItemRecord.stored (row : ItemRecord) : ItemRecord :=
  { row with sanitizedSummary := { row.sanitizedSummary with
      counterpartyDisplay := publicText row.sanitizedSummary.counterpartyDisplay } }

/-- `save_mercury_document_preview`, for the preview; the name in the summary is the projected
one. -/
def PreviewRecord.stored (row : PreviewRecord) : PreviewRecord :=
  let name := publicText row.accountDisplayName
  { row with
    accountDisplayName := name
    sanitizedSummary := { row.sanitizedSummary with companyDisplayName := name } }

end

/-! ## The loader -/

section

variable (env : DocumentEnvironment)

/-- The envelope `_preview_from_rpc` builds for an item. -/
def ItemRecord.envelope (row : ItemRecord) (provider : ProviderId) (environment : String) :
    CredentialEnvelope where
  id := row.payloadEnvelopeId
  tenantId := row.tenantId
  workspaceId := row.workspaceId
  authUserId := row.authUserId
  connectionId := row.connectionId
  provider := ProviderId.value provider
  environment := environment
  credentialType := hostedPreviewPayloadCredentialType
  keyVersion := row.payloadKeyVersion
  nonce := row.payloadNonce
  ciphertext := row.payloadCiphertext
  aadHash := row.payloadAadHash
  createdAt := row.payloadEnvelopeCreatedAt
  rotatedAt := none
  revokedAt := none

/-- The part of `_preview_from_rpc` that builds one item. -/
def itemFromRpc (provider : ProviderId) (environment : String) (row : ItemRecord) :
    Except String StoredPreviewItem := do
  let envelope := row.envelope provider environment
  require envelope.isValid "credential_envelope_invalid"
  let financials ← row.sanitizedSummary.financials.parse
  financials.validate
  StoredPreviewItem.validate env {
    previewItemId := row.id
    previewId := row.previewId
    tenantId := row.tenantId
    authUserId := row.authUserId
    workspaceId := row.workspaceId
    connectionId := row.connectionId
    itemIndex := row.itemIndex
    clientItemId := row.clientItemId
    providerCallHash := row.providerCallHash
    previewIntegrityHash := row.previewIntegrityHash
    documentType := row.documentType
    counterpartyDisplay := row.sanitizedSummary.counterpartyDisplay
    issueDate := row.sanitizedSummary.issueDate
    dueDate := row.sanitizedSummary.dueDate
    financials := financials
    warnings := row.sanitizedSummary.warnings
    accountantReviewPoints := row.sanitizedSummary.accountantReviewPoints
    payloadEnvelope := envelope
    createdAt := row.createdAt
    payloadPurgeAfter := row.payloadPurgeAfter }

/-- The amounts of a record, read. -/
def Totals.parse (totals : Totals String) : Except String (Totals Decimal) := do
  return { subtotal := ← parseDecimalString totals.subtotal
           discountTotal := ← parseDecimalString totals.discountTotal
           vatTotal := ← parseDecimalString totals.vatTotal
           withholdingTaxTotal := ← parseDecimalString totals.withholdingTaxTotal
           grandTotal := ← parseDecimalString totals.grandTotal }

/-- `_preview_from_rpc`. -/
def previewFromRpc (row : PreviewRecord) (itemRows : List ItemRecord) :
    Except String DocumentPreview := do
  let items ← itemRows.mapM (itemFromRpc env row.provider row.environment)
  let totals ← row.toTotals.parse
  DocumentPreview.validate env {
    toConfirmationBinding := row.toConfirmationBinding
    toPreviewAuthority := row.toPreviewAuthority
    toTotals := totals
    accountDisplayName := row.accountDisplayName
    state := row.status
    stateVersion := row.stateVersion
    currency := row.currency
    warnings := row.warnings
    accountantReviewPoints := row.accountantReviewPoints
    items := items
    supersedesPreviewId := row.supersedesPreviewId
    createdAt := row.createdAt
    expiresAt := row.expiresAt
    payloadPurgeAfter := row.payloadPurgeAfter
    confirmedAt := row.confirmedAt
    cancelledAt := row.cancelledAt }

end

/-! ## Confirmation -/

/-- `PreviewPayloadBinding`, the identity a payload is sealed under. -/
structure PreviewPayloadBinding extends ConfirmationBinding where
  previewItemId : UUID
  providerAccountSha256 : String
  qualificationId : UUID
  providerToolName : String
  schemaHash : String
  evidenceRevisionSha256 : String
  projectorId : String
  projectorVersion : String
  connectionReadiness : ConnectionReadiness
  previewStateVersion : Nat
  clientItemId : String
  createdAt : Instant
  expiresAt : Instant
  deriving DecidableEq, Repr

/-- `payload_binding`; the two hashes are those of the item. -/
def DocumentPreview.payloadBinding (preview : DocumentPreview) (item : StoredPreviewItem) :
    PreviewPayloadBinding where
  toConfirmationBinding := { preview.toConfirmationBinding with
    providerCallHash := item.providerCallHash
    previewIntegrityHash := item.previewIntegrityHash }
  previewItemId := item.previewItemId
  providerAccountSha256 := preview.providerAccountSha256
  qualificationId := preview.qualificationId
  providerToolName := preview.providerToolName
  schemaHash := preview.schemaHash
  evidenceRevisionSha256 := preview.evidenceRevisionSha256
  projectorId := preview.projectorId
  projectorVersion := preview.projectorVersion
  connectionReadiness := preview.connectionReadiness
  previewStateVersion := 1
  clientItemId := item.clientItemId
  createdAt := preview.createdAt
  expiresAt := preview.expiresAt

/-- `ProjectedDocument`. -/
structure ProjectedDocument where
  documentType : String
  counterpartyDisplay : String
  issueDate : Date
  dueDate : Date
  financials : DocumentFinancials Decimal
  deriving DecidableEq, Repr

/-- The identity of a provider call beside its arguments. -/
structure CallIdentity where
  provider : ProviderId
  environment : String
  providerToolName : String
  capabilityId : String
  capabilityVersion : String
  schemaHash : String
  deriving DecidableEq, Repr

/-- What confirmation relies on: the connection and qualification that are presented
(`Evidence`), the payload vault, the projector and the hash of a call with its arguments. -/
structure ConfirmationEnvironment (Evidence Arguments : Type) extends DocumentEnvironment where
  validateAuthority : Evidence → ConfirmationBinding → PreviewAuthority → Instant →
    Except String Unit
  openPayload : PreviewPayloadBinding → CredentialEnvelope → Option Arguments
  project : Evidence → Arguments → Except String ProjectedDocument
  providerCallHash : CallIdentity → Arguments → String

namespace DocumentPreview

def callIdentity (preview : DocumentPreview) : CallIdentity where
  provider := preview.provider
  environment := preview.environment
  providerToolName := preview.providerToolName
  capabilityId := preview.capabilityId
  capabilityVersion := preview.capabilityVersion
  schemaHash := preview.schemaHash

variable {Evidence Arguments : Type} (env : ConfirmationEnvironment Evidence Arguments)

/-- One round of the loop of `_load_confirmable`; amounts are compared by their values. -/
def openItem (preview : DocumentPreview) (evidence : Evidence) (item : StoredPreviewItem) :
    Except String (UUID × String × Arguments) :=
  match env.openPayload (preview.payloadBinding item) item.payloadEnvelope with
  | none => .error "preview_payload_changed"
  | some arguments =>
      match env.project evidence arguments with
      | .error _ => .error "preview_payload_changed"
      | .ok projection => do
          let expectedProviderHash := env.providerCallHash preview.callIdentity arguments
          let expectedIntegrityHash := env.canonicalPayloadHash (.item item.clientItemId
            expectedProviderHash preview.projectorId preview.projectorVersion
            projection.documentType projection.counterpartyDisplay projection.issueDate
            projection.dueDate projection.financials.modelDump item.warnings
            item.accountantReviewPoints)
          require (expectedProviderHash == item.providerCallHash &&
            expectedIntegrityHash == item.previewIntegrityHash &&
            projection.documentType == item.documentType &&
            projection.counterpartyDisplay == item.counterpartyDisplay &&
            projection.issueDate == item.issueDate && projection.dueDate == item.dueDate &&
            projection.financials.map Decimal.value == item.financials.map Decimal.value)
            "preview_payload_changed"
          return (item.previewItemId, item.clientItemId, arguments)

/-- `_load_confirmable`. -/
def loadConfirmable (preview : DocumentPreview) (scope : Scope) (expectedStateVersion : Int)
    (evidence : Evidence) (now : DateTime) :
    Except String (DocumentPreview × List (UUID × String × Arguments)) := do
  require (preview.tenantId == scope.tenantId && preview.authUserId == scope.authUserId &&
    preview.workspaceId == scope.workspaceId) "preview_not_found"
  let checkedNow ← awareUtc now "preview_state_invalid"
  require ((preview.stateVersion : Int) == expectedStateVersion) "preview_state_stale"
  require (preview.state ∈ [.prepared, .awaitingConfirmation]) "preview_state_invalid"
  require (checkedNow < preview.expiresAt) "preview_expired"
  env.validateAuthority evidence preview.toConfirmationBinding preview.toPreviewAuthority checkedNow
  let openedItems ← preview.items.mapM (preview.openItem env evidence)
  let checked ← preview.validate env.toDocumentEnvironment
  return (checked, openedItems)

end DocumentPreview

end Documents
end Hosted
end MercuryTools
