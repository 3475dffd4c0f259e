import MercuryTools.Hosted.DocumentStore

/-!
# Preparing previews

`prepare_document_create` of `execution/hosted/preview_service.py` but for its calls on the
store: the documents of a request are projected and hashed, the identity of the preview is
derived from the hashes, and `_build_preview` seals the arguments of each document and puts the
preview together.

The membership, the connection and the qualification that the service resolves enter as the
fields a preview takes from them (`PreparationAuthority`).  The schema of the qualification and
the sealing are parameters.
-/

namespace MercuryTools
namespace Hosted
namespace Documents

open Checks Decimals

/-! ## Documents of a request -/

/-- `DocumentCreateDraft`. -/
structure DocumentCreateDraft (Arguments : Type) where
  clientItemId : String
  providerArguments : Arguments
  warnings : List String
  accountantReviewPoints : List String
  deriving DecidableEq, Repr

/-- What the service takes from the membership, the connection, the qualification and its
projector. -/
structure PreparationAuthority extends PreviewAuthority where
  tenantId : UUID
  authUserId : UUID
  workspaceId : UUID
  connectionId : UUID
  provider : ProviderId
  environment : String
  capabilityId : String
  capabilityVersion : String
  connectionRevision : Nat
  accountDisplayName : String
  deriving DecidableEq, Repr

def PreparationAuthority.callIdentity (authority : PreparationAuthority) : CallIdentity where
  provider := authority.provider
  environment := authority.environment
  providerToolName := authority.providerToolName
  capabilityId := authority.capabilityId
  capabilityVersion := authority.capabilityVersion
  schemaHash := authority.schemaHash

/-- A document with its projection and its two hashes. -/
structure PreparedDocument (Arguments : Type) where
  draft : DocumentCreateDraft Arguments
  projection : ProjectedDocument
  providerCallHash : String
  integrityHash : String
  deriving DecidableEq, Repr

/-- The identity of a preview, with the texts it is derived from. -/
structure PreviewIdentity where
  providerCallHash : String
  previewIntegrityHash : String
  accountDisplayName : String
  warnings : List String
  accountantReviewPoints : List String
  deriving DecidableEq, Repr

/-- `_unique_review_codes`: the first occurrence of each code. -/
def uniqueReviewCodes (codes : List String) : List String :=
  codes.foldl (fun unique code => if code ∈ unique then unique else unique ++ [code]) []

section

variable {Evidence Arguments : Type} (env : ConfirmationEnvironment Evidence Arguments)
  (acceptsArguments : Evidence → Arguments → Bool)

/-- The two hashes of a document, `provider_call_hash` and `preview_item_integrity_hash`. -/
def prepareDocument (authority : PreparationAuthority) (draft : DocumentCreateDraft Arguments)
    (projection : ProjectedDocument) : PreparedDocument Arguments :=
  let providerCallHash := env.providerCallHash authority.callIdentity draft.providerArguments
  { draft := draft
    projection := projection
    providerCallHash := providerCallHash
    integrityHash := env.canonicalPayloadHash (.item draft.clientItemId providerCallHash
      authority.projectorId authority.projectorVersion projection.documentType
      projection.counterpartyDisplay projection.issueDate projection.dueDate
      projection.financials.modelDump draft.warnings draft.accountantReviewPoints) }

/-- The documents of a request, from `_request_documents` to their hashes. -/
def prepareDocuments (evidence : Evidence) (authority : PreparationAuthority)
    (drafts : List (DocumentCreateDraft Arguments)) :
    Except String (List (PreparedDocument Arguments)) := do
  require (drafts.map (·.clientItemId)).Nodup "document_payload_invalid"
  require (drafts.all fun draft => acceptsArguments evidence draft.providerArguments)
    "document_schema_invalid"
  let documents ← drafts.mapM fun draft =>
    match env.project evidence draft.providerArguments with
    | .error _ => .error "document_schema_invalid"
    | .ok projection => .ok (prepareDocument env authority draft projection)
  require ((documents.map (·.projection.financials.currency)).dedup.length == 1)
    "document_schema_invalid"
  require (documents.map (·.providerCallHash)).Nodup "duplicate_provider_call"
  return documents

/-- The two hashes of a preview. -/
def previewIdentity (authority : PreparationAuthority)
    (documents : List (PreparedDocument Arguments)) : Except String PreviewIdentity := do
  let providerCallHash := env.canonicalPayloadHash (.providerCall authority.provider
    authority.environment authority.providerToolName authority.capabilityId
    authority.capabilityVersion authority.schemaHash (documents.map (·.providerCallHash)))
  let accountDisplayName ← sanitizePublicText env.sanitize authority.accountDisplayName
    "preview_binding_changed"
  let warnings := uniqueReviewCodes (documents.flatMap (·.draft.warnings))
  let reviewPoints := uniqueReviewCodes (documents.flatMap (·.draft.accountantReviewPoints))
  return { providerCallHash := providerCallHash
           previewIntegrityHash := env.canonicalPayloadHash (.preview providerCallHash
             accountDisplayName authority.projectorId authority.projectorVersion
             (documents.map (·.integrityHash)) warnings reviewPoints)
           accountDisplayName := accountDisplayName
           warnings := warnings
           accountantReviewPoints := reviewPoints }

/-! ## The preview -/

/-- The clock and the identifiers of one preview, and how its payloads are sealed. -/
structure PreparationInput (Arguments : Type) where
  now : Instant
  previewId : UUID
  previewItemIds : List UUID
  supersedesPreviewId : Option UUID
  sealPayload : PreviewPayloadBinding → Arguments → CredentialEnvelope

/-- The binding a document is sealed under. -/
def itemBinding (authority : PreparationAuthority) (input : PreparationInput Arguments)
    (previewItemId : UUID) (document : PreparedDocument Arguments) : PreviewPayloadBinding where
  previewId := input.previewId
  previewItemId := previewItemId
  tenantId := authority.tenantId
  authUserId := authority.authUserId
  workspaceId := authority.workspaceId
  connectionId := authority.connectionId
  provider := authority.provider
  providerAccountSha256 := authority.providerAccountSha256
  environment := authority.environment
  qualificationId := authority.qualificationId
  providerToolName := authority.providerToolName
  capabilityId := authority.capabilityId
  capabilityVersion := authority.capabilityVersion
  schemaHash := authority.schemaHash
  evidenceRevisionSha256 := authority.evidenceRevisionSha256
  projectorId := authority.projectorId
  projectorVersion := authority.projectorVersion
  connectionRevision := authority.connectionRevision
  connectionReadiness := authority.connectionReadiness
  previewStateVersion := 1
  clientItemId := document.draft.clientItemId
  providerCallHash := document.providerCallHash
  previewIntegrityHash := document.integrityHash
  createdAt := input.now
  expiresAt := input.now + previewTtl

/-- One round of the loop of `_build_preview`. -/
def buildItem (authority : PreparationAuthority) (input : PreparationInput Arguments)
    (previewItemId : UUID) (index : Nat) (document : PreparedDocument Arguments) :
    StoredPreviewItem where
  previewItemId := previewItemId
  previewId := input.previewId
  tenantId := authority.tenantId
  authUserId := authority.authUserId
  workspaceId := authority.workspaceId
  connectionId := authority.connectionId
  itemIndex := index
  clientItemId := document.draft.clientItemId
  providerCallHash := document.providerCallHash
  previewIntegrityHash := document.integrityHash
  documentType := document.projection.documentType
  counterpartyDisplay := document.projection.counterpartyDisplay
  issueDate := document.projection.issueDate
  dueDate := document.projection.dueDate
  financials := document.projection.financials
  warnings := document.draft.warnings
  accountantReviewPoints := document.draft.accountantReviewPoints
  payloadEnvelope := input.sealPayload (itemBinding authority input previewItemId document)
    document.draft.providerArguments
  createdAt := input.now
  payloadPurgeAfter := input.now + previewTtl + unconfirmedPayloadRetention

/-- The items of `_build_preview`, numbered from `index`. -/
def buildItems (authority : PreparationAuthority) (input : PreparationInput Arguments) :
    Nat → List UUID → List (PreparedDocument Arguments) → List StoredPreviewItem
  | index, previewItemId :: ids, document :: documents =>
      buildItem authority input previewItemId index document ::
        buildItems authority input (index + 1) ids documents
  | _, _, _ => []

/-- `_build_preview`, before the preview is validated. -/
def assemblePreview (authority : PreparationAuthority) (input : PreparationInput Arguments)
    (documents : List (PreparedDocument Arguments)) (identity : PreviewIdentity) :
    DocumentPreview :=
  let items := buildItems authority input 0 input.previewItemIds documents
  let total (f : Totals Decimal → Decimal) : Decimal :=
    Decimal.sum (items.map fun item => f item.financials.toTotals)
  { previewId := input.previewId
    tenantId := authority.tenantId
    authUserId := authority.authUserId
    workspaceId := authority.workspaceId
    connectionId := authority.connectionId
    provider := authority.provider
    environment := authority.environment
    capabilityId := authority.capabilityId
    capabilityVersion := authority.capabilityVersion
    connectionRevision := authority.connectionRevision
    providerCallHash := identity.providerCallHash
    previewIntegrityHash := identity.previewIntegrityHash
    toPreviewAuthority := authority.toPreviewAuthority
    subtotal := total (·.subtotal)
    discountTotal := total (·.discountTotal)
    vatTotal := total (·.vatTotal)
    withholdingTaxTotal := total (·.withholdingTaxTotal)
    grandTotal := total (·.grandTotal)
    accountDisplayName := identity.accountDisplayName
    state := .awaitingConfirmation
    stateVersion := 1
    currency := (items.head?.map (·.financials.currency)).getD ""
    warnings := identity.warnings
    accountantReviewPoints := identity.accountantReviewPoints
    items := items
    supersedesPreviewId := input.supersedesPreviewId
    createdAt := input.now
    expiresAt := input.now + previewTtl
    payloadPurgeAfter := input.now + previewTtl + unconfirmedPayloadRetention
    confirmedAt := none
    cancelledAt := none }

/-- `_build_preview`; there is one identifier for each document. -/
def buildPreview (authority : PreparationAuthority) (input : PreparationInput Arguments)
    (documents : List (PreparedDocument Arguments)) (identity : PreviewIdentity) :
    Except String DocumentPreview := do
  require (input.previewItemIds.length == documents.length) "preview_store_unavailable"
  (assemblePreview authority input documents identity).validate env.toDocumentEnvironment

end

end Documents
end Hosted
end MercuryTools
