import MercuryTools.Hosted.Fields

/-!
# Document previews

The state of a `DocumentPreview` in `execution/hosted/models.py`: its binding, its items, its
status with version and timestamps, the checks `validate_preview` makes of these, and the one
transition function.  The document contents (totals, warnings, sealed payloads) never change
after a preview is built and no state transition reads them; they are not part of this record.
-/

namespace MercuryTools
namespace Hosted

open Checks

inductive PreviewState where
  | prepared
  | awaitingConfirmation
  | confirmed
  | expired
  | cancelled
  deriving DecidableEq, Repr

/-- `_PREVIEW_TRANSITIONS`. -/
def previewTransitions : PreviewState → List PreviewState
  | .prepared => [.awaitingConfirmation, .expired, .cancelled]
  | .awaitingConfirmation => [.confirmed, .expired, .cancelled]
  | .confirmed => []
  | .expired => []
  | .cancelled => []

/-- The part of `StoredPreviewItem` that an operation item is bound to, with its retention. -/
structure StoredPreviewItem where
  previewItemId : UUID
  itemIndex : Nat
  clientItemId : String
  providerCallHash : String
  previewIntegrityHash : String
  createdAt : Instant
  payloadPurgeAfter : Instant
  deriving DecidableEq, Repr

structure DocumentPreview extends ConfirmationBinding where
  state : PreviewState
  stateVersion : Nat
  items : List StoredPreviewItem
  createdAt : Instant
  expiresAt : Instant
  payloadPurgeAfter : Instant
  confirmedAt : Option Instant
  cancelledAt : Option Instant
  deriving DecidableEq, Repr

/-- `StoredPreviewItem.model_validate`, the checks on the fields kept here. -/
def StoredPreviewItem.isValid (item : StoredPreviewItem) : Bool :=
  item.itemIndex < maxBatchDocuments && isIdentifier item.clientItemId &&
    isSha256 item.providerCallHash && isSha256 item.previewIntegrityHash &&
    item.previewItemId != 0 &&
    item.createdAt + previewTtl + unconfirmedPayloadRetention ≤ item.payloadPurgeAfter &&
    item.payloadPurgeAfter ≤ item.createdAt + previewTtl + confirmedPayloadRetention

namespace DocumentPreview

/-- The state versions a status may carry. -/
def validStateVersion (preview : DocumentPreview) : Bool :=
  match preview.state with
  | .prepared => preview.stateVersion == 1
  | .awaitingConfirmation => preview.stateVersion ∈ [1, 2]
  | _ => preview.stateVersion ∈ [2, 3]

def unconfirmedPurge (preview : DocumentPreview) : Instant :=
  preview.expiresAt + unconfirmedPayloadRetention

/-- The timestamps a status requires, forbids and bounds. -/
def validStateTimestamps (preview : DocumentPreview) : Bool :=
  match preview.state with
  | .confirmed =>
      preview.cancelledAt.isNone && preview.unconfirmedPurge ≤ preview.payloadPurgeAfter &&
        preview.confirmedAt.any
          (fun confirmedAt => preview.payloadPurgeAfter ≤ confirmedAt + confirmedPayloadRetention)
  | .cancelled =>
      preview.cancelledAt.isSome && preview.confirmedAt.isNone &&
        preview.payloadPurgeAfter == preview.unconfirmedPurge
  | _ =>
      preview.confirmedAt.isNone && preview.cancelledAt.isNone &&
        preview.payloadPurgeAfter == preview.unconfirmedPurge

/-- `validate_preview`. -/
def validatePreview (preview : DocumentPreview) : Except String Unit := do
  require ([preview.previewId, preview.tenantId, preview.authUserId, preview.workspaceId,
    preview.connectionId].all (· != 0)) "preview_binding_invalid"
  require (preview.expiresAt == preview.createdAt + previewTtl) "preview_ttl_invalid"
  require preview.validStateVersion "preview_state_invalid"
  require preview.validStateTimestamps "preview_state_invalid"
  require ((preview.items.map (·.clientItemId)).Nodup &&
    (preview.items.map (·.previewItemId)).Nodup &&
    (preview.items.map (·.providerCallHash)).Nodup &&
    (preview.items.map (·.previewIntegrityHash)).Nodup) "preview_items_not_unique"
  require (preview.items.map (·.itemIndex) == List.range preview.items.length)
    "preview_item_order_invalid"
  require (preview.items.all fun item =>
    item.createdAt == preview.createdAt && item.payloadPurgeAfter == preview.payloadPurgeAfter)
    "preview_item_binding_invalid"

/-- `DocumentPreview.model_validate`. -/
def validate (preview : DocumentPreview) : Except String DocumentPreview := do
  require preview.fieldsValid "preview_binding_invalid"
  require (1 ≤ preview.stateVersion) "state_version"
  require (1 ≤ preview.items.length && preview.items.length ≤ maxBatchDocuments) "items"
  require (preview.items.all (·.isValid)) "preview_item_binding_invalid"
  validatePreview preview
  return preview

/-- `DocumentPreview.transition`. -/
def transition (preview : DocumentPreview) (target : PreviewState) (occurredAt : DateTime)
    (confirmedPayloadPurgeAfter : Option DateTime) : Except String DocumentPreview := do
  require (target ∈ previewTransitions preview.state) "preview_state_invalid"
  let timestamp ← awareUtc occurredAt "preview_timestamp_invalid"
  require (preview.createdAt ≤ timestamp) "preview_timestamp_invalid"
  require (!(target == .confirmed && preview.expiresAt ≤ timestamp)) "preview_expired"
  require (!(target == .expired && timestamp < preview.expiresAt)) "preview_state_invalid"
  let purgeAfter ← match confirmedPayloadPurgeAfter with
    | none => pure preview.payloadPurgeAfter
    | some value =>
        if target = .confirmed then awareUtc value "preview_timestamp_invalid"
        else .error "preview_state_invalid"
  validate { preview with
    state := target
    stateVersion := preview.stateVersion + 1
    confirmedAt := if target = .confirmed then some timestamp else none
    cancelledAt := if target = .cancelled then some timestamp else none
    payloadPurgeAfter := purgeAfter
    items := preview.items.map ({ · with payloadPurgeAfter := purgeAfter }) }

/-! ## What validation accepts -/

/-- The checks of `DocumentPreview.model_validate`. -/
structure WellFormed (preview : DocumentPreview) : Prop where
  fields : preview.fieldsValid = true
  version_pos : 1 ≤ preview.stateVersion
  items_length : 1 ≤ preview.items.length ∧ preview.items.length ≤ maxBatchDocuments
  items : ∀ item ∈ preview.items, item.isValid = true
  ids_ne : [preview.previewId, preview.tenantId, preview.authUserId, preview.workspaceId,
    preview.connectionId].all (· != 0) = true
  ttl : preview.expiresAt = preview.createdAt + previewTtl
  version : preview.validStateVersion = true
  timestamps : preview.validStateTimestamps = true
  client_ids : (preview.items.map (·.clientItemId)).Nodup
  item_ids : (preview.items.map (·.previewItemId)).Nodup
  call_hashes : (preview.items.map (·.providerCallHash)).Nodup
  integrity_hashes : (preview.items.map (·.previewIntegrityHash)).Nodup
  index : preview.items.map (·.itemIndex) = List.range preview.items.length
  item_times : ∀ item ∈ preview.items,
    item.createdAt = preview.createdAt ∧ item.payloadPurgeAfter = preview.payloadPurgeAfter

theorem validate_eq_ok {preview preview' : DocumentPreview} :
    preview.validate = .ok preview' ↔ preview' = preview ∧ preview.WellFormed := by
  simp only [validate, validatePreview, bind_eq_ok, require_eq_ok, pure_eq_ok, exists_const,
    Bool.and_eq_true, decide_eq_true_eq, beq_iff_eq, List.all_eq_true]
  constructor
  · rintro ⟨h1, h2, h3, h4, ⟨h5, h6, h7, h8, ⟨⟨⟨h9, h10⟩, h11⟩, h12⟩, h13, h14⟩, rfl⟩
    exact ⟨rfl, h1, h2, h3, h4, by simpa using h5, h6, h7, h8, h9, h10, h11, h12, h13, h14⟩
  · rintro ⟨rfl, h⟩
    exact ⟨h.fields, h.version_pos, h.items_length, h.items,
      ⟨by simpa using h.ids_ne, h.ttl, h.version, h.timestamps,
        ⟨⟨⟨h.client_ids, h.item_ids⟩, h.call_hashes⟩, h.integrity_hashes⟩, h.index, h.item_times⟩,
      rfl⟩

end DocumentPreview

end Hosted
end MercuryTools
