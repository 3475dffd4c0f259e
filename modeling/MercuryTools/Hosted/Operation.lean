import MercuryTools.Framework.CallSystem
import MercuryTools.Hosted.Preview

/-!
# Hosted operations

The closed contracts of `execution/hosted/models.py` that a confirmed operation is made of:
`OperationItem`, `OperationEvent` and `HostedOperation`, each with its validators, the
constructor `fromPreview` and the two transitions.  A pydantic model validates again on every
`model_validate`, nested models included (`revalidate_instances="always"`); `validate` is that
step, and it returns the revalidated value because the text of a provider result identifier
is projected once more each time.

-/

namespace MercuryTools
namespace Hosted

open Checks

section

variable (sanitize : String → Option String)

/-! ## Items -/

structure OperationItem where
  operationItemId : UUID
  previewItemId : UUID
  itemIndex : Nat
  clientItemId : String
  providerCallHash : String
  previewIntegrityHash : String
  state : OperationItemState
  stateVersion : Nat
  providerResultIdentifier : Option String
  createdAt : Instant
  updatedAt : Instant
  deriving DecidableEq, Repr

/-- `sanitize_provider_result_identifier` followed by the length bounds of the field. -/
def validateProviderResultIdentifier :
    Option String → Except String (Option String)
  | none => .ok none
  | some value => do
      let projected ← sanitizePublicText sanitize value "operation_transition_invalid"
      require (1 ≤ projected.length && projected.length ≤ 200) "provider_result_identifier"
      return some projected

/-- `OperationItem.model_validate`. -/
def OperationItem.validate (item : OperationItem) : Except String OperationItem := do
  require (item.itemIndex < maxBatchDocuments) "item_index"
  require (isIdentifier item.clientItemId) "client_item_id"
  require (isSha256 item.providerCallHash) "provider_call_hash"
  require (isSha256 item.previewIntegrityHash) "preview_integrity_hash"
  require (1 ≤ item.stateVersion) "state_version"
  let identifier ← validateProviderResultIdentifier sanitize item.providerResultIdentifier
  require (item.operationItemId != 0 && item.previewItemId != 0) "operation_items_invalid"
  require (item.createdAt ≤ item.updatedAt) "operation_timestamp_invalid"
  require ((item.state == .succeeded) == identifier.isSome) "operation_transition_invalid"
  return { item with providerResultIdentifier := identifier }

/-- `OperationItem.transition`. -/
def OperationItem.transition (item : OperationItem) (target : OperationItemState)
    (occurredAt : DateTime) (providerResultIdentifier : Option String)
    (parentState : ParentOperationState) : Except String OperationItem := do
  require (itemOperationTransitionAllowed item.state target parentState)
    "operation_transition_invalid"
  let timestamp ← awareUtc occurredAt "operation_timestamp_invalid"
  require (item.updatedAt ≤ timestamp) "operation_timestamp_invalid"
  require ((target == .succeeded) == providerResultIdentifier.isSome)
    "operation_transition_invalid"
  OperationItem.validate sanitize { item with
    state := target
    stateVersion := item.stateVersion + 1
    providerResultIdentifier := providerResultIdentifier
    updatedAt := timestamp }

/-! ## Events -/

structure OperationEvent where
  eventId : UUID
  operationId : UUID
  operationItemId : Option UUID
  fromState : Option String
  toState : String
  stateVersion : Nat
  sanitizedReason : String
  occurredAt : Instant
  deriving DecidableEq, Repr

/-- The values of both enumerations, which is what an event may name. -/
def eventStates : List String :=
  ParentOperationState.members.map ParentOperationState.value ++
    OperationItemState.members.map OperationItemState.value

/-- `OperationEvent.model_validate`. -/
def OperationEvent.validate (event : OperationEvent) : Except String OperationEvent := do
  require (1 ≤ event.stateVersion) "state_version"
  let reason ← requireSafePublicIdentifier sanitize event.sanitizedReason
    "operation_transition_invalid"
  require (isIdentifier reason) "sanitized_reason"
  require (event.toState ∈ eventStates && event.fromState.all (· ∈ eventStates))
    "operation_event_invalid"
  return { event with sanitizedReason := reason }

/-! ## Operations -/

structure HostedOperation extends ConfirmationBinding where
  operationId : UUID
  state : ParentOperationState
  stateVersion : Nat
  items : List OperationItem
  events : List OperationEvent
  createdAt : Instant
  updatedAt : Instant
  payloadPurgeAfter : Instant
  deriving DecidableEq, Repr

namespace HostedOperation

def childStates (op : HostedOperation) : List OperationItemState :=
  op.items.map (·.state)

/-- The events of the parent: those that name no item. -/
def parentEvents (op : HostedOperation) : List OperationEvent :=
  op.events.filter (·.operationItemId == none)

/-- The events of one item. -/
def itemEvents (op : HostedOperation) (itemId : UUID) : List OperationEvent :=
  op.events.filter (·.operationItemId == some itemId)

/-- The last event, if there is one, has this version and this target. -/
def lastEventIs (events : List OperationEvent) (version : Nat) (toState : String) : Bool :=
  match events.getLast? with
  | none => false
  | some event => event.stateVersion == version && event.toState == toState

/-- `validate_operation`, the checks over the whole operation. -/
def validateOperation (op : HostedOperation) : Except String Unit := do
  require ([op.operationId, op.previewId, op.tenantId, op.authUserId, op.workspaceId,
    op.connectionId].all (· != 0)) "operation_binding_invalid"
  require (op.createdAt ≤ op.updatedAt) "operation_timestamp_invalid"
  require (op.createdAt < op.payloadPurgeAfter &&
    op.payloadPurgeAfter ≤ op.createdAt + confirmedPayloadRetention)
    "operation_retention_invalid"
  require ((op.items.map (·.operationItemId)).Nodup &&
    op.items.map (·.itemIndex) == List.range op.items.length) "operation_items_invalid"
  require (op.events.all fun event =>
    event.operationId == op.operationId && op.createdAt ≤ event.occurredAt)
    "operation_event_invalid"
  require (lastEventIs op.parentEvents op.stateVersion op.state.value) "operation_event_invalid"
  require (op.events.all fun event =>
    event.operationItemId.all (· ∈ op.items.map (·.operationItemId))) "operation_event_invalid"
  require (op.items.all fun item =>
    (op.itemEvents item.operationItemId).isEmpty ||
      lastEventIs (op.itemEvents item.operationItemId) item.stateVersion item.state.value)
    "operation_event_invalid"
  require (parentOperationChildrenCompatible op.state op.childStates)
    "operation_transition_invalid"

/-- `HostedOperation.model_validate`: every item and event is validated again, then the fields,
then the operation as a whole. -/
def validate (op : HostedOperation) : Except String HostedOperation := do
  require op.fieldsValid "operation_binding_invalid"
  require (1 ≤ op.stateVersion) "state_version"
  let items ← op.items.mapM (OperationItem.validate sanitize)
  require (1 ≤ items.length && items.length ≤ maxBatchDocuments) "items"
  let events ← op.events.mapM (OperationEvent.validate sanitize)
  require (!events.isEmpty) "events"
  let checked : HostedOperation := { op with items := items, events := events }
  validateOperation checked
  return checked

/-- `HostedOperation.from_preview`. -/
def fromPreview (preview : DocumentPreview) (operationId : UUID) (operationItemIds : List UUID)
    (eventId : UUID) (now : DateTime) : Except String HostedOperation := do
  let checked ← preview.validate
  let timestamp ← awareUtc now "operation_timestamp_invalid"
  require (operationItemIds.length == checked.items.length) "operation_items_invalid"
  let items ← (operationItemIds.zip checked.items).zipIdx.mapM
    fun ((operationItemId, previewItem), itemIndex) => OperationItem.validate sanitize {
      operationItemId := operationItemId
      previewItemId := previewItem.previewItemId
      itemIndex := itemIndex
      clientItemId := previewItem.clientItemId
      providerCallHash := previewItem.providerCallHash
      previewIntegrityHash := previewItem.previewIntegrityHash
      state := .awaitingConfirmation
      stateVersion := 1
      providerResultIdentifier := none
      createdAt := timestamp
      updatedAt := timestamp }
  let event ← OperationEvent.validate sanitize {
    eventId := eventId
    operationId := operationId
    operationItemId := none
    fromState := none
    toState := ParentOperationState.awaitingConfirmation.value
    stateVersion := 1
    sanitizedReason := "explicit_confirmation"
    occurredAt := timestamp }
  validate sanitize { checked.toConfirmationBinding with
    operationId := operationId
    state := .awaitingConfirmation
    stateVersion := 1
    items := items
    events := [event]
    createdAt := timestamp
    updatedAt := timestamp
    payloadPurgeAfter := timestamp + confirmedPayloadRetention }

/-- `HostedOperation.transition`. -/
def transition (op : HostedOperation) (target : ParentOperationState) (eventId : UUID)
    (occurredAt : DateTime) (sanitizedReason : String) : Except String HostedOperation := do
  require (parentOperationTransitionAllowed op.state target op.childStates)
    "operation_transition_invalid"
  let timestamp ← awareUtc occurredAt "operation_timestamp_invalid"
  require (op.updatedAt ≤ timestamp) "operation_timestamp_invalid"
  let event ← OperationEvent.validate sanitize {
    eventId := eventId
    operationId := op.operationId
    operationItemId := none
    fromState := some op.state.value
    toState := target.value
    stateVersion := op.stateVersion + 1
    sanitizedReason := sanitizedReason
    occurredAt := timestamp }
  validate sanitize { op with
    state := target
    stateVersion := op.stateVersion + 1
    events := op.events ++ [event]
    updatedAt := timestamp }

/-- `HostedOperation.transition_item`. -/
def transitionItem (op : HostedOperation) (operationItemId : UUID) (target : OperationItemState)
    (eventId : UUID) (occurredAt : DateTime) (sanitizedReason : String)
    (providerResultIdentifier : Option String) : Except String HostedOperation := do
  let index := op.items.findIdx (·.operationItemId == operationItemId)
  require (op.items.countP (·.operationItemId == operationItemId) == 1)
    "operation_transition_invalid"
  match op.items[index]? with
  | none => .error "operation_transition_invalid"
  | some current => do
      let transitioned ← current.transition sanitize target occurredAt providerResultIdentifier
        op.state
      let event ← OperationEvent.validate sanitize {
        eventId := eventId
        operationId := op.operationId
        operationItemId := some operationItemId
        fromState := some current.state.value
        toState := transitioned.state.value
        stateVersion := transitioned.stateVersion
        sanitizedReason := sanitizedReason
        occurredAt := transitioned.updatedAt }
      validate sanitize { op with
        items := op.items.set index transitioned
        events := op.events ++ [event]
        updatedAt := max op.updatedAt transitioned.updatedAt }

end HostedOperation

end

end Hosted
end MercuryTools
