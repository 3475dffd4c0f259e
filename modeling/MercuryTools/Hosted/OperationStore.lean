import MercuryTools.Framework.KeyedTable
import MercuryTools.Hosted.OperationRuns

/-!
# The in-memory operation store

`InMemoryHostedPreviewStore` of `execution/hosted/store.py`: the dictionaries of previews and
operations, and the three methods that write operations.  A dictionary is the list of its
values in insertion order, each value naming its key.

A method answers with an operation or an error code, and it may have written before it fails:
both transitions store the new operation and validate it once more for the answer.
-/

namespace MercuryTools
namespace Hosted

open Checks

/-- What the two stores are given from outside: the projections of public texts of the service
(`sanitize`) and of the database (`publicText`, with its class of control characters), the
workspace membership the database looks up, and the two checks that the authority behind a
preview is still current. -/
structure StoreEnvironment where
  sanitize : String → Option String
  publicText : String → String
  isCntrl : Char → Bool
  workspaceAccess : UUID → UUID → UUID → Bool
  authorityIsCurrent : DocumentPreview → Instant → Bool
  revalidateAuthority : DocumentPreview → Instant → Bool

/-- The caller of a transition. -/
structure Scope where
  tenantId : UUID
  authUserId : UUID
  workspaceId : UUID
  deriving DecidableEq, Repr

/-- A call on an operation store. -/
inductive StoreCall where
  | createOperation (operation : HostedOperation) (expectedPreviewStateVersion : Int)
  | transitionOperation (scope : Scope) (operationId : UUID) (expectedStateVersion : Int)
      (targetState : String) (eventId : UUID) (occurredAt : Instant) (sanitizedReason : String)
  | transitionOperationItem (scope : Scope) (operationId operationItemId : UUID)
      (expectedStateVersion : Int) (targetState : String) (eventId : UUID) (occurredAt : Instant)
      (sanitizedReason : String) (providerResultIdentifier : Option String)
  deriving DecidableEq, Repr

structure InMemoryStore where
  previews : List DocumentPreview
  operations : List HostedOperation
  operationByPreview : List (UUID × UUID)
  deriving DecidableEq, Repr

/-- The `datetime` of an instant in UTC. -/
def utc (timestamp : Instant) : DateTime := ⟨timestamp, some 0⟩

/-- `_operation_matches_preview`. -/
def operationMatchesPreview (operation : HostedOperation) (preview : DocumentPreview) : Bool :=
  operation.toConfirmationBinding == preview.toConfirmationBinding &&
    operation.state == .awaitingConfirmation && operation.stateVersion == 1 &&
    preview.createdAt ≤ operation.createdAt && operation.createdAt < preview.expiresAt &&
    operation.updatedAt == operation.createdAt &&
    preview.payloadPurgeAfter ≤ operation.payloadPurgeAfter &&
    operation.items.length == preview.items.length && operation.events.length == 1 &&
    (operation.events.all fun event =>
      event.operationItemId.isNone && event.fromState.isNone &&
        event.toState == ParentOperationState.awaitingConfirmation.value &&
        event.stateVersion == 1 && event.occurredAt == operation.createdAt) &&
    (operation.items.zip preview.items).all fun (item, previewItem) =>
      item.previewItemId == previewItem.previewItemId &&
        item.itemIndex == previewItem.itemIndex &&
        item.clientItemId == previewItem.clientItemId &&
        item.providerCallHash == previewItem.providerCallHash &&
        item.previewIntegrityHash == previewItem.previewIntegrityHash &&
        item.state == .awaitingConfirmation && item.stateVersion == 1 &&
        item.providerResultIdentifier.isNone && item.createdAt == operation.createdAt &&
        item.updatedAt == operation.createdAt

/-- The part of an item that `_same_confirmation_identity` compares. -/
def OperationItem.identity (item : OperationItem) : Nat × UUID × String × String × String :=
  (item.itemIndex, item.previewItemId, item.clientItemId, item.providerCallHash,
    item.previewIntegrityHash)

/-- `_same_confirmation_identity`. -/
def sameConfirmationIdentity (left right : HostedOperation) : Bool :=
  left.toConfirmationBinding == right.toConfirmationBinding &&
    left.items.map (·.identity) == right.items.map (·.identity)

namespace InMemoryStore

variable (env : StoreEnvironment)

/-- `self._previews.get(preview_id)`. -/
def findPreview (store : InMemoryStore) (previewId : UUID) : Option DocumentPreview :=
  store.previews.find? (·.previewId == previewId)

/-- `self._operations.get(operation_id)`. -/
def findOperation (store : InMemoryStore) (operationId : UUID) : Option HostedOperation :=
  store.operations.find? (·.operationId == operationId)

/-- `self._operations[operation_id] = operation` for a key that is present. -/
def putOperation (store : InMemoryStore) (operation : HostedOperation) : InMemoryStore :=
  { store with operations := KeyedTable.put (·.operationId) store.operations operation }

/-- `self._previews[preview_id] = preview` for a key that is present. -/
def putPreview (store : InMemoryStore) (preview : DocumentPreview) : InMemoryStore :=
  { store with previews := KeyedTable.put (·.previewId) store.previews preview }

/-- `get_operation`. -/
def getOperation (store : InMemoryStore) (scope : Scope) (operationId : UUID) :
    Except String HostedOperation :=
  match store.findOperation operationId with
  | none => .error "operation_not_found"
  | some operation => do
      require (operation.tenantId == scope.tenantId && operation.authUserId == scope.authUserId &&
        operation.workspaceId == scope.workspaceId) "operation_not_found"
      operation.validate env.sanitize

/-- `create_operation` up to the writes: the operation on record for the preview, or the
confirmed preview and the new operation. -/
def prepareCreate (store : InMemoryStore) (now : Instant) (operation : HostedOperation)
    (expectedPreviewStateVersion : Int) :
    Except String (HostedOperation ⊕ DocumentPreview × HostedOperation) := do
  let checked ← operation.validate env.sanitize
  match store.findPreview checked.previewId with
  | none => .error "operation_conflict"
  | some preview =>
      match store.operationByPreview.find? (·.1 == checked.previewId) with
      | some (_, existingId) =>
          match store.findOperation existingId with
          | none => .error "operation_conflict"
          | some existing => do
              require (sameConfirmationIdentity existing checked) "operation_conflict"
              return .inl existing
      | none => do
          require (env.revalidateAuthority preview now) "preview_binding_changed"
          require (operationMatchesPreview checked preview) "operation_conflict"
          require (!(store.operations.any (·.operationId == checked.operationId)))
            "operation_conflict"
          require ((preview.stateVersion : Int) == expectedPreviewStateVersion)
            "preview_state_stale"
          require (now < preview.expiresAt) "preview_expired"
          let confirmed ← preview.transition .confirmed (utc checked.createdAt)
            (some (utc checked.payloadPurgeAfter))
          return .inr (confirmed, checked)

/-- `create_operation`. -/
def createOperation (store : InMemoryStore) (now : Instant) (operation : HostedOperation)
    (expectedPreviewStateVersion : Int) : Except String HostedOperation × InMemoryStore :=
  match store.prepareCreate env now operation expectedPreviewStateVersion with
  | .error code => (.error code, store)
  | .ok (.inl existing) => (existing.validate env.sanitize, store)
  | .ok (.inr (confirmed, checked)) =>
      (checked.validate env.sanitize,
        { store.putPreview confirmed with
          operations := store.operations ++ [checked]
          operationByPreview := store.operationByPreview ++
            [(checked.previewId, checked.operationId)] })

variable {store : InMemoryStore} {now : Instant} {operation : HostedOperation} {expected : Int}

lemma createOperation_error {code : String}
    (h : store.prepareCreate env now operation expected = .error code) :
    store.createOperation env now operation expected = (.error code, store) := by
  unfold createOperation
  rw [h]

lemma createOperation_existing {existing : HostedOperation}
    (h : store.prepareCreate env now operation expected = .ok (.inl existing)) :
    store.createOperation env now operation expected = (existing.validate env.sanitize, store) := by
  unfold createOperation
  rw [h]

/-- `transition_operation` up to the write.  A target that is no state is refused by the enumeration
itself, with a plain `ValueError`; here it has the code of the other refusals. -/
def prepareTransition (store : InMemoryStore) (now : Instant) (scope : Scope) (operationId : UUID)
    (expectedStateVersion : Int) (targetState : String) (eventId : UUID) (occurredAt : Instant)
    (sanitizedReason : String) : Except String HostedOperation := do
  let operation ← store.getOperation env scope operationId
  require ((operation.stateVersion : Int) == expectedStateVersion) "operation_state_stale"
  match ParentOperationState.ofValue? targetState with
  | none => .error "operation_transition_invalid"
  | some target => do
      if target = .dispatching then
        match store.findPreview operation.previewId with
        | none => .error "operation_not_found"
        | some preview => require (env.revalidateAuthority preview now) "preview_binding_changed"
      operation.transition env.sanitize target eventId (utc occurredAt) sanitizedReason

/-- `transition_operation`. -/
def transitionOperation (store : InMemoryStore) (now : Instant) (scope : Scope)
    (operationId : UUID) (expectedStateVersion : Int) (targetState : String) (eventId : UUID)
    (occurredAt : Instant) (sanitizedReason : String) :
    Except String HostedOperation × InMemoryStore :=
  match store.prepareTransition env now scope operationId expectedStateVersion targetState eventId
    occurredAt sanitizedReason with
  | .error code => (.error code, store)
  | .ok transitioned => (transitioned.validate env.sanitize, store.putOperation transitioned)

/-- `transition_operation_item` up to the write, with the same code for a target that is no
state. -/
def prepareTransitionItem (store : InMemoryStore) (scope : Scope)
    (operationId operationItemId : UUID) (expectedStateVersion : Int) (targetState : String)
    (eventId : UUID) (occurredAt : Instant) (sanitizedReason : String)
    (providerResultIdentifier : Option String) : Except String HostedOperation := do
  let operation ← store.getOperation env scope operationId
  match operation.items.filter (·.operationItemId == operationItemId) with
  | [item] => do
      require ((item.stateVersion : Int) == expectedStateVersion) "operation_state_stale"
      match OperationItemState.ofValue? targetState with
      | none => .error "operation_transition_invalid"
      | some target =>
          operation.transitionItem env.sanitize operationItemId target eventId (utc occurredAt)
            sanitizedReason providerResultIdentifier
  | _ => .error "operation_not_found"

/-- `transition_operation_item`. -/
def transitionOperationItem (store : InMemoryStore) (scope : Scope)
    (operationId operationItemId : UUID) (expectedStateVersion : Int) (targetState : String)
    (eventId : UUID) (occurredAt : Instant) (sanitizedReason : String)
    (providerResultIdentifier : Option String) : Except String HostedOperation × InMemoryStore :=
  match store.prepareTransitionItem env scope operationId operationItemId expectedStateVersion
    targetState eventId occurredAt sanitizedReason providerResultIdentifier with
  | .error code => (.error code, store)
  | .ok transitioned => (transitioned.validate env.sanitize, store.putOperation transitioned)

/-- One call, made at `now`. -/
def call (store : InMemoryStore) (now : Instant) :
    StoreCall → Except String HostedOperation × InMemoryStore
  | .createOperation operation expected => store.createOperation env now operation expected
  | .transitionOperation scope operationId expected target eventId occurredAt reason =>
      store.transitionOperation env now scope operationId expected target eventId occurredAt reason
  | .transitionOperationItem scope operationId itemId expected target eventId occurredAt reason
      result =>
      store.transitionOperationItem env scope operationId itemId expected target eventId occurredAt
        reason result

end InMemoryStore

end Hosted
end MercuryTools
