import MercuryTools.Framework.Lockstep
import MercuryTools.Hosted.OperationRuns
import MercuryTools.Hosted.OperationStore

/-!
# The in-memory preview store

`InMemoryHostedPreviewStore` of `execution/hosted/store.py` with all its methods: beside the
operations of `InMemoryStore`, the indexes of provider calls and the methods on previews.
Every method holds the store's lock, so the calls of any number of callers are one sequence.
-/

namespace MercuryTools
namespace Hosted

open Checks

/-- What the methods on previews rely on beyond the store: whether the connection and the
qualification a caller presents (`Evidence`) are a current authority for a preview, and the
opened payloads of its items (`Payload`). -/
structure PreviewEnvironment (Evidence Payload : Type) extends StoreEnvironment where
  validateAuthority : Evidence → DocumentPreview → Instant → Bool
  openItems : Evidence → DocumentPreview → Option (List Payload)

/-- `(workspace_id, connection_id, provider_call_hash)`. -/
abbrev ProviderCall := UUID × UUID × String

namespace DocumentPreview

def providerCall (preview : DocumentPreview) : ProviderCall :=
  (preview.workspaceId, preview.connectionId, preview.providerCallHash)

/-- `item_keys` of `create_preview`. -/
def itemCalls (preview : DocumentPreview) : List ProviderCall :=
  preview.items.map fun item => (preview.workspaceId, preview.connectionId, item.providerCallHash)

/-- `_check_scope` passes. -/
def inScope (preview : DocumentPreview) (scope : Scope) : Bool :=
  preview.tenantId == scope.tenantId && preview.authUserId == scope.authUserId &&
    preview.workspaceId == scope.workspaceId

end DocumentPreview

structure HostedPreviewStore extends InMemoryStore where
  previewProviderCalls : List (ProviderCall × UUID)
  itemProviderCalls : List ProviderCall
  deriving DecidableEq, Repr

/-- A call on the store. -/
inductive PreviewStoreCall (Evidence : Type) where
  | createPreview (preview : DocumentPreview)
  | findPreviewByProviderCall (scope : Scope) (connectionId : UUID) (providerCallHash : String)
  | getPreview (scope : Scope) (previewId : UUID)
  | loadConfirmable (scope : Scope) (previewId : UUID) (expectedStateVersion : Int)
      (evidence : Evidence) (now : DateTime)
  | transitionPreview (scope : Scope) (previewId : UUID) (expectedStateVersion : Int)
      (targetState : PreviewState) (occurredAt : DateTime)
  | getOperation (scope : Scope) (operationId : UUID)
  | operation (call : StoreCall)

/-- What a call returns. -/
inductive StoreAnswer (Payload : Type) where
  | preview (preview : DocumentPreview)
  | noPreview
  | confirmable (preview : DocumentPreview) (openedItems : List Payload)
  | operation (operation : HostedOperation)

namespace HostedPreviewStore

variable {Evidence Payload : Type} (env : PreviewEnvironment Evidence Payload)

/-- `create_preview` up to the writes: the preview on record for the provider call, or the new
one. -/
def prepareCreatePreview (store : HostedPreviewStore) (preview : DocumentPreview) :
    Except String (DocumentPreview ⊕ DocumentPreview) := do
  let checked ← preview.validate.mapError fun _ => "preview_conflict"
  match store.previewProviderCalls.find? (·.1 == checked.providerCall) with
  | some (_, existingId) =>
      match store.findPreview existingId with
      | none => .error "preview_conflict"
      | some existing => do
          require (existing.previewIntegrityHash == checked.previewIntegrityHash)
            "duplicate_provider_call"
          return .inl existing
  | none => do
      require (!store.previews.any (·.previewId == checked.previewId)) "preview_conflict"
      require (!checked.itemCalls.any (· ∈ store.itemProviderCalls)) "duplicate_provider_call"
      return .inr checked

/-- `create_preview`. -/
def createPreview (store : HostedPreviewStore) (preview : DocumentPreview) :
    Except String DocumentPreview × HostedPreviewStore :=
  match store.prepareCreatePreview preview with
  | .error code => (.error code, store)
  | .ok (.inl existing) => (existing.validate, store)
  | .ok (.inr checked) =>
      (checked.validate,
        { store with
          previews := store.previews ++ [checked]
          previewProviderCalls := store.previewProviderCalls ++
            [(checked.providerCall, checked.previewId)]
          itemProviderCalls := store.itemProviderCalls ++ checked.itemCalls })

variable {store : HostedPreviewStore} {preview : DocumentPreview}

lemma createPreview_error {code : String} (h : store.prepareCreatePreview preview = .error code) :
    store.createPreview preview = (.error code, store) := by
  unfold createPreview
  rw [h]

lemma createPreview_existing {existing : DocumentPreview}
    (h : store.prepareCreatePreview preview = .ok (.inl existing)) :
    store.createPreview preview = (existing.validate, store) := by
  unfold createPreview
  rw [h]

lemma createPreview_new {checked : DocumentPreview}
    (h : store.prepareCreatePreview preview = .ok (.inr checked)) :
    store.createPreview preview = (checked.validate,
      { store with
        previews := store.previews ++ [checked]
        previewProviderCalls := store.previewProviderCalls ++
          [(checked.providerCall, checked.previewId)]
        itemProviderCalls := store.itemProviderCalls ++ checked.itemCalls }) := by
  unfold createPreview
  rw [h]

/-- `find_preview_by_provider_call`. -/
def findPreviewByProviderCall (store : HostedPreviewStore) (scope : Scope) (connectionId : UUID)
    (providerCallHash : String) : Except String (Option DocumentPreview) :=
  match store.previewProviderCalls.find?
    (·.1 == (scope.workspaceId, connectionId, providerCallHash)) with
  | none => .ok none
  | some (_, previewId) =>
      match store.findPreview previewId with
      | none => .error "preview_conflict"
      | some preview => do
          require (preview.inScope scope) "preview_not_found"
          let checked ← preview.validate
          return some checked

/-- `get_preview`. -/
def getPreview (store : HostedPreviewStore) (scope : Scope) (previewId : UUID) :
    Except String DocumentPreview :=
  match store.findPreview previewId with
  | none => .error "preview_not_found"
  | some preview => do
      require (preview.inScope scope) "preview_not_found"
      preview.validate

/-- `load_confirmable`. -/
def loadConfirmable (store : HostedPreviewStore) (scope : Scope) (previewId : UUID)
    (expectedStateVersion : Int) (evidence : Evidence) (now : DateTime) :
    Except String (DocumentPreview × List Payload) := do
  let preview ← store.getPreview scope previewId
  require (preview.inScope scope) "preview_not_found"
  let checkedNow ← awareUtc now "preview_state_invalid"
  require ((preview.stateVersion : Int) == expectedStateVersion) "preview_state_stale"
  require (preview.state ∈ [.prepared, .awaitingConfirmation]) "preview_state_invalid"
  require (checkedNow < preview.expiresAt) "preview_expired"
  require (env.validateAuthority evidence preview checkedNow) "preview_binding_changed"
  match env.openItems evidence preview with
  | none => .error "preview_payload_changed"
  | some openedItems => return (preview, openedItems)

/-- `transition_preview` up to the write. -/
def prepareTransitionPreview (store : HostedPreviewStore) (scope : Scope) (previewId : UUID)
    (expectedStateVersion : Int) (targetState : PreviewState) (occurredAt : DateTime) :
    Except String DocumentPreview := do
  let preview ← store.getPreview scope previewId
  require ((preview.stateVersion : Int) == expectedStateVersion) "preview_state_stale"
  require (targetState != .confirmed) "preview_state_invalid"
  preview.transition targetState occurredAt none

/-- `transition_preview`. -/
def transitionPreview (store : HostedPreviewStore) (scope : Scope) (previewId : UUID)
    (expectedStateVersion : Int) (targetState : PreviewState) (occurredAt : DateTime) :
    Except String DocumentPreview × HostedPreviewStore :=
  match store.prepareTransitionPreview scope previewId expectedStateVersion targetState
    occurredAt with
  | .error code => (.error code, store)
  | .ok transitioned =>
      (transitioned.validate, { store with
        previews := KeyedTable.put (·.previewId) store.previews transitioned })

/-- One call, made at `now`. -/
def call (store : HostedPreviewStore) (now : Instant) :
    PreviewStoreCall Evidence → Except String (StoreAnswer Payload) × HostedPreviewStore
  | .createPreview preview =>
      ((store.createPreview preview).1.map .preview, (store.createPreview preview).2)
  | .findPreviewByProviderCall scope connectionId providerCallHash =>
      ((store.findPreviewByProviderCall scope connectionId providerCallHash).map fun
        | none => .noPreview
        | some preview => .preview preview, store)
  | .getPreview scope previewId => ((store.getPreview scope previewId).map .preview, store)
  | .loadConfirmable scope previewId expected evidence checkedNow =>
      ((store.loadConfirmable env scope previewId expected evidence checkedNow).map fun
        | (preview, openedItems) => .confirmable preview openedItems, store)
  | .transitionPreview scope previewId expected target occurredAt =>
      ((store.transitionPreview scope previewId expected target occurredAt).1.map .preview,
        (store.transitionPreview scope previewId expected target occurredAt).2)
  | .getOperation scope operationId =>
      ((store.toInMemoryStore.getOperation env.toStoreEnvironment scope operationId).map .operation,
        store)
  | .operation call =>
      ((store.toInMemoryStore.call env.toStoreEnvironment now call).1.map .operation,
        { store with
          toInMemoryStore := (store.toInMemoryStore.call env.toStoreEnvironment now call).2 })

/-- The store of a new process. -/
def empty : HostedPreviewStore where
  previews := []
  operations := []
  operationByPreview := []
  previewProviderCalls := []
  itemProviderCalls := []

/-- Whether a call is answered without an error, and the store after it. -/
def answer (store : HostedPreviewStore) (c : Instant × PreviewStoreCall Evidence) :
    Bool × HostedPreviewStore :=
  ((store.call env c.1 c.2).1.isOk, (store.call env c.1 c.2).2)

end HostedPreviewStore

end Hosted
end MercuryTools
