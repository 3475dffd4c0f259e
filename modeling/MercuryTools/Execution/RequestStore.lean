import MercuryTools.Execution.PreparedRequest
import MercuryTools.Framework.CallSystem
import MercuryTools.Framework.KeyedTable

/-!
# The local request store

`LocalRequestStore` of `execution/store.py`: the table `requests` with its primary key and its
replay-blocking unique index, and the methods that read and write it.

The repository lock and the immediate transaction serialise the methods, so each is one step.
What raises is rolled back: a method is a computation that ends with a new store or with an
error code, and an error leaves the store as it was.  This includes an expiry that is written
before the error.  The time of a call is the clock as the method reads it.
-/

namespace MercuryTools
namespace Execution

open Checks

/-- `_PENDING_STATES`. -/
def pendingStates : List RequestState :=
  [.previewed, .awaitingConfirmation, .readyToExecute]

/-- `_REPLAY_BLOCKING_STATES`, and the condition of the unique index. -/
def replayBlockingStates : List RequestState :=
  [.executing, .succeeded, .outcomeUnknown]

/-- A row of the table: the columns next to `request_json`. -/
structure RequestRow where
  requestId : String
  payloadHash : String
  connectorId : String
  environment : String
  state : RequestState
  expiresAt : Instant
  request : PreparedRequest
  deriving Repr

/-- The row that stores a request. -/
def rowOf (request : PreparedRequest) : RequestRow where
  requestId := request.requestId
  payloadHash := request.payloadHash
  connectorId := request.connectorId
  environment := request.environment
  state := request.state
  expiresAt := request.expiresAt
  request := request

structure RequestStore where
  repositoryId : String
  rows : List RequestRow
  deriving Repr

/-- Replace the error code. -/
def withCode {α : Type} (code : String) (x : Except String α) : Except String α :=
  x.mapError fun _ => code

/-- `_replay_error`, from the status of the row that blocks. -/
def replayError (state : Option RequestState) : String :=
  if state = some .outcomeUnknown then "replay_blocked_outcome_unknown"
  else "replay_blocked_active_request"

/-- `_require_state`. -/
def requireState (request : PreparedRequest) (states : List RequestState) : Except String Unit :=
  require (request.state ∈ states) (request.failureReason.getD "invalid_request_state")

section

variable (env : Environment)

/-- `_updated`: the fields change and the whole request is validated again. -/
def updated (request : PreparedRequest) : Except String PreparedRequest :=
  withCode "invalid_stored_request" (request.validate env)

/-- `_row_to_request`. -/
def rowToRequest (row : RequestRow) : Except String PreparedRequest :=
  withCode "invalid_stored_request" do
    let request ← row.request.validate env
    require (row.requestId == request.requestId && row.payloadHash == request.payloadHash &&
      row.connectorId == request.connectorId && row.environment == request.environment &&
      row.state == request.state && row.expiresAt == request.expiresAt)
      "stored_request_column_mismatch"
    return request

namespace RequestStore

/-- The unique index on `payload_hash` among the replay-blocking rows. -/
def indexAllows (store : RequestStore) (row : RequestRow) : Bool :=
  row.state ∉ replayBlockingStates || !store.rows.any fun other =>
    other.requestId != row.requestId && other.payloadHash == row.payloadHash &&
      other.state ∈ replayBlockingStates

/-- `INSERT INTO requests`, with the primary key and the unique index. -/
def insertRow (store : RequestStore) (row : RequestRow) (code : String) :
    Except String RequestStore := do
  require (!store.rows.any (·.requestId == row.requestId) && store.indexAllows row) code
  return { store with rows := store.rows ++ [row] }

/-- `_store`: an update that violates the unique index fails with `code`. -/
def updateRow (store : RequestStore) (request : PreparedRequest) (code : String) :
    Except String RequestStore := do
  require (store.indexAllows (rowOf request)) code
  return { store with rows := KeyedTable.put (·.requestId) store.rows (rowOf request) }

/-- `_fetch`. -/
def fetch (store : RequestStore) (requestId : String) : Except String PreparedRequest :=
  match store.rows.find? (·.requestId == requestId) with
  | none => .error "request_not_found"
  | some row => rowToRequest env row

/-- `_expire_if_needed`. -/
def expireIfNeeded (store : RequestStore) (now : Instant) (request : PreparedRequest) :
    Except String (PreparedRequest × RequestStore) :=
  if request.state ∈ pendingStates ∧ request.expiresAt ≤ now then do
    let expired ← updated env
      { request with state := .failed, failureReason := some "preview_expired" }
    let store ← store.updateRow expired "request_store_unavailable"
    return (expired, store)
  else return (request, store)

/-- `_assert_replay_allowed`. -/
def replayAllowed (store : RequestStore) (payloadHash : String) (excluding : Option String) :
    Except String Unit := do
  require (isHexDigest payloadHash) "invalid_payload_hash"
  let blocking := store.rows.find? fun row =>
    row.payloadHash == payloadHash && row.state ∈ replayBlockingStates &&
      excluding.all (row.requestId != ·)
  require blocking.isNone (replayError (blocking.map (·.state)))

/-- `_approval_candidate`. -/
def approvalCandidate (store : RequestStore) (now : Instant) (requestId payloadHash : String)
    (expectedClass : MutationClass) : Except String (PreparedRequest × RequestStore) := do
  let request ← store.fetch env requestId
  require (payloadHash == request.payloadHash) "payload_hash_mismatch"
  let (request, store) ← store.expireIfNeeded env now request
  requireState request [.awaitingConfirmation]
  require (request.mutationClass == expectedClass) "mutation_class_mismatch"
  return (request, store)

/-! ## Methods -/

/-- `_verify_catalog_binding`. -/
def verifyCatalogBinding (request : PreparedRequest) (action : CatalogAction) :
    Except String Unit := do
  match env.revalidateCatalogAction action with
  | none => .error "invalid_catalog_action"
  | some validated => do
      let renderedPath ← withCode "invalid_catalog_action" <|
        renderActionPath validated.pathTemplate (request.requestInputs.getD "path" (.obj []))
      require (request.environment ∈ validated.environments &&
        request.actionId == validated.actionId && request.versionId == validated.versionId &&
        request.connectorId == validated.connectorId && request.method == validated.method &&
        request.pathTemplate == validated.pathTemplate && request.finalPath == renderedPath)
        "catalog_binding_mismatch"
      require (request.preflightActions.map (·.actionId) == validated.preflightActionIds &&
        request.preflightActions.all (·.connectorId == validated.connectorId))
        "catalog_binding_mismatch"
      match env.effectiveRisk validated with
      | none => .error "read_action_has_no_mutation_class"
      | some risk =>
          require (request.riskTier == risk.tier && request.approvalLevel == risk.approvalLevel &&
            request.mutationClass == risk.mutationClass) "catalog_risk_mismatch"

/-- `create_preview`. -/
def createPreview (store : RequestStore) (prepared : PreparedRequest) (action : CatalogAction) :
    Except String (PreparedRequest × RequestStore) := do
  let request ← withCode "invalid_prepared_request" (prepared.validate env)
  verifyCatalogBinding env request action
  require (request.repositoryId == store.repositoryId) "repository_mismatch"
  require (request.state == .previewed && request.approvalCount == 0 &&
    request.failureReason.isNone && request.responseSummary.keys.isEmpty)
    "invalid_initial_request_state"
  store.replayAllowed request.payloadHash none
  let awaitingConfirmation ← updated env { request with state := .awaitingConfirmation }
  let store ← store.insertRow (rowOf awaitingConfirmation) "request_already_exists"
  return (awaitingConfirmation, store)

/-- `get`. -/
def get (store : RequestStore) (now : Instant) (requestId : String) :
    Except String (PreparedRequest × RequestStore) := do
  let request ← store.fetch env requestId
  store.expireIfNeeded env now request

/-- `approve`. -/
def approve (store : RequestStore) (now : Instant) (requestId payloadHash : String)
    (expectedClass : MutationClass) : Except String (PreparedRequest × RequestStore) := do
  let (request, store) ← store.approvalCandidate env now requestId payloadHash expectedClass
  let approved ← updated env { request with state := .readyToExecute, approvalCount := 1 }
  let store ← store.updateRow approved "request_store_unavailable"
  return (approved, store)

/-- `precheck_approval`. -/
def precheckApproval (store : RequestStore) (now : Instant) (requestId payloadHash : String)
    (expectedClass : MutationClass) : Except String (PreparedRequest × RequestStore) :=
  store.approvalCandidate env now requestId payloadHash expectedClass

/-- The request as it is now, where its status is one of `states`. -/
def fetchCurrent (store : RequestStore) (now : Instant) (requestId : String)
    (states : List RequestState) : Except String (PreparedRequest × RequestStore) := do
  let request ← store.fetch env requestId
  let (request, store) ← store.expireIfNeeded env now request
  requireState request states
  return (request, store)

/-- `require_ready`. -/
def requireReady (store : RequestStore) (now : Instant) (requestId : String) :
    Except String (PreparedRequest × RequestStore) :=
  store.fetchCurrent env now requestId [.readyToExecute]

/-- `invalidate`. -/
def invalidate (store : RequestStore) (now : Instant) (requestId reason : String) :
    Except String (PreparedRequest × RequestStore) := do
  require (isReason reason) "invalid_invalidation_reason"
  let (request, store) ← store.fetchCurrent env now requestId pendingStates
  let failed ← updated env { request with state := .failed, failureReason := some reason }
  let store ← store.updateRow failed "request_store_unavailable"
  return (failed, store)

/-- `fail_before_dispatch`. -/
def failBeforeDispatch (store : RequestStore) (now : Instant) (requestId reason : String)
    (responseSummary : Json) : Except String (PreparedRequest × RequestStore) := do
  require (isReason reason) "invalid_failure_reason"
  let (request, store) ← store.fetchCurrent env now requestId [.readyToExecute]
  let failed ← updated env { request with
    state := .failed, failureReason := some reason, responseSummary := responseSummary }
  let store ← store.updateRow failed "request_store_unavailable"
  return (failed, store)

/-- `start_execution`. -/
def startExecution (store : RequestStore) (now : Instant) (requestId : String) :
    Except String (PreparedRequest × RequestStore) := do
  let (request, store) ← store.fetchCurrent env now requestId [.readyToExecute]
  store.replayAllowed request.payloadHash (some request.requestId)
  let executing ← updated env { request with state := .executing }
  let blocking := store.rows.find? fun row =>
    row.payloadHash == request.payloadHash && row.state ∈ replayBlockingStates
  let store ← store.updateRow executing (replayError (blocking.map (·.state)))
  return (executing, store)

/-- The status an outcome of `complete` stands for. -/
def completionState (outcome : String) : Option RequestState :=
  if outcome = "succeeded" then some .succeeded
  else if outcome = "failed" then some .failed
  else if outcome = "outcome_unknown" then some .outcomeUnknown
  else none

/-- The failure reason that goes with a final status. -/
def completionReason : RequestState → Option String
  | .failed => some "execution_failed"
  | .outcomeUnknown => some "outcome_unknown"
  | _ => none

/-- `complete`. -/
def complete (store : RequestStore) (requestId outcome : String) (responseSummary : Json) :
    Except String (PreparedRequest × RequestStore) :=
  match completionState outcome with
  | none => .error "invalid_completion_outcome"
  | some state => do
      let request ← store.fetch env requestId
      requireState request [.executing]
      let completed ← updated env { request with
        state := state
        failureReason := completionReason state
        responseSummary := responseSummary }
      let store ← store.updateRow completed "request_store_unavailable"
      return (completed, store)

/-- The status an outcome of `resolve_outcome_unknown` stands for. -/
def resolutionState (outcome : String) : Option RequestState :=
  if outcome = "succeeded" then some .succeeded
  else if outcome = "failed" then some .failed
  else none

/-- `resolve_outcome_unknown`. -/
def resolveOutcomeUnknown (store : RequestStore) (requestId outcome : String)
    (responseSummary : Json) : Except String (PreparedRequest × RequestStore) :=
  match resolutionState outcome with
  | none => .error "invalid_resolution_outcome"
  | some state => do
      let request ← store.fetch env requestId
      requireState request [.outcomeUnknown]
      let resolved ← updated env { request with
        state := state
        failureReason := completionReason state
        responseSummary := responseSummary }
      let store ← store.updateRow resolved "request_store_unavailable"
      return (resolved, store)

/-- `_expire_pending`: every pending row is read, and expired where its time is over. -/
def expirePending (store : RequestStore) (now : Instant) : Except String RequestStore :=
  (store.rows.filter (·.state ∈ pendingStates)).foldlM
    (fun store row => do
      let request ← rowToRequest env row
      let (_, store) ← store.expireIfNeeded env now request
      return store)
    store

/-- `invalidate_pending`. -/
def invalidatePending (store : RequestStore) (now : Instant)
    (connectorId environment : Option String) (reason : String) :
    Except String (Nat × RequestStore) := do
  require (connectorId.all isIdentifier && environment.all isIdentifier)
    "invalid_invalidation_scope"
  require (isReason reason) "invalid_invalidation_reason"
  let store ← store.expirePending env now
  let rows := store.rows.filter fun row =>
    row.state ∈ pendingStates && connectorId.all (row.connectorId == ·) &&
      environment.all (row.environment == ·)
  let store ← rows.foldlM
    (fun store row => do
      let request ← rowToRequest env row
      let failed ← updated env { request with state := .failed, failureReason := some reason }
      store.updateRow failed "request_store_unavailable")
    store
  return (rows.length, store)

end RequestStore

/-! ## Calls -/

inductive StoreCall where
  | createPreview (prepared : PreparedRequest) (action : CatalogAction)
  | get (requestId : String)
  | approve (requestId payloadHash : String) (expectedClass : MutationClass)
  | precheckApproval (requestId payloadHash : String) (expectedClass : MutationClass)
  | requireReady (requestId : String)
  | invalidate (requestId reason : String)
  | failBeforeDispatch (requestId reason : String) (responseSummary : Json)
  | startExecution (requestId : String)
  | complete (requestId outcome : String) (responseSummary : Json)
  | resolveOutcomeUnknown (requestId outcome : String) (responseSummary : Json)
  | invalidatePending (connectorId environment : Option String) (reason : String)
  | assertReplayAllowed (payloadHash : String)
  deriving Repr

namespace RequestStore

/-- The store after an accepted call, made at `c.1`. -/
def call (store : RequestStore) (c : Instant × StoreCall) : Except String RequestStore :=
  match c.2 with
  | .createPreview prepared action => (·.2) <$> store.createPreview env prepared action
  | .get requestId => (·.2) <$> store.get env c.1 requestId
  | .approve requestId payloadHash expectedClass =>
      (·.2) <$> store.approve env c.1 requestId payloadHash expectedClass
  | .precheckApproval requestId payloadHash expectedClass =>
      (·.2) <$> store.precheckApproval env c.1 requestId payloadHash expectedClass
  | .requireReady requestId => (·.2) <$> store.requireReady env c.1 requestId
  | .invalidate requestId reason => (·.2) <$> store.invalidate env c.1 requestId reason
  | .failBeforeDispatch requestId reason responseSummary =>
      (·.2) <$> store.failBeforeDispatch env c.1 requestId reason responseSummary
  | .startExecution requestId => (·.2) <$> store.startExecution env c.1 requestId
  | .complete requestId outcome responseSummary =>
      (·.2) <$> store.complete env requestId outcome responseSummary
  | .resolveOutcomeUnknown requestId outcome responseSummary =>
      (·.2) <$> store.resolveOutcomeUnknown env requestId outcome responseSummary
  | .invalidatePending connectorId environment reason =>
      (·.2) <$> store.invalidatePending env c.1 connectorId environment reason
  | .assertReplayAllowed payloadHash => do
      store.replayAllowed payloadHash none
      return store

/-- A store with no requests. -/
def empty (repositoryId : String) : RequestStore := ⟨repositoryId, []⟩

end RequestStore

end

end Execution
end MercuryTools
