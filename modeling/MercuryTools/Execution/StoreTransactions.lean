import MercuryTools.Execution.RequestLifecycle
import MercuryTools.Framework.Operations

/-!
# The transactions of the request store

`_immediate_transaction` of `execution/store.py` and the lock around it.  A method runs on a
connection: what it writes is seen by its own later statements and by nobody else until `COMMIT`,
and any statement may raise `sqlite3.Error`.  What raises before the `COMMIT` is over is rolled back.

After the `COMMIT` the connection is closed, the storage path is checked and the lock is released.
These may raise too, and then the method raises although its writes are there
(`perform_atomic`).
-/

namespace MercuryTools
namespace Execution

open Checks

/-- What a method raises; `RequestStateError` is a `ValueError`. -/
inductive Raised where
  | valueError (code : String)
  | integrityError
  | sqliteError
  deriving DecidableEq, Repr

def Raised.code : Raised → String
  | .valueError code => code
  | .integrityError => "IntegrityError"
  | .sqliteError => "sqlite3.Error"

/-- A connection inside a transaction: the rows as its statements see them, and whether the next
statements raise `sqlite3.Error`. -/
structure Connection where
  store : RequestStore
  failures : List Bool
  deriving Repr

/-- What surrounds the body of a method: the exceptions of the lock, of `_connect`, of closing with
the check of the storage path, and of the release of the lock; and what `BEGIN`, the statements of
the body and `COMMIT` do. -/
structure Conditions where
  acquires : Except Raised Unit
  connects : Except Raised Unit
  begins : Bool
  failures : List Bool
  commits : Bool
  closes : Except Raised Unit
  releases : Except Raised Unit
  deriving Repr

/-- Nothing fails. -/
def Conditions.calm : Conditions :=
  ⟨.ok (), .ok (), true, [], true, .ok (), .ok ()⟩

/-- Nothing fails before the `COMMIT` is over. -/
def Conditions.works (conditions : Conditions) : Bool :=
  conditions.acquires.isOk && conditions.connects.isOk && conditions.begins &&
    conditions.failures.all (!·) && conditions.commits

/-- The conditions, if closing and the release of the lock raise nothing. -/
@[simps]
def Conditions.undisturbed (conditions : Conditions) : Conditions :=
  { conditions with closes := .ok (), releases := .ok () }

/-! ## Statements -/

namespace Connection

/-- One statement is executed. -/
def execute : Operation Connection Raised Unit := fun connection =>
  match connection.failures with
  | [] => (.ok (), connection)
  | failed :: failures =>
      (if failed then .error .sqliteError else .ok (), { connection with failures := failures })

/-- What Python computes of the rows of a statement. -/
def read {α : Type} (f : RequestStore → Except String α) : Operation Connection Raised α :=
  Operation.check fun connection => (f connection.store).mapError .valueError

/-- `SELECT`, and what is computed of its rows. -/
def select {α : Type} (f : RequestStore → Except String α) : Operation Connection Raised α := do
  execute
  read f

/-- `UPDATE requests`, with the unique index. -/
def storeRequest (request : PreparedRequest) : Operation Connection Raised Unit := do
  execute
  Operation.check fun connection =>
    require (connection.store.indexAllows (rowOf request)) .integrityError
  Operation.modify fun connection => { connection with
    store := { connection.store with
      rows := KeyedTable.put (·.requestId) connection.store.rows (rowOf request) } }

/-- `INSERT INTO requests`, with the primary key and the unique index. -/
def insertRequest (request : PreparedRequest) : Operation Connection Raised Unit := do
  execute
  Operation.check fun connection =>
    require (!connection.store.rows.any (·.requestId == request.requestId) &&
      connection.store.indexAllows (rowOf request)) .integrityError
  Operation.modify fun connection => { connection with
    store := { connection.store with rows := connection.store.rows ++ [rowOf request] } }

/-- `except sqlite3.IntegrityError`. -/
def exceptIntegrity {α : Type} (handler : Operation Connection Raised Raised)
    (op : Operation Connection Raised α) : Operation Connection Raised α := fun connection =>
  match op connection with
  | (.error .integrityError, after) =>
      match handler after with
      | (.ok raised, after) => (.error raised, after)
      | (.error raised, after) => (.error raised, after)
  | result => result

/-! ### What a statement returned -/

section

variable {c c' : Connection}

lemma store_of_execute {result : Except Raised Unit} (h : execute c = (result, c')) :
    c'.store = c.store := by
  rw [execute] at h
  split at h
  · rw [← (Prod.mk.inj h).2]
  · rw [← (Prod.mk.inj h).2]

variable {α : Type}

lemma read_eq_ok {f : RequestStore → Except String α} {a : α} :
    read f c = (.ok a, c') ↔ f c.store = .ok a ∧ c' = c := by
  rw [read, Operation.check_apply, Prod.mk.injEq, mapError_eq_ok, eq_comm (a := c)]

lemma select_eq_ok {f : RequestStore → Except String α} {a : α} (h : select f c = (.ok a, c')) :
    f c.store = .ok a ∧ c'.store = c.store := by
  obtain ⟨_, after, hexecute, hread⟩ := Operation.bind_eq_ok.1 h
  obtain ⟨hf, rfl⟩ := read_eq_ok.1 hread
  have hstore := store_of_execute hexecute
  exact ⟨hstore ▸ hf, hstore⟩

lemma storeRequest_eq_ok {request : PreparedRequest} {u : Unit}
    (h : storeRequest request c = (.ok u, c')) :
    c'.store = { c.store with
      rows := KeyedTable.put (·.requestId) c.store.rows (rowOf request) } := by
  obtain ⟨_, after, hexecute, h⟩ := Operation.bind_eq_ok.1 h
  obtain ⟨_, -, h⟩ := Operation.check_bind_eq_ok.1 h
  rw [← (Prod.mk.inj h).2, ← store_of_execute hexecute]

end

end Connection

open Connection

/-! ## The bodies of the methods -/

section

variable (env : Environment)

/-- `_expire_if_needed`: the expired request is written at once. -/
def expireBody (now : Instant) (request : PreparedRequest) :
    Operation Connection Raised PreparedRequest :=
  if request.state ∈ pendingStates ∧ request.expiresAt ≤ now then do
    let expired ← read fun _ =>
      updated env { request with state := .failed, failureReason := some "preview_expired" }
    storeRequest expired
    return expired
  else return request

/-- `_approval_candidate`. -/
def approvalCandidateBody (now : Instant) (requestId payloadHash : String)
    (expectedClass : MutationClass) : Operation Connection Raised PreparedRequest := do
  let request ← select fun store => store.fetch env requestId
  read fun _ => require (payloadHash == request.payloadHash) "payload_hash_mismatch"
  let request ← expireBody env now request
  read fun _ => requireState request [.awaitingConfirmation]
  read fun _ => require (request.mutationClass == expectedClass) "mutation_class_mismatch"
  return request

/-- The request as it is now, where its status is one of `states`. -/
def fetchCurrentBody (now : Instant) (requestId : String) (states : List RequestState) :
    Operation Connection Raised PreparedRequest := do
  let request ← select fun store => store.fetch env requestId
  let request ← expireBody env now request
  read fun _ => requireState request states
  return request

/-- `_assert_replay_allowed`: the hash is checked before the statement. -/
def replayAllowedBody (payloadHash : String) (excluding : Option String) :
    Operation Connection Raised Unit := do
  read fun _ => require (isHexDigest payloadHash) "invalid_payload_hash"
  select fun store => store.replayAllowed payloadHash excluding

/-- A request with new status fields is validated and written. -/
def updateBody (request : PreparedRequest) : Operation Connection Raised PreparedRequest := do
  let changed ← read fun _ => updated env request
  storeRequest changed
  return changed

/-- `create_preview`, in its transaction. -/
def createPreviewBody (request : PreparedRequest) :
    Operation Connection Raised PreparedRequest := do
  replayAllowedBody request.payloadHash none
  let awaitingConfirmation ← read fun _ =>
    updated env { request with state := .awaitingConfirmation }
  exceptIntegrity (pure (.valueError "request_already_exists")) (insertRequest awaitingConfirmation)
  return awaitingConfirmation

/-- `approve`. -/
def approveBody (now : Instant) (requestId payloadHash : String) (expectedClass : MutationClass) :
    Operation Connection Raised PreparedRequest := do
  let request ← approvalCandidateBody env now requestId payloadHash expectedClass
  updateBody env { request with state := .readyToExecute, approvalCount := 1 }

/-- `invalidate`. -/
def invalidateBody (now : Instant) (requestId reason : String) :
    Operation Connection Raised PreparedRequest := do
  let request ← fetchCurrentBody env now requestId pendingStates
  updateBody env { request with state := .failed, failureReason := some reason }

/-- `fail_before_dispatch`. -/
def failBeforeDispatchBody (now : Instant) (requestId reason : String) (responseSummary : Json) :
    Operation Connection Raised PreparedRequest := do
  let request ← fetchCurrentBody env now requestId [.readyToExecute]
  updateBody env { request with
    state := .failed, failureReason := some reason, responseSummary := responseSummary }

/-- `start_execution`: where the unique index refuses the row, the blocking row is read for the
error. -/
def startExecutionBody (now : Instant) (requestId : String) :
    Operation Connection Raised PreparedRequest := do
  let request ← fetchCurrentBody env now requestId [.readyToExecute]
  replayAllowedBody request.payloadHash (some request.requestId)
  let executing ← read fun _ => updated env { request with state := .executing }
  exceptIntegrity
    (select fun store =>
      let blocking := store.rows.find? fun row =>
        row.payloadHash == request.payloadHash && row.state ∈ replayBlockingStates
      .ok (.valueError (replayError (blocking.map (·.state)))))
    (storeRequest executing)
  return executing

/-- `complete` and `resolve_outcome_unknown`, from the status they start in. -/
def finishBody (requestId : String) (start state : RequestState) (responseSummary : Json) :
    Operation Connection Raised PreparedRequest := do
  let request ← select fun store => store.fetch env requestId
  read fun _ => requireState request [start]
  updateBody env { request with
    state := state
    failureReason := RequestStore.completionReason state
    responseSummary := responseSummary }

/-- A method for every row that a statement returned. -/
def forEachRow (body : RequestRow → Operation Connection Raised Unit) :
    List RequestRow → Operation Connection Raised Unit
  | [] => pure ()
  | row :: rows => do
      body row
      forEachRow body rows

/-- `invalidate_pending`. -/
def invalidatePendingBody (now : Instant) (connectorId environment : Option String)
    (reason : String) : Operation Connection Raised ℕ := do
  let pending ← select fun store => .ok (store.rows.filter (·.state ∈ pendingStates))
  forEachRow (fun row => do
    let request ← read fun _ => rowToRequest env row
    let _ ← expireBody env now request) pending
  let rows ← select fun store => .ok (store.rows.filter fun row =>
    row.state ∈ pendingStates && connectorId.all (row.connectorId == ·) &&
      environment.all (row.environment == ·))
  forEachRow (fun row => do
    let request ← read fun _ => rowToRequest env row
    let _ ← updateBody env { request with state := .failed, failureReason := some reason }) rows
  return rows.length

end

/-! ## Transactions -/

/-- How an exception of the body leaves `_immediate_transaction`. -/
def Raised.ofTransaction : Raised → Raised
  | .valueError code => .valueError code
  | .integrityError | .sqliteError => .valueError "request_store_unavailable"

section

variable {α β : Type}

/-- `_immediate_transaction`: what raises before the end of `COMMIT` is rolled back; then the
connection is closed and the storage path is checked. -/
def immediateTransaction (body : Operation Connection Raised α) (conditions : Conditions) :
    Operation RequestStore Raised α := fun committed =>
  match conditions.connects with
  | .error raised => (.error raised, committed)
  | .ok () =>
      let left : Except Raised α × RequestStore :=
        if conditions.begins then
          match body ⟨committed, conditions.failures⟩ with
          | (.error raised, _) => (.error raised.ofTransaction, committed)
          | (.ok a, connection) =>
              if conditions.commits then (.ok a, connection.store)
              else (.error (.valueError "request_store_unavailable"), committed)
        else (.error (.valueError "request_store_unavailable"), committed)
      match conditions.closes with
      | .error raised => (.error raised, left.2)
      | .ok () => left

/-- A method that only reads, without a transaction. -/
def readingConnection (body : Operation Connection Raised α) (conditions : Conditions) :
    Operation RequestStore Raised α := fun committed =>
  match conditions.connects with
  | .error raised => (.error raised, committed)
  | .ok () =>
      match conditions.closes with
      | .error raised => (.error raised, committed)
      | .ok () => ((body ⟨committed, conditions.failures⟩).1, committed)

/-- `repository_locked`. -/
def repositoryLocked (method : Conditions → Operation RequestStore Raised α)
    (conditions : Conditions) : Operation RequestStore Raised α := fun committed =>
  match conditions.acquires with
  | .error raised => (.error raised, committed)
  | .ok () =>
      match conditions.releases with
      | .error raised => (.error raised, (method conditions committed).2)
      | .ok () => method conditions committed

/-- A method that checks its arguments before its transaction. -/
def checkedTransaction (checks : RequestStore → Except String α)
    (body : α → Operation Connection Raised β) (conditions : Conditions) :
    Operation RequestStore Raised β := do
  let a ← Operation.check fun store => (checks store).mapError .valueError
  immediateTransaction (body a) conditions

end

/-! ## Methods -/

/-- `states.get(outcome)`, which must be there. -/
def knownState (state : Option RequestState) (code : String) : Except String RequestState :=
  match state with
  | none => .error code
  | some state => .ok state

/-- What a method returns. -/
inductive StoreReply where
  | request (request : PreparedRequest)
  | count (count : ℕ)
  | allowed
  deriving Repr

def StoreReply.request? : StoreReply → Option PreparedRequest
  | .request stored => some stored
  | _ => none

section

variable (env : Environment)

/-- The checks of `create_preview` before its transaction. -/
def checkPrepared (prepared : PreparedRequest) (action : CatalogAction) (store : RequestStore) :
    Except String PreparedRequest := do
  let request ← withCode "invalid_prepared_request" (prepared.validate env)
  RequestStore.verifyCatalogBinding env request action
  require (request.repositoryId == store.repositoryId) "repository_mismatch"
  require (request.state == .previewed && request.approvalCount == 0 &&
    request.failureReason.isNone && request.responseSummary.keys.isEmpty)
    "invalid_initial_request_state"
  return request

/-- `get`. -/
def getMethod (now : Instant) (requestId : String) :
    Conditions → Operation RequestStore Raised PreparedRequest :=
  repositoryLocked <| immediateTransaction do
    let request ← select fun store => store.fetch env requestId
    expireBody env now request

/-- `approve`. -/
def approveMethod (now : Instant) (requestId payloadHash : String) (expectedClass : MutationClass) :
    Conditions → Operation RequestStore Raised PreparedRequest :=
  repositoryLocked <| immediateTransaction (approveBody env now requestId payloadHash expectedClass)

/-- The methods of the store, at a time of the clock. -/
def method (now : Instant) : StoreCall → Conditions → Operation RequestStore Raised StoreReply
  | .createPreview prepared action, conditions => .request <$>
      repositoryLocked (checkedTransaction (checkPrepared env prepared action)
        (createPreviewBody env)) conditions
  | .get requestId, conditions => .request <$> getMethod env now requestId conditions
  | .approve requestId payloadHash expectedClass, conditions => .request <$>
      approveMethod env now requestId payloadHash expectedClass conditions
  | .precheckApproval requestId payloadHash expectedClass, conditions => .request <$>
      repositoryLocked (immediateTransaction
        (approvalCandidateBody env now requestId payloadHash expectedClass)) conditions
  | .requireReady requestId, conditions => .request <$>
      repositoryLocked (immediateTransaction
        (fetchCurrentBody env now requestId [.readyToExecute])) conditions
  | .invalidate requestId reason, conditions => .request <$>
      repositoryLocked (checkedTransaction
        (fun _ => require (isReason reason) "invalid_invalidation_reason")
        (fun _ => invalidateBody env now requestId reason)) conditions
  | .failBeforeDispatch requestId reason responseSummary, conditions => .request <$>
      repositoryLocked (checkedTransaction
        (fun _ => require (isReason reason) "invalid_failure_reason")
        (fun _ => failBeforeDispatchBody env now requestId reason responseSummary)) conditions
  | .startExecution requestId, conditions => .request <$>
      repositoryLocked (immediateTransaction (startExecutionBody env now requestId)) conditions
  | .complete requestId outcome responseSummary, conditions => .request <$>
      repositoryLocked (checkedTransaction
        (fun _ => knownState (RequestStore.completionState outcome) "invalid_completion_outcome")
        (fun state => finishBody env requestId .executing state responseSummary)) conditions
  | .resolveOutcomeUnknown requestId outcome responseSummary, conditions => .request <$>
      repositoryLocked (checkedTransaction
        (fun _ => knownState (RequestStore.resolutionState outcome) "invalid_resolution_outcome")
        (fun state => finishBody env requestId .outcomeUnknown state responseSummary)) conditions
  | .invalidatePending connectorId environment reason, conditions => .count <$>
      repositoryLocked (checkedTransaction
        (fun _ => do
          require (connectorId.all isIdentifier && environment.all isIdentifier)
            "invalid_invalidation_scope"
          require (isReason reason) "invalid_invalidation_reason")
        (fun _ => invalidatePendingBody env now connectorId environment reason)) conditions
  | .assertReplayAllowed payloadHash, conditions => (fun _ => .allowed) <$>
      repositoryLocked (fun conditions => do
        Operation.check fun _ =>
          (require (isHexDigest payloadHash) "invalid_payload_hash").mapError .valueError
        readingConnection (replayAllowedBody payloadHash none) conditions) conditions

/-- An operation of the store: a method, or `confirm`, which is two of them. -/
inductive StoreOperation where
  | call (now : Instant) (conditions : Conditions) (call : StoreCall)
  | confirm (now later : Instant) (first second : Conditions) (requestId payloadHash : String)
  deriving Repr

/-- The operation, if no closing and no release of the lock raises. -/
def StoreOperation.undisturbed : StoreOperation → StoreOperation
  | .call now conditions c => .call now conditions.undisturbed c
  | .confirm now later first second requestId payloadHash =>
      .confirm now later first.undisturbed second.undisturbed requestId payloadHash

/-- The time at which an operation starts. -/
def StoreOperation.now : StoreOperation → Instant
  | .call now _ _ => now
  | .confirm now _ _ _ _ _ => now

def perform : StoreOperation → Operation RequestStore Raised StoreReply
  | .call now conditions c => method env now c conditions
  | .confirm now later first second requestId payloadHash => do
      let request ← getMethod env now requestId first
      .request <$> approveMethod env later requestId payloadHash request.mutationClass second

end

/-! ## What is left where a method raises -/

/-- The exception of a closing or of a lock changes nothing of what an operation leaves: it is only
raised in place of what would have been returned.  What raises without it leaves the store alone. -/
structure Settled {α : Type} (op : Conditions → Operation RequestStore Raised α) : Prop where
  store : ∀ conditions s, (op conditions s).2 = (op conditions.undisturbed s).2
  returns : ∀ {conditions s a}, (op conditions s).1 = .ok a →
    (op conditions.undisturbed s).1 = .ok a
  raises : ∀ {conditions s raised}, (op conditions.undisturbed s).1 = .error raised →
    (op conditions s).2 = s

namespace Settled

variable {α β : Type}

lemma immediateTransaction (body : Operation Connection Raised α) :
    Settled (immediateTransaction body) := by
  constructor <;> intro conditions s <;>
    cases hconnects : conditions.connects <;> cases hcloses : conditions.closes <;>
      simp [Execution.immediateTransaction, hconnects, hcloses]
  -- the transaction itself: what raises in it leaves `s`
  all_goals
    intro raised
    by_cases hbegins : conditions.begins = true <;> by_cases hcommits : conditions.commits = true <;>
      rcases body ⟨s, conditions.failures⟩ with ⟨raised' | a, connection⟩ <;>
        simp [hbegins, hcommits]

lemma readingConnection (body : Operation Connection Raised α) :
    Settled (readingConnection body) := by
  constructor <;> intro conditions s <;>
    cases hconnects : conditions.connects <;> cases hcloses : conditions.closes <;>
      simp [Execution.readingConnection, hconnects, hcloses]

lemma check_bind {f : RequestStore → Except Raised α}
    {op : α → Conditions → Operation RequestStore Raised β} (h : ∀ a, Settled (op a)) :
    Settled fun conditions => Operation.check f >>= fun a => op a conditions := by
  constructor <;> intro conditions s <;> cases hf : f s with
    | error raised => simp [Operation.check_bind_of_error hf]
    | ok a =>
      simp only [Operation.check_bind_of_ok hf]
      first | exact (h a).store conditions s | exact (h a).returns | exact (h a).raises

variable {op : Conditions → Operation RequestStore Raised α}

lemma map (h : Settled op) (f : α → β) : Settled fun conditions => f <$> op conditions := by
  constructor <;> intro conditions s
  · rw [Operation.snd_map, Operation.snd_map]
    exact h.store conditions s
  · intro b hb
    obtain ⟨a, ha, rfl⟩ := Operation.map_eq_ok.1 (Prod.ext hb rfl)
    exact congrArg Prod.fst (Operation.map_eq_ok.2 ⟨a, Prod.ext (h.returns (congrArg Prod.fst ha)) rfl, rfl⟩)
  · intro raised hraised
    rw [Operation.snd_map]
    exact h.raises (congrArg Prod.fst (Operation.map_eq_error.1 (Prod.ext hraised rfl)))

lemma repositoryLocked (h : Settled op) : Settled (repositoryLocked op) := by
  constructor <;> intro conditions s <;>
    cases hacquires : conditions.acquires <;> cases hreleases : conditions.releases <;>
      simp +contextual [Execution.repositoryLocked, hacquires, hreleases, ← h.store conditions s,
        h.returns, h.raises]

lemma checkedTransaction (checks : RequestStore → Except String α)
    (body : α → Operation Connection Raised β) : Settled (checkedTransaction checks body) :=
  check_bind fun a => .immediateTransaction (body a)

/-- What an operation leaves that raises. -/
lemma eq_or_returns (h : Settled op) {conditions : Conditions} {s s' : RequestStore}
    {raised : Raised} (hop : op conditions s = (.error raised, s')) :
    s' = s ∨ ∃ a, op conditions.undisturbed s = (.ok a, s') := by
  have hstore := h.store conditions s
  rw [hop] at hstore
  rcases hundisturbed : op conditions.undisturbed s with ⟨raised' | a, s''⟩
  · left
    rw [← h.raises (congrArg Prod.fst hundisturbed), hop]
  · rw [hundisturbed] at hstore
    exact .inr ⟨a, congrArg (Except.ok a, ·) hstore.symm⟩

/-- What an operation leaves that returns. -/
lemma of_returns (h : Settled op) {conditions : Conditions} {s s' : RequestStore} {a : α}
    (hop : op conditions s = (.ok a, s')) : op conditions.undisturbed s = (.ok a, s') :=
  Prod.ext (h.returns (congrArg Prod.fst hop))
    ((h.store conditions s).symm.trans (congrArg Prod.snd hop))

end Settled

variable {env : Environment}

lemma settled_method (now : Instant) (c : StoreCall) : Settled (method env now c) := by
  cases c with
  | createPreview prepared action => exact (Settled.checkedTransaction _ _).repositoryLocked.map _
  | get requestId => exact (Settled.immediateTransaction _).repositoryLocked.map _
  | approve requestId payloadHash expectedClass =>
    exact (Settled.immediateTransaction _).repositoryLocked.map _
  | precheckApproval requestId payloadHash expectedClass =>
    exact (Settled.immediateTransaction _).repositoryLocked.map _
  | requireReady requestId => exact (Settled.immediateTransaction _).repositoryLocked.map _
  | invalidate requestId reason => exact (Settled.checkedTransaction _ _).repositoryLocked.map _
  | failBeforeDispatch requestId reason responseSummary =>
    exact (Settled.checkedTransaction _ _).repositoryLocked.map _
  | startExecution requestId => exact (Settled.immediateTransaction _).repositoryLocked.map _
  | complete requestId outcome responseSummary =>
    exact (Settled.checkedTransaction _ _).repositoryLocked.map _
  | resolveOutcomeUnknown requestId outcome responseSummary =>
    exact (Settled.checkedTransaction _ _).repositoryLocked.map _
  | invalidatePending connectorId environment reason =>
    exact (Settled.checkedTransaction _ _).repositoryLocked.map _
  | assertReplayAllowed payloadHash =>
    exact (Settled.check_bind fun _ => Settled.readingConnection _).repositoryLocked.map _

/-- Nothing changed but the status of one pending request whose time is over. -/
def OnlyExpires (now : Instant) (store store' : RequestStore) : Prop :=
  store' = store ∨ ∃ row ∈ store.rows, ∃ expired : PreparedRequest,
    row.request.state ∈ pendingStates ∧ row.request.expiresAt ≤ now ∧
      expired.toPreview = row.request.toPreview ∧ expired.approvalCount = row.request.approvalCount ∧
      expired.state = .failed ∧ expired.failureReason = some "preview_expired" ∧
      store' = { store with rows := KeyedTable.put (·.requestId) store.rows (rowOf expired) }

variable {α : Type} {conditions : Conditions} {store store' : RequestStore}

lemma repositoryLocked_eq_ok {op : Conditions → Operation RequestStore Raised α} {a : α}
    (h : repositoryLocked op conditions store = (.ok a, store')) :
    op conditions store = (.ok a, store') := by
  rw [repositoryLocked] at h
  split at h
  · cases (Prod.mk.inj h).1
  · split at h
    · cases (Prod.mk.inj h).1
    · exact h

lemma immediateTransaction_eq_ok {body : Operation Connection Raised α} {a : α}
    (h : immediateTransaction body conditions store = (.ok a, store')) :
    ∃ connection, body ⟨store, conditions.failures⟩ = (.ok a, connection) ∧
      connection.store = store' := by
  cases hconnects : conditions.connects <;> cases hcloses : conditions.closes <;>
    by_cases hbegins : conditions.begins = true <;> by_cases hcommits : conditions.commits = true <;>
      rcases hbody : body ⟨store, conditions.failures⟩ with ⟨raised | b, connection⟩ <;>
        simp_all [immediateTransaction]

/-- What `get` returns has changed nothing but an expiry. -/
lemma onlyExpires_of_getMethod {now : Instant} {requestId : String} {request : PreparedRequest}
    (h : getMethod env now requestId conditions store = (.ok request, store')) :
    OnlyExpires now store store' := by
  obtain ⟨connection, hbody, rfl⟩ := immediateTransaction_eq_ok (repositoryLocked_eq_ok h)
  obtain ⟨fetched, after, hselect, hexpire⟩ := Operation.bind_eq_ok.1 hbody
  obtain ⟨hfetch, hstore⟩ := select_eq_ok hselect
  obtain ⟨row, hrow⟩ := RequestStore.fetch_ok hfetch
  rw [expireBody] at hexpire
  split at hexpire
  · rename_i hover
    obtain ⟨expired, after', hread, hwrite⟩ := Operation.bind_eq_ok.1 hexpire
    obtain ⟨hupdated, rfl⟩ := read_eq_ok.1 hread
    obtain ⟨_, after'', hput, hreturn⟩ := Operation.bind_eq_ok.1 hwrite
    obtain ⟨-, rfl⟩ := Prod.mk.inj hreturn
    obtain ⟨hsame, -, -⟩ := updated_ok hupdated
    refine .inr ⟨row, hrow.mem, expired, ?_, ?_, ?_, ?_, hsame.state, hsame.failure_reason, ?_⟩
    · rw [← hrow.same.state]
      exact hover.1
    · rw [← hrow.same.preview]
      exact hover.2
    · exact hsame.preview.trans hrow.same.preview
    · exact hsame.approval_count.trans hrow.same.approval_count
    · rw [storeRequest_eq_ok hput, hstore]
  · obtain ⟨-, rfl⟩ := Prod.mk.inj hexpire
    exact .inl hstore

/-- **The operations are atomic up to the end of `COMMIT`.** -/
theorem perform_atomic {operation : StoreOperation} {store store' : RequestStore} {raised : Raised}
    (h : perform env operation store = (.error raised, store')) :
    store' = store ∨ OnlyExpires operation.now store store' ∨
      ∃ reply, perform env operation.undisturbed store = (.ok reply, store') := by
  cases operation with
  | call now conditions c =>
    exact ((settled_method now c).eq_or_returns h).imp_right .inr
  | confirm now later first second requestId payloadHash =>
    have hget : Settled (getMethod env now requestId) :=
      (Settled.immediateTransaction _).repositoryLocked
    rcases Operation.bind_eq_error.1 h with hfirst | ⟨request, current, hfirst, hsecond⟩
    · rcases hget.eq_or_returns hfirst with rfl | ⟨request, hreturned⟩
      · exact .inl rfl
      · exact .inr (.inl (onlyExpires_of_getMethod hreturned))
    · have happrove : Settled (approveMethod env later requestId payloadHash request.mutationClass) :=
        (Settled.immediateTransaction _).repositoryLocked
      rcases (happrove.map StoreReply.request).eq_or_returns hsecond with rfl | ⟨reply, hreturned⟩
      · exact .inr (.inl (onlyExpires_of_getMethod hfirst))
      · exact .inr (.inr ⟨reply, Operation.bind_eq_ok.2
          ⟨request, current, hget.of_returns hfirst, hreturned⟩⟩)

/-! ## A preview that has expired, and an approval -/

def sampleDigest : String := String.ofList (List.replicate 64 '1')

/-- An environment that hashes everything to one digest and accepts every action. -/
def sampleEnvironment : Environment where
  canonicalPayloadHash _ := sampleDigest
  redactJson := id
  casefold := id
  revalidateCatalogAction := some
  effectiveRisk _ := some ⟨1, .standard, .create⟩

/-- A request to create an invoice, as it is previewed. -/
def sampleRequest : PreparedRequest where
  repositoryId := "repo"
  connectorId := "flowaccount"
  environment := "sandbox"
  actionId := "create-invoice"
  versionId := "v1"
  method := .post
  finalPath := "/invoices"
  requestInputs := .obj []
  riskTier := 1
  approvalLevel := .standard
  mutationClass := .create
  credentialRevision := sampleDigest
  preflightActions := []
  requestId := "req_00000001"
  pathTemplate := "/invoices"
  payloadHash := sampleDigest
  createdAt := 0
  expiresAt := previewTtl
  sanitizedSummary := .obj []
  approvalCount := 0
  state := .previewed
  failureReason := none
  responseSummary := .obj []

/-- The request as it is stored. -/
def samplePreview : PreparedRequest :=
  { sampleRequest with state := .awaitingConfirmation }

/-- A store with the previewed request. -/
def sampleStore : RequestStore :=
  ⟨"repo", [rowOf samplePreview]⟩

/-- The expiry is written, and rolled back when the method raises. -/
theorem perform_atomic_expired : ∃ raised store',
    perform sampleEnvironment (.call previewTtl .calm (.requireReady samplePreview.requestId))
        sampleStore = (.error raised, store') ∧
      (store' = sampleStore ∨ OnlyExpires previewTtl sampleStore store' ∨
        ∃ reply, perform sampleEnvironment
          (.call previewTtl .calm (.requireReady samplePreview.requestId)) sampleStore =
            (.ok reply, store')) := by
  have hraises : perform sampleEnvironment
      (.call previewTtl .calm (.requireReady samplePreview.requestId)) sampleStore =
        (.error (.valueError "preview_expired"), sampleStore) := rfl
  exact ⟨_, _, hraises, perform_atomic hraises⟩

/-- An approval whose `COMMIT` is over when the check of the storage path raises. -/
def lateApproval : StoreOperation :=
  .call 0 { Conditions.calm with closes := .error (.valueError "invalid_request_store_path") }
    (.approve samplePreview.requestId samplePreview.payloadHash samplePreview.mutationClass)

/-- The approval raises, and the request is approved. -/
theorem approval_raises_after_commit : ∃ store' approved,
    perform sampleEnvironment lateApproval sampleStore =
        (.error (.valueError "invalid_request_store_path"), store') ∧
      store'.rows = [rowOf approved] ∧ approved.state = .readyToExecute ∧
      ¬ (store' = sampleStore ∨ OnlyExpires 0 sampleStore store') := by
  refine ⟨_, _, rfl, rfl, rfl, ?_⟩
  rintro (hsame | hsame | ⟨row, hrow, expired, -, hover, -⟩)
  · cases congrArg (fun store => store.rows.map (·.state)) hsame
  · cases congrArg (fun store => store.rows.map (·.state)) hsame
  · obtain rfl := List.mem_singleton.1 hrow
    exact absurd hover (by decide)

end Execution
end MercuryTools
