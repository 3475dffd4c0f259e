import MercuryTools.Execution.StoreTransactions

/-!
# The transactions refine the request store

Whatever fails around a method of the request store, it does what the call of the request store says
that models it, or nothing: where it returns it has done so (`returns_of_method`), and where it
raises it has left the store alone, or it has raised after its `COMMIT` (`Settled.eq_or_returns`).
-/

namespace MercuryTools
namespace Execution

open Checks

lemma replayAllowed_of_body {payloadHash : String} {excluding : Option String} {c c' : Connection}
    {u : Unit} (h : replayAllowedBody payloadHash excluding c = (.ok u, c')) :
    c.store.replayAllowed payloadHash excluding = .ok () ∧ c'.store = c.store := by
  obtain ⟨_, _, hread, hselect⟩ := Operation.bind_eq_ok.1 h
  obtain ⟨-, rfl⟩ := Connection.read_eq_ok.1 hread
  exact Connection.select_eq_ok hselect

/-- Where the operation returns, it does what the computation says. -/
def Returns {α : Type} (op : Operation Connection Raised α) (store : RequestStore)
    (result : Except String (α × RequestStore)) : Prop :=
  ∀ failures a c', op ⟨store, failures⟩ = (.ok a, c') → result = .ok (a, c'.store)

namespace Returns

variable {α β : Type} {store : RequestStore}

lemma pure (a : α) : Returns (pure a) store (.ok (a, store)) := by
  rintro _ _ _ ⟨⟩
  rfl

lemma bind {op : Operation Connection Raised α} {result : Except String (α × RequestStore)}
    {next : α → Operation Connection Raised β}
    {rest : α × RequestStore → Except String (β × RequestStore)} (h : Returns op store result)
    (hnext : ∀ a store', Returns (next a) store' (rest (a, store'))) :
    Returns (op >>= next) store (result >>= rest) := by
  intro failures b c'' hop
  obtain ⟨a, c', ha, hb⟩ := Operation.bind_eq_ok.1 hop
  rw [h failures a c' ha]
  exact hnext a c'.store c'.failures b c'' hb

/-- An operation that returns nothing but the rows. -/
lemma bind_unit {op : Operation Connection Raised Unit} {result : Except String RequestStore}
    {next : Unit → Operation Connection Raised β}
    {rest : RequestStore → Except String (β × RequestStore)}
    (h : Returns op store ((fun after => ((), after)) <$> result))
    (hnext : ∀ store', Returns (next ()) store' (rest store')) :
    Returns (op >>= next) store (result >>= rest) := by
  intro failures b c'' hop
  obtain ⟨_, c', ha, hb⟩ := Operation.bind_eq_ok.1 hop
  obtain ⟨after, rfl, hafter⟩ := map_eq_ok.1 (h failures () c' ha)
  obtain rfl : after = c'.store := congrArg Prod.snd hafter
  exact hnext c'.store c'.failures b c'' hb

lemma forget {op : Operation Connection Raised α} {result : Except String (α × RequestStore)}
    (h : Returns op store result) :
    Returns (do let _ ← op) store ((fun p => ((), p.2)) <$> result) := by
  intro failures u c' hop
  obtain ⟨a, c, ha, hpure⟩ := Operation.bind_eq_ok.1 hop
  cases hpure
  rw [h failures a _ ha]
  rfl

lemma select {f : RequestStore → Except String α} {next : α → Operation Connection Raised β}
    {rest : α → Except String (β × RequestStore)} (hnext : ∀ a, Returns (next a) store (rest a)) :
    Returns (Connection.select f >>= next) store (f store >>= rest) := by
  intro failures b c'' hop
  obtain ⟨a, ⟨store', failures'⟩, ha, hb⟩ := Operation.bind_eq_ok.1 hop
  obtain ⟨hf, rfl⟩ := Connection.select_eq_ok ha
  rw [show f store' = .ok a from hf]
  exact hnext a failures' b c'' hb

/-- What is only read leaves the rows alone. -/
lemma read {f : RequestStore → Except String α} {next : α → Operation Connection Raised β}
    {rest : α → Except String (β × RequestStore)} (hnext : ∀ a, Returns (next a) store (rest a)) :
    Returns (Connection.read f >>= next) store (f store >>= rest) := by
  intro failures b c'' hop
  obtain ⟨a, c', ha, hb⟩ := Operation.bind_eq_ok.1 hop
  obtain ⟨hf, rfl⟩ := Connection.read_eq_ok.1 ha
  rw [show f store = .ok a from hf]
  exact hnext a failures b c'' hb

lemma rows {f : RequestStore → α} {next : α → Operation Connection Raised β}
    {result : Except String (β × RequestStore)} (h : Returns (next (f store)) store result) :
    Returns (Connection.select (fun store => .ok (f store)) >>= next) store result := by
  intro failures b c'' hop
  obtain ⟨a, ⟨store', failures'⟩, ha, hb⟩ := Operation.bind_eq_ok.1 hop
  obtain ⟨hf, rfl⟩ := Connection.select_eq_ok ha
  obtain rfl := Except.ok.inj hf
  exact h failures' b c'' hb

lemma storeRequest {request : PreparedRequest} (code : String) :
    Returns (Connection.storeRequest request) store
      ((fun after => ((), after)) <$> store.updateRow request code) := by
  intro failures u c' hop
  obtain ⟨_, ⟨store', failures'⟩, hexecute, hchecked⟩ := Operation.bind_eq_ok.1 hop
  obtain rfl : store' = store := Connection.store_of_execute hexecute
  obtain ⟨_, hallows, hmodify⟩ := Operation.check_bind_eq_ok.1 hchecked
  cases hmodify
  have hallows : store'.indexAllows (rowOf request) = true := require_eq_ok.1 hallows
  simp [RequestStore.updateRow, hallows, require]

lemma insertRequest {request : PreparedRequest} (code : String) :
    Returns (Connection.insertRequest request) store
      ((fun after => ((), after)) <$> store.insertRow (rowOf request) code) := by
  intro failures u c' hop
  obtain ⟨_, ⟨store', failures'⟩, hexecute, hchecked⟩ := Operation.bind_eq_ok.1 hop
  obtain rfl : store' = store := Connection.store_of_execute hexecute
  obtain ⟨_, hallows, hmodify⟩ := Operation.check_bind_eq_ok.1 hchecked
  cases hmodify
  have hallows : (!store'.rows.any (·.requestId == (rowOf request).requestId) &&
    store'.indexAllows (rowOf request)) = true := require_eq_ok.1 hallows
  simp [RequestStore.insertRow, hallows, require]

lemma exceptIntegrity {handler : Operation Connection Raised Raised}
    {op : Operation Connection Raised α} {result : Except String (α × RequestStore)}
    (h : Returns op store result) : Returns (Connection.exceptIntegrity handler op) store result := by
  intro failures a c' hop
  rw [Connection.exceptIntegrity] at hop
  split at hop
  · split at hop <;> cases (Prod.mk.inj hop).1
  · exact h failures a c' hop

lemma replayAllowed {payloadHash : String} {excluding : Option String}
    {next : Unit → Operation Connection Raised β} {rest : Unit → Except String (β × RequestStore)}
    (hnext : Returns (next ()) store (rest ())) :
    Returns (replayAllowedBody payloadHash excluding >>= next) store
      (store.replayAllowed payloadHash excluding >>= rest) := by
  intro failures b c'' hop
  obtain ⟨_, ⟨store', failures'⟩, ha, hb⟩ := Operation.bind_eq_ok.1 hop
  obtain ⟨hallowed, rfl⟩ := replayAllowed_of_body ha
  rw [show store'.replayAllowed payloadHash excluding = .ok () from hallowed]
  exact hnext failures' b c'' hb

variable {env : Environment} {now : Instant}

lemma expireBody (request : PreparedRequest) :
    Returns (expireBody env now request) store (store.expireIfNeeded env now request) := by
  rw [Execution.expireBody, RequestStore.expireIfNeeded]
  split
  · exact .read fun expired => .bind_unit (.storeRequest _) fun store' => .pure expired
  · exact .pure request

lemma fetchCurrentBody (requestId : String) (states : List RequestState) :
    Returns (fetchCurrentBody env now requestId states) store
      (store.fetchCurrent env now requestId states) :=
  .select fun request => (expireBody request).bind fun current _ => .read fun _ => .pure current

lemma approvalCandidateBody (requestId payloadHash : String) (expectedClass : MutationClass) :
    Returns (approvalCandidateBody env now requestId payloadHash expectedClass) store
      (store.approvalCandidate env now requestId payloadHash expectedClass) :=
  .select fun request => .read fun _ => (expireBody request).bind fun current _ =>
    .read fun _ => .read fun _ => .pure current

lemma updateBody (request : PreparedRequest) :
    Returns (updateBody env request) store (do
      let changed ← updated env request
      let store ← store.updateRow changed "request_store_unavailable"
      return (changed, store)) :=
  .read fun changed => .bind_unit (.storeRequest _) fun _ => .pure changed

lemma finishBody (requestId : String) (start state : RequestState) (responseSummary : Json) :
    Returns (finishBody env requestId start state responseSummary) store (do
      let request ← store.fetch env requestId
      requireState request [start]
      let completed ← updated env { request with
        state := state
        failureReason := RequestStore.completionReason state
        responseSummary := responseSummary }
      let store ← store.updateRow completed "request_store_unavailable"
      return (completed, store)) :=
  .select fun _ => .read fun _ => updateBody _

lemma startExecutionBody (requestId : String) :
    Returns (startExecutionBody env now requestId) store
      (store.startExecution env now requestId) :=
  (fetchCurrentBody requestId [.readyToExecute]).bind fun _ _ => .replayAllowed <|
    .read fun executing => .bind_unit (.exceptIntegrity (.storeRequest _)) fun _ => .pure executing

lemma createPreviewBody (request : PreparedRequest) :
    Returns (createPreviewBody env request) store (do
      store.replayAllowed request.payloadHash none
      let awaitingConfirmation ← updated env { request with state := .awaitingConfirmation }
      let store ← store.insertRow (rowOf awaitingConfirmation) "request_already_exists"
      return (awaitingConfirmation, store)) :=
  .replayAllowed <| .read fun awaitingConfirmation =>
    .bind_unit (.exceptIntegrity (.insertRequest _)) fun _ => .pure awaitingConfirmation

lemma forEachRow {body : RequestRow → Operation Connection Raised Unit}
    {step : RequestStore → RequestRow → Except String RequestStore}
    (h : ∀ store row, Returns (body row) store ((fun after => ((), after)) <$> step store row))
    (rows : List RequestRow) :
    Returns (forEachRow body rows) store ((fun after => ((), after)) <$> rows.foldlM step store) := by
  induction rows generalizing store with
  | nil => exact .pure ()
  | cons row rows ih =>
    rw [List.foldlM_cons, map_bind]
    exact .bind_unit (h store row) fun _ => ih

lemma invalidatePendingBody (connectorId environment : Option String) (reason : String) :
    Returns (invalidatePendingBody env now connectorId environment reason) store (do
      let store ← store.expirePending env now
      let rows := store.rows.filter fun row =>
        row.state ∈ pendingStates && connectorId.all (row.connectorId == ·) &&
          environment.all (row.environment == ·)
      let store ← rows.foldlM
        (fun store row => do
          let request ← rowToRequest env row
          let failed ← updated env { request with state := .failed, failureReason := some reason }
          store.updateRow failed "request_store_unavailable")
        store
      return (rows.length, store)) := by
  refine .rows (.bind_unit (forEachRow (fun store row => ?_) _) fun _ =>
    .rows (.bind_unit (forEachRow (fun store row => ?_) _) fun _ => .pure _))
  · simp only [map_bind]
    exact .read fun request => (expireBody request).bind fun _ _ => .pure ()
  · simp only [map_bind]
    refine .read fun request => ?_
    let failed := { request with state := .failed, failureReason := some reason }
    have hfailed : Returns (do let _ ← Execution.updateBody env failed) store _ :=
      forget (updateBody failed)
    simpa only [map_eq_pure_bind, bind_assoc, pure_bind] using hfailed

end Returns

/-! ## Methods -/

section

variable (env : Environment)

/-- A call of the store with the request it returns, if any. -/
def RequestStore.perform (store : RequestStore) (c : Instant × StoreCall) :
    Except String (Option PreparedRequest × RequestStore) :=
  let returning (x : Except String (PreparedRequest × RequestStore)) :
      Except String (Option PreparedRequest × RequestStore) := (fun p => (some p.1, p.2)) <$> x
  match c.2 with
  | .createPreview prepared action => returning (store.createPreview env prepared action)
  | .get requestId => returning (store.get env c.1 requestId)
  | .approve requestId payloadHash expectedClass =>
      returning (store.approve env c.1 requestId payloadHash expectedClass)
  | .precheckApproval requestId payloadHash expectedClass =>
      returning (store.precheckApproval env c.1 requestId payloadHash expectedClass)
  | .requireReady requestId => returning (store.requireReady env c.1 requestId)
  | .invalidate requestId reason => returning (store.invalidate env c.1 requestId reason)
  | .failBeforeDispatch requestId reason responseSummary =>
      returning (store.failBeforeDispatch env c.1 requestId reason responseSummary)
  | .startExecution requestId => returning (store.startExecution env c.1 requestId)
  | .complete requestId outcome responseSummary =>
      returning (store.complete env requestId outcome responseSummary)
  | .resolveOutcomeUnknown requestId outcome responseSummary =>
      returning (store.resolveOutcomeUnknown env requestId outcome responseSummary)
  | .invalidatePending connectorId environment reason =>
      (fun p => (none, p.2)) <$> store.invalidatePending env c.1 connectorId environment reason
  | .assertReplayAllowed payloadHash => do
      store.replayAllowed payloadHash none
      return (none, store)

end

variable {env : Environment} {now : Instant} {conditions : Conditions}
  {store store' : RequestStore} {reply : StoreReply} {α β : Type}

lemma readingConnection_eq_ok {body : Operation Connection Raised α} {a : α}
    (h : readingConnection body conditions store = (.ok a, store')) :
    ∃ connection, body ⟨store, conditions.failures⟩ = (.ok a, connection) ∧ store' = store := by
  rw [readingConnection] at h
  split at h
  · cases (Prod.mk.inj h).1
  · split at h
    · cases (Prod.mk.inj h).1
    · exact ⟨_, Prod.ext (Prod.mk.inj h).1 rfl, (Prod.mk.inj h).2.symm⟩

/-- A method without checks before its transaction. -/
lemma Returns.method {body : Operation Connection Raised β} {f : β → StoreReply}
    {result : Except String (β × RequestStore)} (hbody : Returns body store result)
    (h : (f <$> repositoryLocked (immediateTransaction body) conditions) store =
      (.ok reply, store')) :
    (fun p => ((f p.1).request?, p.2)) <$> result = .ok (reply.request?, store') := by
  obtain ⟨a, hop, rfl⟩ := Operation.map_eq_ok.1 h
  obtain ⟨connection, hrun, rfl⟩ := immediateTransaction_eq_ok (repositoryLocked_eq_ok hop)
  rw [hbody _ a connection hrun]
  rfl

lemma Returns.checkedMethod {checks : RequestStore → Except String α}
    {body : α → Operation Connection Raised β} {f : β → StoreReply}
    {rest : α → Except String (β × RequestStore)} (hbody : ∀ a, Returns (body a) store (rest a))
    (h : (f <$> repositoryLocked (checkedTransaction checks body) conditions) store =
      (.ok reply, store')) :
    (fun p => ((f p.1).request?, p.2)) <$> (checks store >>= rest) =
      .ok (reply.request?, store') := by
  obtain ⟨b, hop, rfl⟩ := Operation.map_eq_ok.1 h
  obtain ⟨a, hchecks, hop⟩ := Operation.check_bind_eq_ok.1 (repositoryLocked_eq_ok hop)
  obtain ⟨connection, hrun, rfl⟩ := immediateTransaction_eq_ok hop
  rw [mapError_eq_ok.1 hchecks, show (Except.ok a >>= rest) = rest a from rfl,
    hbody a _ b connection hrun]
  rfl

lemma complete_eq {requestId outcome : String} {responseSummary : Json} :
    store.complete env requestId outcome responseSummary = (do
      let state ← knownState (RequestStore.completionState outcome) "invalid_completion_outcome"
      let request ← store.fetch env requestId
      requireState request [.executing]
      let completed ← updated env { request with
        state := state
        failureReason := RequestStore.completionReason state
        responseSummary := responseSummary }
      let store ← store.updateRow completed "request_store_unavailable"
      return (completed, store)) := by
  unfold RequestStore.complete
  cases RequestStore.completionState outcome <;> rfl

lemma resolveOutcomeUnknown_eq {requestId outcome : String} {responseSummary : Json} :
    store.resolveOutcomeUnknown env requestId outcome responseSummary = (do
      let state ← knownState (RequestStore.resolutionState outcome) "invalid_resolution_outcome"
      let request ← store.fetch env requestId
      requireState request [.outcomeUnknown]
      let resolved ← updated env { request with
        state := state
        failureReason := RequestStore.completionReason state
        responseSummary := responseSummary }
      let store ← store.updateRow resolved "request_store_unavailable"
      return (resolved, store)) := by
  unfold RequestStore.resolveOutcomeUnknown
  cases RequestStore.resolutionState outcome <;> rfl

/-- **What a method returns is what the request store says**, whatever fails around it. -/
theorem perform_of_method {c : StoreCall}
    (h : method env now c conditions store = (.ok reply, store')) :
    store.perform env (now, c) = .ok (reply.request?, store') := by
  cases c with
  | createPreview prepared action =>
    have hcreate : store.createPreview env prepared action = (do
        let request ← checkPrepared env prepared action store
        store.replayAllowed request.payloadHash none
        let awaitingConfirmation ← updated env { request with state := .awaitingConfirmation }
        let store ← store.insertRow (rowOf awaitingConfirmation) "request_already_exists"
        return (awaitingConfirmation, store)) := by
      simp only [RequestStore.createPreview, checkPrepared, bind_assoc, pure_bind]
    change (fun p => (some p.1, p.2)) <$> store.createPreview env prepared action = _
    rw [hcreate]
    exact Returns.checkedMethod .createPreviewBody h
  | get requestId => exact Returns.method (.select fun request => .expireBody request) h
  | approve requestId payloadHash expectedClass =>
    exact Returns.method ((Returns.approvalCandidateBody _ _ _).bind fun _ _ => .updateBody _) h
  | precheckApproval requestId payloadHash expectedClass =>
    exact Returns.method (.approvalCandidateBody _ _ _) h
  | requireReady requestId => exact Returns.method (.fetchCurrentBody _ _) h
  | invalidate requestId reason =>
    exact Returns.checkedMethod
      (fun _ => (Returns.fetchCurrentBody _ _).bind fun _ _ => .updateBody _) h
  | failBeforeDispatch requestId reason responseSummary =>
    exact Returns.checkedMethod
      (fun _ => (Returns.fetchCurrentBody _ _).bind fun _ _ => .updateBody _) h
  | startExecution requestId => exact Returns.method (.startExecutionBody _) h
  | complete requestId outcome responseSummary =>
    change (fun p => (some p.1, p.2)) <$> store.complete env requestId outcome responseSummary = _
    rw [complete_eq]
    exact Returns.checkedMethod (fun state => .finishBody _ _ state _) h
  | resolveOutcomeUnknown requestId outcome responseSummary =>
    change (fun p => (some p.1, p.2)) <$>
      store.resolveOutcomeUnknown env requestId outcome responseSummary = _
    rw [resolveOutcomeUnknown_eq]
    exact Returns.checkedMethod (fun state => .finishBody _ _ state _) h
  | invalidatePending connectorId environment reason =>
    have hcall : store.invalidatePending env now connectorId environment reason = _ :=
      (bind_assoc _ _ _).symm
    change (fun p => (none, p.2)) <$>
      store.invalidatePending env now connectorId environment reason = _
    rw [hcall]
    exact Returns.checkedMethod
      (fun _ => .invalidatePendingBody connectorId environment reason) h
  | assertReplayAllowed payloadHash =>
    obtain ⟨u, hop, rfl⟩ := Operation.map_eq_ok.1 h
    obtain ⟨-, -, hop⟩ := Operation.check_bind_eq_ok.1 (repositoryLocked_eq_ok hop)
    obtain ⟨connection, hallowed, hstore⟩ := readingConnection_eq_ok hop
    rw [hstore]
    have hallowed := (replayAllowed_of_body hallowed).1
    change (do store.replayAllowed payloadHash none; return (none, store)) = _
    rw [hallowed]
    rfl

/-- What a method leaves, whether it returns or raises. -/
lemma eq_or_perform_of_method {c : StoreCall} {result : Except Raised StoreReply}
    (h : method env now c conditions store = (result, store')) :
    store' = store ∨ ∃ request, store.perform env (now, c) = .ok (request, store') := by
  cases result with
  | ok reply => exact .inr ⟨_, perform_of_method h⟩
  | error raised =>
    exact ((settled_method now c).eq_or_returns h).imp_right fun ⟨_, hreply⟩ =>
      ⟨_, perform_of_method hreply⟩

/-! ## A store that works -/

section

variable {c : Connection}

lemma execute_of_works (h : c.failures.all (!·) = true) :
    Connection.execute c = (.ok (), { c with failures := c.failures.tail }) := by
  obtain ⟨store, failures⟩ := c
  cases failures with
  | nil => rfl
  | cons failed failures =>
    obtain ⟨hfailed, -⟩ : failed = false ∧ _ := by simpa using h
    rw [hfailed]
    rfl

/-- A transaction of a store that works returns what its body does. -/
lemma checkedMethod_of_works {checks : RequestStore → Except String α}
    {body : α → Operation Connection Raised β} {a : α} {b : β} (hworks : conditions.works = true)
    (hchecks : checks store = .ok a) (hbody : body a ⟨store, conditions.failures⟩ = (.ok b, c)) :
    repositoryLocked (checkedTransaction checks body) conditions.undisturbed store =
      (.ok b, c.store) := by
  simp only [Conditions.works, Bool.and_eq_true] at hworks
  obtain ⟨⟨⟨⟨hacquires, hconnects⟩, hbegins⟩, -⟩, hcommits⟩ := hworks
  cases hacquired : conditions.acquires with
  | error raised => simp [hacquired, Except.isOk, Except.toBool] at hacquires
  | ok =>
    cases hconnected : conditions.connects with
    | error raised => simp [hconnected, Except.isOk, Except.toBool] at hconnects
    | ok =>
      simp only [repositoryLocked, Conditions.undisturbed_acquires, hacquired,
        Conditions.undisturbed_releases, checkedTransaction]
      refine Eq.trans (Operation.check_bind_of_ok
        (f := fun store => (checks store).mapError Raised.valueError)
        (mapError_eq_ok.2 hchecks)) ?_
      simp [immediateTransaction, hconnected, hbegins, hcommits, hbody]

/-- Nothing but the request store refuses to complete a request. -/
lemma exists_complete_of_works {requestId outcome : String} {responseSummary : Json}
    {request : PreparedRequest} (hworks : conditions.works = true)
    (hcomplete : store.complete env requestId outcome responseSummary = .ok (request, store')) :
    ∃ reply, (method env now (.complete requestId outcome responseSummary) conditions.undisturbed
      store).1 = .ok reply := by
  have hfailures : conditions.failures.all (!·) = true := by
    simp only [Conditions.works, Bool.and_eq_true] at hworks
    exact hworks.1.2
  generalize hqueue : conditions.failures = failures at hfailures
  have htail : failures.tail.all (!·) = true := by
    cases failures with
    | nil => rfl
    | cons failed failures => exact (Bool.and_eq_true_iff.1 hfailures).2
  rw [complete_eq] at hcomplete
  simp only [bind_eq_ok, pure_eq_ok, Prod.mk.injEq] at hcomplete
  obtain ⟨state, hstate, read, hfetch, _, hrequire, completed, hupdated, after, hput, rfl, rfl⟩ :=
    hcomplete
  have hselect : Connection.select (fun store => store.fetch env requestId) ⟨store, failures⟩ =
      (.ok read, ⟨store, failures.tail⟩) :=
    Operation.bind_eq_ok.2 ⟨(), _, execute_of_works hfailures, Connection.read_eq_ok.2 ⟨hfetch, rfl⟩⟩
  have hstore : Connection.storeRequest completed ⟨store, failures.tail⟩ =
      (.ok (), ⟨after, failures.tail.tail⟩) := by
    obtain ⟨_, hallows, hafter⟩ := bind_eq_ok.1 hput
    obtain rfl := Except.ok.inj hafter
    refine Operation.bind_eq_ok.2 ⟨(), _, execute_of_works htail,
      Operation.check_bind_eq_ok.2 ⟨(), ?_, rfl⟩⟩
    rw [require_eq_ok.1 hallows]
    rfl
  have hbody : finishBody env requestId .executing state responseSummary ⟨store, failures⟩ =
      (.ok completed, ⟨after, failures.tail.tail⟩) :=
    Operation.bind_eq_ok.2 ⟨read, _, hselect, Operation.bind_eq_ok.2 ⟨(), _,
      Connection.read_eq_ok.2 ⟨hrequire, rfl⟩, Operation.bind_eq_ok.2 ⟨completed, _,
      Connection.read_eq_ok.2 ⟨hupdated, rfl⟩, Operation.bind_eq_ok.2 ⟨(), _, hstore, rfl⟩⟩⟩⟩
  exact ⟨.request completed, congrArg Prod.fst (Operation.map_eq_ok.2
    ⟨_, checkedMethod_of_works hworks hstate (hqueue ▸ hbody), rfl⟩)⟩

end

end Execution
end MercuryTools
