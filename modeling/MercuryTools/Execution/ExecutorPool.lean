import MercuryTools.Execution.ExecutorProtocol
import MercuryTools.Execution.RequestAcceptance
import MercuryTools.Execution.StoreTransactionRuns

/-!
# Executors that share a store and a ledger

Any number of executor methods run side by side over one request store and one audit ledger.
The store serialises its calls, each of which may fail before its `COMMIT` or after it, recording a
row may fail, and everything that comes from outside is arbitrary.  The trace lists what was
recorded, what could not be recorded and what was sent.

`PoolInvariant` says what every reachable pool satisfies: a request that a method has started
belongs to that method alone and is being executed until the method completes it, which a store
that works never refuses.
-/

namespace MercuryTools
namespace Execution

open Checks Programs

section

variable (env : Environment)

/-- What can be observed of the executors. -/
inductive Observation where
  | recorded (row : AuditRow)
  | unrecorded (row : AuditRow)
  | sent (requestId : String)

/-- The store, the clock and what has been observed so far. -/
structure World where
  store : RequestStore
  now : Instant
  trace : List Observation

/-- Why a method of the store that raises does so. -/
def failureKind (now : Instant) (call : StoreCall) (conditions : Conditions)
    (store : RequestStore) : FailureKind :=
  match (method env now call conditions.undisturbed store).1 with
  | .ok _ => .late
  | .error _ => if conditions.works then .refused else .unavailable

/-- How an effect is answered: only the store decides its answer. -/
inductive Happens (w : World) : (e : Effect) → Answer e → World → Prop where
  | returned (call : StoreCall) (conditions : Conditions) (reply : StoreReply)
      (store : RequestStore)
      (hcall : method env w.now call conditions w.store = (.ok reply, store)) :
      Happens w (.store call) (.ok reply.request?) { w with store := store }
  | raised (call : StoreCall) (conditions : Conditions) (raised : Raised) (store : RequestStore)
      (hcall : method env w.now call conditions w.store = (.error raised, store)) :
      Happens w (.store call) (.error ⟨raised.code, failureKind env w.now call conditions w.store⟩)
        { w with store := store }
  | recorded (row : AuditRow) :
      Happens w (.record row) true { w with trace := w.trace ++ [.recorded row] }
  | unrecorded (row : AuditRow) :
      Happens w (.record row) false { w with trace := w.trace ++ [.unrecorded row] }
  | sent (requestId : String) (outcome : SendOutcome) :
      Happens w (.send requestId) outcome { w with trace := w.trace ++ [.sent requestId] }
  | asked (query : Query) (verdict : Verdict) : Happens w (.ask query) verdict w
  | required (actionId versionId : String) (action : CatalogAction) :
      Happens w (.requireVersion actionId versionId) action w
  | read (actionId versionId : String) (outcome : ReadOutcome) :
      Happens w (.sendRead actionId versionId) outcome w
  | prepared (action : CatalogAction) (environment : String) (inputs : Json)
      (request : Except String PreparedRequest) :
      Happens w (.prepareWrite action environment inputs) request w

/-- The methods that are run. -/
inductive Entry : Exec Unit → Prop where
  | previewWrite (session : String) (action : CatalogAction) (environment : String)
      (inputs : Json) :
      Entry (do let _ ← Exec.previewWrite session action environment inputs)
  | confirmWrite (session requestId payloadHash : String) :
      Entry (do let _ ← Exec.confirmWrite session requestId payloadHash)
  | approveAndExecute (session requestId payloadHash : String) (expectedClass : MutationClass) :
      Entry (do let _ ← Exec.approveAndExecute env session requestId payloadHash expectedClass)
  | executeWrite (session requestId : String) :
      Entry (do let _ ← Exec.executeWrite env session requestId)
  | resolveUnknownWithStatus (session requestId : String) :
      Entry (do let _ ← Exec.resolveUnknownWithStatus env session requestId)

/-- What happens from outside: time passes, and clearing credentials invalidates previews. -/
inductive Outside (w : World) : World → Prop where
  | tick (now : Instant) (hlater : w.now ≤ now) : Outside w { w with now := now }
  | invalidatePending (connectorId environment : Option String) (reason : String)
      (conditions : Conditions) (result : Except Raised StoreReply) (store : RequestStore)
      (hcall : method env w.now (.invalidatePending connectorId environment reason) conditions
        w.store = (result, store)) : Outside w { w with store := store }

/-- The rules of the executors. -/
def executorRules : Rules World Effect Answer Unit where
  happens := Happens env
  entry := Entry env
  outside := Outside env

/-- The executors of a repository. -/
abbrev ExecutorPool := Pool World Effect Answer Unit

/-- No request and no running method. -/
def ExecutorPool.initial (repositoryId : String) (now : Instant) : ExecutorPool :=
  ⟨⟨RequestStore.empty repositoryId, now, []⟩, []⟩

/-- How far a task is. -/
def progress (task : Task Effect Answer Unit) : Progress :=
  executorProtocol.after task.log

end

variable {env : Environment}

/-- What a call of the store has done: it has gone through, or it has failed and changed nothing. -/
lemma Happens.store_cases {w w' : World} {call : StoreCall} {answer : Answer (.store call)}
    (h : Happens env w (.store call) answer w') :
    (committed answer = true ∧ ∃ result store, (∀ r, answer = .ok r → r = result) ∧
      w.store.perform env (w.now, call) = .ok (result, store) ∧ w' = { w with store := store }) ∨
    ∃ code conditions,
      answer = .error ⟨code, failureKind env w.now call conditions w.store⟩ ∧
        failureKind env w.now call conditions w.store ≠ .late ∧ w' = w := by
  cases h with
  | returned _ conditions reply store hcall =>
      exact .inl ⟨rfl, _, store, fun _ hr => (Except.ok.inj hr).symm, perform_of_method hcall, rfl⟩
  | raised _ conditions raised store hcall =>
      have hsettled : Settled (method env w.now call) := settled_method w.now call
      have hstore := hsettled.store conditions w.store
      rw [hcall] at hstore
      rcases hundisturbed : method env w.now call conditions.undisturbed w.store with ⟨e | reply, s⟩
      · have hsame := hsettled.raises (congrArg Prod.fst hundisturbed)
        rw [hcall] at hsame
        obtain rfl : store = w.store := hsame
        refine .inr ⟨raised.code, conditions, rfl, ?_, rfl⟩
        rw [failureKind, hundisturbed]
        dsimp only
        split_ifs <;> simp
      · rw [hundisturbed] at hstore
        obtain rfl : store = s := hstore
        have hlate : failureKind env w.now call conditions w.store = .late := by
          rw [failureKind, hundisturbed]
        rw [hlate]
        exact .inl ⟨rfl, _, store, fun _ hr => (by cases hr),
          perform_of_method hundisturbed, rfl⟩

/-! ## What the store says about a request -/

namespace RequestStore

/-- The stored status of a request. -/
def HasState (store : RequestStore) (requestId : String) (P : RequestState → Prop) : Prop :=
  ∃ row ∈ store.rows, row.request.requestId = requestId ∧ P row.request.state

variable {store : RequestStore} {requestId : String} {P Q : RequestState → Prop}

lemma Sound.eq_of_requestId (h : store.Sound env) {row other : RequestRow} (hrow : row ∈ store.rows)
    (hother : other ∈ store.rows) (hid : row.request.requestId = other.request.requestId) :
    row = other :=
  KeyedTable.eq_of_key_eq h.ids hrow hother (by rw [h.id_eq hrow, h.id_eq hother, hid])

lemma Sound.hasState_unique (h : store.Sound env) (hP : store.HasState requestId P)
    (hQ : store.HasState requestId Q) : ∃ state, P state ∧ Q state := by
  obtain ⟨row, hrow, hid, hProw⟩ := hP
  obtain ⟨other, hother, hid', hQrow⟩ := hQ
  obtain rfl := h.eq_of_requestId hrow hother (hid.trans hid'.symm)
  exact ⟨_, hProw, hQrow⟩

lemma HasState.mono (h : store.HasState requestId P) (himp : ∀ state, P state → Q state) :
    store.HasState requestId Q := by
  obtain ⟨row, hrow, hid, hP⟩ := h
  exact ⟨row, hrow, hid, himp _ hP⟩

/-- The statuses in which `execute_write` may leave a request. -/
def resolvedStates : List RequestState := [.succeeded, .failed, .outcomeUnknown]

lemma call_of_perform {store' : RequestStore} {c : Instant × StoreCall}
    {result : Option PreparedRequest} (h : store.perform env c = .ok (result, store')) :
    store.call env c = .ok store' := by
  obtain ⟨now, call⟩ := c
  cases call with
  | assertReplayAllowed payloadHash =>
      simp only [perform, bind_eq_ok, pure_eq_ok, Prod.mk.injEq] at h
      obtain ⟨_, hallowed, _, rfl⟩ := h
      simp only [RequestStore.call, bind_eq_ok, pure_eq_ok]
      exact ⟨_, hallowed, trivial⟩
  | _ =>
      obtain ⟨p, hok, heq⟩ := map_eq_ok.1 h
      exact map_eq_ok.2 ⟨p, hok, congrArg Prod.snd heq⟩

end RequestStore

variable {store store' : RequestStore} {c : Instant × StoreCall} {requestId : String}

/-- What became of a row. -/
lemma StoreChange.exists_row (h : StoreChange env store c store') {row : RequestRow}
    (hrow : row ∈ store.rows) :
    ∃ row' ∈ store'.rows, row' = row ∨ RowChange env store c row row' := by
  cases h with
  | created request hrows hvalid hfresh hstate hcount =>
      exact ⟨row, by rw [hrows]; exact List.mem_append_left _ hrow, .inl rfl⟩
  | changed hrows => exact KeyedTable.exists_of_forall₂ hrows.flip hrow

/-- A status that the call does not change stays. -/
lemma StoreChange.hasState (h : StoreChange env store c store') {P : RequestState → Prop}
    (hmoves : ∀ r r', r.requestId = requestId → P r.state → Moves store c r r' → P r'.state)
    (hP : store.HasState requestId P) : store'.HasState requestId P := by
  obtain ⟨row, hrow, hid, hProw⟩ := hP
  obtain ⟨row', hrow', rfl | hchange⟩ := h.exists_row hrow
  · exact ⟨row', hrow', hid, hProw⟩
  · exact ⟨row', hrow', (congrArg Preview.requestId hchange.preview).trans hid,
      hmoves _ _ hid hProw hchange.moves⟩

/-- A request that is being executed stays so until it is completed. -/
lemma StoreChange.hasState_executing (h : StoreChange env store c store')
    (hcall : ∀ outcome summary, c.2 ≠ .complete requestId outcome summary)
    (hP : store.HasState requestId (· = .executing)) :
    store'.HasState requestId (· = .executing) := by
  refine h.hasState (fun r r' hid hexecuting hmoves => ?_) hP
  cases hmoves with
  | fail hpending => simp [hexecuting, pendingStates] at hpending
  | approve _ _ hawaiting => simp [hexecuting] at hawaiting
  | start _ hready => simp [hexecuting] at hready
  | complete hcomplete =>
      obtain ⟨outcome, summary, hcomplete⟩ := hcomplete
      exact absurd (hid ▸ hcomplete) (hcall outcome summary)
  | resolve _ hunknown => simp [hexecuting] at hunknown

lemma StoreChange.hasState_resolved (h : StoreChange env store c store')
    (hP : store.HasState requestId (· ∈ RequestStore.resolvedStates)) :
    store'.HasState requestId (· ∈ RequestStore.resolvedStates) := by
  refine h.hasState (fun r r' _ hresolved hmoves => ?_) hP
  cases hmoves with
  | fail _ hstate => simp [hstate, RequestStore.resolvedStates]
  | approve _ _ hawaiting => simp [hawaiting, RequestStore.resolvedStates] at hresolved
  | start _ hready => simp [hready, RequestStore.resolvedStates] at hresolved
  | complete _ _ hstate => exact hstate
  | resolve _ _ hstate =>
      simp only [List.mem_cons, List.not_mem_nil, or_false] at hstate
      rcases hstate with hstate | hstate <;> simp [hstate, RequestStore.resolvedStates]

lemma StoreChange.hasState_failed (h : StoreChange env store c store')
    (hP : store.HasState requestId (· = .failed)) : store'.HasState requestId (· = .failed) := by
  refine h.hasState (fun r r' _ hfailed hmoves => ?_) hP
  cases hmoves with
  | fail _ hstate => exact hstate
  | approve _ _ hawaiting => simp [hfailed] at hawaiting
  | start _ hready => simp [hfailed] at hready
  | complete _ hexecuting => simp [hfailed] at hexecuting
  | resolve _ hunknown => simp [hfailed] at hunknown

namespace RequestStore

/-! ## What the calls of a dispatch do -/

variable {store store' : RequestStore} {requestId outcome : String} {row : RequestRow}
  {request : PreparedRequest} {P : RequestState → Prop} {now : Instant}
  {result : Option PreparedRequest} {responseSummary : Json}

lemma Reads.hasState (h : Reads store requestId row request) (hsound : store.Sound env)
    (hP : P request.state) : store.HasState requestId P :=
  ⟨row, h.mem, h.requestId_eq hsound, h.same.state ▸ hP⟩

/-- The row of an updated request. -/
lemma Reads.hasState_updateRow {changed new : PreparedRequest}
    (h : Reads store requestId row request) (hupdated : updated env changed = .ok new)
    {code : String} (hput : store.updateRow new code = .ok store')
    (hpreview : changed.toPreview = request.toPreview) (hP : P changed.state)
    (hsound : store.Sound env) : store'.HasState requestId P ∧ new.requestId = requestId := by
  obtain ⟨hsame, -, -⟩ := updated_ok hupdated
  have hid : new.requestId = requestId := by
    rw [show new.requestId = row.request.requestId from
      congrArg Preview.requestId (hsame.preview.trans (hpreview.trans h.same.preview))]
    exact h.requestId_eq hsound
  refine ⟨⟨rowOf new, ?_, hid, hsame.state ▸ hP⟩, hid⟩
  rw [updateRow_ok hput]
  exact KeyedTable.mem_put_self h.mem (h.id_eq.trans hid.symm)

lemma Sound.perform_approve (h : store.Sound env) {payloadHash : String}
    {expectedClass : MutationClass}
    (hcall : store.perform env (now, .approve requestId payloadHash expectedClass) =
      .ok (result, store')) :
    ∃ request, result = some request ∧ request.requestId = requestId ∧
      store.HasState requestId (· = .awaitingConfirmation) := by
  obtain ⟨⟨request, _⟩, hok, heq⟩ := map_eq_ok.1 hcall
  cases heq
  simp only [approve, bind_eq_ok, pure_eq_ok, Prod.exists, Prod.mk.injEq] at hok
  obtain ⟨read, store₁, hcandidate, approved, hupdated, store₂, hput, rfl, rfl⟩ := hok
  obtain ⟨rfl, hstate, -, -, -, row, hrow⟩ := h.approvalCandidate_ok hcandidate
  exact ⟨_, rfl, (hrow.hasState_updateRow hupdated hput rfl rfl h).2, hrow.hasState h hstate⟩

lemma Sound.perform_startExecution (h : store.Sound env)
    (hcall : store.perform env (now, .startExecution requestId) = .ok (result, store')) :
    ∃ request, result = some request ∧ request.requestId = requestId ∧
      store.HasState requestId (· = .readyToExecute) ∧
      store'.HasState requestId (· = .executing) := by
  obtain ⟨⟨request, _⟩, hok, heq⟩ := map_eq_ok.1 hcall
  cases heq
  simp only [startExecution, bind_eq_ok, pure_eq_ok, Prod.exists, Prod.mk.injEq] at hok
  obtain ⟨read, current, hfetch, _, -, executing, hupdated, store₁, hput, rfl, rfl⟩ := hok
  obtain ⟨rfl, hstate, -, row, hrow⟩ := h.fetchCurrent_ok (by simp [pendingStates]) hfetch
  obtain ⟨hexecuting, hid⟩ :=
    hrow.hasState_updateRow (P := (· = .executing)) hupdated hput rfl rfl h
  exact ⟨_, rfl, hid, hrow.hasState h (List.mem_singleton.1 hstate), hexecuting⟩

lemma Sound.perform_invalidate (h : store.Sound env) {reason : String}
    (hcall : store.perform env (now, .invalidate requestId reason) = .ok (result, store')) :
    store'.HasState requestId (· = .failed) := by
  obtain ⟨⟨request, _⟩, hok, heq⟩ := map_eq_ok.1 hcall
  cases heq
  simp only [invalidate, bind_eq_ok, pure_eq_ok, Prod.exists, Prod.mk.injEq] at hok
  obtain ⟨-, -, read, current, hfetch, failed, hupdated, store₁, hput, rfl, rfl⟩ := hok
  obtain ⟨rfl, -, -, row, hrow⟩ := h.fetchCurrent_ok (fun _ => id) hfetch
  exact (hrow.hasState_updateRow (P := (· = .failed)) hupdated hput rfl rfl h).1

lemma Sound.perform_complete (h : store.Sound env)
    (hcall : store.perform env (now, .complete requestId outcome responseSummary) =
      .ok (result, store')) : store'.HasState requestId (· ∈ resolvedStates) := by
  obtain ⟨⟨request, _⟩, hok, heq⟩ := map_eq_ok.1 hcall
  cases heq
  change store.complete env requestId outcome responseSummary = _ at hok
  rw [complete] at hok
  split at hok
  · cases hok
  · rename_i state houtcome
    simp only [bind_eq_ok, pure_eq_ok, Prod.mk.injEq] at hok
    obtain ⟨read, hread, -, -, completed, hupdated, store₁, hput, rfl, rfl⟩ := hok
    obtain ⟨row, hrow⟩ := fetch_ok hread
    refine (hrow.hasState_updateRow hupdated hput rfl ?_ h).1
    simp only [completionState] at houtcome
    split_ifs at houtcome <;> simp_all [resolvedStates]

/-- A store that works completes a request that is being executed. -/
lemma Sound.failureKind_complete (h : store.Sound env) (hsafe : ReplaySafe store)
    (hstate : store.HasState requestId (· = .executing)) (houtcome : completionState outcome ≠ none)
    (hresponse : responseSummary.isObj = true) (conditions : Conditions) :
    failureKind env now (.complete requestId outcome responseSummary) conditions store ≠
      .refused := by
  obtain ⟨row, hrow, hid, hexecuting⟩ := hstate
  obtain ⟨state, hstate⟩ := Option.ne_none_iff_exists'.1 houtcome
  obtain ⟨request, store', hok⟩ := h.complete_accepted hsafe hrow hexecuting hstate hresponse
  rw [h.id_eq hrow, hid] at hok
  intro hrefused
  rw [failureKind] at hrefused
  split at hrefused
  · cases hrefused
  · rename_i raised hraised
    split_ifs at hrefused with hworks
    obtain ⟨reply, hreturned⟩ : ∃ reply, (method env now _ conditions.undisturbed store).1 =
      .ok reply := exists_complete_of_works hworks hok
    rw [hreturned] at hraised
    cases hraised

end RequestStore

end Execution
end MercuryTools
