import MercuryTools.Execution.RequestStore

/-!
# What a call does to the stored requests

`RowChange` says once what an accepted call may do to a stored request: fail it while it is
pending, approve it, start it, complete it or resolve it.  `StoreChange` is one accepted call:
it adds a request that awaits confirmation, or it leaves every row as it was or changes it by a
`RowChange`.  The lifecycle and the replay safety of whole runs follow from
`RequestStore.call_change` alone.
-/

namespace MercuryTools
namespace Execution

open Checks CallSystem

variable {env : Environment}

/-! ## Reading -/

lemma withCode_eq_ok {α : Type} {code : String} {x : Except String α} {a : α} :
    withCode code x = .ok a ↔ x = .ok a := by
  cases x <;> simp [withCode, Except.mapError]

/-- Validation only projects the two summaries. -/
structure SameStatus (request request' : PreparedRequest) : Prop where
  preview : request'.toPreview = request.toPreview
  approval_count : request'.approvalCount = request.approvalCount
  state : request'.state = request.state
  failure_reason : request'.failureReason = request.failureReason

/-- A request that validates. -/
def PreparedRequest.Valid (env : Environment) (request : PreparedRequest) : Prop :=
  ∃ request', request.validate env = .ok request'

lemma sanitizePublicData_ok {value sanitized : Json} {allowlist : List String}
    (h : sanitizePublicData env value allowlist = .ok sanitized) :
    value.isObj = true ∧ sanitized.isObj = true := by
  simp only [sanitizePublicData, bind_eq_ok, require_eq_ok, pure_eq_ok] at h
  obtain ⟨-, hobj, rfl⟩ := h
  cases value <;> simp_all [Json.isObj, redactPublicValue]

variable (env) in
lemma sanitizePublicData_of_isObj {value : Json} (allowlist : List String)
    (h : value.isObj = true) : ∃ sanitized, sanitizePublicData env value allowlist = .ok sanitized :=
  ⟨redactPublicValue env allowlist value, by simp [sanitizePublicData, h]⟩

variable {request request' : PreparedRequest} {row row' : RequestRow} {store store' : RequestStore}
  {c : Instant × StoreCall}

/-- What a successful validation says about a request. -/
lemma PreparedRequest.validate_ok (h : request.validate env = .ok request') :
    SameStatus request request' ∧ validStateFields request' = true ∧
      request'.sanitizedSummary.isObj = true ∧ request'.responseSummary.isObj = true := by
  simp only [PreparedRequest.validate, bind_eq_ok, require_eq_ok, pure_eq_ok] at h
  obtain ⟨-, -, -, -, -, -, -, -, -, -, -, -, _, -, -, -, -, -, -, -, -, -, -, -, -, -, -, -, _, -,
    -, hstate, -, -, -, -, _, hsummary, _, hresponse, rfl⟩ := h
  exact ⟨⟨rfl, rfl, rfl, rfl⟩, hstate, (sanitizePublicData_ok hsummary).2,
    (sanitizePublicData_ok hresponse).2⟩

/-- A request with the preview of a valid one is valid where its status fields are. -/
lemma PreparedRequest.Valid.of_preview {changed : PreparedRequest} (h : request.Valid env)
    (hpreview : changed.toPreview = request.toPreview) (hstate : validStateFields changed = true)
    (hcount : changed.approvalCount ∈ [0, 1]) (hreason : changed.failureReason.all isReason = true)
    (hsummary : changed.sanitizedSummary.isObj = true)
    (hresponse : changed.responseSummary.isObj = true) : changed.Valid env := by
  obtain ⟨request', h⟩ := h
  obtain ⟨preview, summary, count, state, reason, response⟩ := request
  obtain ⟨_, summary', count', state', reason', response'⟩ := changed
  cases hpreview
  obtain ⟨sanitized, hsanitized⟩ :=
    sanitizePublicData_of_isObj env previewSummaryKeys hsummary
  obtain ⟨sanitized', hsanitized'⟩ :=
    sanitizePublicData_of_isObj env responseSummaryKeys hresponse
  simp only [PreparedRequest.validate, bind_eq_ok, require_eq_ok, pure_eq_ok] at h
  obtain ⟨_, h1, _, -, _, h2, _, h3, _, h4, _, h5, rendered, h6, _, h7, _, h8, _, h9, _, h10, _, h11,
    _, h12, _, -, _, h13, _, -, _, h14, _, h15, -⟩ := h
  refine ⟨⟨preview, sanitized, count', state', reason', sanitized'⟩, ?_⟩
  simp only [PreparedRequest.validate, bind_eq_ok, require_eq_ok, pure_eq_ok]
  exact ⟨(), h1, (), decide_eq_true hcount, (), h2, (), h3, (), h4, (), h5, rendered, h6, (), h7,
    (), h8, (), h9, (), h10, (), h11, (), h12, (), hreason, (), h13, (), hstate, (), h14, (), h15,
    sanitized, hsanitized, sanitized', hsanitized', rfl⟩

/-- What validation returns is valid itself. -/
lemma PreparedRequest.valid_of_validate (h : request.validate env = .ok request') :
    request'.Valid env := by
  obtain ⟨hsame, hstate, hsummary, hresponse⟩ := PreparedRequest.validate_ok h
  have hvalid : request.Valid env := ⟨request', h⟩
  simp only [PreparedRequest.validate, bind_eq_ok, require_eq_ok, pure_eq_ok] at h
  obtain ⟨-, -, -, hcount, -, -, -, -, -, -, -, -, _, -, -, -, -, -, -, -, -, -, -, -, -, -, -, hreason,
    -⟩ := h
  refine hvalid.of_preview hsame.preview hstate ?_ ?_ hsummary hresponse
  · rw [hsame.approval_count]
    exact of_decide_eq_true hcount
  · rw [hsame.failure_reason]
    exact hreason

lemma rowToRequest_ok (h : rowToRequest env row = .ok request) :
    SameStatus row.request request ∧ validStateFields request = true := by
  simp only [rowToRequest, withCode_eq_ok, bind_eq_ok, require_eq_ok, pure_eq_ok, Bool.and_eq_true,
    beq_iff_eq] at h
  obtain ⟨validated, hvalid, -, -, rfl⟩ := h
  exact ⟨(PreparedRequest.validate_ok hvalid).1, (PreparedRequest.validate_ok hvalid).2.1⟩

/-! ## Changes of one request -/

/-- The statuses a request may move to. -/
def requestTransitions : RequestState → List RequestState
  | .previewed => [.awaitingConfirmation, .failed]
  | .awaitingConfirmation => [.readyToExecute, .failed]
  | .readyToExecute => [.executing, .failed]
  | .executing => [.succeeded, .failed, .outcomeUnknown]
  | .outcomeUnknown => [.succeeded, .failed]
  | .succeeded => []
  | .failed => []

/-- What the call `c` may do to the request `r` of a store. -/
inductive Moves (store : RequestStore) (c : Instant × StoreCall) (r r' : PreparedRequest) :
    Prop where
  | fail (hpending : r.state ∈ pendingStates) (hstate : r'.state = .failed)
      (hcount : r'.approvalCount = r.approvalCount)
  | approve (hcall : c.2 = .approve r.requestId r.payloadHash r.mutationClass)
      (htime : c.1 < r.expiresAt) (hawaiting : r.state = .awaitingConfirmation)
      (hstate : r'.state = .readyToExecute) (hcount : r'.approvalCount = 1)
  | start (hcall : c.2 = .startExecution r.requestId)
      (hready : r.state = .readyToExecute) (hcount : r.approvalCount = 1)
      (hfree : ∀ other ∈ store.rows, other.payloadHash = r.payloadHash →
        other.state ∈ replayBlockingStates → other.requestId = r.requestId)
      (hstate : r'.state = .executing) (hcount' : r'.approvalCount = 1)
  | complete (hcall : ∃ outcome summary, c.2 = .complete r.requestId outcome summary)
      (hexecuting : r.state = .executing)
      (hstate : r'.state ∈ [.succeeded, .failed, .outcomeUnknown])
      (hcount : r'.approvalCount = r.approvalCount)
  | resolve (hcall : ∃ outcome summary, c.2 = .resolveOutcomeUnknown r.requestId outcome summary)
      (hunknown : r.state = .outcomeUnknown) (hstate : r'.state ∈ [.succeeded, .failed])
      (hcount : r'.approvalCount = r.approvalCount)

structure RowChange (env : Environment) (store : RequestStore) (c : Instant × StoreCall)
    (row row' : RequestRow) : Prop where
  stored : row' = rowOf row'.request
  valid : row'.request.Valid env
  preview : row'.request.toPreview = row.request.toPreview
  moves : Moves store c row.request row'.request

/-- What holds of the table in every run. -/
structure RequestStore.Sound (env : Environment) (store : RequestStore) : Prop where
  ids : (store.rows.map (·.requestId)).Nodup
  columns : ∀ row ∈ store.rows, row = rowOf row.request
  valid : ∀ row ∈ store.rows, row.request.Valid env

/-- One accepted call. -/
inductive StoreChange (env : Environment) (store : RequestStore) (c : Instant × StoreCall)
    (store' : RequestStore) : Prop where
  | created (request : PreparedRequest) (hrows : store'.rows = store.rows ++ [rowOf request])
      (hvalid : request.Valid env)
      (hfresh : ∀ row ∈ store.rows, row.requestId ≠ request.requestId)
      (hstate : request.state = .awaitingConfirmation) (hcount : request.approvalCount = 0)
  | changed (hrows : List.Forall₂ (fun row row' => row' = row ∨ RowChange env store c row row')
      store.rows store'.rows)

lemma RowChange.id_eq (h : RowChange env store c row row') (hrow : row = rowOf row.request) :
    row'.requestId = row.requestId := by
  rw [h.stored, hrow]
  exact congrArg Preview.requestId h.preview

/-- A pending request that failed, with what else is stored for it unchanged. -/
structure FailsPending (env : Environment) (row row' : RequestRow) : Prop where
  stored : row' = rowOf row'.request
  valid : row'.request.Valid env
  preview : row'.request.toPreview = row.request.toPreview
  pending : row.request.state ∈ pendingStates
  failed : row'.request.state = .failed
  approval_count : row'.request.approvalCount = row.request.approvalCount

lemma FailsPending.rowChange (h : FailsPending env row row') : RowChange env store c row row' :=
  ⟨h.stored, h.valid, h.preview, .fail h.pending h.failed h.approval_count⟩

/-- A row as it was, or failed while it was pending. -/
def MayFail (env : Environment) (row row' : RequestRow) : Prop :=
  row' = row ∨ FailsPending env row row'

/-- A failed request is not pending, so no second failure follows. -/
lemma MayFail.trans {row'' : RequestRow} (h : MayFail env row row') (h' : MayFail env row' row'') :
    MayFail env row row'' := by
  rcases h with rfl | h
  · exact h'
  · rcases h' with rfl | h'
    · exact .inr h
    · have hpending := h'.pending
      rw [h.failed] at hpending
      simp [pendingStates] at hpending

lemma MayFail.id_eq (h : MayFail env row row') (hrow : row = rowOf row.request) :
    row'.requestId = row.requestId := by
  rcases h with rfl | h
  · rfl
  · rw [h.stored, hrow]
    exact congrArg Preview.requestId h.preview

lemma MayFail.change (h : List.Forall₂ (MayFail env) store.rows store'.rows)
    (c : Instant × StoreCall) : StoreChange env store c store' :=
  .changed (h.imp fun _ _ => Or.imp_right FailsPending.rowChange)

namespace RequestStore

variable {store : RequestStore} {row : RequestRow}

lemma Sound.state_eq (h : store.Sound env) (hrow : row ∈ store.rows) :
    row.state = row.request.state := by
  rw [h.columns row hrow]
  rfl

lemma Sound.id_eq (h : store.Sound env) (hrow : row ∈ store.rows) :
    row.requestId = row.request.requestId := by
  rw [h.columns row hrow]
  rfl

lemma Sound.hash_eq (h : store.Sound env) (hrow : row ∈ store.rows) :
    row.payloadHash = row.request.payloadHash := by
  rw [h.columns row hrow]
  rfl

end RequestStore

/-- A change keeps the identifiers apart and the columns in step with the requests. -/
lemma StoreChange.sound (h : StoreChange env store c store') (hsound : store.Sound env) :
    store'.Sound env := by
  cases h with
  | created request hrows hvalid hfresh hstate hcount =>
      refine ⟨?_, ?_, ?_⟩
      · rw [hrows, List.map_append, List.nodup_append]
        refine ⟨hsound.ids, by simp, fun a ha b hb => ?_⟩
        obtain ⟨row, hrow, rfl⟩ := List.mem_map.1 ha
        simp only [List.map_cons, List.map_nil, List.mem_singleton] at hb
        rw [hb]
        exact hfresh row hrow
      · rw [hrows]
        intro row hrow
        rcases List.mem_append.1 hrow with hrow | hrow
        · exact hsound.columns row hrow
        · rw [List.mem_singleton] at hrow
          rw [hrow]
          rfl
      · rw [hrows]
        intro row hrow
        rcases List.mem_append.1 hrow with hrow | hrow
        · exact hsound.valid row hrow
        · rw [List.mem_singleton] at hrow
          rw [hrow]
          exact hvalid
  | changed hrows =>
      refine ⟨?_, ?_, ?_⟩
      · have hids : store'.rows.map (·.requestId) = store.rows.map (·.requestId) := by
          refine KeyedTable.map_eq_of_forall₂ hrows fun row row' hrow hchange => ?_
          rcases hchange with rfl | hchange
          · rfl
          · exact hchange.id_eq (hsound.columns row hrow)
        rw [hids]
        exact hsound.ids
      · intro row' hrow'
        obtain ⟨row, hrow, hchange⟩ := KeyedTable.exists_of_forall₂ hrows hrow'
        rcases hchange with rfl | hchange
        · exact hsound.columns row' hrow
        · exact hchange.stored
      · intro row' hrow'
        obtain ⟨row, hrow, hchange⟩ := KeyedTable.exists_of_forall₂ hrows hrow'
        rcases hchange with rfl | hchange
        · exact hsound.valid row' hrow
        · exact hchange.valid

/-! ## The steps the methods share -/

lemma updated_ok (h : updated env request = .ok request') :
    SameStatus request request' ∧ validStateFields request' = true ∧ request'.Valid env := by
  rw [updated, withCode_eq_ok] at h
  exact ⟨(PreparedRequest.validate_ok h).1, (PreparedRequest.validate_ok h).2.1,
    PreparedRequest.valid_of_validate h⟩

/-- A request that is ready or being executed has been approved once. -/
lemma approvalCount_of_validStateFields (h : validStateFields request = true)
    (hstate : request.state ∈ [.readyToExecute, .executing]) : request.approvalCount = 1 := by
  simp only [List.mem_cons, List.not_mem_nil, or_false] at hstate
  rcases hstate with hstate | hstate <;> simp_all [validStateFields]

/-- A request that awaits confirmation has not been approved. -/
lemma approvalCount_of_awaiting (h : validStateFields request = true)
    (hstate : request.state = .awaitingConfirmation) : request.approvalCount = 0 := by
  simp_all [validStateFields]

namespace RequestStore

/-- A request as a method reads it. -/
structure Reads (store : RequestStore) (requestId : String) (row : RequestRow)
    (request : PreparedRequest) : Prop where
  mem : row ∈ store.rows
  id_eq : row.requestId = requestId
  same : SameStatus row.request request
  fields : validStateFields request = true

variable {store store' current : RequestStore} {requestId code payloadHash reason outcome : String}
  {row : RequestRow} {request changed failed : PreparedRequest} {c : Instant × StoreCall}
  {now : Instant} {states : List RequestState} {expectedClass : MutationClass}
  {responseSummary : Json}

lemma Reads.requestId_eq (h : Reads store requestId row request) (hsound : store.Sound env) :
    row.request.requestId = requestId := by
  rw [← hsound.id_eq h.mem, h.id_eq]

lemma fetch_ok (h : store.fetch env requestId = .ok request) :
    ∃ row, Reads store requestId row request := by
  rw [RequestStore.fetch] at h
  split at h
  · cases h
  · rename_i row hrow
    exact ⟨row, List.mem_of_find?_eq_some hrow, by simpa using List.find?_some hrow,
      (rowToRequest_ok h).1, (rowToRequest_ok h).2⟩

lemma updateRow_ok (h : store.updateRow request code = .ok store') :
    store'.rows = KeyedTable.put (·.requestId) store.rows (rowOf request) := by
  simp only [updateRow, bind_eq_ok, require_eq_ok, pure_eq_ok] at h
  obtain ⟨-, -, rfl⟩ := h
  rfl

/-- Updating the row of one request is a change of that row. -/
lemma Sound.change_ok (h : store.Sound env) (hrow : row ∈ store.rows) {new : PreparedRequest}
    (hupdated : updated env changed = .ok new) (hput : store.updateRow new code = .ok store')
    (hpreview : changed.toPreview = row.request.toPreview)
    (hmoves : SameStatus changed new → Moves store c row.request new) :
    StoreChange env store c store' := by
  obtain ⟨hsame, -, hvalid⟩ := updated_ok hupdated
  refine .changed ?_
  rw [updateRow_ok hput]
  refine KeyedTable.forall₂_put (fun row row' hmem hchange => ?_)
    (List.forall₂_same.2 fun _ _ => .inl rfl) h.ids hrow
    (.inr ⟨rfl, hvalid, hsame.preview.trans hpreview, hmoves hsame⟩)
  rcases hchange with rfl | hchange
  · rfl
  · exact hchange.id_eq (h.columns row hmem)

/-- Failing a pending request, after others of the same table may have failed. -/
lemma Sound.fail_ok (h : store.Sound env)
    (hcurrent : List.Forall₂ (MayFail env) store.rows current.rows) (hrow : row ∈ store.rows)
    (hsame : SameStatus row.request request) (hpending : request.state ∈ pendingStates)
    (hupdated : updated env changed = .ok failed)
    (hput : current.updateRow failed code = .ok store')
    (hpreview : changed.toPreview = request.toPreview) (hstate : changed.state = .failed)
    (hcount : changed.approvalCount = request.approvalCount) :
    List.Forall₂ (MayFail env) store.rows store'.rows ∧ failed.state = .failed := by
  obtain ⟨hfailed, -, hvalid⟩ := updated_ok hupdated
  refine ⟨?_, hfailed.state.trans hstate⟩
  rw [updateRow_ok hput]
  refine KeyedTable.forall₂_put (fun row row' hmem hchange => hchange.id_eq (h.columns row hmem))
    hcurrent h.ids hrow (.inr ⟨rfl, hvalid, ?_, ?_, ?_, ?_⟩)
  · exact hfailed.preview.trans (hpreview.trans hsame.preview)
  · rw [← hsame.state]
    exact hpending
  · exact hfailed.state.trans hstate
  · exact hfailed.approval_count.trans (hcount.trans hsame.approval_count)

/-- Expiry leaves a request whose time is not over, and fails the others that are pending. -/
lemma Sound.expireIfNeeded_ok (h : store.Sound env)
    (hcurrent : List.Forall₂ (MayFail env) store.rows current.rows) (hrow : row ∈ store.rows)
    {request' : PreparedRequest} (hsame : SameStatus row.request request)
    (hexpire : current.expireIfNeeded env now request = .ok (request', store')) :
    (request' = request ∧ store' = current ∧
        (request.state ∈ pendingStates → now < request.expiresAt)) ∨
      (request'.state = .failed ∧ List.Forall₂ (MayFail env) store.rows store'.rows) := by
  rw [expireIfNeeded] at hexpire
  split at hexpire
  · rename_i hover
    simp only [bind_eq_ok, pure_eq_ok, Prod.mk.injEq] at hexpire
    obtain ⟨failed, hupdated, updatedStore, hput, rfl, rfl⟩ := hexpire
    obtain ⟨hrows, hfailed⟩ := h.fail_ok hcurrent hrow hsame hover.1 hupdated hput rfl rfl rfl
    exact .inr ⟨hfailed, hrows⟩
  · rename_i hin
    obtain ⟨rfl, rfl⟩ := hexpire
    refine .inl ⟨rfl, rfl, fun hpending => ?_⟩
    unfold Instant at *
    by_contra hlt
    exact hin ⟨hpending, by omega⟩

/-- A method that goes on after reading a pending request has not expired it. -/
lemma Sound.fetchCurrent_ok (h : store.Sound env) (hstates : ∀ s ∈ states, s ∈ pendingStates)
    (hfetch : store.fetchCurrent env now requestId states = .ok (request, store')) :
    store' = store ∧ request.state ∈ states ∧ now < request.expiresAt ∧
      ∃ row, Reads store requestId row request := by
  simp only [fetchCurrent, requireState, bind_eq_ok, require_eq_ok, pure_eq_ok, Prod.exists,
    Prod.mk.injEq, decide_eq_true_eq] at hfetch
  obtain ⟨read, hread, current, store, hexpire, -, hstate, rfl, rfl⟩ := hfetch
  obtain ⟨row, hrow⟩ := fetch_ok hread
  rcases h.expireIfNeeded_ok (List.forall₂_same.2 fun _ _ => .inl rfl) hrow.mem hrow.same hexpire
    with ⟨rfl, rfl, htime⟩ | ⟨hfailed, -⟩
  · exact ⟨rfl, hstate, htime (hstates _ hstate), row, hrow⟩
  · have hpending := hstates _ hstate
    rw [hfailed] at hpending
    simp [pendingStates] at hpending

lemma Sound.approvalCandidate_ok (h : store.Sound env)
    (hcandidate : store.approvalCandidate env now requestId payloadHash expectedClass =
      .ok (request, store')) :
    store' = store ∧ request.state = .awaitingConfirmation ∧ now < request.expiresAt ∧
      payloadHash = request.payloadHash ∧ expectedClass = request.mutationClass ∧
      ∃ row, Reads store requestId row request := by
  simp only [approvalCandidate, requireState, bind_eq_ok, require_eq_ok, pure_eq_ok, Prod.exists,
    Prod.mk.injEq, decide_eq_true_eq, beq_iff_eq, List.mem_singleton] at hcandidate
  obtain ⟨read, hread, -, hhash, current, store, hexpire, -, hstate, -, hclass, rfl, rfl⟩ :=
    hcandidate
  obtain ⟨row, hrow⟩ := fetch_ok hread
  rcases h.expireIfNeeded_ok (List.forall₂_same.2 fun _ _ => .inl rfl) hrow.mem hrow.same hexpire
    with ⟨rfl, rfl, htime⟩ | ⟨hfailed, -⟩
  · refine ⟨rfl, hstate, htime ?_, hhash, hclass.symm, row, hrow⟩
    simp [hstate, pendingStates]
  · rw [hstate] at hfailed
    cases hfailed

/-! ## The methods -/

lemma createPreview_change {prepared : PreparedRequest} {action : CatalogAction}
    (h : store.createPreview env prepared action = .ok (request, store')) :
    StoreChange env store c store' := by
  simp only [createPreview, insertRow, bind_eq_ok, require_eq_ok, pure_eq_ok, Prod.mk.injEq,
    Bool.and_eq_true, Bool.not_eq_true', List.any_eq_false, beq_iff_eq] at h
  obtain ⟨validated, _, _, _, _, _, _, _, _, _, awaiting, hawaiting, inserted,
    ⟨_, ⟨hfresh, _⟩, rfl⟩, rfl, rfl⟩ := h
  obtain ⟨hsame, hfields, hvalid⟩ := updated_ok hawaiting
  refine .created awaiting rfl hvalid ?_ hsame.state (approvalCount_of_awaiting hfields hsame.state)
  intro row hrow
  simpa [rowOf] using hfresh row hrow

lemma Sound.get_change (h : store.Sound env)
    (hget : store.get env now requestId = .ok (request, store')) : StoreChange env store c store' := by
  simp only [get, bind_eq_ok] at hget
  obtain ⟨read, hread, hexpire⟩ := hget
  obtain ⟨row, hrow⟩ := fetch_ok hread
  have hrefl : List.Forall₂ (MayFail env) store.rows store.rows := List.forall₂_same.2 fun _ _ => .inl rfl
  rcases h.expireIfNeeded_ok hrefl hrow.mem hrow.same hexpire with ⟨-, rfl, -⟩ | ⟨-, hrows⟩
  · exact MayFail.change hrefl c
  · exact MayFail.change hrows c

lemma Sound.approve_change (h : store.Sound env)
    (happrove : store.approve env now requestId payloadHash expectedClass = .ok (request, store')) :
    StoreChange env store (now, .approve requestId payloadHash expectedClass) store' := by
  simp only [approve, bind_eq_ok, pure_eq_ok, Prod.exists, Prod.mk.injEq] at happrove
  obtain ⟨read, store₁, hcandidate, approved, hupdated, store₂, hput, rfl, rfl⟩ := happrove
  obtain ⟨rfl, hstate, htime, rfl, rfl, row, hrow⟩ := h.approvalCandidate_ok hcandidate
  have hpreview : read.toPreview = row.request.toPreview := hrow.same.preview
  refine h.change_ok hrow.mem hupdated hput hpreview fun hsame => ?_
  refine .approve ?_ ?_ ?_ hsame.state hsame.approval_count
  · rw [hrow.requestId_eq h, ← congrArg Preview.payloadHash hpreview,
      ← congrArg (·.mutationClass) (congrArg Preview.toRequestBinding hpreview)]
  · rw [← congrArg Preview.expiresAt hpreview]
    exact htime
  · rw [← hrow.same.state]
    exact hstate

/-- Failing a request a method has read. -/
lemma Sound.failCurrent_change (h : store.Sound env) (hstates : ∀ s ∈ states, s ∈ pendingStates)
    (hfetch : store.fetchCurrent env now requestId states = .ok (request, current))
    (hupdated : updated env changed = .ok failed)
    (hput : current.updateRow failed code = .ok store')
    (hpreview : changed.toPreview = request.toPreview) (hstate : changed.state = .failed)
    (hcount : changed.approvalCount = request.approvalCount) : StoreChange env store c store' := by
  obtain ⟨rfl, hrequest, -, row, hrow⟩ := h.fetchCurrent_ok hstates hfetch
  exact MayFail.change (h.fail_ok (List.forall₂_same.2 fun _ _ => .inl rfl) hrow.mem hrow.same
    (hstates _ hrequest) hupdated hput hpreview hstate hcount).1 c

lemma Sound.invalidate_change (h : store.Sound env)
    (hinvalidate : store.invalidate env now requestId reason = .ok (request, store')) :
    StoreChange env store c store' := by
  simp only [invalidate, bind_eq_ok, pure_eq_ok, Prod.exists, Prod.mk.injEq] at hinvalidate
  obtain ⟨-, -, read, current, hfetch, failed, hupdated, store₁, hput, rfl, rfl⟩ := hinvalidate
  exact h.failCurrent_change (fun _ => id) hfetch hupdated hput rfl rfl rfl

lemma Sound.failBeforeDispatch_change (h : store.Sound env)
    (hfail : store.failBeforeDispatch env now requestId reason responseSummary =
      .ok (request, store')) : StoreChange env store c store' := by
  simp only [failBeforeDispatch, bind_eq_ok, pure_eq_ok, Prod.exists, Prod.mk.injEq] at hfail
  obtain ⟨-, -, read, current, hfetch, failed, hupdated, store₁, hput, rfl, rfl⟩ := hfail
  exact h.failCurrent_change (by simp [pendingStates]) hfetch hupdated hput rfl rfl rfl

/-- The replay guard: no other request with this hash blocks. -/
lemma replayAllowed_ok (h : store.replayAllowed payloadHash (some requestId) = .ok ()) :
    ∀ row ∈ store.rows, row.payloadHash = payloadHash → row.state ∈ replayBlockingStates →
      row.requestId = requestId := by
  simp only [replayAllowed, bind_eq_ok, require_eq_ok, Option.isNone_iff_eq_none,
    List.find?_eq_none] at h
  obtain ⟨-, -, hfree⟩ := h
  intro row hrow hhash hstate
  simpa [hhash, hstate] using hfree row hrow

lemma Sound.startExecution_change (h : store.Sound env)
    (hstart : store.startExecution env now requestId = .ok (request, store')) :
    StoreChange env store (now, .startExecution requestId) store' := by
  simp only [startExecution, bind_eq_ok, pure_eq_ok, Prod.exists, Prod.mk.injEq] at hstart
  obtain ⟨read, current, hfetch, _, hfree, executing, hupdated, store₁, hput, rfl, rfl⟩ := hstart
  obtain ⟨rfl, hstate, -, row, hrow⟩ := h.fetchCurrent_ok (by simp [pendingStates]) hfetch
  have hpreview : read.toPreview = row.request.toPreview := hrow.same.preview
  have hready : read.state = .readyToExecute := List.mem_singleton.1 hstate
  have hcount : read.approvalCount = 1 :=
    approvalCount_of_validStateFields hrow.fields (by simp [hready])
  refine h.change_ok hrow.mem hupdated hput hpreview fun hsame => ?_
  refine .start ?_ ?_ ?_ ?_ hsame.state (hsame.approval_count.trans hcount)
  · rw [hrow.requestId_eq h]
  · rw [← hrow.same.state]
    exact hready
  · rw [← hrow.same.approval_count]
    exact hcount
  · rw [← congrArg Preview.payloadHash hpreview, ← congrArg Preview.requestId hpreview]
    exact replayAllowed_ok hfree

lemma Sound.complete_change (h : store.Sound env)
    (hcomplete : store.complete env requestId outcome responseSummary = .ok (request, store')) :
    StoreChange env store (now, .complete requestId outcome responseSummary) store' := by
  rw [complete] at hcomplete
  split at hcomplete
  · cases hcomplete
  · rename_i state houtcome
    simp only [requireState, bind_eq_ok, require_eq_ok, pure_eq_ok, Prod.mk.injEq,
      decide_eq_true_eq, List.mem_singleton] at hcomplete
    obtain ⟨read, hread, -, hexecuting, completed, hupdated, store₁, hput, rfl, rfl⟩ := hcomplete
    obtain ⟨row, hrow⟩ := fetch_ok hread
    refine h.change_ok hrow.mem hupdated hput hrow.same.preview fun hsame => ?_
    refine .complete ⟨outcome, responseSummary, by rw [hrow.requestId_eq h]⟩ ?_ ?_
      (hsame.approval_count.trans hrow.same.approval_count)
    · rw [← hrow.same.state]
      exact hexecuting
    · rw [hsame.state]
      simp only [completionState] at houtcome
      split_ifs at houtcome <;> simp_all

lemma Sound.resolveOutcomeUnknown_change (h : store.Sound env)
    (hresolve : store.resolveOutcomeUnknown env requestId outcome responseSummary =
      .ok (request, store')) :
    StoreChange env store (now, .resolveOutcomeUnknown requestId outcome responseSummary) store' := by
  rw [resolveOutcomeUnknown] at hresolve
  split at hresolve
  · cases hresolve
  · rename_i state houtcome
    simp only [requireState, bind_eq_ok, require_eq_ok, pure_eq_ok, Prod.mk.injEq,
      decide_eq_true_eq, List.mem_singleton] at hresolve
    obtain ⟨read, hread, -, hunknown, resolved, hupdated, store₁, hput, rfl, rfl⟩ := hresolve
    obtain ⟨row, hrow⟩ := fetch_ok hread
    refine h.change_ok hrow.mem hupdated hput hrow.same.preview fun hsame => ?_
    refine .resolve ⟨outcome, responseSummary, by rw [hrow.requestId_eq h]⟩ ?_ ?_
      (hsame.approval_count.trans hrow.same.approval_count)
    · rw [← hrow.same.state]
      exact hunknown
    · rw [hsame.state]
      simp only [resolutionState] at houtcome
      split_ifs at houtcome <;> simp_all

/-- Both loops of `invalidate_pending` only fail pending requests. -/
lemma Sound.expirePending_ok (h : store.Sound env)
    (hexpire : store.expirePending env now = .ok store') :
    List.Forall₂ (MayFail env) store.rows store'.rows := by
  have hrefl : List.Forall₂ (MayFail env) store.rows store.rows := List.forall₂_same.2 fun _ _ => .inl rfl
  refine foldlM_ok (I := fun current => List.Forall₂ (MayFail env) store.rows current.rows)
    (fun row hrow current next hcurrent hstep => ?_) hrefl hexpire
  simp only [bind_eq_ok, pure_eq_ok, Prod.exists] at hstep
  obtain ⟨request, hread, request', store₁, hone, rfl⟩ := hstep
  rcases h.expireIfNeeded_ok hcurrent (List.mem_of_mem_filter hrow) (rowToRequest_ok hread).1 hone
    with ⟨-, rfl, -⟩ | ⟨-, hrows⟩
  · exact hcurrent
  · exact hrows

lemma Sound.invalidatePending_change (h : store.Sound env) {connectorId environment : Option String}
    {count : Nat} (hinvalidate : store.invalidatePending env now connectorId environment reason =
      .ok (count, store')) : StoreChange env store c store' := by
  simp only [invalidatePending, bind_eq_ok, pure_eq_ok, Prod.mk.injEq] at hinvalidate
  obtain ⟨-, -, -, -, expired, hexpire, last, hloop, -, rfl⟩ := hinvalidate
  have hrows := h.expirePending_ok hexpire
  have hexpired : expired.Sound env := (MayFail.change hrows c).sound h
  have hrefl : List.Forall₂ (MayFail env) expired.rows expired.rows :=
    List.forall₂_same.2 fun _ _ => .inl rfl
  refine MayFail.change (KeyedTable.forall₂_comp (R := MayFail env) (S := MayFail env) (T := MayFail env)
    (fun _ _ _ => MayFail.trans) hrows ?_) c
  refine foldlM_ok (I := fun current => List.Forall₂ (MayFail env) expired.rows current.rows)
    (fun row hrow current next hcurrent hstep => ?_) hrefl hloop
  obtain ⟨request, hread, failed, hupdated, hput⟩ : ∃ request, rowToRequest env row = .ok request ∧
      ∃ failed, updated env { request with state := .failed, failureReason := some reason } =
        .ok failed ∧ current.updateRow failed "request_store_unavailable" = .ok next := by
    simpa only [bind_eq_ok] using hstep
  obtain ⟨hmem, hpending⟩ := List.mem_filter.1 hrow
  simp only [Bool.and_eq_true, decide_eq_true_eq] at hpending
  have hsame := (rowToRequest_ok hread).1
  refine (hexpired.fail_ok hcurrent hmem hsame ?_ hupdated hput rfl rfl rfl).1
  rw [hsame.state, ← hexpired.state_eq hmem]
  exact hpending.1.1

/-! ## Every call -/

/-- An accepted call adds one request that awaits confirmation or changes the stored ones by
`RowChange`. -/
theorem Sound.call_change (h : store.Sound env) (hcall : store.call env c = .ok store') :
    StoreChange env store c store' := by
  obtain ⟨now, call⟩ := c
  cases call with
  | createPreview prepared action =>
      obtain ⟨⟨_, _⟩, hok, rfl⟩ := map_eq_ok.1 hcall
      exact createPreview_change hok
  | get requestId =>
      obtain ⟨⟨_, _⟩, hok, rfl⟩ := map_eq_ok.1 hcall
      exact h.get_change hok
  | approve requestId payloadHash expectedClass =>
      obtain ⟨⟨_, _⟩, hok, rfl⟩ := map_eq_ok.1 hcall
      exact h.approve_change hok
  | precheckApproval requestId payloadHash expectedClass =>
      obtain ⟨⟨_, _⟩, hok, rfl⟩ := map_eq_ok.1 hcall
      obtain ⟨rfl, -⟩ := h.approvalCandidate_ok hok
      exact MayFail.change (List.forall₂_same.2 fun _ _ => .inl rfl) _
  | requireReady requestId =>
      obtain ⟨⟨_, _⟩, hok, rfl⟩ := map_eq_ok.1 hcall
      obtain ⟨rfl, -⟩ := h.fetchCurrent_ok (by simp [pendingStates]) hok
      exact MayFail.change (List.forall₂_same.2 fun _ _ => .inl rfl) _
  | invalidate requestId reason =>
      obtain ⟨⟨_, _⟩, hok, rfl⟩ := map_eq_ok.1 hcall
      exact h.invalidate_change hok
  | failBeforeDispatch requestId reason responseSummary =>
      obtain ⟨⟨_, _⟩, hok, rfl⟩ := map_eq_ok.1 hcall
      exact h.failBeforeDispatch_change hok
  | startExecution requestId =>
      obtain ⟨⟨_, _⟩, hok, rfl⟩ := map_eq_ok.1 hcall
      exact h.startExecution_change hok
  | complete requestId outcome responseSummary =>
      obtain ⟨⟨_, _⟩, hok, rfl⟩ := map_eq_ok.1 hcall
      exact h.complete_change hok
  | resolveOutcomeUnknown requestId outcome responseSummary =>
      obtain ⟨⟨_, _⟩, hok, rfl⟩ := map_eq_ok.1 hcall
      exact h.resolveOutcomeUnknown_change hok
  | invalidatePending connectorId environment reason =>
      obtain ⟨⟨_, _⟩, hok, rfl⟩ := map_eq_ok.1 hcall
      exact h.invalidatePending_change hok
  | assertReplayAllowed payloadHash =>
      simp only [call, bind_eq_ok, pure_eq_ok] at hcall
      obtain ⟨-, -, rfl⟩ := hcall
      exact MayFail.change (List.forall₂_same.2 fun _ _ => .inl rfl) _

lemma sound_empty (repositoryId : String) : (empty repositoryId).Sound env :=
  ⟨by simp [empty], by simp [empty], by simp [empty]⟩

theorem Sound.run (h : store.Sound env) (cs : List (Instant × StoreCall)) :
    (CallSystem.run (call env) store cs).Sound env :=
  run_invariant (fun _ _ _ hs hcall => (hs.call_change hcall).sound hs) h cs

end RequestStore

end Execution
end MercuryTools
