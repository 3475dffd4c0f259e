import MercuryTools.Execution.RequestRuns

/-!
# When the request store accepts a call

The stored requests are valid, so `complete` is accepted where the request is being executed.
-/

namespace MercuryTools
namespace Execution

open Checks CallSystem

variable {env : Environment}

lemma withCode_ok {α : Type} {code : String} {x : Except String α} {a : α} (h : x = .ok a) :
    withCode code x = .ok a :=
  withCode_eq_ok.2 h

/-- A request as the store returns it. -/
structure Returned (env : Environment) (request : PreparedRequest) : Prop where
  valid : request.Valid env
  fields : validStateFields request = true
  summary : request.sanitizedSummary.isObj = true
  response : request.responseSummary.isObj = true

/-- A returned request with new status fields is accepted by `_updated`. -/
lemma Returned.updated_accepted {request : PreparedRequest} (h : Returned env request)
    (changed : PreparedRequest)
    (hpreview : changed.toPreview = request.toPreview)
    (hsummary : changed.sanitizedSummary = request.sanitizedSummary)
    (hstate : validStateFields changed = true) (hcount : changed.approvalCount ∈ [0, 1])
    (hreason : changed.failureReason.all isReason = true)
    (hresponse : changed.responseSummary.isObj = true) :
    ∃ new, updated env changed = .ok new ∧ SameStatus changed new ∧ Returned env new := by
  obtain ⟨new, hnew⟩ := h.valid.of_preview hpreview hstate hcount hreason
    (hsummary ▸ h.summary) hresponse
  obtain ⟨hsame, hfields, hsummary', hresponse'⟩ := PreparedRequest.validate_ok hnew
  exact ⟨new, withCode_ok hnew, hsame, PreparedRequest.valid_of_validate hnew, hfields, hsummary',
    hresponse'⟩

namespace RequestStore

/-- Every failure reason of a completion is well formed. -/
lemma completionReason_isReason (state : RequestState) :
    (completionReason state).all isReason = true := by
  cases state <;> decide

variable {store : RequestStore} {row : RequestRow} {request : PreparedRequest}

/-- A stored request can be read. -/
lemma Sound.fetch_accepted (h : store.Sound env) (hrow : row ∈ store.rows) :
    ∃ request, store.fetch env row.requestId = .ok request ∧ SameStatus row.request request ∧
      Returned env request := by
  have hfind : store.rows.find? (·.requestId == row.requestId) = some row :=
    (KeyedTable.find?_eq_some h.ids (fun _ hy => beq_iff_eq.1 hy)).2 ⟨hrow, beq_self_eq_true _⟩
  obtain ⟨request, hvalid⟩ := h.valid row hrow
  obtain ⟨hsame, hfields, hsummary, hresponse⟩ := PreparedRequest.validate_ok hvalid
  refine ⟨request, ?_, hsame, PreparedRequest.valid_of_validate hvalid, hfields, hsummary,
    hresponse⟩
  rw [fetch, hfind]
  refine withCode_ok ?_
  simp only [bind_eq_ok, require_eq_ok, pure_eq_ok]
  refine ⟨request, hvalid, (), ?_, rfl⟩
  have hcolumns := h.columns row hrow
  rw [hcolumns]
  simp [rowOf, hsame.state, show request.requestId = row.request.requestId from
    congrArg Preview.requestId hsame.preview, show request.payloadHash = row.request.payloadHash from
    congrArg Preview.payloadHash hsame.preview, show request.connectorId = row.request.connectorId
    from congrArg (fun p : Preview => p.connectorId) hsame.preview,
    show request.environment = row.request.environment from
    congrArg (fun p : Preview => p.environment) hsame.preview,
    show request.expiresAt = row.request.expiresAt from congrArg Preview.expiresAt hsame.preview]

/-- The store with the row of a request replaced. -/
def put (store : RequestStore) (request : PreparedRequest) : RequestStore :=
  { store with rows := KeyedTable.put (·.requestId) store.rows (rowOf request) }

/-- An update is accepted unless it makes a second row block a replay. -/
lemma updateRow_accepted (code : String)
    (h : request.state ∈ replayBlockingStates → ∀ row ∈ store.rows,
      row.payloadHash = request.payloadHash → row.state ∈ replayBlockingStates →
        row.requestId = request.requestId) :
    store.updateRow request code = .ok (store.put request) := by
  simp only [updateRow, bind_eq_ok, require_eq_ok, pure_eq_ok]
  refine ⟨(), ?_, rfl⟩
  by_cases hblocks : request.state ∈ replayBlockingStates
  · simp only [indexAllows, rowOf, Bool.or_eq_true, Bool.not_eq_true', List.any_eq_false]
    refine .inr fun row hrow => ?_
    simp only [Bool.and_eq_true, bne_iff_ne, ne_eq, beq_iff_eq, decide_eq_true_eq, not_and]
    rintro ⟨hne, hhash⟩ hstate
    exact hne (h hblocks row hrow hhash hstate)
  · simp [indexAllows, rowOf, hblocks]

/-- Completing a request that is being executed. -/
lemma Sound.complete_accepted (h : store.Sound env) (hsafe : ReplaySafe store)
    (hrow : row ∈ store.rows) (hexecuting : row.request.state = .executing) {outcome : String}
    {state : RequestState} (houtcome : completionState outcome = some state)
    {responseSummary : Json} (hresponse : responseSummary.isObj = true) :
    ∃ request store',
      store.complete env row.requestId outcome responseSummary = .ok (request, store') := by
  obtain ⟨request, hfetch, hsame, hreturned⟩ := h.fetch_accepted hrow
  have hstate : request.state = .executing := hsame.state.trans hexecuting
  have hcount : request.approvalCount = 1 :=
    approvalCount_of_validStateFields hreturned.fields (by simp [hstate])
  have hfinal : state = .succeeded ∨ state = .failed ∨ state = .outcomeUnknown := by
    simp only [completionState] at houtcome
    split_ifs at houtcome <;> simp_all
  obtain ⟨new, hnew, hsame', -⟩ := hreturned.updated_accepted { request with
    state := state, failureReason := completionReason state, responseSummary := responseSummary }
    rfl rfl (by rcases hfinal with rfl | rfl | rfl <;> simp [validStateFields, hcount])
    (by simp [hcount]) (completionReason_isReason state) hresponse
  have hid : new.requestId = row.request.requestId :=
    congrArg Preview.requestId (hsame'.preview.trans hsame.preview)
  have hhash : new.payloadHash = row.request.payloadHash :=
    congrArg Preview.payloadHash (hsame'.preview.trans hsame.preview)
  refine ⟨new, store.put new, ?_⟩
  simp only [complete, houtcome, requireState, bind_eq_ok, require_eq_ok, pure_eq_ok]
  refine ⟨request, hfetch, (), by simp [hstate], new, hnew, store.put new,
    updateRow_accepted _ fun _ other hother hotherHash hblocks => ?_, rfl⟩
  rw [h.id_eq hother, hid]
  refine hsafe other hother row hrow ?_ (by rwa [← h.state_eq hother]) ?_
  · rw [← h.hash_eq hother, hotherHash, hhash]
  · simp [hexecuting, replayBlockingStates]

end RequestStore

end Execution
end MercuryTools
