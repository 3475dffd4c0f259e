import MercuryTools.Execution.Executor

/-!
# What an executor does with one request

`Progress` is how far a running method is with a request: whether it has committed an approval
that is not in the ledger yet, and where between `start_execution` and `complete` it is.
`executorProtocol` says which effects each point allows.  Every method keeps to it: in
particular a request is sent only after its `dispatch_started` row, and `complete` follows unless
the client ends in a way that `execute_write` does not catch.  The store may fail at each call,
before or after its `COMMIT`: a method that has an approval or a start committed and is told of a
failure goes no further.
-/

namespace MercuryTools
namespace Execution

open Programs

inductive Progress where
  | idle
  /-- The approval is committed, `approval_recorded` is not in the ledger. -/
  | approved (requestId : String)
  /-- Recording the approval failed, or `approve` raised after its `COMMIT`. -/
  | unapproved (requestId : String)
  | started (requestId : String)
  /-- `start_execution` raised after its `COMMIT`. -/
  | abandoned (requestId : String)
  | announced (requestId : String)
  /-- Recording `dispatch_started` failed. -/
  | unannounced (requestId : String)
  | sent (requestId : String) (outcome : SendOutcome)
  /-- The store failed to complete the request. -/
  | refused (requestId : String) (outcome : Option SendOutcome)
  | completed (requestId : String) (outcome : Option SendOutcome)

/-- The ends of `client.send` that `execute_write` handles: a response, or an exception that is
caught. -/
def SendOutcome.handled : SendOutcome → Bool
  | .otherError _ => false
  | _ => true

/-- Where the method may complete a request. -/
def Progress.mayComplete : Progress → String → Prop
  | .unannounced requestId, id => id = requestId
  | .sent requestId outcome, id => id = requestId ∧ outcome.handled = true
  | _, _ => False

def effectAllowed (l : Progress) : Effect → Prop
  | .store (.approve _ _ _) => l = .idle
  | .store (.startExecution _) => l = .idle
  | .store (.complete requestId outcome summary) =>
      RequestStore.completionState outcome ≠ none ∧ summary.isObj = true ∧ l.mayComplete requestId
  | .record row =>
      (row.event = "approval_recorded" → ∃ id, l = .approved id ∧ row.requestId = some id) ∧
        (row.event = "dispatch_started" → ∃ id, l = .started id ∧ row.requestId = some id)
  | .send requestId => l = .announced requestId
  | _ => True

/-- Where recording a row leads. -/
def Progress.recorded (l : Progress) (row : AuditRow) (recorded : Bool) : Progress :=
  match l with
  | .approved id =>
      if row.event = "approval_recorded" then (if recorded then .idle else .unapproved id) else l
  | .started id =>
      if row.event = "dispatch_started" then (if recorded then .announced id else .unannounced id)
      else l
  | _ => l

/-- How the send ended, if there was one. -/
def Progress.outcome : Progress → Option SendOutcome
  | .sent _ outcome => some outcome
  | _ => none

/-- Where withdrawing the approval of the request leads. -/
def Progress.withdrawn (l : Progress) (requestId : String) : Progress :=
  match l with
  | .approved id => if requestId = id then .idle else l
  | .unapproved id => if requestId = id then .idle else l
  | _ => l

/-- The call has gone through: it returned, or raised after its `COMMIT`. -/
def committed : Except StoreFailure (Option PreparedRequest) → Bool
  | .ok _ => true
  | .error failure => failure.kind = .late

/-- Where an answered effect leads. -/
def Progress.next (l : Progress) : (e : Effect) → Answer e → Progress
  | .store (.approve _ _ _), .ok (some request) => .approved request.requestId
  | .store (.approve requestId _ _), .error ⟨_, .late⟩ => .unapproved requestId
  | .store (.startExecution _), .ok (some request) => .started request.requestId
  | .store (.startExecution requestId), .error ⟨_, .late⟩ => .abandoned requestId
  | .store (.invalidate requestId _), answer =>
      if committed answer then l.withdrawn requestId else l
  | .store (.complete requestId _ _), answer =>
      if committed answer then .completed requestId l.outcome else .refused requestId l.outcome
  | .record row, recorded => l.recorded row recorded
  | .send requestId, outcome => .sent requestId outcome
  | _, _ => l

/-- The protocol of the executor. -/
def executorProtocol : Protocol Effect Answer Progress where
  start := .idle
  allowed := effectAllowed
  next := Progress.next

/-- Where a method may end. -/
def Progress.ended : Progress → Prop
  | .idle | .approved _ | .unapproved _ | .abandoned _ | .refused _ _ | .completed _ _ => True
  | .sent _ outcome => outcome.handled = false
  | .started _ | .announced _ | .unannounced _ => False

/-- The method has committed an approval of the request that is not in the ledger. -/
def Progress.unaudited (l : Progress) (requestId : String) : Prop :=
  l = .approved requestId ∨ l = .unapproved requestId

/-- The program keeps to the protocol from `l` on and ends where a method may. -/
def Ends {α : Type} (p : Exec α) (l : Progress) : Prop :=
  Keeps executorProtocol (fun l _ => l.ended) p l

/-- The program keeps to the protocol and stays at `l`. -/
def Stays {α : Type} (p : Exec α) (l : Progress) : Prop :=
  Keeps executorProtocol (fun l' _ => l' = l) p l

variable {α β : Type} {l : Progress} {e : Effect}

lemma Stays.bind {p : Exec α} {f : α → Exec β} (h : Stays p l) (hf : ∀ a, Stays (f a) l) :
    Stays (p >>= f) l :=
  Keeps.bind h (fun _ a hl => hl ▸ hf a) fun _ hl => hl

lemma Stays.then {p : Exec α} {f : α → Exec β} (h : Stays p l) (hl : l.ended)
    (hf : ∀ a, Ends (f a) l) : Ends (p >>= f) l :=
  Keeps.bind h (fun _ a hl => hl ▸ hf a) fun _ hl' => hl' ▸ hl

lemma Stays.ends {p : Exec α} (h : Stays p l) (hl : l.ended) : Ends p l :=
  Keeps.mono h fun _ _ hl' => hl' ▸ hl

lemma stays_pure (a : α) (l : Progress) : Stays (pure a : Exec α) l := rfl

lemma stays_fail (code : String) (l : Progress) : Stays (.fail code : Exec α) l := rfl

/-! ## The steps -/

/-- An effect that changes nothing about the progress. -/
def Effect.quiet : Effect → Prop
  | .store (.approve _ _ _) | .store (.startExecution _) | .store (.complete _ _ _) => False
  | .store (.invalidate _ _) => False
  | .record row => row.event ≠ "approval_recorded" ∧ row.event ≠ "dispatch_started"
  | .send _ => False
  | _ => True

lemma Effect.quiet.allowed (h : e.quiet) (l : Progress) : effectAllowed l e := by
  cases e with
  | store call => cases call <;> simp_all [Effect.quiet, effectAllowed]
  | record row => exact ⟨fun heq => absurd heq h.1, fun heq => absurd heq h.2⟩
  | send requestId => exact h.elim
  | _ => trivial

lemma Effect.quiet.next_eq (h : e.quiet) (l : Progress) (a : Answer e) : l.next e a = l := by
  cases e with
  | store call => cases call <;> first | exact h.elim | rfl
  | record row =>
      obtain ⟨happroval, hdispatch⟩ := h
      simp only [Progress.next]
      cases l <;> simp [Progress.recorded, happroval, hdispatch]
  | send requestId => exact h.elim
  | _ => rfl

/-- A quiet effect followed by programs that stay. -/
lemma Effect.quiet.stays (h : e.quiet) {next : Answer e → Exec α} (hnext : ∀ a, Stays (next a) l) :
    Stays (.perform e next) l := by
  refine ⟨h.allowed l, fun a => ?_⟩
  rw [show executorProtocol.next l e a = l from h.next_eq l a]
  exact hnext a

lemma Effect.quiet.ends (h : e.quiet) {next : Answer e → Exec α} (hnext : ∀ a, Ends (next a) l) :
    Ends (.perform e next) l := by
  refine ⟨h.allowed l, fun a => ?_⟩
  rw [show executorProtocol.next l e a = l from h.next_eq l a]
  exact hnext a

namespace Exec

variable {call : StoreCall} {α : Type} {event requestId outcome : String} {l : Progress}
  {summary : Json}

lemma stays_callStore (h : Effect.quiet (.store call)) (l : Progress) :
    Stays (callStore call) l := by
  refine h.stays fun a => ?_
  match a with
  | .ok (some request) => exact stays_pure request l
  | .ok none => exact stays_fail _ l
  | .error failure => exact stays_fail failure.code l

lemma stays_runStore (h : Effect.quiet (.store call)) (l : Progress) : Stays (runStore call) l := by
  refine h.stays fun a => ?_
  match a with
  | .ok _ => exact stays_pure () l
  | .error failure => exact stays_fail failure.code l

lemma stays_record {row : AuditRow} (h : Effect.quiet (.record row)) (l : Progress) :
    Stays (record row) l := by
  refine h.stays fun a => ?_
  match a with
  | true => exact stays_pure () l
  | false => exact stays_fail _ l

lemma stays_ask (query : Query) (l : Progress) : Stays (ask query) l := by
  refine Effect.quiet.stays (e := .ask query) trivial fun a => ?_
  match a with
  | .pass => exact stays_pure _ l
  | .reject code => exact stays_pure _ l
  | .raise code => exact stays_fail code l

lemma stays_requireVersion (actionId versionId : String) (l : Progress) :
    Stays (requireVersion actionId versionId) l :=
  Effect.quiet.stays (e := .requireVersion actionId versionId) trivial
    fun action => stays_pure action l

lemma stays_invalidate (requestId reason : String) :
    Stays (callStore (.invalidate requestId reason)) .idle := by
  refine ⟨trivial, fun a => ?_⟩
  have hnext : Progress.idle.next (.store (.invalidate requestId reason)) a = .idle := by
    simp only [Progress.next, Progress.withdrawn, ite_self]
  rw [show executorProtocol.next .idle _ a = .idle from hnext]
  match a with
  | .ok (some request) => exact stays_pure request .idle
  | .ok none => exact stays_fail _ .idle
  | .error failure => exact stays_fail failure.code .idle

lemma stays_invalidateAndFail (requestId reason : String) :
    Stays (invalidateAndFail requestId reason : Exec α) .idle :=
  (stays_invalidate requestId reason).bind fun _ => stays_fail reason .idle

lemma stays_askOrInvalidate (query : Query) (requestId reason : String) :
    Stays (askOrInvalidate query requestId reason) .idle := by
  refine (stays_ask query .idle).bind fun answer => ?_
  cases answer with
  | none => exact stays_pure () .idle
  | some code => exact stays_invalidateAndFail requestId reason

variable {env : Environment}

lemma stays_auditResult (session : String) (request : PreparedRequest) (action : CatalogAction)
    (hevent : event ≠ "approval_recorded" ∧ event ≠ "dispatch_started") (state : String)
    (result : ConnectorResult) (l : Progress) :
    Stays (auditResult env session request action event state result) l := by
  unfold auditResult
  exact stays_record (by exact hevent) l

lemma stays_activeForPrepared (prepared : PreparedRequest) :
    Stays (activeForPrepared prepared) .idle :=
  (stays_askOrInvalidate _ _ _).bind fun _ => stays_requireVersion _ _ _

lemma stays_runPreflight (session : String) (prepared : PreparedRequest) (action : CatalogAction)
    (binding : PreflightActionBinding) :
    Stays (runPreflight env session prepared action binding) .idle := by
  refine (stays_askOrInvalidate _ _ _).bind fun _ => ?_
  refine (stays_requireVersion _ _ _).bind fun preflight => ?_
  refine (stays_ask _ _).bind fun inputs => ?_
  cases inputs with
  | some code => exact stays_pure _ _
  | none =>
      refine (stays_ask _ _).bind fun request => ?_
      cases request with
      | some code =>
          exact (stays_auditResult _ _ _ (by decide) _ _ _).bind fun _ => stays_pure _ _
      | none =>
          refine (stays_askOrInvalidate _ _ _).bind fun _ => ?_
          refine (stays_askOrInvalidate _ _ _).bind fun _ => ?_
          refine Effect.quiet.stays (e := .sendRead binding.actionId binding.versionId) trivial
            fun outcome => ?_
          match outcome with
          | .raised code => exact stays_fail code _
          | .caught dispatched =>
              exact (stays_auditResult _ _ _ (by decide) _ _ _).bind fun _ => stays_pure _ _
          | .result result =>
              change Stays (if _ then _ else _) _
              split_ifs <;>
                exact (stays_auditResult _ _ _ (by decide) _ _ _).bind fun _ => stays_pure _ _

lemma stays_runPreflights (session : String) (prepared : PreparedRequest) (action : CatalogAction)
    (bindings : List PreflightActionBinding) :
    Stays (runPreflights env session prepared action bindings) .idle := by
  induction bindings with
  | nil => exact stays_pure _ _
  | cons binding bindings ih =>
      refine (stays_runPreflight session prepared action binding).bind fun code => ?_
      cases code with
      | none => exact ih
      | some code => exact stays_pure _ _

lemma stays_failBeforeDispatch (session : String) (prepared : PreparedRequest)
    (action : CatalogAction) (errorCode : String) :
    Stays (failBeforeDispatch env session prepared action errorCode) .idle := by
  refine (stays_callStore (by exact trivial) _).bind fun failed => ?_
  refine (stays_record (by constructor <;> simp [requestRow]) _).bind fun _ => ?_
  exact (stays_auditResult _ _ _ (by decide) _ _ _).bind fun _ => stays_pure _ _

/-! ## Dispatch -/

/-- Completing a request where it may be completed ends the method's work on it. -/
lemma ends_complete (houtcome : RequestStore.completionState outcome ≠ none)
    (hsummary : summary.isObj = true) (hl : l.mayComplete requestId) {f : PreparedRequest → Exec α}
    (hf : ∀ request o, Stays (f request) (.completed requestId o)) :
    Ends (callStore (.complete requestId outcome summary) >>= f) l := by
  refine ⟨⟨houtcome, hsummary, hl⟩, fun a => ?_⟩
  match a with
  | .ok (some request) => exact (hf request l.outcome).ends trivial
  | .ok none => trivial
  | .error ⟨_, .refused⟩ => trivial
  | .error ⟨_, .unavailable⟩ => trivial
  | .error ⟨_, .late⟩ => trivial

lemma ends_completeAndAudit (session : String) (executing : PreparedRequest)
    (houtcome : RequestStore.completionState outcome ≠ none) (hsummary : summary.isObj = true)
    (hl : l.mayComplete executing.requestId) (result : α) :
    Ends (do completeAndAudit session executing outcome summary; return result) l := by
  rw [completeAndAudit, Program.bind_assoc]
  refine ends_complete houtcome hsummary hl fun completed o => ?_
  exact (stays_record (by constructor <;> simp [requestRow]) _).bind fun _ => stays_pure _ _

lemma ends_completeFailed (session : String) (executing : PreparedRequest) (dispatched : Bool)
    (errorCode : String) (hl : l.mayComplete executing.requestId) :
    Ends (completeFailed session executing dispatched errorCode) l :=
  ends_completeAndAudit session executing (by decide) rfl hl _

lemma ends_completeUnknown (session : String) (executing : PreparedRequest) (httpStatus : Nat)
    (hl : l.mayComplete executing.requestId) :
    Ends (completeUnknown session executing httpStatus) l :=
  ends_completeAndAudit session executing (by decide) rfl hl _

lemma ends_completeResult (session : String) (executing : PreparedRequest)
    (result : ConnectorResult) (hl : l.mayComplete executing.requestId) :
    Ends (completeResult session executing result) l := by
  refine ends_completeAndAudit session executing ?_ rfl hl _
  split_ifs <;> decide

/-- After the provider call the request is completed, unless the client ended in a way that is
not caught. -/
lemma ends_finish (session : String) (executing : PreparedRequest) (outcome : SendOutcome) :
    Ends (finish session executing outcome) (.sent executing.requestId outcome) := by
  have hl (h : outcome.handled = true) :
      (Progress.sent executing.requestId outcome).mayComplete executing.requestId := ⟨rfl, h⟩
  match outcome with
  | .connectError | .connectTimeout | .poolTimeout => exact ends_completeFailed _ _ _ _ (hl rfl)
  | .networkPolicyError true => exact ends_completeUnknown _ _ _ (hl rfl)
  | .networkPolicyError false => exact ends_completeFailed _ _ _ _ (hl rfl)
  | .transportError => exact ends_completeUnknown _ _ _ (hl rfl)
  | .otherError code => exact (rfl : SendOutcome.handled (.otherError code) = false)
  | .response statusCode none => exact ends_completeUnknown _ _ _ (hl rfl)
  | .response statusCode (some result) =>
      rw [finish]
      split_ifs
      · exact ends_completeUnknown _ _ _ (hl rfl)
      · exact ends_completeResult _ _ _ (hl rfl)

lemma ends_dispatch (session requestId : String) : Ends (dispatch session requestId) .idle := by
  refine ⟨rfl, fun a => ?_⟩
  match a with
  | .error ⟨_, .refused⟩ => trivial
  | .error ⟨_, .unavailable⟩ => trivial
  | .error ⟨_, .late⟩ => trivial
  | .ok none => trivial
  | .ok (some executing) =>
      refine ⟨⟨fun h => ?_, fun _ => ⟨_, rfl, rfl⟩⟩, fun recorded => ?_⟩
      · simp [requestRow] at h
      match recorded with
      | true => exact ⟨rfl, fun outcome => ends_finish session executing outcome⟩
      | false =>
          refine ends_complete (by decide) rfl ?_ fun _ _ => stays_pure _ _
          exact (rfl : executing.requestId = executing.requestId)

lemma ends_executeWrite (session requestId : String) :
    Ends (executeWrite env session requestId) .idle := by
  refine (stays_callStore (by exact trivial) _).then trivial fun prepared => ?_
  refine (stays_activeForPrepared _).then trivial fun action => ?_
  refine (stays_ask _ _).then trivial fun driver => ?_
  match driver with
  | some code => trivial
  | none =>
  refine (stays_askOrInvalidate _ _ _).then trivial fun _ => ?_
  refine (stays_ask _ _).then trivial fun target => ?_
  match target with
  | some code => trivial
  | none =>
  refine (stays_ask _ _).then trivial fun rebuilt => ?_
  match rebuilt with
  | some code => exact (stays_invalidateAndFail _ _).ends trivial
  | none =>
  refine (stays_askOrInvalidate _ _ _).then trivial fun _ => ?_
  refine (stays_ask _ _).then trivial fun client => ?_
  match client with
  | some code => trivial
  | none =>
  refine (stays_ask _ _).then trivial fun auth => ?_
  match auth with
  | some code => exact (stays_failBeforeDispatch _ _ _ _).ends trivial
  | none =>
  refine Stays.then ?_ trivial fun configured => ?_
  · split_ifs
    · exact stays_pure _ _
    · exact stays_ask _ _
  match configured with
  | some code => exact (stays_failBeforeDispatch _ _ _ _).ends trivial
  | none =>
  refine (stays_runPreflights _ _ _ _).then trivial fun preflight => ?_
  match preflight with
  | some code => exact (stays_failBeforeDispatch _ _ _ _).ends trivial
  | none =>
  refine (stays_ask _ _).then trivial fun rendered => ?_
  match rendered with
  | some code => exact (stays_failBeforeDispatch _ _ _ _).ends trivial
  | none =>
  refine (stays_activeForPrepared _).then trivial fun _ => ?_
  refine (stays_askOrInvalidate _ _ _).then trivial fun _ => ?_
  refine (stays_askOrInvalidate _ _ _).then trivial fun _ => ?_
  refine (stays_askOrInvalidate _ _ _).then trivial fun _ => ?_
  exact ends_dispatch session prepared.requestId

/-! ## Approvals -/

/-- An approval that could not be recorded is withdrawn, and the method fails. -/
lemma keeps_withdraw (hl : l.unaudited requestId) (code : String) :
    Keeps executorProtocol (fun l result => l.ended ∧ result = none)
      (do let _ ← callStore (.invalidate requestId "audit_failed"); .fail code : Exec α) l := by
  refine ⟨trivial, fun a => ?_⟩
  have hnext : (l.next (.store (.invalidate requestId "audit_failed")) a).ended := by
    rcases hl with rfl | rfl <;> simp only [Progress.next, Progress.withdrawn] <;> split_ifs <;>
      trivial
  match a with
  | .ok (some _) | .ok none | .error _ => exact ⟨hnext, rfl⟩

/-- Recording the approval, or withdrawing it. -/
lemma keeps_auditApproval (session : String) (approved : PreparedRequest)
    (hevent : event ≠ "dispatch_started") :
    Keeps executorProtocol
      (fun l result => l.ended ∧ (event = "approval_recorded" → result ≠ none → l = .idle))
      ((auditRequest session approved event (.obj [])).catchFailure fun code => do
        let _ ← callStore (.invalidate approved.requestId "audit_failed")
        .fail code) (.approved approved.requestId) := by
  let Q (l : Progress) (result : Option Unit) : Prop :=
    (result = none → l.unaudited approved.requestId) ∧
      (result ≠ none → l.ended ∧ (event = "approval_recorded" → l = .idle))
  have hrecord : Keeps executorProtocol Q (auditRequest session approved event (.obj []))
      (.approved approved.requestId) := by
    refine ⟨⟨fun _ => ⟨_, rfl, rfl⟩, fun h => absurd h hevent⟩, fun recorded => ?_⟩
    by_cases happroval : event = "approval_recorded" <;> cases recorded <;>
      simp [executorProtocol, Progress.next, Progress.recorded, requestRow, happroval, Q,
        Progress.ended, Progress.unaudited, Keeps]
  refine Keeps.catchFailure hrecord (fun l a hl => ?_) fun l code hl => ?_
  · obtain ⟨hended, hidle⟩ := hl.2 (by simp)
    exact ⟨hended, fun happroval _ => hidle happroval⟩
  · exact Keeps.mono (keeps_withdraw (hl.1 rfl) code) fun l result h =>
      ⟨h.1, fun _ hne => absurd h.2 hne⟩

/-- An approval that `_record_approval` returns is in the ledger. -/
lemma keeps_recordApproval (session requestId payloadHash : String) (expectedClass : MutationClass)
    (hevent : event ≠ "dispatch_started") :
    Keeps executorProtocol
      (fun l result => l.ended ∧ (event = "approval_recorded" → result ≠ none → l = .idle))
      (recordApproval session requestId payloadHash expectedClass event) .idle := by
  refine ⟨rfl, fun a => ?_⟩
  match a with
  | .error ⟨_, .refused⟩ => exact ⟨trivial, fun _ _ => rfl⟩
  | .error ⟨_, .unavailable⟩ => exact ⟨trivial, fun _ _ => rfl⟩
  | .error ⟨_, .late⟩ => exact ⟨trivial, fun _ hne => absurd rfl hne⟩
  | .ok none => exact ⟨trivial, fun _ _ => rfl⟩
  | .ok (some approved) =>
      change Keeps executorProtocol _ (_ >>= fun _ => pure approved) (.approved approved.requestId)
      refine Keeps.bind (keeps_auditApproval session approved hevent) (fun l _ hl => ?_)
        fun l hl => ?_
      · exact ⟨hl.1, fun happroval _ => hl.2 happroval (by simp)⟩
      · exact ⟨hl.1, fun _ hne => absurd rfl hne⟩

/-! ## The methods -/

lemma ends_confirmWrite (session requestId payloadHash : String) :
    Ends (confirmWrite session requestId payloadHash) .idle := by
  refine (stays_callStore (by exact trivial) _).then trivial fun pending => ?_
  exact Keeps.mono (keeps_recordApproval _ _ _ _ (by decide)) fun _ _ h => h.1

lemma ends_approveAndExecute (session requestId payloadHash : String)
    (expectedClass : MutationClass) :
    Ends (approveAndExecute env session requestId payloadHash expectedClass) .idle := by
  refine Keeps.bind (keeps_recordApproval _ _ _ _ (by decide)) (fun l approved hl => ?_)
    fun l hl => hl.1
  rw [hl.2 rfl (by simp)]
  exact ends_executeWrite session approved.requestId

lemma ends_previewWrite (session : String) (action : CatalogAction) (environment : String)
    (inputs : Json) : Ends (previewWrite session action environment inputs) .idle := by
  refine Effect.quiet.ends (e := .prepareWrite action environment inputs) trivial fun a => ?_
  match a with
  | .error code => trivial
  | .ok prepared =>
      refine (stays_runStore (by exact trivial) _).then trivial fun _ => ?_
      refine (stays_callStore (by exact trivial) _).then trivial fun created => ?_
      refine Stays.then ?_ trivial fun _ => trivial
      refine Keeps.catchFailure (stays_record (by constructor <;> simp [requestRow]) _)
        (fun _ _ hl => hl) fun l code hl => ?_
      rw [hl]
      exact (stays_invalidate _ _).bind fun _ => stays_fail _ _

lemma ends_resolveUnknownWithStatus (session requestId : String) :
    Ends (resolveUnknownWithStatus env session requestId) .idle := by
  refine (stays_callStore (by exact trivial) _).then trivial fun prepared => ?_
  split_ifs
  · trivial
  refine (stays_ask _ _).then trivial fun active => ?_
  match active with
  | some code => trivial
  | none =>
  refine (stays_requireVersion _ _ _).then trivial fun action => ?_
  refine (stays_ask _ _).then trivial fun status => ?_
  match status with
  | some code => trivial
  | none =>
  refine (stays_requireVersion _ _ _).then trivial fun statusAction => ?_
  refine Effect.quiet.ends (e := .sendRead statusAction.actionId statusAction.versionId) trivial
    fun outcome => ?_
  match outcome with
  | .raised code => trivial
  | .caught dispatched =>
      exact (stays_auditResult _ _ _ (by decide) _ _ _).then trivial fun _ => trivial
  | .result result =>
      refine (stays_auditResult _ _ _ (by decide) _ _ _).then trivial fun _ => ?_
      split_ifs
      · trivial
      split
      · trivial
      refine (stays_callStore (by exact trivial) _).then trivial fun resolved => ?_
      refine (stays_record (by constructor <;> simp [requestRow]) _).then trivial fun _ => trivial

end Exec

end Execution
end MercuryTools
