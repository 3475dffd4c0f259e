import MercuryTools.Execution.RequestStore
import MercuryTools.Framework.Programs

/-!
# The executor

The write path of `ERPExecutor` in `execution/executor.py`: previews, approvals, the dispatch of
an approved write, and the resolution of an unknown outcome.

The methods are programs whose effects are the calls of the request store, the rows recorded in
the audit ledger, the call of the provider client and what is asked of the catalog, the drivers,
the network policy and the credential store.  What is asked passes, fails in a way the code
handles, or raises something it does not handle.
-/

namespace MercuryTools
namespace Execution

open Programs

def RequestState.value : RequestState → String
  | .previewed => "previewed"
  | .awaitingConfirmation => "awaiting_confirmation"
  | .readyToExecute => "ready_to_execute"
  | .executing => "executing"
  | .succeeded => "succeeded"
  | .failed => "failed"
  | .outcomeUnknown => "outcome_unknown"

structure ConnectorResult where
  status : String
  httpStatus : Nat
  data : Json
  summary : String
  dispatched : Bool
  deriving Repr

/-- How `client.send` ends, with what `interpret_response` makes of a response: a result, or
`none` where it raises. -/
inductive SendOutcome where
  | response (statusCode : Nat) (result : Option ConnectorResult)
  | connectError
  | connectTimeout
  | poolTimeout
  | networkPolicyError (responseReceived : Bool)
  | transportError
  | otherError (code : String)
  deriving Repr

/-- The row that is recorded for an event, without its timings. -/
structure AuditRow where
  event : String
  localSessionId : String
  repositoryId : String
  connectorId : String
  environment : String
  actionId : String
  versionId : String
  requestId : Option String
  method : String
  payloadHash : Option String
  riskTier : Nat
  approvalLevel : Option ApprovalLevel
  mutationClass : Option MutationClass
  approvalCount : Option Nat
  state : String
  responseSummary : Json
  deriving Repr

/-! ## Effects -/

/-- What is asked of the world around the executor. -/
inductive Query where
  | activeAction (request : PreparedRequest)
  | driver (request : PreparedRequest)
  | activePreflightActions (request : PreparedRequest)
  | resolveTarget (request : PreparedRequest)
  | rebuildRequest (request : PreparedRequest)
  | credentialSnapshot (request : PreparedRequest)
  | openClient (request : PreparedRequest)
  | prepareAuth (request : PreparedRequest)
  | preflightConfiguration (request : PreparedRequest)
  | preflightInputs (binding : PreflightActionBinding)
  | preflightRequest (binding : PreflightActionBinding)
  | preflightTarget (binding : PreflightActionBinding)
  | renderRequest (request : PreparedRequest)
  | credentialRevision (request : PreparedRequest)
  | sameTarget (request : PreparedRequest)
  | statusAction (request : PreparedRequest)
  deriving Repr

/-- The answer to a query: it passes, it fails with a code the executor handles, or it raises. -/
inductive Verdict where
  | pass
  | reject (code : String)
  | raise (code : String)
  deriving DecidableEq, Repr

/-- How a read ends: a result, an exception that is handled, or one that is not. -/
inductive ReadOutcome where
  | result (result : ConnectorResult)
  | caught (dispatched : Bool)
  | raised (code : String)
  deriving Repr

inductive Effect where
  | store (call : StoreCall)
  | record (row : AuditRow)
  | send (requestId : String)
  | ask (query : Query)
  | requireVersion (actionId versionId : String)
  | sendRead (actionId versionId : String)
  | prepareWrite (action : CatalogAction) (environment : String) (inputs : Json)
  deriving Repr

/-- Why a method of the store raises: it refuses the call, the store fails before the `COMMIT` is
over, or what comes after it fails. -/
inductive FailureKind where
  | refused
  | unavailable
  | late
  deriving DecidableEq, Repr

structure StoreFailure where
  code : String
  kind : FailureKind
  deriving Repr

/-- The answers: the store returns a request or nothing, the ledger says whether the row is
recorded, the catalog returns an action, and a prepared write is a request or an error. -/
def Answer : Effect → Type
  | .store _ => Except StoreFailure (Option PreparedRequest)
  | .record _ => Bool
  | .send _ => SendOutcome
  | .ask _ => Verdict
  | .requireVersion _ _ => CatalogAction
  | .sendRead _ _ => ReadOutcome
  | .prepareWrite _ _ _ => Except String PreparedRequest

/-- A method of the executor. -/
abbrev Exec (α : Type) := Program Effect Answer α

namespace Exec

/-- A store method that returns a request. -/
def callStore (call : StoreCall) : Exec PreparedRequest :=
  .perform (.store call) fun
    | .ok (some request) => .done request
    | .ok none => .fail "invalid_request_state"
    | .error failure => .fail failure.code

/-- A store method whose value is not used. -/
def runStore (call : StoreCall) : Exec Unit :=
  .perform (.store call) fun
    | .ok _ => .done ()
    | .error failure => .fail failure.code

/-- `audit_ledger.record`. -/
def record (row : AuditRow) : Exec Unit :=
  .perform (.record row) fun
    | true => .done ()
    | false => .fail "audit_write_failed"

/-- Ask, and give the code where the answer is a failure that is handled. -/
def ask (query : Query) : Exec (Option String) :=
  .perform (.ask query) fun
    | .pass => .done none
    | .reject code => .done (some code)
    | .raise code => .fail code

/-- The catalog's action of this version. -/
def requireVersion (actionId versionId : String) : Exec CatalogAction :=
  .perform (.requireVersion actionId versionId) .done

/-! ## Audit rows -/

/-- The row of `_audit_request`. -/
def requestRow (session : String) (request : PreparedRequest) (event : String)
    (responseSummary : Json) : AuditRow where
  event := event
  localSessionId := session
  repositoryId := request.repositoryId
  connectorId := request.connectorId
  environment := request.environment
  actionId := request.actionId
  versionId := request.versionId
  requestId := some request.requestId
  method := request.method.value
  payloadHash := some request.payloadHash
  riskTier := request.riskTier
  approvalLevel := some request.approvalLevel
  mutationClass := some request.mutationClass
  approvalCount := some request.approvalCount
  state := request.state.value
  responseSummary := responseSummary

/-- `_audit_request`. -/
def auditRequest (session : String) (request : PreparedRequest) (event : String)
    (responseSummary : Json) : Exec Unit :=
  record (requestRow session request event responseSummary)

/-- `_response_summary`. -/
def responseSummary (result : ConnectorResult) : Json :=
  .obj ([("status", .str (if result.status = "succeeded" then "success" else "failed")),
    ("success", .bool (result.status == "succeeded")),
    ("outcome", .str (if result.status ∈ ["succeeded", "failed", "outcome_unknown"] then
      result.status else "unknown"))] ++
    if result.httpStatus = 0 then []
    else [("http_status", .int result.httpStatus),
      ("status_class", .str (toString (result.httpStatus / 100) ++ "xx"))])

/-- The row of `_audit_result`. -/
def resultRow (session repositoryId environment : String) (risk : Option RiskDecision)
    (action : CatalogAction) (event state : String) (result : ConnectorResult) : AuditRow where
  event := event
  localSessionId := session
  repositoryId := repositoryId
  connectorId := action.connectorId
  environment := environment
  actionId := action.actionId
  versionId := action.versionId
  requestId := none
  method := action.method.value
  payloadHash := none
  riskTier := (risk.map (·.tier)).getD action.riskTier
  approvalLevel := risk.map (·.approvalLevel)
  mutationClass := risk.map (·.mutationClass)
  approvalCount := none
  state := if state ∈ ["succeeded", "failed"] then state else "failed"
  responseSummary := responseSummary result

section

variable (env : Environment)

/-- `_audit_result`, with the risk of an action that is not a read. -/
def auditResult (session : String) (request : PreparedRequest) (action : CatalogAction)
    (event state : String) (result : ConnectorResult) : Exec Unit :=
  record (resultRow session request.repositoryId request.environment
    (if action.method = .get then none else env.effectiveRisk action) action event state result)

/-- `_failed_result`. -/
def failedResult (dispatched : Bool) : ConnectorResult :=
  ⟨"failed", 0, .null, "request_failed", dispatched⟩

/-- `_manual_reconciliation_result`. -/
def manualReconciliationResult : ConnectorResult :=
  ⟨"manual_reconciliation_required", 0, .null, "status_action_required", false⟩

/-! ## Checks before a write -/

/-- Invalidate the request with a reason and raise the reason. -/
def invalidateAndFail {α : Type} (requestId reason : String) : Exec α := do
  let _ ← callStore (.invalidate requestId reason)
  .fail reason

/-- Ask, and invalidate the request where the answer is a failure that is handled. -/
def askOrInvalidate (query : Query) (requestId reason : String) : Exec Unit := do
  match ← ask query with
  | none => return ()
  | some _ => invalidateAndFail requestId reason

/-- `_active_for_prepared`. -/
def activeForPrepared (prepared : PreparedRequest) : Exec CatalogAction := do
  askOrInvalidate (.activeAction prepared) prepared.requestId "preview_invalidated_action_version"
  requireVersion prepared.actionId prepared.versionId

/-- `_active_preflight_actions`. -/
def activePreflightActions (prepared : PreparedRequest) : Exec Unit :=
  askOrInvalidate (.activePreflightActions prepared) prepared.requestId
    "preview_invalidated_preflight_version"

/-- `_credential_snapshot`. -/
def credentialSnapshot (prepared : PreparedRequest) : Exec Unit :=
  askOrInvalidate (.credentialSnapshot prepared) prepared.requestId
    "preview_invalidated_credentials"

/-- `_require_credential_revision`. -/
def requireCredentialRevision (prepared : PreparedRequest) : Exec Unit :=
  askOrInvalidate (.credentialRevision prepared) prepared.requestId
    "preview_invalidated_credentials"

/-- `_truthy_provider_data`. -/
def truthyProviderData (value : Json) : Bool :=
  let truthy : Json → Bool
    | .null => false
    | .bool b => b
    | .int n => n != 0
    | .float text => text != "0.0" && text != "-0.0"
    | .str s => !s.isEmpty
    | .arr items => !items.isEmpty
    | .obj fields => !fields.isEmpty
  match ["items", "data", "records", "results"].find? (value.get? · |>.isSome) with
  | some key => truthy (value.getD key .null)
  | none => truthy value

/-- One round of the loop of `_run_preflights`: the code it returns, if any. -/
def runPreflight (session : String) (prepared : PreparedRequest) (action : CatalogAction)
    (binding : PreflightActionBinding) : Exec (Option String) := do
  activePreflightActions prepared
  let preflight ← requireVersion binding.actionId binding.versionId
  match ← ask (.preflightInputs binding) with
  | some _ => return some "validation_failed"
  | none =>
  match ← ask (.preflightRequest binding) with
  | some _ => do
      auditResult env session prepared preflight "preflight_completed" "failed" (failedResult false)
      return some "request_failed"
  | none =>
  askOrInvalidate (.preflightTarget binding) prepared.requestId "preview_invalidated_target"
  requireCredentialRevision prepared
  .perform (.sendRead binding.actionId binding.versionId) fun
    | .raised code => .fail code
    | .caught dispatched => do
        auditResult env session prepared preflight "preflight_completed" "failed"
          (failedResult dispatched)
        return some "request_failed"
    | .result result =>
        if result.status ≠ "succeeded" then do
          auditResult env session prepared preflight "preflight_completed" "failed" result
          return some "request_failed"
        else do
          auditResult env session prepared preflight "preflight_completed" "succeeded" result
          if action.idempotency.get? "duplicate_action_id" = some (.str binding.actionId) ∧
              truthyProviderData result.data then
            return some "duplicate_blocked"
          else return none

/-- `_run_preflights`: the code of the first preflight that stops the write. -/
def runPreflights (session : String) (prepared : PreparedRequest) (action : CatalogAction) :
    List PreflightActionBinding → Exec (Option String)
  | [] => return none
  | binding :: bindings => do
      match ← runPreflight env session prepared action binding with
      | some code => return some code
      | none => runPreflights session prepared action bindings

/-- `_fail_before_dispatch`. -/
def failBeforeDispatch (session : String) (prepared : PreparedRequest) (action : CatalogAction)
    (errorCode : String) : Exec ConnectorResult := do
  let summary : Json := .obj [("status", .str "failed"), ("error_code", .str errorCode)]
  let failed ← callStore (.failBeforeDispatch prepared.requestId "pre_dispatch_failed" summary)
  let result := if errorCode = "duplicate_blocked" then
    ⟨"duplicate_blocked", 0, .null, "duplicate_blocked", false⟩ else failedResult false
  auditRequest session failed "pre_dispatch_failed" summary
  auditResult env session prepared action "completed" "failed" result
  return result

/-! ## Completion -/

/-- Complete a request and record it. -/
def completeAndAudit (session : String) (executing : PreparedRequest) (outcome : String)
    (summary : Json) : Exec Unit := do
  let completed ← callStore (.complete executing.requestId outcome summary)
  auditRequest session completed "execution_completed" summary

/-- `_complete_failed`. -/
def completeFailed (session : String) (executing : PreparedRequest) (dispatched : Bool)
    (errorCode : String) : Exec ConnectorResult := do
  completeAndAudit session executing "failed"
    (.obj [("status", .str "failed"), ("error_code", .str errorCode)])
  return failedResult dispatched

/-- `_complete_unknown`. -/
def completeUnknown (session : String) (executing : PreparedRequest) (httpStatus : Nat) :
    Exec ConnectorResult := do
  let summary : Json := .obj ([("status", .str "unknown"), ("outcome", .str "outcome_unknown"),
    ("status_class", .str (if 500 ≤ httpStatus then "5xx" else "timeout"))] ++
    if httpStatus = 0 then [] else [("http_status", .int httpStatus)])
  completeAndAudit session executing "outcome_unknown" summary
  return ⟨"outcome_unknown", httpStatus, .null, "manual_reconciliation_required", true⟩

/-- `_complete_result`. -/
def completeResult (session : String) (executing : PreparedRequest) (result : ConnectorResult) :
    Exec ConnectorResult := do
  let outcome := if result.status = "outcome_unknown" then "outcome_unknown"
    else if result.status = "succeeded" then "succeeded" else "failed"
  completeAndAudit session executing outcome (responseSummary result)
  return result

/-- What is done with the end of `client.send`.  What is neither a response nor one of the caught
exceptions propagates. -/
def finish (session : String) (executing : PreparedRequest) : SendOutcome → Exec ConnectorResult
  | .connectError | .connectTimeout | .poolTimeout =>
      completeFailed session executing false "network_error"
  | .networkPolicyError true => completeUnknown session executing 0
  | .networkPolicyError false => completeFailed session executing false "network_error"
  | .transportError => completeUnknown session executing 0
  | .otherError code => .fail code
  | .response statusCode none => completeUnknown session executing statusCode
  | .response statusCode (some result) =>
      if 500 ≤ statusCode then completeUnknown session executing statusCode
      else completeResult session executing result

/-- `execute_write` from `start_execution` on. -/
def dispatch (session requestId : String) : Exec ConnectorResult := do
  let executing ← callStore (.startExecution requestId)
  .perform (.record (requestRow session executing "dispatch_started" (.obj []))) fun
    | true => .perform (.send executing.requestId) fun outcome => finish session executing outcome
    | false => do
        let _ ← callStore (.complete executing.requestId "failed"
          (.obj [("status", .str "failed"), ("error_code", .str "validation_failed")]))
        return failedResult false

/-! ## The methods -/

/-- `execute_write`. -/
def executeWrite (session requestId : String) : Exec ConnectorResult := do
  let prepared ← callStore (.requireReady requestId)
  let action ← activeForPrepared prepared
  match ← ask (.driver prepared) with
  | some code => .fail code
  | none =>
  activePreflightActions prepared
  match ← ask (.resolveTarget prepared) with
  | some code => .fail code
  | none =>
  match ← ask (.rebuildRequest prepared) with
  | some code =>
      invalidateAndFail prepared.requestId
        (if code = "bound_target_changed" ∨ code = "network_policy_error" then
          "preview_invalidated_target" else "preview_binding_changed")
  | none =>
  credentialSnapshot prepared
  match ← ask (.openClient prepared) with
  | some code => .fail code
  | none =>
  match ← ask (.prepareAuth prepared) with
  | some _ => failBeforeDispatch env session prepared action "authentication_failed"
  | none =>
  let configured ← (if prepared.preflightActions = [] then pure none
    else ask (.preflightConfiguration prepared))
  match configured with
  | some _ => failBeforeDispatch env session prepared action "validation_failed"
  | none =>
  match ← runPreflights env session prepared action prepared.preflightActions with
  | some code => failBeforeDispatch env session prepared action code
  | none =>
  match ← ask (.renderRequest prepared) with
  | some _ => failBeforeDispatch env session prepared action "validation_failed"
  | none =>
  let _ ← activeForPrepared prepared
  activePreflightActions prepared
  requireCredentialRevision prepared
  askOrInvalidate (.sameTarget prepared) prepared.requestId "preview_invalidated_target"
  dispatch session prepared.requestId

/-- `_record_approval`. -/
def recordApproval (session requestId payloadHash : String) (expectedClass : MutationClass)
    (event : String) : Exec PreparedRequest := do
  let approved ← callStore (.approve requestId payloadHash expectedClass)
  (auditRequest session approved event (.obj [])).catchFailure fun code => do
    let _ ← callStore (.invalidate approved.requestId "audit_failed")
    .fail code
  return approved

/-- `confirm_write`. -/
def confirmWrite (session requestId payloadHash : String) : Exec PreparedRequest := do
  let pending ← callStore (.get requestId)
  recordApproval session requestId payloadHash pending.mutationClass "confirmation_recorded"

/-- `approve_and_execute`. -/
def approveAndExecute (session requestId payloadHash : String) (expectedClass : MutationClass) :
    Exec ConnectorResult := do
  let approved ← recordApproval session requestId payloadHash expectedClass "approval_recorded"
  executeWrite env session approved.requestId

/-- `preview_write`. -/
def previewWrite (session : String) (action : CatalogAction) (environment : String)
    (inputs : Json) : Exec PreparedRequest :=
  .perform (.prepareWrite action environment inputs) fun
    | .error code => .fail code
    | .ok prepared => do
        runStore (.assertReplayAllowed prepared.payloadHash)
        let created ← callStore (.createPreview prepared action)
        (auditRequest session created "preview_created" (.obj [])).catchFailure fun code => do
          let _ ← callStore (.invalidate created.requestId "audit_failed")
          .fail code
        return created

/-- `_status_outcome`. -/
def statusOutcome (metadata data : Json) : Option String :=
  match metadata.getD "status_result_path" (.str "status") with
  | .str path =>
      if path.isEmpty then none
      else
        let current := (path.splitOn ".").foldl (fun value part => value.bind (·.get? part))
          (some data)
        let listed : String → List String → Bool := fun key default =>
          match metadata.get? key with
          | none => current.any fun value => default.any fun s => value == .str s
          | some (.arr values) => current.any fun value => values.any fun v => value == v
          | some _ => false
        if listed "success_values" ["completed", "posted", "succeeded", "success"] then
          some "succeeded"
        else if listed "failure_values" ["failed", "rejected", "voided"] then some "failed"
        else none
  | _ => none

/-- `resolve_unknown_with_status`. -/
def resolveUnknownWithStatus (session requestId : String) : Exec ConnectorResult := do
  let prepared ← callStore (.get requestId)
  if prepared.state ≠ .outcomeUnknown then .fail "request_not_outcome_unknown"
  else
  match ← ask (.activeAction prepared) with
  | some _ => .fail "preview_invalidated_action_version"
  | none =>
  let action ← requireVersion prepared.actionId prepared.versionId
  match ← ask (.statusAction prepared) with
  | some _ => return manualReconciliationResult
  | none =>
  let statusAction ← requireVersion prepared.actionId prepared.versionId
  .perform (.sendRead statusAction.actionId statusAction.versionId) fun
    | .raised code => .fail code
    | .caught dispatched => do
        auditResult env session prepared statusAction "completed" "failed" (failedResult dispatched)
        return manualReconciliationResult
    | .result result => do
        auditResult env session prepared statusAction "completed" result.status result
        if result.status ≠ "succeeded" then return manualReconciliationResult
        else match statusOutcome action.idempotency result.data with
        | none => return manualReconciliationResult
        | some outcome => do
            let resolved ← callStore
              (.resolveOutcomeUnknown requestId outcome (responseSummary result))
            let final : ConnectorResult :=
              ⟨outcome, result.httpStatus, result.data, "status_action_resolved", false⟩
            auditRequest session resolved "execution_completed" (responseSummary final)
            return final

end

end Exec

end Execution
end MercuryTools
