import MercuryTools.Execution.ActionPath

/-!
# Prepared requests

`PreparedRequest` of `execution/models.py` with the checks of `validate_preview`, and the parts
of a catalog action that the request store compares it with.

The hash of a canonical JSON value, the redaction of a public value, `str.casefold` and what the
catalog and the risk policy say about an action come from an `Environment`.
-/

namespace MercuryTools
namespace Execution

open Checks

/-- Microseconds in UTC. -/
abbrev Instant := Int

/-- `PREVIEW_TTL`, fifteen minutes. -/
def previewTtl : Int := 15 * 60 * 1000000

inductive RequestState where
  | previewed
  | awaitingConfirmation
  | readyToExecute
  | executing
  | succeeded
  | failed
  | outcomeUnknown
  deriving DecidableEq, Repr

inductive HttpMethod where
  | get
  | post
  | put
  | patch
  | delete
  deriving DecidableEq, Repr

def HttpMethod.value : HttpMethod → String
  | .get => "GET"
  | .post => "POST"
  | .put => "PUT"
  | .patch => "PATCH"
  | .delete => "DELETE"

inductive ApprovalLevel where
  | standard
  | elevated
  deriving DecidableEq, Repr

def ApprovalLevel.value : ApprovalLevel → String
  | .standard => "standard"
  | .elevated => "elevated"

inductive MutationClass where
  | create
  | update
  | sensitive
  deriving DecidableEq, Repr

def MutationClass.value : MutationClass → String
  | .create => "create"
  | .update => "update"
  | .sensitive => "sensitive"

structure PreflightActionBinding where
  actionId : String
  versionId : String
  connectorId : String
  pathTemplate : String
  deriving DecidableEq, Repr

/-- The parts of `CatalogAction` that request construction and the request store read. -/
structure CatalogAction where
  actionId : String
  versionId : String
  connectorId : String
  environments : List String
  method : HttpMethod
  pathTemplate : String
  contentType : String
  inputSchema : Json
  riskTier : Nat
  preflightActionIds : List String
  idempotency : Json
  deriving Repr

/-- `RiskDecision` without its reasons. -/
structure RiskDecision where
  tier : Nat
  approvalLevel : ApprovalLevel
  mutationClass : MutationClass
  deriving DecidableEq, Repr

/-- What requests are given from outside. -/
structure Environment where
  canonicalPayloadHash : Json → String
  redactJson : Json → Json
  casefold : String → String
  revalidateCatalogAction : CatalogAction → Option CatalogAction
  effectiveRisk : CatalogAction → Option RiskDecision

/-! ## Requests -/

/-- The fields that the payload hash of a request covers. -/
structure RequestBinding where
  repositoryId : String
  connectorId : String
  environment : String
  actionId : String
  versionId : String
  method : HttpMethod
  finalPath : String
  requestInputs : Json
  riskTier : Nat
  approvalLevel : ApprovalLevel
  mutationClass : MutationClass
  credentialRevision : String
  preflightActions : List PreflightActionBinding
  deriving Repr

/-- A preview, without what happens to it: the fields no method of the store updates. -/
structure Preview extends RequestBinding where
  requestId : String
  pathTemplate : String
  payloadHash : String
  createdAt : Instant
  expiresAt : Instant
  deriving Repr

structure PreparedRequest extends Preview where
  sanitizedSummary : Json
  approvalCount : Nat
  state : RequestState
  failureReason : Option String
  responseSummary : Json
  deriving Repr

/-- `PreflightActionBinding.binding_payload`. -/
def PreflightActionBinding.bindingPayload (item : PreflightActionBinding) : Json :=
  .obj [("action_id", .str item.actionId), ("version_id", .str item.versionId),
    ("connector_id", .str item.connectorId), ("method", .str "GET"),
    ("path_template", .str item.pathTemplate)]

/-- `_binding_payload`. -/
def RequestBinding.bindingPayload (request : RequestBinding) : Json :=
  .obj [("repository_id", .str request.repositoryId), ("connector_id", .str request.connectorId),
    ("environment", .str request.environment), ("action_id", .str request.actionId),
    ("version_id", .str request.versionId), ("method", .str request.method.value),
    ("final_path", .str request.finalPath), ("request_inputs", request.requestInputs),
    ("risk_tier", .int request.riskTier), ("approval_level", .str request.approvalLevel.value),
    ("mutation_class", .str request.mutationClass.value),
    ("credential_revision", .str request.credentialRevision),
    ("preflight_actions", .arr (request.preflightActions.map (·.bindingPayload)))]

/-! ## Field patterns -/

/-- `_PAYLOAD_HASH` and `_CREDENTIAL_REVISION`: `^[0-9a-f]{64}$`. -/
def isHexDigest (s : String) : Bool :=
  s.toList.length = 64 && s.toList.all fun c => ('0' ≤ c && c ≤ '9') || ('a' ≤ c && c ≤ 'f')

/-- `_IDENTIFIER`: `^[A-Za-z][A-Za-z0-9_-]{0,127}$`. -/
def isIdentifier (s : String) : Bool :=
  match s.toList with
  | [] => false
  | c :: cs => c.isAlpha && cs.length ≤ 127 && cs.all fun d => d.isAlphanum || d == '_' || d == '-'

/-- `_REQUEST_ID`: `^req_[0-9a-z_]{8,128}$`. -/
def isRequestId (s : String) : Bool :=
  match s.toList with
  | 'r' :: 'e' :: 'q' :: '_' :: cs =>
      8 ≤ cs.length && cs.length ≤ 128 && cs.all fun c => c.isDigit || c.isLower || c == '_'
  | _ => false

/-- `_is_reason`: `[a-z][a-z0-9_]{0,63}`. -/
def isReason (s : String) : Bool :=
  match s.toList with
  | [] => false
  | c :: cs =>
      c.isLower && cs.length ≤ 63 && cs.all fun d => d.isLower || d.isDigit || d == '_'

/-- `_FORBIDDEN_HEADER_NAMES`. -/
def forbiddenHeaderNames : List String :=
  ["authorization", "cookie", "host", "proxy-authorization", "set-cookie"]

/-- `_PREVIEW_SUMMARY_KEYS`. -/
def previewSummaryKeys : List String :=
  ["amount", "body", "content_type", "count", "currency", "customer", "document", "document_type",
    "fields", "files", "has_body", "headers", "idempotency", "items", "line_items", "name",
    "operation", "path", "query", "record", "records", "request", "resource", "resources", "total"]

/-- `_RESPONSE_SUMMARY_KEYS`. -/
def responseSummaryKeys : List String :=
  ["count", "customer", "data", "document_number", "error", "error_code", "http_status",
    "invoice_number", "items", "latency_ms", "outcome", "provider_code", "provider_status",
    "result", "status", "status_class", "success"]

/-- `_SENSITIVE_PUBLIC_KEY_PARTS`. -/
def sensitivePublicKeyParts : List String :=
  ["address", "authorization", "cookie", "email", "firstname", "fullname", "lastname", "mobile",
    "name", "nationalid", "passport", "phone", "taxid"]

section

variable (env : Environment)

/-! ## Validation -/

/-- A key whose compact form contains a sensitive part. -/
def isSensitiveKey (name : String) : Bool :=
  let compact := (env.casefold name).toList.filter fun c => c.isDigit || c.isLower
  sensitivePublicKeyParts.any fun part => compact.tails.any fun suffix =>
    part.toList.isPrefixOf suffix

mutual

/-- `_redact_public_value`. -/
def redactPublicValue (allowlist : List String) : Json → Json
  | .obj fields => .obj (redactFields allowlist fields)
  | .arr items => .arr (redactItems allowlist items)
  | value => env.redactJson value

/-- The fields of an object that are on the list, the sensitive ones blanked. -/
def redactFields (allowlist : List String) : List (String × Json) → List (String × Json)
  | [] => []
  | (name, item) :: fields =>
      let rest := redactFields allowlist fields
      if name ∉ allowlist then rest
      else if isSensitiveKey env name then (name, .str "[REDACTED]") :: rest
      else (name, redactPublicValue allowlist item) :: rest

/-- The items of an array, redacted. -/
def redactItems (allowlist : List String) : List Json → List Json
  | [] => []
  | item :: items => redactPublicValue allowlist item :: redactItems allowlist items

end

/-- `_sanitize_public_data`. -/
def sanitizePublicData (value : Json) (allowlist : List String) : Except String Json := do
  require value.isObj "invalid_public_summary"
  return redactPublicValue env allowlist value

/-- `_valid_approval_binding`. -/
def validApprovalBinding (approvalLevel : ApprovalLevel) (mutationClass : MutationClass) : Bool :=
  approvalLevel == if mutationClass = .sensitive then .elevated else .standard

/-- `_validate_static_headers`. -/
def validateStaticHeaders (inputs : Json) : Except String Unit := do
  require inputs.isObj "invalid_request_inputs"
  match inputs.getD "headers" (.obj []) with
  | .obj headers => headers.forM fun (header, value) => do
      match value with
      | .str _ => require (env.casefold header ∉ forbiddenHeaderNames) "forbidden_request_header"
      | _ => .error "invalid_request_inputs"
  | _ => .error "invalid_request_inputs"

/-- `_validate_state_fields`: what a status says about the approval and the failure reason. -/
def validStateFields (request : PreparedRequest) : Bool :=
  match request.state with
  | .previewed | .awaitingConfirmation =>
      request.approvalCount == 0 && request.failureReason.isNone
  | .readyToExecute | .executing => request.approvalCount == 1 && request.failureReason.isNone
  | .succeeded | .failed | .outcomeUnknown => request.approvalCount ∈ [0, 1]

/-- A method no request of a mutation class may have. -/
def methodContradicts (method : HttpMethod) (mutationClass : MutationClass) : Bool :=
  (method == .delete && mutationClass != .sensitive) ||
    (method == .post && mutationClass == .update) ||
    (method ∈ [.put, .patch] && mutationClass == .create)

/-- `PreparedRequest.model_validate`: the field constraints, then `validate_preview`. -/
def PreparedRequest.validate (request : PreparedRequest) : Except String PreparedRequest := do
  require (request.method != .get) "method"
  require (request.approvalCount ∈ [0, 1]) "invalid_approval_count"
  require (isRequestId request.requestId) "invalid_request_id"
  require ([request.repositoryId, request.connectorId, request.environment].all isIdentifier)
    "invalid_request_binding"
  require (!request.actionId.isEmpty && !request.versionId.isEmpty) "invalid_request_binding"
  require (validFinalPath request.finalPath) "invalid_request_binding"
  let rendered ← renderActionPath request.pathTemplate
    (request.requestInputs.getD "path" (.obj []))
  require (request.finalPath == rendered) "request_path_mismatch"
  require (isHexDigest request.payloadHash) "invalid_payload_hash"
  require (isHexDigest request.credentialRevision) "invalid_credential_revision"
  require (request.preflightActions.map (·.actionId)).Nodup "invalid_preflight_binding"
  require (validApprovalBinding request.approvalLevel request.mutationClass)
    "invalid_approval_binding"
  require (request.expiresAt - request.createdAt == previewTtl) "preview_ttl_invalid"
  require (request.failureReason.all isReason) "invalid_failure_reason"
  validateStaticHeaders env request.requestInputs
  require (validStateFields request) "invalid_request_state"
  require (request.payloadHash == env.canonicalPayloadHash request.bindingPayload)
    "payload_hash_mismatch"
  require (!methodContradicts request.method request.mutationClass) "invalid_mutation_class"
  let sanitizedSummary ← sanitizePublicData env request.sanitizedSummary previewSummaryKeys
  let responseSummary ← sanitizePublicData env request.responseSummary responseSummaryKeys
  return { request with sanitizedSummary := sanitizedSummary, responseSummary := responseSummary }

end

end Execution
end MercuryTools
