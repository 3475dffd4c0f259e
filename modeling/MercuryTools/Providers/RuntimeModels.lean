import MercuryTools.Providers.Models
import MercuryTools.Providers.WireSchema

/-!
# Bindings, results and errors of the provider runtime

The closed contracts of `providers/base.py`, the resources of `providers/manifest.py`, and the
headers and wire models of `providers/streamable_mcp.py`.

A manifest is what its provider makes of it, since it is validated against fixed tables.  A binding,
a header set and a model instance can be any value that such an object of the source can be; the
checks say which are valid.
-/

namespace MercuryTools.Providers

open Checks
open Mcp (Schema Validator)

/-! ## Enumerations -/

inductive ProviderOperationClass where
  | read
  | create
  deriving DecidableEq

inductive ProviderQualificationState where
  | enabled
  | disabled
  | superseded
  deriving DecidableEq

inductive ProviderStatusClass where
  | success
  | unavailable
  | authRequired
  | schemaChanged
  | timeout
  | outcomeUnknown
  | responseInvalid
  deriving DecidableEq

inductive DispatchCertainty where
  | notApplicable
  | notDispatched
  | dispatched
  | unknown
  deriving DecidableEq

/-! ## Bindings -/

/-- `_IDENTIFIER`, of at most so many characters. -/
def isIdentifierWithin (length : ℕ) (s : String) : Bool :=
  s.toList.length ≤ length &&
    match s.toList with
    | [] => false
    | c :: cs => ('a' ≤ c && c ≤ 'z') && Credentials.isIdentifierRest false cs

/-- No character is of category `Cc` or `Cf`. -/
def hasNoControls (s : String) : Bool :=
  !s.toList.any fun c => Credentials.isControl c || Credentials.isFormat c

/-- `provider_tool`: `_TOOL_NAME` without controls. -/
def isToolName (s : String) : Bool :=
  Hosted.isIdentifier s && hasNoControls s

/-- A server-side binding, qualified by the catalog. -/
structure QualifiedCapabilityBinding where
  provider : ProviderId
  environment : String
  normalizedCapability : String
  providerTool : String
  operationClass : ProviderOperationClass
  qualificationHash : String
  deriving DecidableEq

/-- `QualifiedCapabilityBinding.model_validate` passes. -/
def QualifiedCapabilityBinding.isValid (binding : QualifiedCapabilityBinding) : Bool :=
  isIdentifierWithin 64 binding.environment &&
    isIdentifierWithin 200 binding.normalizedCapability && isToolName binding.providerTool &&
    Hosted.isSha256 binding.qualificationHash

/-- A server-side execution record, resolved by the authority of the catalog. -/
structure VerifiedRuntimeBinding where
  qualificationState : ProviderQualificationState
  provider : ProviderId
  environment : String
  resourceUriSha256 : String
  normalizedCapability : String
  capabilityVersion : String
  providerTool : String
  operationClass : ProviderOperationClass
  requestSchemaSha256 : String
  responseSchemaSha256 : String
  qualificationHash : String
  deriving DecidableEq

/-- `VerifiedRuntimeBinding.model_validate` passes. -/
def VerifiedRuntimeBinding.isValid (binding : VerifiedRuntimeBinding) : Bool :=
  isIdentifierWithin 64 binding.environment && Hosted.isSha256 binding.resourceUriSha256 &&
    isIdentifierWithin 200 binding.normalizedCapability &&
    1 ≤ binding.capabilityVersion.toList.length && binding.capabilityVersion.toList.length ≤ 64 &&
    hasNoControls binding.capabilityVersion && isToolName binding.providerTool &&
    Hosted.isSha256 binding.requestSchemaSha256 && Hosted.isSha256 binding.responseSchemaSha256 &&
    Hosted.isSha256 binding.qualificationHash

/-! ## Errors -/

/-- The class of a `ProviderRuntimeError`. -/
inductive RuntimeErrorClass where
  | unavailable
  | authRequired
  | schemaChanged
  | timeoutPreDispatch
  | outcomeUnknown
  | responseInvalid
  deriving DecidableEq

structure ProviderRuntimeError where
  errorClass : RuntimeErrorClass
  provider : ProviderId
  dispatchCertainty : DispatchCertainty
  deriving DecidableEq

/-- `_closed_runtime_error` -/
def closedRuntimeError (error : ProviderRuntimeError) : ProviderRuntimeError :=
  ⟨error.errorClass, error.provider, error.dispatchCertainty⟩

/-! ## Results -/

/-- What a `ProviderCallResult` holds. -/
structure ProviderCallResult where
  provider : ProviderId
  statusClass : ProviderStatusClass
  normalizedData : Dict String Json
  dispatchCertainty : DispatchCertainty
  deriving DecidableEq

/-- `_RESERVED_NORMALIZED_KEYS` -/
def reservedNormalizedKeys : List String :=
  ["authorization", "cookie", "headers", "mcpsessionid", "sessionid", "setcookie", "toolname"]

/-- `_contains_reserved_normalized_key` -/
def containsReservedNormalizedKey (casefold : String → String) (value : Json) : Bool :=
  !value.all fun
    | .obj fields => fields.all fun field =>
        decide (String.ofList ((casefold field.1).toList.filter Credentials.isLowerAlnum) ∉
          reservedNormalizedKeys)
    | _ => true

/-! ## Resources -/

/-- `_EXPECTED_ENVIRONMENT_KEYS`, which are the environments of a manifest. -/
def environmentKeys : ProviderId → Dict String String
  | .flowaccount =>
      [("sandbox", "flowaccount_mcp_sandbox_url"), ("production", "flowaccount_mcp_production_url")]
  | .peak => [("uat", "peak_mcp_uat_url"), ("production", "peak_mcp_production_url")]

/-- `_EXPECTED_AUTH_ADAPTERS`, which is the `auth_adapter` of a manifest. -/
def authAdapter : ProviderId → AuthorizationMethod
  | .flowaccount => .oauth2Pkce
  | .peak => .providerCredentials

/-- The `protocol_version` of a manifest. -/
def protocolVersion : String := "2025-11-25"

structure ResolvedProviderResource where
  provider : ProviderId
  environment : String
  uri : String
  uriSha256 : String
  deriving DecidableEq

/-! ## Wire models -/

/-- A pydantic model: its configuration, and its schema where it has one. -/
structure WireModel where
  name : String
  forbidsExtra : Bool
  isFrozen : Bool
  revalidatesInstances : Bool
  jsonSchema : Option Json
  deriving DecidableEq

/-- An instance of a model. -/
structure ModelInstance where
  model : WireModel
  fields : Dict String Json
  deriving DecidableEq

/-- What the driver takes from its libraries: the validator and the formats of `jsonschema`, the
depth of the stack, `sha256`, what pydantic makes of an instance, `str.casefold`,
`validate_credential_safe` and `_is_clean_https_url`. -/
structure DriverRules where
  validator : Validator
  formatCheckers : List String
  depth : ℕ
  sha256 : String → String
  revalidate : WireModel → ModelInstance → Option ModelInstance
  dump : ModelInstance → Option Json
  casefold : String → String
  isCredentialSafe : Json → Bool
  isCleanHttpsUrl : String → Bool

/-- `_WireModelContract` -/
structure WireModelContract where
  model : WireModel
  schemaSha256 : String
  validationSchema : Schema
  deriving DecidableEq

section

variable (rules : DriverRules)

/-- `_WireModelContract.validate` -/
def WireModelContract.validate (contract : WireModelContract) (value : Json) :
    Except String Unit := do
  WireSchema.assertClosedLocalRefTargets rules.formatCheckers rules.depth
    (.obj contract.validationSchema)
  require (rules.validator.validates (.obj contract.validationSchema) value) "ValidationError"

/-- The contract of a schema that passes the checks. -/
def contractOfSchema (model : WireModel) (schema : Schema) : Except String WireModelContract := do
  require (WireSchema.hasWireSchemaDialect (.obj schema)) WireSchema.schemaModelInvalid
  WireSchema.assertClosedWireSchema rules.formatCheckers rules.depth schema
  let validationSchema := Dict.set schema "$schema" (.str WireSchema.wireSchemaDialect)
  require (rules.validator.checkSchema (.obj validationSchema)) "SchemaError"
  match Catalog.canonicalJson (.obj schema) with
  | some canonicalSchema => return ⟨model, rules.sha256 canonicalSchema, validationSchema⟩
  | none => throw "ValueError"

/-- `_wire_model_contract`, of something that may be no model; whatever is raised is one error. -/
def wireModelContract (model : Option WireModel) : Except String WireModelContract :=
  let contract : Except String WireModelContract :=
    match model with
    | some model => do
        require (model.forbidsExtra && model.isFrozen && model.revalidatesInstances) "TypeError"
        match model.jsonSchema with
        | some (.obj schema) => contractOfSchema rules model schema
        | _ => throw "TypeError"
    | none => .error "TypeError"
  contract.mapError fun _ => WireSchema.schemaModelInvalid

/-- The checks of `ProviderCallResult`. -/
def isProviderData (data : Dict String Json) : Bool :=
  rules.isCredentialSafe (.obj data) && !containsReservedNormalizedKey rules.casefold (.obj data)

end

/-! ## Headers -/

/-- `_BLOCKED_HEADER_NAMES` -/
def blockedHeaderNames : List String :=
  ["connection", "content-length", "host", "http2-settings", "keep-alive", "last-event-id",
    "mcp-session-id", "proxy-authenticate", "proxy-authorization", "te", "trailer",
    "transfer-encoding", "upgrade"]

structure ProviderAuthHeader where
  name : String
  value : String
  deriving DecidableEq

/-- The characters of `_HTTP_HEADER_NAME`. -/
def isHeaderNameCharacter (c : Char) : Bool :=
  Hosted.isAlnum c || c ∈ "!#$%&'*+-.^_`|~".toList

def ProviderAuthHeader.isValid (header : ProviderAuthHeader) : Bool :=
  1 ≤ header.name.toList.length && header.name.toList.length ≤ 200 &&
    1 ≤ header.value.toList.length && header.value.toList.length ≤ 8192 &&
    hasNoControls header.name && hasNoControls header.value &&
    header.name.toList.all isHeaderNameCharacter

structure ProviderAuthHeaders where
  provider : ProviderId
  authorizationMethod : AuthorizationMethod
  headers : List ProviderAuthHeader
  deriving DecidableEq

/-- `ProviderAuthHeaders.model_validate` passes. -/
def ProviderAuthHeaders.isValid (casefold : String → String) (value : ProviderAuthHeaders) : Bool :=
  let names := value.headers.map fun header => casefold header.name
  1 ≤ value.headers.length && value.headers.length ≤ 32 && value.headers.all (·.isValid) &&
    decide names.Nodup && names.all fun name =>
      !"mcp-".toList.isPrefixOf name.toList && decide (name ∉ blockedHeaderNames)

/-! ## The boundary of a request -/

/-- `_RequestBoundaryValues.add`, on the values so far. -/
def addBoundaryValue (casefold : String → String) (boundary : List String) (value : String) :
    List String :=
  if value = "" then boundary else casefold value :: boundary

/-- `_RequestBoundaryValues.rejects`, of one text. -/
def rejectsText (casefold : String → String) (boundary : List String) (text : String) : Bool :=
  boundary.any fun value => casefold text = value ||
    (8 ≤ value.toList.length && decide (value.toList <:+: (casefold text).toList))

/-- `_RequestBoundaryValues.rejects` -/
def boundaryRejects (casefold : String → String) (boundary : List String) (value : Json) : Bool :=
  !value.all fun
    | .str text => !rejectsText casefold boundary text
    | .obj fields => fields.all fun field => !rejectsText casefold boundary field.1
    | _ => true

end MercuryTools.Providers
