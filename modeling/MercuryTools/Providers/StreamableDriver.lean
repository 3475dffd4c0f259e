import MercuryTools.Framework.RaisingPrograms
import MercuryTools.Providers.RuntimeModels

/-!
# A call of a provider driver

`StreamableMCPDriver.call` of `providers/streamable_mcp.py`: it validates the call, lets the binding
be verified, opens a session with the provider, calls the tool and validates what comes back.  What
is raised on the way becomes an error that tells whether the tool may have been called.

Whatever is awaited or handed in is an effect: it may return anything, raise an exception or be
cancelled.  Every look at the deadline is an effect too, and so is the end of the timeout, which
turns a cancellation of its own into a `TimeoutError`.  The session does not swallow what is raised
within it, and no one else raises the driver's own errors.
-/

namespace MercuryTools.Providers

open Programs Checks

namespace Driver

/-! ## What is raised -/

/-- What classifying an exception looks at, in the chain of the exception. -/
structure ExceptionFacts where
  hasAuthStatus : Bool
  isSchemaFailure : Bool
  isUnsupportedProtocol : Bool
  isTimeout : Bool
  deriving DecidableEq

/-- An exception that says nothing. -/
def ExceptionFacts.plain : ExceptionFacts :=
  ⟨false, false, false, false⟩

/-- What others raise. -/
inductive Foreign where
  | cancelled
  | exception (facts : ExceptionFacts)
  deriving DecidableEq

/-- What the driver raises: `expired` is `_OperationDeadlineExpired`, a `TimeoutError`. -/
inductive Raised where
  | cancelled
  | expired (facts : ExceptionFacts)
  | exception (facts : ExceptionFacts)
  | runtime (error : ProviderRuntimeError)
  deriving DecidableEq

def Foreign.raised : Foreign → Raised
  | .cancelled => .cancelled
  | .exception facts => .exception facts

/-! ## Effects -/

/-- What `call_tool` returns: whether `isError` is `False`, and the mapping `structuredContent`. -/
structure ToolResult where
  isNoError : Bool
  structuredContent : Option (Dict String Json)

/-- What the responses have shown: whether one had a status of `_AUTH_HTTP_STATUSES`, and whether
one was not the protocol's. -/
structure Observations where
  authStatus : Bool
  protocolFailure : Bool

inductive Effect where
  | check
  | verifyBinding (connection : ConnectionRecord) (binding : QualifiedCapabilityBinding)
      (resourceUriSha256 : String)
  | resolveRequestModel (binding : VerifiedRuntimeBinding)
  | resolveResponseModel (binding : VerifiedRuntimeBinding)
  | headerFactory (connection : ConnectionRecord)
  | openSession (uri : String) (headers : Dict String String)
  | handshake
  | getSessionId
  | callTool (providerTool : String) (arguments : Dict String Json)
  | normalizeResponse (binding : VerifiedRuntimeBinding) (structuredContent : Dict String Json)
  | closeSession
  | leaveTimeout
  | observe

/-- What is returned or raised.  Where something else than the type asks for is returned, there is
nothing; a check that fails, and a timeout that turns a cancellation into an exception, say what is
in the chain of theirs. -/
def Reply : Effect → Type
  | .check => Option ExceptionFacts
  | .verifyBinding .. => Except Foreign (Option VerifiedRuntimeBinding)
  | .resolveRequestModel _ => Except Foreign (Option WireModel)
  | .resolveResponseModel _ => Except Foreign (Option WireModel)
  | .headerFactory _ => Except Foreign (Option ProviderAuthHeaders)
  | .openSession .. => Except Foreign Unit
  | .handshake => Except Foreign (Option String)
  | .getSessionId => Except Foreign (Option String)
  | .callTool .. => Except Foreign ToolResult
  | .normalizeResponse .. => Except Foreign (Option ModelInstance)
  | .closeSession => Option Foreign
  | .leaveTimeout => Option ExceptionFacts
  | .observe => Observations

/-- The variables of a call. -/
structure Locals where
  boundary : List String
  verifiedBinding : Option VerifiedRuntimeBinding
  possibleDispatch : Bool
  result : Option ProviderCallResult
  deriving DecidableEq

def Locals.initial : Locals :=
  ⟨[], none, false, none⟩

abbrev Driving (α : Type) : Type :=
  Raising Effect Reply Raised Locals α

/-! ## Steps -/

def ask (e : Effect) : Driving (Reply e) :=
  Raising.effect e

/-- `deadline.check()`, and `deadline.remaining()` and `deadline.reschedule(..)`, which check. -/
def check : Driving Unit := do
  let answer : Option ExceptionFacts ← ask .check
  match answer with
  | none => pure ()
  | some facts => Raising.raise (.expired facts)

/-- Raise what others have raised. -/
def orRaise {α : Type} (answer : Except Foreign α) : Driving α :=
  Raising.ofExcept (answer.mapError Foreign.raised)

/-- `raise TypeError`, unless the condition holds. -/
def demand (condition : Bool) : Driving Unit :=
  if condition then pure () else Raising.raise (.exception .plain)

/-- The value, or a `TypeError`. -/
def demandSome {α : Type} : Option α → Driving α
  | some a => pure a
  | none => Raising.raise (.exception .plain)

/-- What is computed by others without waiting, or an exception of theirs. -/
def demandOk {α : Type} (result : Except String α) : Driving α :=
  demandSome result.toOption

/-- `except _OperationDeadlineExpired: raise`, and every other `Exception` becomes the failure. -/
def guarded {α : Type} (failure : ProviderRuntimeError) (x : Driving α) : Driving α :=
  x.catching fun raised =>
    match raised with
    | .cancelled | .expired _ => Raising.raise raised
    | .exception _ | .runtime _ => Raising.raise (.runtime failure)

def addBoundary (casefold : String → String) (value : String) : Driving Unit :=
  Raising.assign fun s => { s with boundary := addBoundaryValue casefold s.boundary value }

end Driver

/-- What a driver is set up with; what it needs and does not have raises where it is needed. -/
structure StreamableMCPDriver where
  provider : ProviderId
  settings : String → Option String
  hasHeaderFactory : Bool
  hasBindingVerifier : Bool
  hasResponseNormalizer : Bool
  hasRequestModelResolver : Bool
  hasResponseModelResolver : Bool

/-- The arguments of a call: where something is not of its type, there is nothing. -/
structure CallArguments where
  connection : Option ConnectionRecord
  binding : Option QualifiedCapabilityBinding
  arguments : Option ModelInstance
  operationId : Option Hosted.UUID
  deadlineIsValid : Bool

namespace StreamableMCPDriver

open Driver

variable (rules : DriverRules) (driver : StreamableMCPDriver)

def failure (errorClass : RuntimeErrorClass) (certainty : DispatchCertainty) :
    ProviderRuntimeError :=
  ⟨errorClass, driver.provider, certainty⟩

/-- `_validate_connection_binding` -/
def validateConnectionBinding (connection : Option ConnectionRecord) :
    Driving ConnectionRecord := do
  let invalid := Raised.runtime (driver.failure .responseInvalid .notDispatched)
  match connection.filter (·.isValid) with
  | none => Raising.raise invalid
  | some checked =>
      if checked.authorizationMethod ≠ authAdapter driver.provider then
        Raising.raise (.runtime (driver.failure .authRequired .notDispatched))
      else if checked.provider ≠ driver.provider ∨
          checked.environment ∉ (environmentKeys driver.provider).keys then
        Raising.raise invalid
      else pure checked

/-- `_validate_call_binding` -/
def validateCallBinding (call : CallArguments) :
    Driving (ConnectionRecord × QualifiedCapabilityBinding × ModelInstance) := do
  let checkedConnection ← driver.validateConnectionBinding call.connection
  match call.binding.filter (·.isValid), call.arguments, call.operationId.filter (· ≠ 0) with
  | some checkedBinding, some arguments, some _ =>
      if checkedBinding.provider = driver.provider ∧
          checkedBinding.environment = checkedConnection.environment then
        pure (checkedConnection, checkedBinding, arguments)
      else Raising.raise (.runtime (driver.failure .responseInvalid .notDispatched))
  | _, _, _ => Raising.raise (.runtime (driver.failure .responseInvalid .notDispatched))

/-- `resolve_provider_resource` -/
def resolveProviderResource (environment : String) : Option ResolvedProviderResource := do
  let configKey ← (environmentKeys driver.provider).get environment
  let uri ← driver.settings configKey
  if rules.isCleanHttpsUrl uri then
    return ⟨driver.provider, environment, uri, rules.sha256 uri⟩
  else none

/-- `_resolve_resource` -/
def resolveResource (connection : ConnectionRecord) : Driving ResolvedProviderResource :=
  match driver.resolveProviderResource rules connection.environment with
  | some resource => pure resource
  | none => Raising.raise (.runtime (driver.failure .unavailable .notDispatched))

/-- What `_verify_runtime_binding` compares in the end. -/
def agrees (connection : ConnectionRecord) (untrusted : QualifiedCapabilityBinding)
    (resource : ResolvedProviderResource) (verified : VerifiedRuntimeBinding) : Bool :=
  verified.qualificationState = .enabled && verified.provider = driver.provider &&
    verified.provider = connection.provider && verified.environment = connection.environment &&
    verified.resourceUriSha256 = resource.uriSha256 &&
    verified.normalizedCapability = untrusted.normalizedCapability &&
    verified.providerTool = untrusted.providerTool &&
    verified.operationClass = untrusted.operationClass &&
    verified.qualificationHash = untrusted.qualificationHash

/-- `_verify_runtime_binding` -/
def verifyRuntimeBinding (connection : ConnectionRecord) (untrusted : QualifiedCapabilityBinding)
    (resource : ResolvedProviderResource) : Driving VerifiedRuntimeBinding := do
  let invalid := driver.failure .responseInvalid .notDispatched
  let verified ← guarded invalid do
    demand driver.hasBindingVerifier
    let answer : Except Foreign (Option VerifiedRuntimeBinding) ←
      ask (.verifyBinding connection untrusted resource.uriSha256)
    let value ← orRaise answer
    check
    let verified ← demandSome (value.filter (·.isValid))
    check
    return verified
  if driver.agrees connection untrusted resource verified then return verified
  else Raising.raise (.runtime invalid)

/-- `_resolve_schema_models` -/
def resolveSchemaModels (binding : VerifiedRuntimeBinding) :
    Driving (WireModelContract × WireModelContract) :=
  guarded (driver.failure .responseInvalid .notDispatched) do
    demand (driver.hasRequestModelResolver && driver.hasResponseModelResolver)
    let answer : Except Foreign (Option WireModel) ← ask (.resolveRequestModel binding)
    let requestModel ← orRaise answer
    check
    let answer : Except Foreign (Option WireModel) ← ask (.resolveResponseModel binding)
    let responseModel ← orRaise answer
    check
    let requestContract ← demandOk (wireModelContract rules requestModel)
    check
    let responseContract ← demandOk (wireModelContract rules responseModel)
    check
    demand (requestContract.schemaSha256 = binding.requestSchemaSha256 &&
      responseContract.schemaSha256 = binding.responseSchemaSha256)
    return (requestContract, responseContract)

/-- The instance, validated again by the model of the contract. -/
def revalidated (contract : WireModelContract) (value : ModelInstance) : Driving ModelInstance := do
  let revalidated ← demandSome (rules.revalidate contract.model value)
  check
  demand (revalidated.model = contract.model)
  return revalidated

/-- What the instance is as JSON. -/
def dumped (value : ModelInstance) : Driving Json := do
  let serialized ← demandSome (rules.dump value)
  check
  return serialized

/-- The value is a mapping. -/
def demandMapping : Json → Driving (Dict String Json)
  | .obj fields => pure fields
  | _ => Raising.raise (.exception .plain)

/-- The contract accepts the value. -/
def accepted (contract : WireModelContract) (value : Json) : Driving Unit := do
  demandOk (contract.validate rules value)
  check

/-- `_serialize_arguments` -/
def serializeArguments (arguments : ModelInstance) (requestContract : WireModelContract) :
    Driving (Dict String Json) :=
  guarded (driver.failure .responseInvalid .notDispatched) do
    demand (arguments.model = requestContract.model)
    let value ← revalidated rules requestContract arguments
    let serialized ← demandMapping (← dumped rules value)
    accepted rules requestContract (.obj serialized)
    return serialized

/-- One header of `_request_headers`. -/
def addHeader (headers : Dict String String) (header : ProviderAuthHeader) :
    Driving (Dict String String) := do
  demand (header.name ≠ "" && decide (rules.casefold header.name ∉ blockedHeaderNames) &&
    !header.name.toList.any (· ∈ ['\r', '\n']) && !header.value.toList.any (· ∈ ['\r', '\n']))
  addBoundary rules.casefold header.name
  addBoundary rules.casefold header.value
  return headers.set header.name header.value

/-- `_request_headers` -/
def requestHeaders (connection : ConnectionRecord) : Driving (Dict String String) :=
  guarded (driver.failure .authRequired .notDispatched) do
    demand driver.hasHeaderFactory
    let answer : Except Foreign (Option ProviderAuthHeaders) ← ask (.headerFactory connection)
    let value ← orRaise answer
    check
    let value ← demandSome (value.filter (·.isValid rules.casefold))
    check
    demand (value.provider = driver.provider && value.provider = connection.provider &&
      value.authorizationMethod = authAdapter driver.provider &&
      value.authorizationMethod = connection.authorizationMethod)
    let headers ← value.headers.foldlM (addHeader rules) []
    check
    return headers

/-- The block of the session, from where it is open; it is closed whatever the block does. -/
def closing {α : Type} (block : Driving α) : Driving α := do
  let result ← block.attempt
  let answer : Option Foreign ← ask .closeSession
  match answer with
  | some raised => Raising.raise raised.raised
  | none => Raising.ofExcept result

/-- `_session`, around its block. -/
def session {α : Type} (connection : ConnectionRecord) (resource : ResolvedProviderResource)
    (block : Driving α) : Driving α := do
  let headers ← driver.requestHeaders rules connection
  check
  Raising.ensuring (do
    check
    let answer : Except Foreign Unit ← ask (.openSession resource.uri headers)
    orRaise answer
    closing do
      check
      block) check

/-- `_initialize_session`: a failure of the schema or of the protocol becomes an
`_MCPProtocolFailure`. -/
def initializeSession : Driving (Option String) := do
  let answer : Except Foreign (Option String) ← ask .handshake
  match answer with
  | .ok version => return version
  | .error .cancelled => Raising.raise .cancelled
  | .error (.exception facts) =>
      if facts.isSchemaFailure || facts.isUnsupportedProtocol then
        Raising.raise (.exception { facts with isSchemaFailure := true })
      else Raising.raise (.exception facts)

/-- `_capture_session_id` -/
def captureSessionId : Driving Unit := do
  let answer : Except Foreign (Option String) ← ask .getSessionId
  match answer with
  | .ok (some sessionId) => addBoundary rules.casefold sessionId
  | .ok none => return ()
  | .error .cancelled => Raising.raise .cancelled
  | .error (.exception _) =>
      Raising.raise (.runtime (driver.failure .responseInvalid .notDispatched))

/-- `_validate_protocol` -/
def validateProtocol (initialized : Option String) : Driving Unit :=
  if initialized = some protocolVersion then pure ()
  else Raising.raise (.runtime (driver.failure .schemaChanged .notDispatched))

/-- The response, normalized to an instance of the response model. -/
def normalizedResponse (binding : VerifiedRuntimeBinding) (responseContract : WireModelContract)
    (structuredContent : Dict String Json) : Driving ModelInstance :=
  guarded (driver.failure .responseInvalid .dispatched) do
    demand driver.hasResponseNormalizer
    let answer : Except Foreign (Option ModelInstance) ←
      ask (.normalizeResponse binding structuredContent)
    let normalized ← orRaise answer
    check
    let normalized ← demandSome normalized
    demand (normalized.model = responseContract.model)
    return normalized

/-- The boundary of the request rejects nothing in the value. -/
def withinBoundary (value : Json) : Driving Unit := do
  let s ← Raising.read
  demand (!boundaryRejects rules.casefold s.boundary value)
  check

/-- `_normalize_call` -/
def normalizeCall (binding : VerifiedRuntimeBinding) (responseContract : WireModelContract)
    (result : ToolResult) : Driving (Dict String Json) := do
  let responseInvalid := driver.failure .responseInvalid .dispatched
  let schemaChanged := driver.failure .schemaChanged .dispatched
  match result.isNoError, result.structuredContent with
  | true, some structuredContent => do
      let normalized ← driver.normalizedResponse binding responseContract structuredContent
      let value ← guarded schemaChanged (revalidated rules responseContract normalized)
      let serialized ← guarded responseInvalid (dumped rules value)
      guarded schemaChanged (accepted rules responseContract serialized)
      guarded responseInvalid (withinBoundary rules serialized)
      guarded responseInvalid (demandMapping serialized)
  | _, _ => Raising.raise (.runtime responseInvalid)

/-- `ProviderCallResult(...)`, which becomes the result of the call. -/
def keepResult (normalizedData : Dict String Json) : Driving Unit :=
  guarded (driver.failure .responseInvalid .dispatched) do
    demand (isProviderData rules normalizedData)
    Raising.assign fun s =>
      { s with result := some ⟨driver.provider, .success, normalizedData, .dispatched⟩ }
    check

/-- The block of the session in `call`. -/
def dispatch (verified : VerifiedRuntimeBinding) (responseContract : WireModelContract)
    (serializedArguments : Dict String Json) : Driving Unit := do
  let initialized ← initializeSession
  check
  driver.captureSessionId rules
  check
  driver.validateProtocol initialized
  check
  Raising.assign fun s => { s with possibleDispatch := true }
  let answer : Except Foreign ToolResult ←
    ask (.callTool verified.providerTool serializedArguments)
  let rawResult ← orRaise answer
  check
  let normalizedData ← driver.normalizeCall rules verified responseContract rawResult
  check
  driver.keepResult rules normalizedData

/-- What `call` does before its timeout. -/
def attemptCall (call : CallArguments) : Driving Unit := do
  let (connection, binding, arguments) ← driver.validateCallBinding call
  check
  let resource ← driver.resolveResource rules connection
  check
  addBoundary rules.casefold resource.uri
  let verified ← driver.verifyRuntimeBinding connection binding resource
  Raising.assign fun s => { s with verifiedBinding := some verified }
  check
  addBoundary rules.casefold verified.providerTool
  check
  let (requestContract, responseContract) ← driver.resolveSchemaModels rules verified
  let serializedArguments ← driver.serializeArguments rules arguments requestContract
  check
  driver.session rules connection resource
    (driver.dispatch rules verified responseContract serializedArguments)
  check

/-- `asyncio.timeout_at`: a cancellation of its own becomes a `TimeoutError`. -/
def withinTimeout (x : Driving Unit) : Driving Unit :=
  x.catching fun raised => do
    match raised with
    | .cancelled =>
        let answer : Option ExceptionFacts ← ask .leaveTimeout
        match answer with
        | some facts => Raising.raise (.exception { facts with isTimeout := true })
        | none => Raising.raise .cancelled
    | _ => Raising.raise raised

/-- `_dispatched_read_error` -/
def dispatchedReadError (facts : ExceptionFacts) (observed : Observations) :
    ProviderRuntimeError :=
  if observed.authStatus || facts.hasAuthStatus then driver.failure .authRequired .dispatched
  else if observed.protocolFailure || facts.isSchemaFailure || facts.isUnsupportedProtocol then
    driver.failure .schemaChanged .dispatched
  else driver.failure .unavailable .dispatched

/-- `_predispatch_error` -/
def predispatchError (facts : ExceptionFacts) (observed : Observations) : ProviderRuntimeError :=
  if observed.authStatus || facts.hasAuthStatus then driver.failure .authRequired .notDispatched
  else if observed.protocolFailure || facts.isSchemaFailure || facts.isUnsupportedProtocol then
    driver.failure .schemaChanged .notDispatched
  else if facts.isTimeout then driver.failure .timeoutPreDispatch .notDispatched
  else driver.failure .unavailable .notDispatched

/-- A create whose tool may have been called. -/
def mayHaveCreated (s : Locals) : Bool :=
  s.possibleDispatch && s.verifiedBinding.any (·.operationClass = .create)

/-- An exception that is not the driver's own, as an error. -/
def classified (facts : ExceptionFacts) : Driving Unit := do
  let observed : Observations ← ask .observe
  let s ← Raising.read
  if s.possibleDispatch then Raising.raise (.runtime (driver.dispatchedReadError facts observed))
  else Raising.raise (.runtime (driver.predispatchError facts observed))

/-- The `except` arms of `call`. -/
def settle (raised : Raised) : Driving Unit := do
  let s ← Raising.read
  if mayHaveCreated s then
    Raising.raise (.runtime (driver.failure .outcomeUnknown .unknown))
  else
    match raised with
    | .cancelled => Raising.raise .cancelled
    | .runtime error => Raising.raise (.runtime (closedRuntimeError error))
    | .expired facts => driver.classified { facts with isTimeout := true }
    | .exception facts => driver.classified facts

/-- `_select_operation_deadline` -/
def selectOperationDeadline (call : CallArguments) : Driving Unit :=
  if call.deadlineIsValid then pure ()
  else Raising.raise (.runtime (driver.failure .responseInvalid .notDispatched))

/-- `StreamableMCPDriver.call` -/
def call (arguments : CallArguments) : Driving ProviderCallResult := do
  driver.selectOperationDeadline arguments
  (withinTimeout (driver.attemptCall rules arguments)).catching driver.settle
  let s ← Raising.read
  match s.result with
  | none => Raising.raise (.runtime (driver.failure .responseInvalid .notDispatched))
  | some result => do
      check.catching driver.settle
      return result

end StreamableMCPDriver

end MercuryTools.Providers
