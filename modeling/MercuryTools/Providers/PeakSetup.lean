import MercuryTools.Providers.StoreSteps

/-!
# The PEAK setup store

`InMemoryPeakSetupStore` of `providers/peak_setup.py`: the one-time handoff from a setup token to
a browser session, and from the session to a connection.  The attempts are kept by the connection
store next to its connections, the sessions by the setup store itself.

Attempts that are constructed are validated, but `create_attempt` then copies one under another
identifier without validating it again, so that what is stored is a record.  Session and CSRF
hashes that do not come from a record are arbitrary texts: comparing them raises a `TypeError`
where one is not ASCII.
-/

namespace MercuryTools.Providers

open Checks Credentials Hosted Operation

/-- A `SetupAttempt`, validated or not. -/
structure SetupAttempt extends Scope where
  id : UUID
  tokenHash : String
  expiresAt : Instant
  consumedAt : Option Instant
  createdAt : Instant
  deriving DecidableEq

namespace SetupAttempt

/-- The field constraints and `validate_lifecycle`. -/
def isValid (attempt : SetupAttempt) : Bool :=
  Credentials.isIdentifier attempt.environment && isSha256 attempt.tokenHash &&
    (attempt.id :: attempt.toUser.ids).all (· != 0) && attempt.createdAt < attempt.expiresAt &&
    attempt.consumedAt.all (attempt.createdAt ≤ ·)

/-- The attempt once it is consumed. -/
def consume (attempt : SetupAttempt) (now : Instant) : SetupAttempt :=
  { attempt with consumedAt := some now }

end SetupAttempt

/-- A `PeakSetupSessionRecord`. -/
structure PeakSetupSession extends Scope where
  id : UUID
  setupAttemptId : UUID
  sessionHash : String
  csrfHash : String
  expiresAt : Instant
  consumedAt : Option Instant
  createdAt : Instant
  deriving DecidableEq

def PeakSetupSession.consume (session : PeakSetupSession) (now : Instant) : PeakSetupSession :=
  { session with consumedAt := some now }

/-- The connection store with its `_attempts`, and `_sessions`. -/
structure PeakSetupStore where
  connectionStore : Store
  attempts : Dict UUID SetupAttempt
  sessions : Dict UUID PeakSetupSession
  deriving DecidableEq

/-- A `PeakSetupError` with its code, what the connection store raises, or a `TypeError`. -/
inductive SetupError where
  | setup (code : String)
  | store (e : StoreError)
  | type
  deriving DecidableEq

def setupStateInvalid : SetupError := .setup "peak_setup_state_invalid"

abbrev SetupOperation (α : Type) : Type :=
  Operation PeakSetupStore SetupError α

/-- The arguments of `create_attempt`, without the identifier. -/
structure SetupArguments where
  user : User
  provider : ProviderId
  environment : String
  tokenHash : String
  expiresAt : DateTime

structure ExchangeArguments where
  sessionId : UUID
  authUserId : UUID
  tokenHash : String
  sessionHash : String
  csrfHash : String

structure FinalizeArguments where
  session : PeakSetupSession
  sessionHash : String
  csrfHash : String
  connection : ConnectionRecord
  envelopes : List CredentialEnvelope

namespace PeakSetupStore

variable (s : PeakSetupStore)

def setAttempt (attemptId : UUID) (attempt : SetupAttempt) : PeakSetupStore :=
  { s with attempts := s.attempts.set attemptId attempt }

def removeAttempt (attemptId : UUID) : PeakSetupStore :=
  { s with attempts := s.attempts.remove attemptId }

def setSession (sessionId : UUID) (session : PeakSetupSession) : PeakSetupStore :=
  { s with sessions := s.sessions.set sessionId session }

end PeakSetupStore

/-! ## Creating an attempt -/

/-- `_MAX_ATTEMPT_LIFETIME`, ten minutes. -/
def maxAttemptLifetime : Int := 600 * 1000000

def setupAttemptInvalid : SetupError := .store (.store "provider_setup_attempt_invalid")

def setupAttemptConflict : SetupError := .store (.store "provider_setup_attempt_conflict")

/-- The attempt that `ProviderConnectionStore.create_attempt` constructs. -/
def describedAttempt (args : SetupArguments) (fresh : UUID) (now : Instant) :
    Except SetupError SetupAttempt := do
  (requireIds args.user.ids).mapError .store
  require (isSha256 args.tokenHash) setupAttemptInvalid
  let expiresAt ← (awareUtc args.expiresAt "").mapError fun _ => setupAttemptInvalid
  require (now < expiresAt && expiresAt ≤ now + maxAttemptLifetime) setupAttemptInvalid
  let attempt : SetupAttempt :=
    { toUser := args.user
      provider := args.provider
      environment := args.environment
      id := fresh
      tokenHash := args.tokenHash
      expiresAt := expiresAt
      consumedAt := none
      createdAt := now }
  require attempt.isValid setupAttemptInvalid
  return attempt

/-- `ProviderConnectionStore.create_attempt`; `fresh` is the drawn identifier. -/
def registerAttempt (args : SetupArguments) (fresh : UUID) (now : Instant) :
    SetupOperation SetupAttempt := do
  let attempt ← check fun _ => describedAttempt args fresh now
  check fun s => require (!s.attempts.values.any fun existing =>
    existing.tokenHash == args.tokenHash) setupAttemptConflict
  modify fun s => s.setAttempt attempt.id attempt
  return attempt

/-- What `create_attempt` does with the attempt that the connection store has created: it takes
the lock a second time and stores it under its own identifier. -/
def renameAttempt (created : SetupAttempt) (attemptId : UUID) : SetupOperation SetupAttempt := do
  if created.id = attemptId then
    return created
  else do
    check fun s => require (s.attempts.get created.id).isSome (.store .key)
    modify fun s => s.removeAttempt created.id
    modify fun s => s.setAttempt attemptId { created with id := attemptId }
    return { created with id := attemptId }

/-- `create_attempt`. -/
def createAttempt (args : SetupArguments) (fresh attemptId : UUID) (now : Instant) :
    SetupOperation SetupAttempt := do
  let created ← registerAttempt args fresh now
  renameAttempt created attemptId

/-! ## Exchanging it for a session -/

/-- The attempt that the token is for, if it can be exchanged now. -/
def PeakSetupStore.requireExchangeable (s : PeakSetupStore) (args : ExchangeArguments)
    (now : Instant) : Except SetupError SetupAttempt :=
  match s.attempts.values.find? fun item => item.authUserId == args.authUserId &&
      item.provider == .peak && item.tokenHash == args.tokenHash with
  | none => .error setupStateInvalid
  | some attempt => do
      require (attempt.consumedAt.isNone && now < attempt.expiresAt &&
        !(s.sessions.values.any fun session => session.setupAttemptId == attempt.id) &&
        !(s.sessions.values.any fun session => session.sessionHash == args.sessionHash ||
          session.csrfHash == args.csrfHash)) setupStateInvalid
      return attempt

/-- The session of the attempt. -/
def SetupAttempt.session (attempt : SetupAttempt) (args : ExchangeArguments) (now : Instant) :
    PeakSetupSession where
  toScope := attempt.toScope
  id := args.sessionId
  setupAttemptId := attempt.id
  sessionHash := args.sessionHash
  csrfHash := args.csrfHash
  expiresAt := attempt.expiresAt
  consumedAt := none
  createdAt := now

/-- `exchange_attempt`. -/
def exchangeAttempt (args : ExchangeArguments) (now : Instant) :
    SetupOperation PeakSetupSession := do
  check fun _ => require ([args.tokenHash, args.sessionHash, args.csrfHash].all isSha256)
    setupStateInvalid
  let attempt ← check fun s => s.requireExchangeable args now
  modify fun s => s.setSession args.sessionId (attempt.session args now)
  return attempt.session args now

/-! ## Reading a session -/

def isAscii (text : String) : Bool :=
  text.toList.all fun c => c.toNat < 128

/-- `secrets.compare_digest`, for texts. -/
def compareDigest (text other : String) : Except SetupError Bool :=
  if isAscii text && isAscii other then .ok (text == other) else .error .type

/-- `peek_session`. -/
def peekSession (authUserId : UUID) (sessionHash : String) (now : Instant) :
    SetupOperation PeakSetupSession :=
  check fun s => do
    let record? ← s.sessions.values.findM? fun item =>
      if item.authUserId = authUserId then compareDigest item.sessionHash sessionHash
      else .ok false
    match record? with
    | none => .error setupStateInvalid
    | some record => do
        require (record.consumedAt.isNone && now < record.expiresAt) setupStateInvalid
        return record

/-! ## Finalizing -/

/-- `_same_setup_binding`. -/
def sameSetupBinding (session : PeakSetupSession) (attempt : SetupAttempt)
    (connection : ConnectionRecord) : Bool :=
  session.setupAttemptId == attempt.id && session.toScope == attempt.toScope &&
    attempt.toScope == connection.toScope && connection.provider == .peak

/-- What `finalize` asks of the stored session; the attempt that it belongs to. -/
def PeakSetupStore.requireFinalizable (s : PeakSetupStore) (args : FinalizeArguments)
    (now : Instant) : Except SetupError SetupAttempt :=
  match s.sessions.get args.session.id with
  | none => .error setupStateInvalid
  | some current => do
      require (current == args.session && current.consumedAt.isNone && now < current.expiresAt)
        setupStateInvalid
      let sameSession ← compareDigest current.sessionHash args.sessionHash
      require sameSession setupStateInvalid
      let sameCsrf ← compareDigest current.csrfHash args.csrfHash
      require sameCsrf setupStateInvalid
      match s.attempts.get args.session.setupAttemptId with
      | none => .error setupStateInvalid
      | some attempt => do
          require (attempt.consumedAt.isNone && now < attempt.expiresAt &&
            sameSetupBinding current attempt args.connection) setupStateInvalid
          return attempt

/-- The arguments of `save_connection` for the connection. -/
def ConnectionRecord.arguments (connection : ConnectionRecord)
    (envelopes : List CredentialEnvelope) : ConnectionArguments where
  user := connection.toUser
  provider := connection.provider.value
  environment := connection.environment
  companyOrMerchantId := connection.providerAccountId
  accountDisplayName := connection.accountDisplayName
  authorizationMethod := connection.authorizationMethod.value
  grantedPermissions := connection.grantedPermissions
  readiness := connection.readiness.value
  revision := connection.revision
  validatedAt := connection.lastValidatedAt.map fun t => ⟨t, some 0⟩
  envelopes := envelopes

/-- The two maps that `finalize` puts back. -/
def PeakSetupStore.restoreConnections (s s' : PeakSetupStore) : PeakSetupStore :=
  { s' with
    connectionStore :=
      { s'.connectionStore with
        connections := s.connectionStore.connections
        envelopes := s.connectionStore.envelopes } }

section

variable (crypto : Crypto) (vault : CredentialVault)

/-- `save_connection` of the connection store. -/
def saveSetupConnection (args : FinalizeArguments) (now : Instant) : SetupOperation Connection :=
  (within PeakSetupStore.connectionStore (fun s store => { s with connectionStore := store })
    (saveConnection crypto vault args.connection.id (args.connection.arguments args.envelopes)
      now)).mapError .store

/-- `finalize`; the second reading of the clock is that of the connection store. -/
def finalizeSetup (args : FinalizeArguments) (clock : Nat → Instant) :
    SetupOperation Connection := do
  let attempt ← check fun s => s.requireFinalizable args (clock 0)
  let saving : SetupOperation Connection := do
    let finalized ← saveSetupConnection crypto vault args (clock 1)
    let consumed := attempt.consume (clock 0)
    check fun _ => require consumed.isValid setupAttemptInvalid
    modify fun s => s.setAttempt attempt.id consumed
    modify fun s => s.setSession args.session.id (args.session.consume (clock 0))
    return finalized
  (saving.restoring PeakSetupStore.restoreConnections).mapError fun _ => setupStateInvalid

end

end MercuryTools.Providers
