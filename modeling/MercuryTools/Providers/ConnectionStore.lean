import MercuryTools.Framework.Operations
import MercuryTools.Providers.Models

/-!
# The provider connection store

`ProviderConnectionStore` of `providers/store.py`: connections and OAuth attempts with the
envelopes they own, and the attempt that a connection was last finalized from.  Every operation
holds the lock, so operations follow one another; an operation that raises leaves what it has
changed, unless the source restores it.

A call reads the clock a few times; `clock n` is its `n`-th reading.  Setup attempts and the
operations that only load are not modelled: they do not touch these five maps.
-/

namespace MercuryTools.Providers

open Checks Credentials Hosted Operation

/-- The maps `_connections`, `_envelopes`, `_oauth_attempts`, `_oauth_attempt_envelopes` and
`_connection_oauth_generations`. -/
structure Store where
  connections : Dict UUID Connection
  envelopes : Dict UUID CredentialEnvelope
  oauthAttempts : Dict UUID OAuthAttempt
  oauthAttemptEnvelopes : Dict UUID CredentialEnvelope
  connectionOauthGenerations : Dict UUID UUID
  deriving DecidableEq

def Store.empty : Store :=
  ⟨[], [], [], [], []⟩

abbrev StoreOperation (α : Type) : Type :=
  Operation Store StoreError α

/-- The arguments that describe an attempt. -/
structure AttemptArguments where
  attemptId : UUID
  user : User
  provider : String
  environment : String

/-- The arguments that describe an account and its authorization. -/
structure AccountArguments where
  user : User
  provider : String
  environment : String
  companyOrMerchantId : String
  accountDisplayName : String
  authorizationMethod : String
  grantedPermissions : List String

/-- The arguments that describe a connection and its credentials. -/
structure ConnectionArguments extends AccountArguments where
  readiness : String
  revision : Int
  validatedAt : Option DateTime
  envelopes : List CredentialEnvelope

/-! ## Arguments -/

/-- `_require_uuid` for each of them. -/
def requireIds (ids : List UUID) : Except StoreError Unit :=
  require (ids.all (· != 0)) connectionInvalid

/-- `_provider(value, "provider_connection_invalid")` -/
def parseProvider (value : String) : Except StoreError ProviderId :=
  match ProviderId.ofValue? value with
  | some provider => .ok provider
  | none => .error connectionInvalid

def parseMethod (value : String) : Except StoreError AuthorizationMethod :=
  match AuthorizationMethod.ofValue? value with
  | some method => .ok method
  | none => .error connectionInvalid

def parseReadiness (value : String) : Except StoreError ConnectionReadiness :=
  match ConnectionReadiness.ofValue? value with
  | some readiness => .ok readiness
  | none => .error connectionInvalid

/-- `_permissions`. -/
def checkPermissions (permissions : List String) : Except StoreError Unit :=
  require (!permissions.isEmpty && sorted permissions == permissions && decide permissions.Nodup)
    connectionInvalid

/-- `_require_aware`, for a timestamp of a connection. -/
def awareTimestamp : Option DateTime → Except StoreError (Option Instant)
  | none => .ok none
  | some value => (some <$> awareUtc value "").mapError fun _ => connectionInvalid

/-- Whether the argument is the instant, or neither is there; a naive value is no instant. -/
def isTimestamp : Option DateTime → Option Instant → Bool
  | none, t => t.isNone
  | some value, t => awareUtc value "" |>.toOption |>.any (t == some ·)

def Scope.matchesEnvelope (scope : Scope) (envelope : CredentialEnvelope) : Bool :=
  envelope.tenantId == scope.tenantId && envelope.workspaceId == scope.workspaceId &&
    envelope.authUserId == scope.authUserId && envelope.provider == scope.provider.value &&
    envelope.environment == scope.environment

/-- The `CredentialBinding` of an envelope, if its validators accept it. -/
def bindingOf (scope : Scope) (connectionId : UUID) (company credentialType : String) :
    Option CredentialBinding :=
  if h : ([scope.provider.value, scope.environment, credentialType].all
        Credentials.isIdentifier) = true ∧ isSafeText company = true ∧
      (([scope.tenantId, scope.workspaceId, scope.authUserId, connectionId] : List UUID).all
        (· != 0)) = true then
    some
      { tenantId := scope.tenantId
        workspaceId := scope.workspaceId
        authUserId := scope.authUserId
        connectionId := connectionId
        provider := scope.provider.value
        companyOrMerchantId := company
        environment := scope.environment
        credentialType := credentialType
        identifiers := h.1
        safe := h.2.1
        ids := h.2.2 }
  else none

section

variable (crypto : Crypto) (vault : CredentialVault)

/-- What `_validate_envelopes` asks of a single envelope. -/
def envelopeIsBound (scope : Scope) (connectionId : UUID) (company : String)
    (envelope : CredentialEnvelope) : Bool :=
  scope.matchesEnvelope envelope && envelope.connectionId == connectionId &&
    envelope.revokedAt.isNone &&
    (bindingOf scope connectionId company envelope.credentialType).any fun binding =>
      envelope.aadHash == crypto.digest (credentialAad binding envelope.keyVersion) &&
        (vault.openEnvelope crypto binding envelope).toOption.isSome

/-- `_validate_envelopes`. -/
def validateEnvelopes (scope : Scope) (connectionId : UUID) (company : String)
    (envelopes : List CredentialEnvelope) : Except StoreError Unit := do
  require (envelopes.all (·.isValid)) bindingInvalid
  require (!envelopes.isEmpty && envelopes.length ≤ 16 && decide (envelopes.map (·.id)).Nodup &&
    decide (envelopes.map (·.credentialType)).Nodup) bindingInvalid
  require (envelopes.all (envelopeIsBound crypto vault scope connectionId company)) bindingInvalid

end

/-! ## Looking up and changing -/

def envelopeEntries (envelopes : List CredentialEnvelope) : Dict UUID CredentialEnvelope :=
  envelopes.map fun envelope => (envelope.id, envelope)

/-- The envelopes of the identifiers; a missing one is a `KeyError`. -/
def storedEnvelopes (stored : Dict UUID CredentialEnvelope) (ids : List UUID) :
    Except StoreError (List CredentialEnvelope) :=
  ids.mapM fun id =>
    match stored.get id with
    | some envelope => .ok envelope
    | none => .error .key

namespace Store

variable (s : Store)

/-- `_require_oauth_attempt`. -/
def requireOauthAttempt (attemptId : UUID) (scope : Scope) : Except StoreError OAuthAttempt := do
  requireIds (attemptId :: scope.toUser.ids)
  match s.oauthAttempts.get attemptId with
  | some attempt => do
      require (attempt.toScope == scope) connectionNotFound
      return attempt
  | none => .error connectionNotFound

/-- The connection of the user. -/
def requireConnection (user : User) (connectionId : UUID) : Except StoreError Connection :=
  match s.connections.get connectionId with
  | some current => do
      require (current.toUser == user) connectionNotFound
      return current
  | none => .error connectionNotFound

/-- The envelopes that the connection of the identifier owns. -/
def ownedIds (connectionId : UUID) : List UUID :=
  ((s.connections.get connectionId).map (·.credentialEnvelopeIds)).getD []

def setConnection (connectionId : UUID) (connection : Connection) : Store :=
  { s with connections := s.connections.set connectionId connection }

def setAttempt (attemptId : UUID) (attempt : OAuthAttempt) : Store :=
  { s with oauthAttempts := s.oauthAttempts.set attemptId attempt }

def setGeneration (connectionId attemptId : UUID) : Store :=
  { s with
    connectionOauthGenerations := s.connectionOauthGenerations.set connectionId attemptId }

def removeGeneration (connectionId : UUID) : Store :=
  { s with connectionOauthGenerations := s.connectionOauthGenerations.remove connectionId }

def dropEnvelopes (ids : List UUID) : Store :=
  { s with envelopes := s.envelopes.removeAll ids }

def addEnvelopes (envelopes : List CredentialEnvelope) : Store :=
  { s with envelopes := s.envelopes.setAll (envelopeEntries envelopes) }

def dropAttemptEnvelopes (ids : List UUID) : Store :=
  { s with oauthAttemptEnvelopes := s.oauthAttemptEnvelopes.removeAll ids }

def addAttemptEnvelopes (envelopes : List CredentialEnvelope) : Store :=
  { s with
    oauthAttemptEnvelopes := s.oauthAttemptEnvelopes.setAll (envelopeEntries envelopes) }

end Store

/-! ## Connections -/

/-- The connection that the arguments describe, not yet compared with the stored ones. -/
def describedConnection (args : ConnectionArguments) (connectionId : UUID) (provider : ProviderId)
    (method : AuthorizationMethod) (permissions : List String) (readiness : ConnectionReadiness)
    (revision : Int) (lastValidatedAt : Option Instant) (required : Bool) (now : Instant) :
    ConnectionRecord where
  toUser := args.user
  provider := provider
  environment := args.environment
  providerAccountId := args.companyOrMerchantId
  id := connectionId
  accountDisplayName := args.accountDisplayName
  authorizationMethod := method
  grantedPermissions := permissions
  readiness := readiness
  revision := revision
  lastValidatedAt := lastValidatedAt
  credentialEnvelopeIds := args.envelopes.map (·.id)
  providerRevocationRequired := required
  disconnectedAt := none
  createdAt := now
  updatedAt := now

def ConnectionArguments.scope (args : ConnectionArguments) (provider : ProviderId) : Scope :=
  ⟨args.user, provider, args.environment⟩

section

variable (crypto : Crypto) (vault : CredentialVault)

/-- What `save_connection` does before it takes the lock. -/
def suppliedConnection (connectionId : UUID) (args : ConnectionArguments) (now : Instant) :
    Except StoreError Connection := do
  requireIds (connectionId :: args.user.ids)
  let provider ← parseProvider args.provider
  let method ← parseMethod args.authorizationMethod
  let readiness ← parseReadiness args.readiness
  require (decide args.grantedPermissions.Nodup) connectionInvalid
  validateEnvelopes crypto vault (args.scope provider) connectionId args.companyOrMerchantId
    args.envelopes
  let lastValidatedAt ← awareTimestamp args.validatedAt
  Connection.create (describedConnection args connectionId provider method
    (sorted args.grantedPermissions) readiness args.revision lastValidatedAt false now)

/-- The comparison of `save_connection` with what is stored; where there is a connection already,
it keeps its creation. -/
def Store.admit (s : Store) (connectionId : UUID) (connection : Connection)
    (envelopes : List CredentialEnvelope) : Except StoreError Connection := do
  require (envelopes.all fun envelope =>
    (s.envelopes.get envelope.id).all (·.connectionId == connectionId)) bindingInvalid
  match s.connections.get connectionId with
  | none => do
      require (connection.revision == 1 &&
        !s.connections.values.any fun item => item.sameBinding connection.toConnectionRecord)
        connectionConflict
      return connection
  | some current => do
      require (connection.revision == current.revision + 1 &&
        current.sameBinding connection.toConnectionRecord) connectionConflict
      Connection.validate { connection.toConnectionRecord with createdAt := current.createdAt }

/-- The changes of `save_connection`. -/
def Store.save (s : Store) (connectionId : UUID) (connection : Connection)
    (envelopes : List CredentialEnvelope) : Store :=
  (((s.dropEnvelopes (s.ownedIds connectionId)).setConnection connectionId connection).addEnvelopes
    envelopes)

/-- `save_connection`. -/
def saveConnection (connectionId : UUID) (args : ConnectionArguments) (now : Instant) :
    StoreOperation Connection := do
  let supplied ← check fun _ => suppliedConnection crypto vault connectionId args now
  let connection ← check fun s => s.admit connectionId supplied args.envelopes
  modify fun s => s.save connectionId connection args.envelopes
  return connection

/-- `readiness`, `revision` and `validated_at` of what has not been validated. -/
def ConnectionArguments.isProvisional (args : ConnectionArguments) : Bool :=
  args.readiness == ConnectionReadiness.requiresValidation.value && args.revision == 1 &&
    args.validatedAt.isNone

/-- `stage_connection`. -/
def stageConnection (connectionId : UUID) (args : ConnectionArguments) (now : Instant) :
    StoreOperation Connection := do
  check fun _ => require args.isProvisional connectionInvalid
  let saved ← saveConnection crypto vault connectionId args now
  modify fun s => s.setConnection connectionId saved.requiringRevocation
  return saved.requiringRevocation

end

/-- The result for a connection that is disconnected already. -/
def DisconnectResult.already (connectionId : UUID) (connection : Connection) (required : Bool) :
    DisconnectResult :=
  ⟨connectionId, 0, true, required, connection.revision, Nat.zero_le _, connection.one_le_revision⟩

/-- How many of the connection's envelopes are stored. -/
def Store.storedCount (s : Store) (connection : Connection) : Nat :=
  (connection.credentialEnvelopeIds.filter fun id => (s.envelopes.get id).isSome).length

lemma Store.storedCount_le (s : Store) (connection : Connection) : s.storedCount connection ≤ 16 :=
  (List.length_filter_le _ _).trans connection.length_credentialEnvelopeIds

/-- The result for a connection that has just been disconnected. -/
def DisconnectResult.newly (connectionId : UUID) (connection : Connection) {deleted : Nat}
    (h : deleted ≤ 16) : DisconnectResult :=
  ⟨connectionId, deleted, false, connection.providerRevocationRequired, connection.revision, h,
    connection.one_le_revision⟩

/-- The record of a connection that is disconnected now. -/
def Connection.disconnection (current : Connection) (required : Bool) (now : Instant) :
    ConnectionRecord :=
  { current.toConnectionRecord with
    readiness := .disconnected
    revision := current.revision + 1
    credentialEnvelopeIds := []
    providerRevocationRequired := current.providerRevocationRequired || required
    disconnectedAt := some now
    updatedAt := now }

/-- `disconnect`. -/
def disconnect (user : User) (connectionId : UUID) (required : Bool) (now : Instant) :
    StoreOperation DisconnectResult := do
  let current ← check fun s => do
    requireIds (connectionId :: user.ids)
    s.requireConnection user connectionId
  if current.readiness = .disconnected then
    return .already connectionId current current.providerRevocationRequired
  else do
    let before ← check .ok
    modify fun s => s.dropEnvelopes current.credentialEnvelopeIds
    let disconnected ← check fun _ => Connection.validate (current.disconnection required now)
    modify fun s => s.setConnection connectionId disconnected
    return .newly connectionId disconnected (before.storedCount_le current)

/-- `complete_revocation`. -/
def completeRevocation (user : User) (connectionId : UUID) (now : Instant) :
    StoreOperation DisconnectResult := do
  let current ← check fun s => do
    requireIds (connectionId :: user.ids)
    let current ← s.requireConnection user connectionId
    require (current.readiness == .disconnected && current.credentialEnvelopeIds.isEmpty &&
      !s.envelopes.values.any fun envelope => envelope.connectionId == connectionId)
      connectionInvalid
    return current
  if current.providerRevocationRequired then do
    let completed ← check fun _ => Connection.validate
      { current.toConnectionRecord with providerRevocationRequired := false, updatedAt := now }
    modify fun s => s.setConnection connectionId completed
    return .already connectionId completed false
  else return .already connectionId current false

section

variable (crypto : Crypto) (vault : CredentialVault)

/-- The staged connection that `finalize_connection` replaces. -/
def Store.requireStaged (s : Store) (stagedId : UUID) (args : ConnectionArguments) :
    Except StoreError Unit :=
  match s.connections.get stagedId with
  | none => .error connectionInvalid
  | some staged => do
      require (staged.toUser == args.user) connectionInvalid
      let provider ← parseProvider args.provider
      require (staged.toScope == args.scope provider && staged.readiness != .disconnected &&
        staged.providerRevocationRequired && !staged.credentialEnvelopeIds.isEmpty)
        connectionInvalid

/-- What the `except` of `finalize_connection` puts back. -/
def restoreConnections (before after : Store) : Store :=
  { after with connections := before.connections, envelopes := before.envelopes }

/-- `finalize_connection`. -/
def finalizeConnection (stagedId connectionId : UUID) (args : ConnectionArguments)
    (clock : Nat → Instant) : StoreOperation Connection := do
  check fun _ => do
    require (args.readiness == ConnectionReadiness.ready.value && stagedId != connectionId)
      connectionInvalid
    requireIds (stagedId :: args.user.ids)
  check fun s => s.requireStaged stagedId args
  restoring restoreConnections do
    let finalized ← saveConnection crypto vault connectionId args (clock 0)
    let _ ← disconnect args.user stagedId true (clock 1)
    let _ ← completeRevocation args.user stagedId (clock 2)
    return finalized

end

/-- The connection that records an obligation to revoke. -/
def obligation (connectionId : UUID) (args : AccountArguments) (now : Instant) :
    Except StoreError Connection := do
  requireIds (connectionId :: args.user.ids)
  let provider ← parseProvider args.provider
  let method ← parseMethod args.authorizationMethod
  let connection ← Connection.create
    { toUser := args.user
      provider := provider
      environment := args.environment
      providerAccountId := args.companyOrMerchantId
      id := connectionId
      accountDisplayName := args.accountDisplayName
      authorizationMethod := method
      grantedPermissions := sorted args.grantedPermissions
      readiness := .disconnected
      revision := 1
      lastValidatedAt := none
      credentialEnvelopeIds := []
      providerRevocationRequired := true
      disconnectedAt := some now
      createdAt := now
      updatedAt := now }
  require (args.grantedPermissions == sorted args.grantedPermissions) connectionInvalid
  return connection

/-- `record_revocation_obligation`. -/
def recordRevocationObligation (connectionId : UUID) (args : AccountArguments)
    (clock : Nat → Instant) : StoreOperation DisconnectResult := do
  let connection ← check fun _ => obligation connectionId args (clock 0)
  let current? ← check fun s => .ok (s.connections.get connectionId)
  match current? with
  | some current => do
      check fun _ => require (current.sameBinding connection.toConnectionRecord) connectionConflict
      disconnect args.user connectionId true (clock 1)
  | none => do
      check fun s => require
        (!s.connections.values.any fun item => item.sameBinding connection.toConnectionRecord)
        connectionConflict
      modify fun s => s.setConnection connectionId connection
      return .already connectionId connection true

/-! ## OAuth attempts -/

/-- The attempt that `begin_oauth_attempt` describes. -/
def newAttempt (args : AttemptArguments) (permissions : List String) (now : Instant) :
    Except StoreError OAuthAttempt := do
  requireIds (args.attemptId :: args.user.ids)
  let provider ← parseProvider args.provider
  checkPermissions permissions
  OAuthAttempt.create
    { toUser := args.user
      provider := provider
      environment := args.environment
      id := args.attemptId
      grantedPermissions := permissions
      status := .exchangePending
      providerAccountId := none
      accountDisplayName := none
      authorizationMethod := none
      credentialEnvelopeIds := []
      materialRevision := 0
      targetConnectionId := none
      targetRevision := none
      acknowledgedAt := none
      providerRevocationRequired := true
      createdAt := now
      updatedAt := now }

/-- `begin_oauth_attempt`. -/
def beginOauthAttempt (args : AttemptArguments) (permissions : List String) (now : Instant) :
    StoreOperation OAuthAttempt := do
  let attempt ← check fun _ => newAttempt args permissions now
  let existing? ← check fun s => .ok (s.oauthAttempts.get args.attemptId)
  match existing? with
  | some existing => do
      check fun _ => require (existing.sameBinding attempt) connectionConflict
      return existing
  | none => do
      check fun s => require (s.connections.get args.attemptId).isNone connectionConflict
      modify fun s => s.setAttempt args.attemptId attempt
      return attempt

section

variable (crypto : Crypto) (vault : CredentialVault)

/-- What `attach_oauth_attempt` does before it takes the lock. -/
def provisionalConnection (attemptId : UUID) (args : ConnectionArguments) (now : Instant) :
    Except StoreError Connection := do
  require args.isProvisional connectionInvalid
  requireIds (attemptId :: args.user.ids)
  let provider ← parseProvider args.provider
  checkPermissions args.grantedPermissions
  let method ← parseMethod args.authorizationMethod
  validateEnvelopes crypto vault (args.scope provider) attemptId args.companyOrMerchantId
    args.envelopes
  Connection.create (describedConnection args attemptId provider method args.grantedPermissions
    .requiresValidation 1 none true now)

/-- The material that an attempt is given. -/
def OAuthAttempt.attachment (attempt : OAuthAttempt) (provisional : Connection) (now : Instant) :
    OAuthAttemptRecord :=
  { attempt.toOAuthAttemptRecord with
    status := .materialAttached
    providerAccountId := some provisional.providerAccountId
    accountDisplayName := some provisional.accountDisplayName
    authorizationMethod := some provisional.authorizationMethod
    credentialEnvelopeIds := provisional.credentialEnvelopeIds
    materialRevision := 1
    updatedAt := now }

/-- The attempt that `attach_oauth_attempt` finds. -/
def Store.requireAttachable (s : Store) (attemptId : UUID) (provisional : Connection) :
    Except StoreError OAuthAttempt := do
  let attempt ← s.requireOauthAttempt attemptId provisional.toScope
  require (attempt.grantedPermissions == provisional.grantedPermissions) connectionConflict
  return attempt

/-- The material has been attached before. -/
def Store.requireAttached (s : Store) (attempt : OAuthAttempt) (provisional : Connection)
    (envelopes : List CredentialEnvelope) : Except StoreError Unit := do
  let stored ← storedEnvelopes s.oauthAttemptEnvelopes attempt.credentialEnvelopeIds
  require (attempt.providerAccountId == some provisional.providerAccountId &&
    attempt.accountDisplayName == some provisional.accountDisplayName &&
    attempt.authorizationMethod == some provisional.authorizationMethod && stored == envelopes)
    connectionConflict

/-- The material can be attached now. -/
def Store.requirePending (s : Store) (attempt : OAuthAttempt)
    (envelopes : List CredentialEnvelope) : Except StoreError Unit := do
  require (attempt.status == .exchangePending) connectionConflict
  require (!envelopes.any fun envelope => (s.envelopes.get envelope.id).isSome ||
    (s.oauthAttemptEnvelopes.get envelope.id).isSome) bindingInvalid

/-- `attach_oauth_attempt`. -/
def attachOauthAttempt (attemptId : UUID) (args : ConnectionArguments) (now : Instant) :
    StoreOperation ConnectionRecord := do
  let provisional ← check fun _ => provisionalConnection crypto vault attemptId args now
  let attempt ← check fun s => s.requireAttachable attemptId provisional
  if attempt.status = .materialAttached then do
    check fun s => s.requireAttached attempt provisional args.envelopes
    return { provisional.toConnectionRecord with
      createdAt := attempt.createdAt, updatedAt := attempt.updatedAt }
  else do
    check fun s => s.requirePending attempt args.envelopes
    modify fun s => s.addAttemptEnvelopes args.envelopes
    let updated ← check fun _ => OAuthAttempt.create (attempt.attachment provisional now)
    modify fun s => s.setAttempt attemptId updated
    return { provisional.toConnectionRecord with createdAt := attempt.createdAt, updatedAt := now }

/-- The account that stands in for one that is not known yet. -/
def pendingAccountId (id : UUID) : String :=
  "oauth-pending-" ++ uuidText id

/-- What `replace_oauth_attempt_envelopes` does before it takes the lock. -/
def checkedReplacement (connection : ConnectionRecord) (envelopes : List CredentialEnvelope) :
    Except StoreError Connection := do
  let checked ← Connection.create connection
  require (checked.readiness == .requiresValidation &&
    checked.providerAccountId == pendingAccountId checked.id) connectionInvalid
  validateEnvelopes crypto vault checked.toScope checked.id checked.providerAccountId envelopes
  return checked

/-- The attempt that `replace_oauth_attempt_envelopes` finds, with its stored envelopes. -/
def Store.requireReplaceable (s : Store) (checked : Connection) :
    Except StoreError (OAuthAttempt × List CredentialEnvelope) := do
  let attempt ← s.requireOauthAttempt checked.id checked.toScope
  require (attempt.status == .materialAttached &&
    attempt.providerAccountId == some checked.providerAccountId &&
    attempt.accountDisplayName == some checked.accountDisplayName &&
    attempt.authorizationMethod == some checked.authorizationMethod &&
    attempt.grantedPermissions == checked.grantedPermissions) connectionConflict
  let stored ← (storedEnvelopes s.oauthAttemptEnvelopes attempt.credentialEnvelopeIds).mapError
    fun _ => bindingInvalid
  return (attempt, stored)

/-- The envelopes can be replaced now. -/
def Store.requireCurrent (s : Store) (attempt : OAuthAttempt) (checked : Connection)
    (envelopes : List CredentialEnvelope) : Except StoreError Unit := do
  require (checked.revision == attempt.materialRevision &&
    checked.credentialEnvelopeIds == attempt.credentialEnvelopeIds) connectionConflict
  require (!envelopes.any fun envelope => (s.envelopes.get envelope.id).isSome ||
    ((s.oauthAttemptEnvelopes.get envelope.id).isSome &&
      !attempt.credentialEnvelopeIds.contains envelope.id)) bindingInvalid

/-- The attempt with other envelopes. -/
def OAuthAttempt.replacement (attempt : OAuthAttempt) (envelopes : List CredentialEnvelope)
    (now : Instant) : OAuthAttemptRecord :=
  { attempt.toOAuthAttemptRecord with
    credentialEnvelopeIds := envelopes.map (·.id)
    materialRevision := attempt.materialRevision + 1
    updatedAt := now }

/-- The connection as the attempt has it now. -/
def Connection.ofAttempt (checked : Connection) (attempt : OAuthAttempt) : ConnectionRecord :=
  { checked.toConnectionRecord with
    revision := attempt.materialRevision
    credentialEnvelopeIds := attempt.credentialEnvelopeIds
    createdAt := attempt.createdAt
    updatedAt := attempt.updatedAt }

/-- `replace_oauth_attempt_envelopes`. -/
def replaceOauthAttemptEnvelopes (connection : ConnectionRecord)
    (envelopes : List CredentialEnvelope) (now : Instant) : StoreOperation ConnectionRecord := do
  let checked ← check fun _ => checkedReplacement crypto vault connection envelopes
  let (attempt, stored) ← check fun s => s.requireReplaceable checked
  if checked.revision + 1 = attempt.materialRevision ∧ stored = envelopes then
    return checked.ofAttempt attempt
  else do
    check fun s => s.requireCurrent attempt checked envelopes
    modify fun s => s.dropAttemptEnvelopes attempt.credentialEnvelopeIds
    modify fun s => s.addAttemptEnvelopes envelopes
    let updated ← check fun _ => OAuthAttempt.create (attempt.replacement envelopes now)
    modify fun s => s.setAttempt attempt.id updated
    return checked.ofAttempt updated

end

/-! ### Finalizing -/

section

variable (crypto : Crypto) (vault : CredentialVault)

/-- What `finalize_oauth_attempt` does before it takes the lock. -/
def checkFinalization (attemptId connectionId : UUID) (args : ConnectionArguments) :
    Except StoreError (Scope × AuthorizationMethod) := do
  require (args.readiness == ConnectionReadiness.requiresValidation.value &&
    attemptId != connectionId && args.validatedAt.isSome) connectionInvalid
  requireIds (attemptId :: args.user.ids)
  let provider ← parseProvider args.provider
  checkPermissions args.grantedPermissions
  let method ← parseMethod args.authorizationMethod
  validateEnvelopes crypto vault (args.scope provider) connectionId args.companyOrMerchantId
    args.envelopes
  return (args.scope provider, method)

/-- The attempt that `finalize_oauth_attempt` finds. -/
def Store.requireFinalizable (s : Store) (attemptId : UUID) (scope : Scope)
    (permissions : List String) : Except StoreError OAuthAttempt := do
  let attempt ← s.requireOauthAttempt attemptId scope
  require (attempt.grantedPermissions == permissions &&
    attempt.status ∈ [.materialAttached, .finalized]) connectionConflict
  return attempt

/-- Whether the connection is what the arguments finalized. -/
def Store.isFinalization (s : Store) (attempt : OAuthAttempt) (attemptId connectionId : UUID)
    (scope : Scope) (method : AuthorizationMethod) (args : ConnectionArguments)
    (current : Connection) : Bool :=
  attempt.targetConnectionId == some connectionId &&
    (attempt.targetRevision.any (· ≤ current.revision)) &&
    s.connectionOauthGenerations.get connectionId == some attemptId &&
    current.toScope == scope && current.providerAccountId == args.companyOrMerchantId &&
    current.accountDisplayName == args.accountDisplayName &&
    current.authorizationMethod == method &&
    current.grantedPermissions == args.grantedPermissions &&
    current.readiness ==
      (if attempt.acknowledgedAt.isSome then .ready else .requiresValidation) &&
    isTimestamp args.validatedAt current.lastValidatedAt && !current.credentialEnvelopeIds.isEmpty

/-- The connection of an attempt that has been finalized before. -/
def Store.requireFinalized (s : Store) (attempt : OAuthAttempt) (attemptId connectionId : UUID)
    (scope : Scope) (method : AuthorizationMethod) (args : ConnectionArguments) :
    Except StoreError Connection :=
  match s.connections.get connectionId with
  | none => .error connectionConflict
  | some current => do
      let _ ← (storedEnvelopes s.envelopes current.credentialEnvelopeIds).mapError
        fun _ => bindingInvalid
      require (s.isFinalization attempt attemptId connectionId scope method args current)
        connectionConflict
      return current

/-- The attempt with its target. -/
def OAuthAttempt.finalization (attempt : OAuthAttempt) (connectionId : UUID)
    (method : AuthorizationMethod) (args : ConnectionArguments) (revision : Int) (now : Instant) :
    OAuthAttemptRecord :=
  { attempt.toOAuthAttemptRecord with
    status := .finalized
    providerAccountId := some args.companyOrMerchantId
    accountDisplayName := some args.accountDisplayName
    authorizationMethod := some method
    credentialEnvelopeIds := []
    targetConnectionId := some connectionId
    targetRevision := some revision
    acknowledgedAt := none
    providerRevocationRequired := false
    updatedAt := now }

/-- What the `except` of `finalize_oauth_attempt` puts back. -/
def restoreAll (before _after : Store) : Store := before

/-- `finalize_oauth_attempt`. -/
def finalizeOauthAttempt (attemptId connectionId : UUID) (args : ConnectionArguments)
    (clock : Nat → Instant) : StoreOperation Connection := do
  let (scope, method) ← check fun _ =>
    checkFinalization crypto vault attemptId connectionId args
  let attempt ← check fun s => s.requireFinalizable attemptId scope args.grantedPermissions
  if attempt.status = .finalized then
    check fun s => s.requireFinalized attempt attemptId connectionId scope method args
  else restoring restoreAll do
    let finalized ← saveConnection crypto vault connectionId args (clock 0)
    modify fun s => s.setGeneration connectionId attemptId
    modify fun s => s.dropAttemptEnvelopes attempt.credentialEnvelopeIds
    let updated ← check fun _ => OAuthAttempt.create
      (attempt.finalization connectionId method args finalized.revision (clock 1))
    modify fun s => s.setAttempt attemptId updated
    return finalized

end

/-! ### Acknowledging -/

/-- Whether `acknowledge_oauth_attempt` accepts the connection that is stored for the one that is
supplied. -/
def Store.isAcknowledgeable (s : Store) (attempt : OAuthAttempt) (attemptId targetId : UUID)
    (scope : Scope) (supplied current : Connection) : Bool :=
  attempt.status == .finalized && supplied.id == targetId && supplied.toScope == scope &&
    current.toScope == scope && current.providerAccountId == supplied.providerAccountId &&
    current.authorizationMethod == supplied.authorizationMethod &&
    current.grantedPermissions == supplied.grantedPermissions &&
    current.lastValidatedAt == supplied.lastValidatedAt && !current.providerRevocationRequired &&
    !current.credentialEnvelopeIds.isEmpty &&
    s.connectionOauthGenerations.get targetId == some attemptId

/-- The attempt that `acknowledge_oauth_attempt` finds, with its target. -/
def Store.requireAcknowledgeable (s : Store) (args : AttemptArguments)
    (connection : ConnectionRecord) : Except StoreError (OAuthAttempt × UUID × Connection) := do
  let provider ← parseProvider args.provider
  let supplied ← Connection.create connection
  let scope : Scope := ⟨args.user, provider, args.environment⟩
  let attempt ← s.requireOauthAttempt args.attemptId scope
  match attempt.targetConnectionId with
  | none => .error connectionConflict
  | some targetId =>
      match s.connections.get targetId with
      | none => .error connectionConflict
      | some current => do
          require (s.isAcknowledgeable attempt args.attemptId targetId scope supplied current)
            connectionConflict
          return (attempt, targetId, current)

/-- The connection of an acknowledged attempt. -/
def Connection.readiedAt (current : Connection) (now : Instant) : ConnectionRecord :=
  { current.toConnectionRecord with
    readiness := .ready
    revision := current.revision + 1
    updatedAt := now }

/-- An acknowledged attempt. -/
def OAuthAttempt.acknowledgement (attempt : OAuthAttempt) (revision : Int) (now : Instant) :
    OAuthAttemptRecord :=
  { attempt.toOAuthAttemptRecord with
    targetRevision := some revision
    acknowledgedAt := some now
    updatedAt := now }

/-- `acknowledge_oauth_attempt`. -/
def acknowledgeOauthAttempt (args : AttemptArguments) (connection : ConnectionRecord)
    (now : Instant) : StoreOperation Connection := do
  let (attempt, targetId, current) ← check fun s => s.requireAcknowledgeable args connection
  if attempt.acknowledgedAt.isSome then do
    check fun _ => require (current.readiness == .ready) connectionConflict
    return current
  else do
    let ready ← check fun _ => do
      require (current.readiness == .requiresValidation &&
        attempt.targetRevision.any (· ≤ current.revision)) connectionConflict
      Connection.validate (current.readiedAt now)
    modify fun s => s.setConnection targetId ready
    let updated ← check fun _ => OAuthAttempt.create (attempt.acknowledgement ready.revision now)
    modify fun s => s.setAttempt args.attemptId updated
    return ready

/-! ### Failing and revoking -/

/-- The attempt that the arguments describe. -/
def Store.requireDescribed (s : Store) (args : AttemptArguments) :
    Except StoreError OAuthAttempt := do
  let provider ← parseProvider args.provider
  s.requireOauthAttempt args.attemptId ⟨args.user, provider, args.environment⟩

/-- What a failed attempt holds of the account. -/
structure Recovery where
  providerAccountId : Option String
  accountDisplayName : Option String
  authorizationMethod : Option AuthorizationMethod
  targetRevision : Option Int
  retainedEnvelopeIds : List UUID

/-- The attempt's own account and envelopes. -/
def OAuthAttempt.recovery (attempt : OAuthAttempt) : Recovery :=
  ⟨attempt.providerAccountId, attempt.accountDisplayName, attempt.authorizationMethod,
    attempt.targetRevision, attempt.credentialEnvelopeIds⟩

/-- The account of the attempt's target. -/
def Connection.recovery (target : Connection) (revision : Int) (retained : List UUID) : Recovery :=
  ⟨some target.providerAccountId, some target.accountDisplayName, some target.authorizationMethod,
    some revision, retained⟩

/-- The target of an attempt that owns its generation. -/
def Store.requireTarget (s : Store) (attempt : OAuthAttempt) (targetId : UUID) :
    Except StoreError Connection :=
  match s.connections.get targetId with
  | none => .error connectionConflict
  | some target => do
      require (target.toScope == attempt.toScope) connectionConflict
      return target

/-- The target's envelopes, which the attempt takes over. -/
def Store.requireRecoverable (s : Store) (target : Connection) :
    Except StoreError (List CredentialEnvelope) := do
  require (!target.providerRevocationRequired && !target.credentialEnvelopeIds.isEmpty)
    connectionConflict
  let envelopes ← (storedEnvelopes s.envelopes target.credentialEnvelopeIds).mapError
    fun _ => bindingInvalid
  require (envelopes.all fun envelope =>
    (s.oauthAttemptEnvelopes.get envelope.id).all (· == envelope)) bindingInvalid
  return envelopes

/-- Take over the target's envelopes and disconnect it. -/
def recoverTarget (user : User) (attempt : OAuthAttempt) (now : Instant) :
    StoreOperation Recovery := do
  match attempt.targetConnectionId with
  | none => return attempt.recovery
  | some targetId => do
      let generation ← check fun s => .ok (s.connectionOauthGenerations.get targetId)
      if generation = some attempt.id then do
        let target ← check fun s => s.requireTarget attempt targetId
        if target.readiness = .disconnected then
          return target.recovery target.revision attempt.credentialEnvelopeIds
        else do
          let envelopes ← check fun s => s.requireRecoverable target
          modify fun s => s.addAttemptEnvelopes envelopes
          let disconnected ← disconnect user targetId true now
          return target.recovery disconnected.revision target.credentialEnvelopeIds
      else return attempt.recovery

/-- A failed attempt. -/
def OAuthAttempt.failure (attempt : OAuthAttempt) (recovery : Recovery) (now : Instant) :
    OAuthAttemptRecord :=
  { attempt.toOAuthAttemptRecord with
    status := .failed
    providerAccountId := recovery.providerAccountId
    accountDisplayName := recovery.accountDisplayName
    authorizationMethod := recovery.authorizationMethod
    credentialEnvelopeIds := recovery.retainedEnvelopeIds
    targetRevision := recovery.targetRevision
    providerRevocationRequired := true
    updatedAt := now }

/-- What the `except` of `fail_oauth_attempt` puts back. -/
def restoreFailed (before after : Store) : Store :=
  { before with connectionOauthGenerations := after.connectionOauthGenerations }

/-- `fail_oauth_attempt`. -/
def failOauthAttempt (args : AttemptArguments) (clock : Nat → Instant) :
    StoreOperation OAuthAttempt := do
  let attempt ← check fun s => s.requireDescribed args
  if attempt.status = .failed then return attempt
  else do
    check fun _ => require (attempt.status != .revoked) connectionConflict
    restoring restoreFailed do
      let recovery ← recoverTarget args.user attempt (clock 0)
      let failed ← check fun _ => OAuthAttempt.create (attempt.failure recovery (clock 1))
      modify fun s => s.setAttempt args.attemptId failed
      return failed

/-- A revoked attempt. -/
def OAuthAttempt.revocation (attempt : OAuthAttempt) (now : Instant) : OAuthAttemptRecord :=
  { attempt.toOAuthAttemptRecord with
    status := .revoked
    credentialEnvelopeIds := []
    providerRevocationRequired := false
    updatedAt := now }

/-- Complete the revocation of the target, where the attempt owns its generation. -/
def revokeTarget (user : User) (attempt : OAuthAttempt) (now : Instant) : StoreOperation Unit := do
  match attempt.targetConnectionId with
  | none => return ()
  | some targetId => do
      let generation ← check fun s => .ok (s.connectionOauthGenerations.get targetId)
      if generation = some attempt.id then do
        let _ ← completeRevocation user targetId now
        modify fun s => s.removeGeneration targetId
      else return ()

/-- What the `except` of `complete_oauth_attempt_revocation` puts back. -/
def restoreRevoked (before after : Store) : Store :=
  { before with envelopes := after.envelopes }

/-- `complete_oauth_attempt_revocation`. -/
def completeOauthAttemptRevocation (args : AttemptArguments) (clock : Nat → Instant) :
    StoreOperation OAuthAttempt := do
  let attempt ← check fun s => s.requireDescribed args
  if attempt.status = .revoked then return attempt
  else do
    check fun _ => require (attempt.status == .failed && attempt.providerRevocationRequired)
      connectionConflict
    restoring restoreRevoked do
      revokeTarget args.user attempt (clock 0)
      modify fun s => s.dropAttemptEnvelopes attempt.credentialEnvelopeIds
      let completed ← check fun _ => OAuthAttempt.create (attempt.revocation (clock 1))
      modify fun s => s.setAttempt args.attemptId completed
      return completed

/-! ## Reading -/

/-- `_connection_generation_is_dispatchable`. -/
def Store.generationIsDispatchable (s : Store) (connection : ConnectionRecord) : Bool :=
  match s.connectionOauthGenerations.get connection.id with
  | none => true
  | some generationId =>
      (s.oauthAttempts.get generationId).any fun attempt =>
        attempt.status == .finalized && attempt.targetConnectionId == some connection.id &&
          attempt.acknowledgedAt.isSome

/-- Whether the connection is shown at all. -/
def Store.isShown (s : Store) (connection : ConnectionRecord) : Bool :=
  connection.providerAccountId != pendingAccountId connection.id &&
    s.generationIsDispatchable connection

/-- `load_envelopes`. -/
def Store.loadEnvelopes (s : Store) (connection : ConnectionRecord) :
    Except StoreError (List CredentialEnvelope) := do
  let checked ← Connection.create connection
  require (s.connections.get checked.id == some checked && checked.readiness != .disconnected &&
    s.isShown checked.toConnectionRecord) connectionNotFound
  (storedEnvelopes s.envelopes checked.credentialEnvelopeIds).mapError fun _ => bindingInvalid

/-- `load_connection`. -/
def Store.loadConnection (s : Store) (user : User) (connectionId : UUID) :
    Except StoreError Connection := do
  requireIds (connectionId :: user.ids)
  let connection ← s.requireConnection user connectionId
  require (s.isShown connection.toConnectionRecord) connectionNotFound
  return connection

/-- `ProviderConnectionSummary`. -/
structure ConnectionSummary where
  connectionId : UUID
  provider : ProviderId
  environment : String
  accountDisplayName : String
  authorizationMethod : AuthorizationMethod
  grantedPermissions : List String
  readiness : ConnectionReadiness
  revision : Int
  lastValidatedAt : Option Instant
  providerRevocationRequired : Bool
  deriving DecidableEq

/-- `summary`. -/
def ConnectionRecord.summary (connection : ConnectionRecord) : ConnectionSummary where
  connectionId := connection.id
  provider := connection.provider
  environment := connection.environment
  accountDisplayName := connection.accountDisplayName
  authorizationMethod := connection.authorizationMethod
  grantedPermissions := connection.grantedPermissions
  readiness := connection.readiness
  revision := connection.revision
  lastValidatedAt := connection.lastValidatedAt
  providerRevocationRequired := connection.providerRevocationRequired

/-- What the summaries are sorted by. -/
def ConnectionSummary.sortKey (summary : ConnectionSummary) : List String :=
  [summary.provider.value, summary.environment, summary.accountDisplayName,
    uuidText summary.connectionId]

/-- `list_for_workspace`. -/
def Store.listForWorkspace (s : Store) (user : User) : Except StoreError (List ConnectionSummary) := do
  requireIds user.ids
  let listed := s.connections.values.filter fun connection =>
    connection.toUser == user && s.isShown connection.toConnectionRecord
  return (listed.map fun connection => connection.summary).insertionSort fun summary other =>
    summary.sortKey ≤ other.sortKey

/-! ## Calls -/

inductive Call where
  | begin (args : AttemptArguments) (permissions : List String)
  | attach (attemptId : UUID) (args : ConnectionArguments)
  | replace (connection : ConnectionRecord) (envelopes : List CredentialEnvelope)
  | finalize (attemptId connectionId : UUID) (args : ConnectionArguments)
  | acknowledge (args : AttemptArguments) (connection : ConnectionRecord)
  | fail (args : AttemptArguments)
  | completeAttemptRevocation (args : AttemptArguments)
  | save (connectionId : UUID) (args : ConnectionArguments)
  | stage (connectionId : UUID) (args : ConnectionArguments)
  | finalizeConnection (stagedId connectionId : UUID) (args : ConnectionArguments)
  | recordObligation (connectionId : UUID) (args : AccountArguments)
  | disconnect (user : User) (connectionId : UUID) (required : Bool)
  | completeRevocation (user : User) (connectionId : UUID)

/-- What a call returns. -/
inductive Answer where
  | connection (connection : ConnectionRecord)
  | attempt (attempt : OAuthAttempt)
  | disconnected (result : DisconnectResult)

section

variable (crypto : Crypto) (vault : CredentialVault)

/-- The operation of a call, with the readings of the clock. -/
def perform (clock : Nat → Instant) : Call → StoreOperation Answer
  | .begin args permissions => .attempt <$> beginOauthAttempt args permissions (clock 0)
  | .attach attemptId args =>
      .connection <$> attachOauthAttempt crypto vault attemptId args (clock 0)
  | .replace connection envelopes =>
      .connection <$> replaceOauthAttemptEnvelopes crypto vault connection envelopes (clock 0)
  | .finalize attemptId connectionId args =>
      (.connection ·.toConnectionRecord) <$>
        finalizeOauthAttempt crypto vault attemptId connectionId args clock
  | .acknowledge args connection =>
      (.connection ·.toConnectionRecord) <$> acknowledgeOauthAttempt args connection (clock 0)
  | .fail args => .attempt <$> failOauthAttempt args clock
  | .completeAttemptRevocation args => .attempt <$> completeOauthAttemptRevocation args clock
  | .save connectionId args =>
      (.connection ·.toConnectionRecord) <$>
        saveConnection crypto vault connectionId args (clock 0)
  | .stage connectionId args =>
      (.connection ·.toConnectionRecord) <$>
        stageConnection crypto vault connectionId args (clock 0)
  | .finalizeConnection stagedId connectionId args =>
      (.connection ·.toConnectionRecord) <$>
        finalizeConnection crypto vault stagedId connectionId args clock
  | .recordObligation connectionId args =>
      .disconnected <$> recordRevocationObligation connectionId args clock
  | .disconnect user connectionId required =>
      .disconnected <$> disconnect user connectionId required (clock 0)
  | .completeRevocation user connectionId =>
      .disconnected <$> completeRevocation user connectionId (clock 0)

end

end MercuryTools.Providers
