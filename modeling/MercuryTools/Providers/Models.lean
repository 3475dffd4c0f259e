import MercuryTools.Credentials.Vault
import Mathlib.Data.List.Sort
import Mathlib.Data.String.Basic

/-!
# Provider connections

The enumerations and the connection record of `providers/models.py`, and the recovery record of an
OAuth attempt of `providers/store.py`.

A record can be any value that such an object of the source can be.  A `Connection` is a record
that has passed `validate_state` and the field validators, an `OAuthAttempt` one that has passed
`__post_init__`; only these are stored.  Timestamps carry their offset and are given as instants.
-/

namespace MercuryTools.Providers

open Checks Credentials Hosted

/-! ## Enumerations -/

inductive ProviderId where
  | flowaccount
  | peak
  deriving DecidableEq

namespace ProviderId

def value : ProviderId → String
  | flowaccount => "flowaccount"
  | peak => "peak"

/-- `ProviderId(value)` -/
def ofValue? (value : String) : Option ProviderId :=
  [flowaccount, peak].find? (·.value = value)

end ProviderId

inductive AuthorizationMethod where
  | oauth2Pkce
  | providerCredentials
  deriving DecidableEq

namespace AuthorizationMethod

def value : AuthorizationMethod → String
  | oauth2Pkce => "oauth2_pkce"
  | providerCredentials => "provider_credentials"

def ofValue? (value : String) : Option AuthorizationMethod :=
  [oauth2Pkce, providerCredentials].find? (·.value = value)

end AuthorizationMethod

inductive ConnectionReadiness where
  | requiresValidation
  | ready
  | validationFailed
  | requiresReauthorization
  | disconnected
  deriving DecidableEq

namespace ConnectionReadiness

def value : ConnectionReadiness → String
  | requiresValidation => "requires_validation"
  | ready => "ready"
  | validationFailed => "validation_failed"
  | requiresReauthorization => "requires_reauthorization"
  | disconnected => "disconnected"

def ofValue? (value : String) : Option ConnectionReadiness :=
  [requiresValidation, ready, validationFailed, requiresReauthorization, disconnected].find?
    (·.value = value)

end ConnectionReadiness

/-- `_OAUTH_ATTEMPT_STATUSES` -/
inductive AttemptStatus where
  | exchangePending
  | materialAttached
  | finalized
  | failed
  | revoked
  deriving DecidableEq

/-! ## Owners -/

/-- The tenant, the workspace and the user that an operation is for. -/
structure User where
  tenantId : UUID
  workspaceId : UUID
  authUserId : UUID
  deriving DecidableEq

structure Scope extends User where
  provider : ProviderId
  environment : String
  deriving DecidableEq

/-- What `_same_binding` and `_same_account` compare. -/
structure Account extends Scope where
  providerAccountId : String
  deriving DecidableEq

def User.ids (user : User) : List UUID :=
  [user.tenantId, user.workspaceId, user.authUserId]

/-! ## Errors -/

/-- What an operation raises: a `ProviderStoreError` with its code, the `ValidationError` of a
record that is validated outside of a `try`, or a `KeyError`. -/
inductive StoreError where
  | store (code : String)
  | validation
  | key
  deriving DecidableEq

def connectionInvalid : StoreError := .store "provider_connection_invalid"

def connectionConflict : StoreError := .store "provider_connection_conflict"

def connectionNotFound : StoreError := .store "provider_connection_not_found"

def bindingInvalid : StoreError := .store "provider_credential_binding_invalid"

/-! ## Connections -/

def isPermissionCharacter (c : Char) : Bool :=
  isAlnum c || c ∈ [':', '.', '_', '/', '-']

/-- `_PERMISSION`: a letter or a digit, then at most 199 permission characters. -/
def isPermission (s : String) : Bool :=
  match s.toList with
  | [] => false
  | c :: cs => isAlnum c && cs.length ≤ 199 && cs.all isPermissionCharacter

/-- `sorted`. -/
def sorted (texts : List String) : List String :=
  texts.insertionSort fun text other => text ≤ other

/-- A `ProviderConnection`, validated or not. -/
structure ConnectionRecord extends Account where
  id : UUID
  accountDisplayName : String
  authorizationMethod : AuthorizationMethod
  grantedPermissions : List String
  readiness : ConnectionReadiness
  revision : Int
  lastValidatedAt : Option Instant
  credentialEnvelopeIds : List UUID
  providerRevocationRequired : Bool
  disconnectedAt : Option Instant
  createdAt : Instant
  updatedAt : Instant
  deriving DecidableEq

namespace ConnectionRecord

variable (record : ConnectionRecord)

/-- The field constraints and the field validators. -/
def fieldsAreValid : Bool :=
  Credentials.isIdentifier record.environment && isSafeText record.providerAccountId &&
    isSafeText record.accountDisplayName && record.accountDisplayName.toList.length ≤ 200 &&
    decide record.grantedPermissions.Nodup &&
    sorted record.grantedPermissions == record.grantedPermissions &&
    record.grantedPermissions.all isPermission && 1 ≤ record.revision &&
    record.credentialEnvelopeIds.length ≤ 16

/-- `validate_state`. -/
def stateIsValid : Bool :=
  (record.id :: record.toUser.ids).all (· != 0) &&
    decide record.credentialEnvelopeIds.Nodup && record.createdAt ≤ record.updatedAt &&
    !(record.readiness == .ready && record.lastValidatedAt.isNone) &&
    if record.readiness = .disconnected then
      record.disconnectedAt.isSome && record.credentialEnvelopeIds.isEmpty
    else record.disconnectedAt.isNone && !record.credentialEnvelopeIds.isEmpty

def isValid : Bool :=
  record.fieldsAreValid && record.stateIsValid

/-- `_same_binding` and `_same_account`. -/
def sameBinding (other : ConnectionRecord) : Bool :=
  record.toAccount == other.toAccount

end ConnectionRecord

/-- A validated connection. -/
structure Connection extends ConnectionRecord where
  valid : toConnectionRecord.isValid = true
  deriving DecidableEq

namespace Connection

/-- `ProviderConnection.model_validate`. -/
def validate (record : ConnectionRecord) : Except StoreError Connection :=
  if h : record.isValid = true then .ok ⟨record, h⟩ else .error .validation

/-- Validating inside of a `try` that maps the exception. -/
def create (record : ConnectionRecord) : Except StoreError Connection :=
  (validate record).mapError fun _ => connectionInvalid

/-- `model_copy` with the flag set. -/
def requiringRevocation (connection : Connection) : Connection :=
  ⟨{ connection.toConnectionRecord with providerRevocationRequired := true }, connection.valid⟩

end Connection

/-! ## OAuth attempts -/

/-- A `ProviderOAuthAttempt`, checked or not. -/
structure OAuthAttemptRecord extends Scope where
  id : UUID
  grantedPermissions : List String
  status : AttemptStatus
  providerAccountId : Option String
  accountDisplayName : Option String
  authorizationMethod : Option AuthorizationMethod
  credentialEnvelopeIds : List UUID
  materialRevision : Int
  targetConnectionId : Option UUID
  targetRevision : Option Int
  acknowledgedAt : Option Instant
  providerRevocationRequired : Bool
  createdAt : Instant
  updatedAt : Instant
  deriving DecidableEq

namespace OAuthAttemptRecord

variable (record : OAuthAttemptRecord)

def targetIsValid : Bool :=
  match record.targetConnectionId with
  | none => record.targetRevision.isNone
  | some targetId => targetId != 0 && record.targetRevision.any (1 ≤ ·)

/-- `__post_init__`. -/
def isValid : Bool :=
  (record.id :: record.toUser.ids).all (· != 0) &&
    sorted record.grantedPermissions == record.grantedPermissions &&
    decide record.grantedPermissions.Nodup && 0 ≤ record.materialRevision &&
    record.createdAt ≤ record.updatedAt &&
    (record.acknowledgedAt.all fun t => record.createdAt ≤ t) &&
    !(record.status == .exchangePending && record.materialRevision != 0) &&
    !(record.status ∈ [.materialAttached, .finalized] && record.materialRevision < 1) &&
    record.targetIsValid

end OAuthAttemptRecord

/-- An attempt that has passed its checks. -/
structure OAuthAttempt extends OAuthAttemptRecord where
  valid : toOAuthAttemptRecord.isValid = true
  deriving DecidableEq

namespace OAuthAttempt

/-- `ProviderOAuthAttempt(...)` and `replace`. -/
def create (record : OAuthAttemptRecord) : Except StoreError OAuthAttempt :=
  if h : record.isValid = true then .ok ⟨record, h⟩ else .error connectionInvalid

variable (attempt other : OAuthAttempt)

/-- `_same_oauth_attempt_binding`. -/
def sameBinding : Bool :=
  attempt.id == other.id && attempt.toScope == other.toScope &&
    attempt.grantedPermissions == other.grantedPermissions

end OAuthAttempt

/-! ## Results -/

/-- `DisconnectResult`, whose validators its fields carry. -/
structure DisconnectResult where
  connectionId : UUID
  deletedEnvelopeCount : Nat
  alreadyDisconnected : Bool
  providerRevocationRequired : Bool
  revision : Int
  count_le : deletedEnvelopeCount ≤ 16
  one_le : 1 ≤ revision

/-! ## What the validators ensure -/

/-- What `__post_init__` checks. -/
structure OAuthAttemptRecord.Checks (record : OAuthAttemptRecord) : Prop where
  ids : ∀ id ∈ record.id :: record.toUser.ids, id ≠ 0
  sorted : sorted record.grantedPermissions = record.grantedPermissions
  nodup : record.grantedPermissions.Nodup
  revision : 0 ≤ record.materialRevision
  updated : record.createdAt ≤ record.updatedAt
  acknowledged : ∀ t, record.acknowledgedAt = some t → record.createdAt ≤ t
  pending : record.status = .exchangePending → record.materialRevision = 0
  material : record.status ∈ [.materialAttached, .finalized] → 1 ≤ record.materialRevision
  target : record.targetIsValid = true

variable {record : OAuthAttemptRecord}

lemma OAuthAttemptRecord.isValid_iff : record.isValid = true ↔ record.Checks := by
  unfold isValid
  simp only [Bool.and_eq_true, decide_eq_true_eq, List.all_eq_true, bne_iff_ne, beq_iff_eq,
    Option.all_eq_true, Bool.not_eq_true', Bool.and_eq_false_imp, bne_eq_false_iff_eq,
    decide_eq_false_iff_not, not_lt]
  constructor
  · rintro ⟨⟨⟨⟨⟨⟨⟨⟨h₁, h₂⟩, h₃⟩, h₄⟩, h₅⟩, h₆⟩, h₇⟩, h₈⟩, h₉⟩
    exact ⟨h₁, h₂, h₃, h₄, h₅, h₆, h₇, h₈, h₉⟩
  · rintro ⟨h₁, h₂, h₃, h₄, h₅, h₆, h₇, h₈, h₉⟩
    exact ⟨⟨⟨⟨⟨⟨⟨⟨h₁, h₂⟩, h₃⟩, h₄⟩, h₅⟩, h₆⟩, h₇⟩, h₈⟩, h₉⟩

/-- What `validate_state` checks. -/
structure ConnectionRecord.Checks (record : ConnectionRecord) : Prop where
  ids : ∀ id ∈ record.id :: record.toUser.ids, id ≠ 0
  nodup : record.credentialEnvelopeIds.Nodup
  updated : record.createdAt ≤ record.updatedAt
  ready : record.readiness = .ready → record.lastValidatedAt.isSome = true
  disconnected : record.readiness = .disconnected →
    record.disconnectedAt.isSome = true ∧ record.credentialEnvelopeIds = []
  connected : record.readiness ≠ .disconnected →
    record.disconnectedAt = none ∧ record.credentialEnvelopeIds ≠ []

lemma ConnectionRecord.stateIsValid_iff {record : ConnectionRecord} :
    record.stateIsValid = true ↔ record.Checks := by
  unfold stateIsValid
  simp only [Bool.and_eq_true, decide_eq_true_eq, List.all_eq_true, bne_iff_ne, beq_iff_eq,
    Bool.not_eq_true', Bool.and_eq_false_imp, Option.isNone_eq_false_iff]
  constructor
  · rintro ⟨⟨⟨⟨h₁, h₂⟩, h₃⟩, h₄⟩, h₅⟩
    refine ⟨h₁, h₂, h₃, h₄, fun hd => ?_, fun hd => ?_⟩
    · rwa [if_pos hd, Bool.and_eq_true, List.isEmpty_iff] at h₅
    · rwa [if_neg hd, Bool.and_eq_true, Option.isNone_iff_eq_none, Bool.not_eq_true',
        List.isEmpty_eq_false_iff] at h₅
  · rintro ⟨h₁, h₂, h₃, h₄, h₅, h₆⟩
    refine ⟨⟨⟨⟨h₁, h₂⟩, h₃⟩, h₄⟩, ?_⟩
    by_cases hd : record.readiness = .disconnected
    · rw [if_pos hd, Bool.and_eq_true, List.isEmpty_iff]
      exact h₅ hd
    · rw [if_neg hd, Bool.and_eq_true, Option.isNone_iff_eq_none, Bool.not_eq_true',
        List.isEmpty_eq_false_iff]
      exact h₆ hd

namespace Connection

variable {record : ConnectionRecord} {connection : Connection}

lemma validate_eq_ok :
    validate record = .ok connection ↔ connection.toConnectionRecord = record := by
  unfold validate
  split
  next h =>
    constructor
    · rintro ⟨⟩
      rfl
    · rintro rfl
      rfl
  next h =>
    constructor
    · nofun
    · rintro rfl
      exact absurd connection.valid h

lemma create_eq_ok : create record = .ok connection ↔ connection.toConnectionRecord = record := by
  rw [create, mapError_eq_ok, validate_eq_ok]

variable (connection : Connection)

lemma validates : connection.fieldsAreValid = true ∧ connection.stateIsValid = true := by
  have h := connection.valid
  rwa [ConnectionRecord.isValid, Bool.and_eq_true] at h

lemma one_le_revision : 1 ≤ connection.revision := by
  have h := connection.validates.1
  simp only [ConnectionRecord.fieldsAreValid, Bool.and_eq_true, decide_eq_true_eq] at h
  exact h.1.2

lemma length_credentialEnvelopeIds : connection.credentialEnvelopeIds.length ≤ 16 := by
  have h := connection.validates.1
  simp only [ConnectionRecord.fieldsAreValid, Bool.and_eq_true, decide_eq_true_eq] at h
  exact h.2

lemma checks : connection.toConnectionRecord.Checks :=
  ConnectionRecord.stateIsValid_iff.1 connection.validates.2

/-- A disconnected connection owns no envelope, and only a disconnected one owns none. -/
lemma credentialEnvelopeIds_eq_nil :
    connection.credentialEnvelopeIds = [] ↔ connection.readiness = .disconnected :=
  ⟨not_imp_not.1 fun h => (connection.checks.connected h).2,
    fun h => (connection.checks.disconnected h).2⟩

end Connection

lemma OAuthAttempt.checks (attempt : OAuthAttempt) : attempt.toOAuthAttemptRecord.Checks :=
  OAuthAttemptRecord.isValid_iff.1 attempt.valid

lemma OAuthAttempt.create_eq_ok {attempt : OAuthAttempt} :
    create record = .ok attempt ↔ attempt.toOAuthAttemptRecord = record := by
  unfold create
  split
  next h =>
    constructor
    · rintro ⟨⟩
      rfl
    · rintro rfl
      rfl
  next h =>
    constructor
    · nofun
    · rintro rfl
      exact absurd attempt.valid h

end MercuryTools.Providers
