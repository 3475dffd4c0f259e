import MercuryTools.Catalog.CanonicalJson
import MercuryTools.Framework.KeyedTable
import MercuryTools.Framework.Programs
import MercuryTools.Hosted.ClosedSchemas
import MercuryTools.Hosted.Fields

/-!
# The qualifications of provider capabilities

The table `mercury_provider_capability_qualifications`: its columns, its constraints and the
statements that `publish_mercury_provider_capability_qualification` runs on it.  A record holds
`NULL` (`none`) in any column; a row is a record that the constraints admit.  Guards are written
in three-valued logic, as the source's conditions are.
-/

namespace MercuryTools.Catalog

open Checks Hosted

/-! ## States -/

inductive QualificationState where
  | discoveredUnreviewed
  | schemaValidated
  | nonproductionQualified
  | enabled
  | disabled
  | superseded
  deriving DecidableEq, Repr

namespace QualificationState

def text : QualificationState → String
  | discoveredUnreviewed => "discovered_unreviewed"
  | schemaValidated => "schema_validated"
  | nonproductionQualified => "nonproduction_qualified"
  | enabled => "enabled"
  | disabled => "disabled"
  | superseded => "superseded"

def all : List QualificationState :=
  [discoveredUnreviewed, schemaValidated, nonproductionQualified, enabled, disabled, superseded]

lemma text_injective : Function.Injective text := by
  intro s t h
  cases s <;> cases t <;> first | rfl | exact absurd h (by decide)

end QualificationState

/-! ## Records -/

/-- A record of the table's row type. -/
structure QualificationRecord where
  id : Option UUID
  provider : Option String
  environment : Option String
  providerToolName : Option String
  normalizedCapability : Option String
  inputSchema : Option Json
  outputSchema : Option Json
  publicOutputFieldPaths : Option Json
  schemaHash : Option String
  responseShapeHash : Option String
  requiredPermissions : Option Json
  capabilityVersionSha256 : Option String
  qualificationState : Option String
  companySha256 : Option String
  evidenceRevisionSha256 : Option String
  qualificationEvidenceUri : Option String
  evidenceEvaluatedAt : Option Instant
  evidenceExpiresAt : Option Instant
  nonproductionEvidenceRevisionSha256 : Option String
  nonproductionCompanySha256 : Option String
  productionCanaryAt : Option Instant
  ownerAuthorizedBy : Option String
  disableReason : Option String
  createdAt : Option Instant
  updatedAt : Option Instant
  deriving DecidableEq

namespace QualificationRecord

/-- `qualification_state = state`. -/
def isIn (r : QualificationRecord) (state : QualificationState) : Truth :=
  Truth.eq r.qualificationState (some state.text)

/-- `qualification_state in (states)`. -/
def isAmong (r : QualificationRecord) (states : List QualificationState) : Truth :=
  Truth.isIn r.qualificationState (states.map (·.text))

/-- `environment = 'production'`. -/
def isProduction (r : QualificationRecord) : Truth :=
  Truth.eq r.environment (some "production")

/-- The columns that publishing a known qualification must not change, `created_at` aside. -/
def version (r : QualificationRecord) : List (Option String) × List (Option Json) :=
  ([r.provider, r.environment, r.providerToolName, r.normalizedCapability, r.schemaHash,
    r.responseShapeHash, r.capabilityVersionSha256],
    [r.inputSchema, r.outputSchema, r.publicOutputFieldPaths, r.requiredPermissions])

/-- What identifies a version of a capability. -/
def capabilityVersion (r : QualificationRecord) : List (Option String) :=
  [r.provider, r.environment, r.providerToolName, r.normalizedCapability,
    r.capabilityVersionSha256]

/-- The columns that the `update` statement sets. -/
def update (r candidate : QualificationRecord) : QualificationRecord :=
  { r with
    qualificationState := candidate.qualificationState
    companySha256 := candidate.companySha256
    evidenceRevisionSha256 := candidate.evidenceRevisionSha256
    qualificationEvidenceUri := candidate.qualificationEvidenceUri
    evidenceEvaluatedAt := candidate.evidenceEvaluatedAt
    evidenceExpiresAt := candidate.evidenceExpiresAt
    nonproductionEvidenceRevisionSha256 := candidate.nonproductionEvidenceRevisionSha256
    nonproductionCompanySha256 := candidate.nonproductionCompanySha256
    productionCanaryAt := candidate.productionCanaryAt
    ownerAuthorizedBy := candidate.ownerAuthorizedBy
    disableReason := candidate.disableReason
    updatedAt := candidate.updatedAt }

end QualificationRecord

/-! ## Patterns -/

/-- `^documents\.[a-z][a-z0-9_]*\.create$`. -/
def isCreateCapability (s : String) : Bool :=
  match s.toList.splitOn '.' with
  | [documents, kind, create] =>
      documents == "documents".toList && isCapabilitySegment kind && create == "create".toList
  | _ => false

/-- `\.(get|list)$`. -/
def isReadCapability (s : String) : Bool :=
  ".get".toList.isSuffixOf s.toList || ".list".toList.isSuffixOf s.toList

/-- `([^~/*]|~[01])+` up to the end. -/
def isPointerText : List Char → Bool
  | [] => true
  | '~' :: c :: cs => (c == '0' || c == '1') && isPointerText cs
  | c :: cs => c != '~' && c != '/' && c != '*' && isPointerText cs

/-- `\*|([^~/*]|~[01])+`. -/
def isPointerSegment (cs : List Char) : Bool :=
  cs == ['*'] || (!cs.isEmpty && isPointerText cs)

/-- `^/(\*|([^~/*]|~[01])+)(/(\*|([^~/*]|~[01])+))*$`. -/
def isPublicOutputPath (s : String) : Bool :=
  match s.toList with
  | '/' :: cs => (cs.splitOn '/').all isPointerSegment
  | _ => false

/-! ## The database around the table -/

/-- What the server contributes: the casts and the printing of values, the hash, the order of
texts, and the order in which an aggregate without `order by` sees its rows. -/
structure QualificationDatabase where
  jsonbText : JsonbText
  digest : String → String
  textLe : String → String → Bool
  aggregated : List String → List String
  uuid : String → Option UUID
  timestamptz : String → Option Instant
  boolean : String → Option Bool

/-! ## Constraints -/

/-- A `check` constraint is violated where its condition is known to be false. -/
def checkHolds (t : Truth) : Bool :=
  t != some false

/-- The `not null` and `check` constraints of the table. -/
def QualificationRecord.admitted (r : QualificationRecord) : Bool :=
  (r.id.isSome && r.provider.isSome && r.environment.isSome && r.providerToolName.isSome &&
    r.normalizedCapability.isSome && r.inputSchema.isSome && r.outputSchema.isSome &&
    r.schemaHash.isSome && r.responseShapeHash.isSome && r.requiredPermissions.isSome &&
    r.capabilityVersionSha256.isSome && r.qualificationState.isSome && r.createdAt.isSome &&
    r.updatedAt.isSome) &&
  ([Truth.isIn r.provider ["flowaccount", "peak"],
    Truth.test isEnvironment r.environment,
    Truth.test isIdentifier r.providerToolName,
    Truth.test isCapability r.normalizedCapability,
    Truth.eq (Jsonb.typeof r.inputSchema) (some "object"),
    Truth.eq (Jsonb.typeof r.outputSchema) (some "object"),
    Truth.test isSha256 r.schemaHash,
    Truth.test isSha256 r.responseShapeHash,
    (Truth.eq (Jsonb.typeof r.requiredPermissions) (some "array")).and
      (Truth.test (0 < ·) (Jsonb.arrayLength r.requiredPermissions)),
    Truth.test isSha256 r.capabilityVersionSha256,
    r.isAmong QualificationState.all,
    Truth.test isSha256 r.companySha256,
    Truth.test isSha256 r.evidenceRevisionSha256,
    Truth.test isSha256 r.nonproductionEvidenceRevisionSha256,
    Truth.test isSha256 r.nonproductionCompanySha256,
    (Truth.isNull r.publicOutputFieldPaths).or

    (Truth.eq (Jsonb.typeof r.publicOutputFieldPaths) (some "array"))] : List Truth).all checkHolds

/-- A record that the constraints admit. -/
structure QualificationRow where
  record : QualificationRecord
  admitted : record.admitted = true
  deriving DecidableEq

/-- `unique (provider, capability_version_sha256, evidence_revision_sha256)`: two rows with one
such key, in which no column is `NULL`. -/
def QualificationRecord.sameEvidence (r s : QualificationRecord) : Truth :=
  Truth.andAll [Truth.eq r.provider s.provider,
    Truth.eq r.capabilityVersionSha256 s.capabilityVersionSha256,
    Truth.eq r.evidenceRevisionSha256 s.evidenceRevisionSha256]

/-! ## The table -/

/-- The table and the clock of the server.  `history` is bookkeeping of the model: every version
of a row that was written, in the order of the writes. -/
structure QualificationStore where
  rows : List QualificationRow
  history : List QualificationRecord
  clock : Instant
  deriving DecidableEq

namespace QualificationStore

variable (store : QualificationStore)

def empty (clock : Instant) : QualificationStore :=
  ⟨[], [], clock⟩

/-- `where id = ...`. -/
def find (id : UUID) : Option QualificationRow :=
  store.rows.find? (·.record.id == some id)

/-- The rows that support a production candidate: evidence of the same version from another
environment, current at `now`. -/
def references (candidate : QualificationRecord) (now : Instant) : List QualificationRow :=
  store.rows.filter fun row =>
    let evidence := row.record
    (Truth.andAll [Truth.eq evidence.provider candidate.provider,
      Truth.ne evidence.environment (some "production"),
      Truth.eq evidence.providerToolName candidate.providerToolName,
      Truth.eq evidence.normalizedCapability candidate.normalizedCapability,
      Truth.eq evidence.inputSchema candidate.inputSchema,
      Truth.eq evidence.outputSchema candidate.outputSchema,
      (Truth.isDistinct evidence.publicOutputFieldPaths candidate.publicOutputFieldPaths).not,
      Truth.eq evidence.schemaHash candidate.schemaHash,
      Truth.eq evidence.responseShapeHash candidate.responseShapeHash,
      Truth.eq evidence.requiredPermissions candidate.requiredPermissions,
      Truth.eq evidence.evidenceRevisionSha256 candidate.nonproductionEvidenceRevisionSha256,
      Truth.eq evidence.companySha256 candidate.nonproductionCompanySha256,
      evidence.isAmong [.nonproductionQualified, .enabled],
      Truth.test (· ≤ now) evidence.evidenceEvaluatedAt,
      Truth.test (now < ·) evidence.evidenceExpiresAt]).isTrue

/-- Whether another revision of the candidate's version is enabled and current at `now`. -/
def otherActive (candidate : QualificationRecord) (now : Instant) : Bool :=
  store.rows.any fun row =>
    let active := row.record
    (Truth.andAll [Truth.ne active.id candidate.id,
      Truth.eq active.provider candidate.provider,
      Truth.eq active.environment candidate.environment,
      Truth.eq active.providerToolName candidate.providerToolName,
      Truth.eq active.normalizedCapability candidate.normalizedCapability,
      Truth.eq active.capabilityVersionSha256 candidate.capabilityVersionSha256,
      active.isIn .enabled,
      Truth.test (· ≤ now) active.evidenceEvaluatedAt,
      Truth.test (now < ·) active.evidenceExpiresAt]).isTrue

/-- `mercury_reject_open_create_qualification`, the trigger of an insertion. -/
def rejectsOpenCreate (db : QualificationDatabase) (r : QualificationRecord) : Bool :=
  ((Truth.test isCreateCapability r.normalizedCapability).and
    (createSchemaIsClosed db.jsonbText r.inputSchema true).not).isTrue

/-- `insert`, with the trigger, the constraints and the unique keys. -/
def insert (db : QualificationDatabase) (candidate : QualificationRecord) :
    Except String QualificationStore :=
  if rejectsOpenCreate db candidate then .error "capability_unavailable"
  else if h : candidate.admitted = true then
    if store.rows.any fun row =>
        row.record.id == candidate.id || (row.record.sameEvidence candidate).isTrue then
      .error "unique_violation"
    else .ok { store with
      rows := store.rows ++ [⟨candidate, h⟩]
      history := store.history ++ [candidate] }
  else .error "check_violation"

/-- `update ... where id = candidate.id`. -/
def update (candidate : QualificationRecord) : Except String QualificationStore :=
  match store.rows.find? (·.record.id == candidate.id) with
  | none => .ok store
  | some row =>
      let updated := row.record.update candidate
      if h : updated.admitted = true then
        if store.rows.any fun other =>
            other.record.id != candidate.id && (other.record.sameEvidence updated).isTrue then
          .error "unique_violation"
        else .ok { store with
          rows := KeyedTable.put (·.record.id) store.rows ⟨updated, h⟩
          history := store.history ++ [updated] }
      else .error "check_violation"

end QualificationStore

end MercuryTools.Catalog
