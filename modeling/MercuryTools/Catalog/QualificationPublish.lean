import MercuryTools.Catalog.Qualification

/-!
# Publishing a qualification

`publish_mercury_provider_capability_qualification`: the payload is checked, the row on record is
looked up, and the candidate is inserted as a new row or updates the row it found.  The function
is a program over the statements it runs, each of which sees what is committed when it runs; its
only write is its last statement, so that a call that raises leaves no trace.
-/

namespace MercuryTools.Catalog

open Checks Hosted Programs

/-- The arguments of a call; both may be `NULL`. -/
structure PublishCall where
  qualification : Option Json
  artifact : Option Json

/-- `if ... then raise exception`. -/
def raiseIf (t : Truth) (code : String) : Except String Unit :=
  require (!t.isTrue) code

lemma raiseIf_eq_ok {t : Truth} {code : String} {u : Unit} :
    raiseIf t code = .ok u ↔ t.isTrue = false := by
  rw [raiseIf, require_eq_ok, Bool.not_eq_true']

/-! ## The payload -/

/-- The keys of a qualification, which are the columns of the table. -/
def qualificationKeys : List String :=
  ["id", "provider", "environment", "provider_tool_name", "normalized_capability",
    "input_schema", "output_schema", "public_output_field_paths", "schema_hash",
    "response_shape_hash", "required_permissions", "capability_version_sha256",
    "qualification_state", "company_sha256", "evidence_revision_sha256",
    "qualification_evidence_uri", "evidence_evaluated_at", "evidence_expires_at",
    "nonproduction_evidence_revision_sha256", "nonproduction_company_sha256",
    "production_canary_at", "owner_authorized_by", "disable_reason", "created_at", "updated_at"]

/-- The value of a key, where a JSON `null` is `NULL`. -/
def jsonColumn (payload : Option Json) (key : String) : Option Json :=
  (Jsonb.get payload key).bind fun
    | .null => none
    | value => some value

variable (db : QualificationDatabase)

def textColumn (payload : Option Json) (key : String) : Option String :=
  (jsonColumn payload key).bind (Jsonb.text db.jsonbText)

/-- A text as another type; the cast of `NULL` is `NULL`. -/
def castText {α : Type} (cast : String → Option α) : Option String → Except String (Option α)
  | none => .ok none
  | some text =>
      match cast text with
      | some value => .ok (some value)
      | none => .error "invalid_text_representation"

/-- `jsonb_populate_record` over an empty record. -/
def populateRecord (payload : Option Json) : Except String QualificationRecord := do
  let id ← castText db.uuid (textColumn db payload "id")
  let evidenceEvaluatedAt ←
    castText db.timestamptz (textColumn db payload "evidence_evaluated_at")
  let evidenceExpiresAt ← castText db.timestamptz (textColumn db payload "evidence_expires_at")
  let productionCanaryAt ← castText db.timestamptz (textColumn db payload "production_canary_at")
  let createdAt ← castText db.timestamptz (textColumn db payload "created_at")
  let updatedAt ← castText db.timestamptz (textColumn db payload "updated_at")
  return {
    id := id
    provider := textColumn db payload "provider"
    environment := textColumn db payload "environment"
    providerToolName := textColumn db payload "provider_tool_name"
    normalizedCapability := textColumn db payload "normalized_capability"
    inputSchema := jsonColumn payload "input_schema"
    outputSchema := jsonColumn payload "output_schema"
    publicOutputFieldPaths := jsonColumn payload "public_output_field_paths"
    schemaHash := textColumn db payload "schema_hash"
    responseShapeHash := textColumn db payload "response_shape_hash"
    requiredPermissions := jsonColumn payload "required_permissions"
    capabilityVersionSha256 := textColumn db payload "capability_version_sha256"
    qualificationState := textColumn db payload "qualification_state"
    companySha256 := textColumn db payload "company_sha256"
    evidenceRevisionSha256 := textColumn db payload "evidence_revision_sha256"
    qualificationEvidenceUri := textColumn db payload "qualification_evidence_uri"
    evidenceEvaluatedAt := evidenceEvaluatedAt
    evidenceExpiresAt := evidenceExpiresAt
    nonproductionEvidenceRevisionSha256 :=
      textColumn db payload "nonproduction_evidence_revision_sha256"
    nonproductionCompanySha256 := textColumn db payload "nonproduction_company_sha256"
    productionCanaryAt := productionCanaryAt
    ownerAuthorizedBy := textColumn db payload "owner_authorized_by"
    disableReason := textColumn db payload "disable_reason"
    createdAt := createdAt
    updatedAt := updatedAt }

/-! ## Lists of texts -/

/-- The elements of an array, none for `NULL`. -/
def arrayElements : Option Json → List Json
  | some (.arr items) => items
  | _ => []

/-- `exists (... where jsonb_typeof(item) <> 'string')`. -/
def hasOtherThanStrings (value : Option Json) : Truth :=
  some ((arrayElements value).any fun item =>
    (Truth.ne (Jsonb.typeof (some item)) (some "string")).isTrue)

/-- `array_agg`, which is `NULL` without rows. -/
def arrayAgg (values : List String) : Option (List String) :=
  if values = [] then none else some values

/-- The texts of the elements. -/
def elementTexts (value : Option Json) : List String :=
  (Jsonb.elementsText db.jsonbText value).filterMap fun text => text

/-- The list is not sorted, has a value twice or a value that does not match. -/
def badTexts (listed : List String) (sorted : List String) (matching : String → Bool) : Truth :=
  Truth.orAll [
    Truth.isDistinct (arrayAgg listed) (arrayAgg sorted),
    Truth.ne ((arrayAgg listed).map (·.length)) ((arrayAgg listed).map (·.dedup.length)),
    some (listed.any fun value => !matching value)]

/-! ## Before the look-up -/

/-- `jsonb_build_object`, where `NULL` becomes a JSON `null`. -/
def buildObject (fields : List (String × Option Json)) : Json :=
  .obj (fields.map fun field => (field.1, field.2.getD .null))

def textJson (value : Option String) : Option Json :=
  value.map .str

/-- The hash of a canonical text. -/
def canonicalDigest (value : Json) : String :=
  db.digest (mercuryCanonicalJsonb value)

def expectedSchemaHash (r : QualificationRecord) : String :=
  canonicalDigest db (buildObject
    [("input_schema", r.inputSchema), ("output_schema", r.outputSchema)])

def versionPayload (r : QualificationRecord) : Json :=
  buildObject ([("provider", textJson r.provider), ("environment", textJson r.environment),
    ("provider_tool_name", textJson r.providerToolName),
    ("normalized_capability", textJson r.normalizedCapability),
    ("input_schema", r.inputSchema), ("output_schema", r.outputSchema),
    ("schema_hash", textJson r.schemaHash),
    ("response_shape_hash", textJson r.responseShapeHash),
    ("required_permissions", r.requiredPermissions)] ++
    match r.publicOutputFieldPaths with
    | none => []
    | some paths => [("public_output_field_paths", some paths)])

/-- The checks of the permissions. -/
def checkPermissions (r : QualificationRecord) : Except String Unit := do
  raiseIf (Truth.orAll [
      Truth.ne (Jsonb.typeof r.requiredPermissions) (some "array"),
      Truth.eq (Jsonb.arrayLength r.requiredPermissions) (some 0),
      hasOtherThanStrings r.requiredPermissions])
    "mercury_provider_capability_permissions_invalid"
  let permissions := elementTexts db r.requiredPermissions
  raiseIf (badTexts (db.aggregated permissions) (permissions.insertionSort (db.textLe · ·)) isIdentifier)
    "mercury_provider_capability_permissions_invalid"

/-- The checks of the public output paths, where there are any. -/
def checkPublicPaths (r : QualificationRecord) : Except String Unit :=
  if r.publicOutputFieldPaths.isNone then .ok ()
  else do
    raiseIf ((Truth.ne (Jsonb.typeof r.publicOutputFieldPaths) (some "array")).or
        (hasOtherThanStrings r.publicOutputFieldPaths))
      "mercury_provider_capability_public_output_paths_invalid"
    let paths := elementTexts db r.publicOutputFieldPaths
    raiseIf (badTexts paths (paths.insertionSort (db.textLe · ·)) isPublicOutputPath)
      "mercury_provider_capability_public_output_paths_invalid"

/-- The candidate of a payload: its identifier, its time of creation and the time of the call. -/
def completed (record : QualificationRecord) (id : UUID) (now : Instant) : QualificationRecord :=
  { record with
    id := some id
    createdAt := some (record.createdAt.getD now)
    updatedAt := some now }

/-- What is checked before the row on record is looked up. -/
def prepareCandidate (call : PublishCall) (now : Instant) (freshId : UUID) :
    Except String (UUID × QualificationRecord) := do
  raiseIf ((Truth.ne (Jsonb.typeof call.qualification) (some "object")).or
      (some (((call.qualification.map Json.keys).getD []).any (· ∉ qualificationKeys))))
    "mercury_provider_capability_payload_invalid"
  let record ← populateRecord db call.qualification
  let id := record.id.getD freshId
  let candidate := completed record id now
  checkPermissions db candidate
  checkPublicPaths db candidate
  raiseIf (Truth.isDistinct candidate.schemaHash (some (expectedSchemaHash db candidate)))
    "mercury_provider_capability_schema_hash_invalid"
  raiseIf (Truth.isDistinct candidate.capabilityVersionSha256
      (some (canonicalDigest db (versionPayload candidate))))
    "mercury_provider_capability_version_invalid"
  return (id, candidate)

/-! ## A new qualification -/

/-- Which columns of the evidence and of the enablement are set. -/
def evidencePresent (candidate : QualificationRecord) : List Truth :=
  [Truth.isNotNull candidate.companySha256,
    Truth.isNotNull candidate.evidenceRevisionSha256,
    Truth.isNotNull candidate.qualificationEvidenceUri,
    Truth.isNotNull candidate.evidenceEvaluatedAt,
    Truth.isNotNull candidate.evidenceExpiresAt,
    Truth.isNotNull candidate.nonproductionEvidenceRevisionSha256,
    Truth.isNotNull candidate.nonproductionCompanySha256,
    Truth.isNotNull candidate.productionCanaryAt,
    Truth.isNotNull candidate.ownerAuthorizedBy,
    Truth.isNotNull candidate.disableReason]

/-- A qualification starts without evidence. -/
def checkInitialState (candidate : QualificationRecord) : Except String Unit :=
  raiseIf (Truth.orAll ([
      Truth.isNull candidate.publicOutputFieldPaths,
      Truth.ne candidate.qualificationState (some QualificationState.discoveredUnreviewed.text)] ++
      evidencePresent candidate))
    "mercury_provider_capability_initial_state_invalid"

/-! ## A known qualification -/

/-- Nothing of the version changes. -/
def checkImmutable (call : PublishCall) (existing candidate : QualificationRecord) :
    Except String QualificationRecord := do
  raiseIf ((Jsonb.exists? call.qualification (some "created_at")).and
      (Truth.isDistinct candidate.createdAt existing.createdAt))
    "mercury_provider_capability_versions_are_immutable"
  let candidate := { candidate with createdAt := existing.createdAt }
  raiseIf (some (candidate.version != existing.version))
    "mercury_provider_capability_versions_are_immutable"
  return candidate

/-- The declared transitions. -/
def checkTransition (existing candidate : QualificationRecord) : Except String Unit :=
  raiseIf (Truth.orAll [
      (existing.isIn .discoveredUnreviewed).and (candidate.isIn .schemaValidated),
      (existing.isIn .schemaValidated).and (candidate.isIn .nonproductionQualified),
      (existing.isIn .nonproductionQualified).and (candidate.isIn .enabled),
      (existing.isIn .enabled).and (candidate.isAmong [.disabled, .superseded])]).not
    "mercury_provider_capability_transition_invalid"

/-- The columns of the evidence that are distinct. -/
def evidenceDistinct (candidate existing : QualificationRecord) : List Truth :=
  [Truth.isDistinct candidate.companySha256 existing.companySha256,
    Truth.isDistinct candidate.evidenceRevisionSha256 existing.evidenceRevisionSha256,
    Truth.isDistinct candidate.qualificationEvidenceUri existing.qualificationEvidenceUri,
    Truth.isDistinct candidate.evidenceEvaluatedAt existing.evidenceEvaluatedAt,
    Truth.isDistinct candidate.evidenceExpiresAt existing.evidenceExpiresAt,
    Truth.isDistinct candidate.nonproductionEvidenceRevisionSha256
      existing.nonproductionEvidenceRevisionSha256,
    Truth.isDistinct candidate.nonproductionCompanySha256 existing.nonproductionCompanySha256]

/-- Enabling keeps the evidence of the qualification. -/
def checkEvidenceIdentity (existing candidate : QualificationRecord) : Except String Unit :=
  raiseIf (((existing.isIn .nonproductionQualified).and (candidate.isIn .enabled)).and
      (Truth.orAll (evidenceDistinct candidate existing)))
    "mercury_provider_capability_evidence_identity_mismatch"

/-- `'catalog://global/' || provider || ...`, which is `NULL` where a part is. -/
def evidenceUri (r : QualificationRecord) : Option String := do
  let provider ← r.provider
  let version ← r.capabilityVersionSha256
  let revision ← r.evidenceRevisionSha256
  return "catalog://global/" ++ provider ++ "/qualifications/" ++ version ++ "-" ++ revision ++
    ".json"

/-- `p_artifact - key`. -/
def withoutKey (artifact : Option Json) (key : String) : Option Json :=
  artifact.map fun
    | .obj fields => .obj (fields.filter (·.1 != key))
    | value => value

/-- The evidence and the artifact it was read from. -/
def checkEvidence (call : PublishCall) (candidate : QualificationRecord) (now : Instant) :
    Except String Unit := do
  raiseIf (Truth.orAll [
      Truth.ne (Jsonb.typeof call.artifact) (some "object"),
      Truth.isNull candidate.companySha256,
      Truth.isNull candidate.evidenceRevisionSha256,
      Truth.ne candidate.qualificationEvidenceUri (evidenceUri candidate),
      Truth.isNull candidate.evidenceEvaluatedAt,
      Truth.isNull candidate.evidenceExpiresAt,
      Truth.test (now < ·) candidate.evidenceEvaluatedAt,
      Truth.test (· ≤ now) candidate.evidenceExpiresAt])
    "mercury_provider_capability_evidence_invalid"
  let artifactText := fun key => Jsonb.getText db.jsonbText call.artifact key
  let expected :=
    (withoutKey call.artifact "evidence_revision_sha256").map (canonicalDigest db)
  raiseIf (Truth.orAll [
      Truth.isDistinct (artifactText "evidence_revision_sha256") expected,
      Truth.isDistinct candidate.evidenceRevisionSha256 expected,
      Truth.isDistinct (artifactText "provider") candidate.provider,
      Truth.isDistinct (artifactText "environment") candidate.environment,
      Truth.isDistinct (artifactText "company_sha256") candidate.companySha256,
      Truth.isDistinct (artifactText "normalized_capability") candidate.normalizedCapability,
      Truth.isDistinct (artifactText "provider_tool_name") candidate.providerToolName,
      Truth.isDistinct (artifactText "capability_version_sha256")
        candidate.capabilityVersionSha256,
      Truth.isDistinct (artifactText "schema_hash") candidate.schemaHash,
      Truth.isDistinct (artifactText "response_shape_hash") candidate.responseShapeHash])
    "mercury_provider_capability_evidence_invalid"
  let evaluatedAt ← castText db.timestamptz (artifactText "evaluated_at")
  raiseIf (Truth.isDistinct evaluatedAt candidate.evidenceEvaluatedAt)
    "mercury_provider_capability_evidence_invalid"
  let expiresAt ← castText db.timestamptz (artifactText "evidence_expires_at")
  raiseIf (Truth.isDistinct expiresAt candidate.evidenceExpiresAt)
    "mercury_provider_capability_evidence_invalid"
  let passed ← castText db.boolean (artifactText "passed")
  raiseIf (some (passed.getD false != true)) "mercury_provider_capability_evidence_invalid"

/-- Validating the schema brings no evidence. -/
def checkNoEvidence (candidate : QualificationRecord) : Except String Unit :=
  raiseIf (Truth.orAll (evidencePresent candidate))
    "mercury_provider_capability_evidence_unexpected"

/-- Disabling and superseding give a reason and keep everything else. -/
def checkTerminal (existing candidate : QualificationRecord) : Except String Unit :=
  raiseIf (Truth.orAll ([
      Truth.isNull candidate.disableReason,
      (Truth.test isIdentifier candidate.disableReason).not] ++
      evidenceDistinct candidate existing ++
      [Truth.isDistinct candidate.productionCanaryAt existing.productionCanaryAt,
        Truth.isDistinct candidate.ownerAuthorizedBy existing.ownerAuthorizedBy]))
    "mercury_provider_capability_terminal_invalid"

/-- What the candidate's state asks of its evidence. -/
def checkState (call : PublishCall) (existing candidate : QualificationRecord) (now : Instant) :
    Except String Unit :=
  if (candidate.isAmong [.nonproductionQualified, .enabled]).isTrue then
    checkEvidence db call candidate now
  else if (candidate.isIn .schemaValidated).isTrue then checkNoEvidence candidate
  else if (candidate.isAmong [.disabled, .superseded]).isTrue then
    checkTerminal existing candidate
  else .ok ()

/-- What enabling asks of the capability, the canary and the owner. -/
def checkEnabled (candidate : QualificationRecord) (now : Instant) : Except String Unit := do
  raiseIf ((Truth.test isReadCapability candidate.normalizedCapability).or
      (Truth.test isCreateCapability candidate.normalizedCapability)).not
    "mercury_provider_capability_operation_not_allowed"
  if (candidate.isProduction.and (Truth.orAll [
      Truth.isNull candidate.productionCanaryAt,
      Truth.test (now < ·) candidate.productionCanaryAt,
      (Truth.test isIdentifier candidate.ownerAuthorizedBy).not])).isTrue then
    .error "mercury_provider_capability_canary_required"
  else
    raiseIf ((Truth.ne candidate.environment (some "production")).and
        ((Truth.isNotNull candidate.productionCanaryAt).or
          (Truth.isNotNull candidate.ownerAuthorizedBy)))
      "mercury_provider_capability_canary_invalid"

/-- What is checked of a candidate and the row it updates, before other rows are read. -/
def checkUpdate (call : PublishCall) (existing candidate : QualificationRecord) (now : Instant) :
    Except String QualificationRecord := do
  let candidate ← checkImmutable call existing candidate
  checkTransition existing candidate
  checkEvidenceIdentity existing candidate
  checkState db call existing candidate now
  return candidate

/-! ## The function -/

/-- The statements of a call.  `begin` takes the time of the call and a fresh identifier. -/
inductive PublishEffect where
  | begin
  | findRow (id : UUID)
  | countReferences (candidate : QualificationRecord) (now : Instant)
  | otherActive (candidate : QualificationRecord) (now : Instant)
  | insertRow (candidate : QualificationRecord)
  | updateRow (candidate : QualificationRecord)

/-- What a call begins with.  `mark` is bookkeeping of the model: the number of writes so far. -/
structure Began where
  now : Instant
  freshId : UUID
  mark : Nat
  deriving DecidableEq

abbrev PublishEffect.Answer : PublishEffect → Type
  | begin => Began
  | findRow _ => Option QualificationRow
  | countReferences _ _ => Nat
  | otherActive _ _ => Bool
  | insertRow _ | updateRow _ => Except String Unit

abbrev PublishProgram (α : Type) : Type :=
  Program PublishEffect PublishEffect.Answer α

/-- A statement. -/
def run (e : PublishEffect) : PublishProgram e.Answer :=
  .perform e .done

/-- A check that raises or goes on. -/
def lift {α : Type} : Except String α → PublishProgram α
  | .ok a => .done a
  | .error code => .fail code

/-- The supporting evidence of a production candidate, none of any other one. -/
def publishReferences (candidate : QualificationRecord) (now : Instant) :
    PublishProgram Unit := do
  if (candidate.isProduction.and (candidate.isAmong
      [.nonproductionQualified, .enabled, .disabled, .superseded])).isTrue then
    lift (raiseIf ((Truth.isNull candidate.nonproductionEvidenceRevisionSha256).or
        (Truth.isNull candidate.nonproductionCompanySha256))
      "mercury_provider_capability_nonproduction_evidence_required")
    let count ← run (.countReferences candidate now)
    lift (require (count == 1) "mercury_provider_capability_nonproduction_evidence_required")
  else
    lift (raiseIf ((Truth.isNotNull candidate.nonproductionEvidenceRevisionSha256).or
        (Truth.isNotNull candidate.nonproductionCompanySha256))
      "mercury_provider_capability_nonproduction_reference_unexpected")

/-- The checks of an enablement. -/
def publishEnabled (candidate : QualificationRecord) (now : Instant) : PublishProgram Unit := do
  if (candidate.isIn .enabled).isTrue then
    lift (checkEnabled candidate now)
    let active ← run (.otherActive candidate now)
    lift (require (!active) "mercury_provider_capability_current_revision_ambiguous")
  else lift (.ok ())

/-- The write that a call comes to. -/
inductive QualificationWrite where
  | insert (candidate : QualificationRecord)
  | update (candidate : QualificationRecord)

/-- What the function reads and checks, up to its write. -/
def publishReads (call : PublishCall) : PublishProgram (UUID × QualificationWrite) := do
  let began ← run .begin
  let (id, candidate) ← lift (prepareCandidate db call began.now began.freshId)
  match ← run (.findRow id) with
  | none => do
      lift (checkInitialState candidate)
      return (id, .insert candidate)
  | some existing => do
      let candidate ← lift (checkUpdate db call existing.record candidate began.now)
      publishReferences candidate began.now
      publishEnabled candidate began.now
      return (id, .update candidate)

def QualificationWrite.effect : QualificationWrite → PublishEffect
  | .insert candidate => .insertRow candidate
  | .update candidate => .updateRow candidate

/-- The write, whose exception is one of the call. -/
def publishWrite (id : UUID) : QualificationWrite → PublishProgram UUID
  | .insert candidate => do
      let inserted ← run (.insertRow candidate)
      lift inserted
      return id
  | .update candidate => do
      let updated ← run (.updateRow candidate)
      lift updated
      return id

/-- `publish_mercury_provider_capability_qualification`. -/
def publish (call : PublishCall) : PublishProgram UUID := do
  let (id, write) ← publishReads db call
  publishWrite id write

end MercuryTools.Catalog
