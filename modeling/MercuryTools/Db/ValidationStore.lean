import MercuryTools.Framework.Dictionaries
import MercuryTools.Framework.Programs
import MercuryTools.Framework.StableSorting
import Mathlib.Data.List.Lex
import Mathlib.Data.String.Basic

/-!
# Publishing validation evidence

`SupabaseValidationStore.publish` of `db/validation.py`.  The records are validated and looked up in
batches that fit into a request; those that are not stored are inserted in batches of ten, where
rows whose key exists are ignored; and what was not inserted is looked up again.

A call is a program whose effects are the requests to the table.  The content of a record, the rows
of the table and how a record is written to a row and read back are parameters.
-/

namespace MercuryTools.Db

open Programs

/-- `datetime`: a clock reading and its offset from UTC in microseconds, if it has one. -/
structure Datetime where
  micros : Int
  utcOffset : Option Int
  deriving DecidableEq, Repr

/-- `normalize_evidence_time` -/
def normalizeEvidenceTime (value : Datetime) : Except String Datetime :=
  match value.utcOffset with
  | none => .error "evidence_timestamp_naive"
  | some offset => .ok ⟨value.micros - offset, some 0⟩

/-- `ValidationKnowledge`.  The content is the fields that no check of the store looks at. -/
structure ValidationKnowledge (Content : Type) where
  opaqueEvidenceId : String
  runId : String
  actionId : String
  versionId : String
  connectorId : String
  environment : String
  evaluatedAt : Datetime
  expiresAt : Option Datetime
  content : Content
  deriving DecidableEq

/-- `_validation_identity` -/
abbrev Identity := List String

variable {Content Row : Type} [DecidableEq Content]

def ValidationKnowledge.identity (record : ValidationKnowledge Content) : Identity :=
  [record.connectorId, record.actionId, record.versionId, record.environment, record.runId]

/-- What a call depends on: whether `model_validate` accepts a record, and the length of the request
that looks records up, which may be invalid.  A row has the columns of the key, which are texts.
A record is inserted as a row, unless a constraint rejects it, and a row is read as a record, unless
`model_validate` rejects it. -/
structure ValidationTable (Content Row : Type) where
  modelValid : ValidationKnowledge Content → Bool
  requestTargetBytes : List Identity → Option Nat
  identity : Row → Identity
  insert : ValidationKnowledge Content → Option Row
  select : Row → Option (ValidationKnowledge Content)
  identity_insert : ∀ record row, insert record = some row → identity row = record.identity
  identity_select : ∀ row record, select row = some record → record.identity = identity row

variable (table : ValidationTable Content Row)

/-! ## Records -/

/-- `_FILTER_VALUE` -/
def isFilterValue (value : String) : Bool :=
  value.toList ≠ [] && value.toList.length ≤ 200 && value.toList.all fun c =>
    ('A' ≤ c && c ≤ 'Z') || ('a' ≤ c && c ≤ 'z') || ('0' ≤ c && c ≤ '9') ||
      c ∈ ['.', '_', ':', '-']

/-- `_ENVIRONMENTS` -/
def environments : List String :=
  ["sandbox", "test", "uat", "production"]

/-- `_validated_validation` -/
def validatedValidation (record : ValidationKnowledge Content) :
    Except String (ValidationKnowledge Content) :=
  if table.modelValid record && record.environment ∈ environments &&
      (record.identity ++ [record.opaqueEvidenceId]).all isFilterValue then
    match normalizeEvidenceTime record.evaluatedAt, record.expiresAt.mapM normalizeEvidenceTime with
    | .ok evaluatedAt, .ok expiresAt =>
        if expiresAt.any (·.micros ≤ evaluatedAt.micros) then .error "validation_evidence_invalid"
        else .ok { record with evaluatedAt := evaluatedAt, expiresAt := expiresAt }
    | _, _ => .error "validation_evidence_invalid"
  else .error "validation_evidence_invalid"

/-- `_matching_validation_record`.  Times are normalised, so that the payloads are the same where
the records are.  The code compares them with `==`, for which `True` is `1` and `1` is `1.0`; the
one field of any type is `response_shape`, which a check of the table keeps to objects of texts, so
that no stored row tells this from equality. -/
def matchingValidationRecord (actual expected : ValidationKnowledge Content) : Bool :=
  actual.opaqueEvidenceId = expected.opaqueEvidenceId && actual.identity = expected.identity &&
    actual = expected

/-- The loop body of `_validated_publish_batch`. -/
def addRecord (state : Dict Identity (ValidationKnowledge Content) ×
      Dict String (ValidationKnowledge Content)) (record : ValidationKnowledge Content) :
    Except String (Dict Identity (ValidationKnowledge Content) ×
      Dict String (ValidationKnowledge Content)) :=
  let (byIdentity, byEvidenceId) := state
  match byIdentity.get record.identity with
  | some existing =>
      if existing ≠ record then .error "supabase_validation_conflict" else .ok state
  | none =>
      if (byEvidenceId.get record.opaqueEvidenceId).any (· ≠ record) then
        .error "supabase_validation_conflict"
      else
        .ok (byIdentity.set record.identity record, byEvidenceId.set record.opaqueEvidenceId record)

/-- `_validated_publish_batch` -/
def validatedPublishBatch (records : List (ValidationKnowledge Content)) :
    Except String (List (ValidationKnowledge Content)) := do
  let validated ← records.mapM (validatedValidation table)
  let (byIdentity, _) ← validated.foldlM addRecord ([], [])
  return (StableSorting.sortBy id byIdentity.keys).filterMap byIdentity.get

/-! ## Batches -/

/-- `VALIDATION_PUBLISH_BATCH_SIZE` -/
def publishBatchSize : Nat := 10

/-- `VALIDATION_GET_REQUEST_TARGET_MAX_BYTES` -/
def requestTargetMaxBytes : Nat := 4096

/-- `_validation_batches` -/
def validationBatches {α : Type} (records : List α) : List (List α) :=
  (List.range ((records.length + (publishBatchSize - 1)) / publishBatchSize)).map fun i =>
    (records.drop (publishBatchSize * i)).take publishBatchSize

/-- `_validation_request_target_bytes` -/
def validationRequestTargetBytes (records : List (ValidationKnowledge Content)) :
    Except String Nat :=
  match table.requestTargetBytes (records.map (·.identity)) with
  | some bytes => .ok bytes
  | none => .error "supabase_validation_request_failed"

/-- The loop body of `_validation_get_batches`. -/
def addToBatches
    (state : List (List (ValidationKnowledge Content)) × List (ValidationKnowledge Content))
    (record : ValidationKnowledge Content) :
    Except String
      (List (List (ValidationKnowledge Content)) × List (ValidationKnowledge Content)) := do
  let (batches, current) :=
    if state.2.length = publishBatchSize then (state.1 ++ [state.2], []) else state
  let bytes ← validationRequestTargetBytes table (current ++ [record])
  if bytes ≤ requestTargetMaxBytes then .ok (batches, current ++ [record])
  else if current = [] then .error "supabase_validation_request_failed"
  else do
    let bytes ← validationRequestTargetBytes table [record]
    if bytes > requestTargetMaxBytes then .error "supabase_validation_request_failed"
    else .ok (batches ++ [current], [record])

/-- `_validation_get_batches` -/
def validationGetBatches (records : List (ValidationKnowledge Content)) :
    Except String (List (List (ValidationKnowledge Content))) := do
  let (batches, current) ← records.foldlM (addToBatches table) ([], [])
  return if current = [] then batches else batches ++ [current]

/-! ## Requests -/

/-- The requests to the table: rows by their keys, and insertions. -/
inductive StoreRequest (Content : Type) where
  | get (identities : List Identity)
  | post (records : List (ValidationKnowledge Content))

/-- A request is answered by rows, or it fails. -/
abbrev StoreProgram (Content Row α : Type) : Type :=
  Program (StoreRequest Content) (fun _ => Option (List Row)) α

/-- `_request` -/
def request (req : StoreRequest Content) : StoreProgram Content Row (List Row) :=
  .perform req fun answer =>
    match answer with
    | some rows => .done rows
    | none => .fail "supabase_validation_request_failed"

/-- A row of a response, as `_validation_response_rows` reads it. -/
def readRow (row : Row) : Except String (ValidationKnowledge Content) :=
  match table.select row with
  | some record =>
      match validatedValidation table record with
      | .ok record => .ok record
      | .error _ => .error "supabase_validation_response_invalid"
  | none => .error "supabase_validation_response_invalid"

/-- The loop body over the rows of a response in `_existing_validations`. -/
def addExisting (expected : List Identity) (existing : Dict Identity (ValidationKnowledge Content))
    (record : ValidationKnowledge Content) :
    Except String (Dict Identity (ValidationKnowledge Content)) :=
  if record.identity ∉ expected ∨ (existing.get record.identity).isSome then
    .error "supabase_validation_response_invalid"
  else .ok (existing.set record.identity record)

/-- The loop of `_existing_validations`. -/
def existingFrom (existing : Dict Identity (ValidationKnowledge Content)) :
    List (List (ValidationKnowledge Content)) →
      StoreProgram Content Row (Dict Identity (ValidationKnowledge Content))
  | [] => return existing
  | batch :: batches => do
      let rows ← request (.get (batch.map (·.identity)))
      let existing ← .ofExcept (rows.mapM (readRow table) >>= fun records =>
        records.foldlM (addExisting (batch.map (·.identity))) existing)
      existingFrom existing batches

/-- `_existing_validations` -/
def existingValidations (records : List (ValidationKnowledge Content)) :
    StoreProgram Content Row (Dict Identity (ValidationKnowledge Content)) := do
  let batches ← .ofExcept (validationGetBatches table records)
  existingFrom table [] batches

/-- The first loop of `publish`: the records that are not stored. -/
def addPending (existing : Dict Identity (ValidationKnowledge Content))
    (pending : List (ValidationKnowledge Content)) (record : ValidationKnowledge Content) :
    Except String (List (ValidationKnowledge Content)) :=
  match existing.get record.identity with
  | none => .ok (pending ++ [record])
  | some stored =>
      if matchingValidationRecord stored record then .ok pending
      else .error "supabase_validation_conflict"

/-- The loop body over the rows that an insertion returned. -/
def addCreated (batch : List (ValidationKnowledge Content)) (created : List Identity)
    (returned : ValidationKnowledge Content) : Except String (List Identity) :=
  match batch.find? fun record => record.identity = returned.identity with
  | none => .error "supabase_validation_response_invalid"
  | some expected =>
      if returned.identity ∈ created then .error "supabase_validation_response_invalid"
      else if matchingValidationRecord returned expected then .ok (created ++ [returned.identity])
      else .error "supabase_validation_conflict"

/-- The loop over the batches of `publish`: what was created, and the records that were not. -/
def postBatches (created : List Identity) (unresolved : List (ValidationKnowledge Content)) :
    List (List (ValidationKnowledge Content)) →
      StoreProgram Content Row (List Identity × List (ValidationKnowledge Content))
  | [] => return (created, unresolved)
  | batch :: batches => do
      let rows ← request (.post batch)
      let created ← .ofExcept (rows.mapM (readRow table) >>= fun records =>
        records.foldlM (addCreated batch) created)
      postBatches created (unresolved ++ batch.filter (·.identity ∉ created)) batches

/-- The last loop of `publish`. -/
def checkUnresolved (existing : Dict Identity (ValidationKnowledge Content))
    (record : ValidationKnowledge Content) : Except String Unit :=
  match existing.get record.identity with
  | none => .error "supabase_validation_response_invalid"
  | some stored =>
      if matchingValidationRecord stored record then .ok ()
      else .error "supabase_validation_conflict"

/-- `publish`, from where it is known which records are not stored. -/
def publishPending (pending : List (ValidationKnowledge Content)) : StoreProgram Content Row Nat :=
  if pending = [] then return 0
  else do
    let (created, unresolved) ← postBatches table [] [] (validationBatches pending)
    if unresolved = [] then return created.length
    else do
      let existing ← existingValidations table unresolved
      .ofExcept (unresolved.forM (checkUnresolved existing))
      return created.length

/-- `publish` -/
def publish (records : List (ValidationKnowledge Content)) : StoreProgram Content Row Nat := do
  let validated ← .ofExcept (validatedPublishBatch table records)
  let existing ← existingValidations table validated
  let pending ← .ofExcept (validated.foldlM (addPending existing) [])
  publishPending table pending

/-- The rows that an insertion adds: those whose key is not stored. -/
def addedRows (stored new : List Row) : List Row :=
  new.filter fun row => table.identity row ∉ stored.map table.identity

end MercuryTools.Db
