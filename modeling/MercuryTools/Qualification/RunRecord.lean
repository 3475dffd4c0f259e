import MercuryTools.Framework.Checks
import MercuryTools.Hosted.Fields
import Mathlib.Data.List.Sort

/-!
# The record of a qualification run

The record that `qualification/run_store.py` keeps of a run: its state, and the fixtures of the
run with what became of their cleanup.  The operations of the store are functions on the record;
they return the record that is to be written, or none where nothing changes.

`Persists` says what no operation undoes: a run that is quarantined or finished stays so, and a
fixture stays with the outcome of its cleanup.
-/

namespace MercuryTools.Qualification

open Checks Hosted

/-! ## Names -/

/-- `[0-9A-HJKMNP-TV-Z]` -/
def isOpaqueCharacter (c : Char) : Bool :=
  ('0' ≤ c && c ≤ '9') || ('A' ≤ c && c ≤ 'H') || c == 'J' || c == 'K' || c == 'M' || c == 'N' ||
    ('P' ≤ c && c ≤ 'T') || ('V' ≤ c && c ≤ 'Z')

/-- `[0-9a-f]` -/
def isHexCharacter (c : Char) : Bool :=
  ('0' ≤ c && c ≤ '9') || ('a' ≤ c && c ≤ 'f')

/-- A tag, and so many characters of a class after it. -/
def isTagged (tag : List Char) (allowed : Char → Bool) (length : Nat) (s : String) : Bool :=
  s.toList.take tag.length == tag && (s.toList.drop tag.length).length == length &&
    (s.toList.drop tag.length).all allowed

/-- `_RUN_ID` -/
def isRunId : String → Bool :=
  isTagged ['r', 'u', 'n', '_'] isOpaqueCharacter 26

/-- `_FIXTURE_HANDLE` -/
def isFixtureHandle : String → Bool :=
  isTagged ['f', 'x', '_'] isOpaqueCharacter 26

/-- `_ACTION_ID` -/
def isActionId : String → Bool :=
  isTagged ['a', 'c', 't', '_'] isHexCharacter 24

/-- `_VERSION_ID` -/
def isVersionId : String → Bool :=
  isTagged ['a', 'v', '_'] isHexCharacter 64

/-! ## Records -/

inductive CleanupStatus where
  | pending
  | cleaned
  | failed
  | outcomeUnknown
  deriving DecidableEq, Repr

/-- `QualificationRunState`; a run that is not finished counts as failed. -/
inductive RunState where
  | completed
  | quarantined
  | failed
  deriving DecidableEq, Repr

inductive QuarantineReason where
  | cleanupFailed
  | outcomeUnknown
  | processLost
  deriving DecidableEq, Repr

structure FixtureReference where
  handle : String
  actionId : String
  versionId : String
  cleanupActionId : String
  cleanupVersionId : String
  dependsOn : List String
  deriving DecidableEq

def FixtureReference.isValid (reference : FixtureReference) : Bool :=
  isFixtureHandle reference.handle && isActionId reference.actionId &&
    isVersionId reference.versionId && isActionId reference.cleanupActionId &&
    isVersionId reference.cleanupVersionId && decide reference.dependsOn.Nodup &&
    reference.dependsOn.all isFixtureHandle

/-- `_StoredFixture`. -/
structure StoredFixture extends FixtureReference where
  registeredAt : Instant
  cleanupStatus : CleanupStatus
  cleanupUpdatedAt : Option Instant
  deriving DecidableEq

def StoredFixture.isValid (fixture : StoredFixture) : Bool :=
  fixture.toFixtureReference.isValid &&
    (fixture.cleanupStatus == .pending) == fixture.cleanupUpdatedAt.isNone

/-- `_RunRecord`. -/
structure RunRecord where
  runId : String
  state : RunState
  publicationAllowed : Bool
  quarantineReason : Option QuarantineReason
  createdAt : Instant
  updatedAt : Instant
  fixtures : List StoredFixture
  deriving DecidableEq

namespace RunRecord

variable (r : RunRecord)

def handles : List String :=
  r.fixtures.map (·.handle)

/-- The fields and `validate_run_state`. -/
def isValid : Bool :=
  isRunId r.runId && r.fixtures.all StoredFixture.isValid && r.createdAt ≤ r.updatedAt &&
    r.handles == r.handles.insertionSort (· ≤ ·) && decide r.handles.Nodup &&
    (r.fixtures.all fun fixture => fixture.dependsOn.all (· ∈ r.handles)) &&
    (r.state == .quarantined) == r.quarantineReason.isSome &&
    !(r.state == .completed && r.fixtures.any fun fixture => fixture.cleanupStatus != .cleaned)

/-- `_PersistedRun`. -/
def isPersisted : Bool :=
  r.isValid && !r.publicationAllowed

/-- `_LegacyCompletedRun`. -/
def isLegacyCompleted : Bool :=
  r.isValid && r.publicationAllowed && r.state == .completed && r.quarantineReason.isNone &&
    r.fixtures.all fun fixture => fixture.cleanupStatus == .cleaned

/-- What `_read_state` makes of a file, and whether the file is to be migrated. -/
def read : Except String (RunRecord × Bool) :=
  if r.isPersisted then .ok (r, false)
  else if r.isLegacyCompleted then .ok ({ r with publicationAllowed := false }, true)
  else .error "qualification_state_invalid"

/-- The record that a new run starts with. -/
def initial (runId : String) (now : Instant) : RunRecord where
  runId := runId
  state := .failed
  publicationAllowed := false
  quarantineReason := none
  createdAt := now
  updatedAt := now
  fixtures := []

/-! ## Operations -/

/-- The checks of `_replace`. -/
def replace (now : Instant) (candidate : RunRecord) : Except String (Option RunRecord) := do
  require (r.updatedAt ≤ now) "qualification_clock_regressed"
  let updated := { candidate with updatedAt := now }
  require updated.isPersisted "qualification_state_invalid"
  return some updated

/-- One round of the loop of `record_fixtures`. -/
def recordFixture (now : Instant) (existing : List StoredFixture) (reference : FixtureReference) :
    Except String (List StoredFixture) :=
  if !reference.isValid then .error "qualification_fixture_invalid"
  else
    match existing.find? fun fixture => fixture.handle = reference.handle with
    | some current =>
        if current.toFixtureReference = reference then .ok existing
        else .error "qualification_fixture_mismatch"
    | none => .ok (existing ++ [⟨reference, now, .pending, none⟩])

/-- `record_fixtures`. -/
def recordFixtures (references : List FixtureReference) (now : Instant) :
    Except String (Option RunRecord) := do
  require (r.state != .completed) "qualification_run_finalized"
  require (r.state != .quarantined) "qualification_run_quarantined"
  let existing ← references.foldlM (recordFixture now) r.fixtures
  if existing.length = r.fixtures.length then return none
  else r.replace now { r with fixtures := existing.insertionSort fun x y => x.handle ≤ y.handle }

/-- `mark_cleanup` for one fixture. -/
def markFixture (handle : String) (now : Instant) (fixture : StoredFixture) :
    Except String StoredFixture :=
  if fixture.handle ≠ handle ∨ fixture.cleanupStatus = .cleaned then .ok fixture
  else if fixture.cleanupStatus ≠ .pending then .error "qualification_cleanup_status_conflict"
  else .ok { fixture with cleanupStatus := .cleaned, cleanupUpdatedAt := some now }

/-- `mark_cleanup`. -/
def markCleanup (handle : String) (status : CleanupStatus) (now : Instant) :
    Except String (Option RunRecord) := do
  require (isFixtureHandle handle) "fixture_handle_invalid"
  require (status == .cleaned) "qualification_cleanup_status_invalid"
  let updated ← r.fixtures.mapM (markFixture handle now)
  require (handle ∈ r.handles) "qualification_fixture_missing"
  if updated = r.fixtures then return none
  else r.replace now { r with fixtures := updated }

/-- `quarantine_cleanup` for one fixture. -/
def settleFixture (handle : String) (status : CleanupStatus) (now : Instant)
    (fixture : StoredFixture) : StoredFixture :=
  if fixture.handle = handle then
    { fixture with cleanupStatus := status, cleanupUpdatedAt := some now }
  else fixture

/-- The reason of an outcome of a cleanup. -/
def reasonOf : CleanupStatus → Except String QuarantineReason
  | .failed => .ok .cleanupFailed
  | .outcomeUnknown => .ok .outcomeUnknown
  | .pending | .cleaned => .error "qualification_cleanup_status_invalid"

/-- `quarantine_cleanup`. -/
def quarantineCleanup (handle : String) (status : CleanupStatus) (now : Instant) :
    Except String (Option RunRecord) := do
  require (isFixtureHandle handle) "fixture_handle_invalid"
  let reason ← reasonOf status
  match r.fixtures.find? fun fixture => fixture.handle = handle with
  | none => .error "qualification_fixture_missing"
  | some target =>
      if r.state = .completed then .error "qualification_run_finalized"
      else if r.state = .quarantined then
        if r.quarantineReason = some reason ∧ target.cleanupStatus = status then return none
        else .error "qualification_run_quarantined"
      else if target.cleanupStatus ≠ .pending then .error "qualification_cleanup_status_conflict"
      else r.replace now { r with
          fixtures := r.fixtures.map (settleFixture handle status now)
          state := .quarantined
          publicationAllowed := false
          quarantineReason := some reason }

/-- `quarantine`. -/
def quarantine (reason : QuarantineReason) (now : Instant) : Except String (Option RunRecord) :=
  if r.state = .quarantined then return none
  else r.replace now
    { r with state := .quarantined, publicationAllowed := false, quarantineReason := some reason }

/-- `complete`. -/
def complete (now : Instant) : Except String (Option RunRecord) := do
  if r.state = .completed then return none
  else
    require (r.state != .quarantined) "qualification_run_quarantined"
    require (r.fixtures.all fun fixture => fixture.cleanupStatus == .cleaned)
      "qualification_cleanup_incomplete"
    r.replace now { r with
      state := .completed, publicationAllowed := false, quarantineReason := none }

/-- `cleanup_status`. -/
def cleanupStatus (handle : String) : Except String CleanupStatus :=
  match r.fixtures.find? fun fixture => fixture.handle = handle with
  | some fixture => .ok fixture.cleanupStatus
  | none => .error "qualification_fixture_missing"

end RunRecord

/-- The calls of a store that may write. -/
inductive StoreCall where
  | recordFixtures (references : List FixtureReference)
  | markCleanup (handle : String) (status : CleanupStatus)
  | quarantineCleanup (handle : String) (status : CleanupStatus)
  | quarantine (reason : QuarantineReason)
  | complete
  deriving DecidableEq

def RunRecord.call (r : RunRecord) (now : Instant) :
    StoreCall → Except String (Option RunRecord)
  | .recordFixtures references => r.recordFixtures references now
  | .markCleanup handle status => r.markCleanup handle status now
  | .quarantineCleanup handle status => r.quarantineCleanup handle status now
  | .quarantine reason => r.quarantine reason now
  | .complete => r.complete now

/-! ## What no operation undoes -/

/-- What was true of the run and of its fixtures stays true. -/
structure Persists (r r' : RunRecord) : Prop where
  quarantined : r.state = .quarantined → r'.state = .quarantined
  finished : r.state ≠ .failed → r'.state ≠ .failed
  fixtures : ∀ fixture ∈ r.fixtures, ∃ fixture' ∈ r'.fixtures,
    fixture'.toFixtureReference = fixture.toFixtureReference ∧
      (fixture.cleanupStatus ≠ .pending → fixture'.cleanupStatus = fixture.cleanupStatus)

namespace Persists

variable {r r' r'' : RunRecord}

lemma trans (h : Persists r r') (h' : Persists r' r'') : Persists r r'' where
  quarantined := h'.quarantined ∘ h.quarantined
  finished := h'.finished ∘ h.finished
  fixtures fixture hmem := by
    obtain ⟨fixture', hmem', href, hstatus⟩ := h.fixtures fixture hmem
    obtain ⟨fixture'', hmem'', href', hstatus'⟩ := h'.fixtures fixture' hmem'
    refine ⟨fixture'', hmem'', href'.trans href, fun hne => ?_⟩
    have heq := hstatus hne
    rw [hstatus' (heq ▸ hne), heq]

end Persists

namespace RunRecord

variable {r r' candidate : RunRecord} {now : Instant}

/-- What `_replace` writes. -/
lemma replace_eq_ok (h : r.replace now candidate = .ok (some r')) :
    r' = { candidate with updatedAt := now } ∧ r'.isPersisted = true := by
  unfold replace at h
  simp only [bind_eq_ok, require_eq_ok, pure_eq_ok, Option.some.injEq] at h
  obtain ⟨-, -, -, hvalid, rfl⟩ := h
  exact ⟨rfl, hvalid⟩

variable {references : List FixtureReference} {handle : String} {status : CleanupStatus}

/-- Recording fixtures keeps those that are there. -/
lemma subset_of_foldlM {existing existing' : List StoredFixture}
    (h : references.foldlM (recordFixture now) existing = .ok existing') :
    existing ⊆ existing' := by
  refine foldlM_ok (I := fun fixtures => existing ⊆ fixtures) ?_ (List.Subset.refl _) h
  intro reference _ fixtures fixtures' hsubset hrecord
  unfold recordFixture at hrecord
  split at hrecord
  · cases hrecord
  split at hrecord
  · split at hrecord
    · exact Except.ok.inj hrecord ▸ hsubset
    · cases hrecord
  · exact Except.ok.inj hrecord ▸ List.Subset.trans hsubset (List.subset_append_left _ _)

lemma persists_recordFixtures (h : r.recordFixtures references now = .ok (some r')) :
    Persists r r' ∧ r'.isPersisted = true := by
  unfold recordFixtures at h
  simp only [bind_eq_ok, require_eq_ok] at h
  obtain ⟨-, hcompleted, -, hquarantined, existing, hexisting, h⟩ := h
  split at h
  · cases h
  obtain ⟨rfl, hvalid⟩ := replace_eq_ok h
  refine ⟨⟨id, id, fun fixture hmem => ⟨fixture, ?_, rfl, fun _ => rfl⟩⟩, hvalid⟩
  exact (List.mem_insertionSort _).2 (subset_of_foldlM hexisting hmem)

lemma exists_of_forall₂ {α β : Type*} {R : α → β → Prop} {xs : List α} {ys : List β}
    (h : List.Forall₂ R xs ys) {x : α} (hmem : x ∈ xs) : ∃ y ∈ ys, R x y := by
  obtain ⟨i, hi, rfl⟩ := List.mem_iff_getElem.1 hmem
  exact ⟨_, List.getElem_mem (h.length_eq ▸ hi), h.get hi _⟩

lemma persists_markCleanup (h : r.markCleanup handle status now = .ok (some r')) :
    Persists r r' ∧ r'.isPersisted = true := by
  unfold markCleanup at h
  simp only [bind_eq_ok, require_eq_ok] at h
  obtain ⟨-, -, -, -, updated, hupdated, -, -, h⟩ := h
  split at h
  · cases h
  obtain ⟨rfl, hvalid⟩ := replace_eq_ok h
  refine ⟨⟨id, id, fun fixture hmem => ?_⟩, hvalid⟩
  obtain ⟨fixture', hmem', hmark⟩ := exists_of_forall₂ (mapM_eq_ok.1 hupdated) hmem
  refine ⟨fixture', hmem', ?_⟩
  unfold markFixture at hmark
  split at hmark
  · rw [← Except.ok.inj hmark]
    exact ⟨rfl, fun _ => rfl⟩
  split at hmark
  · cases hmark
  · rename_i hpending
    rw [← Except.ok.inj hmark]
    exact ⟨rfl, fun hne => absurd hne hpending⟩

/-- A fixture that is settled was pending. -/
lemma persists_settled {target : StoredFixture} (hnodup : r.handles.Nodup)
    (htarget : target ∈ r.fixtures) (hhandle : target.handle = handle)
    (hpending : target.cleanupStatus = .pending) {fixture : StoredFixture}
    (hmem : fixture ∈ r.fixtures) :
    (settleFixture handle status now fixture).toFixtureReference = fixture.toFixtureReference ∧
      (fixture.cleanupStatus ≠ .pending →
        (settleFixture handle status now fixture).cleanupStatus = fixture.cleanupStatus) := by
  unfold settleFixture
  split
  · rename_i heq
    have hsame : fixture = target :=
      List.inj_on_of_nodup_map hnodup hmem htarget (heq.trans hhandle.symm)
    exact ⟨rfl, fun hne => absurd (hsame ▸ hpending) hne⟩
  · exact ⟨rfl, fun _ => rfl⟩

lemma persists_quarantineCleanup (hnodup : r.handles.Nodup)
    (h : r.quarantineCleanup handle status now = .ok (some r')) :
    Persists r r' ∧ r'.isPersisted = true ∧ r'.state = .quarantined := by
  unfold quarantineCleanup at h
  simp only [bind_eq_ok, require_eq_ok] at h
  obtain ⟨-, -, reason, -, h⟩ := h
  split at h
  · cases h
  rename_i target htarget
  split at h
  · cases h
  split at h
  · split at h <;> cases h
  split at h
  · cases h
  rename_i hpending
  obtain ⟨rfl, hvalid⟩ := replace_eq_ok h
  refine ⟨⟨fun _ => rfl, fun _ => by simp, fun fixture hmem => ?_⟩, hvalid, rfl⟩
  refine ⟨_, List.mem_map_of_mem hmem, ?_⟩
  have hhandle : target.handle = handle := by
    simpa using List.find?_some htarget
  exact persists_settled hnodup (List.mem_of_find?_eq_some htarget) hhandle (not_not.1 hpending)
    hmem

lemma persists_quarantine {reason : QuarantineReason}
    (h : r.quarantine reason now = .ok (some r')) :
    Persists r r' ∧ r'.isPersisted = true ∧ r'.state = .quarantined := by
  unfold quarantine at h
  split at h
  · cases h
  · obtain ⟨rfl, hvalid⟩ := replace_eq_ok h
    exact ⟨⟨fun _ => rfl, fun _ => by simp, fun fixture hmem => ⟨fixture, hmem, rfl, fun _ => rfl⟩⟩,
      hvalid, rfl⟩

lemma persists_complete (h : r.complete now = .ok (some r')) :
    Persists r r' ∧ r'.isPersisted = true ∧ r.state = .failed ∧ r'.state = .completed := by
  unfold complete at h
  split at h
  · cases h
  rename_i hcompleted
  simp only [bind_eq_ok, require_eq_ok, bne_iff_ne] at h
  obtain ⟨-, hquarantined, -, -, h⟩ := h
  have hfailed : r.state = .failed := by
    cases hstate : r.state with
    | completed => exact absurd hstate hcompleted
    | quarantined => exact absurd hstate hquarantined
    | failed => rfl
  obtain ⟨rfl, hvalid⟩ := replace_eq_ok h
  refine ⟨⟨fun heq => absurd heq hquarantined, fun _ => by simp, fun fixture hmem => ?_⟩, hvalid,
    hfailed, rfl⟩
  exact ⟨fixture, hmem, rfl, fun _ => rfl⟩

lemma nodup_of_isValid (hvalid : r.isValid = true) : r.handles.Nodup := by
  unfold isValid at hvalid
  simp only [Bool.and_eq_true, decide_eq_true_eq] at hvalid
  tauto

lemma nodup_handles (hvalid : r.isPersisted = true) : r.handles.Nodup := by
  unfold isPersisted at hvalid
  exact nodup_of_isValid (Bool.and_eq_true_iff.1 hvalid).1

/-- No operation of a store undoes anything, and what it writes is valid. -/
theorem persists_call (hnodup : r.handles.Nodup) {call : StoreCall}
    (h : r.call now call = .ok (some r')) : Persists r r' ∧ r'.isPersisted = true := by
  cases call with
  | recordFixtures references => exact persists_recordFixtures h
  | markCleanup handle status => exact persists_markCleanup h
  | quarantineCleanup handle status =>
      obtain ⟨hpersists, hvalid, -⟩ := persists_quarantineCleanup hnodup h
      exact ⟨hpersists, hvalid⟩
  | quarantine reason =>
      obtain ⟨hpersists, hvalid, -⟩ := persists_quarantine h
      exact ⟨hpersists, hvalid⟩
  | complete =>
      obtain ⟨hpersists, hvalid, -⟩ := persists_complete h
      exact ⟨hpersists, hvalid⟩

end RunRecord

end MercuryTools.Qualification
