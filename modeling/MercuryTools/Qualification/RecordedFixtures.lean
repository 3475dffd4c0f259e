import MercuryTools.Qualification.RunRecord

/-!
# What is recorded of the fixtures

What each call of a run store records of the cleanup of the fixtures, and what it leaves as it is.
-/

namespace MercuryTools.Qualification

open Checks Hosted

namespace RunRecord

variable {r r' : RunRecord} {now : Instant} {handle : String}

variable {status : CleanupStatus} {except : Option String} {existing existing' : List StoredFixture}
  {references : List FixtureReference} {written : Option RunRecord} {fixture : StoredFixture}

lemma cleanupStatus_eq_ok (hnodup : r.handles.Nodup) :
    r.cleanupStatus handle = .ok status ↔
      ∃ fixture ∈ r.fixtures, fixture.handle = handle ∧ fixture.cleanupStatus = status := by
  unfold cleanupStatus
  constructor
  · intro h
    split at h
    · rename_i fixture hfind
      have hhandle := List.find?_some hfind
      exact ⟨fixture, List.mem_of_find?_eq_some hfind, by simpa using hhandle, Except.ok.inj h⟩
    · cases h
  · rintro ⟨fixture, hmem, rfl, rfl⟩
    split
    · rename_i other hfind
      have hhandle : other.handle = fixture.handle := by
        simpa using List.find?_some hfind
      have hsame : other = fixture :=
        List.inj_on_of_nodup_map hnodup (List.mem_of_find?_eq_some hfind) hmem hhandle
      rw [hsame]
    · rename_i hfind
      exact absurd (decide_eq_true rfl) (List.find?_eq_none.1 hfind fixture hmem)

lemma mem_handles (hnodup : r.handles.Nodup) :
    handle ∈ r.handles ↔ ∃ status, r.cleanupStatus handle = .ok status := by
  simp only [cleanupStatus_eq_ok hnodup, handles, List.mem_map]
  constructor
  · rintro ⟨fixture, hmem, hhandle⟩
    exact ⟨_, fixture, hmem, hhandle, rfl⟩
  · rintro ⟨status, fixture, hmem, hhandle, -⟩
    exact ⟨fixture, hmem, hhandle⟩

/-- A fixture that is not to be cleaned any more. -/
def Settled (r : RunRecord) (handle : String) : Prop :=
  ∃ status, r.cleanupStatus handle = .ok status ∧ status ≠ .pending

/-- What a call of the store leaves as it is: all that was recorded, but for one handle. -/
structure Extends (except : Option String) (r r' : RunRecord) : Prop where
  persists : Persists r r'
  valid : r'.isPersisted = true
  status : ∀ handle status, r.cleanupStatus handle = .ok status → some handle ≠ except →
    r'.cleanupStatus handle = .ok status

lemma Extends.of_fixtures (hnodup : r.handles.Nodup) (hpersists : Persists r r')
    (hvalid : r'.isPersisted = true)
    (h : ∀ fixture ∈ r.fixtures, some fixture.handle ≠ except → ∃ fixture' ∈ r'.fixtures,
      fixture'.handle = fixture.handle ∧ fixture'.cleanupStatus = fixture.cleanupStatus) :
    Extends except r r' := by
  refine ⟨hpersists, hvalid, fun handle status hstatus hne => ?_⟩
  obtain ⟨fixture, hmem, rfl, rfl⟩ := (cleanupStatus_eq_ok hnodup).1 hstatus
  exact (cleanupStatus_eq_ok (nodup_handles hvalid)).2 (h fixture hmem hne)

lemma Settled.persists (hnodup : r.handles.Nodup) (hnodup' : r'.handles.Nodup)
    (hpersists : Persists r r') (h : r.Settled handle) : r'.Settled handle := by
  obtain ⟨status, hstatus, hne⟩ := h
  obtain ⟨fixture, hmem, rfl, rfl⟩ := (cleanupStatus_eq_ok hnodup).1 hstatus
  obtain ⟨fixture', hmem', href, hsame⟩ := hpersists.fixtures fixture hmem
  refine ⟨_, (cleanupStatus_eq_ok hnodup').2 ⟨fixture', hmem', ?_, hsame hne⟩, hne⟩
  rw [href]

lemma Extends.subset_handles (h : Extends except r r') : r.handles ⊆ r'.handles := by
  intro handle hmem
  obtain ⟨fixture, hfixture, rfl⟩ := List.mem_map.1 hmem
  obtain ⟨fixture', hmem', href, -⟩ := h.persists.fixtures fixture hfixture
  refine List.mem_map.2 ⟨fixture', hmem', ?_⟩
  rw [href]

/-! ## What each call records -/

lemma replace_ne_none {candidate : RunRecord} : r.replace now candidate ≠ .ok none := by
  intro h
  unfold replace at h
  simp only [bind_eq_ok, pure_eq_ok] at h
  obtain ⟨-, -, -, -, h⟩ := h
  cases h

/-- A round of `record_fixtures`. -/
lemma recordFixture_eq_ok {reference : FixtureReference}
    (h : recordFixture now existing reference = .ok existing') :
    reference.handle ∈ existing'.map (·.handle) ∧
      ∃ added, existing' = existing ++ added ∧
        ∀ fixture ∈ added, fixture.cleanupStatus = .pending := by
  unfold recordFixture at h
  split at h
  · cases h
  split at h
  · rename_i current hfind
    split at h
    · obtain rfl := Except.ok.inj h
      have hhandle : current.handle = reference.handle := by
        simpa using List.find?_some hfind
      have hmem := List.mem_of_find?_eq_some hfind
      exact ⟨List.mem_map.2 ⟨current, hmem, hhandle⟩, [], by simp, by simp⟩
    · cases h
  · obtain rfl := Except.ok.inj h
    exact ⟨by simp, _, rfl, by simp⟩

lemma foldlM_recordFixture (h : references.foldlM (recordFixture now) existing = .ok existing') :
    (∀ reference ∈ references, reference.handle ∈ existing'.map (·.handle)) ∧
      ∃ added, existing' = existing ++ added ∧
        ∀ fixture ∈ added, fixture.cleanupStatus = .pending := by
  induction references generalizing existing with
  | nil =>
      obtain rfl := Except.ok.inj h
      exact ⟨by simp, [], by simp, by simp⟩
  | cons reference references ih =>
      simp only [List.foldlM_cons, bind_eq_ok] at h
      obtain ⟨middle, hfirst, hrest⟩ := h
      obtain ⟨hhandle, added, rfl, hpending⟩ := recordFixture_eq_ok hfirst
      obtain ⟨hhandles, added', rfl, hpending'⟩ := ih hrest
      refine ⟨?_, added ++ added', by simp, ?_⟩
      · intro other hmem
        obtain rfl | hmem := List.mem_cons.1 hmem
        · rw [List.map_append]
          exact List.mem_append_left _ hhandle
        · exact hhandles other hmem
      · intro fixture hmem
        obtain hmem | hmem := List.mem_append.1 hmem
        · exact hpending fixture hmem
        · exact hpending' fixture hmem

/-- `record_fixtures` records every fixture that it is given, as pending if it is new. -/
lemma recordFixtures_eq_ok (hnodup : r.handles.Nodup)
    (h : r.recordFixtures references now = .ok written) :
    r.state = .failed ∧
      (∀ reference ∈ references, reference.handle ∈ (written.getD r).handles) ∧
      ∀ r', written = some r' → Extends none r r' ∧ r'.state = r.state ∧
        ∀ fixture ∈ r'.fixtures, fixture ∈ r.fixtures ∨ fixture.cleanupStatus = .pending := by
  have hcall := h
  unfold recordFixtures at h
  simp only [bind_eq_ok, require_eq_ok, bne_iff_ne] at h
  obtain ⟨-, hcompleted, -, hquarantined, existing, hexisting, h⟩ := h
  have hfailed : r.state = .failed := by
    cases hstate : r.state with
    | completed => exact absurd hstate hcompleted
    | quarantined => exact absurd hstate hquarantined
    | failed => rfl
  obtain ⟨hhandles, added, rfl, hpending⟩ := foldlM_recordFixture hexisting
  refine ⟨hfailed, ?_⟩
  split at h
  · rename_i hlength
    obtain rfl := Except.ok.inj h
    obtain rfl : added = [] := by
      rw [← List.length_eq_zero_iff]
      simpa using hlength
    rw [List.append_nil] at hhandles
    exact ⟨hhandles, fun r' hr' => by cases hr'⟩
  · cases written with
    | none => exact absurd h replace_ne_none
    | some r' =>
        obtain ⟨hpersists, hvalid⟩ := persists_recordFixtures hcall
        obtain ⟨rfl, -⟩ := replace_eq_ok h
        refine ⟨fun reference hmem => ?_, ?_⟩
        · have hperm := List.perm_insertionSort (fun x y : StoredFixture => x.handle ≤ y.handle)
            (r.fixtures ++ added)
          exact (hperm.map (·.handle)).mem_iff.2 (hhandles reference hmem)
        · intro r' hr'
          obtain rfl := Option.some.inj hr'
          refine ⟨Extends.of_fixtures hnodup hpersists hvalid ?_, rfl, fun fixture hmem => ?_⟩
          · intro fixture hmem _
            refine ⟨fixture, (List.mem_insertionSort _).2 (List.mem_append_left _ hmem), rfl, rfl⟩
          · obtain hmem | hmem := List.mem_append.1 ((List.mem_insertionSort _).1 hmem)
            · exact .inl hmem
            · exact .inr (hpending fixture hmem)

/-- A fixture after `mark_cleanup`. -/
lemma markFixture_eq_ok {fixture' : StoredFixture}
    (h : markFixture handle now fixture = .ok fixture') :
    fixture'.toFixtureReference = fixture.toFixtureReference ∧
      (fixture.handle = handle → fixture'.cleanupStatus = .cleaned) ∧
      (fixture.handle ≠ handle → fixture' = fixture) ∧
      (fixture' = fixture ∨ fixture'.cleanupStatus = .cleaned) := by
  unfold markFixture at h
  split at h
  · rename_i hsame
    obtain rfl := Except.ok.inj h
    exact ⟨rfl, fun heq => hsame.resolve_left (absurd heq), fun _ => rfl, .inl rfl⟩
  · rename_i hcond
    split at h
    · cases h
    · obtain rfl := Except.ok.inj h
      exact ⟨rfl, fun _ => rfl, fun hne => absurd (.inl hne) hcond, .inr rfl⟩

/-- `mark_cleanup` records the fixture as cleaned, and nothing else. -/
lemma markCleanup_eq_ok (hnodup : r.handles.Nodup)
    (h : r.markCleanup handle status now = .ok written) :
    (written.getD r).cleanupStatus handle = .ok .cleaned ∧
      ∀ r', written = some r' → Extends (some handle) r r' ∧ r'.state = r.state ∧
        ∀ fixture ∈ r'.fixtures, fixture ∈ r.fixtures ∨ fixture.cleanupStatus = .cleaned := by
  have hcall := h
  unfold markCleanup at h
  simp only [bind_eq_ok, require_eq_ok] at h
  obtain ⟨-, -, -, -, updated, hupdated, -, hmem, h⟩ := h
  have hupdated := mapM_eq_ok.1 hupdated
  obtain ⟨fixture, hfixture, rfl⟩ := List.mem_map.1 (of_decide_eq_true hmem)
  obtain ⟨fixture', hfixture', hmark⟩ := exists_of_forall₂ hupdated hfixture
  obtain ⟨href, hcleaned, -, -⟩ := markFixture_eq_ok hmark
  have hhandle : fixture'.handle = fixture.handle := by
    rw [href]
  split at h
  · rename_i hsame
    obtain rfl := Except.ok.inj h
    rw [hsame] at hfixture'
    refine ⟨(cleanupStatus_eq_ok hnodup).2 ⟨fixture', hfixture', hhandle, hcleaned rfl⟩, ?_⟩
    intro r' hr'
    cases hr'
  · cases written with
    | none => exact absurd h replace_ne_none
    | some r' =>
        obtain ⟨hpersists, hvalid⟩ := persists_markCleanup hcall
        obtain ⟨rfl, -⟩ := replace_eq_ok h
        refine ⟨(cleanupStatus_eq_ok (nodup_handles hvalid)).2
          ⟨fixture', hfixture', hhandle, hcleaned rfl⟩, ?_⟩
        intro r' hr'
        obtain rfl := Option.some.inj hr'
        refine ⟨Extends.of_fixtures hnodup hpersists hvalid ?_, rfl, fun other hother => ?_⟩
        · intro other hother hne
          obtain ⟨other', hother', hmark'⟩ := exists_of_forall₂ hupdated hother
          obtain ⟨-, -, hkept, -⟩ := markFixture_eq_ok hmark'
          obtain rfl := hkept fun heq => hne (congrArg some heq)
          exact ⟨_, hother', rfl, rfl⟩
        · obtain ⟨before, hbefore, hmark'⟩ := exists_of_forall₂ hupdated.flip hother
          obtain ⟨-, -, -, rfl | hstatus⟩ := markFixture_eq_ok hmark'
          · exact .inl hbefore
          · exact .inr hstatus

/-- `quarantine_cleanup` changes one fixture, and the run is quarantined. -/
lemma quarantineCleanup_eq_ok (hnodup : r.handles.Nodup)
    (h : r.quarantineCleanup handle status now = .ok (some r')) :
    Extends (some handle) r r' ∧ r'.state = .quarantined := by
  obtain ⟨hpersists, hvalid, hstate⟩ := persists_quarantineCleanup hnodup h
  refine ⟨Extends.of_fixtures hnodup hpersists hvalid fun fixture hmem hne => ?_, hstate⟩
  unfold quarantineCleanup at h
  simp only [bind_eq_ok, require_eq_ok] at h
  obtain ⟨-, -, reason, -, h⟩ := h
  split at h
  · cases h
  split at h
  · cases h
  split at h
  · split at h <;> cases h
  split at h
  · cases h
  obtain ⟨rfl, -⟩ := replace_eq_ok h
  refine ⟨_, List.mem_map_of_mem hmem, ?_⟩
  have hkept : settleFixture handle status now fixture = fixture := by
    rw [settleFixture, if_neg fun heq => hne (congrArg some heq)]
  rw [hkept]
  exact ⟨rfl, rfl⟩

/-- `complete` changes no fixture; all of them are cleaned. -/
lemma complete_eq_ok (hnodup : r.handles.Nodup) (h : r.complete now = .ok (some r')) :
    Extends none r r' ∧ r'.state = .completed := by
  obtain ⟨hpersists, hvalid, -, hcompleted⟩ := persists_complete h
  refine ⟨Extends.of_fixtures hnodup hpersists hvalid fun fixture hmem _ => ?_, hcompleted⟩
  unfold complete at h
  split at h
  · cases h
  simp only [bind_eq_ok, require_eq_ok] at h
  obtain ⟨-, -, -, -, h⟩ := h
  obtain ⟨rfl, -⟩ := replace_eq_ok h
  exact ⟨fixture, hmem, rfl, rfl⟩

/-- A finished run has nothing left to clean. -/
lemma cleaned_of_completed (hvalid : r.isPersisted = true) (hstate : r.state = .completed)
    (hmem : fixture ∈ r.fixtures) : fixture.cleanupStatus = .cleaned := by
  unfold isPersisted isValid at hvalid
  simp only [Bool.and_eq_true, hstate, beq_self_eq_true, Bool.true_and] at hvalid
  obtain ⟨⟨-, hcleaned⟩, -⟩ := hvalid
  by_contra hne
  have hany : (r.fixtures.any fun fixture => fixture.cleanupStatus != .cleaned) = true :=
    List.any_eq_true.2 ⟨fixture, hmem, bne_iff_ne.2 hne⟩
  rw [hany] at hcleaned
  cases hcleaned

end RunRecord

end MercuryTools.Qualification
