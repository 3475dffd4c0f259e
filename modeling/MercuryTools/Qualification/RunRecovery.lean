import MercuryTools.Qualification.RunDirectory
import Mathlib.Tactic.Common

/-!
# Runs that survive

As long as every write finds the record that its instance holds, the versions of the file follow
one another, a run that is found unfinished ends quarantined, and only the instance that completed
a run publishes.  Two runs at the end show what an instance does that writes over what it has not
read.
-/

namespace MercuryTools.Qualification

open Checks Hosted Relation

/-! ## Writes -/

namespace RunStore

variable {store : RunStore} {call : StoreCall} {now : Instant} {record : RunRecord}

lemma writes_cases (h : store.writes call now = .ok (some record)) :
    (store.stage = .creating ∧ record = store.record) ∨
      (∃ found, store.stage = .migrating found ∧ record = store.record) ∨
      (store.stage = .recovering ∧
        store.record.call now (.quarantine .processLost) = .ok (some record)) ∨
      (store.stage = .ready ∧ store.record.call now call = .ok (some record)) := by
  unfold writes at h
  split at h
  · exact .inl ⟨‹_›, by simpa using h.symm⟩
  · exact .inr (.inl ⟨_, ‹_›, by simpa using h.symm⟩)
  · exact .inr (.inr (.inl ⟨‹_›, h⟩))
  · exact .inr (.inr (.inr ⟨‹_›, h⟩))
  · cases h

lemma expected_recovering (h : store.stage = .recovering) : store.expected = some store.record := by
  simp [expected, h]

lemma expected_ready (h : store.stage = .ready) : store.expected = some store.record := by
  simp [expected, h]

end RunStore

namespace RunDirectory

variable {runId : String} {d d' : RunDirectory} {i : Nat} {store : RunStore}

/-! ## The invariant -/

/-- What holds of the instance `i`. -/
structure StoreConsistent (d : RunDirectory) (i : Nat) (store : RunStore) : Prop where
  nodup : store.record.handles.Nodup
  migrating : ∀ found, store.stage = .migrating found →
    Persists found store.record ∧ store.record.state = .completed
  unwritten : d.file = none → store.stage = .creating ∨ store.stage = .gone
  found : .found i ∈ d.events →
    store.stage = .recovering ∨ store.stage = .ready ∨ store.stage = .gone
  /-- Nobody else has opened a run that the instance and the file still have as unfinished. -/
  alone : store.stage = .ready → store.record.state = .failed →
    (∀ record, d.file = some record → record.state = .failed) → ∀ j, .opened j ∈ d.events → j = i
  granted : store.runtimePublicationGranted = true →
    ∃ before after, d.events = before ++ .completed i :: after ∧ ∀ j, j ≠ i → .opened j ∉ before

structure Consistent (d : RunDirectory) : Prop where
  versions : d.versions.Pairwise Persists
  latest : d.versions.getLast? = d.file
  stores : ∀ i store, d.stores[i]? = some store → d.StoreConsistent i store
  unopened : d.file = none → ∀ j, .opened j ∉ d.events
  bounded : ∀ i, .found i ∈ d.events ∨ .opened i ∈ d.events → i < d.stores.length
  recovered : ∀ i, .found i ∈ d.events → .opened i ∈ d.events →
    ∃ record, d.file = some record ∧ record.state = .quarantined

lemma Consistent.lawful (h : d.Consistent) : d.Lawful where
  persists := h.versions
  recovered := h.recovered
  publication i store hstore hallowed := by
    unfold RunStore.publicationAllowed at hallowed
    simp only [Bool.and_eq_true] at hallowed
    exact (h.stores i store hstore).granted hallowed.2

lemma consistent_initial (file : Option RunRecord) : (initial file).Consistent where
  versions := by cases file <;> simp [initial]
  latest := by cases file <;> rfl
  stores i store h := by simp [initial] at h
  unopened _ j := by simp [initial]
  bounded i h := by simp [initial] at h
  recovered i h := by simp [initial] at h

/-! ## Steps that do not write -/

lemma getElem?_set_cases {α : Type*} {xs : List α} {k : Nat} {x y : α}
    (h : (xs.set i x)[k]? = some y) : (k = i ∧ y = x) ∨ (k ≠ i ∧ xs[k]? = some y) := by
  rw [List.getElem?_set] at h
  by_cases heq : i = k
  · rw [if_pos heq] at h
    split at h
    · exact .inl ⟨heq.symm, (Option.some.inj h).symm⟩
    · cases h
  · rw [if_neg heq] at h
    exact .inr ⟨Ne.symm heq, h⟩

/-- A change of an instance that takes nothing on. -/
structure Lessens (store store' : RunStore) : Prop where
  record : store'.record = store.record
  stage : store'.stage = store.stage ∨ store'.stage = .gone
  granted : store'.runtimePublicationGranted = true → store.runtimePublicationGranted = true

lemma lessens_raised (store : RunStore) : Lessens store store.raised where
  record := rfl
  stage := by
    unfold RunStore.raised
    by_cases h : store.stage = .ready <;> simp [h]
  granted h := by simp [RunStore.raised] at h

lemma lessens_gone (store : RunStore) : Lessens store { store with stage := .gone } where
  record := rfl
  stage := .inr rfl
  granted := id

variable {store' : RunStore} {events : List DirectoryEvent} {now : Instant}
  {file record : RunRecord} {migrate : Bool}

lemma StoreConsistent.lessens (h : d.StoreConsistent i store) (hless : Lessens store store') :
    d.StoreConsistent i store' := by
  obtain ⟨hrecord, hstage, hgranted⟩ := hless
  refine ⟨hrecord ▸ h.nodup, ?_, ?_, ?_, ?_, fun h' => h.granted (hgranted h')⟩
  · intro found hfound
    obtain heq | heq := hstage
    · exact hrecord ▸ h.migrating found (heq ▸ hfound)
    · cases heq.symm.trans hfound
  · intro hfile
    obtain heq | heq := hstage
    · exact heq ▸ h.unwritten hfile
    · exact .inr heq
  · intro hfound
    obtain heq | heq := hstage
    · exact heq ▸ h.found hfound
    · exact .inr (.inr heq)
  · intro hready hfailed
    obtain heq | heq := hstage
    · exact h.alone (heq ▸ hready) (hrecord ▸ hfailed)
    · cases heq.symm.trans hready

lemma StoreConsistent.setStore (h : d.StoreConsistent i store) (k : Nat) (other : RunStore) :
    (d.setStore k other).StoreConsistent i store :=
  ⟨h.nodup, h.migrating, h.unwritten, h.found, h.alone, h.granted⟩

lemma Consistent.setStore (h : d.Consistent) (hstore : d.stores[i]? = some store)
    (hless : Lessens store store') :
    (d.setStore i store').Consistent where
  versions := h.versions
  latest := h.latest
  stores k other hother := by
    obtain ⟨rfl, rfl⟩ | ⟨hne, hother⟩ := getElem?_set_cases hother
    · exact ((h.stores _ store hstore).lessens hless).setStore _ _
    · exact (h.stores k other hother).setStore _ _
  unopened := h.unopened
  bounded k hk := by
    show k < (d.stores.set i store').length
    rw [List.length_set]
    exact h.bounded k hk
  recovered := h.recovered

/-- What holds of an instance does not depend on another one that is opened. -/
lemma StoreConsistent.push (h : d.StoreConsistent i store) (hfound : .found i ∉ events)
    (hopened : (∀ record, d.file = some record → record.state = .failed) →
      ∀ j, .opened j ∉ events) (other : RunStore) :
    (d.push other events).StoreConsistent i store where
  nodup := h.nodup
  migrating := h.migrating
  unwritten := h.unwritten
  found hmem := h.found ((List.mem_append.1 hmem).resolve_right hfound)
  alone hready hfailed hfile j hmem :=
    h.alone hready hfailed hfile j ((List.mem_append.1 hmem).resolve_right (hopened hfile j))
  granted hgranted := by
    obtain ⟨before, after, hevents, halone⟩ := h.granted hgranted
    refine ⟨before, after ++ events, ?_, halone⟩
    show d.events ++ events = _
    rw [hevents, List.append_assoc, List.cons_append]

/-- The events that an instance comes with. -/
def JoiningEvents (d : RunDirectory) (events : List DirectoryEvent) : Prop :=
  events = [] ∨ events = [.found d.stores.length] ∨
    (events = [.opened d.stores.length] ∧
      ∃ record, d.file = some record ∧ record.state ≠ .failed)

lemma Consistent.push (h : d.Consistent) (hevents : d.JoiningEvents events)
    (hstore : (d.push store events).StoreConsistent d.stores.length store) :
    (d.push store events).Consistent where
  versions := h.versions
  latest := h.latest
  stores k other hother := by
    obtain hlt | hge := Nat.lt_or_ge k d.stores.length
    · have hold : d.stores[k]? = some other := by
        rwa [RunDirectory.push, List.getElem?_append_left hlt] at hother
      refine (h.stores k other hold).push ?_ ?_ store
      · obtain rfl | rfl | ⟨rfl, -⟩ := hevents
        · simp
        · simp only [List.mem_singleton, DirectoryEvent.found.injEq]
          omega
        · simp
      · intro hfailed j
        obtain rfl | rfl | ⟨rfl, record, hfile, hne⟩ := hevents
        · simp
        · simp
        · exact absurd (hfailed record hfile) hne
    · rw [RunDirectory.push, List.getElem?_append_right hge] at hother
      obtain ⟨hk, rfl⟩ : k - d.stores.length = 0 ∧ other = store := by
        rcases hsub : k - d.stores.length with _ | m
        · rw [hsub] at hother
          exact ⟨rfl, (Option.some.inj hother).symm⟩
        · rw [hsub] at hother
          cases hother
      obtain rfl : k = d.stores.length := by omega
      exact hstore
  unopened hfile j hmem := by
    obtain hmem | hmem := List.mem_append.1 hmem
    · exact h.unopened hfile j hmem
    · obtain rfl | rfl | ⟨rfl, record, hsome, -⟩ := hevents
      · cases hmem
      · simp at hmem
      · cases hfile.symm.trans hsome
  bounded k hk := by
    show k < (d.stores ++ [store]).length
    simp only [RunDirectory.push, List.mem_append] at hk
    rw [List.length_append, List.length_singleton]
    by_cases hold : DirectoryEvent.found k ∈ d.events ∨ DirectoryEvent.opened k ∈ d.events
    · have := h.bounded k hold
      omega
    · obtain rfl | rfl | ⟨rfl, -⟩ := hevents
      · simp at hk
        tauto
      · simp at hk
        have : k = d.stores.length := by tauto
        omega
      · simp at hk
        have : k = d.stores.length := by tauto
        omega
  recovered k hfound hopened := by
    simp only [RunDirectory.push, List.mem_append] at hfound hopened
    obtain rfl | rfl | ⟨rfl, record, hfile, hne⟩ := hevents
    · exact h.recovered k (by simpa using hfound) (by simpa using hopened)
    · have hold : DirectoryEvent.opened k ∈ d.events := by simpa using hopened
      have hlt := h.bounded k (.inr hold)
      refine h.recovered k (hfound.resolve_right ?_) hold
      simp only [List.mem_singleton, DirectoryEvent.found.injEq]
      omega
    · have hold : DirectoryEvent.found k ∈ d.events := by simpa using hfound
      have hlt := h.bounded k (.inl hold)
      refine h.recovered k hold (hopened.resolve_right ?_)
      simp only [List.mem_singleton, DirectoryEvent.opened.injEq]
      omega

lemma Consistent.unfound (h : d.Consistent) : .found d.stores.length ∉ d.events :=
  fun hmem => absurd (h.bounded _ (.inl hmem)) (Nat.lt_irrefl _)

lemma Consistent.creating (h : d.Consistent) :
    (d.push ⟨.initial runId now, false, .creating⟩ []).Consistent := by
  refine h.push (.inl rfl) ⟨List.nodup_nil, ?_, fun _ => .inl rfl, ?_, ?_, ?_⟩
  · intro found hfound
    cases hfound
  · intro hfound
    simp only [RunDirectory.push, List.append_nil] at hfound
    exact absurd hfound h.unfound
  · intro hready
    cases hready
  · intro hgranted
    cases hgranted

/-- What is read of a file. -/
lemma read_cases (h : file.read = .ok (record, migrate)) :
    (migrate = false ∧ record = file ∧ record.handles.Nodup) ∨
      (migrate = true ∧ Persists file record ∧ record.state = .completed ∧
        record.handles.Nodup) := by
  unfold RunRecord.read at h
  split at h
  · rename_i hvalid
    obtain ⟨rfl, rfl⟩ := Prod.mk.inj (Except.ok.inj h)
    exact .inl ⟨rfl, rfl, RunRecord.nodup_handles hvalid⟩
  split at h
  · rename_i hlegacy
    obtain ⟨rfl, rfl⟩ := Prod.mk.inj (Except.ok.inj h)
    unfold RunRecord.isLegacyCompleted at hlegacy
    simp only [Bool.and_eq_true, beq_iff_eq] at hlegacy
    obtain ⟨⟨⟨⟨hvalid, -⟩, hcompleted⟩, -⟩, -⟩ := hlegacy
    refine .inr ⟨rfl, ⟨id, id, fun fixture hmem => ⟨fixture, hmem, rfl, fun _ => rfl⟩⟩,
      hcompleted, RunRecord.nodup_of_isValid hvalid⟩
  · cases h

lemma Consistent.opening (h : d.Consistent) (hfile : d.file = some file)
    (hread : file.read = .ok (record, migrate)) :
    (d.openFile record (if migrate then some file else none)).Consistent := by
  obtain ⟨rfl, rfl, hnodup⟩ | ⟨rfl, hpersists, hcompleted, hnodup⟩ := read_cases hread
  · unfold openFile
    by_cases hfailed : record.state = .failed
    · simp only [hfailed, Bool.false_eq_true, if_false, if_true]
      refine h.push (.inr (.inl rfl)) ⟨hnodup, ?_, ?_, fun _ => .inl rfl, ?_, ?_⟩
      · intro found hfound
        cases hfound
      · intro hnone
        cases hnone.symm.trans hfile
      · intro hready
        cases hready
      · intro hgranted
        cases hgranted
    · simp only [hfailed, Bool.false_eq_true, if_false]
      refine h.push (.inr (.inr ⟨rfl, record, hfile, hfailed⟩)) ⟨hnodup, ?_, ?_, ?_, ?_, ?_⟩
      · intro found hfound
        cases hfound
      · intro hnone
        cases hnone.symm.trans hfile
      · exact fun _ => .inr (.inl rfl)
      · exact fun _ hstate => absurd hstate hfailed
      · intro hgranted
        cases hgranted
  · unfold openFile
    simp only [if_true]
    refine h.push (.inl rfl) ⟨hnodup, ?_, ?_, ?_, ?_, ?_⟩
    · intro found hfound
      cases hfound
      exact ⟨hpersists, hcompleted⟩
    · intro hnone
      cases hnone.symm.trans hfile
    · intro hfound
      simp only [RunDirectory.push, List.append_nil] at hfound
      exact absurd hfound h.unfound
    · intro hready
      cases hready
    · intro hgranted
      cases hgranted

/-! ## Writes -/

/-- What is known of a record that replaces the file. -/
structure Replaces (d : RunDirectory) (store : RunStore) (call : StoreCall) (record : RunRecord) :
    Prop where
  persists : ∀ version ∈ d.versions, Persists version record
  nodup : record.handles.Nodup
  held : store.stage ≠ .gone
  recovered : store.stage = .recovering → record.state = .quarantined
  unfinished : record.state = .failed → (store.stage = .creating ∧ d.file = none) ∨
    (store.stage = .ready ∧ store.record.state = .failed ∧ d.file = some store.record)
  completed : store.stage = .ready → call = .complete →
    store.record.state = .failed ∧ d.file = some store.record

lemma Consistent.persists_of_file (h : d.Consistent) (hfile : d.file = some file)
    (hpersists : Persists file record) : ∀ version ∈ d.versions, Persists version record := by
  intro version hmem
  obtain ⟨versions, hversions⟩ := List.getLast?_eq_some_iff.1 (h.latest.trans hfile)
  rw [hversions, List.mem_append, List.mem_singleton] at hmem
  obtain hmem | rfl := hmem
  · have hpairwise := hversions ▸ h.versions
    exact ((List.pairwise_append.1 hpairwise).2.2 version hmem file (by simp)).trans hpersists
  · exact hpersists

lemma Consistent.replaces {call : StoreCall} (h : d.Consistent) (hstore : d.stores[i]? = some store)
    (hwrites : store.writes call now = .ok (some record)) (hfile : d.file = store.expected) :
    d.Replaces store call record := by
  have hinv := h.stores i store hstore
  obtain ⟨hstage, rfl⟩ | ⟨found, hstage, rfl⟩ | ⟨hstage, hcall⟩ | ⟨hstage, hcall⟩ :=
    RunStore.writes_cases hwrites
  · have hnone : d.file = none := by
      rw [hfile, RunStore.expected, hstage]
    have hversions : d.versions = [] := List.getLast?_eq_none_iff.1 (h.latest.trans hnone)
    refine ⟨?_, hinv.nodup, ?_, ?_, fun _ => .inl ⟨hstage, hnone⟩, ?_⟩
    · simp [hversions]
    all_goals simp [hstage]
  · obtain ⟨hpersists, hcompleted⟩ := hinv.migrating found hstage
    have hfound : d.file = some found := by
      rw [hfile, RunStore.expected, hstage]
    refine ⟨h.persists_of_file hfound hpersists, hinv.nodup, ?_, ?_, ?_, ?_⟩
    all_goals simp [hstage, hcompleted]
  · have hsome := hfile.trans (RunStore.expected_recovering hstage)
    obtain ⟨hpersists, hvalid, hquarantined⟩ := RunRecord.persists_quarantine hcall
    refine ⟨h.persists_of_file hsome hpersists, RunRecord.nodup_handles hvalid, ?_, ?_, ?_, ?_⟩
    all_goals simp [hstage, hquarantined]
  · have hsome := hfile.trans (RunStore.expected_ready hstage)
    obtain ⟨hpersists, hvalid⟩ := RunRecord.persists_call hinv.nodup hcall
    refine ⟨h.persists_of_file hsome hpersists, RunRecord.nodup_handles hvalid, ?_, ?_, ?_, ?_⟩
    · simp [hstage]
    · simp [hstage]
    · intro hfailed
      refine .inr ⟨hstage, ?_, hsome⟩
      by_contra hne
      exact hpersists.finished hne hfailed
    · rintro - rfl
      exact ⟨(RunRecord.persists_complete hcall).2.2.1, hsome⟩

section

variable {call : StoreCall} {record : RunRecord} {store' : RunStore}
  {events : List DirectoryEvent}

/-- The events of a write: the instance has been opened by it, or has completed the run. -/
structure WriteEvents (i : Nat) (store : RunStore) (events : List DirectoryEvent) : Prop where
  found : ∀ j, .found j ∉ events
  opened : ∀ j, .opened j ∈ events → j = i ∧ store.stage ≠ .ready

lemma writeEvents_writeEvents (i : Nat) (store : RunStore) (call : StoreCall) :
    WriteEvents i store (writeEvents i store call) := by
  unfold writeEvents
  split
  · rename_i hstage
    exact ⟨by simp, fun j hmem => ⟨by simpa using hmem, hstage⟩⟩
  split
  · exact ⟨by simp, by simp⟩
  · exact ⟨by simp, by simp⟩

lemma writeEvents_nil (i : Nat) (store : RunStore) : WriteEvents i store [] :=
  ⟨by simp, by simp⟩

variable {k : Nat} {other : RunStore}

/-- If the new record is unfinished, whoever has it so is the only one that has opened the run. -/
lemma Replaces.alone (hrep : d.Replaces store call record) (h : d.Consistent)
    (hfailed : record.state = .failed) (hother : d.stores[k]? = some other)
    (hready : other.stage = .ready) (hunfinished : other.record.state = .failed)
    (hevents : WriteEvents i store events) : ∀ j, .opened j ∈ d.events ++ events → j = k := by
  intro j hmem
  obtain ⟨-, hnone⟩ | ⟨hstage, hstate, hfile⟩ := hrep.unfinished hfailed
  · obtain heq | heq := (h.stores k other hother).unwritten hnone
    · cases heq.symm.trans hready
    · cases heq.symm.trans hready
  obtain hmem | hmem := List.mem_append.1 hmem
  · refine (h.stores k other hother).alone hready hunfinished (fun file hsome => ?_) j hmem
    rw [hfile] at hsome
    exact Option.some.inj hsome ▸ hstate
  · exact absurd hstage (hevents.opened j hmem).2

lemma StoreConsistent.rename (hrep : d.Replaces store call record) (h : d.Consistent)
    (hother : d.stores[k]? = some other) (hevents : WriteEvents i store events) :
    (d.rename record i store' events).StoreConsistent k other := by
  have hinv := h.stores k other hother
  refine ⟨hinv.nodup, hinv.migrating, ?_, ?_, ?_, ?_⟩
  · intro hnone
    cases hnone
  · exact fun hmem => hinv.found ((List.mem_append.1 hmem).resolve_right (hevents.found k))
  · intro hready hunfinished hfailed
    exact hrep.alone h (hfailed record rfl) hother hready hunfinished hevents
  · intro hgranted
    obtain ⟨before, after, hbefore, halone⟩ := hinv.granted hgranted
    refine ⟨before, after ++ events, ?_, halone⟩
    show d.events ++ events = _
    rw [hbefore, List.append_assoc, List.cons_append]

/-- The instance that has written. -/
lemma StoreConsistent.written (hrep : d.Replaces store call record) (h : d.Consistent)
    (hstore : d.stores[i]? = some store) :
    (d.rename record i (store.written call record) (writeEvents i store call)).StoreConsistent i
      (store.written call record) := by
  have hevents := writeEvents_writeEvents i store call
  refine ⟨hrep.nodup, ?_, ?_, fun _ => .inr (.inl rfl), ?_, ?_⟩
  · intro found hfound
    cases hfound
  · intro hnone
    cases hnone
  · intro _ hfailed _ j hmem
    obtain ⟨-, hnone⟩ | ⟨hstage, hstate, -⟩ := hrep.unfinished hfailed
    · obtain hmem | hmem := List.mem_append.1 hmem
      · exact absurd hmem (h.unopened hnone j)
      · exact (hevents.opened j hmem).1
    · exact hrep.alone h hfailed hstore hstage hstate hevents j hmem
  · intro hgranted
    simp only [RunStore.written, Bool.and_eq_true, beq_iff_eq] at hgranted
    obtain ⟨hstage, hcomplete⟩ := hgranted
    obtain ⟨hstate, hfile⟩ := hrep.completed hstage hcomplete
    refine ⟨d.events, [], ?_, fun j hne hmem => hne ?_⟩
    · show d.events ++ writeEvents i store call = _
      simp [writeEvents, hstage, hcomplete]
    · refine (h.stores i store hstore).alone hstage hstate (fun file hsome => ?_) j hmem
      rw [hfile] at hsome
      exact Option.some.inj hsome ▸ hstate

lemma Consistent.rename (h : d.Consistent) (hstore : d.stores[i]? = some store)
    (hrep : d.Replaces store call record) (hevents : WriteEvents i store events)
    (hstore' : (d.rename record i store' events).StoreConsistent i store') :
    (d.rename record i store' events).Consistent where
  versions := by
    refine List.pairwise_append.2 ⟨h.versions, List.pairwise_singleton _ _, ?_⟩
    intro version hmem record' hmem'
    rw [List.mem_singleton.1 hmem']
    exact hrep.persists version hmem
  latest := List.getLast?_concat
  stores k other hother := by
    obtain ⟨rfl, rfl⟩ | ⟨-, hother⟩ := getElem?_set_cases hother
    · exact hstore'
    · exact StoreConsistent.rename hrep h hother hevents
  unopened hnone := by cases hnone
  bounded k hk := by
    show k < (d.stores.set i store').length
    rw [List.length_set]
    obtain hmem | hmem := hk
    · exact h.bounded k (.inl ((List.mem_append.1 hmem).resolve_right (hevents.found k)))
    · obtain hmem | hmem := List.mem_append.1 hmem
      · exact h.bounded k (.inr hmem)
      · obtain ⟨rfl, -⟩ := hevents.opened k hmem
        exact (List.getElem?_eq_some_iff.1 hstore).1
  recovered k hfound hopened := by
    refine ⟨record, rfl, ?_⟩
    replace hfound := (List.mem_append.1 hfound).resolve_right (hevents.found k)
    obtain hmem | hmem := List.mem_append.1 hopened
    · obtain ⟨file, hfile, hquarantined⟩ := h.recovered k hfound hmem
      have hlast := List.mem_of_getLast? (h.latest.trans hfile)
      exact (hrep.persists file hlast).quarantined hquarantined
    · obtain ⟨rfl, hne⟩ := hevents.opened k hmem
      obtain heq | heq | heq := (h.stores k store hstore).found hfound
      · exact hrep.recovered heq
      · exact absurd heq hne
      · exact absurd heq hrep.held

end

/-! ## Runs -/

lemma Consistent.step {action : DirectoryAction} (h : d.Consistent)
    (hstep : d.step runId action = .ok d') (hfresh : d.Fresh action) : d'.Consistent := by
  cases action with
  | openStore now =>
      simp only [RunDirectory.step] at hstep
      split at hstep
      · exact Except.ok.inj hstep ▸ h.creating
      · rename_i file hfile
        simp only [bind_eq_ok, Prod.exists, require_eq_ok, pure_eq_ok] at hstep
        obtain ⟨record, migrate, hread, -, -, rfl⟩ := hstep
        exact h.opening hfile hread
  | write i call now outcome =>
      simp only [RunDirectory.step] at hstep
      split at hstep
      · cases hstep
      rename_i store hstore
      split at hstep
      · rename_i record hwrites
        cases outcome with
        | fails => exact Except.ok.inj hstep ▸ h.setStore hstore (lessens_raised store)
        | raisesAfterRename =>
            have hrep := h.replaces hstore hwrites (hfresh (by simp) store hstore)
            refine Except.ok.inj hstep ▸ h.rename hstore hrep (writeEvents_nil i store) ?_
            exact (StoreConsistent.rename hrep h hstore (writeEvents_nil i store)).lessens
              (lessens_raised store)
        | succeeds =>
            have hrep := h.replaces hstore hwrites (hfresh (by simp) store hstore)
            exact Except.ok.inj hstep ▸ h.rename hstore hrep (writeEvents_writeEvents i store call)
              (StoreConsistent.written hrep h hstore)
      · exact Except.ok.inj hstep ▸ h
      · cases hstep
  | raise i =>
      simp only [RunDirectory.step] at hstep
      split at hstep
      · cases hstep
      · rename_i store hstore
        exact Except.ok.inj hstep ▸ h.setStore hstore (lessens_raised store)
  | crash i =>
      simp only [RunDirectory.step] at hstep
      split at hstep
      · cases hstep
      · rename_i store hstore
        exact Except.ok.inj hstep ▸ h.setStore hstore (lessens_gone store)

/-- **A run's state survives** every order of the instances' steps and every crash, as long as each
write that reaches the file finds there the record that its instance holds. -/
theorem lawful_of_fresh {file : Option RunRecord}
    (h : ReflTransGen (FreshMoves runId) (initial file) d) : d.Lawful := by
  refine Consistent.lawful ?_
  induction h with
  | refl => exact consistent_initial file
  | tail _ hmove ih =>
      obtain ⟨action, hstep, hfresh⟩ := hmove
      exact ih.step hstep hfresh

end RunDirectory

/-! ## Two instances -/

namespace TwoInstances

open RunDirectory

def runId : String := "run_00000000000000000000000000"

/-- A run that has just begun. -/
def begun : RunRecord :=
  .initial runId 0

def lost : RunRecord :=
  { begun with state := .quarantined, quarantineReason := some .processLost, updatedAt := 1 }

def finished : RunRecord :=
  { begun with state := .completed, updatedAt := 2 }

/-- The first instance, opened on an empty directory. -/
def openedOnce : RunDirectory where
  file := some begun
  stores := [⟨begun, false, .ready⟩]
  versions := [begun]
  events := [.opened 0]

/-- The second one takes the first one's process for lost. -/
def openedTwice : RunDirectory where
  file := some lost
  stores := [⟨begun, false, .ready⟩, ⟨lost, false, .ready⟩]
  versions := [begun, lost]
  events := [.opened 0, .found 1, .opened 1]

/-- The first one completes the run that it still holds as unfinished. -/
def overwritten : RunDirectory where
  file := some finished
  stores := [⟨finished, true, .ready⟩, ⟨lost, false, .ready⟩]
  versions := [begun, lost, finished]
  events := [.opened 0, .found 1, .opened 1, .completed 0]

lemma step_create : (initial none).step runId (.openStore 0) =
    .ok ((initial none).push ⟨begun, false, .creating⟩ []) := by
  rfl

lemma step_created : ((initial none).push ⟨begun, false, .creating⟩ []).step runId
    (.write 0 .complete 0 .succeeds) = .ok openedOnce := by
  rfl

lemma step_find : openedOnce.step runId (.openStore 1) =
    .ok (openedOnce.push ⟨begun, false, .recovering⟩ [.found 1]) := by
  rfl

lemma step_recover : (openedOnce.push ⟨begun, false, .recovering⟩ [.found 1]).step runId
    (.write 1 .complete 1 .succeeds) = .ok openedTwice := by
  rfl

lemma step_overwrite : openedTwice.step runId (.write 0 .complete 2 .succeeds) =
    .ok overwritten := by
  rfl

/-- The first instance is lost before it has written, the second one completes the run, and the third
one finds it complete. -/
def completedBefore : RunDirectory where
  file := some finished
  stores := [⟨begun, false, .gone⟩, ⟨finished, true, .ready⟩, ⟨finished, false, .ready⟩]
  versions := [begun, finished]
  events := [.opened 1, .completed 1, .opened 2]

def crashed : RunDirectory where
  file := none
  stores := [⟨begun, false, .gone⟩]
  versions := []
  events := []

/-- The second instance has created the file. -/
def created : RunDirectory where
  file := some begun
  stores := [⟨begun, false, .gone⟩, ⟨begun, false, .ready⟩]
  versions := [begun]
  events := [.opened 1]

/-- The second instance has completed the run. -/
def completed : RunDirectory where
  file := some finished
  stores := [⟨begun, false, .gone⟩, ⟨finished, true, .ready⟩]
  versions := [begun, finished]
  events := [.opened 1, .completed 1]

lemma freshMoves_crashed : ReflTransGen (FreshMoves runId) (initial none) crashed :=
  (ReflTransGen.single ⟨.openStore 0, step_create, trivial⟩).tail ⟨.crash 0, rfl, trivial⟩

lemma freshMoves_created : ReflTransGen (FreshMoves runId) crashed created := by
  have hfresh : (crashed.push ⟨begun, false, .creating⟩ []).Fresh
      (.write 1 .complete 0 .succeeds) := by
    rintro - store hstore
    cases hstore
    rfl
  exact (ReflTransGen.single ⟨.openStore 0, rfl, trivial⟩).tail ⟨_, rfl, hfresh⟩

lemma freshMoves_completed : FreshMoves runId created completed := by
  refine ⟨.write 1 .complete 2 .succeeds, rfl, ?_⟩
  rintro - store hstore
  cases hstore
  rfl

/-- Only the instance that has completed the run may publish, and not the one that opens it
afterwards. -/
theorem lawful_completedBefore :
    completedBefore.stores.map (·.publicationAllowed) = [false, true, false] ∧
      completedBefore.Lawful := by
  have hrun : ReflTransGen (FreshMoves runId) (initial none) completedBefore :=
    ((freshMoves_crashed.trans freshMoves_created).tail freshMoves_completed).tail
      ⟨.openStore 3, rfl, trivial⟩
  exact ⟨rfl, lawful_of_fresh hrun⟩

/-- An instance that has been opened before a second one completes the run that the second one has
quarantined, and may publish it. -/
theorem exists_overwritten : ∃ d, ReflTransGen (Moves runId) (initial none) d ∧
    ¬ d.versions.Pairwise Persists ∧
    (∃ store, d.stores[0]? = some store ∧ store.publicationAllowed = true ∧
      d.events = [.opened 0, .found 1, .opened 1, .completed 0]) ∧
    ¬ d.Lawful := by
  have hversions : ¬ overwritten.versions.Pairwise Persists := by
    intro h
    have hpersists : Persists lost finished :=
      (List.pairwise_cons.1 (List.pairwise_cons.1 h).2).1 finished (List.mem_singleton_self _)
    cases hpersists.quarantined rfl
  refine ⟨overwritten, ?_, hversions, ⟨_, rfl, rfl, rfl⟩, fun hlawful => hversions hlawful.persists⟩
  exact ((((ReflTransGen.single ⟨_, step_create⟩).tail ⟨_, step_created⟩).tail
    ⟨_, step_find⟩).tail ⟨_, step_recover⟩).tail ⟨_, step_overwrite⟩

end TwoInstances

end MercuryTools.Qualification
