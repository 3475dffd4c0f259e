import MercuryTools.Qualification.FixtureCleanup
import MercuryTools.Qualification.RecordedFixtures
import Mathlib.Logic.Relation

/-!
# Cleanups side by side

Any number of cleanups of one coordinator take their turns in any order, while fixtures are
registered and cleanups are cancelled.  As long as every step is careful, the adapter is called
once at most for a fixture and only after the fixtures that depend on it, it is not called any more
after a failure, and a report that allows the publication stands for a complete cleanup.
-/

namespace MercuryTools.Qualification

open Checks Hosted Relation

/-! ## The order of the fixtures -/

namespace FixtureRegistry

variable {registry : FixtureRegistry}

variable {fixture : FixtureTarget}

lemma fixture?_eq_some (hnodup : registry.handles.Nodup) {handle : String} :
    registry.fixture? handle = some fixture ↔
      fixture ∈ registry.fixtures ∧ fixture.handle = handle := by
  constructor
  · intro h
    have hhandle := List.find?_some h
    exact ⟨List.mem_of_find?_eq_some h, by simpa using hhandle⟩
  · rintro ⟨hmem, rfl⟩
    cases hfind : registry.fixture? fixture.handle with
    | none => exact absurd (decide_eq_true rfl) (List.find?_eq_none.1 hfind fixture hmem)
    | some other =>
        have hhandle : other.handle = fixture.handle := by
          simpa using List.find?_some hfind
        rw [List.inj_on_of_nodup_map hnodup (List.mem_of_find?_eq_some hfind) hmem hhandle]

lemma dependencies_eq (hnodup : registry.handles.Nodup) (hmem : fixture ∈ registry.fixtures) :
    registry.dependencies fixture.handle = fixture.dependsOn := by
  rw [dependencies, (fixture?_eq_some hnodup).2 ⟨hmem, rfl⟩]
  rfl

lemma map_filterMap_fixture? (hnodup : registry.handles.Nodup) {handles : List String}
    (h : ∀ handle ∈ handles, handle ∈ registry.handles) :
    (handles.filterMap registry.fixture?).map (·.handle) = handles := by
  induction handles with
  | nil => rfl
  | cons handle handles ih =>
      obtain ⟨fixture, hmem, rfl⟩ := List.mem_map.1 (h handle List.mem_cons_self)
      have hfixture := (fixture?_eq_some hnodup).2 ⟨hmem, rfl⟩
      rw [List.filterMap_cons_some hfixture, List.map_cons,
        ih fun other hother => h other (List.mem_cons_of_mem _ hother)]

/-- In the reversed order, what depends on a fixture comes before it. -/
lemma dependents_before (hnodup : registry.handles.Nodup) {order : List FixtureTarget}
    (h : registry.dependencyOrder = .ok order) :
    (∀ fixture ∈ order, fixture ∈ registry.fixtures) ∧
      ∀ before fixture after, order.reverse = before ++ fixture :: after →
        ∀ dependent ∈ registry.fixtures, fixture.handle ∈ dependent.dependsOn →
          dependent ∈ before := by
  unfold dependencyOrder at h
  simp only [bind_eq_ok, require_eq_ok, pure_eq_ok, decide_eq_true_eq] at h
  obtain ⟨-, -, -, hlength, rfl⟩ := h
  set ordered := TopologicalOrder.order registry.dependencies registry.handles with hordered
  have hsubset : ∀ handle ∈ ordered, handle ∈ registry.handles :=
    fun handle => TopologicalOrder.mem_of_mem_order hnodup
  have hordered_nodup : ordered.Nodup := TopologicalOrder.nodup_order hnodup
  have hperm : ordered.Perm registry.handles :=
    (List.subperm_of_subset hordered_nodup hsubset).perm_of_length_le hlength.ge
  have hmap := map_filterMap_fixture? hnodup hsubset
  have hsorted : TopologicalOrder.IsSorted registry.dependencies ordered :=
    TopologicalOrder.isSorted_order hnodup
  have hfixtures : ∀ fixture ∈ ordered.filterMap registry.fixture?,
      fixture ∈ registry.fixtures := by
    intro fixture hmem
    obtain ⟨handle, -, hfixture⟩ := List.mem_filterMap.1 hmem
    exact ((fixture?_eq_some hnodup).1 hfixture).1
  refine ⟨hfixtures, fun before fixture after hsplit dependent hdependent hdepends => ?_⟩
  have horder : ordered.filterMap registry.fixture? =
      after.reverse ++ fixture :: before.reverse := by
    rw [← List.reverse_reverse (ordered.filterMap registry.fixture?), hsplit]
    simp
  have hdeps : fixture.handle ∈ registry.dependencies dependent.handle := by
    rwa [dependencies_eq hnodup hdependent]
  have hhandle : dependent.handle ∈ ordered :=
    hperm.mem_iff.2 (List.mem_map_of_mem hdependent)
  rw [horder, List.map_append, List.map_cons] at hmap
  rw [← hmap] at hsorted hordered_nodup hhandle
  obtain ⟨other, hother, hsame⟩ := List.mem_map.1
    (hsorted.mem_after hordered_nodup hhandle hdeps)
  have hmem : other ∈ registry.fixtures := by
    refine hfixtures other ?_
    rw [horder]
    exact List.mem_append_right _ (List.mem_cons_of_mem _ hother)
  rw [← List.inj_on_of_nodup_map hnodup hmem hdependent hsame]
  exact List.mem_reverse.1 hother

end FixtureRegistry

/-! ## Calls of the store -/

namespace RunStore

variable {store store' : RunStore} {call : StoreCall} {o : CallOutcome}

lemma perform_error {code : String} (h : store.perform call o = (store', .error code)) :
    store'.record = store.record ∧ store'.stage = store.stage ∧
      (store'.runtimePublicationGranted = true → store.runtimePublicationGranted = true) := by
  unfold perform at h
  split at h
  · obtain ⟨rfl, -⟩ := Prod.mk.inj h
    exact ⟨rfl, rfl, fun hgranted => (Bool.and_eq_true_iff.1 hgranted).1⟩
  split at h
  · cases h
  · cases h
  · obtain ⟨rfl, -⟩ := Prod.mk.inj h
    exact ⟨rfl, rfl, fun hgranted => (Bool.and_eq_true_iff.1 hgranted).1⟩

lemma perform_ok (h : store.perform call o = (store', .ok ())) :
    ∃ now written, store.record.call now call = .ok written ∧
      ((written = none ∧ store' = store) ∨
        ∃ record, written = some record ∧ store' = store.written call record) := by
  unfold perform at h
  split at h
  · cases h
  rename_i now
  split at h
  · rename_i hcall
    exact ⟨now, none, hcall, .inl ⟨rfl, (Prod.mk.inj h).1.symm⟩⟩
  · rename_i record hcall
    exact ⟨now, some record, hcall, .inr ⟨record, rfl, (Prod.mk.inj h).1.symm⟩⟩
  · cases h

end RunStore

namespace CleanupState

variable {c c' : CleanupCoordinator} {calls calls' : List CleanupCall}
  {events : List CleanupEvent} {rest : List FixtureTarget}

/-! ## The invariant -/

/-- Whatever depends on a fixture that is left comes before it, is claimed, or is settled. -/
def Passed (c : CleanupCoordinator) (rest : List FixtureTarget) : Prop :=
  ∀ before fixture after, rest = before ++ fixture :: after →
    ∀ dependent ∈ c.registry.fixtures, fixture.handle ∈ dependent.dependsOn →
      dependent ∈ before ∨ dependent.handle ∈ c.registry.claimed ∨
        c.runStore.record.Settled dependent.handle

/-- What holds of a cleanup that awaits the adapter. -/
structure Waiting (c : CleanupCoordinator) (call : CleanupCall) : Prop where
  claimed : call.fixture.handle ∈ c.registry.claimed
  pending : c.runStore.record.cleanupStatus call.fixture.handle = .ok .pending
  left : ∀ fixture ∈ call.rest, fixture ∈ c.registry.fixtures
  passed : Passed c call.rest

/-- What holds of the coordinator and of the cleanups that await the adapter. -/
structure Steady (c : CleanupCoordinator) (calls : List CleanupCall) : Prop where
  stage : c.runStore.stage = .ready
  valid : c.runStore.record.isPersisted = true
  registered : c.registry.handles.Nodup
  once : c.registry.claimed.Nodup
  claimed : ∀ handle ∈ c.registry.claimed, handle ∈ c.runStore.record.handles
  statuses : c.runStore.record.state = .failed → ∀ fixture ∈ c.runStore.record.fixtures,
    fixture.cleanupStatus = .pending ∨ fixture.cleanupStatus = .cleaned
  unhalted : calls ≠ [] → c.registry.halted = false → c.runStore.record.state = .failed
  apart : (calls.map (·.fixture.handle)).Nodup
  waiting : ∀ call ∈ calls, Waiting c call
  recorded : calls ≠ [] ∨ c.runStore.publicationAllowed = true →
    ∀ fixture ∈ c.registry.fixtures, fixture.handle ∈ c.runStore.record.handles

/-- What the events have to do with the coordinator. -/
structure Accounted (c : CleanupCoordinator) (events : List CleanupEvent) : Prop where
  claimed : calledHandles events = c.registry.claimed
  halted : ∀ outcome, .answered outcome ∈ events → outcome ≠ .cleaned → c.registry.halted = true
  ordered : ∀ fixture registered record, .called fixture registered record ∈ events →
    ∀ dependent ∈ registered, fixture.handle ∈ dependent.dependsOn →
      record.cleanupStatus dependent.handle = .ok .cleaned
  stopped : ∀ before outcome after, events = before ++ .answered outcome :: after →
    outcome ≠ .cleaned → calledHandles after = []
  complete : ∀ report registered record, .reported report registered record ∈ events →
    report.publicationAllowed = true → ∀ fixture ∈ registered,
      record.cleanupStatus fixture.handle = .ok .cleaned

/-- The invariant. -/
structure Sound (s : CleanupState) : Prop where
  steady : Steady s.coordinator s.calls
  accounted : Accounted s.coordinator s.events

lemma Sound.lawful {s : CleanupState} (h : s.Sound) : s.Lawful where
  once := h.accounted.claimed ▸ h.steady.once
  ordered := h.accounted.ordered
  stopped := h.accounted.stopped
  complete := h.accounted.complete

variable {fixture : FixtureTarget} {outcome : CleanupOutcome} {store : RunStore}
  {except : Option String} {failed outcomeUnknown : List String} {env : StoreCall → CallOutcome}
  {call : CleanupCall} {i : Nat}

/-- Whatever is published is complete. -/
lemma Steady.published (h : Steady c calls) (hallowed : c.runStore.publicationAllowed = true)
    (hmem : fixture ∈ c.registry.fixtures) :
    c.runStore.record.cleanupStatus fixture.handle = .ok .cleaned := by
  have hcompleted : c.runStore.record.state = .completed := by
    unfold RunStore.publicationAllowed at hallowed
    simp only [Bool.and_eq_true, beq_iff_eq] at hallowed
    exact hallowed.1.2
  obtain ⟨stored, hstored, hhandle⟩ := List.mem_map.1 (h.recorded (.inr hallowed) fixture hmem)
  refine (RunRecord.cleanupStatus_eq_ok (RunRecord.nodup_handles h.valid)).2
    ⟨stored, hstored, hhandle, ?_⟩
  exact RunRecord.cleaned_of_completed h.valid hcompleted hstored

/-! ## Events -/

lemma calledHandles_append (events events' : List CleanupEvent) :
    calledHandles (events ++ events') = calledHandles events ++ calledHandles events' :=
  List.filterMap_append

lemma append_singleton_eq {α : Type*} {xs before after : List α} {x y : α}
    (h : xs ++ [x] = before ++ y :: after) :
    (after = [] ∧ x = y ∧ xs = before) ∨
      ∃ after', after = after' ++ [x] ∧ xs = before ++ y :: after' := by
  obtain rfl | ⟨after', z, rfl⟩ := List.eq_nil_or_concat after
  · obtain ⟨rfl, heq⟩ := List.append_inj' h rfl
    exact .inl ⟨rfl, by simpa using heq, rfl⟩
  · have h' : xs ++ [x] = (before ++ y :: after') ++ [z] := by simpa using h
    obtain ⟨rfl, heq⟩ := List.append_inj' h' rfl
    obtain rfl : x = z := by simpa using heq
    exact .inr ⟨after', by simp, rfl⟩

/-- An answer; a failure has halted the cleanups. -/
lemma Accounted.answered (h : Accounted c events)
    (hhalted : outcome ≠ .cleaned → c.registry.halted = true) :
    Accounted c (events ++ [.answered outcome]) where
  claimed := by
    rw [calledHandles_append, ← h.claimed]
    exact List.append_nil _
  halted other hmem hne := by
    obtain hmem | hmem := List.mem_append.1 hmem
    · exact h.halted other hmem hne
    · obtain rfl : other = outcome := by simpa using hmem
      exact hhalted hne
  ordered fixture registered record hmem :=
    h.ordered fixture registered record (by simpa using hmem)
  stopped before other after hsplit hne := by
    obtain ⟨rfl, -, -⟩ | ⟨after', rfl, hevents⟩ := append_singleton_eq hsplit
    · rfl
    · rw [calledHandles_append, h.stopped before other after' hevents hne]
      rfl
  complete report registered record hmem :=
    h.complete report registered record (by simpa using hmem)

/-- A report. -/
lemma Accounted.reported (h : Accounted c events) (hsteady : Steady c calls)
    {report : CleanupReport} (hreport : report.publicationAllowed = c.runStore.publicationAllowed) :
    Accounted c (events ++ [.reported report c.registry.fixtures c.runStore.record]) where
  claimed := by
    rw [calledHandles_append, ← h.claimed]
    exact List.append_nil _
  halted outcome hmem := h.halted outcome (by simpa using hmem)
  ordered fixture registered record hmem :=
    h.ordered fixture registered record (by simpa using hmem)
  stopped before outcome after hsplit hne := by
    obtain ⟨-, heq, -⟩ | ⟨after', rfl, hevents⟩ := append_singleton_eq hsplit
    · cases heq
    · rw [calledHandles_append, h.stopped before outcome after' hevents hne]
      rfl
  complete other registered record hmem hallowed fixture hfixture := by
    obtain hmem | hmem := List.mem_append.1 hmem
    · exact h.complete other registered record hmem hallowed fixture hfixture
    · obtain ⟨rfl, rfl, rfl⟩ : other = report ∧ registered = c.registry.fixtures ∧
          record = c.runStore.record := by simpa using hmem
      exact hsteady.published (hreport ▸ hallowed) hfixture

/-- A call of the adapter, for a fixture that nothing depends on any more. -/
lemma Accounted.called (h : Accounted c events) (hhalted : c.registry.halted = false)
    (hordered : ∀ dependent ∈ c.registry.fixtures, fixture.handle ∈ dependent.dependsOn →
      c.runStore.record.cleanupStatus dependent.handle = .ok .cleaned) :
    Accounted { c with registry := c.registry.claim fixture.handle }
      (events ++ [.called fixture c.registry.fixtures c.runStore.record]) where
  claimed := by
    rw [calledHandles_append, h.claimed]
    rfl
  halted outcome hmem := h.halted outcome (by simpa using hmem)
  ordered other registered record hmem := by
    obtain hmem | hmem := List.mem_append.1 hmem
    · exact h.ordered other registered record hmem
    · obtain ⟨rfl, rfl, rfl⟩ : other = fixture ∧ registered = c.registry.fixtures ∧
          record = c.runStore.record := by simpa using hmem
      exact hordered
  stopped before outcome after hsplit hne := by
    obtain ⟨-, heq, -⟩ | ⟨after', rfl, hevents⟩ := append_singleton_eq hsplit
    · cases heq
    · have hmem : CleanupEvent.answered outcome ∈ events := by
        rw [hevents]
        exact List.mem_append_right _ List.mem_cons_self
      cases hhalted.symm.trans (h.halted outcome hmem hne)
  complete report registered record hmem :=
    h.complete report registered record (by simpa using hmem)

/-! ## Changes of the coordinator -/

lemma Accounted.congr (h : Accounted c events) (hclaimed : c'.registry.claimed = c.registry.claimed)
    (hhalted : c.registry.halted = true → c'.registry.halted = true) : Accounted c' events :=
  ⟨h.claimed.trans hclaimed.symm, fun outcome hmem hne => hhalted (h.halted outcome hmem hne),
    h.ordered, h.stopped, h.complete⟩

lemma Steady.drop (h : Steady c calls) (hsub : calls'.Sublist calls) : Steady c calls' where
  stage := h.stage
  valid := h.valid
  registered := h.registered
  once := h.once
  claimed := h.claimed
  statuses := h.statuses
  unhalted hne := by
    refine h.unhalted fun hnil => hne ?_
    rw [hnil] at hsub
    exact List.sublist_nil.1 hsub
  apart := h.apart.sublist (hsub.map _)
  waiting call hmem := h.waiting call (hsub.subset hmem)
  recorded hor := by
    refine h.recorded (hor.imp_left fun hne hnil => hne ?_)
    rw [hnil] at hsub
    exact List.sublist_nil.1 hsub

/-- A call of the store that raises. -/
lemma Steady.lessen (h : Steady c calls) (hrecord : store.record = c.runStore.record)
    (hstage : store.stage = c.runStore.stage) (hgranted : store.runtimePublicationGranted = true →
      c.runStore.runtimePublicationGranted = true) :
    Steady { c with runStore := store } calls where
  stage := hstage.trans h.stage
  valid := by
    show store.record.isPersisted = true
    rw [hrecord]
    exact h.valid
  registered := h.registered
  once := h.once
  claimed handle hmem := by
    show handle ∈ store.record.handles
    rw [hrecord]
    exact h.claimed handle hmem
  statuses := by
    show store.record.state = .failed → ∀ fixture ∈ store.record.fixtures, _
    rw [hrecord]
    exact h.statuses
  unhalted hne hhalted := by
    show store.record.state = .failed
    rw [hrecord]
    exact h.unhalted hne hhalted
  apart := h.apart
  waiting call hmem := by
    obtain ⟨hclaimed, hpending, hleft, hpassed⟩ := h.waiting call hmem
    refine ⟨hclaimed, ?_, hleft, ?_⟩
    · show store.record.cleanupStatus _ = _
      rw [hrecord]
      exact hpending
    · unfold Passed
      show ∀ before fixture after, _ → ∀ dependent ∈ c.registry.fixtures, _ → _ ∨ _ ∨
        store.record.Settled dependent.handle
      rw [hrecord]
      exact hpassed
  recorded hor := by
    show ∀ fixture ∈ c.registry.fixtures, fixture.handle ∈ store.record.handles
    rw [hrecord]
    refine h.recorded (hor.imp_right fun hallowed => ?_)
    unfold RunStore.publicationAllowed at hallowed ⊢
    rw [hrecord, hstage] at hallowed
    simp only [Bool.and_eq_true] at hallowed ⊢
    exact ⟨hallowed.1, hgranted hallowed.2⟩

lemma Steady.halt (h : Steady c calls) : Steady c.halt calls where
  stage := h.stage
  valid := h.valid
  registered := h.registered
  once := h.once
  claimed := h.claimed
  statuses := h.statuses
  unhalted _ hhalted := by cases hhalted
  apart := h.apart
  waiting call hmem :=
    have hwaiting := h.waiting call hmem
    ⟨hwaiting.claimed, hwaiting.pending, hwaiting.left, hwaiting.passed⟩
  recorded := h.recorded

lemma Passed.persists (h : Passed c rest) (hnodup : c.runStore.record.handles.Nodup)
    (hextends : c.runStore.record.Extends except store.record) :
    Passed { c with runStore := store } rest := by
  intro before fixture after hsplit dependent hmem hdepends
  obtain hbefore | hclaimed | hsettled := h before fixture after hsplit dependent hmem hdepends
  · exact .inl hbefore
  · exact .inr (.inl hclaimed)
  · exact .inr (.inr (hsettled.persists hnodup (RunRecord.nodup_handles hextends.valid)
      hextends.persists))

/-- A call of the store that writes. -/
lemma Steady.write (h : Steady c calls) (hstage : store.stage = .ready)
    (hextends : c.runStore.record.Extends except store.record)
    (hexcept : ∀ call ∈ calls, some call.fixture.handle ≠ except)
    (hstatuses : store.record.state = .failed → c.runStore.record.state = .failed ∧
      ∀ fixture ∈ store.record.fixtures, fixture ∈ c.runStore.record.fixtures ∨
        fixture.cleanupStatus = .pending ∨ fixture.cleanupStatus = .cleaned)
    (hunhalted : calls ≠ [] → c.registry.halted = false → store.record.state = .failed)
    (hrecorded : store.publicationAllowed = true →
      ∀ fixture ∈ c.registry.fixtures, fixture.handle ∈ store.record.handles) :
    Steady { c with runStore := store } calls where
  stage := hstage
  valid := hextends.valid
  registered := h.registered
  once := h.once
  claimed handle hmem := hextends.subset_handles (h.claimed handle hmem)
  statuses hfailed fixture hmem := by
    obtain ⟨hbefore, hfixtures⟩ := hstatuses hfailed
    obtain hold | hnew := hfixtures fixture hmem
    · exact h.statuses hbefore fixture hold
    · exact hnew
  unhalted := hunhalted
  apart := h.apart
  waiting call hmem := by
    obtain ⟨hclaimed, hpending, hleft, hpassed⟩ := h.waiting call hmem
    exact ⟨hclaimed, hextends.status _ _ hpending (hexcept call hmem), hleft,
      hpassed.persists (RunRecord.nodup_handles h.valid) hextends⟩
  recorded hor := by
    obtain hne | hallowed := hor
    · exact fun fixture hmem => hextends.subset_handles (h.recorded (.inl hne) fixture hmem)
    · exact hrecorded hallowed

lemma Passed.claim {handle : String} (h : Passed c rest) :
    Passed { c with registry := c.registry.claim handle } rest := by
  intro before fixture after hsplit dependent hmem hdepends
  obtain hbefore | hclaimed | hsettled := h before fixture after hsplit dependent hmem hdepends
  · exact .inl hbefore
  · exact .inr (.inl (List.mem_append_left _ hclaimed))
  · exact .inr (.inr hsettled)

/-- A cleanup that comes to await the adapter. -/
lemma Steady.claim (h : Steady c calls) (call : CleanupCall)
    (hclaimed : call.fixture.handle ∉ c.registry.claimed)
    (hstate : c.runStore.record.state = .failed)
    (hrecorded : ∀ fixture ∈ c.registry.fixtures, fixture.handle ∈ c.runStore.record.handles)
    (hwaiting : Waiting { c with registry := c.registry.claim call.fixture.handle } call) :
    Steady { c with registry := c.registry.claim call.fixture.handle } (calls ++ [call]) where
  stage := h.stage
  valid := h.valid
  registered := h.registered
  once := List.nodup_append.2 ⟨h.once, List.nodup_singleton _, by
    rintro handle hmem _ hsingle rfl
    exact hclaimed (List.mem_singleton.1 hsingle ▸ hmem)⟩
  claimed handle hmem := by
    obtain hmem | hmem := List.mem_append.1 hmem
    · exact h.claimed handle hmem
    · rw [List.mem_singleton.1 hmem]
      exact (RunRecord.mem_handles (RunRecord.nodup_handles h.valid)).2 ⟨_, hwaiting.pending⟩
  statuses := h.statuses
  unhalted _ _ := hstate
  apart := by
    rw [List.map_append, List.map_singleton]
    refine List.nodup_append.2 ⟨h.apart, List.nodup_singleton _, ?_⟩
    rintro handle hmem _ hsingle rfl
    obtain ⟨other, hother, rfl⟩ := List.mem_map.1 hmem
    exact hclaimed (List.mem_singleton.1 hsingle ▸ (h.waiting other hother).claimed)
  waiting other hmem := by
    obtain hmem | hmem := List.mem_append.1 hmem
    · obtain ⟨hin, hpending, hleft, hpassed⟩ := h.waiting other hmem
      exact ⟨List.mem_append_left _ hin, hpending, hleft, hpassed.claim⟩
    · exact List.mem_singleton.1 hmem ▸ hwaiting
  recorded _ := hrecorded

/-! ## Turns -/

/-- What a cleanup knows that takes its turn. -/
structure Running (c : CleanupCoordinator) (rest : List FixtureTarget) : Prop where
  recorded : ∀ fixture ∈ c.registry.fixtures, fixture.handle ∈ c.runStore.record.handles
  left : ∀ fixture ∈ rest, fixture ∈ c.registry.fixtures
  passed : Passed c rest
  unhalted : c.registry.halted = false → c.runStore.record.state = .failed
  /-- No fixture that is left is called for before a dependent that is pending. -/
  clear : ∀ fixture ∈ rest, fixture.handle ∉ c.registry.claimed →
    c.registry.halted = false ∧ ∀ dependent ∈ c.registry.fixtures,
      fixture.handle ∈ dependent.dependsOn → dependent.handle ∈ c.registry.claimed →
        c.runStore.record.cleanupStatus dependent.handle ≠ .ok .pending

/-- A fixture that needs no cleanup is passed over. -/
lemma Passed.skip (h : Passed c (fixture :: rest))
    (hskip : c.runStore.record.Settled fixture.handle ∨ fixture.handle ∈ c.registry.claimed) :
    Passed c rest := by
  intro before other after hsplit dependent hmem hdepends
  obtain hbefore | hother := h (fixture :: before) other after
    (by rw [hsplit, List.cons_append]) dependent hmem hdepends
  · obtain rfl | hbefore := List.mem_cons.1 hbefore
    · exact .inr hskip.symm
    · exact .inl hbefore
  · exact .inr hother

lemma Running.skip (h : Running c (fixture :: rest))
    (hskip : c.runStore.record.Settled fixture.handle ∨ fixture.handle ∈ c.registry.claimed) :
    Running c rest where
  recorded := h.recorded
  left other hmem := h.left other (List.mem_cons_of_mem _ hmem)
  passed := h.passed.skip hskip
  unhalted := h.unhalted
  clear other hmem := h.clear other (List.mem_cons_of_mem _ hmem)

lemma report_cases {attempted cleaned : List String} {turn : Turn}
    (h : c.report attempted cleaned failed outcomeUnknown = turn) :
    (∃ code, turn = .raises code) ∨
      ∃ report, turn = .reports report ∧
        report.publicationAllowed = c.runStore.publicationAllowed := by
  unfold CleanupCoordinator.report at h
  simp only at h
  split at h
  · exact .inr ⟨_, h.symm, rfl⟩
  · exact .inl ⟨_, h.symm⟩

lemma Sound.report (h : Sound ⟨c, calls, events⟩)
    (attempted cleaned failed outcomeUnknown : List String) :
    Sound (after c calls events (c.report attempted cleaned failed outcomeUnknown)) := by
  obtain ⟨code, hturn⟩ | ⟨report, hturn, hreport⟩ :=
    report_cases (c := c) (rfl : c.report attempted cleaned failed outcomeUnknown = _)
  · rw [hturn]
    exact h
  · rw [hturn]
    exact ⟨h.steady, h.accounted.reported h.steady hreport⟩

/-- What a call of the store does to the coordinator. -/
lemma perform_cases {call : StoreCall} {outcome : Except String Unit}
    (h : c.perform env call = (c', outcome)) :
    ∃ store, c.runStore.perform call (env call) = (store, outcome) ∧
      c' = { c with runStore := store } := by
  unfold CleanupCoordinator.perform at h
  obtain ⟨rfl, rfl⟩ := Prod.mk.inj h
  exact ⟨_, rfl, rfl⟩

lemma Sound.perform_error (h : Sound ⟨c, calls, events⟩) {call : StoreCall} {code : String}
    (hperform : c.perform env call = (c', .error code)) : Sound ⟨c', calls, events⟩ := by
  obtain ⟨store, hstore, rfl⟩ := perform_cases hperform
  obtain ⟨hrecord, hstage, hgranted⟩ := RunStore.perform_error hstore
  exact ⟨h.steady.lessen hrecord hstage hgranted, h.accounted.congr rfl id⟩

lemma Sound.halt (h : Sound ⟨c, calls, events⟩) : Sound ⟨c.halt, calls, events⟩ :=
  ⟨h.steady.halt, h.accounted.congr rfl fun _ => rfl⟩

/-- The end of a cleanup. -/
lemma Sound.finish (h : Sound ⟨c, calls, events⟩) (hrunning : Running c [])
    (attempted cleaned : List String) :
    Sound (after (c.finish env attempted cleaned).1 calls events
      (c.finish env attempted cleaned).2) := by
  unfold CleanupCoordinator.finish
  rcases hperform : c.perform env .complete with ⟨c', outcome⟩
  cases outcome with
  | error code => exact (h.perform_error hperform).halt
  | ok u =>
      refine Sound.report ?_ _ _ _ _
      obtain ⟨store, hstore, rfl⟩ := perform_cases hperform
      obtain ⟨now, written, hcall, ⟨-, rfl⟩ | ⟨record, rfl, rfl⟩⟩ := RunStore.perform_ok hstore
      · exact h
      obtain ⟨hextends, hcompleted⟩ :=
        RunRecord.complete_eq_ok (RunRecord.nodup_handles h.steady.valid) hcall
      have hcalls : calls = [] := by
        by_contra hne
        obtain ⟨call, hmem⟩ := List.exists_mem_of_ne_nil calls hne
        have hpending := hextends.status _ _ (h.steady.waiting call hmem).pending (by simp)
        obtain ⟨stored, hstored, -, hstatus⟩ :=
          (RunRecord.cleanupStatus_eq_ok (RunRecord.nodup_handles hextends.valid)).1 hpending
        cases hstatus.symm.trans
          (RunRecord.cleaned_of_completed hextends.valid hcompleted hstored)
      subst hcalls
      refine ⟨h.steady.write rfl hextends (by simp) ?_ (by simp) ?_, h.accounted.congr rfl id⟩
      · intro hfailed
        cases hfailed.symm.trans hcompleted
      · intro _ fixture hmem
        exact hextends.subset_handles (hrunning.recorded fixture hmem)

/-- The loop of a cleanup. -/
lemma Sound.next (h : Sound ⟨c, calls, events⟩) (hrunning : Running c rest)
    (attempted cleaned : List String) :
    Sound (after (c.next env attempted cleaned rest).1 calls events
      (c.next env attempted cleaned rest).2) := by
  induction rest with
  | nil => exact h.finish hrunning attempted cleaned
  | cons fixture rest ih =>
      have hnodup := RunRecord.nodup_handles h.steady.valid
      unfold CleanupCoordinator.next
      split
      · exact h
      rename_i status hstatus
      split
      · rename_i hskip
        refine ih (hrunning.skip ?_)
        exact hskip.imp_left fun hne => ⟨status, hstatus, hne⟩
      · rename_i hcall
        obtain ⟨hpending, hclaimed⟩ := not_or.1 hcall
        rw [not_not] at hpending
        subst hpending
        obtain ⟨hhalted, hclear⟩ := hrunning.clear fixture List.mem_cons_self hclaimed
        have hstate := hrunning.unhalted hhalted
        have hclaim : fixture.handle ∈ c.registry.claimed ++ [fixture.handle] :=
          List.mem_append_right _ (List.mem_singleton_self _)
        refine ⟨h.steady.claim ⟨fixture, rest, _, _⟩ hclaimed hstate hrunning.recorded
          ⟨hclaim, hstatus, ?_, ?_⟩, h.accounted.called hhalted fun dependent hmem hdepends => ?_⟩
        · exact fun other hmem => hrunning.left other (List.mem_cons_of_mem _ hmem)
        · exact hrunning.passed.claim.skip (.inr hclaim)
        · -- The dependent is not pending any more, and nothing else has failed.
          have hrecorded := hrunning.recorded dependent hmem
          obtain ⟨status, hdependent⟩ := (RunRecord.mem_handles hnodup).1 hrecorded
          have hne : status ≠ .pending := by
            rintro rfl
            obtain hbefore | hin | hsettled :=
              hrunning.passed [] fixture rest rfl dependent hmem hdepends
            · cases hbefore
            · exact hclear dependent hmem hdepends hin hdependent
            · obtain ⟨status, hother, hne⟩ := hsettled
              exact hne (Except.ok.inj (hother.symm.trans hdependent))
          obtain ⟨stored, hstored, -, hstored_status⟩ :=
            (RunRecord.cleanupStatus_eq_ok hnodup).1 hdependent
          obtain hpending | hcleaned := h.steady.statuses hstate stored hstored
          · exact absurd (hstored_status.symm.trans hpending) hne
          · rw [hdependent, ← hstored_status, hcleaned]

/-! ## Steps -/

/-- A cleanup up to its first call of the adapter. -/
lemma Sound.clean (h : Sound ⟨c, calls, events⟩) {order : List FixtureTarget}
    (horder : c.registry.dependencyOrder = .ok order) (hhalted : c.registry.halted = false)
    (hstate : c.runStore.record.state = .failed)
    (hovertakes : ¬ Overtakes ⟨c, calls, events⟩ c.registry.fixtures none) :
    Sound (after (c.clean env order).1 calls events (c.clean env order).2) := by
  have hnodup := RunRecord.nodup_handles h.steady.valid
  obtain ⟨hsubset, hbefore⟩ := FixtureRegistry.dependents_before h.steady.registered horder
  unfold CleanupCoordinator.clean
  rcases hperform : c.perform env (.recordFixtures c.registry.references) with ⟨c', outcome⟩
  cases outcome with
  | error code => exact h.perform_error hperform
  | ok u =>
      obtain ⟨store, hstore, rfl⟩ := perform_cases hperform
      obtain ⟨now, written, hcall, hwritten⟩ := RunStore.perform_ok hstore
      obtain ⟨-, hrecorded, hextends⟩ := RunRecord.recordFixtures_eq_ok hnodup hcall
      have hreferences : ∀ fixture ∈ c.registry.fixtures,
          fixture.handle ∈ (written.getD c.runStore.record).handles := by
        intro fixture hmem
        refine hrecorded fixture.toFixtureReference (List.mem_map.2 ⟨fixture, ?_, rfl⟩)
        exact (List.mem_insertionSort _).2 hmem
      -- What was claimed before is recorded as it was.
      obtain ⟨hsound, hfailed, hregistered, hpending⟩ :
          Sound ⟨{ c with runStore := store }, calls, events⟩ ∧ store.record.state = .failed ∧
            (∀ fixture ∈ c.registry.fixtures, fixture.handle ∈ store.record.handles) ∧
            ∀ handle ∈ c.registry.claimed, store.record.cleanupStatus handle = .ok .pending →
              c.runStore.record.cleanupStatus handle = .ok .pending := by
        obtain ⟨rfl, rfl⟩ | ⟨record, rfl, rfl⟩ := hwritten
        · exact ⟨h, hstate, hreferences, fun _ _ => id⟩
        obtain ⟨hextends, hsame, hfixtures⟩ := hextends record rfl
        refine ⟨⟨h.steady.write rfl hextends (by simp) ?_ ?_ ?_, h.accounted.congr rfl id⟩,
          hsame.trans hstate, hreferences, fun handle hmem hafter => ?_⟩
        · exact fun _ => ⟨hstate, fun fixture hmem => (hfixtures fixture hmem).imp_right .inl⟩
        · exact fun _ _ => hsame.trans hstate
        · exact fun _ => hreferences
        · obtain ⟨status, hbefore⟩ :=
            (RunRecord.mem_handles hnodup).1 (h.steady.claimed handle hmem)
          have hstatus := hextends.status handle status hbefore (by simp)
          rw [hbefore, ← hstatus]
          exact hafter
      refine hsound.next ⟨hregistered, ?_, ?_, fun _ => hfailed, ?_⟩ [] []
      · exact fun fixture hmem => hsubset fixture (List.mem_reverse.1 hmem)
      · exact fun before fixture after hsplit dependent hmem hdepends =>
          .inl (hbefore before fixture after hsplit dependent hmem hdepends)
      · intro fixture hmem hclaimed
        refine ⟨hhalted, fun dependent hdependent hdepends hin hafter => hovertakes ?_⟩
        exact ⟨fixture, hsubset fixture (List.mem_reverse.1 hmem), hclaimed, dependent, hdependent,
          hdepends, hin, by simp, hpending _ hin hafter⟩

lemma Sound.begin (h : Sound ⟨c, calls, events⟩)
    (hcareful : Careful ⟨c, calls, events⟩ (.begin env)) :
    Sound (after (c.begin env).1 calls events (c.begin env).2) := by
  unfold CleanupCoordinator.begin
  split
  · exact h.report _ _ _ _
  rename_i hhalted
  split
  · exact h.report _ _ _ _
  rename_i hquarantined
  split
  · exact h
  rename_i order horder
  split
  · exact h.report _ _ _ _
  rename_i hcompleted
  have hhalted' : c.registry.halted = false := by simpa using hhalted
  have hstate : c.runStore.record.state = .failed := by
    cases hstate : c.runStore.record.state with
    | completed => exact absurd hstate hcompleted
    | quarantined => exact absurd hstate hquarantined
    | failed => rfl
  exact h.clean horder hhalted' hstate (hcareful hhalted' hstate)

/-- A cleanup that stops, after the cleanups are halted. -/
lemma Sound.stop {status : CleanupStatus} (h : Sound ⟨c.halt, calls, events⟩)
    (hapart : ∀ other ∈ calls, other.fixture.handle ≠ call.fixture.handle) :
    Sound (after (c.stop env call status failed outcomeUnknown).1 calls events
      (c.stop env call status failed outcomeUnknown).2) := by
  unfold CleanupCoordinator.stop
  rcases hperform : c.halt.perform env (.quarantineCleanup call.fixture.handle status)
    with ⟨c', outcome⟩
  cases outcome with
  | error code => exact h.perform_error hperform
  | ok u =>
      refine Sound.report ?_ _ _ _ _
      obtain ⟨store, hstore, rfl⟩ := perform_cases hperform
      obtain ⟨now, written, hcall, ⟨-, rfl⟩ | ⟨record, rfl, rfl⟩⟩ := RunStore.perform_ok hstore
      · exact h
      obtain ⟨hextends, hstate⟩ :=
        RunRecord.quarantineCleanup_eq_ok (RunRecord.nodup_handles h.steady.valid) hcall
      refine ⟨h.steady.write rfl hextends ?_ ?_ ?_ ?_, h.accounted.congr rfl id⟩
      · exact fun other hmem heq => hapart other hmem (Option.some.inj heq)
      · intro hfailed
        cases hfailed.symm.trans hstate
      · intro _ hhalted
        cases hhalted
      · intro hallowed
        simp [RunStore.publicationAllowed, RunStore.written, hstate] at hallowed

/-- A cleanup whose fixture has been cleaned goes on. -/
lemma Sound.resume_cleaned (h : Sound ⟨c, calls, events⟩) (hwaiting : Waiting c call)
    (hrecorded : ∀ fixture ∈ c.registry.fixtures, fixture.handle ∈ c.runStore.record.handles)
    (hunhalted : c.registry.halted = false → c.runStore.record.state = .failed)
    (hapart : ∀ other ∈ calls, other.fixture.handle ≠ call.fixture.handle)
    (hhalted : c.registry.halted = true → ∀ left ∈ call.rest, left.handle ∈ c.registry.claimed)
    (hovertakes : ¬ Overtakes ⟨c, calls, events⟩ call.rest (some call.fixture.handle)) :
    Sound (after (c.resume env call .cleaned).1 calls events (c.resume env call .cleaned).2) := by
  have hnodup := RunRecord.nodup_handles h.steady.valid
  unfold CleanupCoordinator.resume
  simp only
  rcases hperform : c.perform env (.markCleanup call.fixture.handle .cleaned) with ⟨c', outcome⟩
  cases outcome with
  | error code => exact (h.perform_error hperform).halt
  | ok u =>
      obtain ⟨store, hstore, rfl⟩ := perform_cases hperform
      obtain ⟨now, written, hcall, hwritten⟩ := RunStore.perform_ok hstore
      obtain ⟨hcleaned, hextends⟩ := RunRecord.markCleanup_eq_ok hnodup hcall
      obtain ⟨rfl, rfl⟩ | ⟨record, rfl, rfl⟩ := hwritten
      · -- Nothing has been written: but the fixture was pending.
        cases hwaiting.pending.symm.trans hcleaned
      obtain ⟨hextends, hsame, hfixtures⟩ := hextends record rfl
      have hregistered : ∀ fixture ∈ c.registry.fixtures, fixture.handle ∈ record.handles :=
        fun fixture hmem => hextends.subset_handles (hrecorded fixture hmem)
      have hsound : Sound ⟨⟨c.registry,
          c.runStore.written (.markCleanup call.fixture.handle .cleaned) record⟩, calls,
          events⟩ := by
        refine ⟨h.steady.write rfl hextends ?_ ?_ ?_ fun _ => hregistered,
          h.accounted.congr rfl id⟩
        · exact fun other hmem heq => hapart other hmem (Option.some.inj heq)
        · exact fun hfailed => ⟨hsame ▸ hfailed,
            fun fixture hmem => (hfixtures fixture hmem).imp_right .inr⟩
        · exact fun hne hhalted => hsame.trans (h.steady.unhalted hne hhalted)
      refine hsound.next ⟨hregistered, hwaiting.left, hwaiting.passed.persists hnodup hextends,
        fun hhalted => hsame.trans (hunhalted hhalted), fun fixture hmem hclaimed => ?_⟩ _ _
      refine ⟨?_, fun dependent hdependent hdepends hin hafter => hovertakes ?_⟩
      · cases heq : c.registry.halted with
        | false => rfl
        | true => exact absurd (hhalted heq fixture hmem) hclaimed
      · have hne : dependent.handle ≠ call.fixture.handle := by
          intro heq
          rw [heq] at hafter
          cases hafter.symm.trans hcleaned
        obtain ⟨status, hbefore⟩ := (RunRecord.mem_handles hnodup).1 (h.steady.claimed _ hin)
        have hstatus := hextends.status _ status hbefore fun heq => hne (Option.some.inj heq)
        refine ⟨fixture, hmem, hclaimed, dependent, hdependent, hdepends, hin,
          fun heq => hne (Option.some.inj heq), ?_⟩
        show c.runStore.record.cleanupStatus dependent.handle = _
        rw [hbefore, ← hstatus]
        exact hafter

lemma Sound.drop (h : Sound ⟨c, calls, events⟩) (hsub : calls'.Sublist calls) :
    Sound ⟨c, calls', events⟩ :=
  ⟨h.steady.drop hsub, h.accounted⟩

lemma Sound.answered (h : Sound ⟨c, calls, events⟩)
    (hhalted : outcome ≠ .cleaned → c.registry.halted = true) :
    Sound ⟨c, calls, events ++ [.answered outcome]⟩ :=
  ⟨h.steady, h.accounted.answered hhalted⟩

/-- The other cleanups that await the adapter do so for other fixtures. -/
lemma Steady.apart_of_getElem? (h : Steady c calls) (hcall : calls[i]? = some call) :
    ∀ other ∈ calls.eraseIdx i, other.fixture.handle ≠ call.fixture.handle := by
  obtain ⟨hi, rfl⟩ := List.getElem?_eq_some_iff.1 hcall
  intro other hmem heq
  obtain ⟨j, hj, hne, rfl⟩ := List.mem_eraseIdx_iff_getElem.1 hmem
  have hj' : j < (calls.map (·.fixture.handle)).length := by simpa using hj
  have hi' : i < (calls.map (·.fixture.handle)).length := by simpa using hi
  have hsame : (calls.map (·.fixture.handle))[j] = (calls.map (·.fixture.handle))[i] := by
    simpa using heq
  exact hne (h.apart.getElem_inj_iff.1 hsame)

lemma Sound.resume (h : Sound ⟨c, calls, events⟩) (hcall : calls[i]? = some call)
    (hcareful : Careful ⟨c, calls, events⟩ (.resume i outcome env)) :
    Sound (after (c.resume env call outcome).1 (calls.eraseIdx i) (events ++ [.answered outcome])
      (c.resume env call outcome).2) := by
  have hmem : call ∈ calls := List.mem_of_getElem? hcall
  have hne : calls ≠ [] := List.ne_nil_of_mem hmem
  have hapart := h.steady.apart_of_getElem? hcall
  have hdrop := h.drop (List.eraseIdx_sublist calls i)
  cases outcome with
  | cleaned =>
      obtain ⟨hhalted, hovertakes⟩ := hcareful rfl call hcall
      refine (hdrop.answered (by simp)).resume_cleaned (h.steady.waiting call hmem)
        (h.steady.recorded (.inl hne)) (h.steady.unhalted hne) hapart hhalted ?_
      exact hovertakes
  | failed => exact (hdrop.halt.answered fun _ => rfl).stop hapart
  | outcomeUnknown => exact (hdrop.halt.answered fun _ => rfl).stop hapart

/-- A registration while no cleanup awaits the adapter. -/
lemma Steady.register (h : Steady c []) (hallowed : c.runStore.publicationAllowed = false)
    {registry : FixtureRegistry} (hregister : c.registry.register fixture = .ok registry) :
    Steady { c with registry := registry } [] ∧ registry.claimed = c.registry.claimed ∧
      registry.halted = c.registry.halted := by
  unfold FixtureRegistry.register at hregister
  simp only [bind_eq_ok, require_eq_ok, pure_eq_ok, decide_eq_true_eq] at hregister
  obtain ⟨-, -, -, hfresh, -, -, -, -, -, -, -, -, -, -, rfl⟩ := hregister
  refine ⟨⟨h.stage, h.valid, ?_, h.once, h.claimed, h.statuses, h.unhalted, h.apart, by simp, ?_⟩,
    rfl, rfl⟩
  · show (List.map _ (_ ++ [_])).Nodup
    rw [List.map_append, List.map_singleton]
    refine List.nodup_append.2 ⟨h.registered, List.nodup_singleton _, ?_⟩
    rintro handle hmem _ hsingle rfl
    exact hfresh (List.mem_singleton.1 hsingle ▸ hmem)
  · rintro (hne | hallowed')
    · exact absurd rfl hne
    · cases hallowed.symm.trans hallowed'

lemma Sound.step {s s' : CleanupState} {action : CleanupAction} (h : s.Sound)
    (hstep : s.step action = .ok s') (hcareful : s.Careful action) : s'.Sound := by
  obtain ⟨c, calls, events⟩ := s
  cases action with
  | register fixture =>
      simp only [CleanupState.step, bind_eq_ok, pure_eq_ok] at hstep
      obtain ⟨registry, hregister, rfl⟩ := hstep
      obtain ⟨hcalls, hallowed⟩ := hcareful
      obtain rfl : calls = [] := hcalls
      obtain ⟨hsteady, hclaimed, hhalted⟩ := h.steady.register hallowed hregister
      exact ⟨hsteady, h.accounted.congr hclaimed fun heq => hhalted.trans heq⟩
  | begin env => exact Except.ok.inj hstep ▸ h.begin hcareful
  | resume i outcome env =>
      simp only [CleanupState.step] at hstep
      split at hstep
      · cases hstep
      · rename_i call hcall
        exact Except.ok.inj hstep ▸ h.resume hcall hcareful
  | cancel i => exact Except.ok.inj hstep ▸ h.drop (List.eraseIdx_sublist calls i)

/-! ## Runs -/

/-- A store that has just been opened: it has no fixtures to clean. -/
def IsOpened (record : RunRecord) : Prop :=
  record.isPersisted = true ∧ (record.state = .failed → record.fixtures = [])

lemma sound_initial {record : RunRecord} (h : IsOpened record) : (initial record).Sound where
  steady := by
    refine ⟨rfl, h.1, List.nodup_nil, List.nodup_nil, by simp [initial], fun hfailed => ?_,
      by simp [initial], List.nodup_nil, by simp [initial], by simp [initial]⟩
    show ∀ fixture ∈ record.fixtures, _
    rw [h.2 hfailed]
    simp
  accounted := ⟨rfl, by simp [initial], by simp [initial], by simp [initial], by simp [initial]⟩

/-- **Fixtures are cleaned in order and completely** in every run whose steps are careful, whatever
the adapter answers and whichever calls of the store raise. -/
theorem lawful_of_careful {record : RunRecord} {s : CleanupState} (hopened : IsOpened record)
    (h : ReflTransGen CarefulMoves (initial record) s) : s.Lawful := by
  refine Sound.lawful ?_
  induction h with
  | refl => exact sound_initial hopened
  | tail _ hmove ih =>
      obtain ⟨action, hstep, hcareful⟩ := hmove
      exact ih.step hstep hcareful

end CleanupState

/-! ## Two fixtures -/

namespace TwoFixtures

open CleanupState

def reference (handle : String) (dependsOn : List String) : FixtureReference where
  handle := handle
  actionId := "act_000000000000000000000000"
  versionId := "av_0000000000000000000000000000000000000000000000000000000000000000"
  cleanupActionId := "act_000000000000000000000000"
  cleanupVersionId := "av_0000000000000000000000000000000000000000000000000000000000000000"
  dependsOn := dependsOn

/-- A contact, and an invoice that depends on it. -/
def contact : FixtureTarget :=
  ⟨reference "fx_00000000000000000000000000" [], "contact"⟩

def invoice : FixtureTarget :=
  ⟨reference "fx_00000000000000000000000001" ["fx_00000000000000000000000000"], "invoice"⟩

def begun : RunRecord :=
  .initial "run_00000000000000000000000000" 0

/-- Every call of the store succeeds. -/
def env : StoreCall → CallOutcome :=
  fun _ => .proceeds 1

def pending (fixture : FixtureTarget) : StoredFixture :=
  ⟨fixture.toFixtureReference, 1, .pending, none⟩

def cleaned (fixture : FixtureTarget) : StoredFixture :=
  ⟨fixture.toFixtureReference, 1, .cleaned, some 1⟩

/-- Both fixtures are recorded and pending. -/
def bothPending : RunRecord :=
  { begun with updatedAt := 1, fixtures := [pending contact, pending invoice] }

/-- A second cleanup begins while the first one awaits the adapter for the invoice. -/
def overtaken : CleanupState where
  coordinator := ⟨⟨[contact, invoice], [invoice.handle, contact.handle], false⟩,
    ⟨bothPending, false, .ready⟩⟩
  calls := [⟨invoice, [contact], [invoice.handle], []⟩, ⟨contact, [], [contact.handle], []⟩]
  events := [.called invoice [contact, invoice] bothPending,
    .called contact [contact, invoice] bothPending]

def contactPending : RunRecord :=
  { begun with updatedAt := 1, fixtures := [pending contact] }

def contactCleaned : RunRecord :=
  { begun with state := .completed, updatedAt := 1, fixtures := [cleaned contact] }

/-! ### Two cleanups that keep the order -/

/-- The invoice is cleaned. -/
def invoiceCleaned : RunRecord :=
  { begun with updatedAt := 1, fixtures := [pending contact, cleaned invoice] }

/-- Both fixtures are cleaned. -/
def bothCleaned : RunRecord :=
  { begun with state := .completed, updatedAt := 1, fixtures := [cleaned contact, cleaned invoice] }

def contactRegistered : CleanupState :=
  { initial begun with coordinator := ⟨⟨[contact], [], false⟩, ⟨begun, false, .ready⟩⟩ }

/-- Both fixtures are registered. -/
def registered : CleanupState :=
  { initial begun with coordinator := ⟨⟨[contact, invoice], [], false⟩, ⟨begun, false, .ready⟩⟩ }

/-- A first cleanup awaits the adapter for the invoice. -/
def invoiceAwaited : CleanupState where
  coordinator := ⟨⟨[contact, invoice], [invoice.handle], false⟩, ⟨bothPending, false, .ready⟩⟩
  calls := [⟨invoice, [contact], [invoice.handle], []⟩]
  events := [.called invoice [contact, invoice] bothPending]

lemma register_contact : (initial begun).step (.register contact) = .ok contactRegistered := by
  decide +kernel

lemma register_invoice : contactRegistered.step (.register invoice) = .ok registered := by
  decide +kernel

lemma begin_registered : registered.step (.begin env) = .ok invoiceAwaited := by
  decide +kernel

/-- The invoice is cleaned, and the first cleanup awaits the adapter for the contact; the second one
may have halted the cleanups. -/
def contactNext (halted : Bool) : CleanupState where
  coordinator := ⟨⟨[contact, invoice], [invoice.handle, contact.handle], halted⟩,
    ⟨invoiceCleaned, false, .ready⟩⟩
  calls := [⟨contact, [], [invoice.handle, contact.handle], [invoice.handle]⟩]
  events := [.called invoice [contact, invoice] bothPending, .answered .cleaned,
    .called contact [contact, invoice] invoiceCleaned]

def bothReport : CleanupReport :=
  ⟨[invoice.handle, contact.handle], [invoice.handle, contact.handle], [], [], .completed, true⟩

def bothReported : CleanupState where
  coordinator := ⟨⟨[contact, invoice], [invoice.handle, contact.handle], true⟩,
    ⟨bothCleaned, true, .ready⟩⟩
  calls := []
  events := (contactNext true).events ++
    [.answered .cleaned, .reported bothReport [contact, invoice] bothCleaned]

/-- A contact and an invoice that depends on it are cleaned in order, although a second cleanup
begins while the first one awaits the adapter for the contact. -/
theorem lawful_bothReported :
    .reported bothReport [contact, invoice] bothCleaned ∈ bothReported.events ∧
      bothReported.Lawful := by
  have hopened : IsOpened begun := ⟨by decide, fun _ => rfl⟩
  have hbegin : registered.Careful (.begin env) := by
    rintro - - ⟨_, -, -, dependent, -, -, hclaimed, -⟩
    cases hclaimed
  -- What is left of the first cleanup is the contact, and its only dependent is the one cleaned now.
  have hfirst : invoiceAwaited.Careful (.resume 0 .cleaned env) := by
    rintro - call hcall
    obtain rfl := Option.some.inj hcall
    refine ⟨nofun, ?_⟩
    rintro ⟨_, -, -, dependent, -, -, hclaimed, hne, -⟩
    exact hne (congrArg some (List.mem_singleton.1 hclaimed))
  -- The second cleanup begins when both are claimed.
  have hsecond : (contactNext false).Careful (.begin env) := by
    rintro - - ⟨fixture, hmem, hunclaimed, -⟩
    have hclaimed : ∀ fixture ∈ [contact, invoice],
        fixture.handle ∈ [invoice.handle, contact.handle] := by
      decide
    exact hunclaimed (hclaimed fixture hmem)
  have hlast : (contactNext true).Careful (.resume 0 .cleaned env) := by
    rintro - call hcall
    obtain rfl := Option.some.inj hcall
    exact ⟨fun _ => List.forall_mem_nil _, fun ⟨_, hmem, _⟩ => List.not_mem_nil hmem⟩
  have hrun : ReflTransGen CarefulMoves (initial begun) bothReported :=
    (((((ReflTransGen.single ⟨.register contact, register_contact, rfl, rfl⟩).tail
      ⟨.register invoice, register_invoice, rfl, rfl⟩).tail
      ⟨.begin env, begin_registered, hbegin⟩).tail
      ⟨.resume 0 .cleaned env, by decide +kernel, hfirst⟩).tail
      ⟨.begin env, by decide +kernel, hsecond⟩).tail
      ⟨.resume 0 .cleaned env, by decide +kernel, hlast⟩
  exact ⟨by simp [bothReported], lawful_of_careful hopened hrun⟩

/-- Another fixture. -/
def late : FixtureTarget :=
  ⟨reference "fx_00000000000000000000000001" [], "invoice"⟩

/-- A fixture is registered after the run is complete, and the next cleanup reports. -/
def lateReported : CleanupState where
  coordinator := ⟨⟨[contact, late], [contact.handle], false⟩, ⟨contactCleaned, true, .ready⟩⟩
  calls := []
  events := [.called contact [contact] contactPending, .answered .cleaned,
    .reported ⟨[contact.handle], [contact.handle], [], [], .completed, true⟩ [contact]
      contactCleaned,
    .reported ⟨[], [], [], [], .completed, true⟩ [contact, late] contactCleaned]

def contactAwaited : CleanupState where
  coordinator := ⟨⟨[contact], [contact.handle], false⟩, ⟨contactPending, false, .ready⟩⟩
  calls := [⟨contact, [], [contact.handle], []⟩]
  events := [.called contact [contact] contactPending]

def contactReported : CleanupState where
  coordinator := ⟨⟨[contact], [contact.handle], false⟩, ⟨contactCleaned, true, .ready⟩⟩
  calls := []
  events := lateReported.events.take 3

def lateRegistered : CleanupState :=
  { contactReported with coordinator := lateReported.coordinator }

/-- The adapter is called for the contact while the invoice is pending, and a report allows the
publication although a fixture is not recorded. -/
theorem exists_overtaken :
    (∃ s, ReflTransGen Moves (initial begun) s ∧
      .called contact [contact, invoice] bothPending ∈ s.events ∧
      bothPending.cleanupStatus invoice.handle = .ok .pending ∧ ¬ s.Lawful) ∧
    ∃ s, ReflTransGen Moves (initial begun) s ∧
      .reported ⟨[], [], [], [], .completed, true⟩ [contact, late] contactCleaned ∈ s.events ∧
      contactCleaned.cleanupStatus late.handle = .error "qualification_fixture_missing" ∧
      ¬ s.Lawful := by
  constructor
  · have hmem : .called contact [contact, invoice] bothPending ∈ overtaken.events := by
      simp [overtaken]
    have hpending : bothPending.cleanupStatus invoice.handle = .ok .pending := by
      rfl
    have hrun : ReflTransGen Moves (initial begun) overtaken :=
      (((ReflTransGen.single ⟨.register contact, register_contact⟩).tail
        ⟨.register invoice, register_invoice⟩).tail ⟨.begin env, begin_registered⟩).tail
        ⟨.begin env, by decide +kernel⟩
    refine ⟨overtaken, hrun, hmem, hpending, fun hlawful => ?_⟩
    cases hpending.symm.trans
      (hlawful.ordered _ _ _ hmem invoice (by simp) (List.mem_singleton_self _))
  · have hmem : .reported ⟨[], [], [], [], .completed, true⟩ [contact, late] contactCleaned ∈
        lateReported.events := by
      simp [lateReported]
    have hmissing : contactCleaned.cleanupStatus late.handle =
        .error "qualification_fixture_missing" := by
      rfl
    have hbegin : contactRegistered.step (.begin env) = .ok contactAwaited := by decide +kernel
    have hresume : contactAwaited.step (.resume 0 .cleaned env) = .ok contactReported := by
      decide +kernel
    have hregister : contactReported.step (.register late) = .ok lateRegistered := by
      decide +kernel
    have hagain : lateRegistered.step (.begin env) = .ok lateReported := by decide +kernel
    have hrun : ReflTransGen Moves (initial begun) lateReported :=
      ((((ReflTransGen.single ⟨.register contact, register_contact⟩).tail ⟨_, hbegin⟩).tail
        ⟨_, hresume⟩).tail ⟨_, hregister⟩).tail ⟨_, hagain⟩
    refine ⟨lateReported, hrun, hmem, hmissing, fun hlawful => ?_⟩
    cases hmissing.symm.trans (hlawful.complete _ _ _ hmem rfl late (by simp))

end TwoFixtures

end MercuryTools.Qualification
