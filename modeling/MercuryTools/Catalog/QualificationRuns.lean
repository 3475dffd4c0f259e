import MercuryTools.Catalog.QualificationProtocol
import MercuryTools.Hosted.SchemaAgreement

/-!
# Sequences of publishing calls

What a call writes to the table, and what every sequence of calls keeps: the rows on record have
gone through the declared states one by one, and a production row that is enabled has its canary.
Its owner and the link to its evidence are guarded by comparisons that are `NULL` where the value
is missing, and so let it pass; they are there in every sequence of calls that name them.
-/

namespace MercuryTools.Catalog

open Checks Hosted Programs

/-! ## States on record -/

/-- The declared transitions. -/
inductive Declared : QualificationState → QualificationState → Prop
  | validate : Declared .discoveredUnreviewed .schemaValidated
  | qualify : Declared .schemaValidated .nonproductionQualified
  | enable : Declared .nonproductionQualified .enabled
  | disable : Declared .enabled .disabled
  | supersede : Declared .enabled .superseded

/-- The state of a row is one of the six. -/
lemma QualificationRow.exists_state (row : QualificationRow) :
    ∃ state : QualificationState, row.record.qualificationState = some state.text := by
  have hadmitted := row.admitted
  simp only [QualificationRecord.admitted, Bool.and_eq_true, List.all_cons] at hadmitted
  obtain ⟨⟨⟨⟨-, hsome⟩, -⟩, -⟩, -, -, -, -, -, -, -, -, -, -, hamong, -⟩ := hadmitted
  obtain ⟨text, htext⟩ := Option.isSome_iff_exists.1 hsome
  rw [QualificationRecord.isAmong, htext, Truth.isIn_some, checkHolds, bne_iff_ne, ne_eq,
    Option.some.injEq, decide_eq_false_iff_not, not_not, List.mem_map] at hamong
  obtain ⟨state, -, rfl⟩ := hamong
  exact ⟨state, htext⟩

variable {existing candidate : QualificationRecord} {s t : QualificationState}
  {store : QualificationStore}

lemma checkTransition_eq_ok (hs : existing.qualificationState = some s.text)
    (ht : candidate.qualificationState = some t.text)
    (h : checkTransition existing candidate = .ok ()) : Declared s t := by
  unfold checkTransition QualificationRecord.isIn QualificationRecord.isAmong at h
  rw [hs, ht] at h
  cases s <;> cases t <;> first
    | exact .validate
    | exact .qualify
    | exact .enable
    | exact .disable
    | exact .supersede
    | exact absurd h (by decide)

/-! ## Writes -/

namespace QualificationStore

/-- One version of one row is written. -/
structure Wrote (store : QualificationStore) (row : QualificationRow)
    (store' : QualificationStore) : Prop where
  mem : row ∈ store'.rows
  rows : ∀ other ∈ store'.rows, other = row ∨ (other ∈ store.rows ∧ other.record.id ≠ row.record.id)
  kept : ∀ other ∈ store.rows, other.record.id ≠ row.record.id → other ∈ store'.rows
  ids : (store.rows.map (·.record.id)).Nodup → (store'.rows.map (·.record.id)).Nodup
  history : store'.history = store.history ++ [row.record]
  clock : store'.clock = store.clock

variable {store store' : QualificationStore} {db : QualificationDatabase}

variable {id : UUID} {row : QualificationRow} {candidate : QualificationRecord}

lemma find_eq_some (h : store.find id = some row) : row ∈ store.rows ∧ row.record.id = some id := by
  unfold find at h
  have hkey := List.find?_some h
  exact ⟨List.mem_of_find?_eq_some h, beq_iff_eq.1 hkey⟩

lemma find_eq_of_mem (hids : (store.rows.map (·.record.id)).Nodup) (hrow : row ∈ store.rows)
    (hid : row.record.id = some id) : store.find id = some row :=
  (KeyedTable.find?_eq_some hids fun _ h => beq_iff_eq.1 h).2 ⟨hrow, beq_iff_eq.2 hid⟩

/-- An insertion writes the candidate as a new row. -/
lemma insert_eq_ok (h : store.insert db candidate = .ok store') :
    ∃ row : QualificationRow, row.record = candidate ∧ store.Wrote row store' ∧
      ∀ other ∈ store.rows, other.record.id ≠ candidate.id := by
  unfold insert at h
  split at h
  · cases h
  split at h
  · rename_i hadmitted
    split at h
    · cases h
    · rename_i hunique
      rw [List.any_eq_true, not_exists] at hunique
      have hnew : ∀ other ∈ store.rows, other.record.id ≠ candidate.id := by
        intro other hother heq
        exact hunique other ⟨hother, by simp [heq]⟩
      obtain rfl := Except.ok.inj h
      refine ⟨⟨candidate, hadmitted⟩, rfl, ⟨?_, ?_, ?_, ?_, rfl, rfl⟩, hnew⟩
      · exact List.mem_append_right _ List.mem_cons_self
      · intro other hother
        rcases List.mem_append.1 hother with hold | hlast
        · exact .inr ⟨hold, hnew other hold⟩
        · exact .inl (List.mem_singleton.1 hlast)
      · exact fun other hother _ => List.mem_append_left _ hother
      · intro hnodup
        rw [List.map_append, List.map_singleton, List.nodup_append]
        refine ⟨hnodup, List.nodup_singleton _, ?_⟩
        rintro id hid id' hid' rfl
        obtain ⟨other, hother, rfl⟩ := List.mem_map.1 hid
        exact hnew other hother (List.mem_singleton.1 hid')
  · cases h

/-- An update writes the row on record with the candidate's columns. -/
lemma update_eq_ok {existing : QualificationRow} (hid : candidate.id = some id)
    (hfind : store.find id = some existing) (h : store.update candidate = .ok store') :
    ∃ row : QualificationRow, row.record = existing.record.update candidate ∧
      store.Wrote row store' := by
  unfold update at h
  have hfound : store.rows.find? (·.record.id == candidate.id) = some existing := by
    rw [hid]
    exact hfind
  rw [hfound] at h
  dsimp only at h
  split at h
  · rename_i hadmitted
    split at h
    · cases h
    · obtain rfl := Except.ok.inj h
      have hkey : existing.record.id = (existing.record.update candidate).id := rfl
      refine ⟨⟨existing.record.update candidate, hadmitted⟩, rfl, ⟨?_, ?_, ?_, ?_, rfl, rfl⟩⟩
      · exact KeyedTable.mem_put_self (find_eq_some hfind).1 hkey
      · exact fun other hother => KeyedTable.mem_put hother
      · exact fun other hother hne => KeyedTable.mem_put_of_ne hother hne
      · intro hnodup
        rw [KeyedTable.map_key_put]
        exact hnodup
  · cases h

/-! ## Calls one after the other -/

variable (db) in
/-- How the table answers a statement. -/
def answer (freshId : UUID) (store : QualificationStore) :
    (e : PublishEffect) → e.Answer × QualificationStore
  | .begin => (⟨store.clock, freshId, store.history.length⟩, store)
  | .findRow id => (store.find id, store)
  | .countReferences candidate now => ((store.references candidate now).length, store)
  | .otherActive candidate now => (store.otherActive candidate now, store)
  | .insertRow candidate =>
      match store.insert db candidate with
      | .ok store' => (.ok (), store')
      | .error code => (.error code, store)
  | .updateRow candidate =>
      match store.update candidate with
      | .ok store' => (.ok (), store')
      | .error code => (.error code, store)

/-- The states of a row in the order in which they were written. -/
def statesOf (store : QualificationStore) (id : Option UUID) : List (Option String) :=
  (store.history.filter (·.id == id)).map (·.qualificationState)

lemma Wrote.statesOf_self (h : store.Wrote row store') :
    store'.statesOf row.record.id =
      store.statesOf row.record.id ++ [row.record.qualificationState] := by
  simp [statesOf, h.history]

lemma Wrote.statesOf_of_ne (h : store.Wrote row store') {id : Option UUID}
    (hne : id ≠ row.record.id) : store'.statesOf id = store.statesOf id := by
  simp [statesOf, h.history, Ne.symm hne]

end QualificationStore

/-- A call, the time at which it begins and the identifier it draws. -/
structure PublishEvent where
  now : Instant
  freshId : UUID
  call : PublishCall

variable (db : QualificationDatabase)

/-- One call runs alone. -/
def publishStep (store : QualificationStore) (event : PublishEvent) : QualificationStore :=
  ((publish db event.call).execute (QualificationStore.answer db event.freshId)
    { store with clock := event.now }).2

/-- Calls on an empty table, one after the other. -/
def publishRun (events : List PublishEvent) : QualificationStore :=
  events.foldl (publishStep db) (.empty 0)

/-- A production qualification names the link to its evidence when it is qualified and its owner
when it is enabled. -/
def SuppliesEvidence (call : PublishCall) : Prop :=
  ∀ record, populateRecord db call.qualification = .ok record →
    record.environment = some "production" →
    (record.qualificationState = some QualificationState.nonproductionQualified.text →
      record.qualificationEvidenceUri ≠ none) ∧
    (record.qualificationState = some QualificationState.enabled.text →
      record.ownerAuthorizedBy ≠ none)

/-- The states that a row in the given state has gone through. -/
def declaredStates : QualificationState → List QualificationState
  | .discoveredUnreviewed => [.discoveredUnreviewed]
  | .schemaValidated => [.discoveredUnreviewed, .schemaValidated]
  | .nonproductionQualified =>
      [.discoveredUnreviewed, .schemaValidated, .nonproductionQualified]
  | .enabled => [.discoveredUnreviewed, .schemaValidated, .nonproductionQualified, .enabled]
  | .disabled =>
      [.discoveredUnreviewed, .schemaValidated, .nonproductionQualified, .enabled, .disabled]
  | .superseded =>
      [.discoveredUnreviewed, .schemaValidated, .nonproductionQualified, .enabled, .superseded]

lemma Declared.states (h : Declared s t) : declaredStates t = declaredStates s ++ [t] := by
  cases h <;> rfl

/-- Every enabled production row has a canary, a well-formed owner and a link to its evidence, and
was reached through the declared states. -/
def EnabledWithEvidence (store : QualificationStore) : Prop :=
  ∀ row ∈ store.rows, row.record.environment = some "production" →
    row.record.qualificationState = some QualificationState.enabled.text →
    row.record.productionCanaryAt.isSome = true ∧
      (∃ owner, row.record.ownerAuthorizedBy = some owner ∧ isIdentifier owner = true) ∧
      row.record.qualificationEvidenceUri.isSome = true ∧
      store.statesOf row.record.id =
        (declaredStates .enabled).map (fun state => some state.text)

/-! ## What the guards say -/

variable {db}

lemma checkInitialState_eq_ok {state : QualificationState}
    (hstate : candidate.qualificationState = some state.text)
    (h : checkInitialState candidate = .ok ()) : state = .discoveredUnreviewed := by
  rw [checkInitialState, raiseIf_eq_ok, Truth.isTrue_orAll_eq_false] at h
  have hne := h (Truth.ne candidate.qualificationState
    (some QualificationState.discoveredUnreviewed.text)) (by simp)
  rw [hstate, Truth.ne_some, Truth.isTrue_some, bne_eq_false_iff_eq] at hne
  exact QualificationState.text_injective hne

/-- Enabling keeps the link to the evidence. -/
lemma checkEvidenceIdentity_eq_ok (hexisting : existing.qualificationState =
      some QualificationState.nonproductionQualified.text)
    (hcandidate : candidate.qualificationState = some QualificationState.enabled.text)
    (h : checkEvidenceIdentity existing candidate = .ok ()) :
    candidate.qualificationEvidenceUri = existing.qualificationEvidenceUri := by
  rw [checkEvidenceIdentity, raiseIf_eq_ok, Truth.isTrue_and, Truth.isTrue_and,
    QualificationRecord.isIn, QualificationRecord.isIn, hexisting, hcandidate] at h
  have hsame : (Truth.orAll (evidenceDistinct candidate existing)).isTrue = false := by
    simpa using h
  rw [Truth.isTrue_orAll_eq_false] at hsame
  exact Truth.isTrue_isDistinct.1 (hsame _ (by simp [evidenceDistinct]))

/-- An enabled production candidate has a canary, and its owner is well formed where it has one. -/
lemma checkEnabled_eq_ok {now : Instant} (hproduction : candidate.environment = some "production")
    (h : checkEnabled candidate now = .ok ()) :
    candidate.productionCanaryAt.isSome = true ∧
      ∀ owner, candidate.ownerAuthorizedBy = some owner → isIdentifier owner = true := by
  simp only [checkEnabled, bind_eq_ok] at h
  obtain ⟨-, -, h⟩ := h
  split at h
  · cases h
  · rename_i hguard
    rw [Truth.isTrue_and, QualificationRecord.isProduction, hproduction, Truth.eq_some,
      Truth.isTrue_some, beq_self_eq_true, Bool.true_and, Bool.not_eq_true,
      Truth.isTrue_orAll_eq_false] at hguard
    constructor
    · obtain ⟨canary, hcanary⟩ := Truth.isTrue_isNull.1
        (hguard (Truth.isNull candidate.productionCanaryAt) (by simp))
      rw [hcanary]
      rfl
    · intro owner howner
      have hmatches := hguard (Truth.test isIdentifier candidate.ownerAuthorizedBy).not (by simp)
      rw [howner] at hmatches
      simpa [Truth.test] using hmatches

lemma environment_eq_of_version {r s : QualificationRecord} (h : r.version = s.version) :
    r.environment = s.environment := by
  simp only [QualificationRecord.version, Prod.mk.injEq, List.cons.injEq] at h
  exact h.1.2.1

/-! ## The invariant -/

/-- What a production record shows in its state. -/
structure RecordSupported (r : QualificationRecord) : Prop where
  uri : r.environment = some "production" →
    (r.qualificationState = some QualificationState.nonproductionQualified.text ∨
      r.qualificationState = some QualificationState.enabled.text) →
    r.qualificationEvidenceUri.isSome = true
  enabled : r.environment = some "production" →
    r.qualificationState = some QualificationState.enabled.text →
    r.productionCanaryAt.isSome = true ∧
      ∃ owner, r.ownerAuthorizedBy = some owner ∧ isIdentifier owner = true

/-- The rows have gone through the states before their own, and nothing else was written. -/
structure Tracked (store : QualificationStore) : Prop where
  ids : (store.rows.map (·.record.id)).Nodup
  known : ∀ r ∈ store.history, ∃ row ∈ store.rows, row.record.id = r.id
  states : ∀ row ∈ store.rows, ∀ state : QualificationState,
    row.record.qualificationState = some state.text →
    store.statesOf row.record.id = (declaredStates state).map (fun s => some s.text)

/-- The rows show what their states ask for, too. -/
structure Supported (store : QualificationStore) : Prop extends Tracked store where
  records : ∀ row ∈ store.rows, RecordSupported row.record

lemma tracked_empty (clock : Instant) : Tracked (.empty clock) where
  ids := List.nodup_nil
  known := List.forall_mem_nil _
  states := List.forall_mem_nil _

lemma supported_empty (clock : Instant) : Supported (.empty clock) where
  toTracked := tracked_empty clock
  records := List.forall_mem_nil _

lemma Supported.enabledWithEvidence (h : Supported store) : EnabledWithEvidence store := by
  intro row hrow hproduction henabled
  obtain ⟨hcanary, howner⟩ := (h.records row hrow).enabled hproduction henabled
  exact ⟨hcanary, howner, (h.records row hrow).uri hproduction (.inr henabled),
    h.states row hrow .enabled henabled⟩

section

variable {store store' : QualificationStore} {row : QualificationRow}

/-- A write keeps the states where the written one continues those of its row. -/
lemma Tracked.wrote (h : Tracked store) (hwrote : store.Wrote row store')
    (hstates : ∀ state : QualificationState, row.record.qualificationState = some state.text →
      store.statesOf row.record.id ++ [some state.text] =
        (declaredStates state).map (fun s => some s.text)) : Tracked store' where
  ids := hwrote.ids h.ids
  known r hr := by
    rw [hwrote.history, List.mem_append, List.mem_singleton] at hr
    rcases hr with hr | rfl
    · obtain ⟨other, hother, hid⟩ := h.known r hr
      by_cases heq : other.record.id = row.record.id
      · exact ⟨row, hwrote.mem, heq.symm.trans hid⟩
      · exact ⟨other, hwrote.kept other hother heq, hid⟩
    · exact ⟨row, hwrote.mem, rfl⟩
  states other hother state hstate := by
    rcases hwrote.rows other hother with rfl | ⟨hold, hne⟩
    · rw [hwrote.statesOf_self, hstate]
      exact hstates state hstate
    · rw [hwrote.statesOf_of_ne hne]
      exact h.states other hold state hstate

/-- A write keeps the records where the written one shows what its state asks for. -/
lemma Supported.wrote (h : Supported store) (hwrote : store.Wrote row store')
    (htracked : Tracked store') (hrecord : RecordSupported row.record) : Supported store' where
  toTracked := htracked
  records other hother := by
    rcases hwrote.rows other hother with rfl | ⟨hold, -⟩
    · exact hrecord
    · exact h.records other hold

variable {candidate : QualificationRecord} {id : UUID} {existing : QualificationRow}

/-- A new row starts in the first state. -/
lemma Tracked.inserted (h : Tracked store) (hinitial : checkInitialState candidate = .ok ())
    (hinsert : store.insert db candidate = .ok store') :
    ∃ row, store.Wrote row store' ∧ Tracked store' ∧
      ∀ state : QualificationState, row.record.qualificationState = some state.text →
        state = .discoveredUnreviewed := by
  obtain ⟨row, rfl, hwrote, hnew⟩ := QualificationStore.insert_eq_ok hinsert
  have hfirst : ∀ state : QualificationState, row.record.qualificationState = some state.text →
      state = .discoveredUnreviewed := fun state hstate =>
    checkInitialState_eq_ok hstate hinitial
  have hnone : store.statesOf row.record.id = [] := by
    rw [QualificationStore.statesOf, List.map_eq_nil_iff, List.filter_eq_nil_iff]
    intro r hr heq
    obtain ⟨other, hother, hid⟩ := h.known r hr
    exact hnew other hother (hid.trans (beq_iff_eq.1 heq))
  refine ⟨row, hwrote, h.wrote hwrote fun state hstate => ?_, hfirst⟩
  rw [hnone, hfirst state hstate]
  rfl

/-- An update goes on to a declared next state. -/
lemma Tracked.updated (h : Tracked store) (hid : candidate.id = some id)
    (hfind : store.find id = some existing)
    (htransition : checkTransition existing.record candidate = .ok ())
    (hupdate : store.update candidate = .ok store') :
    ∃ row before, row.record = existing.record.update candidate ∧ store.Wrote row store' ∧
      existing ∈ store.rows ∧ existing.record.qualificationState = some before.text ∧
      Tracked store' ∧ ∀ state : QualificationState,
        row.record.qualificationState = some state.text → Declared before state := by
  obtain ⟨row, hrow, hwrote⟩ := QualificationStore.update_eq_ok hid hfind hupdate
  obtain ⟨hmem, -⟩ := QualificationStore.find_eq_some hfind
  obtain ⟨before, hbefore⟩ := existing.exists_state
  have hdeclared : ∀ state : QualificationState,
      row.record.qualificationState = some state.text → Declared before state := by
    intro state hafter
    rw [hrow] at hafter
    exact checkTransition_eq_ok hbefore hafter htransition
  have hkey : row.record.id = existing.record.id := by rw [hrow]; rfl
  refine ⟨row, before, hrow, hwrote, hmem, hbefore, h.wrote hwrote fun state hafter => ?_,
    hdeclared⟩
  rw [hkey, h.states existing hmem before hbefore, (hdeclared state hafter).states,
    List.map_append, List.map_singleton]

lemma Supported.inserted (h : Supported store) (hinitial : checkInitialState candidate = .ok ())
    (hinsert : store.insert db candidate = .ok store') : Supported store' := by
  obtain ⟨row, hwrote, htracked, hfirst⟩ := h.toTracked.inserted hinitial hinsert
  refine h.wrote hwrote htracked ⟨fun _ hstate => ?_, fun _ hstate => ?_⟩
  · rcases hstate with hstate | hstate <;> cases hfirst _ hstate
  · cases hfirst _ hstate

/-- An update brings what its state asks for. -/
lemma Supported.updated {call : PublishCall} {now : Instant} (h : Supported store)
    (hsupplies : SuppliesEvidence db call) (hid : candidate.id = some id)
    (hfind : store.find id = some existing)
    (hguards : UpdateGuards db call now existing.record candidate)
    (hupdate : store.update candidate = .ok store') : Supported store' := by
  obtain ⟨row, before, hrow, hwrote, hmem, hbefore, htracked, hdeclared⟩ :=
    h.toTracked.updated hid hfind hguards.transition hupdate
  obtain ⟨record, hrecord, henvironment, hstate, huri, howner⟩ := hguards.payload
  have hexisting : existing.record.environment = candidate.environment :=
    (environment_eq_of_version hguards.version).symm
  refine h.wrote hwrote htracked ?_
  rw [hrow]
  constructor
  · intro hproduction hafter
    have hcandidate : candidate.environment = some "production" := hexisting ▸ hproduction
    have hpayload := hsupplies record hrecord (henvironment ▸ hcandidate)
    rcases hafter with hafter | hafter
    · have hne := hpayload.1 (hstate ▸ hafter)
      rw [← huri] at hne
      exact Option.isSome_iff_ne_none.2 hne
    · have hqualified : before = .nonproductionQualified := by
        cases hdeclared .enabled (by rw [hrow]; exact hafter)
        rfl
      subst hqualified
      have hsame := checkEvidenceIdentity_eq_ok hbefore hafter hguards.identity
      have hkept := (h.records existing hmem).uri hproduction (.inl hbefore)
      rw [← hsame] at hkept
      exact hkept
  · intro hproduction hafter
    have hcandidate : candidate.environment = some "production" := hexisting ▸ hproduction
    have henabled : (candidate.isIn .enabled).isTrue = true :=
      Truth.isTrue_eq.2 ⟨_, hafter, rfl⟩
    obtain ⟨hcanary, hmatches⟩ := checkEnabled_eq_ok hcandidate (hguards.enabled henabled)
    have hne := (hsupplies record hrecord (henvironment ▸ hcandidate)).2 (hstate ▸ hafter)
    rw [← howner] at hne
    obtain ⟨owner, heq⟩ := Option.ne_none_iff_exists'.1 hne
    exact ⟨hcanary, owner, heq, hmatches owner heq⟩

end

/-! ## Runs -/

/-- While a call has not written, the row it looked up is the one on record. -/
def Accurate (l : PublishLocal) (store : QualificationStore) : Prop :=
  l.wrote = false → ∀ id row, l.found = some (id, row) → store.find id = row

/-- A statement of a call that supplies its evidence keeps the invariant. -/
lemma Supported.answer {l : PublishLocal} (h : Supported store) (haccurate : Accurate l store)
    (freshId : UUID) {e : PublishEffect}
    (hallowed : (publishProtocol db (SuppliesEvidence db)).allowed l e) :
    Supported (store.answer db freshId e).2 ∧
      Accurate ((publishProtocol db (SuppliesEvidence db)).next l e
        (store.answer db freshId e).1) (store.answer db freshId e).2 := by
  obtain ⟨hwrote, hallowed⟩ := hallowed
  cases e with
  | begin => exact ⟨h, fun _ => haccurate hwrote⟩
  | findRow id =>
      refine ⟨h, ?_⟩
      rintro - id' row heq
      obtain ⟨rfl, rfl⟩ := Prod.mk.inj (Option.some.inj heq)
      rfl
  | countReferences candidate now => exact ⟨h, fun _ => haccurate hwrote⟩
  | otherActive candidate now =>
      refine ⟨h, ?_⟩
      simp only [publishProtocol, QualificationStore.answer]
      split
      · exact fun _ => haccurate hwrote
      · exact fun _ => haccurate hwrote
  | insertRow candidate =>
      obtain ⟨id, hid, hfound, hinitial⟩ := hallowed
      refine ⟨?_, fun h => absurd h (by simp [publishProtocol])⟩
      simp only [QualificationStore.answer]
      split
      · rename_i store' hinsert
        exact h.inserted hinitial hinsert
      · exact h
  | updateRow candidate =>
      obtain ⟨call, began, id, existing, hsupplies, -, hid, hfound, hguards, -⟩ := hallowed
      refine ⟨?_, fun h => absurd h (by simp [publishProtocol])⟩
      simp only [QualificationStore.answer]
      split
      · rename_i store' hupdate
        exact h.updated hsupplies hid (haccurate hwrote id _ hfound) hguards hupdate
      · exact h

/-- A call that supplies its evidence keeps the invariant. -/
lemma Supported.publishStep (h : Supported store) {event : PublishEvent}
    (hsupplies : SuppliesEvidence db event.call) : Supported (publishStep db store event) := by
  have hstart : Supported { store with clock := event.now } :=
    ⟨⟨h.ids, h.known, h.states⟩, h.records⟩
  have hkeeps : Keeps (publishProtocol db (SuppliesEvidence db)) (fun _ _ => True)
      (publish db event.call) (publishProtocol db (SuppliesEvidence db)).start :=
    keeps_publish hsupplies
  obtain ⟨l, hl, -⟩ := hkeeps.execute (I := fun l store => Supported store ∧ Accurate l store)
    (fun l store e hI hallowed => hI.1.answer hI.2 event.freshId hallowed)
    ⟨hstart, fun _ _ _ h => absurd h (by simp [publishProtocol])⟩
  exact hl.1

/-- In every sequence of calls that supply their evidence, the enabled production rows have all of
it. -/
theorem enabledWithEvidence_publishRun (db : QualificationDatabase) (events : List PublishEvent)
    (h : ∀ event ∈ events, SuppliesEvidence db event.call) :
    EnabledWithEvidence (publishRun db events) := by
  suffices hrun : ∀ store, Supported store → Supported (events.foldl (publishStep db) store) from
    (hrun _ (supported_empty 0)).enabledWithEvidence
  induction events with
  | nil => exact fun _ hstore => hstore
  | cons event events ih =>
      intro store hstore
      exact ih (fun e he => h e (List.mem_cons_of_mem _ he)) _
        (hstore.publishStep (h event List.mem_cons_self))

/-! ### Calls that pass -/

section

variable {store store' : QualificationStore} {call : PublishCall} {freshId id : UUID}

/-- The payload is an object with known keys. -/
def PublishCall.HasKnownKeys (call : PublishCall) : Prop :=
  ((Truth.ne (Jsonb.typeof call.qualification) (some "object")).or
    (some (((call.qualification.map Json.keys).getD []).any (· ∉ qualificationKeys)))).isTrue = false

/-- A payload with known keys, listed permissions and the hashes of what it says is prepared. -/
lemma prepareCandidate_of {now : Instant} {record : QualificationRecord} (hkeys : call.HasKnownKeys)
    (hrecord : populateRecord db call.qualification = .ok record) (hid : record.id = some id)
    (hpermissions : checkPermissions db (completed record id now) = .ok ())
    (hpaths : checkPublicPaths db (completed record id now) = .ok ())
    (hschema : record.schemaHash = some (expectedSchemaHash db (completed record id now)))
    (hversion : record.capabilityVersionSha256 =
      some (canonicalDigest db (versionPayload (completed record id now)))) :
    prepareCandidate db call now freshId = .ok (id, completed record id now) := by
  have hschema' := Truth.isTrue_isDistinct.2 hschema
  have hversion' := Truth.isTrue_isDistinct.2 hversion
  simp only [prepareCandidate, bind_eq_ok, pure_eq_ok, raiseIf_eq_ok]
  refine ⟨(), hkeys, record, hrecord, ?_⟩
  rw [hid, Option.getD_some]
  exact ⟨(), hpermissions, (), hpaths, (), hschema', (), hversion', rfl⟩

variable {α : Type} {candidate : QualificationRecord} {existing : QualificationRow}
  {rows : List QualificationRow} {history : List QualificationRecord} {clock : Instant}

lemma execute_run {e : PublishEffect} {f : e.Answer → PublishProgram α} :
    (run e >>= f).execute (QualificationStore.answer db freshId) store =
      (f (store.answer db freshId e).1).execute (QualificationStore.answer db freshId)
        (store.answer db freshId e).2 := rfl

lemma lift_bind {β : Type} {x : Except String α} {a : α} (h : x = .ok a) (f : α → PublishProgram β)
    : lift x >>= f = f a := by
  rw [h]
  rfl

/-- A new qualification comes to an insertion. -/
lemma execute_publishReads_insert
    (hprepare : prepareCandidate db call store.clock freshId = .ok (id, candidate))
    (hfind : store.find id = none) (hinitial : checkInitialState candidate = .ok ()) :
    (publishReads db call).execute (QualificationStore.answer db freshId) store =
      (.ok (id, .insert candidate), store) := by
  unfold publishReads
  rw [execute_run]
  simp only [QualificationStore.answer]
  rw [lift_bind hprepare]
  dsimp only
  rw [execute_run]
  simp only [QualificationStore.answer]
  rw [hfind]
  dsimp only
  rw [lift_bind hinitial]
  rfl

/-- A known one comes to an update. -/
lemma execute_publishReads_update {prepared : QualificationRecord}
    (hprepare : prepareCandidate db call store.clock freshId = .ok (id, prepared))
    (hfind : store.find id = some existing)
    (hcheck : checkUpdate db call existing.record prepared store.clock = .ok candidate)
    (hreferences : (publishReferences candidate store.clock).execute
      (QualificationStore.answer db freshId) store = (.ok (), store))
    (henabled : (publishEnabled candidate store.clock).execute
      (QualificationStore.answer db freshId) store = (.ok (), store)) :
    (publishReads db call).execute (QualificationStore.answer db freshId) store =
      (.ok (id, .update candidate), store) := by
  unfold publishReads
  rw [execute_run]
  simp only [QualificationStore.answer]
  rw [lift_bind hprepare]
  dsimp only
  rw [execute_run]
  simp only [QualificationStore.answer]
  rw [hfind]
  dsimp only
  rw [lift_bind hcheck, Program.execute_bind_ok hreferences, Program.execute_bind_ok henabled]
  rfl

/-- The row of an insertion that nothing forbids. -/
lemma insert_of (htrigger : QualificationStore.rejectsOpenCreate db candidate = false)
    (hadmitted : candidate.admitted = true) (hunique : (store.rows.any fun row =>
      row.record.id == candidate.id || (row.record.sameEvidence candidate).isTrue) = false) :
    store.insert db candidate = .ok { store with
      rows := store.rows ++ [⟨candidate, hadmitted⟩]
      history := store.history ++ [candidate] } := by
  unfold QualificationStore.insert
  rw [if_neg (by simp [htrigger]), dif_pos hadmitted, if_neg (by simp [hunique])]

/-- The rows after an update that nothing forbids. -/
lemma update_of (hfind : store.find id = some existing) (hid : candidate.id = some id)
    (hadmitted : (existing.record.update candidate).admitted = true)
    (hunique : (store.rows.any fun other => other.record.id != candidate.id &&
      (other.record.sameEvidence (existing.record.update candidate)).isTrue) = false) :
    store.update candidate = .ok { store with
      rows := KeyedTable.put (·.record.id) store.rows ⟨existing.record.update candidate, hadmitted⟩
      history := store.history ++ [existing.record.update candidate] } := by
  have hfound : store.rows.find? (·.record.id == candidate.id) = some existing := by
    rw [hid]
    exact hfind
  unfold QualificationStore.update
  rw [hfound]
  dsimp only
  rw [dif_pos hadmitted, if_neg (by simp [hunique])]

lemma publishStep_insert {now : Instant}
    (hreads : (publishReads db call).execute (QualificationStore.answer db freshId)
      ⟨rows, history, now⟩ = (.ok (id, .insert candidate), ⟨rows, history, now⟩))
    (hinsert : QualificationStore.insert ⟨rows, history, now⟩ db candidate = .ok store') :
    publishStep db ⟨rows, history, clock⟩ ⟨now, freshId, call⟩ = store' := by
  unfold publishStep publish
  rw [Program.execute_bind_ok hreads]
  dsimp only [publishWrite]
  rw [execute_run]
  simp only [QualificationStore.answer, hinsert]
  rfl

lemma publishStep_update {now : Instant}
    (hreads : (publishReads db call).execute (QualificationStore.answer db freshId)
      ⟨rows, history, now⟩ = (.ok (id, .update candidate), ⟨rows, history, now⟩))
    (hupdate : QualificationStore.update ⟨rows, history, now⟩ candidate = .ok store') :
    publishStep db ⟨rows, history, clock⟩ ⟨now, freshId, call⟩ = store' := by
  unfold publishStep publish
  rw [Program.execute_bind_ok hreads]
  dsimp only [publishWrite]
  rw [execute_run]
  simp only [QualificationStore.answer, hupdate]
  rfl

lemma checkUpdate_of {existing : QualificationRecord} {now : Instant}
    (hcreated : candidate.createdAt = existing.createdAt)
    (hversion : candidate.version = existing.version)
    (htransition : checkTransition existing candidate = .ok ())
    (hidentity : checkEvidenceIdentity existing candidate = .ok ())
    (hstate : checkState db call existing candidate now = .ok ()) :
    checkUpdate db call existing candidate now = .ok candidate := by
  have hsame : { candidate with createdAt := existing.createdAt } = candidate := by
    rw [← hcreated]
  have himmutable : checkImmutable call existing candidate = .ok candidate := by
    simp only [checkImmutable, bind_eq_ok, pure_eq_ok, raiseIf_eq_ok, hsame]
    refine ⟨(), ?_, (), ?_, trivial⟩
    · rw [Truth.isTrue_and, Truth.isTrue_isDistinct.2 hcreated, Bool.and_false]
    · rw [hversion, bne_self_eq_false, Truth.isTrue_some]
  simp only [checkUpdate, bind_eq_ok, pure_eq_ok]
  exact ⟨candidate, himmutable, (), htransition, (), hidentity, (), hstate, rfl⟩

end

/-! ### A capability in two environments -/

namespace ContactsList

def schemaHash : String := "c0ff62343e3b7cd0941d57f07fad24f5773da020922c82d953fe20ec7479a3fe"

def shapeHash : String := "f58940a313992e6838ac3fc1f2356916cf8b53c42920a3f59cabc510f1236ec9"

def company : String := "f168ccdd91548c5a8c871bd4b9b757c5e889a1672e774bddef4a2714759a7a8f"

def otherCompany : String := "600af14ebc231f63dfabf72a0b70d72f01e397ed4751d519b49b6506c78f29bf"

def sandboxVersion : String := "6b15f7ee569932a36d1cec71fa40f8bac6040eb0b0a6987adf63400c9e08834a"

def productionVersion : String := "47cd2dc291129f67590e08ffb4bf0510cee226094cf3952dc6925164d250ce84"

def sandboxRevision : String := "732c3f0ae3f86d6a7c006ad7a9c20b719efc4bbfe849b8f946ef7828b34b07d5"

def otherRevision : String := "3112e177a59ab29311b1f00cbe4fcefca671514aef9f67109e833cedb662171c"

def productionRevision : String := "372d1a41251a9f98a96601a3263bcbde29218534f94dbae7cad2035ac0b71caf"

/-- What does not change of the qualification. -/
def version (environment : String) : List (String × Json) :=
  [("provider", .str "peak"), ("environment", .str environment),
    ("provider_tool_name", .str "contacts_list"), ("normalized_capability", .str "contacts.list"),
    ("input_schema", .obj []), ("output_schema", .obj []), ("schema_hash", .str schemaHash),
    ("response_shape_hash", .str shapeHash),
    ("required_permissions", .arr [.str "contacts.read"]),
    ("public_output_field_paths", .arr [])]

/-- The artifact without its revision. -/
def unsealed (environment hash company : String) : List (String × Json) :=
  [("provider", .str "peak"), ("environment", .str environment), ("company_sha256", .str company),
    ("normalized_capability", .str "contacts.list"),
    ("provider_tool_name", .str "contacts_list"), ("capability_version_sha256", .str hash),
    ("schema_hash", .str schemaHash), ("response_shape_hash", .str shapeHash),
    ("evaluated_at", .str "2026-07-30T00:00:00Z"),
    ("evidence_expires_at", .str "2026-08-30T00:00:00Z"), ("passed", .bool true)]

/-- The hashes of the values that the calls below are about. -/
def hashes : List (IntegerJson × String) :=
  [(⟨.obj (unsealed "sandbox" sandboxVersion company), rfl, rfl⟩, sandboxRevision),
    (⟨.obj (unsealed "sandbox" sandboxVersion otherCompany), rfl, rfl⟩, otherRevision),
    (⟨.obj (unsealed "production" productionVersion company), rfl, rfl⟩, productionRevision),
    (⟨.obj (version "sandbox"), rfl, rfl⟩, sandboxVersion),
    (⟨.obj (version "production"), rfl, rfl⟩, productionVersion),
    (⟨.obj [("input_schema", .obj []), ("output_schema", .obj [])], rfl, rfl⟩, schemaHash)]

def database : QualificationDatabase where
  jsonbText := bareText
  digest text := ((hashes.map fun entry =>
    (mercuryCanonicalJsonb entry.1.value, entry.2)).lookup text).getD ""
  textLe := Collation.bytesLe
  aggregated texts := texts
  uuid text := [("00000000-0000-0000-0000-000000000001", 1),
    ("00000000-0000-0000-0000-000000000002", 2),
    ("00000000-0000-0000-0000-000000000003", 3)].lookup text
  timestamptz text := [("2026-07-30T00:00:00Z", 1785369600000000),
    ("2026-07-30T12:00:00Z", 1785412800000000),
    ("2026-08-30T00:00:00Z", 1788048000000000)].lookup text
  boolean text := [("true", true), ("false", false)].lookup text

/-- 31 July 2026. -/
def now : Instant := 1785456000000000

/-- The columns that a publisher sets for a state. -/
structure Evidence where
  company : Option String
  revision : Option String
  uri : Option String
  dates : Option (Instant × Instant)
  reference : Option (String × String)
  canary : Option Instant
  owner : Option String

def noEvidence : Evidence := ⟨none, none, none, none, none, none, none⟩

/-- The row of a qualification that is published at `now`. -/
def record (id : UUID) (environment hash : String) (state : QualificationState)
    (evidence : Evidence) : QualificationRecord where
  id := some id
  provider := some "peak"
  environment := some environment
  providerToolName := some "contacts_list"
  normalizedCapability := some "contacts.list"
  inputSchema := some (.obj [])
  outputSchema := some (.obj [])
  publicOutputFieldPaths := some (.arr [])
  schemaHash := some schemaHash
  responseShapeHash := some shapeHash
  requiredPermissions := some (.arr [.str "contacts.read"])
  capabilityVersionSha256 := some hash
  qualificationState := some state.text
  companySha256 := evidence.company
  evidenceRevisionSha256 := evidence.revision
  qualificationEvidenceUri := evidence.uri
  evidenceEvaluatedAt := evidence.dates.map (·.1)
  evidenceExpiresAt := evidence.dates.map (·.2)
  nonproductionEvidenceRevisionSha256 := evidence.reference.map (·.1)
  nonproductionCompanySha256 := evidence.reference.map (·.2)
  productionCanaryAt := evidence.canary
  ownerAuthorizedBy := evidence.owner
  disableReason := none
  createdAt := some now
  updatedAt := some now

/-! #### Hashes -/

lemma canonicalDigest_database {entry : IntegerJson × String} (h : entry ∈ hashes) :
    canonicalDigest database entry.1.value = entry.2 := by
  have hdistinct : hashes.Pairwise fun a b => ¬ Json.Same a.1.value b.1.value := by
    unfold hashes
    simp only [List.pairwise_cons, List.forall_mem_cons]
    refine ⟨⟨?_, ?_, ?_, ?_, ?_, ?_⟩, ⟨?_, ?_, ?_, ?_, ?_⟩, ⟨?_, ?_, ?_, ?_⟩, ⟨?_, ?_, ?_⟩,
      ⟨?_, ?_⟩, ?_, ?_⟩
    all_goals first
      | exact Json.not_same_of_lacksText (by decide +kernel)
      | exact fun _ h => nomatch h
      | exact List.Pairwise.nil
  unfold canonicalDigest database
  dsimp only
  rw [lookup_canonicalText hdistinct h, Option.getD_some]

lemma canonicalDigest_artifacts :
    canonicalDigest database (.obj (unsealed "sandbox" sandboxVersion company)) =
        sandboxRevision ∧
      canonicalDigest database (.obj (unsealed "sandbox" sandboxVersion otherCompany)) =
        otherRevision ∧
      canonicalDigest database (.obj (unsealed "production" productionVersion company)) =
        productionRevision := by
  have h : ∀ entry ∈ hashes, canonicalDigest database entry.1.value = entry.2 := fun _ =>
    canonicalDigest_database
  simp only [hashes, List.forall_mem_cons] at h
  exact ⟨h.1, h.2.1, h.2.2.1⟩

lemma canonicalDigest_versions :
    canonicalDigest database (.obj (version "sandbox")) = sandboxVersion ∧
      canonicalDigest database (.obj (version "production")) = productionVersion ∧
      canonicalDigest database (.obj [("input_schema", .obj []), ("output_schema", .obj [])]) =
        schemaHash := by
  have h : ∀ entry ∈ hashes, canonicalDigest database entry.1.value = entry.2 := fun _ =>
    canonicalDigest_database
  simp only [hashes, List.forall_mem_cons] at h
  exact ⟨h.2.2.2.1, h.2.2.2.2.1, h.2.2.2.2.2.1⟩

lemma isSha256_hashes : ∀ hash ∈ [schemaHash, shapeHash, company, otherCompany, sandboxVersion,
    productionVersion, sandboxRevision, otherRevision, productionRevision],
    isSha256 hash = true := by
  simp only [List.forall_mem_cons]
  exact ⟨isSha256_ofList (by decide), isSha256_ofList (by decide), isSha256_ofList (by decide),
    isSha256_ofList (by decide), isSha256_ofList (by decide), isSha256_ofList (by decide),
    isSha256_ofList (by decide), isSha256_ofList (by decide), isSha256_ofList (by decide),
    List.forall_mem_nil _⟩

/-! #### Calls -/

/-- The payload of a call. -/
def payload (id environment hash : String) (state : QualificationState)
    (evidence : List (String × Json)) : Json :=
  .obj ([("id", .str id), ("capability_version_sha256", .str hash),
    ("qualification_state", .str state.text)] ++ version environment ++ evidence)

def evidence (company revision : String) : List (String × Json) :=
  [("company_sha256", .str company), ("evidence_revision_sha256", .str revision),
    ("evidence_evaluated_at", .str "2026-07-30T00:00:00Z"),
    ("evidence_expires_at", .str "2026-08-30T00:00:00Z")]

def artifact (environment hash company revision : String) : Json :=
  .obj (("evidence_revision_sha256", .str revision) :: unsealed environment hash company)

def uri (hash revision : String) : String :=
  "catalog://global/peak/qualifications/" ++ hash ++ "-" ++ revision ++ ".json"

variable {call : PublishCall} {id : UUID} {environment hash revision : String}
  {state : QualificationState} {link owner : Option String} {reference : Option (String × String)}

/-- The payload has known keys and gives the columns of the row; the times are left out. -/
def Populates (call : PublishCall) (row : QualificationRecord) : Prop :=
  call.HasKnownKeys ∧ populateRecord database call.qualification =
    .ok { row with createdAt := none, updatedAt := none }

/-- The hash of the qualification in an environment that the table knows. -/
structure IsVersion (environment hash : String) : Prop where
  digest : canonicalDigest database (.obj (version environment)) = hash
  environment : isEnvironment environment = true
  sha : isSha256 hash = true

lemma isVersion_sandbox : IsVersion "sandbox" sandboxVersion :=
  ⟨canonicalDigest_versions.1, by decide +kernel, isSha256_hashes _ (by simp)⟩

lemma isVersion_production : IsVersion "production" productionVersion :=
  ⟨canonicalDigest_versions.2.1, by decide +kernel, isSha256_hashes _ (by simp)⟩

lemma prepareCandidate_record {call : PublishCall} {freshId id : UUID} {environment hash : String}
    {state : QualificationState} {evidence : Evidence}
    (hcall : Populates call (record id environment hash state evidence))
    (hversion : IsVersion environment hash) :
    prepareCandidate database call now freshId =
      .ok (id, record id environment hash state evidence) := by
  refine prepareCandidate_of hcall.1 hcall.2 rfl rfl rfl ?_ (congrArg some hversion.digest.symm)
  rw [expectedSchemaHash]
  exact congrArg some canonicalDigest_versions.2.2.symm

/-- The hashes of the evidence have their form. -/
def Evidence.Hashed (evidence : Evidence) : Prop :=
  ∀ hash, evidence.company = some hash ∨ evidence.revision = some hash ∨
    evidence.reference.map (·.1) = some hash ∨ evidence.reference.map (·.2) = some hash →
    isSha256 hash = true

lemma checkHolds_test {α : Type} {p : α → Bool} {x : Option α}
    (h : ∀ a, x = some a → p a = true) : checkHolds (Truth.test p x) = true := by
  cases x with
  | none => rfl
  | some a => rw [checkHolds, Truth.test, Option.map_some, h a rfl]; rfl

lemma admitted_record {evidence : Evidence} (hversion : IsVersion environment hash)
    (hevidence : evidence.Hashed) :
    (record id environment hash state evidence).admitted = true := by
  have htool : isIdentifier "contacts_list" = true := by decide +kernel
  have hcapability : isCapability "contacts.list" = true := by decide +kernel
  have hschema : isSha256 schemaHash = true := isSha256_hashes _ (by simp)
  have hshape : isSha256 shapeHash = true := isSha256_hashes _ (by simp)
  have hstate : checkHolds ((record id environment hash state evidence).isAmong
      QualificationState.all) = true := by
    cases state <;> rfl
  simp only [QualificationRecord.admitted, Bool.and_eq_true, List.all_cons, List.all_nil]
  refine ⟨by simp [record], rfl, checkHolds_test ?_, checkHolds_test ?_, checkHolds_test ?_, rfl,
    rfl, checkHolds_test ?_, checkHolds_test ?_, rfl, checkHolds_test ?_, hstate,
    checkHolds_test ?_, checkHolds_test ?_, checkHolds_test ?_, checkHolds_test ?_, rfl, trivial⟩
  · rintro _ ⟨⟩; exact hversion.environment
  · rintro _ ⟨⟩; exact htool
  · rintro _ ⟨⟩; exact hcapability
  · rintro _ ⟨⟩; exact hschema
  · rintro _ ⟨⟩; exact hshape
  · rintro _ ⟨⟩; exact hversion.sha
  · exact fun a ha => hevidence a (.inl ha)
  · exact fun a ha => hevidence a (.inr (.inl ha))
  · exact fun a ha => hevidence a (.inr (.inr (.inl ha)))
  · exact fun a ha => hevidence a (.inr (.inr (.inr ha)))

/-- What the sealed evidence of an artifact sets. -/
def sealed (company revision : String) (uri : Option String) (reference : Option (String × String))
    (canary : Option Instant) (owner : Option String) : Evidence :=
  ⟨some company, some revision, uri, some (1785369600000000, 1788048000000000), reference, canary,
    owner⟩

/-- Evidence passes with the artifact that it was read from; a missing link passes too. -/
lemma checkEvidence_record {payload : Option Json} {company : String} {canary : Option Instant}
    (hrevision : canonicalDigest database (.obj (unsealed environment hash company)) = revision)
    (hlink : link = none ∨ link = some (uri hash revision)) :
    checkEvidence database ⟨payload, some (artifact environment hash company revision)⟩
      (record id environment hash state (sealed company revision link reference canary owner))
      now = .ok () := by
  have hexpected : (withoutKey (some (artifact environment hash company revision))
      "evidence_revision_sha256").map (canonicalDigest database) = some revision :=
    congrArg some hrevision
  simp only [checkEvidence, bind_eq_ok, raiseIf_eq_ok, Truth.isTrue_orAll_eq_false,
    List.forall_mem_cons, hexpected, Truth.isTrue_isDistinct]
  refine ⟨(), ⟨rfl, rfl, rfl, ?_, rfl, rfl, rfl, rfl, fun _ h => nomatch h⟩, (),
    ⟨rfl, rfl, rfl, rfl, rfl, rfl, rfl, rfl, rfl, rfl, fun _ h => nomatch h⟩, ?_⟩
  · rcases hlink with rfl | rfl
    · rfl
    · have huri : evidenceUri (record id environment hash state
          (sealed company revision (some (uri hash revision)) reference canary owner)) =
          some (uri hash revision) := rfl
      rw [huri]
      simp [record, sealed]
  · exact ⟨some 1785369600000000, rfl, (), rfl, some 1788048000000000, rfl, (), rfl, some true, rfl,
      rfl⟩

/-- Enabling with the evidence of the qualification. -/
lemma checkEvidenceIdentity_record {company : String} {canary : Option Instant} :
    checkEvidenceIdentity
      (record id environment hash .nonproductionQualified
        (sealed company revision link reference none none))
      (record id environment hash .enabled
        (sealed company revision link reference canary owner)) = .ok () := by
  rw [checkEvidenceIdentity, raiseIf_eq_ok, Truth.isTrue_and, evidenceDistinct,
    Truth.isTrue_orAll_eq_false.2, Bool.and_false]
  simp only [List.forall_mem_cons, Truth.isTrue_isDistinct]
  exact ⟨rfl, rfl, rfl, rfl, rfl, rfl, rfl, List.forall_mem_nil _⟩

lemma sameEvidence_eq_false {r s : QualificationRecord}
    (h : ∀ revision, s.evidenceRevisionSha256 = some revision →
      r.evidenceRevisionSha256 ≠ some revision) : (r.sameEvidence s).isTrue = false := by
  rw [← Bool.not_eq_true]
  intro htrue
  rw [QualificationRecord.sameEvidence, Truth.isTrue_andAll, List.all_eq_true] at htrue
  obtain ⟨revision, hr, hs⟩ := Truth.isTrue_eq.1
    (htrue (Truth.eq r.evidenceRevisionSha256 s.evidenceRevisionSha256) (by simp))
  exact h revision hs hr

section

variable {rows : List QualificationRow} {id : UUID} {environment hash : String}
  {state state' : QualificationState} {before after : Evidence}

/-- A new qualification is inserted. -/
lemma publishStep_discovered (call : PublishCall) (history : List QualificationRecord)
    (clock : Instant) (hcall : Populates call (record id environment hash .discoveredUnreviewed
      noEvidence)) (hversion : IsVersion environment hash)
    (hnew : ∀ row ∈ rows, row.record.id ≠ some id) :
    ∃ history' row, row.record = record id environment hash .discoveredUnreviewed noEvidence ∧
      publishStep database ⟨rows, history, clock⟩ ⟨now, 0, call⟩ = ⟨rows ++ [row], history', now⟩ := by
  have hadmitted : (record id environment hash .discoveredUnreviewed noEvidence).admitted = true :=
    admitted_record hversion fun _ h => by simp [noEvidence] at h
  have htrigger : QualificationStore.rejectsOpenCreate database
      (record id environment hash .discoveredUnreviewed noEvidence) = false := by
    have hcapability : isCreateCapability "contacts.list" = false := by decide +kernel
    rw [QualificationStore.rejectsOpenCreate, Truth.isTrue_and]
    simp [record, Truth.test, hcapability]
  refine ⟨_, ⟨_, hadmitted⟩, rfl, publishStep_insert (execute_publishReads_insert
    (prepareCandidate_record hcall hversion) ?_ rfl) (insert_of htrigger hadmitted ?_)⟩
  · exact List.find?_eq_none.2 fun row hrow => by simpa using hnew row hrow
  · rw [List.any_eq_false]
    intro row hrow
    have hid : row.record.id ≠ (record id environment hash .discoveredUnreviewed noEvidence).id :=
      hnew row hrow
    have hsame : (row.record.sameEvidence
        (record id environment hash .discoveredUnreviewed noEvidence)).isTrue = false :=
      sameEvidence_eq_false fun _ h => absurd h (by simp [record, noEvidence])
    simp [hid, hsame]

variable {row : QualificationRow}

/-- A row is updated where its revision is a new one. -/
lemma exists_update (hrow : row.record = record id environment hash state before)
    (history : List QualificationRecord)
    (hfind : (⟨rows, history, now⟩ : QualificationStore).find id = some row)
    (hversion : IsVersion environment hash) (hevidence : after.Hashed)
    (hunique : ∀ other ∈ rows, other.record.id ≠ some id →
      (other.record.sameEvidence (record id environment hash state' after)).isTrue = false) :
    ∃ history' row', row'.record = record id environment hash state' after ∧
      QualificationStore.update ⟨rows, history, now⟩ (record id environment hash state' after) =
        .ok ⟨KeyedTable.put (·.record.id) rows row', history', now⟩ := by
  have hupdate : row.record.update (record id environment hash state' after) =
      record id environment hash state' after := by
    rw [hrow]
    rfl
  have hadmitted : (record id environment hash state' after).admitted = true :=
    admitted_record hversion hevidence
  refine ⟨_, ⟨row.record.update (record id environment hash state' after),
    hupdate ▸ hadmitted⟩, hupdate, update_of hfind rfl (hupdate ▸ hadmitted) ?_⟩
  rw [List.any_eq_false]
  intro other hother
  rw [hupdate]
  by_cases hid : other.record.id = some id
  · simp [hid, record]
  · simp [hunique other hother hid]

/-- The checks of an update pass. -/
lemma execute_publishReads_known {call : PublishCall} {history : List QualificationRecord}
    (hcall : Populates call (record id environment hash state' after))
    (hversion : IsVersion environment hash)
    (hrow : row.record = record id environment hash state before)
    (hfind : (⟨rows, history, now⟩ : QualificationStore).find id = some row)
    (hcheck : checkUpdate database call (record id environment hash state before)
      (record id environment hash state' after) now = .ok (record id environment hash state' after))
    (hreferences : (publishReferences (record id environment hash state' after) now).execute
      (QualificationStore.answer database 0) ⟨rows, history, now⟩ = (.ok (), ⟨rows, history, now⟩))
    (henabled : (publishEnabled (record id environment hash state' after) now).execute
      (QualificationStore.answer database 0) ⟨rows, history, now⟩ =
        (.ok (), ⟨rows, history, now⟩)) :
    (publishReads database call).execute (QualificationStore.answer database 0)
        ⟨rows, history, now⟩ =
      (.ok (id, .update (record id environment hash state' after)), ⟨rows, history, now⟩) :=
  execute_publishReads_update (prepareCandidate_record hcall hversion) hfind (hrow ▸ hcheck)
    hreferences henabled

lemma find_last (hnew : ∀ row ∈ rows, row.record.id ≠ some id) (hid : row.record.id = some id)
    (history : List QualificationRecord) (clock : Instant) :
    (⟨rows ++ [row], history, clock⟩ : QualificationStore).find id = some row := by
  have hnone : rows.find? (·.record.id == some id) = none :=
    List.find?_eq_none.2 fun other hother => by simpa using hnew other hother
  rw [QualificationStore.find, List.find?_append, hnone, Option.none_or]
  exact List.find?_cons_of_pos (by simp [hid])

/-- A known qualification, the last row of the table, is updated. -/
lemma publishStep_last {call : PublishCall} {history : List QualificationRecord} (clock : Instant)
    (hnew : ∀ row ∈ rows, row.record.id ≠ some id)
    (hrow : row.record = record id environment hash state before)
    (hversion : IsVersion environment hash)
    (hreads : (publishReads database call).execute (QualificationStore.answer database 0)
        ⟨rows ++ [row], history, now⟩ =
      (.ok (id, .update (record id environment hash state' after)), ⟨rows ++ [row], history, now⟩))
    (hevidence : after.Hashed) (hunique : ∀ other ∈ rows,
      (other.record.sameEvidence (record id environment hash state' after)).isTrue = false) :
    ∃ history' row', row'.record = record id environment hash state' after ∧
      publishStep database ⟨rows ++ [row], history, clock⟩ ⟨now, 0, call⟩ =
        ⟨rows ++ [row'], history', now⟩ := by
  have hid : row.record.id = some id := by rw [hrow]; rfl
  obtain ⟨history', row', hrow', hupdate⟩ := exists_update hrow history
    (find_last hnew hid history now) hversion hevidence (by
      intro other hother hne
      rcases List.mem_append.1 hother with hother | hlast
      · exact hunique other hother
      · obtain rfl := List.mem_singleton.1 hlast
        exact absurd hid hne)
  have hid' : row'.record.id = some id := by rw [hrow']; rfl
  have hput : KeyedTable.put (·.record.id) (rows ++ [row]) row' = rows ++ [row'] :=
    KeyedTable.put_concat (fun other hother => hid' ▸ hnew other hother) (hid.trans hid'.symm)
  rw [hput] at hupdate
  exact ⟨history', row', hrow', publishStep_update hreads hupdate⟩

end

/-! #### Payloads -/

def canaryAt : Instant := 1785412800000000

def canary : List (String × Json) := [("production_canary_at", .str "2026-07-30T12:00:00Z")]

def linked (hash revision : String) : List (String × Json) :=
  [("qualification_evidence_uri", .str (uri hash revision))]

def owned (owner : String) : List (String × Json) := [("owner_authorized_by", .str owner)]

/-- What a production qualification refers to. -/
def referring (revision company : String) : List (String × Json) :=
  [("nonproduction_evidence_revision_sha256", .str revision),
    ("nonproduction_company_sha256", .str company)]

/-- A call without evidence. -/
def validate (id environment hash : String) (state : QualificationState) : PublishCall :=
  ⟨some (payload id environment hash state []), none⟩

/-- A call with the artifact of its evidence. -/
def qualify (id environment hash company revision : String) (state : QualificationState)
    (rest : List (String × Json)) : PublishCall :=
  ⟨some (payload id environment hash state (evidence company revision ++ rest)),
    some (artifact environment hash company revision)⟩

section

variable {idText environment hash company revision : String} {id : UUID}
  {state : QualificationState}

lemma populates_validate (hid : database.uuid idText = some id) :
    Populates (validate idText environment hash state)
      (record id environment hash state noEvidence) := by
  have hcast : castText database.uuid (some idText) = .ok (some id) := by rw [castText, hid]
  have htext : textColumn database (validate idText environment hash state).qualification "id" =
      some idText := rfl
  refine ⟨rfl, ?_⟩
  unfold populateRecord
  rw [htext, hcast]
  rfl

/-- The sandbox qualification, before and after it is enabled. -/
lemma populates_sandbox (hid : database.uuid idText = some id) :
    Populates (qualify idText environment hash company revision state (linked hash revision))
      (record id environment hash state
        (sealed company revision (some (uri hash revision)) none none none)) := by
  have hcast : castText database.uuid (some idText) = .ok (some id) := by rw [castText, hid]
  have htext : textColumn database (qualify idText environment hash company revision state
      (linked hash revision)).qualification "id" = some idText := rfl
  refine ⟨rfl, ?_⟩
  unfold populateRecord
  rw [htext, hcast]
  rfl

end

/-! #### The runs -/

/-- The calls that qualify the capability in the sandbox. -/
def sandboxCalls (id company revision : String) : List PublishCall :=
  [validate id "sandbox" sandboxVersion .discoveredUnreviewed,
    validate id "sandbox" sandboxVersion .schemaValidated,
    qualify id "sandbox" sandboxVersion company revision .nonproductionQualified
      (linked sandboxVersion revision)]

def sandboxId : String := "00000000-0000-0000-0000-000000000001"

def productionId : String := "00000000-0000-0000-0000-000000000002"

def qualifyProduction (link : List (String × Json)) : PublishCall :=
  qualify productionId "production" productionVersion company productionRevision
    .nonproductionQualified (link ++ referring sandboxRevision company)

def enableProduction (link owner : List (String × Json)) : PublishCall :=
  qualify productionId "production" productionVersion company productionRevision .enabled
    (link ++ referring sandboxRevision company ++ owner ++ canary)

/-- The calls that enable it in production, with the given link and owner. -/
def productionCalls (link owner : List (String × Json)) : List PublishCall :=
  [validate productionId "production" productionVersion .discoveredUnreviewed,
    validate productionId "production" productionVersion .schemaValidated,
    qualifyProduction link, enableProduction link owner]

def events (calls : List PublishCall) : List PublishEvent :=
  calls.map fun call => ⟨now, 0, call⟩

/-- The calls of a publisher that names the link and the owner. -/
def complete : List PublishEvent :=
  events (sandboxCalls sandboxId company sandboxRevision ++
    productionCalls (linked productionVersion productionRevision) (owned "owner:finance"))

/-- The calls of one that leaves them out. -/
def bare : List PublishEvent :=
  events (sandboxCalls sandboxId company sandboxRevision ++ productionCalls [] [])

/-- A row of the sandbox that is qualified. -/
def qualified (id : UUID) (company revision : String) : QualificationRecord :=
  record id "sandbox" sandboxVersion .nonproductionQualified
    (sealed company revision (some (uri sandboxVersion revision)) none none none)

lemma hashed_sealed {company : String} {canary : Option Instant}
    (hcompany : isSha256 company = true) (hrevision : isSha256 revision = true)
    (hreference : ∀ pair, reference = some pair →
      isSha256 pair.1 = true ∧ isSha256 pair.2 = true) :
    (sealed company revision link reference canary owner).Hashed := by
  intro hash h
  rcases h with h | h | h | h
  · exact Option.some.inj h ▸ hcompany
  · exact Option.some.inj h ▸ hrevision
  · obtain ⟨pair, hpair, rfl⟩ := Option.map_eq_some_iff.1 h
    exact (hreference pair hpair).1
  · obtain ⟨pair, hpair, rfl⟩ := Option.map_eq_some_iff.1 h
    exact (hreference pair hpair).2

lemma hashed_noEvidence : noEvidence.Hashed := by
  intro hash h
  simp [noEvidence] at h

/-- The three calls of a sandbox qualification add its row, where its revision is a new one. -/
lemma exists_sandboxCalls {idText company : String} (hid : database.uuid idText = some id)
    (hrevision : canonicalDigest database (.obj (unsealed "sandbox" sandboxVersion company)) =
      revision) (hcompany : isSha256 company = true) (hsha : isSha256 revision = true)
    (rows : List QualificationRow) (history : List QualificationRecord) (clock : Instant)
    (hnew : ∀ row ∈ rows, row.record.id ≠ some id)
    (hother : ∀ row ∈ rows, row.record.evidenceRevisionSha256 ≠ some revision) :
    ∃ history' row, row.record = qualified id company revision ∧
      (events (sandboxCalls idText company revision)).foldl (publishStep database)
        ⟨rows, history, clock⟩ = ⟨rows ++ [row], history', now⟩ := by
  have hversion := isVersion_sandbox
  have hfind : ∀ {row : QualificationRow} {state evidence} (history : List QualificationRecord),
      row.record = record id "sandbox" sandboxVersion state evidence →
        (⟨rows ++ [row], history, now⟩ : QualificationStore).find id = some row :=
    fun history hrow => find_last hnew (by rw [hrow]; rfl) history now
  obtain ⟨history₁, row₁, hrow₁, hstep₁⟩ := publishStep_discovered
    (validate idText "sandbox" sandboxVersion .discoveredUnreviewed) history clock
    (populates_validate hid) hversion hnew
  have hvalidate : Populates (validate idText "sandbox" sandboxVersion .schemaValidated) _ :=
    populates_validate hid
  obtain ⟨history₂, row₂, hrow₂, hstep₂⟩ := publishStep_last now hnew hrow₁ hversion
    (execute_publishReads_known hvalidate hversion hrow₁ (hfind history₁ hrow₁)
      (checkUpdate_of rfl rfl rfl rfl rfl) rfl rfl) hashed_noEvidence
    (fun other _ => sameEvidence_eq_false fun _ h => nomatch h)
  have hqualify : Populates (qualify idText "sandbox" sandboxVersion company revision
      .nonproductionQualified (linked sandboxVersion revision)) _ := populates_sandbox hid
  obtain ⟨history₃, row₃, hrow₃, hstep₃⟩ := publishStep_last now hnew hrow₂ hversion
    (execute_publishReads_known hqualify hversion hrow₂ (hfind history₂ hrow₂)
      (checkUpdate_of rfl rfl rfl rfl (checkEvidence_record hrevision (.inr rfl))) rfl rfl)
    (hashed_sealed hcompany hsha (fun _ h => nomatch h))
    (fun other hmem => sameEvidence_eq_false fun _ h => Option.some.inj h ▸ hother other hmem)
  refine ⟨history₃, row₃, hrow₃, ?_⟩
  simp only [events, sandboxCalls, List.map_cons, List.map_nil, List.foldl_cons, List.foldl_nil]
  rw [hstep₁, hstep₂, hstep₃]

/-- The record of the capability in production. -/
def inProduction (state : QualificationState) (link : Option String) (canary : Option Instant)
    (owner : Option String) : QualificationRecord :=
  record 2 "production" productionVersion state
    (sealed company productionRevision link (some (sandboxRevision, company)) canary owner)

section

variable {sandboxRow row : QualificationRow} {history : List QualificationRecord}
  {state : QualificationState} {link : Option String} {canary : Option Instant}
  {owner : Option String}

/-- The sandbox row is what the production candidate refers to. -/
lemma references_inProduction
    (hsandbox : sandboxRow.record = qualified 1 company sandboxRevision)
    (hrow : row.record.environment = some "production") :
    (⟨[sandboxRow, row], history, now⟩ : QualificationStore).references
      (inProduction state link canary owner) now = [sandboxRow] := by
  unfold QualificationStore.references
  rw [List.filter_cons_of_pos, List.filter_cons_of_neg, List.filter_nil]
  · dsimp only
    rw [hrow]
    simp [Truth.isTrue_andAll]
  · dsimp only
    rw [hsandbox]
    rfl

/-- Nothing else is enabled in production. -/
lemma otherActive_inProduction (hsandbox : sandboxRow.record.environment = some "sandbox")
    (hrow : row.record.id = some 2) :
    (⟨[sandboxRow, row], history, now⟩ : QualificationStore).otherActive
      (inProduction state link canary owner) now = false := by
  simp [QualificationStore.otherActive, Truth.isTrue_andAll, hsandbox, hrow, inProduction, record]

lemma execute_publishReferences_inProduction
    (hsandbox : sandboxRow.record = qualified 1 company sandboxRevision)
    (hrow : row.record.environment = some "production")
    (hstate : state = .nonproductionQualified ∨ state = .enabled) :
    (publishReferences (inProduction state link canary owner) now).execute
      (QualificationStore.answer database 0) ⟨[sandboxRow, row], history, now⟩ =
        (.ok (), ⟨[sandboxRow, row], history, now⟩) := by
  have hnamed : raiseIf ((Truth.isNull (inProduction state link canary
        owner).nonproductionEvidenceRevisionSha256).or
      (Truth.isNull (inProduction state link canary owner).nonproductionCompanySha256))
      "mercury_provider_capability_nonproduction_evidence_required" = .ok () := rfl
  unfold publishReferences
  rw [if_pos (by rcases hstate with rfl | rfl <;> rfl), lift_bind hnamed, execute_run]
  simp only [QualificationStore.answer]
  rw [references_inProduction hsandbox hrow]
  rfl

lemma execute_publishEnabled_inProduction
    (hsandbox : sandboxRow.record.environment = some "sandbox") (hrow : row.record.id = some 2)
    (hchecks : checkEnabled (inProduction .enabled link canary owner) now = .ok ()) :
    (publishEnabled (inProduction .enabled link canary owner) now).execute
      (QualificationStore.answer database 0) ⟨[sandboxRow, row], history, now⟩ =
        (.ok (), ⟨[sandboxRow, row], history, now⟩) := by
  have henabled : ((inProduction .enabled link canary owner).isIn .enabled).isTrue = true := rfl
  unfold publishEnabled
  rw [if_pos henabled, lift_bind hchecks, execute_run]
  simp only [QualificationStore.answer]
  rw [otherActive_inProduction hsandbox hrow]
  rfl

/-- An enablement passes with a canary, and with a well-formed owner or with none at all. -/
lemma checkEnabled_inProduction
    (howner : ∀ name, owner = some name → isIdentifier name = true) :
    checkEnabled (inProduction .enabled link (some canaryAt) owner) now = .ok () := by
  have hread : isReadCapability "contacts.list" = true := by decide +kernel
  have hmatches : (Truth.test isIdentifier owner).not.isTrue = false := by
    cases owner with
    | none => rfl
    | some name => simp [Truth.test, howner name rfl]
  have hcanary : (Truth.test (now < ·) (some canaryAt)).isTrue = false := by decide +kernel
  have hguard : ((inProduction .enabled link (some canaryAt) owner).isProduction.and (Truth.orAll
      [Truth.isNull (some canaryAt), Truth.test (now < ·) (some canaryAt),
        (Truth.test isIdentifier owner).not])).isTrue = false := by
    rw [Truth.isTrue_and, Truth.isTrue_orAll_eq_false.2, Bool.and_false]
    simpa using ⟨hcanary, hmatches⟩
  simp only [checkEnabled, bind_eq_ok, raiseIf_eq_ok]
  refine ⟨(), ?_, ?_⟩
  · simp [inProduction, record, Truth.test, hread]
  · rw [if_neg]
    · rfl
    · exact Bool.not_eq_true _ ▸ hguard

/-- The calls that enable the capability in production end with its row enabled. -/
lemma exists_productionCalls {linkFields ownerFields : List (String × Json)}
    (hlink : link = none ∨ link = some (uri productionVersion productionRevision))
    (howner : ∀ name, owner = some name → isIdentifier name = true)
    (hqualify : Populates (qualifyProduction linkFields)
      (inProduction .nonproductionQualified link none none))
    (henable : Populates (enableProduction linkFields ownerFields)
      (inProduction .enabled link (some canaryAt) owner)) :
    ∃ row ∈ (publishRun database (events (sandboxCalls sandboxId company sandboxRevision ++
        productionCalls linkFields ownerFields))).rows,
      row.record = inProduction .enabled link (some canaryAt) owner := by
  have hversion := isVersion_production
  have hcompany := isSha256_hashes company (by simp)
  have hrevision := isSha256_hashes productionRevision (by simp)
  have hreferred := isSha256_hashes sandboxRevision (by simp)
  have hid : database.uuid productionId = some 2 := by rfl
  have hsandboxId : database.uuid sandboxId = some 1 := by rfl
  obtain ⟨history₀, sandboxRow, hsandbox, hstep₀⟩ := exists_sandboxCalls hsandboxId
    canonicalDigest_artifacts.1 hcompany hreferred [] [] 0 (List.forall_mem_nil _)
    (List.forall_mem_nil _)
  have hnew : ∀ row ∈ [sandboxRow], row.record.id ≠ some 2 := by
    intro row hrow
    rw [List.mem_singleton.1 hrow, hsandbox]
    decide
  have hother : ∀ row ∈ [sandboxRow],
      row.record.evidenceRevisionSha256 ≠ some productionRevision := by
    intro row hrow
    rw [List.mem_singleton.1 hrow, hsandbox]
    decide
  have hfind : ∀ {row : QualificationRow} {state evidence} (history : List QualificationRecord),
      row.record = record 2 "production" productionVersion state evidence →
        (⟨[sandboxRow] ++ [row], history, now⟩ : QualificationStore).find 2 = some row :=
    fun history hrow => find_last hnew (by rw [hrow]; rfl) history now
  obtain ⟨history₁, row₁, hrow₁, hstep₁⟩ := publishStep_discovered
    (validate productionId "production" productionVersion .discoveredUnreviewed) history₀ now
    (populates_validate hid) hversion hnew
  have hvalidate : Populates (validate productionId "production" productionVersion
      .schemaValidated) _ := populates_validate hid
  obtain ⟨history₂, row₂, hrow₂, hstep₂⟩ := publishStep_last now hnew hrow₁ hversion
    (execute_publishReads_known hvalidate hversion hrow₁ (hfind history₁ hrow₁)
      (checkUpdate_of rfl rfl rfl rfl rfl) rfl rfl) hashed_noEvidence
    (fun other _ => sameEvidence_eq_false fun _ h => nomatch h)
  have hevidence : ∀ canary owner, (sealed company productionRevision link
      (some (sandboxRevision, company)) canary owner).Hashed := fun canary owner =>
    hashed_sealed hcompany hrevision fun pair hpair => Option.some.inj hpair ▸
      ⟨hreferred, hcompany⟩
  have hunique : ∀ {state canary owner}, ∀ other ∈ [sandboxRow], (other.record.sameEvidence
      (inProduction state link canary owner)).isTrue = false := fun other hmem =>
    sameEvidence_eq_false fun _ h => Option.some.inj h ▸ hother other hmem
  obtain ⟨history₃, row₃, hrow₃, hstep₃⟩ := publishStep_last now hnew hrow₂ hversion
    (execute_publishReads_known hqualify hversion hrow₂ (hfind history₂ hrow₂)
      (checkUpdate_of rfl rfl rfl rfl
        (checkEvidence_record canonicalDigest_artifacts.2.2 hlink))
      (execute_publishReferences_inProduction hsandbox (by rw [hrow₂]; rfl) (.inl rfl)) rfl)
    (hevidence _ _) hunique
  obtain ⟨history₄, row₄, hrow₄, hstep₄⟩ := publishStep_last now hnew hrow₃ hversion
    (execute_publishReads_known henable hversion hrow₃ (hfind history₃ hrow₃)
      (checkUpdate_of rfl rfl rfl checkEvidenceIdentity_record
        (checkEvidence_record canonicalDigest_artifacts.2.2 hlink))
      (execute_publishReferences_inProduction hsandbox (by rw [hrow₃]; rfl) (.inr rfl))
      (execute_publishEnabled_inProduction (by rw [hsandbox]; rfl) (by rw [hrow₃]; rfl)
        (checkEnabled_inProduction howner)))
    (hevidence _ _) hunique
  have hrun : publishRun database (events (sandboxCalls sandboxId company sandboxRevision ++
      productionCalls linkFields ownerFields)) = ⟨[sandboxRow, row₄], history₄, now⟩ := by
    rw [events, List.nil_append] at hstep₀
    rw [publishRun, events, List.map_append, List.foldl_append, QualificationStore.empty, hstep₀,
      productionCalls]
    simp only [List.map_cons, List.map_nil, List.foldl_cons, List.foldl_nil]
    rw [hstep₁, hstep₂, hstep₃, hstep₄, List.singleton_append]
  refine ⟨row₄, ?_, hrow₄⟩
  rw [hrun]
  exact List.mem_cons_of_mem _ List.mem_cons_self

end

/-! #### The two publishers -/

lemma populates_qualifyProduction :
    Populates (qualifyProduction (linked productionVersion productionRevision))
      (inProduction .nonproductionQualified (some (uri productionVersion productionRevision)) none
        none) := ⟨rfl, rfl⟩

lemma populates_enableProduction :
    Populates (enableProduction (linked productionVersion productionRevision)
        (owned "owner:finance"))
      (inProduction .enabled (some (uri productionVersion productionRevision)) (some canaryAt)
        (some "owner:finance")) := ⟨rfl, rfl⟩

lemma exists_bare : ∃ row ∈ (publishRun database bare).rows,
    row.record = inProduction .enabled none (some canaryAt) none :=
  exists_productionCalls (.inl rfl) (by rintro _ ⟨⟩) ⟨rfl, rfl⟩ ⟨rfl, rfl⟩

/-- Without link and owner the capability is enabled in production all the same. -/
theorem not_enabledWithEvidence_bare : ¬ EnabledWithEvidence (publishRun database bare) := by
  intro h
  obtain ⟨row, hrow, hrecord⟩ := exists_bare
  have huri := (h row hrow (by rw [hrecord]; rfl) (by rw [hrecord]; rfl)).2.2.1
  rw [hrecord] at huri
  cases huri

/-- The publisher that names both. -/
lemma exists_complete : ∃ row ∈ (publishRun database complete).rows,
    row.record = inProduction .enabled (some (uri productionVersion productionRevision))
      (some canaryAt) (some "owner:finance") :=
  exists_productionCalls (.inr rfl) (by rintro _ ⟨⟩; decide +kernel) populates_qualifyProduction
    populates_enableProduction

/-- What a call that is populated with a record supplies. -/
lemma suppliesEvidence_of {evidence : Evidence}
    (hcall : Populates call (record id environment hash state evidence))
    (h : environment = "production" → (state = .nonproductionQualified → evidence.uri ≠ none) ∧
      (state = .enabled → evidence.owner ≠ none)) : SuppliesEvidence database call := by
  intro record' hrecord' hproduction
  obtain rfl := Except.ok.inj (hcall.2.symm.trans hrecord')
  obtain ⟨huri, howner⟩ := h (Option.some.inj hproduction)
  exact ⟨fun hstate => huri (QualificationState.text_injective (Option.some.inj hstate)),
    fun hstate => howner (QualificationState.text_injective (Option.some.inj hstate))⟩

lemma suppliesEvidence_complete : ∀ event ∈ complete, SuppliesEvidence database event.call := by
  have hid : database.uuid productionId = some 2 := by rfl
  have hsandboxId : database.uuid sandboxId = some 1 := by rfl
  have hsandbox : "sandbox" ≠ "production" := by decide
  rw [complete, events, List.forall_mem_map]
  simp only [sandboxCalls, productionCalls, List.forall_mem_cons, List.cons_append,
    List.nil_append]
  refine ⟨?_, ?_, ?_, ?_, ?_, ?_, ?_, List.forall_mem_nil _⟩
  · exact suppliesEvidence_of (populates_validate hsandboxId) fun h => absurd h hsandbox
  · exact suppliesEvidence_of (populates_validate hsandboxId) fun h => absurd h hsandbox
  · exact suppliesEvidence_of (populates_sandbox hsandboxId) fun h => absurd h hsandbox
  · exact suppliesEvidence_of (populates_validate hid) fun _ => ⟨nofun, nofun⟩
  · exact suppliesEvidence_of (populates_validate hid) fun _ => ⟨nofun, nofun⟩
  · exact suppliesEvidence_of populates_qualifyProduction fun _ => ⟨nofun, nofun⟩
  · exact suppliesEvidence_of populates_enableProduction fun _ => ⟨nofun, nofun⟩

/-- The publisher that names both. -/
theorem enabledWithEvidence_complete :
    (∃ row ∈ (publishRun database complete).rows,
      row.record.environment = some "production" ∧
        row.record.qualificationState = some QualificationState.enabled.text) ∧
      EnabledWithEvidence (publishRun database complete) := by
  refine ⟨?_, enabledWithEvidence_publishRun database complete suppliesEvidence_complete⟩
  obtain ⟨row, hrow, hrecord⟩ := exists_complete
  exact ⟨row, hrow, by rw [hrecord]; rfl, by rw [hrecord]; rfl⟩

end ContactsList

end MercuryTools.Catalog
