import MercuryTools.Catalog.QualificationPublish

/-!
# What a publishing call does

The protocol of one call: it begins, looks the row up, and writes once, where an update has passed
every guard of the source against the row it looked up, and an enablement has searched for another
active revision and found none.  Everything about runs is derived from this protocol.
-/

namespace MercuryTools.Catalog

open Checks Hosted Programs

variable (db : QualificationDatabase)

/-! ## The protocol -/

/-- The guards that a candidate has passed against the record it updates. -/
structure UpdateGuards (call : PublishCall) (now : Instant)
    (existing candidate : QualificationRecord) : Prop where
  payload : ∃ record, populateRecord db call.qualification = .ok record ∧
    candidate.environment = record.environment ∧
    candidate.qualificationState = record.qualificationState ∧
    candidate.qualificationEvidenceUri = record.qualificationEvidenceUri ∧
    candidate.ownerAuthorizedBy = record.ownerAuthorizedBy
  version : candidate.version = existing.version
  transition : checkTransition existing candidate = .ok ()
  identity : checkEvidenceIdentity existing candidate = .ok ()
  state : checkState db call existing candidate now = .ok ()
  enabled : (candidate.isIn .enabled).isTrue = true → checkEnabled candidate now = .ok ()

/-- Where a call is: what it began with, which row it looked up and found, for which candidate
it searched another active revision in vain, and whether it has written. -/
structure PublishLocal where
  began : Option Began
  found : Option (UUID × Option QualificationRow)
  cleared : Option (QualificationRecord × Instant)
  wrote : Bool

/-- The protocol of the calls that `Admits` holds of. -/
def publishProtocol (Admits : PublishCall → Prop) :
    Protocol PublishEffect PublishEffect.Answer PublishLocal where
  start := ⟨none, none, none, false⟩
  allowed l e := l.wrote = false ∧
    match e with
    | .begin => l.began = none ∧ l.found = none
    | .findRow _ => l.began.isSome ∧ l.cleared = none
    | .countReferences _ _ => True
    | .otherActive _ now => ∃ began, l.began = some began ∧ began.now = now
    | .insertRow candidate => ∃ id, candidate.id = some id ∧ l.found = some (id, none) ∧
        checkInitialState candidate = .ok ()
    | .updateRow candidate => ∃ call began id existing, Admits call ∧ l.began = some began ∧
        candidate.id = some id ∧ l.found = some (id, some existing) ∧
        UpdateGuards db call began.now existing.record candidate ∧
        ((candidate.isIn .enabled).isTrue = true → l.cleared = some (candidate, began.now))
  next l
    | .begin, began => { l with began := some began }
    | .findRow id, row => { l with found := some (id, row) }
    | .countReferences _ _, _ => l
    | .otherActive candidate now, active =>
        if active then l else { l with cleared := some (candidate, now) }
    | .insertRow _, _ => { l with wrote := true }
    | .updateRow _, _ => { l with wrote := true }

variable {db} {Admits : PublishCall → Prop}

/-! ## Every call keeps to it -/

section

variable {α β : Type} {Q : PublishLocal → Option β → Prop} {l : PublishLocal}

lemma keeps_run {e : PublishEffect} {f : e.Answer → PublishProgram β} :
    Keeps (publishProtocol db Admits) Q (run e >>= f) l ↔
      (publishProtocol db Admits).allowed l e ∧
        ∀ a, Keeps (publishProtocol db Admits) Q (f a) ((publishProtocol db Admits).next l e a) :=
  Iff.rfl

variable {x : Except String α}

lemma keeps_lift {f : α → PublishProgram β} (hfail : Q l none)
    (h : ∀ a, x = .ok a → Keeps (publishProtocol db Admits) Q (f a) l) :
    Keeps (publishProtocol db Admits) Q (lift x >>= f) l := by
  cases x with
  | ok a => exact h a rfl
  | error code => exact hfail

lemma keeps_lift_done {Q : PublishLocal → Option α → Prop} (hfail : Q l none)
    (h : ∀ a, x = .ok a → Q l (some a)) : Keeps (publishProtocol db Admits) Q (lift x) l := by
  cases x with
  | ok a => exact h a rfl
  | error code => exact hfail

end

variable {l : PublishLocal} {call : PublishCall} {now : Instant} {candidate : QualificationRecord}

/-- Reading the supporting evidence leaves a call where it is. -/
lemma keeps_publishReferences (candidate : QualificationRecord) (now : Instant)
    (hwrote : l.wrote = false) :
    Keeps (publishProtocol db Admits) (fun l' _ => l' = l) (publishReferences candidate now) l := by
  unfold publishReferences
  split
  · refine keeps_lift rfl fun _ _ => ?_
    refine keeps_run.2 ⟨⟨hwrote, trivial⟩, fun count => ?_⟩
    exact keeps_lift_done rfl fun _ _ => rfl
  · exact keeps_lift_done rfl fun _ _ => rfl

/-- A candidate that is enabled has passed the checks, and no other revision was active. -/
lemma keeps_publishEnabled (candidate : QualificationRecord) {began : Began}
    (hwrote : l.wrote = false) (hbegan : l.began = some began) :
    Keeps (publishProtocol db Admits)
      (fun l' r => l'.wrote = false ∧ l'.began = l.began ∧ l'.found = l.found ∧
        (r = some () → (candidate.isIn .enabled).isTrue = true →
          checkEnabled candidate began.now = .ok () ∧ l'.cleared = some (candidate, began.now)))
      (publishEnabled candidate began.now) l := by
  unfold publishEnabled
  split
  · refine keeps_lift ⟨hwrote, rfl, rfl, fun h => nomatch h⟩ fun _ hchecks => ?_
    refine keeps_run.2 ⟨⟨hwrote, began, hbegan, rfl⟩, fun active => ?_⟩
    cases active with
    | true => exact ⟨hwrote, rfl, rfl, fun h => nomatch h⟩
    | false => exact ⟨hwrote, rfl, rfl, fun _ _ => ⟨hchecks, rfl⟩⟩
  · rename_i hnot
    exact ⟨hwrote, rfl, rfl, fun _ h => absurd h hnot⟩

lemma prepareCandidate_eq_ok {freshId id : UUID}
    (h : prepareCandidate db call now freshId = .ok (id, candidate)) :
    candidate.id = some id ∧ ∃ record, populateRecord db call.qualification = .ok record ∧
      candidate = completed record id now := by
  simp only [prepareCandidate, bind_eq_ok, pure_eq_ok, Prod.mk.injEq] at h
  obtain ⟨-, -, record, hrecord, -, -, -, -, -, -, -, -, rfl, rfl⟩ := h
  exact ⟨rfl, record, hrecord, rfl⟩

lemma checkUpdate_eq_ok {existing updated : QualificationRecord}
    (h : checkUpdate db call existing candidate now = .ok updated) :
    updated = { candidate with createdAt := existing.createdAt } ∧
      updated.version = existing.version ∧ checkTransition existing updated = .ok () ∧
      checkEvidenceIdentity existing updated = .ok () ∧
      checkState db call existing updated now = .ok () := by
  simp only [checkUpdate, checkImmutable, bind_eq_ok, pure_eq_ok, raiseIf_eq_ok] at h
  obtain ⟨_, ⟨-, -, -, hversion, rfl⟩, ⟨⟩, htransition, ⟨⟩, hidentity, ⟨⟩, hstate, rfl⟩ := h
  refine ⟨rfl, ?_, htransition, hidentity, hstate⟩
  simpa using hversion

/-- A call whose payload is admitted reads as the protocol allows, and comes to a write that it
allows. -/
lemma keeps_publishReads (hadmits : Admits call) :
    Keeps (publishProtocol db Admits)
      (fun l r => ∀ result, r = some result →
        (publishProtocol db Admits).allowed l result.2.effect)
      (publishReads db call) (publishProtocol db Admits).start := by
  unfold publishReads
  refine keeps_run.2 ⟨⟨rfl, rfl, rfl⟩, fun began => ?_⟩
  refine keeps_lift (fun _ h => nomatch h) ?_
  rintro ⟨id, candidate⟩ hprepare
  obtain ⟨hid, record, hrecord, hcandidate⟩ := prepareCandidate_eq_ok hprepare
  refine keeps_run.2 ⟨⟨rfl, rfl, rfl⟩, fun row => ?_⟩
  cases row with
  | none =>
      refine keeps_lift (fun _ h => nomatch h) fun _ hinitial => ?_
      rintro result heq
      obtain rfl := Option.some.inj heq
      exact ⟨rfl, id, hid, rfl, hinitial⟩
  | some existing =>
      refine keeps_lift (fun _ h => nomatch h) fun updated hupdate => ?_
      obtain ⟨hupdated, hversion, htransition, hidentity, hstate⟩ := checkUpdate_eq_ok hupdate
      refine (keeps_publishReferences updated began.now rfl).bind ?_ fun _ _ _ h => nomatch h
      rintro l _ rfl
      refine (keeps_publishEnabled updated rfl rfl).bind ?_ fun _ _ _ h => nomatch h
      rintro l _ ⟨hwrote, hbegan, hfound, hcleared⟩ result heq
      obtain rfl := Option.some.inj heq
      have henabled := hcleared rfl
      refine ⟨hwrote, call, began, id, existing, hadmits, hbegan, ?_, hfound, ?_,
        fun h => (henabled h).2⟩
      · rw [hupdated]
        exact hid
      · refine ⟨⟨record, hrecord, ?_⟩, hversion, htransition, hidentity, hstate,
          fun h => (henabled h).1⟩
        rw [hupdated, hcandidate]
        exact ⟨rfl, rfl, rfl, rfl⟩

/-- A call whose payload is admitted keeps to the protocol. -/
theorem keeps_publish (hadmits : Admits call) :
    Keeps (publishProtocol db Admits) (fun _ _ => True) (publish db call)
      (publishProtocol db Admits).start := by
  refine (keeps_publishReads hadmits).bind ?_ fun _ _ => trivial
  rintro l ⟨id, write⟩ hallowed
  cases write with
  | insert candidate =>
      exact keeps_run.2 ⟨hallowed _ rfl, fun _ => keeps_lift trivial fun _ _ => trivial⟩
  | update candidate =>
      exact keeps_run.2 ⟨hallowed _ rfl, fun _ => keeps_lift trivial fun _ _ => trivial⟩

end MercuryTools.Catalog
