import MercuryTools.Catalog.QualificationRuns

/-!
# Publishing calls side by side

Any number of calls work on the table.  Each statement sees what has been committed, and no call
locks what it reads, so that the row a call updates may not be the one it has checked, and another
revision may have been enabled since it searched for one.

Where neither happens, at most one revision of a version is enabled and current, and no row leaves
its last state.  Two calls that enable two revisions at the same time show that it does happen.
-/

namespace MercuryTools.Catalog

open Checks Hosted Programs

variable (db : QualificationDatabase)

/-! ## The rules -/

/-- Calls of the function in any number, while the clock goes on. -/
def publishRules : Rules QualificationStore PublishEffect PublishEffect.Answer UUID where
  happens store e a store' := ∃ freshId, (a, store') = store.answer db freshId e
  entry program := ∃ call, program = publish db call
  outside store store' := ∃ now, store.clock ≤ now ∧ store' = { store with clock := now }

abbrev PublishPool : Type :=
  Pool QualificationStore PublishEffect PublishEffect.Answer UUID

abbrev PublishTask : Type :=
  Task PublishEffect PublishEffect.Answer UUID

/-- Where a call is. -/
def localOf (task : PublishTask) : PublishLocal :=
  (publishProtocol db fun _ => True).after task.log

/-- An empty table without calls. -/
def PublishPool.initial (clock : Instant) : PublishPool :=
  ⟨.empty clock, []⟩

/-! ## What is to hold -/

namespace QualificationRecord

def Enabled (r : QualificationRecord) : Prop :=
  r.qualificationState = some QualificationState.enabled.text

/-- The evidence has been evaluated and has not expired. -/
def CurrentAt (r : QualificationRecord) (t : Instant) : Prop :=
  ∃ evaluated expires, r.evidenceEvaluatedAt = some evaluated ∧
    r.evidenceExpiresAt = some expires ∧ evaluated ≤ t ∧ t < expires

/-- The evidence was evaluated by `t`. -/
def EvaluatedBy (r : QualificationRecord) (t : Instant) : Prop :=
  ∃ evaluated, r.evidenceEvaluatedAt = some evaluated ∧ evaluated ≤ t

def ExpiredBy (r : QualificationRecord) (t : Instant) : Prop :=
  ∀ expires, r.evidenceExpiresAt = some expires → expires ≤ t

variable {r : QualificationRecord} {s t : Instant}

lemma EvaluatedBy.mono (h : r.EvaluatedBy s) (hle : s ≤ t) : r.EvaluatedBy t := by
  obtain ⟨evaluated, heq, hevaluated⟩ := h
  exact ⟨evaluated, heq, hevaluated.trans hle⟩

lemma ExpiredBy.mono (h : r.ExpiredBy s) (hle : s ≤ t) : r.ExpiredBy t :=
  fun expires heq => (h expires heq).trans hle

lemma ExpiredBy.not_currentAt (h : r.ExpiredBy t) : ¬ r.CurrentAt t := by
  rintro ⟨evaluated, expires, -, heq, -, hlt⟩
  exact absurd (h expires heq) (not_le.2 hlt)

/-- Another enabled row of the same version. -/
structure Rivals (r s : QualificationRecord) : Prop where
  left : r.Enabled
  right : s.Enabled
  version : r.capabilityVersion = s.capabilityVersion
  ne : r.id ≠ s.id

lemma Rivals.symm {r s : QualificationRecord} (h : r.Rivals s) : s.Rivals r :=
  ⟨h.right, h.left, h.version.symm, h.ne.symm⟩

end QualificationRecord

/-- At most one revision of a version is enabled and current. -/
def Unambiguous (store : QualificationStore) : Prop :=
  ∀ row ∈ store.rows, ∀ other ∈ store.rows, row.record.Enabled → other.record.Enabled →
    row.record.capabilityVersion = other.record.capabilityVersion →
    row.record.CurrentAt store.clock → other.record.CurrentAt store.clock → row = other

/-- No row is enabled after it has been disabled or superseded. -/
def NeverReenabled (store : QualificationStore) : Prop :=
  ∀ id before after, store.statesOf id = before ++ after →
    (some QualificationState.disabled.text ∈ before ∨
      some QualificationState.superseded.text ∈ before) →
    some QualificationState.enabled.text ∉ after

/-! ## Updates that are not stale -/

/-- The row that a call looked up is still the one on record, and the other revisions of a version
that it enables had been enabled before it began. -/
structure Fresh (store : QualificationStore) (l : PublishLocal) (candidate : QualificationRecord) :
    Prop where
  found : ∀ id row, l.found = some (id, row) → store.find id = row
  enabled : ∀ began, l.began = some began → ∀ row ∈ store.rows, row.record.Rivals candidate →
    row.record ∈ store.history.take began.mark

/-- The call that goes on from `p` to `p'` does not update on stale grounds. -/
def Undisturbed (p p' : PublishPool) : Prop :=
  ∀ (i : Nat) (task : PublishTask) (candidate : QualificationRecord)
    (next : Except String Unit → PublishProgram UUID),
    p.tasks[i]? = some task → p'.tasks[i]? ≠ some task →
    task.rest = .perform (.updateRow candidate) next → Fresh p.shared (localOf db task) candidate

/-- Runs of any calls. -/
def PublishReachable (clock : Instant) (p : PublishPool) : Prop :=
  Relation.ReflTransGen (Pool.Step (publishRules db)) (PublishPool.initial clock) p

/-- Runs in which no call updates on stale grounds. -/
def ReachableUndisturbed (clock : Instant) (p : PublishPool) : Prop :=
  Relation.ReflTransGen (fun p p' => Pool.Step (publishRules db) p p' ∧ Undisturbed db p p')
    (PublishPool.initial clock) p

/-! ## The invariant -/

variable {db}

namespace QualificationStore

variable {store store' : QualificationStore}

lemma mem_statesOf {r : QualificationRecord} (h : r ∈ store.history) :
    r.qualificationState ∈ store.statesOf r.id := by
  unfold statesOf
  exact List.mem_map.2 ⟨r, List.mem_filter.2 ⟨h, by simp⟩, rfl⟩

/-- The search for another active revision sees the rivals that are evaluated and not expired. -/
lemma expiredBy_of_otherActive {candidate : QualificationRecord} {now : Instant}
    (h : store.otherActive candidate now = false) {row : QualificationRow}
    (hrow : row ∈ store.rows) (hrivals : row.record.Rivals candidate)
    (hid : candidate.id.isSome = true) (hevaluated : row.record.EvaluatedBy now) :
    row.record.ExpiredBy now := by
  intro expires hexpires
  by_contra hlt
  rw [not_le] at hlt
  unfold otherActive at h
  rw [List.any_eq_false] at h
  apply h row hrow
  have hadmitted := row.admitted
  simp only [QualificationRecord.admitted, Bool.and_eq_true] at hadmitted
  obtain ⟨⟨⟨⟨⟨⟨⟨⟨⟨⟨⟨⟨⟨⟨hrowId, hprovider⟩, henvironment⟩, htool⟩, hcapability⟩, -⟩, -⟩, -⟩, -⟩, -⟩,
    hsha⟩, -⟩, -⟩, -⟩, -⟩ := hadmitted
  obtain ⟨evaluated, heq, hle⟩ := hevaluated
  have hversion := hrivals.version
  simp only [QualificationRecord.capabilityVersion, List.cons.injEq] at hversion
  obtain ⟨hprovider', henvironment', htool', hcapability', hsha', -⟩ := hversion
  simp only [Truth.isTrue_andAll, List.all_eq_true, List.forall_mem_cons]
  refine ⟨Truth.isTrue_ne_of_ne hrowId hid hrivals.ne, Truth.isTrue_eq_of_eq hprovider hprovider',
    Truth.isTrue_eq_of_eq henvironment henvironment', Truth.isTrue_eq_of_eq htool htool',
    Truth.isTrue_eq_of_eq hcapability hcapability', Truth.isTrue_eq_of_eq hsha hsha',
    Truth.isTrue_eq.2 ⟨_, hrivals.left, rfl⟩, ?_, ?_, List.forall_mem_nil _⟩
  · rw [heq]
    simpa [Truth.test] using hle
  · rw [hexpires]
    simpa [Truth.test] using hlt

end QualificationStore

/-- What holds of the table.  Of two enabled revisions of a version, one has expired. -/
structure RaceInvariant (store : QualificationStore) : Prop where
  tracked : Tracked store
  evaluated : ∀ r ∈ store.history, r.Enabled → r.EvaluatedBy store.clock
  exclusive : ∀ row ∈ store.rows, ∀ other ∈ store.rows, row.record.Rivals other.record →
    row.record.ExpiredBy store.clock ∨ other.record.ExpiredBy store.clock

/-- What a call knows: the revisions that were enabled before it began had been evaluated, and,
once it has searched for another active one in vain, the rivals among them have expired. -/
structure Guarded (l : PublishLocal) (store : QualificationStore) : Prop where
  began : ∀ began, l.began = some began → began.now ≤ store.clock ∧
    began.mark ≤ store.history.length ∧
    ∀ r ∈ store.history.take began.mark, r.Enabled → r.EvaluatedBy began.now
  cleared : ∀ candidate now, l.cleared = some (candidate, now) →
    ∃ began, l.began = some began ∧ began.now = now ∧ (candidate.id.isSome = true →
      ∀ row ∈ store.rows, row.record.Rivals candidate →
        row.record ∈ store.history.take began.mark → row.record.ExpiredBy now)

lemma raceInvariant_empty (clock : Instant) : RaceInvariant (.empty clock) where
  tracked := tracked_empty clock
  evaluated := List.forall_mem_nil _
  exclusive := List.forall_mem_nil _

lemma guarded_start (store : QualificationStore) :
    Guarded (publishProtocol db fun _ => True).start store where
  began _ h := by cases h
  cleared _ _ h := by cases h

section

variable {store store' : QualificationStore} {row : QualificationRow}

/-- A write of a row that was not enabled before. -/
lemma RaceInvariant.wrote (h : RaceInvariant store) (hwrote : store.Wrote row store')
    (htracked : Tracked store')
    (hnew : row.record.Enabled → row.record.EvaluatedBy store.clock ∧
      ∀ other ∈ store.rows, other.record.Rivals row.record →
        other.record.ExpiredBy store.clock) : RaceInvariant store' where
  tracked := htracked
  evaluated r hr henabled := by
    rw [hwrote.history, List.mem_append, List.mem_singleton] at hr
    rw [hwrote.clock]
    rcases hr with hr | rfl
    · exact h.evaluated r hr henabled
    · exact (hnew henabled).1
  exclusive first hfirst second hsecond hrivals := by
    rw [hwrote.clock]
    rcases hwrote.rows first hfirst with rfl | ⟨hfirst, -⟩
    · rcases hwrote.rows second hsecond with rfl | ⟨hsecond, -⟩
      · exact absurd rfl hrivals.ne
      · exact .inr ((hnew hrivals.left).2 second hsecond hrivals.symm)
    · rcases hwrote.rows second hsecond with rfl | ⟨hsecond, -⟩
      · exact .inl ((hnew hrivals.right).2 first hfirst hrivals)
      · exact h.exclusive first hfirst second hsecond hrivals

/-- Such a write is not among those that a call knows of. -/
lemma Guarded.wrote {l : PublishLocal} (h : Guarded l store) (hwrote : store.Wrote row store')
    (hfirst : row.record.Enabled →
      some QualificationState.enabled.text ∉ store.statesOf row.record.id) : Guarded l store' where
  began began hbegan := by
    obtain ⟨hnow, hmark, hevaluated⟩ := h.began began hbegan
    rw [hwrote.clock, hwrote.history, List.take_append_of_le_length hmark, List.length_append]
    exact ⟨hnow, by omega, hevaluated⟩
  cleared candidate now hcleared := by
    obtain ⟨began, hbegan, hnow, hexpired⟩ := h.cleared candidate now hcleared
    have hmark := (h.began began hbegan).2.1
    refine ⟨began, hbegan, hnow, fun hid other hother hrivals hknown => ?_⟩
    rw [hwrote.history, List.take_append_of_le_length hmark] at hknown
    rcases hwrote.rows other hother with rfl | ⟨hold, -⟩
    · have hstate := QualificationStore.mem_statesOf (List.mem_of_mem_take hknown)
      rw [hrivals.left] at hstate
      exact absurd hstate (hfirst hrivals.left)
    · exact hexpired hid other hold hrivals hknown

end

/-! ## One step -/

/-- Evidence that passes had been evaluated. -/
lemma evaluatedBy_of_checkState {call : PublishCall} {existing candidate : QualificationRecord}
    {now : Instant} (h : checkState db call existing candidate now = .ok ())
    (henabled : candidate.Enabled) : candidate.EvaluatedBy now := by
  have hamong : (candidate.isAmong [.nonproductionQualified, .enabled]).isTrue = true := by
    rw [QualificationRecord.isAmong, henabled]
    rfl
  rw [checkState, if_pos hamong] at h
  simp only [checkEvidence, bind_eq_ok, raiseIf_eq_ok, Truth.isTrue_orAll_eq_false] at h
  obtain ⟨-, hfirst, -⟩ := h
  obtain ⟨evaluated, heq⟩ := Truth.isTrue_isNull.1
    (hfirst (Truth.isNull candidate.evidenceEvaluatedAt) (by simp))
  have hafter := hfirst (Truth.test (now < ·) candidate.evidenceEvaluatedAt) (by simp)
  rw [heq] at hafter
  exact ⟨evaluated, heq, by simpa [Truth.test] using hafter⟩

/-- A revision that is enabled was qualified before, and never enabled. -/
lemma Tracked.not_enabled_before {store : QualificationStore} (h : Tracked store)
    {row : QualificationRow} (hrow : row ∈ store.rows) {before : QualificationState}
    (hbefore : row.record.qualificationState = some before.text)
    (hdeclared : Declared before .enabled) :
    some QualificationState.enabled.text ∉ store.statesOf row.record.id := by
  rw [h.states row hrow before hbefore]
  cases hdeclared
  decide

lemma capabilityVersion_eq_of_version {r s : QualificationRecord} (h : r.version = s.version) :
    r.capabilityVersion = s.capabilityVersion := by
  simp only [QualificationRecord.version, Prod.mk.injEq, List.cons.injEq] at h
  obtain ⟨⟨hprovider, henvironment, htool, hcapability, -, -, hsha, -⟩, -⟩ := h
  unfold QualificationRecord.capabilityVersion
  rw [hprovider, henvironment, htool, hcapability, hsha]

section

variable {store store' : QualificationStore} {l : PublishLocal}

/-- A call that inserts. -/
lemma RaceInvariant.inserted (h : RaceInvariant store) {candidate : QualificationRecord}
    (hinitial : checkInitialState candidate = .ok ())
    (hinsert : store.insert db candidate = .ok store') :
    RaceInvariant store' ∧ ∀ l, Guarded l store → Guarded l store' := by
  obtain ⟨row, hwrote, htracked, hfirst⟩ := h.tracked.inserted hinitial hinsert
  have hnot : ¬ row.record.Enabled := fun henabled => by cases hfirst .enabled henabled
  exact ⟨h.wrote hwrote htracked fun henabled => absurd henabled hnot,
    fun l hguarded => hguarded.wrote hwrote fun henabled => absurd henabled hnot⟩

/-- A call that updates on grounds that are not stale. -/
lemma RaceInvariant.updated (h : RaceInvariant store) (hguarded : Guarded l store)
    {candidate : QualificationRecord} (hfresh : Fresh store l candidate)
    (hallowed : (publishProtocol db fun _ => True).allowed l (.updateRow candidate))
    (hupdate : store.update candidate = .ok store') :
    RaceInvariant store' ∧ ∀ l, Guarded l store → Guarded l store' := by
  obtain ⟨-, call, began, id, existing, -, hbegan, hid, hfound, hguards, hcleared⟩ := hallowed
  have hfind := hfresh.found id _ hfound
  obtain ⟨row, before, hrow, hwrote, hmem, hbefore, htracked, hdeclared⟩ :=
    h.tracked.updated hid hfind hguards.transition hupdate
  have hkey : row.record.id = existing.record.id := by rw [hrow]; rfl
  have hid' : row.record.id = candidate.id := by
    rw [hkey, (QualificationStore.find_eq_some hfind).2, hid]
  have hversion : row.record.capabilityVersion = candidate.capabilityVersion := by
    rw [capabilityVersion_eq_of_version hguards.version, hrow]
    rfl
  have hstate : row.record.qualificationState = candidate.qualificationState := by rw [hrow]; rfl
  have hfirst : row.record.Enabled →
      some QualificationState.enabled.text ∉ store.statesOf row.record.id := by
    intro henabled
    rw [hkey]
    exact h.tracked.not_enabled_before hmem hbefore (hdeclared .enabled henabled)
  refine ⟨h.wrote hwrote htracked fun henabled => ⟨?_, fun other hother hrivals => ?_⟩,
    fun l hl => hl.wrote hwrote hfirst⟩
  · have hnow := (hguarded.began began hbegan).1
    have hevaluated := evaluatedBy_of_checkState hguards.state
      (hstate.symm.trans henabled)
    rw [hrow]
    exact QualificationRecord.EvaluatedBy.mono hevaluated hnow
  · have hrivals' : other.record.Rivals candidate :=
      ⟨hrivals.left, hstate.symm.trans henabled, hrivals.version.trans hversion, hid' ▸ hrivals.ne⟩
    have henabled' : (candidate.isIn .enabled).isTrue = true :=
      Truth.isTrue_eq.2 ⟨_, hrivals'.right, rfl⟩
    obtain ⟨began', hbegan', hnow, hexpired⟩ :=
      hguarded.cleared candidate began.now (hcleared henabled')
    obtain rfl : began = began' := Option.some.inj (hbegan.symm.trans hbegan')
    have hknown := hfresh.enabled began hbegan other hother hrivals'
    exact (hexpired (by rw [hid]; rfl) other hother hrivals' hknown).mono (hguarded.began began hbegan).1

/-- One statement of a call. -/
lemma RaceInvariant.answer (h : RaceInvariant store) (hguarded : Guarded l store) (freshId : UUID)
    {e : PublishEffect} (hallowed : (publishProtocol db fun _ => True).allowed l e)
    (hfresh : ∀ candidate, e = .updateRow candidate → Fresh store l candidate) :
    RaceInvariant (store.answer db freshId e).2 ∧
      Guarded ((publishProtocol db fun _ => True).next l e (store.answer db freshId e).1)
        (store.answer db freshId e).2 ∧
      ∀ l', Guarded l' store → Guarded l' (store.answer db freshId e).2 := by
  cases e with
  | begin =>
      refine ⟨h, ⟨fun began hbegan => ?_, fun candidate now hcleared => ?_⟩, fun _ hl => hl⟩
      · obtain rfl := Option.some.inj hbegan
        refine ⟨le_rfl, le_rfl, fun r hr henabled => ?_⟩
        exact h.evaluated r (List.mem_of_mem_take hr) henabled
      · obtain ⟨began, hbegan, -⟩ := hguarded.cleared candidate now hcleared
        rw [hallowed.2.1] at hbegan
        cases hbegan
  | findRow id => exact ⟨h, ⟨hguarded.began, hguarded.cleared⟩, fun _ hl => hl⟩
  | countReferences candidate now => exact ⟨h, hguarded, fun _ hl => hl⟩
  | otherActive candidate now =>
      refine ⟨h, ?_, fun _ hl => hl⟩
      obtain ⟨-, began, hbegan, rfl⟩ := hallowed
      simp only [publishProtocol, QualificationStore.answer]
      split
      · exact hguarded
      · rename_i hnone
        refine ⟨hguarded.began, fun candidate' now hcleared => ?_⟩
        obtain ⟨rfl, rfl⟩ := Prod.mk.inj (Option.some.inj hcleared)
        refine ⟨began, hbegan, rfl, fun hid row hrow hrivals hknown => ?_⟩
        have hevaluated := (hguarded.began began hbegan).2.2 _ hknown hrivals.left
        have hactive := Bool.not_eq_true _ ▸ hnone
        exact QualificationStore.expiredBy_of_otherActive hactive hrow hrivals hid hevaluated
  | insertRow candidate =>
      obtain ⟨-, id, -, -, hinitial⟩ := hallowed
      simp only [QualificationStore.answer]
      split
      · rename_i store' hinsert
        obtain ⟨hinvariant, hothers⟩ := h.inserted hinitial hinsert
        have hself := hothers l hguarded
        exact ⟨hinvariant, ⟨hself.began, hself.cleared⟩, hothers⟩
      · exact ⟨h, ⟨hguarded.began, hguarded.cleared⟩, fun _ hl => hl⟩
  | updateRow candidate =>
      simp only [QualificationStore.answer]
      split
      · rename_i store' hupdate
        obtain ⟨hinvariant, hothers⟩ := h.updated hguarded (hfresh candidate rfl) hallowed hupdate
        have hself := hothers l hguarded
        exact ⟨hinvariant, ⟨hself.began, hself.cleared⟩, hothers⟩
      · exact ⟨h, ⟨hguarded.began, hguarded.cleared⟩, fun _ hl => hl⟩

end

/-! ## Runs -/

variable (db) in
/-- What holds of the table and of every call. -/
structure PublishInvariant (p : PublishPool) : Prop where
  shared : RaceInvariant p.shared
  keeps : p.Keeps (publishProtocol db fun _ => True) fun _ _ => True
  guarded : ∀ task ∈ p.tasks, Guarded (localOf db task) p.shared

lemma publishInvariant_initial (clock : Instant) :
    PublishInvariant db (PublishPool.initial clock) where
  shared := raceInvariant_empty clock
  keeps := List.forall_mem_nil _
  guarded := List.forall_mem_nil _

/-- The clock goes on. -/
lemma RaceInvariant.advance {store : QualificationStore} (h : RaceInvariant store) {now : Instant}
    (hle : store.clock ≤ now) : RaceInvariant { store with clock := now } where
  tracked := ⟨h.tracked.ids, h.tracked.known, h.tracked.states⟩
  evaluated r hr henabled := (h.evaluated r hr henabled).mono hle
  exclusive row hrow other hother hrivals := by
    rcases h.exclusive row hrow other hother hrivals with hexpired | hexpired
    · exact .inl (hexpired.mono hle)
    · exact .inr (hexpired.mono hle)

lemma Guarded.advance {store : QualificationStore} {l : PublishLocal} (h : Guarded l store)
    {now : Instant} (hle : store.clock ≤ now) : Guarded l { store with clock := now } where
  began began hbegan := by
    obtain ⟨hnow, hknown⟩ := h.began began hbegan
    exact ⟨hnow.trans hle, hknown⟩
  cleared := h.cleared

/-- One step of a run in which no call updates on stale grounds. -/
lemma PublishInvariant.step {p p' : PublishPool} (h : PublishInvariant db p)
    (hstep : Pool.Step (publishRules db) p p') (hundisturbed : Undisturbed db p p') :
    PublishInvariant db p' := by
  have hentry : ∀ program, (publishRules db).entry program →
      Keeps (publishProtocol db fun _ => True) (fun _ _ => True) program
        (publishProtocol db fun _ => True).start := by
    rintro _ ⟨call, rfl⟩
    exact keeps_publish trivial
  have hkeeps := h.keeps.step hentry hstep
  cases hstep with
  | spawn program hprogram =>
      refine ⟨h.shared, hkeeps, fun task htask => ?_⟩
      rcases List.mem_append.1 htask with htask | htask
      · exact h.guarded task htask
      · rw [List.mem_singleton.1 htask]
        exact guarded_start p.shared
  | perform i log e next hget a shared hhappens =>
      obtain ⟨freshId, heq⟩ := hhappens
      obtain ⟨rfl, rfl⟩ := Prod.mk.inj heq
      have hmem := List.mem_of_getElem? hget
      have hlt := (List.getElem?_eq_some_iff.1 hget).1
      have hfresh : ∀ candidate, e = .updateRow candidate →
          Fresh p.shared (localOf db ⟨log, .perform e next⟩) candidate := by
        rintro candidate rfl
        refine hundisturbed i _ candidate next hget ?_ rfl
        rw [List.getElem?_set_self hlt]
        intro hsame
        have hlog := congrArg (fun task => task.log.length) (Option.some.inj hsame)
        simp at hlog
      obtain ⟨hshared, hself, hothers⟩ := h.shared.answer (h.guarded _ hmem) freshId
        (h.keeps _ hmem).1 hfresh
      refine ⟨hshared, hkeeps, fun task htask => ?_⟩
      rcases List.mem_or_eq_of_mem_set htask with htask | rfl
      · exact hothers _ (h.guarded task htask)
      · unfold localOf
        rw [Protocol.after_append]
        exact hself
  | outside shared houtside =>
      obtain ⟨now, hle, rfl⟩ := houtside
      exact ⟨h.shared.advance hle, hkeeps, fun task htask => (h.guarded task htask).advance hle⟩

lemma ReachableUndisturbed.invariant {clock : Instant} {p : PublishPool}
    (h : ReachableUndisturbed db clock p) : PublishInvariant db p := by
  unfold ReachableUndisturbed at h
  induction h with
  | refl => exact publishInvariant_initial clock
  | tail _ hstep ih => exact ih.step hstep.1 hstep.2

lemma RaceInvariant.unambiguous {store : QualificationStore} (h : RaceInvariant store) :
    Unambiguous store := by
  intro row hrow other hother henabled henabled' hversion hcurrent hcurrent'
  by_contra hne
  have hid : row.record.id ≠ other.record.id := fun heq =>
    hne (KeyedTable.eq_of_key_eq h.tracked.ids hrow hother heq)
  rcases h.exclusive row hrow other hother ⟨henabled, henabled', hversion, hid⟩ with hexpired | hexpired
  · exact hexpired.not_currentAt hcurrent
  · exact hexpired.not_currentAt hcurrent'

/-- The last states are last. -/
lemma not_mem_of_terminal {state : QualificationState} {before after : List QualificationState}
    (h : declaredStates state = before ++ after)
    (hterminal : .disabled ∈ before ∨ .superseded ∈ before) : .enabled ∉ after := by
  have hbefore : before = (declaredStates state).take before.length := by
    rw [h, List.take_left]
  have hafter : after = (declaredStates state).drop before.length := by
    rw [h, List.drop_left]
  rw [hbefore] at hterminal
  rw [hafter]
  have hpositions : ∀ k < 5, .disabled ∈ (declaredStates state).take k ∨
      .superseded ∈ (declaredStates state).take k → .enabled ∉ (declaredStates state).drop k := by
    cases state <;> decide
  by_cases hlt : before.length < 5
  · exact hpositions before.length hlt hterminal
  · have hlength : (declaredStates state).length ≤ 5 := by cases state <;> decide
    rw [List.drop_eq_nil_of_le (hlength.trans (not_lt.1 hlt))]
    exact List.not_mem_nil

lemma Tracked.neverReenabled {store : QualificationStore} (h : Tracked store) :
    NeverReenabled store := by
  intro id before after hstates hterminal henabled
  have hne : store.statesOf id ≠ [] := by
    rw [hstates]
    intro hnil
    rw [List.append_eq_nil_iff.1 hnil |>.2] at henabled
    cases henabled
  obtain ⟨_, hmem⟩ := List.exists_mem_of_ne_nil _ hne
  obtain ⟨r, hr, -⟩ := List.mem_map.1 hmem
  obtain ⟨hr, hid⟩ := List.mem_filter.1 hr
  obtain ⟨row, hrow, hkey⟩ := h.known r hr
  obtain ⟨state, hstate⟩ := row.exists_state
  have hdeclared := h.states row hrow state hstate
  rw [hkey, beq_iff_eq.1 hid, hstates] at hdeclared
  obtain ⟨xs, ys, hsplit, rfl, rfl⟩ := List.map_eq_append_iff.1 hdeclared.symm
  have hmap : ∀ {zs : List QualificationState} {s : QualificationState},
      some s.text ∈ zs.map (fun s => some s.text) → s ∈ zs := by
    intro zs s hs
    obtain ⟨t, ht, heq⟩ := List.mem_map.1 hs
    exact QualificationState.text_injective (Option.some.inj heq) ▸ ht
  exact not_mem_of_terminal hsplit (hterminal.imp hmap hmap) (hmap henabled)

/-! ## One call after the other -/

/-- A call that works alone: nothing has changed since it began. -/
structure Alone (l : PublishLocal) (store : QualificationStore) : Prop where
  found : Accurate l store
  marked : l.wrote = false → ∀ began, l.began = some began → began.mark = store.history.length
  recorded : ∀ row ∈ store.rows, row.record ∈ store.history

section

variable {store store' : QualificationStore} {l : PublishLocal}

lemma QualificationStore.Wrote.recorded {row : QualificationRow} (h : store.Wrote row store')
    (hrecorded : ∀ row ∈ store.rows, row.record ∈ store.history) :
    ∀ row ∈ store'.rows, row.record ∈ store'.history := by
  intro other hother
  rw [h.history]
  rcases h.rows other hother with rfl | ⟨hold, -⟩
  · exact List.mem_append_right _ List.mem_cons_self
  · exact List.mem_append_left _ (hrecorded other hold)

lemma Alone.fresh (h : Alone l store) {candidate : QualificationRecord}
    (hallowed : (publishProtocol db fun _ => True).allowed l (.updateRow candidate)) :
    Fresh store l candidate where
  found := h.found hallowed.1
  enabled began hbegan row hrow _ := by
    rw [h.marked hallowed.1 began hbegan, List.take_length]
    exact h.recorded row hrow

lemma Alone.answer (h : Alone l store) (freshId : UUID) {e : PublishEffect}
    (hallowed : (publishProtocol db fun _ => True).allowed l e) :
    Alone ((publishProtocol db fun _ => True).next l e (store.answer db freshId e).1)
      (store.answer db freshId e).2 := by
  have hwrote := hallowed.1
  cases e with
  | begin =>
      refine ⟨fun _ => h.found hwrote, fun _ began hbegan => ?_, h.recorded⟩
      obtain rfl := Option.some.inj hbegan
      rfl
  | findRow id =>
      refine ⟨fun _ id' row heq => ?_, fun _ => h.marked hwrote, h.recorded⟩
      obtain ⟨rfl, rfl⟩ := Prod.mk.inj (Option.some.inj heq)
      rfl
  | countReferences candidate now => exact h
  | otherActive candidate now =>
      simp only [publishProtocol, QualificationStore.answer]
      split
      · exact h
      · exact ⟨fun _ => h.found hwrote, fun _ => h.marked hwrote, h.recorded⟩
  | insertRow candidate =>
      refine ⟨fun hnot => Bool.noConfusion hnot, fun hnot => Bool.noConfusion hnot, ?_⟩
      simp only [QualificationStore.answer]
      split
      · rename_i store' hinsert
        obtain ⟨row, -, hrow, -⟩ := QualificationStore.insert_eq_ok hinsert
        exact hrow.recorded h.recorded
      · exact h.recorded
  | updateRow candidate =>
      refine ⟨fun hnot => Bool.noConfusion hnot, fun hnot => Bool.noConfusion hnot, ?_⟩
      obtain ⟨-, call, began, id, existing, -, -, hid, hfound, -⟩ := hallowed
      simp only [QualificationStore.answer]
      split
      · rename_i store' hupdate
        obtain ⟨row, -, hrow⟩ :=
          QualificationStore.update_eq_ok hid (h.found hwrote id _ hfound) hupdate
        exact hrow.recorded h.recorded
      · exact h.recorded

/-- A call that works alone does not update on stale grounds. -/
lemma Alone.reaches {program : PublishProgram UUID} {log : List ((e : PublishEffect) × e.Answer)}
    (h : Alone (localOf db ⟨log, program⟩) store)
    (hkeeps : Keeps (publishProtocol db fun _ => True) (fun _ _ => True) program
      (localOf db ⟨log, program⟩)) (freshId : UUID) (tasks : List PublishTask) :
    (∃ task, Relation.ReflTransGen
      (fun p p' => Pool.Step (publishRules db) p p' ∧ Undisturbed db p p')
      ⟨store, tasks ++ [⟨log, program⟩]⟩
      ⟨(program.execute (QualificationStore.answer db freshId) store).2, tasks ++ [task]⟩) ∧
    ∀ row ∈ (program.execute (QualificationStore.answer db freshId) store).2.rows,
      row.record ∈ (program.execute (QualificationStore.answer db freshId) store).2.history := by
  induction program generalizing store log with
  | done id => exact ⟨⟨_, .refl⟩, h.recorded⟩
  | fail code => exact ⟨⟨_, .refl⟩, h.recorded⟩
  | perform e next ih =>
      obtain ⟨hallowed, hnext⟩ := hkeeps
      have hlocal : localOf db ⟨log ++ [⟨e, (store.answer db freshId e).1⟩],
          next (store.answer db freshId e).1⟩ = (publishProtocol db fun _ => True).next
            (localOf db ⟨log, .perform e next⟩) e (store.answer db freshId e).1 :=
        Protocol.after_append log e _
      have halone := h.answer freshId hallowed
      rw [← hlocal] at halone
      obtain ⟨⟨task, hrest⟩, hrecorded⟩ := ih _ halone (by rw [hlocal]; exact hnext _)
      refine ⟨⟨task, .head ⟨?_, ?_⟩ hrest⟩, hrecorded⟩
      · have hget : (tasks ++ [(⟨log, .perform e next⟩ : PublishTask)])[tasks.length]? =
            some ⟨log, .perform e next⟩ := by simp
        have hstep := Pool.Step.perform (R := publishRules db)
          (p := ⟨store, tasks ++ [⟨log, .perform e next⟩]⟩) tasks.length log e next hget
          (store.answer db freshId e).1 (store.answer db freshId e).2 ⟨freshId, rfl⟩
        rwa [List.set_append_right _ _ le_rfl, Nat.sub_self, List.set_cons_zero] at hstep
      · rintro i task candidate next' hget hmoved hrest
        by_cases hi : i < tasks.length
        · rw [List.getElem?_append_left hi] at hget hmoved
          exact absurd hget hmoved
        · have hi' : i = tasks.length := by
            have hlt := (List.getElem?_eq_some_iff.1 hget).1
            rw [List.length_append, List.length_singleton] at hlt
            omega
          subst hi'
          rw [List.getElem?_append_right le_rfl, Nat.sub_self] at hget
          obtain rfl := Option.some.inj hget
          cases hrest
          exact h.fresh hallowed

end

/-! ### Sequences of calls -/

lemma clock_answer (freshId : UUID) (store : QualificationStore) (e : PublishEffect) :
    (store.answer db freshId e).2.clock = store.clock := by
  cases e with
  | insertRow candidate =>
      simp only [QualificationStore.answer]
      split
      · rename_i store' hinsert
        obtain ⟨row, -, hwrote, -⟩ := QualificationStore.insert_eq_ok hinsert
        exact hwrote.clock
      · rfl
  | updateRow candidate =>
      simp only [QualificationStore.answer]
      split
      · rename_i store' hupdate
        unfold QualificationStore.update at hupdate
        split at hupdate
        · rw [← Except.ok.inj hupdate]
        · dsimp only at hupdate
          split at hupdate
          · split at hupdate
            · cases hupdate
            · rw [← Except.ok.inj hupdate]
          · cases hupdate
      · rfl
  | _ => rfl

lemma clock_execute (freshId : UUID) (program : PublishProgram UUID) (store : QualificationStore) :
    (program.execute (QualificationStore.answer db freshId) store).2.clock = store.clock := by
  induction program generalizing store with
  | done id => rfl
  | fail code => rfl
  | perform e next ih => exact (ih _ _).trans (clock_answer freshId store e)

/-- A step that leaves the calls where they are updates nothing. -/
lemma undisturbed_of_prefix {p p' : PublishPool}
    (h : ∀ (i : Nat) (task : PublishTask), p.tasks[i]? = some task → p'.tasks[i]? = some task) :
    Undisturbed db p p' :=
  fun i task _ _ hget hmoved _ => absurd (h i task hget) hmoved

/-- Calls that are made one after the other never update on stale grounds. -/
lemma exists_reaches_foldl (events : List PublishEvent) {store : QualificationStore}
    (tasks : List PublishTask) (hrecorded : ∀ row ∈ store.rows, row.record ∈ store.history)
    (hclock : ∀ event ∈ events, store.clock ≤ event.now)
    (hsorted : events.Pairwise fun a b => a.now ≤ b.now) :
    ∃ tasks', Relation.ReflTransGen
      (fun p p' => Pool.Step (publishRules db) p p' ∧ Undisturbed db p p')
      ⟨store, tasks⟩ ⟨events.foldl (publishStep db) store, tasks'⟩ := by
  induction events generalizing store tasks with
  | nil => exact ⟨tasks, .refl⟩
  | cons event events ih =>
      obtain ⟨hfirst, hsorted⟩ := List.pairwise_cons.1 hsorted
      have hle := hclock event List.mem_cons_self
      have hadvance := Pool.Step.outside (R := publishRules db) (p := ⟨store, tasks⟩)
        { store with clock := event.now } ⟨event.now, hle, rfl⟩
      have hspawn := Pool.Step.spawn (R := publishRules db)
        (p := ⟨{ store with clock := event.now }, tasks⟩) (publish db event.call)
        ⟨event.call, rfl⟩
      have halone : Alone (localOf db ⟨[], publish db event.call⟩)
          { store with clock := event.now } :=
        ⟨fun _ _ _ hnone => (by cases hnone), fun _ _ hnone => (by cases hnone), hrecorded⟩
      obtain ⟨⟨task, hcall⟩, hrecorded'⟩ :=
        halone.reaches (keeps_publish trivial) event.freshId tasks
      have hclock' : ∀ next ∈ events, (publishStep db store event).clock ≤ next.now := by
        intro next hnext
        unfold publishStep
        rw [clock_execute]
        exact hfirst next hnext
      obtain ⟨tasks', hrest⟩ := ih (tasks ++ [task]) hrecorded' hclock' hsorted
      refine ⟨tasks', .head ⟨hadvance, undisturbed_of_prefix fun _ _ h => h⟩
        (.head ⟨hspawn, undisturbed_of_prefix fun i t h => ?_⟩ (hcall.trans hrest))⟩
      exact (List.getElem?_append_left (List.getElem?_eq_some_iff.1 h).1).trans h

/-- The sequences of calls are among the runs. -/
theorem exists_reachableUndisturbed_publishRun (db : QualificationDatabase)
    (events : List PublishEvent) (hclock : ∀ event ∈ events, 0 ≤ event.now)
    (hsorted : events.Pairwise fun a b => a.now ≤ b.now) :
    ∃ tasks, ReachableUndisturbed db 0 ⟨publishRun db events, tasks⟩ :=
  exists_reaches_foldl events [] (List.forall_mem_nil _) hclock hsorted

/-! ## Runs without stale updates -/

/-- In every run in which no call updates on stale grounds, at most one revision of a version is
enabled and current, and no row is enabled again. -/
theorem unambiguous_of_undisturbed (db : QualificationDatabase) {clock : Instant} {p : PublishPool}
    (h : ReachableUndisturbed db clock p) :
    Unambiguous p.shared ∧ NeverReenabled p.shared :=
  ⟨h.invariant.shared.unambiguous, h.invariant.shared.tracked.neverReenabled⟩

namespace ContactsList

lemma exists_reachableUndisturbed_events (calls : List PublishCall) :
    ∃ tasks, ReachableUndisturbed database 0 ⟨publishRun database (events calls), tasks⟩ := by
  apply exists_reachableUndisturbed_publishRun
  · intro event hevent
    obtain ⟨call, -, rfl⟩ := List.mem_map.1 hevent
    show (0 : Instant) ≤ now
    decide
  · exact List.pairwise_map.2 (List.pairwise_of_forall fun _ _ => le_rfl)

/-- The capability that is enabled in production by one call after the other. -/
theorem unambiguous_complete :
    (∃ row ∈ (publishRun database complete).rows, row.record.Enabled) ∧
      Unambiguous (publishRun database complete) ∧
      NeverReenabled (publishRun database complete) := by
  obtain ⟨tasks, hreachable⟩ : ∃ tasks,
      ReachableUndisturbed database 0 ⟨publishRun database complete, tasks⟩ :=
    exists_reachableUndisturbed_events _
  obtain ⟨row, hrow, hrecord⟩ := exists_complete
  have henabled : row.record.Enabled := by
    unfold QualificationRecord.Enabled
    rw [hrecord]
    rfl
  have hholds := unambiguous_of_undisturbed database hreachable
  dsimp only at hholds
  exact ⟨⟨row, hrow, henabled⟩, hholds⟩

/-! ### Two calls that enable two revisions -/

def otherId : String := "00000000-0000-0000-0000-000000000003"

/-- A sandbox row that is enabled. -/
def enabledInSandbox (id : UUID) (company revision : String) : QualificationRecord :=
  record id "sandbox" sandboxVersion .enabled
    (sealed company revision (some (uri sandboxVersion revision)) none none none)

/-- The call that enables it. -/
def enableSandbox (id company revision : String) : PublishCall :=
  qualify id "sandbox" sandboxVersion company revision .enabled (linked sandboxVersion revision)

section

variable {rows : List QualificationRow} {history : List QualificationRecord} {id : UUID}
  {idText company revision : String} {row : QualificationRow}

lemma otherActive_eq_false {candidate : QualificationRecord} {t : Instant}
    (h : ∀ row ∈ rows, ¬ row.record.Enabled) :
    (⟨rows, history, t⟩ : QualificationStore).otherActive candidate now = false := by
  unfold QualificationStore.otherActive
  rw [List.any_eq_false]
  intro row hrow hactive
  simp only [Truth.isTrue_andAll, List.all_eq_true, List.forall_mem_cons] at hactive
  obtain ⟨-, -, -, -, -, -, henabled, -⟩ := hactive
  obtain ⟨state, hstate, heq⟩ := Truth.isTrue_eq.1 henabled
  exact h row hrow (hstate.trans heq.symm)

/-- While no row is enabled, a call that enables comes to its update. -/
lemma execute_publishReads_enableSandbox (hid : database.uuid idText = some id)
    (hrevision : canonicalDigest database (.obj (unsealed "sandbox" sandboxVersion company)) =
      revision) (hrow : row.record = qualified id company revision)
    (hfind : (⟨rows, history, now⟩ : QualificationStore).find id = some row)
    (hnone : ∀ row ∈ rows, ¬ row.record.Enabled) :
    (publishReads database (enableSandbox idText company revision)).execute
        (QualificationStore.answer database 0) ⟨rows, history, now⟩ =
      (.ok (id, .update (enabledInSandbox id company revision)), ⟨rows, history, now⟩) := by
  have hchecks : checkEnabled (enabledInSandbox id company revision) now = .ok () := by
    have hread : isReadCapability "contacts.list" = true := by decide +kernel
    simp only [checkEnabled, bind_eq_ok, raiseIf_eq_ok]
    refine ⟨(), ?_, rfl⟩
    simp [enabledInSandbox, record, Truth.test, hread]
  have hpasses : (publishEnabled (enabledInSandbox id company revision) now).execute
      (QualificationStore.answer database 0) ⟨rows, history, now⟩ =
        (.ok (), ⟨rows, history, now⟩) := by
    have henabled : ((enabledInSandbox id company revision).isIn .enabled).isTrue = true := rfl
    unfold publishEnabled
    rw [if_pos henabled, lift_bind hchecks, execute_run]
    simp only [QualificationStore.answer]
    rw [otherActive_eq_false hnone]
    rfl
  exact execute_publishReads_known (populates_sandbox hid) isVersion_sandbox hrow hfind
    (checkUpdate_of rfl rfl rfl checkEvidenceIdentity_record
      (checkEvidence_record hrevision (.inr rfl))) rfl hpasses

end

/-- Two calls that have read side by side write one after the other. -/
lemma exists_reaches_both {store first second : QualificationStore} {tasks : List PublishTask}
    {call call' : PublishCall} {id id' : UUID} {candidate candidate' : QualificationRecord}
    (hreads : (publishReads database call).execute (QualificationStore.answer database 0) store =
      (.ok (id, .update candidate), store))
    (hreads' : (publishReads database call').execute (QualificationStore.answer database 0) store =
      (.ok (id', .update candidate'), store))
    (hupdate : store.update candidate = .ok first)
    (hupdate' : first.update candidate' = .ok second) :
    ∃ tasks', Relation.ReflTransGen (Pool.Step (publishRules database)) ⟨store, tasks⟩
      ⟨second, tasks'⟩ := by
  have hanswer : ∀ store e, (publishRules database).happens store e
      (store.answer database 0 e).1 (store.answer database 0 e).2 := fun _ _ => ⟨0, rfl⟩
  obtain ⟨log, hperforms⟩ := Performs.of_execute hanswer hreads
  obtain ⟨log', hperforms'⟩ := Performs.of_execute hanswer hreads'
  have hspawn := Pool.Step.spawn (R := publishRules database) (p := ⟨store, tasks⟩)
    (publish database call) ⟨call, rfl⟩
  have hspawn' := Pool.Step.spawn (R := publishRules database)
    (p := ⟨store, tasks ++ [⟨[], publish database call⟩]⟩) (publish database call') ⟨call', rfl⟩
  have hfirst := hanswer store (.updateRow candidate)
  have hsecond := hanswer first (.updateRow candidate')
  simp only [QualificationStore.answer, hupdate] at hfirst
  simp only [QualificationStore.answer, hupdate'] at hsecond
  let spawned : List PublishTask :=
    tasks ++ [⟨[], publish database call⟩] ++ [⟨[], publish database call'⟩]
  have htask : spawned[tasks.length]? = some ⟨[], publish database call⟩ := by simp [spawned]
  have htask' : spawned[tasks.length + 1]? = some ⟨[], publish database call'⟩ := by
    simp [spawned]
  -- both calls read and search
  obtain ⟨tasks₁, hread, hcall, hothers⟩ :=
    (hperforms.bind fun result => publishWrite result.1 result.2).exists_steps htask
  rw [← hothers (tasks.length + 1) (by omega)] at htask'
  obtain ⟨tasks₂, hread', hcall', hothers'⟩ :=
    (hperforms'.bind fun result => publishWrite result.1 result.2).exists_steps htask'
  rw [← hothers' tasks.length (by omega)] at hcall
  -- and then they write
  obtain ⟨tasks₃, hwrite, -, hothers''⟩ := (Performs.one hfirst).exists_steps hcall
  rw [← hothers'' (tasks.length + 1) (by omega)] at hcall'
  obtain ⟨tasks₄, hwrite', -, -⟩ := (Performs.one hsecond).exists_steps hcall'
  refine ⟨tasks₄, .head hspawn (.head hspawn' ?_)⟩
  exact hread.trans (hread'.trans (hwrite.trans hwrite'))

/-- The two revisions are qualified. -/
lemma exists_bothQualified : ∃ row other history,
    row.record = qualified 1 company sandboxRevision ∧
      other.record = qualified 3 otherCompany otherRevision ∧
      publishRun database (events (sandboxCalls sandboxId company sandboxRevision ++
        sandboxCalls otherId otherCompany otherRevision)) = ⟨[row, other], history, now⟩ := by
  have hid : database.uuid sandboxId = some 1 := by rfl
  have hotherId : database.uuid otherId = some 3 := by rfl
  obtain ⟨history₁, row, hrow, hstep₁⟩ := exists_sandboxCalls hid canonicalDigest_artifacts.1
    (isSha256_hashes company (by simp)) (isSha256_hashes sandboxRevision (by simp)) [] [] 0
    (List.forall_mem_nil _) (List.forall_mem_nil _)
  obtain ⟨history₂, other, hother, hstep₂⟩ := exists_sandboxCalls hotherId
    canonicalDigest_artifacts.2.1 (isSha256_hashes otherCompany (by simp))
    (isSha256_hashes otherRevision (by simp)) [row] history₁ now
    (by rintro _ hmem; rw [List.mem_singleton.1 hmem, hrow]; decide)
    (by rintro _ hmem; rw [List.mem_singleton.1 hmem, hrow]; decide)
  refine ⟨row, other, history₂, hrow, hother, ?_⟩
  rw [events, List.nil_append] at hstep₁
  rw [events, List.singleton_append] at hstep₂
  rw [publishRun, events, List.map_append, List.foldl_append, QualificationStore.empty, hstep₁,
    hstep₂]

/-- Two calls search for another active revision before either of them has written, and both
enable their own. -/
theorem exists_not_unambiguous :
    ∃ p, PublishReachable database 0 p ∧ ¬ Unambiguous p.shared := by
  have hid : database.uuid sandboxId = some 1 := by rfl
  have hotherId : database.uuid otherId = some 3 := by rfl
  obtain ⟨row, other, history, hrow, hother, hrun⟩ := exists_bothQualified
  have hrowId : row.record.id = some 1 := by rw [hrow]; rfl
  have hotherRowId : other.record.id = some 3 := by rw [hother]; rfl
  have hne : ∀ {r : QualificationRow}, r.record.id = some 1 → ∀ x ∈ [r], x.record.id ≠ some 3 := by
    rintro r hr x hx
    rw [List.mem_singleton.1 hx, hr]
    decide
  have hids : ([row, other].map (·.record.id)).Nodup := by
    rw [List.map_cons, List.map_singleton, hrowId, hotherRowId]
    decide
  have hnone : ∀ r ∈ [row, other], ¬ r.record.Enabled := by
    unfold QualificationRecord.Enabled
    simp only [List.forall_mem_cons, hrow, hother]
    exact ⟨by decide, by decide, List.forall_mem_nil _⟩
  -- both see that no revision is enabled
  have hfind : (⟨[row, other], history, now⟩ : QualificationStore).find 1 = some row :=
    QualificationStore.find_eq_of_mem hids List.mem_cons_self hrowId
  have hreads := execute_publishReads_enableSandbox hid canonicalDigest_artifacts.1 hrow hfind hnone
  have hreads' := execute_publishReads_enableSandbox hotherId canonicalDigest_artifacts.2.1 hother
    (find_last (hne hrowId) hotherRowId history now) hnone
  -- the first update
  obtain ⟨history₁, row₁, hrow₁, hupdate₁⟩ : ∃ history₁ row₁,
      row₁.record = enabledInSandbox 1 company sandboxRevision ∧
        QualificationStore.update ⟨[row, other], history, now⟩
          (enabledInSandbox 1 company sandboxRevision) =
            .ok ⟨KeyedTable.put (·.record.id) [row, other] row₁, history₁, now⟩ := by
    refine exists_update hrow history hfind isVersion_sandbox
      (hashed_sealed (isSha256_hashes company (by simp)) (isSha256_hashes sandboxRevision (by simp))
        fun _ h => nomatch h) ?_
    simp only [List.forall_mem_cons]
    refine ⟨fun h => absurd hrowId h, fun _ => sameEvidence_eq_false fun _ h => ?_,
      List.forall_mem_nil _⟩
    rw [← Option.some.inj h, hother]
    decide
  have hrowId₁ : row₁.record.id = some 1 := by rw [hrow₁]; rfl
  have hput₁ : KeyedTable.put (·.record.id) [row, other] row₁ = [row₁] ++ [other] := by
    simp [KeyedTable.put, hrowId, hotherRowId, hrowId₁]
  rw [hput₁] at hupdate₁
  -- the second update
  obtain ⟨history₂, row₂, hrow₂, hupdate₂⟩ : ∃ history₂ row₂,
      row₂.record = enabledInSandbox 3 otherCompany otherRevision ∧
        QualificationStore.update ⟨[row₁] ++ [other], history₁, now⟩
          (enabledInSandbox 3 otherCompany otherRevision) =
            .ok ⟨KeyedTable.put (·.record.id) ([row₁] ++ [other]) row₂, history₂, now⟩ := by
    refine exists_update hother history₁ (find_last (hne hrowId₁) hotherRowId history₁ now)
      isVersion_sandbox (hashed_sealed (isSha256_hashes otherCompany (by simp))
        (isSha256_hashes otherRevision (by simp)) fun _ h => nomatch h) ?_
    simp only [List.singleton_append, List.forall_mem_cons]
    refine ⟨fun _ => sameEvidence_eq_false fun _ h => ?_, fun h => absurd hotherRowId h,
      List.forall_mem_nil _⟩
    rw [← Option.some.inj h, hrow₁]
    decide
  have hrowId₂ : row₂.record.id = some 3 := by rw [hrow₂]; rfl
  have hput₂ : KeyedTable.put (·.record.id) ([row₁] ++ [other]) row₂ = [row₁] ++ [row₂] :=
    KeyedTable.put_concat (fun x hx => hrowId₂ ▸ hne hrowId₁ x hx)
      (hotherRowId.trans hrowId₂.symm)
  rw [hput₂] at hupdate₂
  -- the run
  obtain ⟨tasks, hprefix⟩ := exists_reachableUndisturbed_events
    (sandboxCalls sandboxId company sandboxRevision ++
      sandboxCalls otherId otherCompany otherRevision)
  rw [hrun] at hprefix
  obtain ⟨tasks', hboth⟩ := exists_reaches_both hreads hreads' hupdate₁ hupdate₂
  refine ⟨_, (Relation.ReflTransGen.mono (fun _ _ => And.left) _ _ hprefix).trans hboth, ?_⟩
  intro hunambiguous
  have hcurrent : ∀ {r : QualificationRow} {id : UUID} {company revision : String},
      r.record = enabledInSandbox id company revision → r.record.CurrentAt now := by
    intro r id company revision hr
    rw [hr]
    exact ⟨1785369600000000, 1788048000000000, rfl, rfl, by decide, by decide⟩
  have hsame := hunambiguous row₁ (by simp) row₂ (by simp) (by rw [hrow₁]; rfl) (by rw [hrow₂]; rfl)
    (by rw [hrow₁, hrow₂]; rfl) (hcurrent hrow₁) (hcurrent hrow₂)
  rw [hsame, hrowId₂] at hrowId₁
  cases hrowId₁

end ContactsList

end MercuryTools.Catalog
