import Mathlib.Algebra.Order.BigOperators.Group.List
import Mathlib.Algebra.Order.Group.Nat
import MercuryTools.Catalog.ImportListing

/-!
# Runs of imports

Imports follow each other on one catalog.  Each may have one operation fail, and may be cut off
after any number of operations; listings may run at the same time.

Imports are atomic as long as none is cut off while a temporary file is among the actions or while
a part of them is restored, no temporary file that a committed import leaves fails to be removed,
and listings that run at the same time find no temporary file and no file that is gone when it is
read (`imports_atomic`).  Otherwise they need not be: an import that is cut off leaves a temporary
file, and no listing passes any more (`listActions_temporaryFile`).
-/

namespace MercuryTools.Catalog

open Program

/-! ## Which step failed -/

section

variable {env : CatalogEnv}

lemma osError_injective : Function.Injective ImportError.osError :=
  fun _ _ => ImportError.osError.inj

lemma reports_look {α : Type} (phase : Phase) (f : ImportState → α) :
    Reports ImportError.osError (look phase f) :=
  reports_step osError_injective phase _

lemma reports_change (phase : Phase) (f : ImportState → ImportState) :
    Reports ImportError.osError (change phase f) :=
  reports_step osError_injective phase _

lemma reports_validateDestination (phase : Phase) (plan : WritePlan) :
    Reports ImportError.osError (validateDestination phase plan) :=
  reports_bind (reports_look _ _) fun _ => reports_look _ _

lemma reports_removeTemporary (phase : Phase) (folder : Folder) (slot : Slot) :
    Reports ImportError.osError (removeTemporary phase folder slot) := by
  refine reports_bind (reports_modifyGet _) fun path? => ?_
  cases path? with
  | none => exact reports_pure _
  | some path => exact reports_change _ _

lemma reports_stageBytes (folder : Folder) (slot : Slot) (payload : List Char) :
    Reports ImportError.osError (stageBytes env folder slot payload) := by
  refine reports_bind (reports_change _ _) fun _ => reports_bind ?_ fun _ => reports_modifyGet _
  refine reports_onError ?_ (reports_removeTemporary _ _ _) fun _ _ heq => heq
  exact reports_bind (reports_change _ _) fun _ => reports_look _ _

lemma reports_backUp (plan : WritePlan) : Reports ImportError.osError (backUp env plan) := by
  refine reports_bind (reports_look _ _) fun existed => reports_bind (reports_modifyGet _) fun _ => ?_
  split
  · refine reports_bind (reports_look _ _) fun _ => reports_bind (reports_look _ _) fun _ => ?_
    exact reports_stageBytes _ _ _
  · exact reports_pure _

lemma reports_commitPlans (plans : List WritePlan) :
    Reports ImportError.osError (commitPlans plans) := by
  induction plans with
  | nil => exact reports_pure _
  | cons plan rest ih =>
      refine reports_bind ?_ fun _ => ih
      refine reports_bind (reports_validateDestination _ _) fun _ => ?_
      refine reports_bind (reports_modifyGet _) fun path? => ?_
      cases path? with
      | none => exact reports_throw nofun
      | some path => exact reports_bind (reports_change _ _) fun _ => reports_look _ _

lemma reports_restorePlans (plans : List WritePlan) :
    Reports ImportError.osError (restorePlans plans) := by
  induction plans with
  | nil => exact reports_pure _
  | cons plan rest ih =>
      refine reports_bind (reports_bind ?_ fun _ => reports_look _ _) fun _ => ih
      refine reports_bind (reports_modifyGet _) fun existed => ?_
      cases existed with
      | false => exact reports_change _ _
      | true =>
          refine reports_bind (reports_modifyGet _) fun path? => ?_
          cases path? with
          | none => exact reports_throw nofun
          | some path => exact reports_change _ _

lemma reports_cleanUp (committed : Bool) (plans : List WritePlan) :
    Reports ImportError.osError (cleanUp committed plans) :=
  reports_forM (fun _ => reports_bind (reports_removeTemporary _ _ _)
    fun _ => reports_removeTemporary _ _ _) plans

/-- An import raises the failure of a step only where that step failed. -/
lemma reports_writeImport (source : CatalogSource) (actions : List CatalogAction) :
    Reports ImportError.osError (writeImport env source actions) := by
  refine reports_bind (reports_forM (fun _ => reports_look _ _) _) fun _ => ?_
  split
  · exact reports_throw nofun
  next plans _ =>
    refine reports_bind (reports_forM (fun _ => reports_validateDestination _ _) _) fun _ => ?_
    refine reports_ensuring ?_ fun _ => reports_cleanUp _ _
    refine reports_bind ?_ fun _ => ?_
    · exact reports_bind (reports_forM (fun _ => reports_stageBytes _ _ _) _)
        fun _ => reports_forM reports_backUp _
    · refine reports_onError (reports_commitPlans _) ?_ nofun
      exact reports_bind (reports_modifyGet _) fun _ => reports_restorePlans _

end

/-! ## Calls -/

/-- A call of `write_import`: how many operations come before the one that fails, and after how
many operations the process is cut off. -/
structure ImportCall where
  source : CatalogSource
  actions : List CatalogAction
  fault : Option Nat
  crash : Option Nat

/-- What a call leaves: the states that others could see, the files, what it returned or raised if
it was not cut off, and what it was doing when one of its operations failed. -/
structure CallTrace where
  seen : List (Phase × Files)
  files : Files
  result : Option (Except ImportError Unit)
  failed : Option Phase

def runCall (env : CatalogEnv) (files : Files) (call : ImportCall) : CallTrace :=
  let outcome := writeImport env call.source call.actions call.fault (.initial files)
  let visited := outcome.visited.map fun entry => (entry.1, entry.2.files)
  match call.crash with
  | none => ⟨visited, outcome.state.files, some outcome.result, outcome.failed⟩
  | some n =>
      ⟨visited.take n, ((visited.take n).getLast?.map (·.2)).getD files, none, outcome.failed⟩

def noFiles : Files := fun _ => []

/-- The files after some calls. -/
def filesAfter (env : CatalogEnv) (files : Files) (calls : List ImportCall) : Files :=
  calls.foldl (fun files call => (runCall env files call).files) files

/-- Whether a call took effect.  One that was cut off did if all of its actions are in place. -/
def tookEffect (trace : CallTrace) (call : ImportCall) : Bool :=
  match trace.result with
  | some (.ok _) => true
  | some (.error _) => false
  | none => call.actions.all fun action =>
      (trace.files .actions).get action.filename == some action.canonicalJson

/-- The calls that took effect. -/
def effectiveCalls (env : CatalogEnv) : Files → List ImportCall → List ImportCall
  | _, [] => []
  | files, call :: calls =>
      let trace := runCall env files call
      if tookEffect trace call then call :: effectiveCalls env trace.files calls
      else effectiveCalls env trace.files calls

/-- The action of the latest of some calls that has an action of that id. -/
def latestAction (calls : List ImportCall) (actionId : String) : Option CatalogAction :=
  calls.reverse.findSome? fun call => call.actions.find? fun action => action.actionId = actionId

/-! ## When calls are disturbed -/

def hasTemporary (files : Files) : Bool :=
  (files .actions).keys.any isTemporaryName

/-- No temporary file is among the actions, and no part of the actions is restored. -/
def isWhole (entry : Phase × Files) : Bool :=
  !hasTemporary entry.2 &&
    match entry.1 with
    | .restoring (_ + 1) => false
    | _ => true

/-- A call is cut off, if at all, where the actions are whole, and if its import has been committed
then no removal of a temporary file fails. -/
structure ImportUndisturbed (env : CatalogEnv) (files : Files) (call : ImportCall) : Prop where
  cleaned : (runCall env files call).failed ≠ some (.cleaning true)
  whole : call.crash ≠ none → ∀ entry ∈ (runCall env files call).seen.getLast?, isWhole entry = true

def AllImportsUndisturbed (env : CatalogEnv) : Files → List ImportCall → Prop
  | _, [] => True
  | files, call :: calls =>
      ImportUndisturbed env files call ∧ AllImportsUndisturbed env (runCall env files call).files calls

/-- A listing that runs at the same time: the directory is listed at one moment, and every file is
read at that moment or later. -/
def Interleaves (moments : List Files) (names : List String)
    (read : String → Option (List Char)) : Prop :=
  ∃ earlier now later, moments = earlier ++ now :: later ∧ names = (now .actions).keys ∧
    ∀ name ∈ names, ∃ files ∈ now :: later, read name = (files .actions).get name

/-- It lists no temporary file, and no file that is gone when it is read. -/
def ListsSettled (names : List String) (read : String → Option (List Char)) : Prop :=
  ∀ name ∈ names, isTemporaryName name = false ∧ (read name).isSome = true

/-- A source and actions that are valid. -/
structure ValidCall (env : CatalogEnv) (call : ImportCall) : Prop where
  source : ValidSource env call.source
  actions : ∀ action ∈ call.actions, ValidAction env action

/-- Actions of the calls that share a version share the id: the version is a digest over the
action with its id. -/
def VersionsDiffer (calls : List ImportCall) : Prop :=
  ∀ call ∈ calls, ∀ action ∈ call.actions, ∀ call' ∈ calls, ∀ other ∈ call'.actions,
    action.versionId = other.versionId → action.actionId = other.actionId

/-- A listing afterwards returns the latest actions, a call that raises changes no file, and a
listing at the same time passes if it meets the condition. -/
structure ImportsAtomic (env : CatalogEnv) (calls : List ImportCall) : Prop where
  listed : ∃ actions, listActions env (filesAfter env noFiles calls) = .ok actions ∧
    (actions.map (·.actionId)).Nodup ∧ ∀ action, action ∈ actions ↔
      latestAction (effectiveCalls env noFiles calls) action.actionId = some action
  raised : ∀ before call after, calls = before ++ call :: after →
    ∀ e, (runCall env (filesAfter env noFiles before) call).result = some (.error e) →
      ∀ folder name, ((filesAfter env noFiles (before ++ [call])) folder).get name =
        ((filesAfter env noFiles before) folder).get name
  interleaved : ∀ before call after, calls = before ++ call :: after → ∀ names read,
    Interleaves (filesAfter env noFiles before ::
      (runCall env (filesAfter env noFiles before) call).seen.map (·.2)) names read →
    ListsSettled names read → ∃ actions, listActionsFrom env names read = .ok actions

/-! ## What a call leaves -/

section

variable {env : CatalogEnv} {files before : Files} {plans : List WritePlan} {call : ImportCall}
  {calls : List ImportCall} {action : CatalogAction} {name : String}

/-- The actions are as they were, or those of the plans are in place. -/
def Settles (before : Files) (plans : List WritePlan) (files : Files) : Prop :=
  (∀ folder, (files folder).keys.Nodup) ∧
    ((∀ name, (files .actions).get name = (before .actions).get name) ∨
      ∀ name, (files .actions).get name = overlay before plans .actions name)

variable {done : List WritePlan} {phase : Phase} {s : ImportState} {source : CatalogSource}
  {actions : List CatalogAction} {content : List Char} {code actionId : String}
  {effective : List ImportCall}

lemma overlay_of_actionCount_eq_zero (h : actionCount done = 0) (name : String) :
    overlay before done .actions name = (before .actions).get name := by
  refine overlay_of_forall_ne fun plan hplan hsame => ?_
  have hpos : 0 < actionCount done :=
    List.countP_pos_iff.2 ⟨plan, hplan, by rw [hsame.1]; exact beq_self_eq_true _⟩
  omega

/-- Plans for other folders make no difference. -/
lemma overlay_append_of_forall_ne {rest : List WritePlan}
    (h : ∀ plan ∈ rest, plan.folder ≠ .actions) (name : String) :
    overlay before (done ++ rest) .actions name = overlay before done .actions name := by
  unfold overlay
  rw [List.find?_append]
  cases done.find? fun plan => plan.folder = .actions ∧ plan.filename = name with
  | some plan => rfl
  | none =>
      rw [Option.none_or, List.find?_eq_none.2 fun plan hplan => by simp [h plan hplan]]

/-- What a whole state has of the actions. -/
lemma settles_of_isWhole (h : Visible before plans phase s)
    (hwhole : isWhole (phase, s.files) = true) : Settles before plans s.files := by
  obtain ⟨done, hlayout, hreached⟩ := h
  rw [isWhole, Bool.and_eq_true, Bool.not_eq_true', hasTemporary] at hwhole
  obtain ⟨htemporary, hphase⟩ := hwhole
  have hnone : ∀ slot path, s.paths .actions slot ≠ some path := by
    intro slot path hpath
    obtain ⟨content, hcontent⟩ := Option.isSome_iff_exists.1 (hlayout.present _ _ _ hpath)
    have hkey : path ∈ (s.files .actions).keys := by
      by_contra hnot
      rw [Dict.get_eq_none.2 hnot] at hcontent
      cases hcontent
    have hfalse := List.any_eq_false.1 htemporary path hkey
    rw [(hlayout.fresh _ _ _ hpath).1] at hfalse
    exact hfalse rfl
  have hget : ∀ name, (s.files .actions).get name = overlay before done .actions name :=
    fun name => hlayout.settled _ _ fun slot => hnone slot name
  refine ⟨hlayout.nodup, ?_⟩
  have hold : done = [] → Settles before plans s.files := by
    rintro rfl
    exact ⟨hlayout.nodup, .inl hget⟩
  cases phase with
  | staging => exact (hold hreached).2
  | committing remaining =>
      obtain ⟨rest, rfl, -, hstaged⟩ := hreached
      have hrest : ∀ plan ∈ rest, plan.folder ≠ .actions := by
        intro plan hplan hfolder
        obtain ⟨path, hpath⟩ := Option.isSome_iff_exists.1 (hstaged plan hplan)
        rw [hfolder] at hpath
        exact hnone _ path hpath
      exact .inr fun name => (hget name).trans (overlay_append_of_forall_ne hrest name).symm
  | restoring remaining =>
      cases remaining with
      | zero => exact .inl fun name =>
          (hget name).trans (overlay_of_actionCount_eq_zero hreached.1.symm name)
      | succ n => cases hphase
  | cleaning committed =>
      cases committed with
      | true =>
          obtain rfl : done = plans := hreached
          exact .inr hget
      | false => exact (hold hreached).2

/-- What a call does to the files. -/
structure CallSpec (env : CatalogEnv) (before : Files) (call : ImportCall) : Prop where
  nodup : ∀ folder, ((runCall env before call).files folder).keys.Nodup
  settles : (∀ name, ((runCall env before call).files .actions).get name =
      (before .actions).get name) ∧ (runCall env before call).result ≠ some (.ok ()) ∨
    (call.actions.map (·.actionId)).Nodup ∧
      (∀ name, ((runCall env before call).files .actions).get name =
        overlay before (call.actions.map actionPlan) .actions name) ∧
      ∀ e, (runCall env before call).result ≠ some (.error e)
  raised : ∀ e, (runCall env before call).result = some (.error e) → ∀ folder name,
    ((runCall env before call).files folder).get name = (before folder).get name
  seen : ∀ entry ∈ (runCall env before call).seen,
    (∀ folder, (entry.2 folder).keys.Nodup) ∧
    ∀ name content, (entry.2 .actions).get name = some content → isTemporaryName name = false →
      (before .actions).get name = some content ∨
        ∃ action ∈ call.actions, name = action.filename ∧ content = action.canonicalJson

/-- The source makes no difference to the actions. -/
lemma overlay_sourcePlan (source : CatalogSource) (actions : List CatalogAction) (name : String) :
    overlay before (sourcePlan source :: actions.map actionPlan) .actions name =
      overlay before (actions.map actionPlan) .actions name := by
  unfold overlay
  rw [List.find?_cons_of_neg]
  simp [sourcePlan]

lemma Reached.subset (h : Reached plans done s phase) : done ⊆ plans := by
  have hnil : done = [] → done ⊆ plans := by
    rintro rfl
    exact List.nil_subset _
  cases phase with
  | staging => exact hnil h
  | committing remaining =>
      obtain ⟨rest, rfl, -⟩ := h
      exact List.subset_append_left _ _
  | restoring remaining =>
      obtain ⟨-, rest, rfl⟩ := h
      exact List.subset_append_left _ _
  | cleaning committed =>
      cases committed with
      | true =>
          obtain rfl : done = plans := h
          exact List.Subset.refl _
      | false => exact hnil h

/-- What can be seen of the actions has a temporary name, was there before, or is one of the
call's. -/
lemma Visible.get_eq_some (h : Visible before (sourcePlan source :: actions.map actionPlan) phase s)
    (hget : (s.files .actions).get name = some content) (hname : isTemporaryName name = false) :
    (before .actions).get name = some content ∨
      ∃ action ∈ actions, name = action.filename ∧ content = action.canonicalJson := by
  obtain ⟨done, hlayout, hreached⟩ := h
  rw [hlayout.get_destination hname] at hget
  obtain hbefore | ⟨plan, hplan, hfolder, rfl, rfl⟩ := overlay_eq_some hget
  · exact .inl hbefore
  · rcases List.mem_cons.1 (hreached.subset hplan) with rfl | hmem
    · cases hfolder
    · obtain ⟨action, haction, rfl⟩ := List.mem_map.1 hmem
      exact .inr ⟨action, haction, rfl, rfl⟩

/-- An import of records that are refused looks at the files and raises. -/
lemma triple_writeImport_refused (before : Files)
    (h : prepareImport env source actions = .error code) :
    Triple (fun _ s => s = .initial before) (fun _ s => s = .initial before)
      (writeImport env source actions) (fun _ _ _ => False) (fun _ _ s => s = .initial before) := by
  unfold writeImport
  rw [h]
  refine triple_bind (triple_forM_look fun _ _ => ?_) fun _ => triple_throw fun _ _ hs => hs
  exact triple_look (fun _ _ hs => hs) (fun _ _ hs => hs) fun _ hs => hs

/-- The states that others see are states that the import visits. -/
lemma exists_of_mem_seen {entry : Phase × Files} (h : entry ∈ (runCall env before call).seen) :
    ∃ visited ∈ (writeImport env call.source call.actions call.fault (.initial before)).visited,
      entry = (visited.1, visited.2.files) := by
  have hmem : entry ∈ (writeImport env call.source call.actions call.fault
      (.initial before)).visited.map fun visited => (visited.1, visited.2.files) := by
    unfold runCall at h
    dsimp only at h
    split at h
    · exact h
    · exact List.mem_of_mem_take h
  obtain ⟨visited, hvisited, rfl⟩ := List.mem_map.1 hmem
  exact ⟨visited, hvisited, rfl⟩

/-- The files of a call that is cut off are those of the last state that was seen. -/
lemma runCall_of_crash (env : CatalogEnv) (before : Files) (hcrash : call.crash ≠ none) :
    (runCall env before call).result = none ∧
      ((runCall env before call).files = before ∨
        ∃ entry ∈ (runCall env before call).seen.getLast?,
          (runCall env before call).files = entry.2) := by
  unfold runCall
  cases hn : call.crash with
  | none => exact absurd hn hcrash
  | some n =>
      refine ⟨rfl, ?_⟩
      dsimp only
      cases hlast : ((((writeImport env call.source call.actions call.fault

    (.initial before)).visited.map fun entry => (entry.1, entry.2.files)).take n)).getLast? with
      | none => exact .inl rfl
      | some entry => exact .inr ⟨entry, rfl, rfl⟩

lemma runCall_of_no_crash (env : CatalogEnv) (before : Files) (hcrash : call.crash = none) :
    (runCall env before call).result = some (writeImport env call.source call.actions call.fault
      (.initial before)).result ∧
    (runCall env before call).files = (writeImport env call.source call.actions call.fault
      (.initial before)).state.files ∧
    (runCall env before call).failed = (writeImport env call.source call.actions call.fault
      (.initial before)).failed := by
  unfold runCall
  rw [hcrash]
  exact ⟨rfl, rfl, rfl⟩

/-- A call with records that are refused changes nothing. -/
lemma callSpec_refused (h : prepareImport env call.source call.actions = .error code)
    (hnodup : ∀ folder, (before folder).keys.Nodup) : CallSpec env before call := by
  have hmeets := triple_writeImport_refused before h call.fault (.initial before) rfl
  have hseen : ∀ entry ∈ (runCall env before call).seen, entry.2 = before := by
    intro entry hentry
    obtain ⟨visited, hvisited, rfl⟩ := exists_of_mem_seen hentry
    rw [hmeets.visited visited hvisited]
    rfl
  have hfiles : (runCall env before call).files = before := by
    by_cases hcrash : call.crash = none
    · rw [(runCall_of_no_crash env before hcrash).2.1]
      cases hresult : (writeImport env call.source call.actions call.fault
          (.initial before)).result with
      | ok u => exact (hmeets.ok u hresult).elim
      | error e =>
          rw [hmeets.error e hresult]
          rfl
    · obtain ⟨-, hbefore | ⟨entry, hentry, hlast⟩⟩ := runCall_of_crash env before hcrash
      · exact hbefore
      · rw [hlast, hseen entry (List.mem_of_getLast? hentry)]
  refine ⟨fun folder => by rw [hfiles]; exact hnodup folder, .inl ⟨fun name => by rw [hfiles], ?_⟩,
    fun e _ folder name => by rw [hfiles], ?_⟩
  · intro hok
    by_cases hcrash : call.crash = none
    · rw [(runCall_of_no_crash env before hcrash).1] at hok
      exact hmeets.ok () (Option.some.inj hok)
    · rw [(runCall_of_crash env before hcrash).1] at hok
      cases hok
  · intro entry hentry
    rw [hseen entry hentry]
    exact ⟨hnodup, fun name content hget _ => .inl hget⟩

/-- What a call of valid records does to the files, if it is not disturbed. -/
lemma callSpec (henv : TemporaryNames env) (hvalid : ValidCall env call)
    (hnodup : ∀ folder, (before folder).keys.Nodup) (h : ImportUndisturbed env before call) :
    CallSpec env before call := by
  cases hprepare : prepareImport env call.source call.actions with
  | error code => exact callSpec_refused hprepare hnodup
  | ok plans =>
      obtain ⟨rfl, hids⟩ := plans_of_prepareImport hvalid.source hvalid.actions hprepare
      have hplanned := planned_of_valid henv hvalid.source hvalid.actions hids
      have hmeets := triple_writeImport hprepare hplanned hnodup call.fault (.initial before) rfl
      have hseen : ∀ entry ∈ (runCall env before call).seen, ∃ s : ImportState,
          entry.2 = s.files ∧
            Visible before (sourcePlan call.source :: call.actions.map actionPlan) entry.1 s := by
        intro entry hentry
        obtain ⟨visited, hvisited, rfl⟩ := exists_of_mem_seen hentry
        exact ⟨visited.2, rfl, hmeets.visited visited hvisited⟩
      have hlast : ∀ entry ∈ (runCall env before call).seen, (∀ folder, (entry.2 folder).keys.Nodup) ∧
          ∀ name content, (entry.2 .actions).get name = some content →
            isTemporaryName name = false → (before .actions).get name = some content ∨
              ∃ action ∈ call.actions, name = action.filename ∧ content = action.canonicalJson := by
        intro entry hentry
        obtain ⟨s, heq, hvisible⟩ := hseen entry hentry
        rw [heq]
        refine ⟨?_, fun name content => hvisible.get_eq_some⟩
        obtain ⟨done, hlayout, -⟩ := hvisible
        exact hlayout.nodup
      by_cases hcrash : call.crash = none
      · obtain ⟨hresult, hfiles, hfailed⟩ := runCall_of_no_crash env before hcrash
        cases houtcome : (writeImport env call.source call.actions call.fault
            (.initial before)).result with
        | ok u =>
            obtain ⟨hkeys, hget⟩ := hmeets.ok u houtcome
            rw [← hfiles] at hkeys hget
            rw [houtcome] at hresult
            refine ⟨hkeys, .inr ⟨hids, fun name => ?_, ?_⟩, ?_, hlast⟩
            · rw [hget, overlay_sourcePlan]
            · intro e he
              rw [hresult] at he
              cases he
            · intro e he
              rw [hresult] at he
              cases he
        | error e =>
            rw [houtcome] at hresult
            have hrestored : Imported before [] (writeImport env call.source call.actions call.fault
                (.initial before)).state := by
              refine (hmeets.error e houtcome).resolve_left fun he => h.cleaned ?_
              rw [hfailed]
              exact (reports_writeImport _ _).error _ _ _ (he ▸ houtcome)
            obtain ⟨hkeys, hget⟩ := hrestored
            rw [← hfiles] at hkeys hget
            refine ⟨hkeys, .inl ⟨fun name => hget .actions name, ?_⟩,
              fun _ _ folder name => hget folder name, hlast⟩
            intro hok
            rw [hresult] at hok
            cases hok
      · obtain ⟨hresult, hfiles⟩ := runCall_of_crash env before hcrash
        have hnone : ∀ result, (runCall env before call).result ≠ some result := by
          intro result heq
          rw [hresult] at heq
          cases heq
        obtain hfiles | ⟨entry, hentry, hfiles⟩ := hfiles
        · exact ⟨fun folder => by rw [hfiles]; exact hnodup folder,
            .inl ⟨fun name => by rw [hfiles], hnone _⟩, fun e he => absurd he (hnone _), hlast⟩
        · obtain ⟨s, heq, hvisible⟩ := hseen entry (List.mem_of_getLast? hentry)
          have hwhole : isWhole (entry.1, s.files) = true := heq ▸ h.whole hcrash entry hentry
          obtain ⟨hkeys, hsettles⟩ := settles_of_isWhole hvisible hwhole
          rw [← heq, ← hfiles] at hkeys hsettles
          refine ⟨hkeys, ?_, fun e he => absurd he (hnone _), hlast⟩
          obtain hold | hnew := hsettles
          · exact .inl ⟨hold, hnone _⟩
          · exact .inr ⟨hids, fun name => by rw [hnew, overlay_sourcePlan], fun e => hnone _⟩

/-! ## Runs -/

lemma latestAction_concat (actionId : String) : latestAction (calls ++ [call]) actionId =
    (call.actions.find? fun action => action.actionId = actionId).or
      (latestAction calls actionId) := by
  unfold latestAction
  rw [List.reverse_append, List.reverse_singleton, List.singleton_append, List.findSome?_cons]
  cases call.actions.find? fun action => action.actionId = actionId with
  | none => rfl
  | some action => rfl

lemma of_find?_actionId (h : actions.find? (fun action => action.actionId = actionId) = some action) :
    action ∈ actions ∧ action.actionId = actionId := by
  have hid := List.find?_some h
  exact ⟨List.mem_of_find?_eq_some h, of_decide_eq_true hid⟩

/-- The plans of actions with their own ids have their own destinations. -/
lemma nodup_actionPlans (h : (actions.map (·.actionId)).Nodup) :
    ((actions.map actionPlan).map fun plan => (plan.folder, plan.filename)).Nodup := by
  rw [List.map_map]
  refine (List.Nodup.of_map _ h).map_on fun action haction other hother heq => ?_
  exact List.inj_on_of_nodup_map h haction hother (filename_inj (congrArg Prod.snd heq))

lemma mem_of_latestAction (h : latestAction calls actionId = some action) :
    action.actionId = actionId ∧ ∃ call ∈ calls, action ∈ call.actions := by
  obtain ⟨call, hcall, hfind⟩ := List.exists_of_findSome?_eq_some h
  obtain ⟨haction, hid⟩ := of_find?_actionId hfind
  exact ⟨hid, call, List.mem_reverse.1 hcall, haction⟩

/-- The actions are the latest of the effective calls. -/
structure Catalogued (effective : List ImportCall) (files : Files) : Prop where
  nodup : ∀ folder, (files folder).keys.Nodup
  get : ∀ name content, (files .actions).get name = some content ↔
    ∃ action, latestAction effective action.actionId = some action ∧ name = action.filename ∧
      content = action.canonicalJson

lemma catalogued_noFiles : Catalogued [] noFiles :=
  ⟨fun _ => List.nodup_nil, fun name content => by simp [noFiles, latestAction]⟩

/-- A call whose actions are all in place changes no latest action. -/
lemma Catalogued.latestAction_concat (h : Catalogued effective files)
    (heffective : ∀ call ∈ effective, ValidCall env call) (hvalid : ValidCall env call)
    (hplace : ∀ action ∈ call.actions,
      (files .actions).get action.filename = some action.canonicalJson) (actionId : String) :
    latestAction (effective ++ [call]) actionId = latestAction effective actionId := by
  rw [Catalog.latestAction_concat]
  cases hfind : call.actions.find? fun action => action.actionId = actionId with
  | none => rw [Option.none_or]
  | some action =>
      obtain ⟨haction, hid⟩ := of_find?_actionId hfind
      obtain ⟨other, hlatest, hname, hcontent⟩ := (h.get _ _).1 (hplace action haction)
      obtain ⟨-, call', hcall', hother⟩ := mem_of_latestAction hlatest
      have heq : action = other := (hvalid.actions action haction).eq_of_canonicalJson
        ((heffective call' hcall').actions other hother) hcontent
      rw [← heq, hid] at hlatest
      rw [hlatest]
      rfl

/-- What the overlay of a call's actions holds. -/
lemma Catalogued.overlay (h : Catalogued effective files)
    (hids : (call.actions.map (·.actionId)).Nodup) (name : String) (content : List Char) :
    overlay files (call.actions.map actionPlan) .actions name = some content ↔
      ∃ action, latestAction (effective ++ [call]) action.actionId = some action ∧
        name = action.filename ∧ content = action.canonicalJson := by
  have hfind : ∀ action ∈ call.actions,
      call.actions.find? (fun other => other.actionId = action.actionId) = some action := by
    intro action haction
    cases hfind : call.actions.find? fun other => other.actionId = action.actionId with
    | none =>
        have hne := List.find?_eq_none.1 hfind action haction
        simp at hne
    | some other =>
        obtain ⟨hother, hid⟩ := of_find?_actionId hfind
        rw [List.inj_on_of_nodup_map hids hother haction hid]
  by_cases hmem : ∃ action ∈ call.actions, name = action.filename
  · obtain ⟨action, haction, rfl⟩ := hmem
    have hoverlay : Catalog.overlay files (call.actions.map actionPlan) .actions action.filename =
        some action.canonicalJson := overlay_of_mem (nodup_actionPlans hids) (List.mem_map_of_mem haction)
    have hlatest : latestAction (effective ++ [call]) action.actionId = some action := by
      rw [Catalog.latestAction_concat, hfind action haction]
      rfl
    rw [hoverlay]
    constructor
    · intro heq
      exact ⟨action, hlatest, rfl, (Option.some.inj heq).symm⟩
    · rintro ⟨other, hother, hname, rfl⟩
      rw [← filename_inj hname, hlatest] at hother
      rw [Option.some.inj hother]
  · have hold : Catalog.overlay files (call.actions.map actionPlan) .actions name =
        (files .actions).get name := by
      refine overlay_of_forall_ne fun plan hplan hsame => ?_
      obtain ⟨action, haction, rfl⟩ := List.mem_map.1 hplan
      exact hmem ⟨action, haction, hsame.2.symm⟩
    rw [hold, h.get]
    refine exists_congr fun action => and_congr_left fun hname => ?_
    have hnone : call.actions.find? (fun other => other.actionId = action.actionId) = none := by
      refine List.find?_eq_none.2 fun other hother heq => hmem ⟨other, hother, ?_⟩
      rw [hname.1, CatalogAction.filename, CatalogAction.filename, of_decide_eq_true heq]
    rw [Catalog.latestAction_concat, hnone, Option.none_or]

/-- One call. -/
lemma Catalogued.runCall (h : Catalogued effective files)
    (heffective : ∀ call ∈ effective, ValidCall env call) (hvalid : ValidCall env call)
    (hspec : CallSpec env files call) :
    Catalogued (if tookEffect (Catalog.runCall env files call) call then effective ++ [call]
      else effective) (Catalog.runCall env files call).files := by
  refine ⟨hspec.nodup, fun name content => ?_⟩
  obtain ⟨hold, hresult⟩ | ⟨hids, hnew, hresult⟩ := hspec.settles
  · rw [hold, h.get]
    split
    next htook =>
      have hplace : ∀ action ∈ call.actions,
          (files .actions).get action.filename = some action.canonicalJson := by
        unfold tookEffect at htook
        split at htook
        next hok => exact absurd hok hresult
        · cases htook
        · intro action haction
          have hget := List.all_eq_true.1 htook action haction
          rw [beq_iff_eq, hold] at hget
          exact hget
      simp only [h.latestAction_concat heffective hvalid hplace]
    · rfl
  · have htook : tookEffect (Catalog.runCall env files call) call = true := by
      unfold tookEffect
      split
      · rfl
      next e he => exact absurd he (hresult e)
      · refine List.all_eq_true.2 fun action haction => ?_
        rw [beq_iff_eq, hnew]
        exact overlay_of_mem (nodup_actionPlans hids) (List.mem_map_of_mem haction)
    rw [htook, if_pos rfl, hnew, h.overlay hids]

lemma effectiveCalls_append (files : Files) (calls rest : List ImportCall) :
    effectiveCalls env files (calls ++ rest) =
      effectiveCalls env files calls ++ effectiveCalls env (filesAfter env files calls) rest := by
  induction calls generalizing files with
  | nil => rfl
  | cons call calls ih =>
      rw [List.cons_append, effectiveCalls, effectiveCalls]
      rw [ih]
      split
      · rfl
      · rfl

lemma mem_of_mem_effectiveCalls (h : call ∈ effectiveCalls env files calls) : call ∈ calls := by
  induction calls generalizing files with
  | nil => exact h
  | cons first calls ih =>
      rw [effectiveCalls] at h
      split at h
      · rcases List.mem_cons.1 h with rfl | h
        · exact List.mem_cons_self
        · exact List.mem_cons_of_mem _ (ih h)
      · exact List.mem_cons_of_mem _ (ih h)

lemma allImportsUndisturbed_append {rest : List ImportCall} :
    AllImportsUndisturbed env files (calls ++ rest) ↔ AllImportsUndisturbed env files calls ∧
      AllImportsUndisturbed env (filesAfter env files calls) rest := by
  induction calls generalizing files with
  | nil => exact ⟨fun h => ⟨trivial, h⟩, fun h => h.2⟩
  | cons call calls ih =>
      rw [List.cons_append, AllImportsUndisturbed, AllImportsUndisturbed, ih, and_assoc]
      rfl

/-- A run of calls. -/
lemma catalogued_filesAfter (henv : TemporaryNames env) (calls : List ImportCall)
    (hvalid : ∀ call ∈ calls, ValidCall env call) (h : AllImportsUndisturbed env noFiles calls) :
    Catalogued (effectiveCalls env noFiles calls) (filesAfter env noFiles calls) := by
  induction calls using List.reverseRecOn with
  | nil => exact catalogued_noFiles
  | append_singleton calls call ih =>
      obtain ⟨hcalls, hcall, -⟩ := allImportsUndisturbed_append.1 h
      have hbefore := ih (fun call hmem => hvalid call (List.mem_append_left _ hmem)) hcalls
      have hvalidCall := hvalid call (List.mem_append_right _ List.mem_cons_self)
      have hstep := hbefore.runCall
        (fun call hmem => hvalid call (List.mem_append_left _ (mem_of_mem_effectiveCalls hmem)))
        hvalidCall (callSpec henv hvalidCall hbefore.nodup hcall)
      have heffective : effectiveCalls env noFiles (calls ++ [call]) =
          if tookEffect (runCall env (filesAfter env noFiles calls) call) call then
            effectiveCalls env noFiles calls ++ [call]
          else effectiveCalls env noFiles calls := by
        rw [effectiveCalls_append, effectiveCalls]
        split
        · rfl
        · exact List.append_nil _
      have hfiles : filesAfter env noFiles (calls ++ [call]) =
          (runCall env (filesAfter env noFiles calls) call).files := by
        unfold filesAfter
        rw [List.foldl_append]
        rfl
      rw [heffective, hfiles]
      exact hstep

/-- The listed actions of a listing whose files are those of known actions. -/
lemma exists_listActionsFrom_of_known {names : List String} {read : String → Option (List Char)}
    (hvalid : ∀ call ∈ calls, ValidCall env call) (hversions : VersionsDiffer calls)
    (hnodup : names.Nodup) (h : ∀ name ∈ names, ∃ call ∈ calls, ∃ action ∈ call.actions,
      name = action.filename ∧ read name = some action.canonicalJson) :
    ∃ listed, listActionsFrom env names read = .ok listed ∧ (listed.map (·.actionId)).Nodup ∧
      ∀ action, action ∈ listed ↔ ∃ name ∈ names, Listed env read name action := by
  have hknown : ∀ name ∈ names, ∀ action, Listed env read name action →
      ∃ call ∈ calls, action ∈ call.actions := by
    intro name hname action hlisted
    obtain ⟨call, hcall, other, hother, hnamed, hcontent⟩ := h name hname
    have hlisted' : Listed env read name other :=
      ⟨hnamed, (hvalid call hcall).actions other hother, hcontent⟩
    exact ⟨call, hcall, hlisted.unique hlisted' ▸ hother⟩
  refine exists_listActionsFrom hnodup (fun name hname => ?_) ?_
  · obtain ⟨call, hcall, action, haction, hnamed, hcontent⟩ := h name hname
    exact ⟨action, hnamed, (hvalid call hcall).actions action haction, hcontent⟩
  · intro name hname action hlisted name' hname' other hlisted' heq
    obtain ⟨call, hcall, haction⟩ := hknown name hname action hlisted
    obtain ⟨call', hcall', hother⟩ := hknown name' hname' other hlisted'
    exact hversions call hcall action haction call' hcall' other hother heq

/-- The actions that are catalogued are known. -/
lemma Catalogued.exists_mem (h : Catalogued effective files)
    (hget : (files .actions).get name = some content) :
    ∃ call ∈ effective, ∃ action ∈ call.actions,
      name = action.filename ∧ content = action.canonicalJson := by
  obtain ⟨action, hlatest, hname, hcontent⟩ := (h.get name content).1 hget
  obtain ⟨-, call, hcall, haction⟩ := mem_of_latestAction hlatest
  exact ⟨call, hcall, action, haction, hname, hcontent⟩

/-- A listing returns what is catalogued. -/
lemma Catalogued.exists_listActions (h : Catalogued effective files)
    (hvalid : ∀ call ∈ calls, ValidCall env call) (hversions : VersionsDiffer calls)
    (hsub : effective ⊆ calls) :
    ∃ actions, listActions env files = .ok actions ∧ (actions.map (·.actionId)).Nodup ∧
      ∀ action, action ∈ actions ↔ latestAction effective action.actionId = some action := by
  have hknown : ∀ name ∈ (files .actions).keys, ∃ call ∈ calls, ∃ action ∈ call.actions,
      name = action.filename ∧ (files .actions).get name = some action.canonicalJson := by
    intro name hname
    cases hget : (files .actions).get name with
    | none => exact absurd hname (Dict.get_eq_none.1 hget)
    | some content =>
        obtain ⟨call, hcall, action, haction, hnamed, rfl⟩ := h.exists_mem hget
        exact ⟨call, hsub hcall, action, haction, hnamed, rfl⟩
  obtain ⟨actions, hlisted, hnodup, hmem⟩ :=
    exists_listActionsFrom_of_known hvalid hversions (h.nodup .actions) hknown
  refine ⟨actions, hlisted, hnodup, fun action => ?_⟩
  rw [hmem]
  constructor
  · rintro ⟨name, -, hlisted⟩
    obtain ⟨other, hlatest, hname, hcontent⟩ := (h.get _ _).1 hlisted.content
    obtain ⟨-, call, hcall, hother⟩ := mem_of_latestAction hlatest
    have hvalidOther := (hvalid call (hsub hcall)).actions other hother
    rw [hlisted.valid.eq_of_canonicalJson hvalidOther hcontent]
    exact hlatest
  · intro hlatest
    obtain ⟨-, call, hcall, haction⟩ := mem_of_latestAction hlatest
    have hget := (h.get action.filename _).2 ⟨action, hlatest, rfl, rfl⟩
    refine ⟨action.filename, ?_, rfl, (hvalid call (hsub hcall)).actions action haction, hget⟩
    by_contra hnot
    rw [Dict.get_eq_none.2 hnot] at hget
    cases hget

/-- At every moment of a call, what does not have a temporary name is a known action. -/
lemma CallSpec.known_of_seen (hspec : CallSpec env files call) (h : Catalogued effective files)
    (hsub : effective ⊆ calls) (hmem : call ∈ calls) :
    ∀ moment ∈ files :: (runCall env files call).seen.map (·.2),
      (∀ folder, (moment folder).keys.Nodup) ∧ ∀ name content,
        (moment .actions).get name = some content → isTemporaryName name = false →
          ∃ call ∈ calls, ∃ action ∈ call.actions,
            name = action.filename ∧ content = action.canonicalJson := by
  have hold : ∀ name content, (files .actions).get name = some content →
      ∃ call ∈ calls, ∃ action ∈ call.actions,
        name = action.filename ∧ content = action.canonicalJson := by
    intro name content hget
    obtain ⟨other, hother, hknown⟩ := h.exists_mem hget
    exact ⟨other, hsub hother, hknown⟩
  intro moment hmoment
  rcases List.mem_cons.1 hmoment with rfl | hseen
  · exact ⟨h.nodup, fun name content hget _ => hold name content hget⟩
  · obtain ⟨entry, hentry, rfl⟩ := List.mem_map.1 hseen
    obtain ⟨hnodup, hget⟩ := hspec.seen entry hentry
    refine ⟨hnodup, fun name content hcontent hname => ?_⟩
    obtain hcontent | ⟨action, haction, hknown⟩ := hget name content hcontent hname
    · exact hold name content hcontent
    · exact ⟨call, hmem, action, haction, hknown⟩

end

/-- Runs of valid imports are atomic if no import is cut off while a temporary file is among the
actions or a part of them is restored, no removal of a temporary file fails after a commit, and
listings at the same time find no temporary file and no file that is gone when it is read. -/
theorem imports_atomic {env : CatalogEnv} (henv : TemporaryNames env) {calls : List ImportCall}
    (hvalid : ∀ call ∈ calls, ValidCall env call) (hversions : VersionsDiffer calls)
    (h : AllImportsUndisturbed env noFiles calls) : ImportsAtomic env calls := by
  have hinitial : ∀ before rest, calls = before ++ rest →
      Catalogued (effectiveCalls env noFiles before) (filesAfter env noFiles before) := by
    rintro before rest rfl
    exact catalogued_filesAfter henv before
      (fun call hmem => hvalid call (List.mem_append_left _ hmem))
      (allImportsUndisturbed_append.1 h).1
  have hspec : ∀ before call after, calls = before ++ call :: after →
      CallSpec env (filesAfter env noFiles before) call := by
    intro before call after heq
    have hbefore := hinitial before _ heq
    subst heq
    exact callSpec henv (hvalid call (List.mem_append_right _ List.mem_cons_self)) hbefore.nodup
      (allImportsUndisturbed_append.1 h).2.1
  refine ⟨?_, ?_, ?_⟩
  · exact (hinitial calls [] (List.append_nil calls).symm).exists_listActions hvalid hversions
      fun call hcall => mem_of_mem_effectiveCalls hcall
  · intro before call after heq e he folder name
    have hfiles : filesAfter env noFiles (before ++ [call]) =
        (runCall env (filesAfter env noFiles before) call).files := by
      unfold filesAfter
      rw [List.foldl_append]
      rfl
    rw [hfiles]
    exact (hspec before call after heq).raised e he folder name
  · intro before call after heq names read hinterleaves hsettled
    have hmoments := (hspec before call after heq).known_of_seen (hinitial before _ heq)
      (fun other hother => heq ▸ List.mem_append_left _ (mem_of_mem_effectiveCalls hother))
      (heq ▸ List.mem_append_right _ List.mem_cons_self : call ∈ calls)
    obtain ⟨earlier, now, later, hsplit, rfl, hread⟩ := hinterleaves
    have hnow := hmoments now (hsplit ▸ List.mem_append_right _ List.mem_cons_self)
    have hknown : ∀ name ∈ (now .actions).keys, ∃ call ∈ calls, ∃ action ∈ call.actions,
        name = action.filename ∧ read name = some action.canonicalJson := by
      intro name hname
      obtain ⟨htemporary, hpresent⟩ := hsettled name hname
      obtain ⟨content, hcontent⟩ := Option.isSome_iff_exists.1 hpresent
      obtain ⟨files, hfiles, hget⟩ := hread name hname
      have hmoment := (hmoments files (hsplit ▸ List.mem_append_right _ hfiles)).2 name content
        (hget ▸ hcontent) htemporary
      obtain ⟨known, hknown, action, haction, hnamed, rfl⟩ := hmoment
      exact ⟨known, hknown, action, haction, hnamed, hcontent⟩
    obtain ⟨actions, hlisted, -⟩ :=
      exists_listActionsFrom_of_known hvalid hversions (hnow.1 .actions) hknown
    exact ⟨actions, hlisted⟩

/-! ## A catalog of one action -/

def contactsAction : CatalogAction where
  actionId := "act_000000000000000000000001"
  versionId := "av_1"
  connectorId := "flowaccount"
  capability := "contacts.read"
  method := "GET"
  pathTemplate := "/contacts"
  variantId := "default"
  canonicalJson := "\x7b\"capability\":\"contacts.read\"\x7d".toList

def contactsSource : CatalogSource :=
  ⟨"src_000000000000000000000001", "\x7b\"connector_id\":\"flowaccount\"\x7d".toList⟩

/-- A temporary name that is longer than the names in use. -/
def longTemporaryName (names : List String) : String :=
  String.ofList (".catalog-".toList ++
    (List.replicate (names.flatMap String.toList).length 'x' ++ ".tmp".toList))

/-- A validation that knows the one action and the one source. -/
def contactsEnv : CatalogEnv where
  revalidateSource source := if source = contactsSource then some source else none
  revalidateAction action := if action = contactsAction then some action else none
  loadAction text :=
    if text = contactsAction.canonicalJson then .ok contactsAction
    else .error "catalog_action_invalid"
  temporaryName := longTemporaryName

def contactsCall (fault crash : Option Nat) : ImportCall :=
  ⟨contactsSource, [contactsAction], fault, crash⟩

lemma toList_longTemporaryName (names : List String) : (longTemporaryName names).toList =
    ".catalog-".toList ++
      (List.replicate (names.flatMap String.toList).length 'x' ++ ".tmp".toList) :=
  String.toList_ofList

lemma temporaryNames_contactsEnv : TemporaryNames contactsEnv where
  fresh names hmem := by
    have hle : (longTemporaryName names).toList.length ≤ (names.flatMap String.toList).length :=
      (List.sublist_flatten_of_mem (List.mem_map_of_mem hmem)).length_le
    have hcatalog : ".catalog-".toList.length = 9 := rfl
    rw [toList_longTemporaryName, List.length_append, List.length_append,
      List.length_replicate] at hle
    omega
  temporary names := by
    have hstart : ".catalog-".toList.isPrefixOf (longTemporaryName names).toList = true := by
      rw [toList_longTemporaryName]
      exact List.isPrefixOf_iff_prefix.2 (List.prefix_append _ _)
    have hend : ".tmp".toList.isSuffixOf (longTemporaryName names).toList = true := by
      rw [toList_longTemporaryName, ← List.append_assoc]
      exact List.isSuffixOf_iff_suffix.2 (List.suffix_append _ _)
    exact (congrArg₂ and hstart hend).trans rfl

lemma validSource_contactsSource : ValidSource contactsEnv contactsSource where
  revalidated := by simp [contactsEnv]
  filename := by decide

lemma validAction_contactsAction : ValidAction contactsEnv contactsAction where
  revalidated := by simp [contactsEnv]
  filename := by decide
  loaded := by simp [contactsEnv]

lemma validCall_contactsCall (fault crash : Option Nat) :
    ValidCall contactsEnv (contactsCall fault crash) where
  source := validSource_contactsSource
  actions action haction := by
    rw [List.mem_singleton.1 haction]
    exact validAction_contactsAction

/-- An import is cut off when it has created the temporary file for its action: no listing passes
any more. -/
theorem listActions_temporaryFile :
    ValidCall contactsEnv (contactsCall none (some 13)) ∧
      listActions contactsEnv (filesAfter contactsEnv noFiles [contactsCall none (some 13)]) =
        .error "catalog_action_filename_invalid" :=
  ⟨validCall_contactsCall _ _, rfl⟩

/-- An import that returns, and one of the same action that fails while it stages its files. -/
theorem imports_atomic_contacts :
    ImportsAtomic contactsEnv [contactsCall none none, contactsCall (some 15) none] := by
  refine imports_atomic temporaryNames_contactsEnv ?_ ?_ ?_
  · simp only [List.forall_mem_cons]
    exact ⟨validCall_contactsCall _ _, validCall_contactsCall _ _, nofun⟩
  · intro call hcall action haction call' hcall' other hother _
    have hone : ∀ call ∈ [contactsCall none none, contactsCall (some 15) none],
        ∀ action ∈ call.actions, action = contactsAction := by
      simp [contactsCall]
    rw [hone call hcall action haction, hone call' hcall' other hother]
  · refine ⟨⟨?_, fun hcrash => absurd rfl hcrash⟩, ⟨?_, fun hcrash => absurd rfl hcrash⟩, trivial⟩
    · exact ne_of_eq_of_ne (show _ = none from rfl) nofun
    · exact ne_of_eq_of_ne (show _ = some Phase.staging from rfl) nofun

end MercuryTools.Catalog
