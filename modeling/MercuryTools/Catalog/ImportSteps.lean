import MercuryTools.Catalog.ImportLayout

/-!
# What an import leaves

Every state that an import visits is the layout of the plans that are committed at that point, and
tells what the import is doing.  An import that returns has committed all of its plans, and one
that raises has committed none, unless the removal of a temporary file fails after the commit.
-/

namespace MercuryTools.Catalog

open Program

/-- How far the import has got in each phase. -/
def Reached (plans done : List WritePlan) (s : ImportState) : Phase → Prop
  | .staging => done = []
  | .committing remaining => ∃ rest, plans = done ++ rest ∧ remaining = actionCount rest ∧
      ∀ plan ∈ rest, (s.paths plan.folder (.staged plan.filename)).isSome = true
  | .restoring remaining => remaining = actionCount done ∧ ∃ rest, plans = done ++ rest
  | .cleaning true => done = plans
  | .cleaning false => done = []

/-- A state that an import visits. -/
def Visible (before : Files) (plans : List WritePlan) (phase : Phase) (s : ImportState) : Prop :=
  ∃ done, Layout before plans done s ∧ Reached plans done s phase

section

variable {I : Phase → ImportState → Prop} {P : Bool → ImportState → Prop} {α : Type}
  {f : ImportState → α} {g : ImportState → ImportState} {Q : α → Bool → ImportState → Prop}
  {R : Unit → Bool → ImportState → Prop} {E : ImportError → Bool → ImportState → Prop}
  {phase : Phase}

lemma triple_look (hI : ∀ b s, P b s → I phase s) (hQ : ∀ b s, P b s → Q (f s) b s)
    (hE : ∀ s, P true s → E (.osError phase) false s) : Triple I P (look phase f) Q E :=
  triple_step (fun b s hs => ⟨hI b s hs, hQ b s hs⟩) hE

lemma triple_change (hI : ∀ b s, P b s → I phase (g s)) (hR : ∀ b s, P b s → R () b (g s))
    (hE : ∀ s, P true s → E (.osError phase) false s) : Triple I P (change phase g) R E :=
  triple_step (fun b s hs => ⟨hI b s hs, hR b s hs⟩) hE

lemma triple_assign (hR : ∀ b s, P b s → R () b (g s)) : Triple I P (assign g) R E :=
  triple_modifyGet hR

variable {β : Type}

/-- What is read is what the state holds. -/
lemma triple_current_bind {next : α → ImportProgram β} {S : β → Bool → ImportState → Prop}
    (hnext : ∀ a, Triple I (fun b s => P b s ∧ f s = a) (next a) S E) :
    Triple I P (current f >>= next) S E :=
  triple_bind (Q := fun a b s => P b s ∧ f s = a)
    (triple_modifyGet fun _ _ hs => ⟨hs, rfl⟩) hnext

lemma triple_look_bind {next : α → ImportProgram β} {S : β → Bool → ImportState → Prop}
    (hI : ∀ b s, P b s → I phase s) (hE : ∀ s, P true s → E (.osError phase) false s)
    (hnext : ∀ a, Triple I (fun b s => P b s ∧ f s = a) (next a) S E) :
    Triple I P (look phase f >>= next) S E :=
  triple_bind (Q := fun a b s => P b s ∧ f s = a)
    (triple_look hI (fun _ _ hs => ⟨hs, rfl⟩) hE) hnext

/-- A triple, one initial state at a time. -/
lemma triple_of_start {p : ImportProgram α}
    (h : ∀ b₀ s₀, P b₀ s₀ → Triple I (fun b s => b = b₀ ∧ s = s₀) p Q E) : Triple I P p Q E :=
  fun fault s hs => h fault.isSome s hs fault s ⟨rfl, rfl⟩

end

section

variable {env : CatalogEnv} {before : Files} {plans done : List WritePlan} {plan : WritePlan}
  {s s₀ : ImportState} {folder : Folder} {slot : Slot}

lemma visible_staging (h : Layout before plans [] s) : Visible before plans .staging s :=
  ⟨[], h, rfl⟩

/-- A temporary file is no longer kept. -/
structure Removed (before : Files) (plans done : List WritePlan) (folder : Folder) (slot : Slot)
    (s₀ s : ImportState) : Prop where
  layout : Layout before plans done s
  paths : ∀ folder' slot', s.paths folder' slot' =
    if folder' = folder ∧ slot' = slot then none else s₀.paths folder' slot'

variable {phase : Phase} {b₀ committed : Bool} {ready known rest : List WritePlan}

/-- A temporary file is removed where there is one. -/
lemma triple_removeTemporary (hplanned : Planned env plans) (hdone : done ⊆ plans)
    (hvisible : ∀ s, Layout before plans done s → Visible before plans phase s)
    (h : Layout before plans done s₀) :
    Triple (Visible before plans) (fun b s => b = b₀ ∧ s = s₀) (removeTemporary phase folder slot)
      (fun _ b s => b = b₀ ∧ Removed before plans done folder slot s₀ s)
      (fun e _ _ => b₀ = true ∧ e = .osError phase) := by
  unfold removeTemporary
  refine triple_current_bind fun path? => ?_
  refine triple_of_start fun b₁ s₁ hs₁ => ?_
  obtain ⟨⟨rfl, rfl⟩, hpath⟩ := hs₁
  cases path? with
  | none =>
      refine triple_pure ?_
      rintro _ _ ⟨rfl, rfl⟩
      refine ⟨rfl, h, fun folder' slot' => ?_⟩
      split
      next hsame =>
        obtain ⟨rfl, rfl⟩ := hsame
        exact hpath
      · rfl
  | some path =>
      have hremoved := h.removeTemporary hplanned hdone hpath
      refine triple_change ?_ ?_ ?_
      · rintro _ _ ⟨-, rfl⟩
        exact hvisible _ hremoved
      · rintro _ _ ⟨rfl, rfl⟩
        refine ⟨rfl, hremoved, fun folder' slot' => ?_⟩
        rw [paths_setPath, paths_removeFile]
      · rintro _ ⟨rfl, -⟩
        exact ⟨rfl, rfl⟩

/-! ## Staging -/

/-- One more temporary file is kept, and nothing else has changed. -/
structure Kept (before : Files) (plans : List WritePlan) (folder : Folder) (slot : Slot)
    (s₀ s : ImportState) : Prop where
  layout : Layout before plans [] s
  isSome : (s.paths folder slot).isSome = true
  paths : ∀ folder' slot', ¬ (folder' = folder ∧ slot' = slot) →
    s.paths folder' slot' = s₀.paths folder' slot'
  existed : s.existed = s₀.existed
  committed : s.committed = s₀.committed

lemma paths_createTemporary (folder' : Folder) (slot' : Slot) :
    (createTemporary env folder s).paths folder' slot' =
      if folder' = folder ∧ slot' = .pending then some (env.temporaryName (s.files folder).keys)
      else s.paths folder' slot' := by
  unfold createTemporary
  rw [paths_setPath, paths_setFile]

lemma paths_writeTemporary (payload : List Char) :
    (writeTemporary folder payload s).paths = s.paths := by
  unfold writeTemporary
  split
  · exact paths_setFile ..
  · rfl

lemma writeTemporary_createTemporary (payload : List Char) :
    writeTemporary folder payload (createTemporary env folder s) =
      (createTemporary env folder s).setFile folder (env.temporaryName (s.files folder).keys)
        payload := by
  unfold writeTemporary
  rw [paths_createTemporary, if_pos ⟨rfl, rfl⟩]

/-- What is known of a temporary file that has been written and is returned. -/
lemma kept_returnTemporary (hplanned : Planned env plans) (h : Layout before plans [] s₀)
    (hpending : s₀.paths folder .pending = none) (hempty : s₀.paths folder slot = none)
    (howned : ∃ plan ∈ plans, plan.folder = folder ∧
      (slot = .staged plan.filename ∨ slot = .backup plan.filename))
    {payload : List Char} (hpayload : slotContent before plans folder slot = some payload) :
    Kept before plans folder slot s₀ (returnTemporary folder slot
      (writeTemporary folder payload (createTemporary env folder s₀))) := by
  have hslot : slot ≠ .pending := by
    obtain ⟨plan, -, -, rfl | rfl⟩ := howned
    · exact nofun
    · exact nofun
  have hpending' : (createTemporary env folder s₀).paths folder .pending =
      some (env.temporaryName (s₀.files folder).keys) := by
    rw [paths_createTemporary, if_pos ⟨rfl, rfl⟩]
  have hpaths : ∀ folder' slot', (returnTemporary folder slot
      (writeTemporary folder payload (createTemporary env folder s₀))).paths folder' slot' =
      if folder' = folder ∧ slot' = slot then some (env.temporaryName (s₀.files folder).keys)
      else s₀.paths folder' slot' := by
    intro folder' slot'
    unfold returnTemporary
    rw [paths_setPath, paths_setPath, paths_writeTemporary, hpending', paths_createTemporary]
    by_cases hsame : folder' = folder ∧ slot' = .pending
    · obtain ⟨rfl, rfl⟩ := hsame
      rw [if_pos ⟨rfl, rfl⟩, if_neg fun heq => hslot heq.2.symm, hpending]
    · rw [if_neg hsame, if_neg hsame]
  have hcreated := h.createTemporary hplanned (List.nil_subset _) hpending
  refine ⟨(hcreated.writeTemporary payload).returnTemporary ?_ howned ?_, ?_, ?_, ?_, ?_⟩
  · rw [paths_writeTemporary, paths_createTemporary, if_neg fun heq => hslot heq.2]
    exact hempty
  · intro path hpath
    rw [paths_writeTemporary, hpending'] at hpath
    rw [writeTemporary_createTemporary, get_setFile,
      if_pos ⟨rfl, (Option.some.inj hpath).symm⟩, hpayload]
  · rw [hpaths, if_pos ⟨rfl, rfl⟩]
    rfl
  · intro folder' slot' hne
    rw [hpaths, if_neg hne]
  · rw [writeTemporary_createTemporary]
    rfl
  · rw [writeTemporary_createTemporary]
    rfl

/-- The two steps that write a temporary file; either may fail. -/
lemma triple_writeTemporary (h : Layout before plans [] s₀) (payload : List Char) (b₀ : Bool) :
    Triple (Visible before plans) (fun b s => b = b₀ ∧ s = s₀) (do
        change .staging (writeTemporary folder payload)
        look .staging fun _ => ())
      (fun _ b s => b = b₀ ∧ s = writeTemporary folder payload s₀)
      (fun e b s => b = false ∧ e = .osError .staging ∧ Layout before plans [] s ∧
        s.paths = s₀.paths) := by
  have hwritten : Layout before plans [] (writeTemporary folder payload s₀) :=
    h.writeTemporary payload
  refine triple_bind (Q := fun _ b s => b = b₀ ∧ s = writeTemporary folder payload s₀) ?_
    fun _ => ?_
  · refine triple_change ?_ ?_ ?_
    · rintro _ _ ⟨rfl, rfl⟩
      exact visible_staging hwritten
    · rintro _ _ ⟨rfl, rfl⟩
      exact ⟨rfl, rfl⟩
    · rintro _ ⟨-, rfl⟩
      exact ⟨rfl, rfl, h, rfl⟩
  · refine triple_look ?_ ?_ ?_
    · rintro _ _ ⟨rfl, rfl⟩
      exact visible_staging hwritten
    · rintro _ _ ⟨rfl, rfl⟩
      exact ⟨rfl, rfl⟩
    · rintro _ ⟨-, rfl⟩
      exact ⟨rfl, rfl, hwritten, paths_writeTemporary payload⟩

/-- There is no trace of a file that could not be staged. -/
def Unstaged (before : Files) (plans : List WritePlan) (s₀ : ImportState) (e : ImportError)
    (b : Bool) (s : ImportState) : Prop :=
  b = false ∧ e = .osError .staging ∧ Layout before plans [] s ∧
    ∀ folder, s.paths folder .pending = s₀.paths folder .pending

/-- The temporary file of a failure is removed. -/
lemma triple_removePending (hplanned : Planned env plans)
    (hpending : s₀.paths folder .pending = none) (e : ImportError) :
    Triple (Visible before plans)
      (fun b s => b = false ∧ e = .osError .staging ∧ Layout before plans [] s ∧
        s.paths = (createTemporary env folder s₀).paths)
      (removeTemporary .staging folder .pending) (fun _ => Unstaged before plans s₀ e)
      (fun e => Unstaged before plans s₀ e) := by
  refine triple_of_start fun b₁ s₁ hs₁ => ?_
  obtain ⟨rfl, rfl, hlayout, hpaths⟩ := hs₁
  refine (triple_removeTemporary hplanned (List.nil_subset _) (fun _ => visible_staging)
    hlayout).conseq (fun _ _ hs => hs) ?_ ?_
  · rintro _ _ s ⟨rfl, hremoved⟩
    refine ⟨rfl, rfl, hremoved.layout, fun folder' => ?_⟩
    rw [hremoved.paths, hpaths, paths_createTemporary]
    by_cases hsame : folder' = folder
    · rw [if_pos ⟨hsame, rfl⟩, hsame, hpending]
    · rw [if_neg fun heq => hsame heq.1, if_neg fun heq => hsame heq.1]
  · rintro _ _ _ ⟨hb, -⟩
    cases hb

/-- A file is staged, or there is no trace of it. -/
lemma triple_stageBytes (hplanned : Planned env plans) (h : Layout before plans [] s₀)
    (hpending : s₀.paths folder .pending = none) (hempty : s₀.paths folder slot = none)
    (howned : ∃ plan ∈ plans, plan.folder = folder ∧
      (slot = .staged plan.filename ∨ slot = .backup plan.filename))
    {payload : List Char} (hpayload : slotContent before plans folder slot = some payload)
    (b₀ : Bool) :
    Triple (Visible before plans) (fun b s => b = b₀ ∧ s = s₀)
      (stageBytes env folder slot payload)
      (fun _ b s => b = b₀ ∧ Kept before plans folder slot s₀ s) (Unstaged before plans s₀) := by
  have hcreated : Layout before plans [] (createTemporary env folder s₀) :=
    h.createTemporary hplanned (List.nil_subset _) hpending
  unfold stageBytes
  refine triple_bind (Q := fun _ b s => b = b₀ ∧ s = createTemporary env folder s₀) ?_ fun _ => ?_
  · refine triple_change ?_ ?_ ?_
    · rintro _ _ ⟨rfl, rfl⟩
      exact visible_staging hcreated
    · rintro _ _ ⟨rfl, rfl⟩
      exact ⟨rfl, rfl⟩
    · rintro _ ⟨-, rfl⟩
      exact ⟨rfl, rfl, h, fun _ => rfl⟩
  refine triple_bind (triple_onError (triple_writeTemporary hcreated payload b₀)
    (triple_removePending hplanned hpending)) fun _ => ?_
  refine triple_assign ?_
  rintro _ _ ⟨rfl, rfl⟩
  exact ⟨rfl, kept_returnTemporary hplanned h hpending hempty howned hpayload⟩

/-- Some plans are staged, and for some of them it is known whether the destination exists, with a
backup where it does. -/
structure Staging (before : Files) (plans ready known : List WritePlan) (s : ImportState) :
    Prop where
  layout : Layout before plans [] s
  pending : ∀ folder, s.paths folder .pending = none
  committed : s.committed = []
  staged : ∀ plan ∈ ready, (s.paths plan.folder (.staged plan.filename)).isSome = true
  unstaged : ∀ plan ∈ plans, plan ∉ ready → s.paths plan.folder (.staged plan.filename) = none
  existed : ∀ plan ∈ known, s.existed plan.folder plan.filename =
    ((before plan.folder).get plan.filename).isSome
  backed : ∀ plan ∈ known, s.existed plan.folder plan.filename = true →
    (s.paths plan.folder (.backup plan.filename)).isSome = true
  unbacked : ∀ plan ∈ plans, plan ∉ known → s.paths plan.folder (.backup plan.filename) = none

/-- What is left by an import that raises before it commits. -/
def FailedStaging (before : Files) (plans : List WritePlan) (e : ImportError) (b : Bool)
    (s : ImportState) : Prop :=
  b = false ∧ e = .osError .staging ∧ Layout before plans [] s ∧
    ∀ folder, s.paths folder .pending = none

lemma Planned.eq_of_same (hplanned : Planned env plans) {other : WritePlan} (hplan : plan ∈ plans)
    (hother : other ∈ plans) (hfolder : plan.folder = other.folder)
    (hfilename : plan.filename = other.filename) : plan = other :=
  List.inj_on_of_nodup_map hplanned.nodup hplan hother (Prod.ext hfolder hfilename)

lemma Staging.visible (h : Staging before plans ready known s) : Visible before plans .staging s :=
  visible_staging h.layout

/-- One more plan is staged. -/
lemma Staging.stage (hplanned : Planned env plans) (h : Staging before plans ready [] s₀)
    (hplan : plan ∈ plans) (hkept : Kept before plans plan.folder (.staged plan.filename) s₀ s) :
    Staging before plans (ready ++ [plan]) [] s where
  layout := hkept.layout
  pending folder := by
    rw [hkept.paths folder .pending fun heq => nomatch heq.2]
    exact h.pending folder
  committed := hkept.committed.trans h.committed
  staged other hother := by
    by_cases hsame : other.folder = plan.folder ∧ other.filename = plan.filename
    · rw [hsame.1, hsame.2]
      exact hkept.isSome
    · rw [hkept.paths _ _ fun heq => hsame ⟨heq.1, Slot.staged.inj heq.2⟩]
      rcases List.mem_append.1 hother with hmem | hmem
      · exact h.staged other hmem
      · rw [List.mem_singleton.1 hmem] at hsame
        exact absurd ⟨rfl, rfl⟩ hsame
  unstaged other hother hnot := by
    rw [List.mem_append, List.mem_singleton, not_or] at hnot
    rw [hkept.paths _ _ fun heq =>
      hnot.2 (hplanned.eq_of_same hother hplan heq.1 (Slot.staged.inj heq.2))]
    exact h.unstaged other hother hnot.1
  existed := nofun
  backed := nofun
  unbacked other hother hnot := by
    rw [hkept.paths other.folder (.backup other.filename) fun heq => nomatch heq.2]
    exact h.unbacked other hother hnot

/-- All plans are staged. -/
lemma triple_stagePlans (hplanned : Planned env plans) :
    Triple (Visible before plans) (fun _ s => Staging before plans [] [] s)
      (plans.forM fun plan => stageBytes env plan.folder (.staged plan.filename) plan.payload)
      (fun _ _ s => Staging before plans plans [] s) (FailedStaging before plans) := by
  refine triple_forM (fun done _ s => Staging before plans done [] s) fun done plan rest heq => ?_
  have hplan : plan ∈ plans := by
    rw [heq]
    exact List.mem_append_right _ List.mem_cons_self
  have hnew : plan ∉ done := by
    intro hmem
    have hnodup := List.Nodup.of_map _ hplanned.nodup
    rw [heq] at hnodup
    exact List.disjoint_of_nodup_append hnodup hmem List.mem_cons_self
  refine triple_of_start fun b₀ s₀ h => ?_
  refine (triple_stageBytes hplanned h.layout (h.pending _) (h.unstaged plan hplan hnew)
    ⟨plan, hplan, rfl, .inl rfl⟩ (slotContent_staged hplanned hplan before) b₀).conseq
    (fun _ _ hs => hs) ?_ ?_
  · rintro _ b s ⟨rfl, hkept⟩
    exact h.stage hplanned hplan hkept
  · rintro e b s ⟨rfl, rfl, hlayout, hpending⟩
    exact ⟨rfl, rfl, hlayout, fun folder => (hpending folder).trans (h.pending folder)⟩

/-- Whether one more destination existed. -/
lemma Staging.know (h : Staging before plans plans known s) :
    ∀ other ∈ known ++ [plan], (s.setExisted plan.folder plan.filename
      ((before plan.folder).get plan.filename).isSome).existed other.folder other.filename =
        ((before other.folder).get other.filename).isSome := by
  intro other hother
  unfold ImportState.setExisted
  dsimp only
  by_cases hfolder : other.folder = plan.folder
  · rw [hfolder, Function.update_self]
    by_cases hfilename : other.filename = plan.filename
    · rw [hfilename, Function.update_self]
    · rw [Function.update_of_ne hfilename, ← hfolder]
      rcases List.mem_append.1 hother with hmem | hmem
      · exact h.existed other hmem
      · exact absurd (congrArg WritePlan.filename (List.mem_singleton.1 hmem)) hfilename
  · rw [Function.update_of_ne hfolder]
    rcases List.mem_append.1 hother with hmem | hmem
    · exact h.existed other hmem
    · exact absurd (congrArg WritePlan.folder (List.mem_singleton.1 hmem)) hfolder

/-- A destination that did not exist has no backup. -/
lemma Staging.backNew (h : Staging before plans plans known s)
    (hnew : ((before plan.folder).get plan.filename).isSome = false) :
    Staging before plans plans (known ++ [plan]) (s.setExisted plan.folder plan.filename
      ((before plan.folder).get plan.filename).isSome) where
  layout := ⟨h.layout.nodup, h.layout.settled, h.layout.fresh, h.layout.unshared, h.layout.present,
    h.layout.content, h.layout.owned⟩
  pending := h.pending
  committed := h.committed
  staged := h.staged
  unstaged := h.unstaged
  existed := h.know
  backed other hother hexisted := by
    rw [h.know other hother] at hexisted
    rcases List.mem_append.1 hother with hmem | hmem
    · exact h.backed other hmem ((h.existed other hmem).trans hexisted)
    · rw [List.mem_singleton.1 hmem, hnew] at hexisted
      cases hexisted
  unbacked other hother hnot := by
    rw [List.mem_append, not_or] at hnot
    exact h.unbacked other hother hnot.1

/-- A destination that existed has one. -/
lemma Staging.back (hplanned : Planned env plans) (h : Staging before plans plans known s₀)
    (hplan : plan ∈ plans) (hkept : Kept before plans plan.folder (.backup plan.filename)
      (s₀.setExisted plan.folder plan.filename
        ((before plan.folder).get plan.filename).isSome) s) :
    Staging before plans plans (known ++ [plan]) s where
  layout := hkept.layout
  pending folder := by
    rw [hkept.paths folder .pending fun heq => nomatch heq.2]
    exact h.pending folder
  committed := hkept.committed.trans h.committed
  staged other hother := by
    rw [hkept.paths other.folder (.staged other.filename) fun heq => nomatch heq.2]
    exact h.staged other hother
  unstaged other hother hnot := absurd hother hnot
  existed other hother := by
    rw [hkept.existed]
    exact h.know other hother
  backed other hother hexisted := by
    by_cases hsame : other.folder = plan.folder ∧ other.filename = plan.filename
    · rw [hsame.1, hsame.2]
      exact hkept.isSome
    · rw [hkept.existed, h.know other hother] at hexisted
      rw [hkept.paths _ _ fun heq => hsame ⟨heq.1, Slot.backup.inj heq.2⟩]
      rcases List.mem_append.1 hother with hmem | hmem
      · exact h.backed other hmem ((h.existed other hmem).trans hexisted)
      · rw [List.mem_singleton.1 hmem] at hsame
        exact absurd ⟨rfl, rfl⟩ hsame
  unbacked other hother hnot := by
    rw [List.mem_append, List.mem_singleton, not_or] at hnot
    rw [hkept.paths _ _ fun heq =>
      hnot.2 (hplanned.eq_of_same hother hplan heq.1 (Slot.backup.inj heq.2))]
    exact h.unbacked other hother hnot.1

/-- All destinations that existed are backed up. -/
lemma triple_backUps (hplanned : Planned env plans) :
    Triple (Visible before plans) (fun _ s => Staging before plans plans [] s)
      (plans.forM (backUp env)) (fun _ _ s => Staging before plans plans plans s)
      (FailedStaging before plans) := by
  refine triple_forM (fun done _ s => Staging before plans plans done s) fun done plan rest heq => ?_
  have hplan : plan ∈ plans := by
    rw [heq]
    exact List.mem_append_right _ List.mem_cons_self
  have hnew : plan ∉ done := by
    intro hmem
    have hnodup := List.Nodup.of_map _ hplanned.nodup
    rw [heq] at hnodup
    exact List.disjoint_of_nodup_append hnodup hmem List.mem_cons_self
  refine triple_of_start fun b₀ s₀ h => ?_
  have hfailed : FailedStaging before plans (.osError .staging) false s₀ :=
    ⟨rfl, rfl, h.layout, h.pending⟩
  have hget : (s₀.files plan.folder).get plan.filename =
      (before plan.folder).get plan.filename :=
    h.layout.get_destination (hplanned.not_temporary plan hplan)
  have hexists : destinationExists plan s₀ =
      ((before plan.folder).get plan.filename).isSome := by
    rw [destinationExists, hget]
  unfold backUp
  refine triple_look_bind ?_ ?_ fun existed => ?_
  · rintro _ _ ⟨-, rfl⟩
    exact h.visible
  · rintro _ ⟨-, rfl⟩
    exact hfailed
  refine triple_bind (Q := fun _ b s => (b = b₀ ∧ s = s₀.setExisted plan.folder plan.filename
    ((before plan.folder).get plan.filename).isSome) ∧
      existed = ((before plan.folder).get plan.filename).isSome) ?_ fun _ => ?_
  · refine triple_assign ?_
    rintro _ _ ⟨⟨rfl, rfl⟩, rfl⟩
    exact ⟨⟨rfl, by rw [hexists]⟩, hexists⟩
  have hknownLayout : Layout before plans [] (s₀.setExisted plan.folder plan.filename
      ((before plan.folder).get plan.filename).isSome) :=
    ⟨h.layout.nodup, h.layout.settled, h.layout.fresh, h.layout.unshared, h.layout.present,
      h.layout.content, h.layout.owned⟩
  refine triple_of_start fun b₁ s₁ hs₁ => ?_
  obtain ⟨⟨rfl, rfl⟩, rfl⟩ := hs₁
  split
  next hexisted =>
    have hfailed' : FailedStaging before plans (.osError .staging) false
        (s₀.setExisted plan.folder plan.filename
          ((before plan.folder).get plan.filename).isSome) :=
      ⟨rfl, rfl, hknownLayout, h.pending⟩
    refine triple_look_bind ?_ ?_ fun _ => ?_
    · rintro _ _ ⟨-, rfl⟩
      exact visible_staging hknownLayout
    · rintro _ ⟨-, rfl⟩
      exact hfailed'
    refine triple_look_bind ?_ ?_ fun payload => ?_
    · rintro _ _ ⟨⟨-, rfl⟩, -⟩
      exact visible_staging hknownLayout
    · rintro _ ⟨⟨-, rfl⟩, -⟩
      exact hfailed'
    refine triple_of_start fun b₂ s₂ hs₂ => ?_
    obtain ⟨⟨⟨rfl, rfl⟩, -⟩, hpayload⟩ := hs₂
    have hcontent : slotContent before plans plan.folder (.backup plan.filename) = some payload := by
      obtain ⟨content, hsome⟩ := Option.isSome_iff_exists.1 hexisted
      rw [← hpayload]
      change (before plan.folder).get plan.filename =
        some (((s₀.files plan.folder).get plan.filename).getD [])
      rw [hget, hsome, Option.getD_some]
    refine (triple_stageBytes hplanned hknownLayout (h.pending _) (h.unbacked plan hplan hnew)
      ⟨plan, hplan, rfl, .inr rfl⟩ hcontent b₂).conseq (fun _ _ hs => hs) ?_ ?_
    · rintro _ b s ⟨rfl, hkept⟩
      exact h.back hplanned hplan hkept
    · rintro e b s ⟨rfl, rfl, hlayout, hpending⟩
      exact ⟨rfl, rfl, hlayout, fun folder => (hpending folder).trans (h.pending folder)⟩
  next hexisted =>
    refine triple_pure ?_
    rintro _ _ ⟨rfl, rfl⟩
    exact h.backNew (Bool.eq_false_iff.2 hexisted)

/-! ## Committing -/

/-- The plans `done` are committed, and every destination that existed has a backup or has not been
replaced. -/
structure Committed (before : Files) (plans done : List WritePlan) (s : ImportState) : Prop where
  layout : Layout before plans done s
  pending : ∀ folder, s.paths folder .pending = none
  existed : ∀ plan ∈ done, s.existed plan.folder plan.filename =
    ((before plan.folder).get plan.filename).isSome
  backed : ∀ plan ∈ done, s.existed plan.folder plan.filename = true →
    (s.paths plan.folder (.backup plan.filename)).isSome = true

/-- The plans `rest` are still to be committed. -/
structure Committing (before : Files) (plans done rest : List WritePlan) (s : ImportState) :
    Prop where
  split : plans = done ++ rest
  layout : Layout before plans done s
  pending : ∀ folder, s.paths folder .pending = none
  committed : s.committed = done
  staged : ∀ plan ∈ rest, (s.paths plan.folder (.staged plan.filename)).isSome = true
  existed : ∀ plan ∈ plans, s.existed plan.folder plan.filename =
    ((before plan.folder).get plan.filename).isSome
  backed : ∀ plan ∈ plans, s.existed plan.folder plan.filename = true →
    (s.paths plan.folder (.backup plan.filename)).isSome = true

/-- What is left by an import that raises, once it has been rolled back. -/
def Restored (before : Files) (plans : List WritePlan) (e : ImportError) (b : Bool)
    (s : ImportState) : Prop :=
  b = false ∧ (∀ committed, e ≠ .osError (.cleaning committed)) ∧ Layout before plans [] s ∧
    ∀ folder, s.paths folder .pending = none

/-- What is left by an import that raises while it commits. -/
def FailedCommit (before : Files) (plans : List WritePlan) (e : ImportError) (b : Bool)
    (s : ImportState) : Prop :=
  b = false ∧ (∀ committed, e ≠ .osError (.cleaning committed)) ∧
    ∃ done rest, Committing before plans done rest s

lemma Committing.visible (h : Committing before plans done rest s) :
    Visible before plans (.committing (actionCount rest)) s :=
  ⟨done, h.layout, rest, h.split, rfl, h.staged⟩

lemma Committing.sublist (h : Committing before plans done (plan :: rest) s) :
    (done ++ [plan]).Sublist plans := by
  rw [h.split]
  exact (List.Sublist.refl done).append ((List.nil_sublist rest).cons_cons plan)

lemma Committing.nodup (hplanned : Planned env plans)
    (h : Committing before plans done (plan :: rest) s) :
    ((done ++ [plan]).map fun plan => (plan.folder, plan.filename)).Nodup :=
  hplanned.nodup.sublist (h.sublist.map _)

/-- One plan is committed. -/
lemma Committing.commit (hplanned : Planned env plans)
    (h : Committing before plans done (plan :: rest) s) {path : String}
    (hpath : s.paths plan.folder (.staged plan.filename) = some path) :
    Committing before plans (done ++ [plan]) rest
      { (s.replaceFile plan.folder path plan.filename).setPath plan.folder
          (.staged plan.filename) none with committed := s.committed ++ [plan] } := by
  have hlayout := h.layout.commit hplanned h.sublist.subset (h.nodup hplanned) hpath
  have hreplace : (s.replaceFile plan.folder path plan.filename).paths = s.paths ∧
      (s.replaceFile plan.folder path plan.filename).existed = s.existed := by
    unfold ImportState.replaceFile
    split
    · exact ⟨rfl, rfl⟩
    · exact ⟨rfl, rfl⟩
  have hpaths : ∀ folder slot, slot ≠ .staged plan.filename ∨ folder ≠ plan.folder →
      ((s.replaceFile plan.folder path plan.filename).setPath plan.folder
        (.staged plan.filename) none).paths folder slot = s.paths folder slot := by
    intro folder slot hne
    rw [paths_setPath, hreplace.1, if_neg]
    rintro ⟨rfl, rfl⟩
    exact hne.elim (fun h => h rfl) fun h => h rfl
  constructor
  · rw [h.split, List.append_assoc, List.singleton_append]
  · exact ⟨hlayout.nodup, hlayout.settled, hlayout.fresh, hlayout.unshared, hlayout.present,
      hlayout.content, hlayout.owned⟩
  · exact fun folder => (hpaths folder .pending (.inl nofun)).trans (h.pending folder)
  · exact congrArg (· ++ [plan]) h.committed
  · intro other hother
    refine (congrArg Option.isSome (hpaths other.folder _ ?_)).trans
      (h.staged other (List.mem_cons_of_mem _ hother))
    by_contra hsame
    rw [not_or, not_not, not_not] at hsame
    have hnodup := hplanned.nodup
    rw [h.split, List.map_append, List.map_cons] at hnodup
    refine (List.nodup_cons.1 hnodup.of_append_right).1 (List.mem_map.2 ⟨other, hother, ?_⟩)
    exact Prod.ext hsame.2 (Slot.staged.inj hsame.1)
  · intro other hother
    rw [← h.existed other hother]
    exact congrFun (congrFun hreplace.2 _) _
  · intro other hother hexisted
    refine (congrArg Option.isSome (hpaths other.folder (.backup other.filename) (.inl nofun))).trans
      (h.backed other hother ?_)
    rw [← hexisted]
    exact (congrFun (congrFun hreplace.2 _) _).symm

lemma triple_commitPlan (hplanned : Planned env plans) :
    Triple (Visible before plans) (fun _ s => Committing before plans done (plan :: rest) s)
      (commitPlan plan rest) (fun _ _ s => Committing before plans (done ++ [plan]) rest s)
      (FailedCommit before plans) := by
  refine triple_of_start fun b₀ s₀ h => ?_
  obtain ⟨path, hpath⟩ := Option.isSome_iff_exists.1 (h.staged plan List.mem_cons_self)
  have hcommitted := h.commit hplanned hpath
  have hfailed : ∀ n, FailedCommit before plans (.osError (.committing n)) false s₀ :=
    fun n => ⟨rfl, nofun, done, plan :: rest, h⟩
  unfold commitPlan validateDestination
  refine triple_bind (Q := fun _ b s => b = b₀ ∧ s = s₀) ?_ fun _ => ?_
  · refine triple_look_bind ?_ ?_ fun _ => ?_
    · rintro _ _ ⟨-, rfl⟩
      exact h.visible
    · rintro _ ⟨-, rfl⟩
      exact hfailed _
    refine triple_look ?_ ?_ ?_
    · rintro _ _ ⟨⟨-, rfl⟩, -⟩
      exact h.visible
    · rintro _ _ ⟨hs, -⟩
      exact hs
    · rintro _ ⟨⟨-, rfl⟩, -⟩
      exact hfailed _
  refine triple_current_bind fun path? => ?_
  refine triple_of_start fun b₁ s₁ hs₁ => ?_
  obtain ⟨⟨rfl, rfl⟩, rfl⟩ := hs₁
  rw [hpath]
  dsimp only
  refine triple_bind (Q := fun _ _ s => Committing before plans (done ++ [plan]) rest s) ?_
    fun _ => ?_
  · refine triple_change ?_ ?_ ?_
    · rintro _ _ ⟨-, rfl⟩
      exact hcommitted.visible
    · rintro _ _ ⟨-, rfl⟩
      exact hcommitted
    · rintro _ ⟨-, rfl⟩
      exact hfailed _
  · refine triple_look ?_ ?_ ?_
    · exact fun _ _ hs => hs.visible
    · exact fun _ _ hs => hs
    · exact fun _ hs => ⟨rfl, nofun, _, _, hs⟩

lemma triple_commitPlans (hplanned : Planned env plans) (rest : List WritePlan) :
    Triple (Visible before plans) (fun _ s => Committing before plans done rest s)
      (commitPlans rest) (fun _ _ s => Committing before plans plans [] s)
      (FailedCommit before plans) := by
  induction rest generalizing done with
  | nil =>
      refine triple_pure fun b s h => ?_
      have heq : plans = done := by rw [h.split, List.append_nil]
      rw [← heq] at h
      exact h
  | cons plan rest ih => exact triple_bind (triple_commitPlan hplanned) fun _ => ih

/-! ## Rolling back -/

lemma Committing.toCommitted (h : Committing before plans done rest s) :
    Committed before plans done s := by
  have hmem : ∀ plan ∈ done, plan ∈ plans := by
    intro plan hplan
    rw [h.split]
    exact List.mem_append_left _ hplan
  exact ⟨h.layout, h.pending, fun plan hplan => h.existed plan (hmem plan hplan),
    fun plan hplan => h.backed plan (hmem plan hplan)⟩

/-- What the last plan that is committed has replaced is restored. -/
lemma triple_restoreFile (hplanned : Planned env plans) (hplans : done ++ [plan] ⊆ plans)
    (hnodup : ((done ++ [plan]).map fun plan => (plan.folder, plan.filename)).Nodup)
    (hvisible : ∀ s, Committed before plans done s → Visible before plans phase s) :
    Triple (Visible before plans)
      (fun b s => b = false ∧ Committed before plans (done ++ [plan]) s)
      (restoreFile phase plan) (fun _ b s => b = false ∧ Committed before plans done s)
      (fun _ _ _ => False) := by
  refine triple_of_start fun b₀ s₀ h₀ => ?_
  obtain ⟨rfl, h⟩ := h₀
  have hlast : plan ∈ done ++ [plan] := List.mem_append_right _ List.mem_cons_self
  have hsame : ∀ other ∈ done, ¬ (other.folder = plan.folder ∧ other.filename = plan.filename) := by
    intro other hother hsame
    rw [List.map_append, List.map_singleton] at hnodup
    exact List.disjoint_of_nodup_append hnodup (List.mem_map.2 ⟨other, hother, rfl⟩)
      (List.mem_singleton.2 (Prod.ext hsame.1 hsame.2))
  have hmem : ∀ other ∈ done, other ∈ done ++ [plan] := fun _ => List.mem_append_left _
  unfold restoreFile
  refine triple_current_bind fun existed => ?_
  refine triple_of_start fun b₁ s₁ hs₁ => ?_
  obtain ⟨⟨rfl, rfl⟩, hexisted⟩ := hs₁
  cases existed with
  | true =>
      obtain ⟨path, hpath⟩ := Option.isSome_iff_exists.1 (h.backed plan hlast hexisted)
      have hrestored := h.layout.restore hplanned hplans hnodup hpath
      have hreplace : (s₁.replaceFile plan.folder path plan.filename).paths = s₁.paths ∧
          (s₁.replaceFile plan.folder path plan.filename).existed = s₁.existed := by
        unfold ImportState.replaceFile
        split
        · exact ⟨rfl, rfl⟩
        · exact ⟨rfl, rfl⟩
      have hcommitted : Committed before plans done
          ((s₁.replaceFile plan.folder path plan.filename).setPath plan.folder
            (.backup plan.filename) none) := by
        refine ⟨hrestored, fun folder => ?_, fun other hother => ?_, fun other hother hother' => ?_⟩
        · rw [paths_setPath, hreplace.1, if_neg fun heq => nomatch heq.2]
          exact h.pending folder
        · rw [existed_setPath, hreplace.2]
          exact h.existed other (hmem other hother)
        · rw [existed_setPath, hreplace.2] at hother'
          rw [paths_setPath, hreplace.1,
            if_neg fun heq => hsame other hother ⟨heq.1, Slot.backup.inj heq.2⟩]
          exact h.backed other (hmem other hother) hother'
      refine triple_current_bind fun path? => ?_
      refine triple_of_start fun b₂ s₂ hs₂ => ?_
      obtain ⟨⟨rfl, rfl⟩, rfl⟩ := hs₂
      rw [hpath]
      refine triple_change ?_ ?_ ?_
      · rintro _ _ ⟨-, rfl⟩
        exact hvisible _ hcommitted
      · rintro _ _ ⟨rfl, rfl⟩
        exact ⟨rfl, hcommitted⟩
      · rintro _ ⟨hb, -⟩
        cases hb
  | false =>
      have hnew : (before plan.folder).get plan.filename = none := by
        have hnone := h.existed plan hlast
        rw [hexisted] at hnone
        exact Option.isNone_iff_eq_none.1 (Option.isSome_eq_false_iff.1 hnone.symm)
      have hcommitted : Committed before plans done (s₁.removeFile plan.folder plan.filename) :=
        ⟨h.layout.restoreNew hplanned hplans hnodup hnew, h.pending,
          fun other hother => h.existed other (hmem other hother),
          fun other hother => h.backed other (hmem other hother)⟩
      refine triple_change ?_ ?_ ?_
      · rintro _ _ ⟨-, rfl⟩
        exact hvisible _ hcommitted
      · rintro _ _ ⟨rfl, rfl⟩
        exact ⟨rfl, hcommitted⟩
      · rintro _ ⟨hb, -⟩
        cases hb

/-- The last plan that is committed is restored. -/
lemma triple_restorePlan (hplanned : Planned env plans) (hsplit : plans = (done ++ [plan]) ++ rest) :
    Triple (Visible before plans)
      (fun b s => b = false ∧ Committed before plans (done ++ [plan]) s)
      (restorePlan plan done.reverse) (fun _ b s => b = false ∧ Committed before plans done s)
      (fun _ _ _ => False) := by
  have hplans : done ++ [plan] ⊆ plans := by
    rw [hsplit]
    exact List.subset_append_left _ _
  have hnodup : ((done ++ [plan]).map fun plan => (plan.folder, plan.filename)).Nodup := by
    have hall := hplanned.nodup
    rw [hsplit, List.map_append] at hall
    exact hall.of_append_left
  have hvisible : ∀ s, Committed before plans done s →
      Visible before plans (.restoring (actionCount done.reverse)) s := by
    intro s hs
    refine ⟨done, hs.layout, List.countP_reverse, [plan] ++ rest, ?_⟩
    rw [hsplit, List.append_assoc]
  refine triple_bind (triple_restoreFile hplanned hplans hnodup hvisible) fun _ => ?_
  refine triple_look ?_ ?_ ?_
  · exact fun _ s hs => hvisible s hs.2
  · exact fun _ _ hs => hs
  · rintro _ ⟨hb, -⟩
    cases hb

/-- The rollback restores every plan that is committed. -/
lemma triple_restorePlans (hplanned : Planned env plans) (hsplit : plans = done ++ rest) :
    Triple (Visible before plans) (fun b s => b = false ∧ Committed before plans done s)
      (restorePlans done.reverse) (fun _ b s => b = false ∧ Committed before plans [] s)
      (fun _ _ _ => False) := by
  induction done using List.reverseRecOn generalizing rest with
  | nil => exact triple_pure fun _ _ hs => hs
  | append_singleton done plan ih =>
      rw [List.reverse_append, List.reverse_singleton, List.singleton_append]
      have hrest : plans = done ++ plan :: rest := by
        rw [hsplit, List.append_assoc, List.singleton_append]
      exact triple_bind (triple_restorePlan hplanned hsplit) fun _ => ih hrest

/-- A commit returns with all plans committed, or raises with none. -/
lemma triple_commitImport (hplanned : Planned env plans) :
    Triple (Visible before plans) (fun _ s => Staging before plans plans plans s)
      (commitImport plans) (fun _ _ s => Committing before plans plans [] s)
      (Restored before plans) := by
  have hstart : ∀ s, Staging before plans plans plans s → Committing before plans [] plans s :=
    fun s h => ⟨rfl, h.layout, h.pending, h.committed, h.staged, h.existed, h.backed⟩
  refine triple_onError (E := FailedCommit before plans)
    ((triple_commitPlans hplanned plans).conseq (fun _ s hs => hstart s hs) (fun _ _ _ hs => hs)
      fun _ _ _ hs => hs) fun e => ?_
  refine triple_of_start fun b₀ s₀ h => ?_
  obtain ⟨rfl, hcleaning, done, rest, h⟩ := h
  refine triple_current_bind fun committed => ?_
  refine triple_of_start fun b₁ s₁ hs₁ => ?_
  obtain ⟨⟨rfl, rfl⟩, rfl⟩ := hs₁
  rw [h.committed]
  refine (triple_restorePlans hplanned h.split).conseq ?_ ?_ ?_
  · rintro _ _ ⟨rfl, rfl⟩
    exact ⟨rfl, h.toCommitted⟩
  · rintro _ _ _ ⟨rfl, hs⟩
    exact ⟨rfl, hcleaning, hs.layout, hs.pending⟩
  · exact fun _ _ _ hs => hs.elim

/-! ## Cleaning up -/

/-- Some plans have no temporary files left. -/
structure Swept (before : Files) (plans done swept : List WritePlan) (s : ImportState) : Prop where
  layout : Layout before plans done s
  pending : ∀ folder, s.paths folder .pending = none
  staged : ∀ plan ∈ swept, s.paths plan.folder (.staged plan.filename) = none
  backup : ∀ plan ∈ swept, s.paths plan.folder (.backup plan.filename) = none

/-- The plans that an import has committed once it cleans up. -/
def settledPlans (committed : Bool) (plans : List WritePlan) : List WritePlan :=
  if committed then plans else []

lemma settledPlans_subset (committed : Bool) : settledPlans committed plans ⊆ plans := by
  cases committed with
  | true => exact fun _ hplan => hplan
  | false => exact List.nil_subset _

lemma visible_cleaning (h : Layout before plans (settledPlans committed plans) s) :
    Visible before plans (.cleaning committed) s := by
  refine ⟨_, h, ?_⟩
  cases committed with
  | true => rfl
  | false => rfl

/-- The temporary files of one more plan are removed. -/
lemma triple_sweep (hplanned : Planned env plans) {swept : List WritePlan}
    (h : Swept before plans (settledPlans committed plans) swept s₀) :
    Triple (Visible before plans) (fun b s => b = b₀ ∧ s = s₀)
      (do
        removeTemporary (.cleaning committed) plan.folder (.staged plan.filename)
        removeTemporary (.cleaning committed) plan.folder (.backup plan.filename))
      (fun _ b s => b = b₀ ∧ Swept before plans (settledPlans committed plans) (swept ++ [plan]) s)
      (fun e _ _ => b₀ = true ∧ e = .osError (.cleaning committed)) := by
  have hsubset : settledPlans committed plans ⊆ plans := settledPlans_subset committed
  refine triple_bind (Q := fun _ b s => b = b₀ ∧
    Removed before plans (settledPlans committed plans) plan.folder (.staged plan.filename) s₀ s)
    (triple_removeTemporary hplanned hsubset (fun _ => visible_cleaning) h.layout) fun _ => ?_
  refine triple_of_start fun b₁ s₁ hs₁ => ?_
  obtain ⟨rfl, hstaged⟩ := hs₁
  refine (triple_removeTemporary hplanned hsubset (fun _ => visible_cleaning) hstaged.layout).conseq
    (fun _ _ hs => hs) ?_ (fun _ _ _ hs => hs)
  rintro _ b s ⟨rfl, hbackup⟩
  have hnone : ∀ {folder slot}, s₀.paths folder slot = none → s.paths folder slot = none := by
    intro folder slot hslot
    rw [hbackup.paths]
    split
    · rfl
    rw [hstaged.paths]
    split
    · rfl
    · exact hslot
  refine ⟨rfl, hbackup.layout, fun folder => hnone (h.pending folder), ?_, ?_⟩
  · intro other hother
    rcases List.mem_append.1 hother with hmem | hmem
    · exact hnone (h.staged other hmem)
    · rw [List.mem_singleton.1 hmem, hbackup.paths, if_neg fun heq => nomatch heq.2]
      exact (hstaged.paths _ _).trans (if_pos ⟨rfl, rfl⟩)
  · intro other hother
    rcases List.mem_append.1 hother with hmem | hmem
    · exact hnone (h.backup other hmem)
    · rw [List.mem_singleton.1 hmem]
      exact (hbackup.paths _ _).trans (if_pos ⟨rfl, rfl⟩)

/-- The clean-up leaves the committed plans and nothing else; it fails only where nothing failed
before. -/
lemma triple_cleanUp (hplanned : Planned env plans) (committed b₀ : Bool) :
    Triple (Visible before plans)
      (fun b s => b = b₀ ∧ Swept before plans (settledPlans committed plans) [] s)
      (cleanUp committed plans)
      (fun _ _ s => Swept before plans (settledPlans committed plans) plans s)
      (fun e _ _ => b₀ = true ∧ e = .osError (.cleaning committed)) := by
  unfold cleanUp
  refine (triple_forM (fun swept b s => b = b₀ ∧
    Swept before plans (settledPlans committed plans) swept s) ?_).conseq
    (fun _ _ hs => hs) (fun _ _ _ hs => hs.2) fun _ _ _ hs => hs
  intro swept plan rest _
  refine triple_of_start fun b₁ s₁ hs₁ => ?_
  obtain ⟨rfl, h⟩ := hs₁
  exact triple_sweep hplanned h

/-- Nothing is kept any more. -/
lemma Swept.get (h : Swept before plans done plans s) (folder : Folder) (name : String) :
    (s.files folder).get name = overlay before done folder name := by
  refine h.layout.get_of_paths_none (fun folder slot => ?_) folder name
  cases hpath : s.paths folder slot with
  | none => rfl
  | some path =>
      rcases h.layout.owned folder slot path hpath with rfl | ⟨plan, hplan, rfl, rfl | rfl⟩
      · rw [h.pending] at hpath
        cases hpath
      · rw [h.staged plan hplan] at hpath
        cases hpath
      · rw [h.backup plan hplan] at hpath
        cases hpath

/-! ## A whole import -/

/-- The files that an import leaves where it returns. -/
def Imported (before : Files) (plans : List WritePlan) (s : ImportState) : Prop :=
  (∀ folder, (s.files folder).keys.Nodup) ∧
    ∀ folder name, (s.files folder).get name = overlay before plans folder name

/-- An import that raises leaves the files as they were, unless its clean-up fails after the
commit. -/
def Raised (before : Files) (e : ImportError) (s : ImportState) : Prop :=
  e = .osError (.cleaning true) ∨ Imported before [] s

/-- The part of an import that changes files. -/
lemma triple_applyImport (hplanned : Planned env plans)
    (hnodup : ∀ folder, (before folder).keys.Nodup) :
    Triple (Visible before plans) (fun _ s => s = .initial before)
      (Program.ensuring (do
          stageImport env plans
          commitImport plans)
        fun result => cleanUp result.toBool plans)
      (fun _ _ s => Imported before plans s) (fun e _ s => Raised before e s) := by
  have hstart : Staging before plans [] [] (.initial before) :=
    ⟨Layout.initial hnodup plans, fun _ => rfl, rfl, nofun, fun _ _ _ => rfl, nofun, nofun,
      fun _ _ _ => rfl⟩
  refine triple_ensuring (Q := fun _ _ s => Committing before plans plans [] s)
    (E := fun e b s => b = false ∧ (∀ committed, e ≠ .osError (.cleaning committed)) ∧
      Layout before plans [] s ∧ ∀ folder, s.paths folder .pending = none) ?_ ?_ ?_
  · refine triple_bind (Q := fun _ _ s => Staging before plans plans plans s) ?_
      fun _ => triple_commitImport hplanned
    unfold stageImport
    refine triple_bind (Q := fun _ _ s => Staging before plans plans [] s) ?_ fun _ => ?_
    · refine (triple_stagePlans hplanned).conseq ?_ (fun _ _ _ hs => hs) ?_
      · rintro _ _ rfl
        exact hstart
      · rintro _ _ _ ⟨rfl, rfl, hs⟩
        exact ⟨rfl, nofun, hs⟩
    · refine (triple_backUps hplanned).conseq (fun _ _ hs => hs) (fun _ _ _ hs => hs) ?_
      rintro _ _ _ ⟨rfl, rfl, hs⟩
      exact ⟨rfl, nofun, hs⟩
  · intro _
    refine triple_of_start fun b₀ s₀ h => ?_
    refine (triple_cleanUp hplanned true b₀).conseq ?_ ?_ ?_
    · rintro _ _ ⟨rfl, rfl⟩
      exact ⟨rfl, h.layout, h.pending, nofun, nofun⟩
    · exact fun _ _ _ hs => ⟨hs.layout.nodup, hs.get⟩
    · rintro _ _ _ ⟨-, rfl⟩
      exact .inl rfl
  · intro e
    refine triple_of_start fun b₀ s₀ h => ?_
    obtain ⟨rfl, -, hlayout, hpending⟩ := h
    refine (triple_cleanUp hplanned false false).conseq ?_ ?_ ?_
    · rintro _ _ ⟨rfl, rfl⟩
      exact ⟨rfl, hlayout, hpending, nofun, nofun⟩
    · exact fun _ _ _ hs => .inr ⟨hs.layout.nodup, hs.get⟩
    · rintro _ _ _ ⟨hb, -⟩
      cases hb

end

/-- Looking at the files changes nothing. -/
lemma triple_forM_look {γ : Type} {xs : List γ} {body : γ → ImportProgram Unit}
    {I : Phase → ImportState → Prop} {P : ImportState → Prop}
    {E : ImportError → Bool → ImportState → Prop}
    (hbody : ∀ x ∈ xs, Triple I (fun _ s => P s) (body x) (fun _ _ s => P s) E) :
    Triple I (fun _ s => P s) (xs.forM body) (fun _ _ s => P s) E :=
  triple_forM (fun _ _ s => P s) fun _ x _ heq =>
    hbody x (heq ▸ List.mem_append_right _ List.mem_cons_self)

/-- What an import visits, and what it leaves. -/
theorem triple_writeImport {env : CatalogEnv} {before : Files} {source : CatalogSource}
    {actions : List CatalogAction} {plans : List WritePlan}
    (hplans : prepareImport env source actions = .ok plans) (hplanned : Planned env plans)
    (hnodup : ∀ folder, (before folder).keys.Nodup) :
    Triple (Visible before plans) (fun _ s => s = .initial before)
      (writeImport env source actions)
      (fun _ _ s => Imported before plans s) (fun e _ s => Raised before e s) := by
  have hinitial : Visible before plans .staging (.initial before) :=
    visible_staging (Layout.initial hnodup plans)
  have hraised : Raised before (.osError .staging) (.initial before) :=
    .inr ⟨hnodup, fun _ _ => rfl⟩
  have hlook : ∀ {α : Type} (f : ImportState → α), Triple (Visible before plans)
      (fun _ s => s = .initial before) (look .staging f) (fun _ _ s => s = .initial before)
      (fun e _ s => Raised before e s) := by
    intro α f
    refine triple_look ?_ (fun _ _ hs => hs) ?_
    · rintro _ _ rfl
      exact hinitial
    · rintro _ rfl
      exact hraised
  unfold writeImport
  rw [hplans]
  refine triple_bind (triple_forM_look fun _ _ => hlook _) fun _ => ?_
  refine triple_bind (triple_forM_look fun plan _ => ?_) fun _ =>
    triple_applyImport hplanned hnodup
  exact triple_bind (hlook _) fun _ => hlook _

end MercuryTools.Catalog
