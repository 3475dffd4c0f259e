import MercuryTools.Catalog.LocalStore

/-!
# Where an import has got to

While an import runs, the directories hold the files from before the import, the files of the
plans that are committed, and one temporary file for every path that is kept (`Layout`).  This is
what every step of the import preserves.
-/

namespace MercuryTools.Catalog

open Program

/-- The plans of an import have their own destinations, which are no temporary names, and
temporary files get names that are not used. -/
structure Planned (env : CatalogEnv) (plans : List WritePlan) : Prop where
  nodup : (plans.map fun plan => (plan.folder, plan.filename)).Nodup
  not_temporary : ∀ plan ∈ plans, isTemporaryName plan.filename = false
  fresh : ∀ names, env.temporaryName names ∉ names
  temporary : ∀ names, isTemporaryName (env.temporaryName names) = true

/-- The files once the plans are committed. -/
def overlay (files : Files) (plans : List WritePlan) (folder : Folder) (name : String) :
    Option (List Char) :=
  match plans.find? fun plan => plan.folder = folder ∧ plan.filename = name with
  | some plan => some plan.payload
  | none => (files folder).get name

/-- What is in the temporary file of a slot, once it is written. -/
def slotContent (files : Files) (plans : List WritePlan) (folder : Folder) :
    Slot → Option (List Char)
  | .pending => none
  | .staged name => overlay (fun _ => []) plans folder name
  | .backup name => (files folder).get name

/-- The directories of an import that began with the files `before`, where the plans `done` are
committed. -/
structure Layout (before : Files) (plans done : List WritePlan) (s : ImportState) : Prop where
  nodup : ∀ folder, (s.files folder).keys.Nodup
  settled : ∀ folder name, (∀ slot, s.paths folder slot ≠ some name) →
    (s.files folder).get name = overlay before done folder name
  fresh : ∀ folder slot name, s.paths folder slot = some name →
    isTemporaryName name = true ∧ (before folder).get name = none
  unshared : ∀ folder slot slot' name, s.paths folder slot = some name →
    s.paths folder slot' = some name → slot = slot'
  present : ∀ folder slot name, s.paths folder slot = some name →
    ((s.files folder).get name).isSome = true
  content : ∀ folder slot name, s.paths folder slot = some name → slot ≠ .pending →
    (s.files folder).get name = slotContent before plans folder slot
  owned : ∀ folder slot name, s.paths folder slot = some name → slot = .pending ∨
    ∃ plan ∈ plans, plan.folder = folder ∧
      (slot = .staged plan.filename ∨ slot = .backup plan.filename)

section

variable {before : Files} {plans done : List WritePlan} {plan : WritePlan}
  {folder : Folder} {name : String}

lemma overlay_of_forall_ne
    (h : ∀ plan ∈ done, ¬ (plan.folder = folder ∧ plan.filename = name)) :
    overlay before done folder name = (before folder).get name := by
  unfold overlay
  rw [List.find?_eq_none.2 fun plan hplan => by simpa using h plan hplan]

lemma overlay_of_mem (hnodup : (done.map fun plan => (plan.folder, plan.filename)).Nodup)
    (hplan : plan ∈ done) :
    overlay before done plan.folder plan.filename = some plan.payload := by
  unfold overlay
  cases hfind : done.find? fun other =>
      other.folder = plan.folder ∧ other.filename = plan.filename with
  | none =>
      have hne := List.find?_eq_none.1 hfind plan hplan
      simp at hne
  | some other =>
      have hmem := List.mem_of_find?_eq_some hfind
      have hsame := List.find?_some hfind
      simp only [decide_eq_true_eq] at hsame
      have heq : other = plan := List.inj_on_of_nodup_map hnodup hmem hplan
        (Prod.ext hsame.1 hsame.2)
      rw [heq]

/-- What is not temporary in the overlay was there before, or belongs to a plan. -/
lemma overlay_eq_some {content : List Char} (h : overlay before done folder name = some content) :
    (before folder).get name = some content ∨
      ∃ plan ∈ done, plan.folder = folder ∧ plan.filename = name ∧ plan.payload = content := by
  unfold overlay at h
  split at h
  next plan hfind =>
    have hsame := List.find?_some hfind
    simp only [decide_eq_true_eq] at hsame
    exact .inr ⟨plan, List.mem_of_find?_eq_some hfind, hsame.1, hsame.2, Option.some.inj h⟩
  · exact .inl h

/-- One more plan. -/
lemma overlay_concat (hnodup : ((done ++ [plan]).map fun plan =>
    (plan.folder, plan.filename)).Nodup) (folder : Folder) (name : String) :
    overlay before (done ++ [plan]) folder name =
      if plan.folder = folder ∧ plan.filename = name then some plan.payload
      else overlay before done folder name := by
  by_cases hsame : plan.folder = folder ∧ plan.filename = name
  · obtain ⟨rfl, rfl⟩ := hsame
    rw [if_pos ⟨rfl, rfl⟩]
    exact overlay_of_mem hnodup (List.mem_append_right _ List.mem_cons_self)
  · rw [if_neg hsame]
    unfold overlay
    rw [List.find?_append]
    cases done.find? fun plan => plan.folder = folder ∧ plan.filename = name with
    | some other => rfl
    | none => simp [hsame]

/-- Without its last plan. -/
lemma overlay_of_concat_nodup (hnodup : ((done ++ [plan]).map fun plan =>
    (plan.folder, plan.filename)).Nodup) :
    overlay before done plan.folder plan.filename = (before plan.folder).get plan.filename := by
  refine overlay_of_forall_ne fun other hother hsame => ?_
  rw [List.map_append, List.map_singleton] at hnodup
  exact List.disjoint_of_nodup_append hnodup (List.mem_map.2 ⟨other, hother, rfl⟩)
    (List.mem_singleton.2 (Prod.ext hsame.1 hsame.2))

end

lemma slotContent_staged {env : CatalogEnv} {plans : List WritePlan} (hplanned : Planned env plans)
    {plan : WritePlan} (hplan : plan ∈ plans) (before : Files) :
    slotContent before plans plan.folder (.staged plan.filename) = some plan.payload := by
  unfold slotContent
  exact overlay_of_mem hplanned.nodup hplan

/-! ## Changing one file -/

section

variable {s : ImportState} {folder folder' : Folder} {name name' : String}

@[simp] lemma files_setPath (slot : Slot) (path? : Option String) :
    (s.setPath folder slot path?).files = s.files := rfl

@[simp] lemma existed_setPath (slot : Slot) (path? : Option String) :
    (s.setPath folder slot path?).existed = s.existed := rfl

@[simp] lemma paths_setFile (content : List Char) :
    (s.setFile folder name content).paths = s.paths := rfl

@[simp] lemma paths_removeFile : (s.removeFile folder name).paths = s.paths := rfl

lemma paths_setPath (slot slot' : Slot) (path? : Option String) :
    (s.setPath folder slot path?).paths folder' slot' =
      if folder' = folder ∧ slot' = slot then path? else s.paths folder' slot' := by
  unfold ImportState.setPath
  dsimp only
  by_cases hfolder : folder' = folder
  · subst hfolder
    rw [Function.update_self]
    by_cases hslot : slot' = slot
    · rw [hslot, Function.update_self, if_pos ⟨rfl, rfl⟩]
    · rw [Function.update_of_ne hslot, if_neg fun h => hslot h.2]
  · rw [Function.update_of_ne hfolder, if_neg fun h => hfolder h.1]

lemma get_setFile (content : List Char) :
    ((s.setFile folder name content).files folder').get name' =
      if folder' = folder ∧ name' = name then some content else (s.files folder').get name' := by
  unfold ImportState.setFile
  dsimp only
  by_cases hfolder : folder' = folder
  · subst hfolder
    rw [Function.update_self, Dict.get_set]
    simp
  · rw [Function.update_of_ne hfolder, if_neg fun h => hfolder h.1]

lemma get_removeFile :
    ((s.removeFile folder name).files folder').get name' =
      if folder' = folder ∧ name' = name then none else (s.files folder').get name' := by
  unfold ImportState.removeFile
  dsimp only
  by_cases hfolder : folder' = folder
  · subst hfolder
    rw [Function.update_self, Dict.get_remove]
    simp
  · rw [Function.update_of_ne hfolder, if_neg fun h => hfolder h.1]

lemma nodup_setFile (h : ∀ folder, (s.files folder).keys.Nodup) (content : List Char) :
    ((s.setFile folder name content).files folder').keys.Nodup := by
  unfold ImportState.setFile
  dsimp only
  by_cases hfolder : folder' = folder
  · subst hfolder
    rw [Function.update_self]
    exact Dict.nodup_keys_set (h _) _ _
  · rw [Function.update_of_ne hfolder]
    exact h _

lemma nodup_removeFile (h : ∀ folder, (s.files folder).keys.Nodup) :
    ((s.removeFile folder name).files folder').keys.Nodup := by
  unfold ImportState.removeFile
  dsimp only
  by_cases hfolder : folder' = folder
  · subst hfolder
    rw [Function.update_self]
    exact Dict.nodup_keys_remove (h _) _
  · rw [Function.update_of_ne hfolder]
    exact h _

end

/-! ## What steps preserve -/

namespace Layout

variable {env : CatalogEnv} {before : Files} {plans done : List WritePlan} {plan : WritePlan}
  {s : ImportState} {folder : Folder} {name : String}

/-- Before anything is staged. -/
lemma initial (hnodup : ∀ folder, (before folder).keys.Nodup) (plans : List WritePlan) :
    Layout before plans [] (.initial before) where
  nodup := hnodup
  settled _ _ _ := rfl
  fresh _ _ _ := nofun
  unshared _ _ _ _ := nofun
  present _ _ _ := nofun
  content _ _ _ := nofun
  owned _ _ _ := nofun

/-- Where nothing is kept, the directories hold no temporary file of the import. -/
lemma get_of_paths_none (h : Layout before plans done s)
    (hnone : ∀ folder slot, s.paths folder slot = none) (folder : Folder) (name : String) :
    (s.files folder).get name = overlay before done folder name :=
  h.settled folder name fun slot hslot => by rw [hnone] at hslot; cases hslot

/-- A destination is not a temporary name. -/
lemma get_destination (h : Layout before plans done s) (hname : isTemporaryName name = false) :
    (s.files folder).get name = overlay before done folder name := by
  refine h.settled folder name fun slot hslot => ?_
  rw [(h.fresh folder slot name hslot).1] at hname
  cases hname

/-- A new temporary file. -/
lemma createTemporary (h : Layout before plans done s) (hplanned : Planned env plans)
    (hdone : done ⊆ plans) (hpending : s.paths folder .pending = none) :
    Layout before plans done (Catalog.createTemporary env folder s) := by
  have hnew : (s.files folder).get (env.temporaryName (s.files folder).keys) = none :=
    Dict.get_eq_none.2 (hplanned.fresh _)
  have hfree : ∀ slot, s.paths folder slot ≠ some (env.temporaryName (s.files folder).keys) := by
    intro slot hslot
    have hpresent := h.present folder slot _ hslot
    rw [hnew] at hpresent
    cases hpresent
  have hbefore : (before folder).get (env.temporaryName (s.files folder).keys) = none := by
    rw [← hnew, h.settled folder _ hfree]
    refine (overlay_of_forall_ne fun plan hplan hsame => ?_).symm
    have htemporary := hplanned.temporary (s.files folder).keys
    rw [← hsame.2, hplanned.not_temporary plan (hdone hplan)] at htemporary
    cases htemporary
  unfold Catalog.createTemporary
  dsimp only
  generalize hpath : env.temporaryName (s.files folder).keys = path at hnew hfree hbefore
  have htemporary : isTemporaryName path = true := hpath ▸ hplanned.temporary _
  -- a path is the new one or it was kept before
  have hcases : ∀ {folder' slot name'}, ((s.setFile folder path []).setPath folder .pending
      (some path)).paths folder' slot = some name' →
      folder' = folder ∧ slot = .pending ∧ name' = path ∨
        s.paths folder' slot = some name' ∧ ¬ (folder' = folder ∧ name' = path) := by
    intro folder' slot name' hslot
    rw [paths_setPath, paths_setFile] at hslot
    split at hslot
    next hsame => exact .inl ⟨hsame.1, hsame.2, (Option.some.inj hslot).symm⟩
    · refine .inr ⟨hslot, ?_⟩
      rintro ⟨rfl, rfl⟩
      exact hfree slot hslot
  constructor
  · exact fun folder' => nodup_setFile h.nodup []
  · intro folder' name' hnot
    rw [files_setPath, get_setFile]
    have hne : ¬ (folder' = folder ∧ name' = path) := by
      rintro ⟨rfl, rfl⟩
      refine hnot .pending ?_
      rw [paths_setPath, if_pos ⟨rfl, rfl⟩]
    rw [if_neg hne]
    refine h.settled folder' name' fun slot hslot => hnot slot ?_
    rw [paths_setPath, if_neg ?_]
    · exact hslot
    · rintro ⟨rfl, rfl⟩
      rw [hpending] at hslot
      cases hslot
  · intro folder' slot name' hslot
    rcases hcases hslot with ⟨rfl, -, rfl⟩ | ⟨hold, -⟩
    · exact ⟨htemporary, hbefore⟩
    · exact h.fresh folder' slot name' hold
  · intro folder' slot slot' name' hslot hslot'
    rcases hcases hslot with ⟨rfl, rfl, rfl⟩ | ⟨hold, hne⟩
    · rcases hcases hslot' with ⟨-, rfl, -⟩ | ⟨-, hne⟩
      · rfl
      · exact absurd ⟨rfl, rfl⟩ hne
    · rcases hcases hslot' with ⟨rfl, rfl, rfl⟩ | ⟨hold', -⟩
      · exact absurd ⟨rfl, rfl⟩ hne
      · exact h.unshared folder' slot slot' name' hold hold'
  · intro folder' slot name' hslot
    rw [files_setPath, get_setFile]
    rcases hcases hslot with ⟨rfl, -, rfl⟩ | ⟨hold, hne⟩
    · rw [if_pos ⟨rfl, rfl⟩]
      rfl
    · rw [if_neg hne]
      exact h.present folder' slot name' hold
  · intro folder' slot name' hslot hne
    rw [files_setPath, get_setFile]
    rcases hcases hslot with ⟨-, rfl, -⟩ | ⟨hold, hne'⟩
    · exact absurd rfl hne
    · rw [if_neg hne']
      exact h.content folder' slot name' hold hne
  · intro folder' slot name' hslot
    rcases hcases hslot with ⟨-, rfl, -⟩ | ⟨hold, -⟩
    · exact .inl rfl
    · exact h.owned folder' slot name' hold

/-- The file of the pending path is written. -/
lemma writeTemporary (h : Layout before plans done s) (payload : List Char) :
    Layout before plans done (Catalog.writeTemporary folder payload s) := by
  unfold Catalog.writeTemporary
  cases hpending : s.paths folder .pending with
  | none => exact h
  | some path =>
      have hother : ∀ {folder' slot name'}, s.paths folder' slot = some name' → slot ≠ .pending →
          ¬ (folder' = folder ∧ name' = path) := by
        rintro folder' slot name' hslot hne ⟨rfl, rfl⟩
        exact hne (h.unshared folder' slot .pending name' hslot hpending)
      refine ⟨fun folder' => nodup_setFile h.nodup payload, ?_, h.fresh, h.unshared, ?_, ?_, h.owned⟩
      · intro folder' name' hnot
        rw [get_setFile, if_neg ?_]
        · exact h.settled folder' name' hnot
        · rintro ⟨rfl, rfl⟩
          exact hnot .pending hpending
      · intro folder' slot name' hslot
        rw [get_setFile]
        split
        · rfl
        · exact h.present folder' slot name' hslot
      · intro folder' slot name' hslot hne
        rw [get_setFile, if_neg (hother hslot hne)]
        exact h.content folder' slot name' hslot hne

variable {slot : Slot} {done' : List WritePlan} {path : String}

/-- The pending path is kept for a plan. -/
lemma returnTemporary (h : Layout before plans done s) (hempty : s.paths folder slot = none)
    (howned : ∃ plan ∈ plans, plan.folder = folder ∧
      (slot = .staged plan.filename ∨ slot = .backup plan.filename))
    (hcontent : ∀ path, s.paths folder .pending = some path →
      (s.files folder).get path = slotContent before plans folder slot) :
    Layout before plans done (Catalog.returnTemporary folder slot s) := by
  have hslot : slot ≠ .pending := by
    obtain ⟨plan, -, -, rfl | rfl⟩ := howned
    · exact nofun
    · exact nofun
  have hpaths : ∀ folder' slot', (Catalog.returnTemporary folder slot s).paths folder' slot' =
      if folder' = folder ∧ slot' = .pending then none
      else if folder' = folder ∧ slot' = slot then s.paths folder .pending
      else s.paths folder' slot' := by
    intro folder' slot'
    unfold Catalog.returnTemporary
    rw [paths_setPath, paths_setPath]
  -- every path was kept before, in the same slot or as the pending one
  have hcases : ∀ {folder' slot' name'},
      (Catalog.returnTemporary folder slot s).paths folder' slot' = some name' →
      slot' ≠ .pending ∧ folder' = folder ∧ slot' = slot ∧
          s.paths folder .pending = some name' ∨
        s.paths folder' slot' = some name' ∧ ¬ (folder' = folder ∧ slot' = .pending) ∧
          ¬ (folder' = folder ∧ slot' = slot) := by
    intro folder' slot' name' hslot'
    rw [hpaths] at hslot'
    split at hslot'
    · cases hslot'
    next hnot =>
      split at hslot'
      next hsame => exact .inl ⟨hsame.2 ▸ hslot, hsame.1, hsame.2, hslot'⟩
      next hnot' => exact .inr ⟨hslot', hnot, hnot'⟩
  refine ⟨h.nodup, ?_, ?_, ?_, ?_, ?_, ?_⟩
  · intro folder' name' hnot
    refine h.settled folder' name' fun slot' hslot' => ?_
    by_cases hpending : folder' = folder ∧ slot' = .pending
    · obtain ⟨rfl, rfl⟩ := hpending
      refine hnot slot ?_
      rw [hpaths, if_neg fun heq => hslot heq.2, if_pos ⟨rfl, rfl⟩]
      exact hslot'
    · refine hnot slot' ?_
      rw [hpaths, if_neg hpending, if_neg ?_]
      · exact hslot'
      · rintro ⟨rfl, rfl⟩
        rw [hempty] at hslot'
        cases hslot'
  · intro folder' slot' name' hslot'
    rcases hcases hslot' with ⟨-, rfl, -, hpending⟩ | ⟨hold, -⟩
    · exact h.fresh _ _ _ hpending
    · exact h.fresh _ _ _ hold
  · intro folder' slot' slot'' name' hslot' hslot''
    rcases hcases hslot' with ⟨-, rfl, rfl, hpending⟩ | ⟨hold, hnot, -⟩
    · rcases hcases hslot'' with ⟨-, -, rfl, -⟩ | ⟨hold, hnot, -⟩
      · rfl
      · exact absurd ⟨rfl, h.unshared _ _ _ _ hold hpending⟩ hnot
    · rcases hcases hslot'' with ⟨-, rfl, rfl, hpending⟩ | ⟨hold', -, -⟩
      · exact absurd ⟨rfl, h.unshared _ _ _ _ hold hpending⟩ hnot
      · exact h.unshared _ _ _ _ hold hold'
  · intro folder' slot' name' hslot'
    rcases hcases hslot' with ⟨-, rfl, -, hpending⟩ | ⟨hold, -⟩
    · exact h.present _ _ _ hpending
    · exact h.present _ _ _ hold
  · intro folder' slot' name' hslot' hne
    rcases hcases hslot' with ⟨-, rfl, rfl, hpending⟩ | ⟨hold, -⟩
    · exact hcontent name' hpending
    · exact h.content _ _ _ hold hne
  · intro folder' slot' name' hslot'
    rcases hcases hslot' with ⟨-, rfl, rfl, -⟩ | ⟨hold, -⟩
    · exact .inr howned
    · exact h.owned _ _ _ hold

/-- A temporary file leaves its slot, and a destination may get its place: what the paths say of
the other temporary files. -/
lemma clearSlot (h : Layout before plans done s) {s' : ImportState}
    (hpaths : s'.paths = (s.setPath folder slot none).paths)
    (hnodup : ∀ folder, (s'.files folder).keys.Nodup)
    (hsettled : ∀ folder' name', (∀ slot', s'.paths folder' slot' ≠ some name') →
      (s'.files folder').get name' = overlay before done' folder' name')
    (hget : ∀ folder' slot' name', s'.paths folder' slot' = some name' →
      (s'.files folder').get name' = (s.files folder').get name') :
    Layout before plans done' s' := by
  have hcases : ∀ {folder' slot' name'}, s'.paths folder' slot' = some name' →
      s.paths folder' slot' = some name' := by
    intro folder' slot' name' hslot'
    rw [hpaths, paths_setPath] at hslot'
    split at hslot'
    · cases hslot'
    · exact hslot'
  refine ⟨hnodup, hsettled, ?_, ?_, ?_, ?_, ?_⟩
  · exact fun folder' slot' name' hslot' => h.fresh _ _ _ (hcases hslot')
  · exact fun folder' slot' slot'' name' hslot' hslot'' =>
      h.unshared _ _ _ _ (hcases hslot') (hcases hslot'')
  · intro folder' slot' name' hslot'
    rw [hget _ _ _ hslot']
    exact h.present _ _ _ (hcases hslot')
  · intro folder' slot' name' hslot' hne
    rw [hget _ _ _ hslot']
    exact h.content _ _ _ (hcases hslot') hne
  · exact fun folder' slot' name' hslot' => h.owned _ _ _ (hcases hslot')

/-- The path of a slot is in no other slot once it has left. -/
lemma paths_ne_of_clearSlot (h : Layout before plans done s)
    (hpath : s.paths folder slot = some path) (slot' : Slot) :
    (s.setPath folder slot none).paths folder slot' ≠ some path := by
  intro hslot'
  rw [paths_setPath] at hslot'
  split at hslot'
  · cases hslot'
  next hnot => exact hnot ⟨rfl, h.unshared _ _ _ _ hslot' hpath⟩

/-- The overlay has no temporary file of the import. -/
lemma overlay_path (h : Layout before plans done s) (hplanned : Planned env plans)
    (hdone : done ⊆ plans) (hpath : s.paths folder slot = some path) :
    overlay before done folder path = none := by
  obtain ⟨htemporary, hbefore⟩ := h.fresh folder slot path hpath
  rw [overlay_of_forall_ne, hbefore]
  rintro plan hplan ⟨-, rfl⟩
  rw [hplanned.not_temporary plan (hdone hplan)] at htemporary
  cases htemporary

/-- A temporary file is removed. -/
lemma removeTemporary (h : Layout before plans done s) (hplanned : Planned env plans)
    (hdone : done ⊆ plans) (hpath : s.paths folder slot = some path) :
    Layout before plans done ((s.removeFile folder path).setPath folder slot none) := by
  refine h.clearSlot rfl (fun folder' => nodup_removeFile h.nodup) ?_ ?_
  · intro folder' name' hnot
    rw [files_setPath, get_removeFile]
    split
    next hsame =>
      obtain ⟨rfl, rfl⟩ := hsame
      exact (h.overlay_path hplanned hdone hpath).symm
    next hne =>
      refine h.settled folder' name' fun slot' hslot' => hnot slot' ?_
      rw [paths_setPath, if_neg ?_]
      · exact hslot'
      · rintro ⟨rfl, rfl⟩
        rw [hpath] at hslot'
        exact hne ⟨rfl, (Option.some.inj hslot').symm⟩
  · intro folder' slot' name' hslot'
    rw [files_setPath, get_removeFile, if_neg ?_]
    rintro ⟨rfl, rfl⟩
    exact h.paths_ne_of_clearSlot hpath slot' hslot'

/-- A temporary file takes the place of a destination. -/
lemma replaceTemporary (h : Layout before plans done s) (hplanned : Planned env plans)
    (hdone : done ⊆ plans) (hpath : s.paths folder slot = some path) (hslot : slot ≠ .pending)
    (hname : isTemporaryName name = false)
    (hoverlay : ∀ folder' name', overlay before done' folder' name' =
      if folder' = folder ∧ name' = name then slotContent before plans folder slot
      else overlay before done folder' name') :
    Layout before plans done' ((s.replaceFile folder path name).setPath folder slot none) := by
  obtain ⟨content, hcontent⟩ := Option.isSome_iff_exists.1 (h.present folder slot path hpath)
  have hreplace : s.replaceFile folder path name =
      (s.removeFile folder path).setFile folder name content := by
    unfold ImportState.replaceFile
    rw [hcontent]
  have hslotContent := h.content folder slot path hpath hslot
  rw [hreplace]
  refine h.clearSlot (show _ = (s.setPath folder slot none).paths from rfl)
    (fun folder' => nodup_setFile (fun _ => nodup_removeFile h.nodup) content) ?_ ?_
  · intro folder' name' hnot
    rw [files_setPath, get_setFile, get_removeFile, hoverlay]
    split
    · rw [← hslotContent, hcontent]
    · split
      next hsame =>
        obtain ⟨rfl, rfl⟩ := hsame
        exact (h.overlay_path hplanned hdone hpath).symm
      next hne' =>
        refine h.settled folder' name' fun slot' hslot' => hnot slot' ?_
        rw [paths_setPath, if_neg ?_]
        · exact hslot'
        · rintro ⟨rfl, rfl⟩
          rw [hpath] at hslot'
          exact hne' ⟨rfl, (Option.some.inj hslot').symm⟩
  · intro folder' slot' name' hslot'
    rw [files_setPath, get_setFile, get_removeFile, if_neg ?_, if_neg ?_]
    · rintro ⟨rfl, rfl⟩
      exact h.paths_ne_of_clearSlot hpath slot' hslot'
    · rintro ⟨rfl, rfl⟩
      have hold : s.paths folder' slot' = some name' := by
        have hpaths := hslot'
        change (s.setPath folder' slot none).paths folder' slot' = some name' at hpaths
        rw [paths_setPath] at hpaths
        split at hpaths
        · cases hpaths
        · exact hpaths
      rw [(h.fresh folder' slot' name' hold).1] at hname
      cases hname

/-- A plan is committed. -/
lemma commit (h : Layout before plans done s) (hplanned : Planned env plans)
    (hplans : done ++ [plan] ⊆ plans)
    (hnodup : ((done ++ [plan]).map fun plan => (plan.folder, plan.filename)).Nodup)
    (hpath : s.paths plan.folder (.staged plan.filename) = some path) :
    Layout before plans (done ++ [plan]) ((s.replaceFile plan.folder path plan.filename).setPath
      plan.folder (.staged plan.filename) none) := by
  have hplan : plan ∈ plans := hplans (List.mem_append_right _ List.mem_cons_self)
  refine h.replaceTemporary hplanned (List.Subset.trans (List.subset_append_left _ _) hplans) hpath
    nofun (hplanned.not_temporary plan hplan) fun folder' name' => ?_
  rw [overlay_concat hnodup, slotContent_staged hplanned hplan]
  by_cases hsame : plan.folder = folder' ∧ plan.filename = name'
  · rw [if_pos hsame, if_pos ⟨hsame.1.symm, hsame.2.symm⟩]
  · rw [if_neg hsame, if_neg fun heq => hsame ⟨heq.1.symm, heq.2.symm⟩]

/-- The overlay without the last plan. -/
lemma overlay_restore
    (hnodup : ((done ++ [plan]).map fun plan => (plan.folder, plan.filename)).Nodup)
    (folder' : Folder) (name' : String) : overlay before done folder' name' =
      if folder' = plan.folder ∧ name' = plan.filename then
        (before plan.folder).get plan.filename
      else overlay before (done ++ [plan]) folder' name' := by
  split
  next hsame =>
    obtain ⟨rfl, rfl⟩ := hsame
    exact overlay_of_concat_nodup hnodup
  next hne =>
    rw [overlay_concat hnodup, if_neg fun heq => hne ⟨heq.1.symm, heq.2.symm⟩]

/-- The backup of a plan is restored. -/
lemma restore (h : Layout before plans (done ++ [plan]) s) (hplanned : Planned env plans)
    (hplans : done ++ [plan] ⊆ plans)
    (hnodup : ((done ++ [plan]).map fun plan => (plan.folder, plan.filename)).Nodup)
    (hpath : s.paths plan.folder (.backup plan.filename) = some path) :
    Layout before plans done ((s.replaceFile plan.folder path plan.filename).setPath
      plan.folder (.backup plan.filename) none) := by
  have hplan : plan ∈ plans := hplans (List.mem_append_right _ List.mem_cons_self)
  exact h.replaceTemporary hplanned hplans hpath nofun (hplanned.not_temporary plan hplan)
    (overlay_restore hnodup)

/-- The file of a plan whose destination did not exist is removed. -/
lemma restoreNew (h : Layout before plans (done ++ [plan]) s) (hplanned : Planned env plans)
    (hplans : done ++ [plan] ⊆ plans)
    (hnodup : ((done ++ [plan]).map fun plan => (plan.folder, plan.filename)).Nodup)
    (hnew : (before plan.folder).get plan.filename = none) :
    Layout before plans done (s.removeFile plan.folder plan.filename) := by
  have hplan : plan ∈ plans := hplans (List.mem_append_right _ List.mem_cons_self)
  have hkept : ∀ {folder' slot' name'}, s.paths folder' slot' = some name' →
      ¬ (folder' = plan.folder ∧ name' = plan.filename) := by
    rintro folder' slot' name' hslot' ⟨rfl, rfl⟩
    have htemporary := (h.fresh _ _ _ hslot').1
    rw [hplanned.not_temporary plan hplan] at htemporary
    cases htemporary
  refine ⟨fun folder' => nodup_removeFile h.nodup, ?_, h.fresh, h.unshared, ?_, ?_, h.owned⟩
  · intro folder' name' hnot
    rw [get_removeFile, overlay_restore hnodup, hnew]
    split
    · rfl
    · exact h.settled folder' name' hnot
  · intro folder' slot' name' hslot'
    rw [get_removeFile, if_neg (hkept hslot')]
    exact h.present _ _ _ hslot'
  · intro folder' slot' name' hslot' hne
    rw [get_removeFile, if_neg (hkept hslot')]
    exact h.content _ _ _ hslot' hne

end Layout

end MercuryTools.Catalog
