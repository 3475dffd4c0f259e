import MercuryTools.Catalog.ImportSteps

/-!
# Listing what was imported

A listing passes if every name that it lists is the name of an action whose text the file has when
it is read, and then it lists these actions (`exists_listActionsFrom`).  The plans of an import of
valid records are its source and its actions (`plans_of_prepareImport`), and every file that can be
seen while it runs has a temporary name or such a text.
-/

namespace MercuryTools.Catalog

open Checks Program

/-- The name of an action's file. -/
def CatalogAction.filename (action : CatalogAction) : String :=
  action.actionId ++ ".json"

/-- What the validation accepts, unchanged, and the reader reads back. -/
structure ValidAction (env : CatalogEnv) (action : CatalogAction) : Prop where
  revalidated : env.revalidateAction action = some action
  filename : isActionFilename action.filename = true
  loaded : env.loadAction action.canonicalJson = .ok action

section

variable {env : CatalogEnv} {action other : CatalogAction}

lemma stem_filename (action : CatalogAction) : stem action.filename = action.actionId := by
  have hsuffix : ".json".toList.length = 5 := rfl
  unfold stem CatalogAction.filename
  rw [String.toList_append, List.length_append, hsuffix, Nat.add_sub_cancel, List.take_left,
    String.ofList_toList]

lemma filename_inj (h : action.filename = other.filename) : action.actionId = other.actionId := by
  rw [← stem_filename action, h, stem_filename]

lemma ValidAction.eq_of_canonicalJson (h : ValidAction env action) (h' : ValidAction env other)
    (heq : action.canonicalJson = other.canonicalJson) : action = other := by
  have hloaded := h.loaded
  rw [heq, h'.loaded] at hloaded
  exact (Except.ok.inj hloaded).symm

variable {name : String} {read : String → Option (List Char)} {actions : List CatalogAction}
  {source : CatalogSource}

lemma isTemporaryName_of_isCatalogFilename {start : List Char} (c : Char)
    (hstart : start.head? = some c) (hne : c ≠ '.') (h : isCatalogFilename start name.toList = true)
    : isTemporaryName name = false := by
  simp only [isCatalogFilename, Bool.and_eq_true, beq_iff_eq] at h
  obtain ⟨⟨⟨htake, -⟩, -⟩, -⟩ := h
  have hhead : name.toList.head? = some c := by
    rw [← hstart, ← htake]
    cases name.toList with
    | nil => rfl
    | cons d rest => rfl
  cases htemporary : ".catalog-".toList.isPrefixOf name.toList with
  | false => rw [isTemporaryName, htemporary, Bool.false_and]
  | true =>
      obtain ⟨rest, hrest⟩ := List.isPrefixOf_iff_prefix.1 htemporary
      rw [← hrest] at hhead
      exact absurd (Option.some.inj hhead).symm hne

lemma isTemporaryName_of_isActionFilename (h : isActionFilename name = true) :
    isTemporaryName name = false :=
  isTemporaryName_of_isCatalogFilename 'a' rfl (by decide) h

lemma isTemporaryName_of_isSourceFilename (h : isSourceFilename name = true) :
    isTemporaryName name = false :=
  isTemporaryName_of_isCatalogFilename 's' rfl (by decide) h

/-! ## Reading the directory -/

/-- The action of a name, as the file has it when it is read. -/
structure Listed (env : CatalogEnv) (read : String → Option (List Char)) (name : String)
    (action : CatalogAction) : Prop where
  named : name = action.filename
  valid : ValidAction env action
  content : read name = some action.canonicalJson

lemma listAction_eq_ok (h : Listed env read name action)
    (hid : action.actionId ∉ actions.map (·.actionId))
    (hversion : action.versionId ∉ actions.map (·.versionId)) :
    listAction env read actions name = .ok (actions ++ [action]) := by
  have hdecoded : decodeAction env action.canonicalJson (stem name) = .ok action := by
    unfold decodeAction
    rw [h.valid.loaded, h.named, stem_filename]
    change (do
      require (action.actionId == action.actionId) "catalog_action_filename_mismatch"
      require (action.canonicalJson == action.canonicalJson) "catalog_action_content_invalid"
      return action) = _
    rw [beq_self_eq_true, beq_self_eq_true]
    rfl
  have hfilename : isActionFilename name = true := h.named ▸ h.valid.filename
  have hnew : (!(actions.map (·.actionId)).contains action.actionId &&
      !(actions.map (·.versionId)).contains action.versionId) = true := by
    rw [Bool.and_eq_true, Bool.not_eq_true', Bool.not_eq_true', List.contains_eq_mem,
      List.contains_eq_mem, decide_eq_false_iff_not, decide_eq_false_iff_not]
    exact ⟨hid, hversion⟩
  unfold listAction
  rw [h.content]
  dsimp only
  rw [hfilename, hdecoded]
  change (require _ "catalog_action_duplicate" >>= fun _ => pure (actions ++ [action])) = _
  rw [hnew]
  rfl

/-- Actions with their own ids are merged to themselves. -/
lemma exists_mergeActions (h : (actions.map (·.actionId)).Nodup) :
    ∃ merged, mergeActions [] actions = .ok merged ∧ merged.Perm actions := by
  have hindexed : ∀ rest before, before ++ rest = actions → rest.foldlM indexAction
      (before.map fun action => (action.actionId, action)) =
        .ok (actions.map fun action => (action.actionId, action)) := by
    intro rest
    induction rest with
    | nil =>
        rintro before rfl
        rw [List.append_nil]
        rfl
    | cons action rest ih =>
        intro before heq
        have hkeys : Dict.keys (before.map fun action => (action.actionId, action)) =
            before.map (·.actionId) := by
          unfold Dict.keys
          rw [List.map_map]
          rfl
        have hnew : action.actionId ∉ before.map (·.actionId) := by
          rw [← heq, List.map_append] at h
          exact fun hmem => List.disjoint_of_nodup_append h hmem (List.mem_cons_self ..)
        have hstep : indexAction (before.map fun action => (action.actionId, action)) action =
            .ok ((before ++ [action]).map fun action => (action.actionId, action)) := by
          have hfresh : (!(Dict.keys (before.map fun action => (action.actionId, action))).contains
              action.actionId) = true := by
            rw [hkeys, Bool.not_eq_true', List.contains_eq_mem, decide_eq_false_iff_not]
            exact hnew
          unfold indexAction
          rw [hfresh, Dict.set_of_not_mem (hkeys ▸ hnew), List.map_append, List.map_singleton]
          rfl
        rw [List.foldlM_cons, hstep]
        refine ih (before ++ [action]) ?_
        rw [← heq, List.append_assoc, List.singleton_append]
  have hlocal := hindexed actions [] rfl
  have hnodup : (Dict.keys (actions.map fun action => (action.actionId, action))).Nodup := by
    unfold Dict.keys
    rw [List.map_map]
    exact h
  have hvalues : ((Dict.setAll [] (actions.map fun action => (action.actionId, action)))).values =
      actions := by
    rw [Dict.setAll_of_nodup (by rwa [List.nil_append]), List.nil_append, Dict.values, List.map_map]
    exact List.map_id _
  unfold mergeActions
  rw [List.map_nil] at hlocal
  rw [hlocal]
  refine ⟨_, rfl, ?_⟩
  rw [hvalues]
  exact List.perm_insertionSort _ _

lemma Listed.unique (h : Listed env read name action) (h' : Listed env read name other) :
    action = other :=
  h.valid.eq_of_canonicalJson h'.valid (Option.some.inj (h.content.symm.trans h'.content))

/-- A listing of actions' names passes, if no two actions share a version. -/
lemma exists_listActionsFrom {names : List String} (hnodup : names.Nodup)
    (h : ∀ name ∈ names, ∃ action, Listed env read name action)
    (hversions : ∀ name ∈ names, ∀ action, Listed env read name action → ∀ name' ∈ names,
      ∀ other, Listed env read name' other →
        action.versionId = other.versionId → action.actionId = other.actionId) :
    ∃ listed, listActionsFrom env names read = .ok listed ∧ (listed.map (·.actionId)).Nodup ∧
      ∀ action, action ∈ listed ↔ ∃ name ∈ names, Listed env read name action := by
  choose! actionOf h using h
  have hperm : (names.insertionSort (· ≤ ·)).Perm names := List.perm_insertionSort _ _
  have hsorted := hperm.nodup_iff.2 hnodup
  have hids : ∀ name ∈ names, ∀ other ∈ names,
      (actionOf name).actionId = (actionOf other).actionId → name = other := by
    intro name hname other hother heq
    rw [(h name hname).named, (h other hother).named, CatalogAction.filename, heq,
      CatalogAction.filename]
  have hfold : ∃ actions, (names.insertionSort (· ≤ ·)).foldlM (listAction env read) [] =
      .ok actions ∧ actions = (names.insertionSort (· ≤ ·)).map actionOf := by
    refine exists_foldlM_eq_ok _ _ (fun before actions => actions = before.map actionOf) ?_ rfl
    rintro before name after heq actions rfl
    have hmem : ∀ other ∈ before ++ name :: after, other ∈ names :=
      fun other hother => hperm.mem_iff.1 (heq ▸ hother)
    have hname : name ∈ names := hmem name (List.mem_append_right _ List.mem_cons_self)
    have hfresh : name ∉ before := by
      rw [heq] at hsorted
      exact fun hbefore => List.disjoint_of_nodup_append hsorted hbefore List.mem_cons_self
    refine ⟨_, listAction_eq_ok (h name hname) ?_ ?_, by rw [List.map_append, List.map_singleton]⟩
    · intro hid
      rw [List.map_map, List.mem_map] at hid
      obtain ⟨other, hother, heq'⟩ := hid
      exact hfresh (hids other (hmem other (List.mem_append_left _ hother)) name hname heq' ▸ hother)
    · intro hversion
      rw [List.map_map, List.mem_map] at hversion
      obtain ⟨other, hother, heq'⟩ := hversion
      have hother' := hmem other (List.mem_append_left _ hother)
      exact hfresh (hids other hother' name hname
        (hversions other hother' _ (h other hother') name hname _ (h name hname) heq') ▸ hother)
  obtain ⟨actions, hactions, rfl⟩ := hfold
  have hdistinct : (((names.insertionSort (· ≤ ·)).map actionOf).map (·.actionId)).Nodup := by
    rw [List.map_map]
    exact hsorted.map_on fun name hname other hother heq =>
      hids name (hperm.mem_iff.1 hname) other (hperm.mem_iff.1 hother) heq
  obtain ⟨merged, hmerged, hmergedPerm⟩ := exists_mergeActions hdistinct
  refine ⟨merged, ?_, (hmergedPerm.map _).nodup_iff.2 hdistinct, fun action => ?_⟩
  · unfold listActionsFrom
    rw [hactions]
    exact hmerged
  · rw [hmergedPerm.mem_iff, List.mem_map]
    constructor
    · rintro ⟨name, hname, rfl⟩
      exact ⟨name, hperm.mem_iff.1 hname, h name (hperm.mem_iff.1 hname)⟩
    · rintro ⟨name, hname, hlisted⟩
      exact ⟨name, hperm.mem_iff.2 hname, (h name hname).unique hlisted⟩

/-! ## The plans of valid records -/

/-- The plan for an action. -/
def actionPlan (action : CatalogAction) : WritePlan :=
  ⟨.actions, action.filename, action.canonicalJson⟩

/-- The plan for a source. -/
def sourcePlan (source : CatalogSource) : WritePlan :=
  ⟨.sources, source.sourceId ++ ".json", source.canonicalJson⟩

structure ValidSource (env : CatalogEnv) (source : CatalogSource) : Prop where
  revalidated : env.revalidateSource source = some source
  filename : isSourceFilename (source.sourceId ++ ".json") = true

lemma validated_of_foldlM {result : List CatalogAction}
    (hvalid : ∀ action ∈ actions, ValidAction env action) (validated : List CatalogAction)
    (hnodup : (validated.map (·.actionId)).Nodup)
    (h : actions.foldlM (prepareAction env) validated = .ok result) :
    result = validated ++ actions ∧ ((validated ++ actions).map (·.actionId)).Nodup := by
  induction actions generalizing validated with
  | nil =>
      rw [List.foldlM_nil, pure_eq_ok] at h
      rw [List.append_nil]
      exact ⟨h.symm, hnodup⟩
  | cons action actions ih =>
      obtain ⟨haction, hactions⟩ := List.forall_mem_cons.1 hvalid
      rw [List.foldlM_cons, bind_eq_ok] at h
      obtain ⟨next, hnext, h⟩ := h
      unfold prepareAction at hnext
      rw [haction.revalidated] at hnext
      dsimp only at hnext
      rw [bind_eq_ok] at hnext
      obtain ⟨u, hnew, hnext⟩ := hnext
      rw [require_eq_ok, Bool.not_eq_true', List.contains_eq_mem, decide_eq_false_iff_not] at hnew
      cases hnext
      have hnodup' : ((validated ++ [action]).map (·.actionId)).Nodup := by
        rw [List.map_append, List.map_singleton]
        refine List.nodup_append.2 ⟨hnodup, List.nodup_singleton _, ?_⟩
        rintro a ha b hb rfl
        exact hnew (List.mem_singleton.1 hb ▸ ha)
      obtain ⟨hresult, hall⟩ := ih hactions _ hnodup' h
      rw [List.append_assoc, List.singleton_append] at hresult hall
      exact ⟨hresult, hall⟩

/-- The plans of an import of valid records. -/
lemma plans_of_prepareImport {plans : List WritePlan} (hsource : ValidSource env source)
    (hvalid : ∀ action ∈ actions, ValidAction env action)
    (h : prepareImport env source actions = .ok plans) :
    plans = sourcePlan source :: actions.map actionPlan ∧ (actions.map (·.actionId)).Nodup := by
  unfold prepareImport at h
  rw [hsource.revalidated] at h
  dsimp only at h
  rw [bind_eq_ok] at h
  obtain ⟨validated, hvalidated, h⟩ := h
  obtain ⟨hresult, hnodup⟩ := validated_of_foldlM hvalid [] List.nodup_nil hvalidated
  rw [List.nil_append] at hresult hnodup
  rw [hresult] at h
  have hfirst : planWrite .sources (source.sourceId ++ ".json") source.canonicalJson =
      .ok (sourcePlan source) := by
    unfold planWrite
    rw [hsource.filename, Bool.or_true]
    rfl
  have hrest : ∀ xs ⊆ actions, xs.mapM (fun action =>
      planWrite .actions (action.actionId ++ ".json") action.canonicalJson) =
        .ok (xs.map actionPlan) := by
    intro xs
    induction xs with
    | nil => exact fun _ => rfl
    | cons action xs ih =>
        intro hsub
        obtain ⟨haction, hxs⟩ := List.cons_subset.1 hsub
        have hplan : planWrite .actions (action.actionId ++ ".json") action.canonicalJson =
            .ok (actionPlan action) := by
          have hfilename : isActionFilename (action.actionId ++ ".json") = true :=
            (hvalid action haction).filename
          unfold planWrite
          rw [hfilename, Bool.true_or]
          rfl
        rw [List.mapM_cons, hplan, ih hxs]
        rfl
  rw [hfirst, hrest actions (List.Subset.refl _)] at h
  cases h
  exact ⟨rfl, hnodup⟩

/-- Temporary files get names that are not used, and that are their own kind of names. -/
structure TemporaryNames (env : CatalogEnv) : Prop where
  fresh : ∀ names, env.temporaryName names ∉ names
  temporary : ∀ names, isTemporaryName (env.temporaryName names) = true

lemma planned_of_valid (henv : TemporaryNames env) (hsource : ValidSource env source)
    (hvalid : ∀ action ∈ actions, ValidAction env action)
    (hnodup : (actions.map (·.actionId)).Nodup) :
    Planned env (sourcePlan source :: actions.map actionPlan) where
  nodup := by
    rw [List.map_cons, List.map_map]
    refine List.nodup_cons.2 ⟨fun hmem => ?_, ?_⟩
    · obtain ⟨action, -, heq⟩ := List.mem_map.1 hmem
      cases congrArg Prod.fst heq
    · have hinj : ∀ action ∈ actions, ∀ other ∈ actions,
          (actionPlan action).filename = (actionPlan other).filename → action = other :=
        fun action haction other hother heq =>
          List.inj_on_of_nodup_map hnodup haction hother (filename_inj heq)
      exact (List.Nodup.of_map _ hnodup).map_on fun action haction other hother heq =>
        hinj action haction other hother (congrArg Prod.snd heq)
  not_temporary plan hplan := by
    rcases List.mem_cons.1 hplan with rfl | hmem
    · exact isTemporaryName_of_isSourceFilename hsource.filename
    · obtain ⟨action, haction, rfl⟩ := List.mem_map.1 hmem
      exact isTemporaryName_of_isActionFilename (hvalid action haction).filename
  fresh := henv.fresh
  temporary := henv.temporary

end

end MercuryTools.Catalog
