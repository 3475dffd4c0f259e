import MercuryTools.Local.CredentialTexts

/-!
# Documents under updates

What `save` and `clear` make of a document stores what they make of the assignment: `save` assigns
values to fields of one profile, where the empty value removes one, and `clear` removes the values
of every profile that matches.
-/

namespace MercuryTools.Local

open Checks

variable {sha : Sha256} {names : Set CredentialName} {saved : CredentialName → String}
  {document : Document}

/-! ## Saving -/

/-- The values of the document and the fields of one profile, while values are saved. -/
structure Update.Holds (sha : Sha256) (profile : Profile) (saved : CredentialName → String)
    (update : Update) : Prop where
  values_nodup : update.values.keys.Nodup
  fields_nodup : update.fields.keys.Nodup
  get_values : ∀ key value, update.values.get key = some value ↔
    ∃ name, saved name ≠ "" ∧ name.envName sha = key ∧ saved name = value
  get_fields : ∀ field key, update.fields.get field = some key ↔
    saved (nameOf profile field) ≠ "" ∧ (nameOf profile field).envName sha = key

/-- The values that are stored under a key, once a value has been assigned. -/
lemma exists_update_iff (hdiffer : NamesDiffer sha names) (hmem : ∀ name, saved name ≠ "" →
    name ∈ names) {assigned : CredentialName} (hassigned : assigned ∈ names) (value key v : String) :
    (∃ name, Function.update saved assigned value name ≠ "" ∧ name.envName sha = key ∧
      Function.update saved assigned value name = v) ↔
        if key = assigned.envName sha then value ≠ "" ∧ value = v
        else ∃ name, saved name ≠ "" ∧ name.envName sha = key ∧ saved name = v := by
  by_cases hkey : key = assigned.envName sha
  · rw [if_pos hkey]
    constructor
    · rintro ⟨name, hne, hname, rfl⟩
      have heq : name = assigned := by
        by_contra hneq
        rw [Function.update_of_ne hneq] at hne
        exact hneq (CredentialName.envName_inj hdiffer (hmem name hne) hassigned
          (hname.trans hkey))
      rw [heq, Function.update_self] at hne ⊢
      exact ⟨hne, rfl⟩
    · rintro ⟨hne, rfl⟩
      exact ⟨assigned, by rwa [Function.update_self], hkey.symm, Function.update_self ..⟩
  · rw [if_neg hkey]
    have hneq : ∀ name : CredentialName, name.envName sha = key → name ≠ assigned := by
      rintro name hname rfl
      exact hkey hname.symm
    constructor
    · rintro ⟨name, hne, hname, hv⟩
      rw [Function.update_of_ne (hneq name hname)] at hne hv
      exact ⟨name, hne, hname, hv⟩
    · rintro ⟨name, hne, hname, hv⟩
      refine ⟨name, ?_, hname, ?_⟩
      · rwa [Function.update_of_ne (hneq name hname)]
      · rwa [Function.update_of_ne (hneq name hname)]

variable {profile : Profile} {envNames values : Dict String String} {field : String}

/-- One value is saved. -/
lemma Update.Holds.updateField {update : Update} (h : update.Holds sha profile saved)
    (hdiffer : NamesDiffer sha names) (hmem : ∀ name, saved name ≠ "" → name ∈ names)
    {owners : Dict String Profile} (value : String) (hassigned : nameOf profile field ∈ names)
    (hname : envNames.get field = some ((nameOf profile field).envName sha))
    (howner : ((owners.get ((nameOf profile field).envName sha)).getD profile) = profile) :
    ∃ update', Local.updateField profile owners envNames update (field, value) = .ok update' ∧
      update'.Holds sha profile (Function.update saved (nameOf profile field) value) := by
  have hfield : ∀ other : String,
      nameOf profile other = nameOf profile field ↔ other = field := by
    intro other
    exact ⟨fun heq => congrArg CredentialName.field heq, fun heq => heq ▸ rfl⟩
  have hfields : ∀ other key : String,
      (Function.update saved (nameOf profile field) value (nameOf profile other) ≠ "" ∧
        (nameOf profile other).envName sha = key) ↔
      if other = field then value ≠ "" ∧ (nameOf profile field).envName sha = key
      else update.fields.get other = some key := by
    intro other key
    by_cases heq : other = field
    · rw [if_pos heq, heq, Function.update_self]
    · rw [if_neg heq, Function.update_of_ne fun hname => heq ((hfield other).1 hname),
        h.get_fields]
  unfold Local.updateField
  simp only [hname, Option.getD_some, bind_eq_ok, require_eq_ok, beq_iff_eq]
  by_cases hempty : value = ""
  · refine ⟨_, ⟨(), howner, by rw [if_pos hempty]; rfl⟩, ?_⟩
    refine ⟨Dict.nodup_keys_remove h.values_nodup _, Dict.nodup_keys_remove h.fields_nodup _, ?_,
      ?_⟩
    · intro key v
      rw [exists_update_iff hdiffer hmem hassigned, Dict.get_remove, ← h.get_values]
      split
      · simp [hempty]
      · rfl
    · intro other key
      rw [hfields, Dict.get_remove]
      split
      · simp [hempty]
      · rfl
  · refine ⟨_, ⟨(), howner, by rw [if_neg hempty]; rfl⟩, ?_⟩
    refine ⟨Dict.nodup_keys_set h.values_nodup _ _, Dict.nodup_keys_set h.fields_nodup _ _, ?_, ?_⟩
    · intro key v
      rw [exists_update_iff hdiffer hmem hassigned, Dict.get_set, ← h.get_values]
      split
      · simp [hempty]
      · rfl
    · intro other key
      rw [hfields, Dict.get_set]
      split
      · simp [hempty]
      · rfl

/-- The assignment once values of a profile are saved. -/
def assignAll (saved : CredentialName → String) (profile : Profile) (values : Dict String String) :
    CredentialName → String := fun name =>
  if name.profile = profile then (values.get name.field).getD (saved name) else saved name

lemma assignAll_cons (saved : CredentialName → String) (profile : Profile) {entry : String × String}
    (hnodup : (Dict.keys (entry :: values)).Nodup) :
    assignAll saved profile (entry :: values) =
      assignAll (Function.update saved (nameOf profile entry.1) entry.2) profile values := by
  have hnew : entry.1 ∉ Dict.keys values := (List.nodup_cons.1 hnodup).1
  funext name
  unfold assignAll
  by_cases hprofile : name.profile = profile
  · rw [if_pos hprofile, if_pos hprofile, Dict.get_cons]
    by_cases hfield : entry.1 = name.field
    · have hname : name = nameOf profile entry.1 := by rw [hfield, ← hprofile]; rfl
      rw [if_pos hfield, ← hfield, Dict.get_eq_none.2 hnew, hname, Function.update_self]
      rfl
    · have hne : name ≠ nameOf profile entry.1 := fun heq =>
        hfield (congrArg CredentialName.field heq).symm
      rw [if_neg hfield, Function.update_of_ne hne]
  · have hne : name ≠ nameOf profile entry.1 := fun heq =>
      hprofile (congrArg CredentialName.profile heq)
    rw [if_neg hprofile, if_neg hprofile, Function.update_of_ne hne]

/-- All values are saved. -/
lemma Update.Holds.foldlM (owners : Dict String Profile) (hdiffer : NamesDiffer sha names)
    (hvalues : ∀ entry ∈ values, nameOf profile entry.1 ∈ names ∧
      envNames.get entry.1 = some ((nameOf profile entry.1).envName sha) ∧
        (owners.get ((nameOf profile entry.1).envName sha)).getD profile = profile)
    (hnodup : values.keys.Nodup) {update : Update} (h : update.Holds sha profile saved)
    (hmem : ∀ name, saved name ≠ "" → name ∈ names) :
    ∃ update', values.foldlM (Local.updateField profile owners envNames) update = .ok update' ∧
      update'.Holds sha profile (assignAll saved profile values) := by
  induction values generalizing update saved with
  | nil =>
      have hnil : assignAll saved profile [] = saved := by
        funext name
        simp [assignAll]
      exact ⟨update, rfl, hnil.symm ▸ h⟩
  | cons entry values ih =>
      obtain ⟨⟨hassigned, hname, howner⟩, hvalues⟩ := List.forall_mem_cons.1 hvalues
      obtain ⟨middle, hstep, hmiddle⟩ :=
        h.updateField hdiffer hmem entry.2 hassigned hname howner
      have hmem' : ∀ name, Function.update saved (nameOf profile entry.1) entry.2 name ≠ "" →
          name ∈ names := by
        intro name hne
        by_cases heq : name = nameOf profile entry.1
        · exact heq ▸ hassigned
        · rw [Function.update_of_ne heq] at hne
          exact hmem name hne
      obtain ⟨update', hfold, hupdate⟩ := ih hvalues (List.nodup_cons.1 hnodup).2 hmiddle hmem'
      refine ⟨update', ?_, assignAll_cons saved profile hnodup ▸ hupdate⟩
      rw [List.foldlM_cons, bind_eq_ok]
      exact ⟨middle, hstep, hfold⟩

/-- A name that a document owns is owned by its profile. -/
lemma Represents.owners_eq (h : Represents sha saved document) (hsaved : Assignable sha names saved)
    (hassigned : nameOf profile field ∈ names) :
    (document.owners.get ((nameOf profile field).envName sha)).getD profile = profile := by
  cases howner : document.owners.get ((nameOf profile field).envName sha) with
  | none => rfl
  | some owner =>
      have hset : ∀ {d entries : Dict String Profile} {key : String} {owner : Profile},
          (d.setAll entries).get key = some owner →
            (key, owner) ∈ entries ∨ d.get key = some owner := by
        intro d entries
        induction entries generalizing d with
        | nil => exact fun h => .inr h
        | cons entry entries ih =>
            intro key owner h
            rcases ih (d := d.set entry.1 entry.2) h with hmem | hget
            · exact .inl (List.mem_cons_of_mem _ hmem)
            · rw [Dict.get_set] at hget
              split at hget
              next heq =>
                left
                rw [heq, ← Option.some.inj hget]
                exact List.mem_cons_self
              · exact .inr hget
      rcases hset howner with hmem | hget
      · obtain ⟨entry, hentry, hkey⟩ := List.mem_flatMap.1 hmem
        obtain ⟨key, hkey, heq⟩ := List.mem_map.1 hkey
        obtain ⟨indexed, hindexed, rfl⟩ := List.mem_map.1 hkey
        obtain ⟨hindex, rfl⟩ := Prod.mk.inj heq
        obtain ⟨hne, hkey⟩ := (h.mem_fields hentry).1 hindexed
        have hname := CredentialName.envName_inj hsaved.differ (hsaved.mem _ hne) hassigned
          (hkey.trans hindex)
        exact congrArg CredentialName.profile hname
      · cases hget

/-- A document with values saved. -/
theorem Represents.update (h : Represents sha saved document) (hsaved : Assignable sha names saved)
    (hnodup : values.keys.Nodup) (hvalues : ∀ entry ∈ values, nameOf profile entry.1 ∈ names ∧
      envNames.get entry.1 = some ((nameOf profile entry.1).envName sha)) :
    ∃ updated, document.update profile envNames values = .ok updated ∧
      Represents sha (assignAll saved profile values) updated := by
  have hfields : (document.fieldsOf profile).keys.Nodup := by
    unfold Document.fieldsOf
    cases hget : document.profiles.get profile with
    | none => exact List.nodup_nil
    | some fields => exact h.fields_nodup _ ((Dict.get_eq_some_iff h.profiles_nodup).1 hget)
  have hholds : Update.Holds sha profile saved ⟨document.values, document.fieldsOf profile⟩ :=
    ⟨h.values_nodup, hfields, h.get_values, h.get_fields profile⟩
  obtain ⟨updated, hfold, hupdated⟩ := Update.Holds.foldlM document.owners
    hsaved.differ (fun entry hentry => ⟨(hvalues entry hentry).1, (hvalues entry hentry).2,
      h.owners_eq hsaved (hvalues entry hentry).1⟩) hnodup hholds hsaved.mem
  refine ⟨_, by rw [Document.update, bind_eq_ok]; exact ⟨updated, hfold, rfl⟩, ?_⟩
  have hget : ∀ other, Dict.get (if updated.fields.isEmpty then document.profiles.remove profile
      else document.profiles.set profile updated.fields) other =
      if other = profile then (if updated.fields.isEmpty then none else some updated.fields)
      else document.profiles.get other := by
    intro other
    split
    · exact Dict.get_remove ..
    · exact Dict.get_set ..
  have hprofiles : Dict.keys (if updated.fields.isEmpty then document.profiles.remove profile
      else document.profiles.set profile updated.fields) |>.Nodup := by
    split
    · exact Dict.nodup_keys_remove h.profiles_nodup _
    · exact Dict.nodup_keys_set h.profiles_nodup _ _
  have hentries : ∀ entry ∈ (if updated.fields.isEmpty then document.profiles.remove profile
      else document.profiles.set profile updated.fields),
      entry.2 = updated.fields ∧ updated.fields.isEmpty = false ∨ entry ∈ document.profiles := by
    intro entry hentry
    have hsome := (Dict.get_eq_some_iff hprofiles).2 hentry
    rw [hget] at hsome
    split at hsome
    · left
      split at hsome
      · cases hsome
      next hne => exact ⟨(Option.some.inj hsome).symm, Bool.eq_false_iff.2 hne⟩
    · exact .inr ((Dict.get_eq_some_iff h.profiles_nodup).1 hsome)
  refine ⟨hupdated.values_nodup, hprofiles, ?_, ?_, hupdated.get_values, ?_⟩
  · intro entry hentry
    rcases hentries entry hentry with ⟨heq, -⟩ | hmem
    · exact heq ▸ hupdated.fields_nodup
    · exact h.fields_nodup entry hmem
  · intro entry hentry
    rcases hentries entry hentry with ⟨heq, hne⟩ | hmem
    · rw [heq]
      exact List.isEmpty_eq_false_iff.1 hne
    · exact h.fields_ne_nil entry hmem
  · intro other field key
    unfold Document.fieldsOf
    dsimp only
    rw [hget]
    by_cases heq : other = profile
    · rw [if_pos heq, heq, ← hupdated.get_fields]
      split
      next hempty => rw [List.isEmpty_iff.1 hempty, Option.getD_none]
      · rw [Option.getD_some]
    · rw [if_neg heq, assignAll, if_neg (show (nameOf other field).profile ≠ profile from heq)]
      exact h.get_fields other field key

/-! ## Clearing -/

/-- The assignment once the matching profiles are cleared. -/
def clearMatching (saved : CredentialName → String) (connectorId? environment? : Option String) :
    CredentialName → String := fun name =>
  if profileMatches connectorId? environment? name.profile then "" else saved name

/-- The names to clear are those of the values of the profiles that match. -/
lemma Represents.foldlM_clearProfile (h : Represents sha saved document)
    (hsaved : Assignable sha names saved) (connectorId? environment? : Option String) :
    ∃ cleared, document.profiles.foldlM (clearProfile sha connectorId? environment?) [] =
        .ok cleared ∧
      ∀ key, key ∈ cleared ↔ ∃ name, saved name ≠ "" ∧ name.envName sha = key ∧
        profileMatches connectorId? environment? name.profile = true := by
  have hfields : ∀ entry ∈ document.profiles, ∀ fields : Dict String String, fields ⊆ entry.2 →
      ∀ cleared : List String, ∃ cleared', fields.foldlM (clearField sha entry.1) cleared =
        .ok cleared' ∧ ∀ key, key ∈ cleared' ↔ key ∈ cleared ∨ key ∈ Dict.values fields := by
    intro entry hentry fields
    induction fields with
    | nil => exact fun _ cleared => ⟨cleared, rfl, fun key => by simp [Dict.values]⟩
    | cons field fields ih =>
        intro hsub cleared
        obtain ⟨hne, hkey⟩ := (h.mem_fields hentry).1 (hsub List.mem_cons_self)
        obtain ⟨cleared', hfold, hmem⟩ := ih (List.subset_of_cons_subset hsub)
          (if cleared.contains field.2 then cleared else field.2 :: cleared)
        refine ⟨cleared', ?_, fun key => ?_⟩
        · rw [List.foldlM_cons, bind_eq_ok]
          refine ⟨_, ?_, hfold⟩
          unfold clearField
          simp only [bind_eq_ok, require_eq_ok, beq_iff_eq]
          exact ⟨field.2, CredentialName.credentialEnvName_eq_ok.2 ⟨hsaved.valid _ hne, hkey⟩, (),
            rfl, rfl⟩
        · rw [hmem, Dict.values, Dict.values, List.map_cons, List.mem_cons]
          by_cases hcontains : cleared.contains field.2 = true
          · rw [if_pos hcontains]
            rw [List.contains_eq_mem, decide_eq_true_eq] at hcontains
            constructor
            · exact fun h => h.imp_right .inr
            · rintro (hkey | rfl | hkey)
              · exact .inl hkey
              · exact .inl hcontains
              · exact .inr hkey
          · rw [if_neg hcontains, List.mem_cons, or_assoc, or_left_comm]
  obtain ⟨cleared, hfold, hcleared⟩ := exists_foldlM_eq_ok
    (clearProfile sha connectorId? environment?) document.profiles
    (fun before cleared => ∀ key, key ∈ cleared ↔ ∃ entry ∈ before,
      profileMatches connectorId? environment? entry.1 = true ∧ key ∈ Dict.values entry.2)
    (fun before entry after heq cleared hcleared => by
      have hentry : entry ∈ document.profiles := by
        rw [heq]
        exact List.mem_append_right _ List.mem_cons_self
      unfold clearProfile
      by_cases hmatch : profileMatches connectorId? environment? entry.1 = true
      · obtain ⟨cleared', hfold, hmem⟩ := hfields entry hentry entry.2 (List.Subset.refl _) cleared
        refine ⟨cleared', by rw [if_pos hmatch, hfold], fun key => ?_⟩
        simp only [List.mem_append, List.mem_singleton, or_and_right, exists_or, exists_eq_left,
          hmatch, true_and, hmem, hcleared]
      · refine ⟨cleared, if_neg hmatch, fun key => ?_⟩
        simp only [List.mem_append, List.mem_singleton, or_and_right, exists_or, exists_eq_left,
          hmatch, hcleared]
        simp)
    (show ∀ key, key ∈ [] ↔ ∃ entry ∈ [], _ from by simp)
  refine ⟨cleared, hfold, fun key => ?_⟩
  rw [hcleared]
  constructor
  · rintro ⟨entry, hentry, hmatch, hkey⟩
    obtain ⟨indexed, hindexed, rfl⟩ := List.mem_map.1 hkey
    obtain ⟨hne, hkey⟩ := (h.mem_fields hentry).1 hindexed
    exact ⟨_, hne, hkey, hmatch⟩
  · rintro ⟨name, hne, rfl, hmatch⟩
    obtain ⟨fields, hentry⟩ := h.exists_mem_profiles hne
    have hfield := (h.mem_fields hentry).2 ⟨hne, rfl⟩
    exact ⟨_, hentry, hmatch, List.mem_map.2 ⟨_, hfield, rfl⟩⟩

/-- What is left of the fields of a profile. -/
lemma get_clear (hnodup : document.profiles.keys.Nodup) (cleared : List String)
    (profile : Profile) :
    (document.clear cleared).profiles.get profile =
      ((document.profiles.get profile).map fun fields =>
        fields.filter fun field => !cleared.contains field.2).filter fun fields =>
          !fields.isEmpty := by
  unfold Document.clear
  dsimp only
  generalize document.profiles = profiles at hnodup
  induction profiles with
  | nil => rfl
  | cons entry profiles ih =>
      obtain ⟨hnew, hnodup⟩ := List.nodup_cons.1 hnodup
      have ih := ih hnodup
      rw [Dict.get_cons, List.filterMap_cons]
      by_cases hprofile : entry.1 = profile
      · have hnone : Dict.get profiles profile = none :=
          Dict.get_eq_none.2 (hprofile ▸ hnew)
        rw [hnone] at ih
        rw [if_pos hprofile, Option.map_some]
        cases hempty : (entry.2.filter fun field => !cleared.contains field.2).isEmpty with
        | true =>
            rw [if_pos rfl, Option.filter_some, hempty, ih]
            rfl
        | false =>
            rw [if_neg Bool.false_ne_true, Option.filter_some, hempty]
            exact (Dict.get_cons ..).trans (if_pos hprofile)
      · rw [if_neg hprofile, ← ih]
        cases hempty : (entry.2.filter fun field => !cleared.contains field.2).isEmpty with
        | true =>
            rw [if_pos rfl]
        | false =>
            rw [if_neg Bool.false_ne_true]
            exact (Dict.get_cons ..).trans (if_neg hprofile)

/-- What is not cleared is as it was. -/
lemma clearMatching_of_ne {connectorId? environment? : Option String} {name : CredentialName}
    (hne : clearMatching saved connectorId? environment? name ≠ "") :
    clearMatching saved connectorId? environment? name = saved name := by
  unfold clearMatching at hne ⊢
  split at hne
  · exact absurd rfl hne
  next hmatch => rw [if_neg hmatch]

lemma keys_profiles_clear (document : Document) (cleared : List String) :
    (document.clear cleared).profiles.keys.Sublist document.profiles.keys := by
  unfold Document.clear Dict.keys
  dsimp only
  induction document.profiles with
  | nil => exact List.Sublist.refl _
  | cons entry profiles ih =>
      rw [List.filterMap_cons, List.map_cons]
      cases hempty : (entry.2.filter fun field => !cleared.contains field.2).isEmpty with
      | true => exact ih.cons _
      | false => exact ih.cons_cons _

lemma mem_profiles_clear {cleared : List String} {entry : Profile × Dict String String}
    (hentry : entry ∈ (document.clear cleared).profiles) : entry.2 ≠ [] ∧
      ∃ fields, (entry.1, fields) ∈ document.profiles ∧
        entry.2 = fields.filter fun field => !cleared.contains field.2 := by
  obtain ⟨original, horiginal, heq⟩ := List.mem_filterMap.1 hentry
  dsimp only at heq
  split at heq
  · cases heq
  next hempty =>
    cases heq
    exact ⟨fun hnil => hempty (List.isEmpty_iff.2 hnil), original.2, horiginal, rfl⟩

lemma fieldsOf_clear (h : document.profiles.keys.Nodup) (cleared : List String)
    (profile : Profile) : (document.clear cleared).fieldsOf profile =
      (document.fieldsOf profile).filter fun field => !cleared.contains field.2 := by
  unfold Document.fieldsOf
  rw [get_clear h]
  cases document.profiles.get profile with
  | none => rfl
  | some fields =>
      rw [Option.map_some, Option.filter_some]
      split
      · rfl
      next hempty =>
        simp only [Bool.not_eq_true', Bool.not_eq_false, List.isEmpty_iff] at hempty
        rw [Option.getD_some, hempty, Option.getD_none]

lemma Represents.nodup_fieldsOf (h : Represents sha saved document) (profile : Profile) :
    (document.fieldsOf profile).keys.Nodup := by
  unfold Document.fieldsOf
  cases hget : document.profiles.get profile with
  | none => exact List.nodup_nil
  | some fields => exact h.fields_nodup _ ((Dict.get_eq_some_iff h.profiles_nodup).1 hget)

/-- A document with the matching profiles cleared. -/
theorem Represents.clear (h : Represents sha saved document) (hsaved : Assignable sha names saved)
    {connectorId? environment? : Option String} {cleared : List String}
    (hcleared : ∀ key, key ∈ cleared ↔ ∃ name, saved name ≠ "" ∧ name.envName sha = key ∧
      profileMatches connectorId? environment? name.profile = true) :
    Represents sha (clearMatching saved connectorId? environment?) (document.clear cleared) := by
  have hname : ∀ name, saved name ≠ "" →
      (name.envName sha ∈ cleared ↔
        profileMatches connectorId? environment? name.profile = true) := by
    intro name hne
    rw [hcleared]
    constructor
    · rintro ⟨other, hother, hkey, hmatch⟩
      rwa [← CredentialName.envName_inj hsaved.differ (hsaved.mem _ hother) (hsaved.mem _ hne) hkey]
    · exact fun hmatch => ⟨name, hne, rfl, hmatch⟩
  have hassigned : ∀ name, clearMatching saved connectorId? environment? name ≠ "" ↔
      saved name ≠ "" ∧ ¬ name.envName sha ∈ cleared := by
    intro name
    unfold clearMatching
    split
    next hmatch =>
      constructor
      · exact fun hne => absurd rfl hne
      · rintro ⟨hne, hnot⟩
        exact absurd ((hname name hne).2 hmatch) hnot
    next hmatch =>
      constructor
      · exact fun hne => ⟨hne, fun hmem => hmatch ((hname name hne).1 hmem)⟩
      · exact And.left
  refine ⟨Dict.nodup_keys_removeAll h.values_nodup _,
    h.profiles_nodup.sublist (keys_profiles_clear document cleared), fun entry hentry => ?_,
    fun entry hentry => (mem_profiles_clear hentry).1, fun key value => ?_,
    fun profile field key => ?_⟩
  · obtain ⟨-, fields, hfields, heq⟩ := mem_profiles_clear hentry
    rw [heq]
    exact Dict.nodup_keys_of_sublist List.filter_sublist (h.fields_nodup _ hfields)
  · rw [Document.clear, Dict.get_removeAll]
    constructor
    · intro hget
      split at hget
      · cases hget
      next hnot =>
        obtain ⟨name, hne, rfl, rfl⟩ := (h.get_values key value).1 hget
        have hne' := (hassigned name).2 ⟨hne, hnot⟩
        exact ⟨name, hne', rfl, clearMatching_of_ne hne'⟩
    · rintro ⟨name, hne, rfl, rfl⟩
      obtain ⟨hsome, hnot⟩ := (hassigned name).1 hne
      rw [if_neg hnot, clearMatching_of_ne hne]
      exact (h.get_values _ _).2 ⟨name, hsome, rfl, rfl⟩
  · rw [fieldsOf_clear h.profiles_nodup, Dict.get_filter (h.nodup_fieldsOf profile),
      Option.filter_eq_some_iff, h.get_fields, hassigned, Bool.not_eq_true',
      List.contains_eq_mem, decide_eq_false_iff_not]
    constructor
    · rintro ⟨⟨hne, rfl⟩, hnot⟩
      exact ⟨⟨hne, hnot⟩, rfl⟩
    · rintro ⟨⟨hne, hnot⟩, rfl⟩
      exact ⟨⟨hne, rfl⟩, hnot⟩

end MercuryTools.Local
