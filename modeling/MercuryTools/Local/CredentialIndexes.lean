import MercuryTools.Local.CredentialLines

/-!
# The index of a profile is read back

The index of a profile is a JSON object that lists its fields with their environment names.  It is
printable, so that a line can hold it, and it reads back as the fields in the order of their names.
-/

namespace MercuryTools.Local

open Checks JsonText

variable {sha : Sha256} {profile : Profile}

/-- The fields in the order in which the index lists them. -/
def sortedFields (fields : Dict String String) : Dict String String :=
  (fields.keys.insertionSort fun name other => Collation.codePointsLe name other).map fun name =>
    (name, (fields.get name).getD "")

variable {fields : Dict String String}

lemma sortedFields_perm (h : fields.keys.Nodup) : (sortedFields fields).Perm fields :=
  Dict.perm_map_get h (List.perm_insertionSort _ _) ""

/-! ## The text of an index -/

/-- An entry as it is written, and as it is read. -/
def indexEntry (field : String × String) : Json :=
  .obj [("field_name", .str field.1), ("env_name", .str field.2)]

def readEntry (field : String × String) : Json :=
  .obj [("env_name", .str field.2), ("field_name", .str field.1)]

def indexOf (profile : Profile) (entries : List Json) : Json :=
  .obj [("connector_id", .str profile.1), ("environment", .str profile.2), ("fields", .arr entries)]

lemma profileMetadataValue_eq (profile : Profile) (fields : Dict String String) :
    profileMetadataValue profile fields = String.ofList
      (asciiStyle.write (indexOf profile ((sortedFields fields).map indexEntry))) := by
  unfold profileMetadataValue sortedFields
  rw [List.map_map]
  rfl

lemma integerNumbers_indexEntry (field : String × String) : (indexEntry field).IntegerNumbers :=
  Json.all_obj.2 ⟨rfl, by simp [Json.all]⟩

lemma integerNumbers_indexOf (profile : Profile) (fields : Dict String String) :
    (indexOf profile (fields.map indexEntry)).IntegerNumbers := by
  have harr : (Json.arr (fields.map indexEntry)).IntegerNumbers := by
    refine Json.all_arr.2 ⟨rfl, fun x hx => ?_⟩
    obtain ⟨field, -, rfl⟩ := List.mem_map.1 hx
    exact integerNumbers_indexEntry field
  refine Json.all_obj.2 ⟨rfl, ?_⟩
  simp only [List.forall_mem_cons]
  exact ⟨rfl, rfl, harr, nofun⟩

lemma normal_indexEntry (field : String × String) :
    asciiStyle.normal (indexEntry field) = readEntry field := by
  have hle : asciiStyle.keyLe "field_name" "env_name" = false := by decide
  rw [indexEntry, Style.normal_obj]
  simp [Style.sortFields, List.insertionSort, List.orderedInsert, hle, Style.normal, readEntry]

lemma normal_indexOf (profile : Profile) (fields : Dict String String) :
    asciiStyle.normal (indexOf profile (fields.map indexEntry)) =
      indexOf profile (fields.map readEntry) := by
  have hle : asciiStyle.keyLe "connector_id" "environment" = true := by decide
  have hle' : asciiStyle.keyLe "environment" "fields" = true := by decide
  have hentries : asciiStyle.normal (.arr (fields.map indexEntry)) =
      .arr (fields.map readEntry) := by
    rw [Style.normal_arr, List.map_map]
    exact congrArg Json.arr (List.map_congr_left fun field _ => normal_indexEntry field)
  rw [indexOf, Style.normal_obj]
  simp [Style.sortFields, List.insertionSort, hle, hle', hentries, indexOf]
  simp [Style.normal]

/-- A line can hold an index. -/
lemma storable_profileMetadataValue (profile : Profile) (fields : Dict String String) :
    Storable (profileMetadataValue profile fields) := by
  rw [profileMetadataValue_eq]
  have hprintable := isPrintable_write (integerNumbers_indexOf profile (sortedFields fields))
  constructor
  · rw [rejectControlOrFormatCharacters, require_eq_ok, Bool.not_eq_true', List.any_eq_false,
      String.toList_ofList]
    intro c hc
    obtain ⟨hge, hlt⟩ := hprintable c hc
    have hplain : ∀ n < 128, 0x20 ≤ n → n < 0x7f → isControlOrFormat (Char.ofNat n) = false := by
      decide
    have hfalse := hplain c.toNat (by omega) hge hlt
    rw [Char.ofNat_toNat] at hfalse
    rw [hfalse]
    exact Bool.false_ne_true
  · rw [String.toList_ofList, indexOf, Style.write_obj, ← List.cons_append, List.getLast?_concat]
    decide

/-! ## Reading an index -/

lemma loadsIndex_profileMetadataValue (profile : Profile) (fields : Dict String String) :
    loadsIndex (profileMetadataValue profile fields) =
      .ok (indexOf profile ((sortedFields fields).map readEntry)) := by
  have hread := read_write String.ofList reads_asciiStyle
    (integerNumbers_indexOf profile (sortedFields fields))
  rw [normal_indexOf] at hread
  have hdistinct : (indexOf profile ((sortedFields fields).map readEntry)).all
      (fun v => decide v.keys.Nodup) = true := by
    have hentries : (Json.arr ((sortedFields fields).map readEntry)).all
        (fun v => decide v.keys.Nodup) = true := by
      refine Json.all_arr.2 ⟨rfl, fun x hx => ?_⟩
      obtain ⟨field, -, rfl⟩ := List.mem_map.1 hx
      refine Json.all_obj.2 ⟨by simp [Json.keys], ?_⟩
      simp only [List.forall_mem_cons]
      exact ⟨rfl, rfl, nofun⟩
    refine Json.all_obj.2 ⟨by simp [Json.keys], ?_⟩
    simp only [List.forall_mem_cons]
    exact ⟨rfl, rfl, hentries, nofun⟩
  rw [loadsIndex, profileMetadataValue_eq, String.toList_ofList, hread]
  dsimp only
  rw [if_pos hdistinct]

/-- An entry whose field and name are new. -/
lemma parseEntry_readEntry {field : String × String} (hvalid : (nameOf profile field.1).Valid)
    (hkey : (nameOf profile field.1).envName sha = field.2) (hfield : field.1 ∉ fields.keys)
    (hname : field.2 ∉ Dict.values fields) :
    parseEntry sha profile fields (readEntry field) = .ok (fields ++ [field]) := by
  have hkeys : hasKeys (readEntry field) ["field_name", "env_name"] = true := rfl
  have hget : (readEntry field).get? "field_name" = some (.str field.1) := rfl
  have hget' : (readEntry field).get? "env_name" = some (.str field.2) := rfl
  unfold parseEntry
  rw [bind_eq_ok]
  refine ⟨(), require_eq_ok.2 hkeys, ?_⟩
  rw [hget, hget']
  simp only [bind_eq_ok, pure_eq_ok, require_eq_ok]
  refine ⟨_, CredentialName.credentialEnvName_eq_ok.2 ⟨hvalid, hkey⟩, (), beq_self_eq_true _, (),
    ?_, Dict.set_of_not_mem hfield _⟩
  rw [List.contains_eq_mem, List.contains_eq_mem, decide_eq_false hfield, decide_eq_false hname]
  rfl

lemma foldlM_parseEntry {entries : Dict String String} (hindexed : ∀ entry ∈ entries,
      (nameOf profile entry.1).Valid ∧ (nameOf profile entry.1).envName sha = entry.2)
    (hkeys : (Dict.keys (fields ++ entries)).Nodup)
    (hvalues : (Dict.values (fields ++ entries)).Nodup) :
    (entries.map readEntry).foldlM (parseEntry sha profile) fields = .ok (fields ++ entries) := by
  induction entries generalizing fields with
  | nil => rw [List.append_nil]; rfl
  | cons entry entries ih =>
      obtain ⟨⟨hvalid, hkey⟩, hindexed⟩ := List.forall_mem_cons.1 hindexed
      have hsplit : fields ++ entry :: entries = (fields ++ [entry]) ++ entries := by
        rw [List.append_assoc, List.singleton_append]
      rw [hsplit] at hkeys hvalues ⊢
      have hfield : entry.1 ∉ Dict.keys fields := by
        intro hmem
        rw [Dict.keys_append, Dict.keys_append] at hkeys
        exact List.disjoint_of_nodup_append hkeys.of_append_left hmem List.mem_cons_self
      have hname : entry.2 ∉ Dict.values fields := by
        intro hmem
        rw [Dict.values, List.map_append, List.map_append] at hvalues
        exact List.disjoint_of_nodup_append hvalues.of_append_left hmem List.mem_cons_self
      rw [List.map_cons, List.foldlM_cons, bind_eq_ok]
      exact ⟨_, parseEntry_readEntry hvalid hkey hfield hname, ih hindexed hkeys hvalues⟩

/-- The index of a profile whose fields have distinct names. -/
theorem parseProfileMetadata_profileMetadataValue (hne : fields ≠ []) (hkeys : fields.keys.Nodup)
    (hvalues : (Dict.values fields).Nodup) (hindexed : ∀ entry ∈ fields,
      (nameOf profile entry.1).Valid ∧ (nameOf profile entry.1).envName sha = entry.2) :
    parseProfileMetadata sha (profileMetadataName sha profile)
      (profileMetadataValue profile fields) = .ok (profile, sortedFields fields) := by
  have hperm := sortedFields_perm hkeys
  obtain ⟨entry, hentry⟩ := List.exists_mem_of_ne_nil _ hne
  have hvalid := (hindexed entry hentry).1
  have hfold : ((sortedFields fields).map readEntry).foldlM (parseEntry sha profile) [] =
      .ok ([] ++ sortedFields fields) :=
    foldlM_parseEntry (fun entry hentry => hindexed entry (hperm.mem_iff.1 hentry))
      ((hperm.map Prod.fst).nodup_iff.2 hkeys) ((hperm.map Prod.snd).nodup_iff.2 hvalues)
  have hnil : ((sortedFields fields).map readEntry).isEmpty = false := by
    rw [List.isEmpty_eq_false_iff, Ne, List.map_eq_nil_iff]
    intro hnil
    rw [hnil] at hperm
    exact hne hperm.nil_eq.symm
  have hidentifier : ∀ {value : String}, validateIdentifier value = .ok () →
      identifierOf (some (.str value)) = .ok value := by
    intro value hvalue
    rw [identifierOf, bind_eq_ok]
    exact ⟨(), hvalue, rfl⟩
  unfold parseProfileMetadata
  rw [loadsIndex_profileMetadataValue]
  simp only [bind_eq_ok, require_eq_ok]
  refine ⟨_, rfl, (), rfl, _, hidentifier hvalid.connectorId, _, hidentifier hvalid.environment, ?_⟩
  change (do
    require (!((sortedFields fields).map readEntry).isEmpty) invalidFile
    let fields ← ((sortedFields fields).map readEntry).foldlM (parseEntry sha profile) []
    require (profileMetadataName sha profile == profileMetadataName sha profile) invalidFile
    return (profile, fields)) = Except.ok (profile, sortedFields fields)
  simp only [bind_eq_ok, require_eq_ok]
  exact ⟨(), by rw [hnil]; rfl, _, hfold, (), beq_self_eq_true _, rfl⟩

end MercuryTools.Local
