import MercuryTools.Local.CredentialIndexes

/-!
# A document is read back

The serialization of a document is a text with one line for each value and for each index, in the
order of the names.  It reads back as a document that represents the same assignment.
-/

namespace MercuryTools.Local

open Checks JsonText

variable {sha : Sha256} {names : Set CredentialName} {saved : CredentialName → String}
  {document : Document}

/-! ## Entries -/

/-- The line of a profile. -/
def indexLine (sha : Sha256) (entry : Profile × Dict String String) : String × String :=
  (profileMetadataName sha entry.1, profileMetadataValue entry.1 entry.2)

/-- All lines of a document, before they are sorted. -/
def Document.lines (sha : Sha256) (document : Document) : Dict String String :=
  document.values ++ document.profiles.map (indexLine sha)

/-- The lines in the order of their names. -/
def Document.sortedLines (sha : Sha256) (document : Document) : Dict String String :=
  ((document.lines sha).keys.insertionSort fun name other =>
    Collation.codePointsLe name other).map fun name =>
      (name, ((document.lines sha).get name).getD "")

/-- Whether a line is the index of a profile. -/
def isIndexLine (entry : String × String) : Bool :=
  metadataStart.isPrefixOf entry.1.toList

/-- Whether a line is a value. -/
def isValueLine (entry : String × String) : Bool :=
  valueStart.isPrefixOf entry.1.toList

variable {value : String} {name : CredentialName} {profiles : Dict Profile (Dict String String)}

lemma isSafeCharacter_of_validateIdentifier (h : validateIdentifier value = .ok ()) :
    ∀ c ∈ value.toList, isSafeCharacter c = true := by
  unfold validateIdentifier at h
  simp only [bind_eq_ok, require_eq_ok] at h
  obtain ⟨-, -, -, -, -, hsafe, -⟩ := h
  rw [isSafeIdentifier, Bool.and_eq_true] at hsafe
  exact List.all_eq_true.1 hsafe.2

lemma isNameCharacter_normalizeIdentifier (h : validateIdentifier value = .ok ()) :
    ∀ c ∈ normalizeIdentifier value, isNameCharacter c = true := by
  unfold normalizeIdentifier
  rw [List.map_map, List.forall_mem_map]
  exact fun c hc => isNameCharacter_normalized (isSafeCharacter_of_validateIdentifier h c hc)

/-- The digits of a digest, in capitals. -/
lemma isNameCharacter_digestOf (sha : Sha256) (parts : List String) :
    ∀ c ∈ digestOf sha parts, isNameCharacter c = true := by
  have hvalid := sha.valid (tupleBytes parts)
  rw [Hosted.isSha256, Bool.and_eq_true] at hvalid
  rw [digestOf, List.forall_mem_map]
  intro c hc
  have hdigit := List.all_eq_true.1 hvalid.2 c hc
  have hlt : c.toNat < 128 := by
    simp only [Bool.or_eq_true, Bool.and_eq_true, decide_eq_true_eq] at hdigit
    rcases hdigit with ⟨-, hle⟩ | ⟨-, hle⟩
    · exact Nat.lt_of_le_of_lt (UInt32.le_iff_toNat_le.1 hle) (by decide)
    · exact Nat.lt_of_le_of_lt (UInt32.le_iff_toNat_le.1 hle) (by decide)
  exact ascii_induction (P := fun c => (('0' ≤ c && c ≤ '9') || ('a' ≤ c && c ≤ 'f')) = true →
    isNameCharacter (upper c) = true) (by decide) hlt hdigit

/-- An environment name is made of letters, digits and underscores, and begins with `MERCURY_`. -/
lemma CredentialName.Valid.isNameCharacter_text (h : name.Valid) (sha : Sha256) :
    (∀ c ∈ name.text sha, isNameCharacter c = true) ∧ ∃ r, name.text sha = valueStart ++ r := by
  have hstart : ∀ c ∈ valueStart, isNameCharacter c = true := List.all_eq_true.1 rfl
  have hreadable : ∀ c ∈ name.readableName, isNameCharacter c = true := by
    unfold readableName
    simp only [List.forall_mem_append, List.forall_mem_cons]
    exact ⟨⟨hstart, isNameCharacter_normalizeIdentifier h.connectorId⟩, by decide,
      isNameCharacter_normalizeIdentifier h.environment, by decide,
      isNameCharacter_normalizeIdentifier h.field⟩
  have hinitial : ∃ r, name.readableName = valueStart ++ r :=
    ⟨_, List.append_assoc _ _ _⟩
  have hmark : ∀ c ∈ "__H_".toList, isNameCharacter c = true := List.all_eq_true.1 rfl
  obtain ⟨r, hr⟩ := hinitial
  unfold text
  split
  · exact ⟨hreadable, r, hr⟩
  · refine ⟨?_, _, by rw [hr, List.append_assoc, List.append_assoc]⟩
    simp only [List.forall_mem_append]
    exact ⟨⟨hreadable, hmark⟩,
      fun c hc => isNameCharacter_digestOf sha name.parts c (List.mem_of_mem_take hc)⟩

/-- The line of a value. -/
lemma writable_value (hvalid : name.Valid) (hvalue : Storable value) :
    Writable (name.envName sha, value) := by
  obtain ⟨hcharacters, r, hr⟩ := hvalid.isNameCharacter_text sha
  have hstart : valueStart = 'M' :: "ERCURY_".toList := by decide
  refine ⟨?_, .inl ?_, hvalue⟩
  · rw [CredentialName.envName, String.toList_ofList, isAssignmentName, Bool.and_eq_true]
    refine ⟨?_, List.all_eq_true.2 hcharacters⟩
    rw [hr, hstart]
    rfl
  · rw [CredentialName.envName, String.toList_ofList, hr, hstart]
    rfl

/-- The line of an index. -/
lemma writable_indexLine (sha : Sha256) (entry : Profile × Dict String String) :
    Writable (indexLine sha entry) := by
  have hstart : metadataStart = '_' :: "MERCURY_PROFILE_INDEX_".toList := by decide
  have hcharacters : ∀ c ∈ metadataStart, isNameCharacter c = true := List.all_eq_true.1 rfl
  have hname : (profileMetadataName sha entry.1).toList =
      metadataStart ++ digestOf sha [entry.1.1, entry.1.2] := String.toList_ofList
  refine ⟨?_, .inr ?_, storable_profileMetadataValue entry.1 entry.2⟩
  · rw [indexLine, hname, isAssignmentName, Bool.and_eq_true, List.all_eq_true]
    refine ⟨by rw [hstart]; rfl, ?_⟩
    simp only [List.forall_mem_append]
    exact ⟨hcharacters, isNameCharacter_digestOf sha _⟩
  · rw [indexLine, hname, hstart]
    rfl

lemma isIndexLine_indexLine (sha : Sha256) (entry : Profile × Dict String String) :
    isIndexLine (indexLine sha entry) = true := by
  have hname : (profileMetadataName sha entry.1).toList =
      metadataStart ++ digestOf sha [entry.1.1, entry.1.2] := String.toList_ofList
  rw [isIndexLine, indexLine, hname]
  exact List.isPrefixOf_iff_prefix.2 (List.prefix_append _ _)

lemma isValueLine_value (hvalid : name.Valid) :
    isValueLine (name.envName sha, value) = true ∧
      isIndexLine (name.envName sha, value) = false := by
  obtain ⟨-, r, hr⟩ := hvalid.isNameCharacter_text sha
  have hstart : valueStart = 'M' :: "ERCURY_".toList := by decide
  have hindex : metadataStart = '_' :: "MERCURY_PROFILE_INDEX_".toList := by decide
  rw [isValueLine, isIndexLine, CredentialName.envName, String.toList_ofList, hr]
  refine ⟨List.isPrefixOf_iff_prefix.2 (List.prefix_append _ _), ?_⟩
  rw [hindex, hstart, List.cons_append]
  rfl

namespace Represents

/-- A value of the document. -/
lemma mem_values (h : Represents sha saved document) {entry : String × String}
    (hentry : entry ∈ document.values) :
    ∃ name, saved name ≠ "" ∧ entry = (name.envName sha, saved name) := by
  obtain ⟨name, hne, hkey, hvalue⟩ :=
    (h.get_values entry.1 entry.2).1 ((Dict.get_eq_some_iff h.values_nodup).2 hentry)
  exact ⟨name, hne, Prod.ext hkey.symm hvalue.symm⟩

lemma writable_lines (h : Represents sha saved document) (hsaved : Assignable sha names saved) :
    ∀ entry ∈ document.lines sha, Writable entry := by
  intro entry hentry
  rcases List.mem_append.1 hentry with hentry | hentry
  · obtain ⟨name, hne, rfl⟩ := h.mem_values hentry
    exact writable_value (hsaved.valid name hne) (hsaved.storable name hne)
  · obtain ⟨indexed, -, rfl⟩ := List.mem_map.1 hentry
    exact writable_indexLine sha indexed

/-- The names of the indexes are distinct, and none is the name of a value. -/
lemma nodup_lines (h : Represents sha saved document) (hsaved : Assignable sha names saved) :
    (document.lines sha).keys.Nodup := by
  rw [Document.lines, Dict.keys_append]
  refine List.nodup_append.2 ⟨h.values_nodup, ?_, ?_⟩
  · have hmap : Dict.keys (document.profiles.map (indexLine sha)) =
        document.profiles.keys.map (profileMetadataName sha) := by
      rw [Dict.keys, Dict.keys, List.map_map, List.map_map]
      rfl
    rw [hmap]
    refine List.Nodup.map_on (fun profile hprofile other hother heq => ?_) h.profiles_nodup
    obtain ⟨name, hname, rfl⟩ := h.mem_keys_profiles.1 hprofile
    obtain ⟨name', hname', rfl⟩ := h.mem_keys_profiles.1 hother
    exact hsaved.differ.profile_inj name (hsaved.mem _ hname) name' (hsaved.mem _ hname') heq
  · rintro key hkey other hother rfl
    obtain ⟨entry, hentry, rfl⟩ := List.mem_map.1 hkey
    obtain ⟨line, hline, heq⟩ := List.mem_map.1 hother
    obtain ⟨indexed, -, rfl⟩ := List.mem_map.1 hline
    obtain ⟨name, hne, rfl⟩ := h.mem_values hentry
    have hvalue : isIndexLine (name.envName sha, saved name) = false :=
      (isValueLine_value (hsaved.valid _ hne)).2
    have hindex := isIndexLine_indexLine sha indexed
    rw [isIndexLine, heq] at hindex
    rw [isIndexLine, hindex] at hvalue
    cases hvalue

lemma sortedLines_perm (h : Represents sha saved document) (hsaved : Assignable sha names saved) :
    (document.sortedLines sha).Perm (document.lines sha) :=
  Dict.perm_map_get (h.nodup_lines hsaved) (List.perm_insertionSort _ _) ""

end Represents

/-! ## Serializing -/

lemma foldlM_serializeIndex {serialized : Dict String String}
    (hnodup : (Dict.keys (serialized ++ profiles.map (indexLine sha))).Nodup) :
    profiles.foldlM (serializeIndex sha) serialized =
      .ok (serialized ++ profiles.map (indexLine sha)) := by
  induction profiles generalizing serialized with
  | nil => rw [List.map_nil, List.append_nil]; rfl
  | cons entry profiles ih =>
      have hsplit : serialized ++ (entry :: profiles).map (indexLine sha) =
          (serialized ++ [indexLine sha entry]) ++ profiles.map (indexLine sha) := by
        rw [List.map_cons, List.append_assoc, List.singleton_append]
      rw [hsplit] at hnodup ⊢
      have hnew : profileMetadataName sha entry.1 ∉ Dict.keys serialized := by
        intro hmem
        rw [Dict.keys_append, Dict.keys_append] at hnodup
        exact List.disjoint_of_nodup_append hnodup.of_append_left hmem List.mem_cons_self
      rw [List.foldlM_cons, bind_eq_ok]
      refine ⟨_, ?_, ih hnodup⟩
      unfold serializeIndex
      simp only [bind_eq_ok, require_eq_ok]
      refine ⟨(), ?_, congrArg Except.ok (Dict.set_of_not_mem hnew _)⟩
      rw [List.contains_eq_mem, decide_eq_false hnew]
      rfl

lemma quoteDotenv_eq_ok (h : Storable value) :
    quoteDotenv value = .ok ('"' :: (escapeDotenv value.toList ++ ['"'])) := by
  rw [quoteDotenv, bind_eq_ok]
  exact ⟨(), h.plain, rfl⟩

/-- The text of a document. -/
theorem serializeDocument_eq_ok (h : Represents sha saved document)
    (hsaved : Assignable sha names saved) :
    serializeDocument sha document = .ok (textOf (document.sortedLines sha)) := by
  obtain ⟨owned, howned, hsame⟩ := h.ownedEnvironmentNames hsaved
  have hnodup := h.nodup_lines hsaved
  have hperm := h.sortedLines_perm hsaved
  have hlines : ((document.lines sha).keys.insertionSort fun name other =>
      Collation.codePointsLe name other).mapM (serializeLine (document.lines sha)) =
      .ok ((document.sortedLines sha).map fun entry => lineOf entry ++ ['\n']) := by
    rw [mapM_eq_ok, Document.sortedLines, List.map_map, List.forall₂_map_right_iff,
      List.forall₂_same]
    intro name hname
    have hmem : (name, ((document.lines sha).get name).getD "") ∈ document.sortedLines sha :=
      List.mem_map.2 ⟨name, hname, rfl⟩
    have hwritable := h.writable_lines hsaved _ (hperm.mem_iff.1 hmem)
    rw [serializeLine, bind_eq_ok]
    refine ⟨_, quoteDotenv_eq_ok hwritable.storable, ?_⟩
    rw [pure_eq_ok, Function.comp_apply, lineOf, List.append_assoc, List.cons_append,
      List.cons_append]
    rfl
  unfold serializeDocument
  simp only [bind_eq_ok, require_eq_ok, pure_eq_ok]
  exact ⟨owned, howned, (), hsame, _, foldlM_serializeIndex hnodup, _, hlines,
    List.flatMap_def.symm⟩

/-! ## Parsing -/

/-- The bindings of a text go to the values or to the indexes. -/
lemma foldlM_parseBinding {entries : Dict String String}
    (h : ∀ entry ∈ entries, Writable entry ∧ (isIndexLine entry = false → isValueLine entry = true))
    (values metadata : Dict String String) (hvalues : (Dict.keys (values ++ entries)).Nodup)
    (hmetadata : (Dict.keys (metadata ++ entries)).Nodup) :
    (entries.map fun entry => (entry.1, some entry.2)).foldlM parseBinding ⟨values, metadata⟩ =
      .ok ⟨values ++ entries.filter fun entry => !isIndexLine entry,
        metadata ++ entries.filter isIndexLine⟩ := by
  induction entries generalizing values metadata with
  | nil =>
      rw [List.filter_nil, List.filter_nil, List.append_nil, List.append_nil]
      rfl
  | cons entry entries ih =>
      obtain ⟨⟨hwritable, howner⟩, hentries⟩ := List.forall_mem_cons.1 h
      have hnew : ∀ {d : Dict String String}, (Dict.keys (d ++ entry :: entries)).Nodup →
          entry.1 ∉ d.keys ∧ (Dict.keys (d ++ entries)).Nodup ∧
            (Dict.keys ((d ++ [entry]) ++ entries)).Nodup := by
        intro d hnodup
        refine ⟨fun hmem => ?_, ?_, by rwa [List.append_assoc, List.singleton_append]⟩
        · rw [Dict.keys_append] at hnodup
          exact List.disjoint_of_nodup_append hnodup hmem List.mem_cons_self
        · exact Dict.nodup_keys_of_sublist
            ((List.Sublist.refl d).append (List.sublist_cons_self entry entries)) hnodup
      obtain ⟨hnewValue, hrestValues, hnextValues⟩ := hnew hvalues
      obtain ⟨hnewIndex, hrestMetadata, hnextMetadata⟩ := hnew hmetadata
      have hname : rejectControlOrFormatCharacters entry.1 = .ok () := by
        rw [rejectControlOrFormatCharacters, require_eq_ok, Bool.not_eq_true', List.any_eq_false]
        intro c hc
        rw [isControlOrFormat_of_isNameCharacter (hwritable.isNameCharacter c hc)]
        exact Bool.false_ne_true
      rw [List.map_cons, List.foldlM_cons, bind_eq_ok, List.filter_cons, List.filter_cons]
      cases hindex : isIndexLine entry with
      | true =>
          have hstart : metadataStart.isPrefixOf entry.1.toList = true := hindex
          refine ⟨⟨values, metadata ++ [entry]⟩, ?_, ?_⟩
          · unfold parseBinding
            simp only [bind_eq_ok, if_pos hstart]
            refine ⟨(), hname, (), hwritable.storable.plain, ?_⟩
            rw [pure_eq_ok, Dict.set_of_not_mem hnewIndex]
          · rw [ih hentries _ _ hrestValues hnextMetadata]
            simp
      | false =>
          have hstart : metadataStart.isPrefixOf entry.1.toList = false := hindex
          have hvalue : valueStart.isPrefixOf entry.1.toList = true := howner hindex
          refine ⟨⟨values ++ [entry], metadata⟩, ?_, ?_⟩
          · unfold parseBinding
            simp only [bind_eq_ok, hstart, if_neg Bool.false_ne_true, if_pos hvalue]
            refine ⟨(), hname, (), hwritable.storable.plain, ?_⟩
            rw [pure_eq_ok, Dict.set_of_not_mem hnewValue]
          · rw [ih hentries _ _ hnextValues hrestMetadata]
            simp

/-- Every index is read back. -/
lemma foldlM_parseIndex
    (hparse : ∀ entry ∈ profiles, parseProfileMetadata sha (profileMetadataName sha entry.1)
      (profileMetadataValue entry.1 entry.2) = .ok (entry.1, sortedFields entry.2))
    {parsed : Dict Profile (Dict String String)} (hnodup : (parsed.keys ++ profiles.keys).Nodup) :
    (profiles.map (indexLine sha)).foldlM (parseIndex sha) parsed =
      .ok (parsed ++ profiles.map fun entry => (entry.1, sortedFields entry.2)) := by
  induction profiles generalizing parsed with
  | nil => rw [List.map_nil, List.map_nil, List.append_nil]; rfl
  | cons entry profiles ih =>
      obtain ⟨hentry, hentries⟩ := List.forall_mem_cons.1 hparse
      have hnew : entry.1 ∉ parsed.keys := fun hmem =>
        List.disjoint_of_nodup_append hnodup hmem List.mem_cons_self
      have hnext : (Dict.keys (parsed ++ [(entry.1, sortedFields entry.2)]) ++
          Dict.keys profiles).Nodup := by
        rw [Dict.keys_append, List.append_assoc]
        exact hnodup
      rw [List.map_cons, List.map_cons, List.foldlM_cons, bind_eq_ok]
      refine ⟨parsed ++ [(entry.1, sortedFields entry.2)], ?_, ?_⟩
      · unfold parseIndex
        simp only [bind_eq_ok, require_eq_ok]
        refine ⟨_, hentry, (), ?_, congrArg Except.ok (Dict.set_of_not_mem hnew _)⟩
        rw [List.contains_eq_mem, decide_eq_false hnew]
        rfl
      · rw [ih hentries hnext, List.append_assoc, List.singleton_append]

/-- Neither the order of the entries nor that of the fields matters. -/
lemma Represents.of_perm (h : Represents sha saved document) {values : Dict String String}
    (hvalues : values.Perm document.values) (hprofiles : profiles.Perm document.profiles) :
    Represents sha saved
      ⟨values, profiles.map fun entry => (entry.1, sortedFields entry.2)⟩ := by
  have hkeys : Dict.keys (profiles.map fun entry => (entry.1, sortedFields entry.2)) =
      profiles.keys := by
    rw [Dict.keys, Dict.keys, List.map_map]
    rfl
  have hnodup : profiles.keys.Nodup := (hprofiles.map Prod.fst).nodup_iff.2 h.profiles_nodup
  refine ⟨(hvalues.map Prod.fst).nodup_iff.2 h.values_nodup, hkeys ▸ hnodup, ?_, ?_, ?_, ?_⟩
  · intro read hread
    obtain ⟨entry, hentry, rfl⟩ := List.mem_map.1 hread
    have hfields := h.fields_nodup entry (hprofiles.mem_iff.1 hentry)
    exact ((sortedFields_perm hfields).map Prod.fst).nodup_iff.2 hfields
  · intro read hread hnil
    obtain ⟨entry, hentry, rfl⟩ := List.mem_map.1 hread
    have hmem := hprofiles.mem_iff.1 hentry
    have hperm := sortedFields_perm (h.fields_nodup entry hmem)
    rw [show sortedFields entry.2 = [] from hnil] at hperm
    exact h.fields_ne_nil entry hmem hperm.nil_eq.symm
  · intro key value
    rw [← h.get_values]
    exact iff_of_eq (congrArg (· = some value)
      (Dict.get_eq_of_perm hvalues ((hvalues.map Prod.fst).nodup_iff.2 h.values_nodup) key))
  · intro profile field key
    rw [← h.get_fields]
    have hget : Dict.get (profiles.map fun entry => (entry.1, sortedFields entry.2)) profile =
        (document.profiles.get profile).map sortedFields := by
      rw [Dict.get_mapValues, Dict.get_eq_of_perm hprofiles hnodup]
    unfold Document.fieldsOf
    dsimp only
    rw [hget]
    cases hprofile : document.profiles.get profile with
    | none => rfl
    | some fields =>
        have hmem := (Dict.get_eq_some_iff h.profiles_nodup).1 hprofile
        have hfields := h.fields_nodup _ hmem
        have hperm := sortedFields_perm hfields
        exact iff_of_eq (congrArg (· = some key)
          (Dict.get_eq_of_perm hperm ((hperm.map Prod.fst).nodup_iff.2 hfields) field))

/-- The text of a document reads back as a document that stores the same values. -/
theorem parseDotenvText_sortedLines (reader : DotenvReader) (h : Represents sha saved document)
    (hsaved : Assignable sha names saved) :
    ∃ parsed, parseDotenvText sha reader (textOf (document.sortedLines sha)) = .ok parsed ∧
      Represents sha saved parsed := by
  have hperm := h.sortedLines_perm hsaved
  have hnodup : (document.sortedLines sha).keys.Nodup :=
    (hperm.map Prod.fst).nodup_iff.2 (h.nodup_lines hsaved)
  have hwritable : ∀ entry ∈ document.sortedLines sha, Writable entry := fun entry hentry =>
    h.writable_lines hsaved entry (hperm.mem_iff.1 hentry)
  have howner : ∀ entry ∈ document.sortedLines sha,
      Writable entry ∧ (isIndexLine entry = false → isValueLine entry = true) := by
    intro entry hentry
    refine ⟨hwritable entry hentry, fun hindex => ?_⟩
    rcases List.mem_append.1 (hperm.mem_iff.1 hentry) with hmem | hmem
    · obtain ⟨name, hne, rfl⟩ := h.mem_values hmem
      exact (isValueLine_value (hsaved.valid name hne)).1
    · obtain ⟨indexed, -, rfl⟩ := List.mem_map.1 hmem
      rw [isIndexLine_indexLine] at hindex
      cases hindex
  have hbindings := foldlM_parseBinding howner [] [] hnodup hnodup
  have hvalues : ((document.sortedLines sha).filter fun entry => !isIndexLine entry).Perm
      document.values := by
    refine (hperm.filter _).trans (List.Perm.of_eq ?_)
    rw [Document.lines, List.filter_append, List.filter_eq_self.2, List.filter_eq_nil_iff.2,
      List.append_nil]
    · intro entry hentry
      obtain ⟨indexed, -, rfl⟩ := List.mem_map.1 hentry
      rw [isIndexLine_indexLine]
      decide
    · intro entry hentry
      obtain ⟨name, hne, rfl⟩ := h.mem_values hentry
      rw [(isValueLine_value (hsaved.valid name hne)).2]
      rfl
  have hindexes : ((document.sortedLines sha).filter isIndexLine).Perm
      (document.profiles.map (indexLine sha)) := by
    refine (hperm.filter _).trans (List.Perm.of_eq ?_)
    rw [Document.lines, List.filter_append, List.filter_eq_nil_iff.2, List.filter_eq_self.2,
      List.nil_append]
    · intro entry hentry
      obtain ⟨indexed, -, rfl⟩ := List.mem_map.1 hentry
      exact isIndexLine_indexLine sha indexed
    · intro entry hentry
      obtain ⟨name, hne, rfl⟩ := h.mem_values hentry
      rw [(isValueLine_value (hsaved.valid name hne)).2]
      decide
  -- the indexes are those of the profiles, in another order
  obtain ⟨profiles, hfilter, hprofiles⟩ :
      ∃ profiles : List (Profile × Dict String String),
        (document.sortedLines sha).filter isIndexLine = profiles.map (indexLine sha) ∧
          profiles.Perm document.profiles := by
    have hcomp := congrFun₂ (List.eq_map_comp_perm (indexLine sha))
      ((document.sortedLines sha).filter isIndexLine) document.profiles
    exact cast hcomp.symm hindexes
  have hparse : ∀ entry ∈ profiles, parseProfileMetadata sha (profileMetadataName sha entry.1)
      (profileMetadataValue entry.1 entry.2) = .ok (entry.1, sortedFields entry.2) := by
    intro entry hentry
    have hmem := hprofiles.mem_iff.1 hentry
    have hkeys := h.fields_nodup entry hmem
    refine parseProfileMetadata_profileMetadataValue (h.fields_ne_nil entry hmem) hkeys ?_ ?_
    · refine List.Nodup.map_on (fun field hfield other hother heq => ?_) hkeys.of_map
      obtain ⟨hne, hkey⟩ := (h.mem_fields hmem).1 hfield
      obtain ⟨hne', hkey'⟩ := (h.mem_fields hmem).1 hother
      have hname := CredentialName.envName_inj hsaved.differ (hsaved.mem _ hne)
        (hsaved.mem _ hne') (hkey.trans (heq.trans hkey'.symm))
      exact Prod.ext (congrArg (·.field) hname) heq
    · intro field hfield
      obtain ⟨hne, hkey⟩ := (h.mem_fields hmem).1 hfield
      exact ⟨hsaved.valid _ hne, hkey⟩
  have hfold : ((document.sortedLines sha).filter isIndexLine).foldlM (parseIndex sha) [] =
      .ok (profiles.map fun entry => (entry.1, sortedFields entry.2)) := by
    rw [hfilter]
    exact foldlM_parseIndex hparse ((hprofiles.map Prod.fst).nodup_iff.2 h.profiles_nodup)
  have hparsed := h.of_perm hvalues hprofiles
  obtain ⟨owned, howned, hsame⟩ := hparsed.ownedEnvironmentNames hsaved
  refine ⟨_, ?_, hparsed⟩
  unfold parseDotenvText
  simp only [bind_eq_ok, require_eq_ok, pure_eq_ok]
  refine ⟨(), ?_, (), validateDotenvAssignments_textOf hwritable hnodup,
    ⟨(document.sortedLines sha).filter fun entry => !isIndexLine entry,
      (document.sortedLines sha).filter isIndexLine⟩, ?_, _, hfold, owned, howned, (), hsame, rfl⟩
  · rw [Bool.not_eq_true', List.any_eq_false]
    intro c hc hseparator
    rw [Bool.or_eq_true, beq_iff_eq, beq_iff_eq] at hseparator
    rcases not_isControlOrFormat_textOf hwritable c hc with hplain | rfl
    · rcases hseparator with rfl | rfl
      · cases hplain
      · cases hplain
    · rcases hseparator with heq | heq
      · cases heq
      · cases heq
  · rw [values_textOf reader hwritable hnodup]
    exact hbindings

end MercuryTools.Local
