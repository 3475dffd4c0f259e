import Mathlib.Data.List.Chain
import MercuryTools.Credentials.Models
import MercuryTools.Framework.JsonReader
import MercuryTools.Local.Dotenv

/-!
# Names of stored credentials

`credential_env_name` of `local/credentials.py`: the environment name under which a field of a
profile is stored.  Parts of a simple form keep a readable name; other names carry twelve digits of
a digest of the parts, since the normalisation forgets which characters they had.

Two triples have one name only where the digests of both collide.
-/

namespace MercuryTools.Local

open Checks Credentials Hosted JsonText

/-- `hashlib.sha256(data).hexdigest()`. -/
structure Sha256 where
  hexdigest : List UInt8 → String
  valid : ∀ data, isSha256 (hexdigest data) = true

/-- The parts of a name. -/
structure CredentialName where
  connectorId : String
  environment : String
  field : String
  deriving DecidableEq

/-- `(connector_id, environment)` -/
abbrev Profile : Type :=
  String × String

def CredentialName.profile (name : CredentialName) : Profile :=
  (name.connectorId, name.environment)

def CredentialName.parts (name : CredentialName) : List String :=
  [name.connectorId, name.environment, name.field]

/-! ## Identifiers -/

/-- The characters of category `Cc`, `Cf`, `Zl` or `Zp`. -/
def isControlOrFormat (c : Char) : Bool :=
  isControl c || isFormat c || c == '\u2028' || c == '\u2029'

/-- `_reject_control_or_format_characters`. -/
def rejectControlOrFormatCharacters (value : String) : Except String Unit :=
  require (!value.toList.any isControlOrFormat) "credential_control_character"

def isSafeCharacter (c : Char) : Bool :=
  isAlnum c || c == '_' || c == '-'

/-- `_SAFE_IDENTIFIER`: `^[A-Za-z0-9_-]+$`. -/
def isSafeIdentifier (value : String) : Bool :=
  !value.toList.isEmpty && value.toList.all isSafeCharacter

/-- `_validate_identifier`. -/
def validateIdentifier (value : String) : Except String Unit := do
  require (!value.toList.isEmpty) "invalid_credential_identifier"
  rejectControlOrFormatCharacters value
  require (isSafeIdentifier value) "invalid_credential_identifier"
  require (value.toList.any isAlnum) "invalid_credential_identifier"

/-- `str.upper`, for a character in ASCII. -/
def upper (c : Char) : Char :=
  if 'a' ≤ c ∧ c ≤ 'z' then Char.ofNat (c.toNat - 32) else c

/-- `_normalize_identifier`, for an identifier. -/
def normalizeIdentifier (value : String) : List Char :=
  (value.toList.map fun c => if isAlnum c then c else '_').map upper

def isLower (c : Char) : Bool :=
  'a' ≤ c && c ≤ 'z'

def isLowerOrDigit (c : Char) : Bool :=
  isLower c || ('0' ≤ c && c ≤ '9')

/-- `_SIMPLE_COMPONENT`: `^[a-z][a-z0-9]*$`. -/
def isSimpleComponent (value : List Char) : Bool :=
  value.head?.any isLower && value.all isLowerOrDigit

/-- `[a-z0-9]*(?:_[a-z0-9]+)*$`, right after an underscore or not. -/
def isSimpleFieldRest (separated : Bool) : List Char → Bool
  | [] => !separated
  | c :: cs =>
      if isLowerOrDigit c then isSimpleFieldRest false cs
      else !separated && c == '_' && isSimpleFieldRest true cs

/-- `_SIMPLE_FIELD`: `^[a-z][a-z0-9]*(?:_[a-z0-9]+)*$`. -/
def isSimpleField (value : List Char) : Bool :=
  value.head?.any isLower && isSimpleFieldRest false value

/-- `_is_unambiguous_legacy_tuple`. -/
def CredentialName.isUnambiguousLegacyTuple (name : CredentialName) : Bool :=
  isSimpleComponent name.connectorId.toList && isSimpleComponent name.environment.toList &&
    isSimpleField name.field.toList

/-- `_tuple_bytes`. -/
def tupleBytes (parts : List String) : List UInt8 :=
  encodeAscii (asciiStyle.write (.arr (parts.map .str)))

/-- `"MERCURY_" + "_".join(normalized)` -/
def CredentialName.readableName (name : CredentialName) : List Char :=
  "MERCURY_".toList ++ normalizeIdentifier name.connectorId ++
    '_' :: (normalizeIdentifier name.environment ++ '_' :: normalizeIdentifier name.field)

section

variable (sha : Sha256)

/-- The digest of the parts in capitals. -/
def digestOf (parts : List String) : List Char :=
  (sha.hexdigest (tupleBytes parts)).toList.map upper

/-- The name of parts that are valid. -/
def CredentialName.text (name : CredentialName) : List Char :=
  if name.isUnambiguousLegacyTuple then name.readableName
  else name.readableName ++ "__H_".toList ++ (digestOf sha name.parts).take 12

/-- `credential_env_name`. -/
def credentialEnvName (name : CredentialName) : Except String String := do
  validateIdentifier name.connectorId
  validateIdentifier name.environment
  validateIdentifier name.field
  return String.ofList (name.text sha)

/-- `_profile_metadata_name`. -/
def profileMetadataName (profile : Profile) : String :=
  String.ofList ("_MERCURY_PROFILE_INDEX_".toList ++ digestOf sha [profile.1, profile.2])

/-- The digests in the names of a set of credentials do not collide. -/
structure NamesDiffer (names : Set CredentialName) : Prop where
  name_inj : ∀ name ∈ names, ∀ other ∈ names,
    (digestOf sha name.parts).take 12 = (digestOf sha other.parts).take 12 → name = other
  profile_inj : ∀ name ∈ names, ∀ other ∈ names,
    profileMetadataName sha name.profile = profileMetadataName sha other.profile →
      name.profile = other.profile

end

/-! ## Characters -/

variable {c : Char} {s cs : List Char} {value : String}

/-- What holds of the first 128 characters holds of every character in ASCII. -/
lemma ascii_induction {P : Char → Prop} (h : ∀ n < 128, P (Char.ofNat n)) (hc : c.toNat < 128) :
    P c := by
  have hp := h c.toNat hc
  rwa [Char.ofNat_toNat] at hp

lemma toNat_lt_of_isSafeCharacter (h : isSafeCharacter c = true) : c.toNat < 128 := by
  simp only [isSafeCharacter, isAlnum, Bool.or_eq_true, Bool.and_eq_true, decide_eq_true_eq,
    beq_iff_eq] at h
  rcases h with (((⟨-, hc⟩ | ⟨-, hc⟩) | ⟨-, hc⟩) | rfl) | rfl
  · exact Nat.lt_of_le_of_lt (UInt32.le_iff_toNat_le.1 hc) (by decide)
  · exact Nat.lt_of_le_of_lt (UInt32.le_iff_toNat_le.1 hc) (by decide)
  · exact Nat.lt_of_le_of_lt (UInt32.le_iff_toNat_le.1 hc) (by decide)
  · decide
  · decide

/-- The characters of a simple name. -/
def isSimpleCharacter (c : Char) : Bool :=
  isLowerOrDigit c || c == '_'

lemma isAlnum_of_isLowerOrDigit (h : isLowerOrDigit c = true) : isAlnum c = true := by
  simp only [isLowerOrDigit, isLower, Bool.or_eq_true] at h
  simp only [isAlnum, Bool.or_eq_true]
  exact h.elim (fun h => .inl (.inl h)) .inr

lemma isSafeCharacter_of_isSimpleCharacter (h : isSimpleCharacter c = true) :
    isSafeCharacter c = true := by
  rw [isSimpleCharacter, Bool.or_eq_true] at h
  rcases h with h | h
  · simp [isSafeCharacter, isAlnum_of_isLowerOrDigit h]
  · simp [isSafeCharacter, h]

/-- The inverse of `upper`, for the characters of a simple name. -/
def lower (c : Char) : Char :=
  if 'A' ≤ c ∧ c ≤ 'Z' then Char.ofNat (c.toNat + 32) else c

lemma toNat_lt_of_isSimpleCharacter (h : isSimpleCharacter c = true) : c.toNat < 128 :=
  toNat_lt_of_isSafeCharacter (isSafeCharacter_of_isSimpleCharacter h)

lemma lower_upper (h : isSimpleCharacter c = true) : lower (upper c) = c :=
  ascii_induction (P := fun c => isSimpleCharacter c = true → lower (upper c) = c) (by decide)
    (toNat_lt_of_isSimpleCharacter h) h

lemma upper_ne_underscore (h : isLowerOrDigit c = true) : upper c ≠ '_' := by
  have hsimple : isSimpleCharacter c = true := by rw [isSimpleCharacter, h, Bool.true_or]
  exact ascii_induction (P := fun c => isLowerOrDigit c = true → upper c ≠ '_') (by decide)
    (toNat_lt_of_isSimpleCharacter hsimple) h

/-- The characters of an environment name. -/
lemma isNameCharacter_normalized (h : isSafeCharacter c = true) :
    isNameCharacter (upper (if isAlnum c then c else '_')) = true :=
  ascii_induction (P := fun c => isSafeCharacter c = true →
    isNameCharacter (upper (if isAlnum c then c else '_')) = true) (by decide)
    (toNat_lt_of_isSafeCharacter h) h

/-! ## Simple names can be told apart -/

/-- No two underscores in a row. -/
def Separated (text : List Char) : Prop :=
  text.IsChain fun c d => ¬ (c = '_' ∧ d = '_')

lemma separated_cons (hhead : s.head? ≠ some '_') (h : Separated s) : Separated ('_' :: s) := by
  refine List.isChain_cons.2 ⟨fun d hd => ?_, h⟩
  rintro ⟨-, rfl⟩
  exact hhead hd

/-- A part without underscores, before an underscore. -/
lemma separated_append {part : List Char} (hpart : ∀ c ∈ part, c ≠ '_')
    (h : Separated ('_' :: s)) : Separated (part ++ '_' :: s) := by
  induction part with
  | nil => exact h
  | cons c part ih =>
      refine List.isChain_cons.2 ⟨fun d _ => ?_, ih fun d hd => hpart d (List.mem_cons_of_mem _ hd)⟩
      rintro ⟨rfl, -⟩
      exact hpart '_' List.mem_cons_self rfl

lemma not_separated (a b : List Char) : ¬ Separated (a ++ '_' :: '_' :: b) := by
  intro h
  have hpair := List.isChain_append_cons_cons.1 h
  exact hpair.2.1 ⟨rfl, rfl⟩

lemma isSimpleCharacter_of_isSimpleFieldRest {separated : Bool}
    (h : isSimpleFieldRest separated cs = true) : ∀ c ∈ cs, isSimpleCharacter c = true := by
  induction cs generalizing separated with
  | nil => exact nofun
  | cons c cs ih =>
      rw [isSimpleFieldRest] at h
      split at h
      next hc =>
        rw [List.forall_mem_cons, isSimpleCharacter, hc, Bool.true_or]
        exact ⟨rfl, ih h⟩
      · simp only [Bool.and_eq_true, beq_iff_eq] at h
        rw [List.forall_mem_cons, isSimpleCharacter, Bool.or_eq_true, beq_iff_eq]
        exact ⟨.inr h.1.2, ih h.2⟩

/-- The parts of a field are not empty. -/
lemma separated_of_isSimpleFieldRest {separated : Bool} (h : isSimpleFieldRest separated cs = true)
    :
    Separated (cs.map upper) ∧ (separated = true → (cs.map upper).head? ≠ some '_') := by
  induction cs generalizing separated with
  | nil => exact ⟨List.IsChain.nil, fun _ => nofun⟩
  | cons c cs ih =>
      rw [isSimpleFieldRest] at h
      split at h
      next hc =>
        have hne := upper_ne_underscore hc
        refine ⟨List.isChain_cons.2 ⟨fun d _ heq => hne heq.1, (ih h).1⟩, fun _ heq => ?_⟩
        exact hne (Option.some.inj heq)
      · simp only [Bool.and_eq_true, Bool.not_eq_true', beq_iff_eq] at h
        obtain ⟨⟨hseparated, rfl⟩, hrest⟩ := h
        have hrest := ih hrest
        exact ⟨separated_cons (hrest.2 rfl) hrest.1, fun htrue => by simp [hseparated] at htrue⟩

/-- The normalisation of a simple part only capitalizes it. -/
lemma normalizeIdentifier_eq (h : ∀ c ∈ value.toList, isSimpleCharacter c = true) :
    normalizeIdentifier value = value.toList.map upper := by
  unfold normalizeIdentifier
  rw [List.map_map]
  apply List.map_congr_left
  intro c hc
  have hsimple := h c hc
  rw [isSimpleCharacter, Bool.or_eq_true, beq_iff_eq] at hsimple
  rcases hsimple with hlower | rfl
  · rw [Function.comp_apply, if_pos (isAlnum_of_isLowerOrDigit hlower)]
  · rfl

lemma normalizeIdentifier_inj {other : String}
    (hvalue : ∀ c ∈ value.toList, isSimpleCharacter c = true)
    (hother : ∀ c ∈ other.toList, isSimpleCharacter c = true)
    (h : normalizeIdentifier value = normalizeIdentifier other) : value = other := by
  have hinverse : ∀ text : String, (∀ c ∈ text.toList, isSimpleCharacter c = true) →
      (normalizeIdentifier text).map lower = text.toList := by
    intro text htext
    have hid : text.toList.map (lower ∘ upper) = text.toList.map id :=
      List.map_congr_left fun c hc => lower_upper (htext c hc)
    rw [normalizeIdentifier_eq htext, List.map_map, hid, List.map_id]
  rw [← String.toList_inj, ← hinverse value hvalue, ← hinverse other hother, h]

/-- What a simple component is made of. -/
lemma isLowerOrDigit_of_isSimpleComponent {value : List Char} (h : isSimpleComponent value = true) :
    ∀ c ∈ value, isLowerOrDigit c = true := by
  rw [isSimpleComponent, Bool.and_eq_true] at h
  exact List.all_eq_true.1 h.2

lemma isSimpleCharacter_of_isSimpleComponent {value : List Char}
    (h : isSimpleComponent value = true) : ∀ c ∈ value, isSimpleCharacter c = true := by
  intro c hc
  rw [isSimpleCharacter, isLowerOrDigit_of_isSimpleComponent h c hc, Bool.true_or]

lemma normalizeIdentifier_ne_underscore (h : isSimpleComponent value.toList = true) :
    ∀ c ∈ normalizeIdentifier value, c ≠ '_' := by
  rw [normalizeIdentifier_eq (isSimpleCharacter_of_isSimpleComponent h), List.forall_mem_map]
  exact fun c hc => upper_ne_underscore (isLowerOrDigit_of_isSimpleComponent h c hc)

/-- The normalisation of a simple part begins with no underscore. -/
lemma head_normalizeIdentifier (hhead : value.toList.head?.any isLower = true)
    (hsimple : ∀ c ∈ value.toList, isSimpleCharacter c = true) (r : List Char) :
    (normalizeIdentifier value ++ r).head? ≠ some '_' := by
  rw [normalizeIdentifier_eq hsimple]
  cases hvalue : value.toList with
  | nil =>
      rw [hvalue] at hhead
      cases hhead
  | cons c cs =>
      rw [hvalue] at hhead
      have hlower : isLowerOrDigit c = true := by
        rw [isLowerOrDigit, Bool.or_eq_true]
        exact .inl hhead
      exact fun heq => upper_ne_underscore hlower (Option.some.inj heq)

namespace CredentialName

variable {name other : CredentialName}

lemma readableName_eq (name : CredentialName) :
    name.readableName = "MERCURY".toList ++ '_' :: (normalizeIdentifier name.connectorId ++
      '_' :: (normalizeIdentifier name.environment ++ '_' :: normalizeIdentifier name.field)) := by
  have hmercury : "MERCURY_".toList = "MERCURY".toList ++ ['_'] := by decide
  unfold readableName
  rw [hmercury, List.append_assoc, List.append_assoc, List.singleton_append]

/-- What makes a name legacy. -/
structure Simple (name : CredentialName) : Prop where
  connectorId : isSimpleComponent name.connectorId.toList = true
  environment : isSimpleComponent name.environment.toList = true
  field : isSimpleField name.field.toList = true

lemma isUnambiguousLegacyTuple_iff : name.isUnambiguousLegacyTuple = true ↔ name.Simple := by
  rw [isUnambiguousLegacyTuple, Bool.and_eq_true, Bool.and_eq_true]
  exact ⟨fun h => ⟨h.1.1, h.1.2, h.2⟩, fun h => ⟨⟨h.connectorId, h.environment⟩, h.field⟩⟩

namespace Simple

lemma field_rest (h : name.Simple) : isSimpleFieldRest false name.field.toList = true := by
  have hfield := h.field
  rw [isSimpleField, Bool.and_eq_true] at hfield
  exact hfield.2

lemma field_head (h : name.Simple) : name.field.toList.head?.any isLower = true := by
  have hfield := h.field
  rw [isSimpleField, Bool.and_eq_true] at hfield
  exact hfield.1

lemma separated (h : name.Simple) : Separated name.readableName := by
  have hfield : Separated (normalizeIdentifier name.field) := by
    rw [normalizeIdentifier_eq (isSimpleCharacter_of_isSimpleFieldRest h.field_rest)]
    exact (separated_of_isSimpleFieldRest h.field_rest).1
  have hhead : (normalizeIdentifier name.field).head? ≠ some '_' := by
    have hnil := head_normalizeIdentifier h.field_head
      (isSimpleCharacter_of_isSimpleFieldRest h.field_rest) []
    rwa [List.append_nil] at hnil
  have hcomponent : ∀ {value : String}, isSimpleComponent value.toList = true →
      ∀ r, (normalizeIdentifier value ++ r).head? ≠ some '_' := by
    intro value hvalue r
    have hsimple := hvalue
    rw [isSimpleComponent, Bool.and_eq_true] at hsimple
    exact head_normalizeIdentifier hsimple.1 (isSimpleCharacter_of_isSimpleComponent hvalue) r
  rw [readableName_eq]
  have hall : "MERCURY".toList.all (· ≠ '_') = true := rfl
  have hstart : ∀ c ∈ "MERCURY".toList, c ≠ '_' := fun c hc =>
    of_decide_eq_true (List.all_eq_true.1 hall c hc)
  refine separated_append hstart (separated_cons (hcomponent h.connectorId _) ?_)
  refine separated_append (normalizeIdentifier_ne_underscore h.connectorId) ?_
  refine separated_cons (hcomponent h.environment _) ?_
  refine separated_append (normalizeIdentifier_ne_underscore h.environment) ?_
  exact separated_cons hhead hfield

lemma readableName_inj (h : name.Simple) (h' : other.Simple)
    (heq : name.readableName = other.readableName) : name = other := by
  have hsplit : ∀ {a b r s : List Char}, (∀ c ∈ a, c ≠ '_') → (∀ c ∈ b, c ≠ '_') →
      a ++ '_' :: r = b ++ '_' :: s → a = b ∧ r = s := by
    intro a b r s ha hb hab
    induction a generalizing b with
    | nil =>
        cases b with
        | nil => exact ⟨rfl, (List.cons.inj hab).2⟩
        | cons d b => exact absurd (List.cons.inj hab).1.symm (hb d List.mem_cons_self)
    | cons c a ih =>
        cases b with
        | nil => exact absurd (List.cons.inj hab).1 (ha c List.mem_cons_self)
        | cons d b =>
            obtain ⟨rfl, hrest⟩ := List.cons.inj hab
            obtain ⟨rfl, rfl⟩ := ih (fun e he => ha e (List.mem_cons_of_mem _ he))
              (fun e he => hb e (List.mem_cons_of_mem _ he)) hrest
            exact ⟨rfl, rfl⟩
  rw [readableName_eq, readableName_eq] at heq
  have hparts := (List.cons.inj (List.append_cancel_left heq)).2
  obtain ⟨hconnector, hparts⟩ := hsplit (normalizeIdentifier_ne_underscore h.connectorId)
    (normalizeIdentifier_ne_underscore h'.connectorId) hparts
  obtain ⟨henvironment, hfield⟩ := hsplit (normalizeIdentifier_ne_underscore h.environment)
    (normalizeIdentifier_ne_underscore h'.environment) hparts
  have hconnector := normalizeIdentifier_inj (isSimpleCharacter_of_isSimpleComponent h.connectorId)
    (isSimpleCharacter_of_isSimpleComponent h'.connectorId) hconnector
  have henvironment := normalizeIdentifier_inj
    (isSimpleCharacter_of_isSimpleComponent h.environment)
    (isSimpleCharacter_of_isSimpleComponent h'.environment) henvironment
  have hfield := normalizeIdentifier_inj (isSimpleCharacter_of_isSimpleFieldRest h.field_rest)
    (isSimpleCharacter_of_isSimpleFieldRest h'.field_rest) hfield
  cases name
  cases other
  simp only at hconnector henvironment hfield
  rw [hconnector, henvironment, hfield]

end Simple

variable {sha : Sha256}

lemma length_digest (sha : Sha256) (parts : List String) : (digestOf sha parts).length = 64 := by
  have hvalid := sha.valid (tupleBytes parts)
  rw [isSha256, Bool.and_eq_true, decide_eq_true_eq] at hvalid
  rw [digestOf, List.length_map, hvalid.1]

/-- Two names that are stored under one text have the same digest, or none. -/
theorem text_inj {names : Set CredentialName} (h : NamesDiffer sha names) (hname : name ∈ names)
    (hother : other ∈ names) (heq : name.text sha = other.text sha) : name = other := by
  have hlength : ∀ parts, ((digestOf sha parts).take 12).length = 12 := by
    intro parts
    rw [List.length_take, length_digest]
    rfl
  have hhashed : ∀ name : CredentialName, name.isUnambiguousLegacyTuple = false →
      ¬ Separated (name.text sha) := by
    intro name hfalse
    have hmark : "__H_".toList = ['_', '_', 'H', '_'] := by decide
    rw [text, hfalse, if_neg Bool.false_ne_true, hmark, List.append_assoc]
    exact not_separated name.readableName ('H' :: '_' :: (digestOf sha name.parts).take 12)
  have hlegacy : ∀ name : CredentialName, name.isUnambiguousLegacyTuple = true →
      name.text sha = name.readableName := by
    intro name htrue
    rw [text, if_pos htrue]
  cases hn : name.isUnambiguousLegacyTuple with
  | true =>
      have hsimple := isUnambiguousLegacyTuple_iff.1 hn
      cases ho : other.isUnambiguousLegacyTuple with
      | true =>
          rw [hlegacy name hn, hlegacy other ho] at heq
          exact hsimple.readableName_inj (isUnambiguousLegacyTuple_iff.1 ho) heq
      | false =>
          apply absurd _ (hhashed other ho)
          rw [← heq, hlegacy name hn]
          exact hsimple.separated
  | false =>
      cases ho : other.isUnambiguousLegacyTuple with
      | true =>
          apply absurd _ (hhashed name hn)
          rw [heq, hlegacy other ho]
          exact (isUnambiguousLegacyTuple_iff.1 ho).separated
      | false =>
          rw [text, text, hn, ho, if_neg Bool.false_ne_true, if_neg Bool.false_ne_true] at heq
          have hdigest := (List.append_inj' heq (by rw [hlength, hlength])).2
          exact h.name_inj name hname other hother hdigest

end CredentialName

end MercuryTools.Local
