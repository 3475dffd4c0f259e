import Mathlib.Data.List.DropRight
import Mathlib.Data.List.Sort
import MercuryTools.Framework.Operations
import MercuryTools.Local.CredentialNames

/-!
# The local credential store

`CredentialStore` of `local/credentials.py`: the credentials of all profiles in one dotenv file,
with an index of the fields of every profile.  Every operation reads the whole file and, where it
changes something, writes the whole file again, after checking that the text reads back as the
document it was made from.

The state is the text of `credentials.env`, if there is one.  The repository lock makes operations
follow one another; a text is a sequence of Unicode scalar values, so that it can be encoded.
-/

namespace MercuryTools.Local

open Checks JsonText Operation

/-- A `_CredentialDocument`. -/
structure Document where
  values : Dict String String
  profiles : Dict Profile (Dict String String)
  deriving DecidableEq

def Document.empty : Document :=
  ⟨[], []⟩

/-- `==` of two documents: neither of the dictionaries has an order. -/
def Document.same (document other : Document) : Bool :=
  Dict.same document.values other.values &&
    (document.profiles.keys ++ other.profiles.keys).all fun profile =>
      match document.profiles.get profile, other.profiles.get profile with
      | some fields, some fields' => Dict.same fields fields'
      | none, none => true
      | _, _ => false

def invalidFile : String := "invalid_credential_file"

def ambiguousIdentifier : String := "ambiguous_credential_identifier"

/-! ## Assignments -/

/-- The characters at which `str.splitlines` ends a line. -/
def isLineBreak (c : Char) : Bool :=
  c ∈ ['\n', '\r', '\x0b', '\x0c', '\x1c', '\x1d', '\x1e', '\u0085', '\u2028', '\u2029']

/-- `str.splitlines`, but for a blank line inside of `\r\n`. -/
def splitLines (text : List Char) : List (List Char) :=
  text.splitOnP isLineBreak

/-- `str.isspace`. -/
def isSpace (c : Char) : Bool :=
  ('\t' ≤ c && c ≤ '\r') || ('\x1c' ≤ c && c ≤ ' ') || ('\u2000' ≤ c && c ≤ '\u200a') ||
    c ∈ ['\u0085', '\u00a0', '\u1680', '\u2028', '\u2029', '\u202f', '\u205f', '\u3000']

/-- `str.strip`. -/
def strip (line : List Char) : List Char :=
  (line.dropWhile isSpace).rdropWhile isSpace

/-- `([A-Za-z_][A-Za-z0-9_]*)\s*=` -/
def assignedName (line : List Char) : Option (List Char) :=
  let name := line.takeWhile isNameCharacter
  if name.head?.any isNameStart &&
      ((line.drop name.length).dropWhile isSpace).head? == some '=' then some name
  else none

/-- `_DOTENV_ASSIGNMENT`: `^(?:export\s+)?([A-Za-z_][A-Za-z0-9_]*)\s*=`. -/
def dotenvAssignment (line : List Char) : Option (List Char) :=
  let rest := line.drop 6
  let exported :=
    if line.take 6 == "export".toList && rest.head?.any isSpace then
      assignedName (rest.dropWhile isSpace)
    else none
  exported.or (assignedName line)

/-- The loop body of `_validate_dotenv_assignments`. -/
def validateAssignment (seen : List (List Char)) (line : List Char) :
    Except String (List (List Char)) :=
  let stripped := strip line
  if stripped.isEmpty || stripped.head? == some '#' then .ok seen
  else
    match dotenvAssignment stripped with
    | none => .error invalidFile
    | some name => do
        require (!seen.contains name) ambiguousIdentifier
        return name :: seen

/-- `_validate_dotenv_assignments`. -/
def validateDotenvAssignments (text : List Char) : Except String Unit := do
  let _ ← (splitLines text).foldlM validateAssignment []

/-! ## The index of a profile -/

section

variable (sha : Sha256)

/-- `_profile_metadata_value`. -/
def profileMetadataValue (profile : Profile) (fields : Dict String String) : String :=
  let names := fields.keys.insertionSort fun name other => Collation.codePointsLe name other
  let entries := names.map fun name =>
    Json.obj [("field_name", .str name), ("env_name", .str ((fields.get name).getD ""))]
  String.ofList (asciiStyle.write (.obj [("connector_id", .str profile.1),
    ("environment", .str profile.2), ("fields", .arr entries)]))

/-- Whether the keys of the object are these. -/
def hasKeys (payload : Json) (keys : List String) : Bool :=
  payload.isObj && payload.keys.all (keys.contains ·) && keys.all (payload.keys.contains ·)

def identifierOf : Option Json → Except String String
  | some (.str value) => do
      validateIdentifier value
      return value
  | _ => .error "invalid_credential_identifier"

/-- An entry of the index; the fields that precede it. -/
def parseEntry (profile : Profile) (fields : Dict String String) (entry : Json) :
    Except String (Dict String String) := do
  require (hasKeys entry ["field_name", "env_name"]) invalidFile
  match entry.get? "field_name", entry.get? "env_name" with
  | some (.str field), some (.str name) => do
      let expected ← credentialEnvName sha ⟨profile.1, profile.2, field⟩
      require (name == expected) invalidFile
      require (!fields.keys.contains field && !fields.values.contains name) ambiguousIdentifier
      return fields.set field name
  | _, _ => .error invalidFile

/-- `json.loads` with `_reject_duplicate_index_keys`. -/
def loadsIndex (value : String) : Except String Json :=
  match JsonText.read String.ofList value.toList with
  | some payload =>
      if payload.all (fun v => decide v.keys.Nodup) then .ok payload else .error invalidFile
  | none => .error invalidFile

/-- `_parse_profile_metadata`. -/
def parseProfileMetadata (name value : String) :
    Except String (Profile × Dict String String) := do
  let payload ← loadsIndex value
  require (hasKeys payload ["connector_id", "environment", "fields"]) invalidFile
  let connectorId ← identifierOf (payload.get? "connector_id")
  let environment ← identifierOf (payload.get? "environment")
  match payload.get? "fields" with
  | some (.arr entries) => do
      require (!entries.isEmpty) invalidFile
      let fields ← entries.foldlM (parseEntry sha (connectorId, environment)) []
      require (name == profileMetadataName sha (connectorId, environment)) invalidFile
      return ((connectorId, environment), fields)
  | _ => .error invalidFile

/-- The loop body of `_owned_environment_names` for one field. -/
def ownField (profile : Profile) (owned : List String) (entry : String × String) :
    Except String (List String) := do
  let name ← credentialEnvName sha ⟨profile.1, profile.2, entry.1⟩
  require (entry.2 == name) invalidFile
  require (!owned.contains name) ambiguousIdentifier
  return name :: owned

def ownProfile (owned : List String) (entry : Profile × Dict String String) :
    Except String (List String) := do
  require (!entry.2.isEmpty) invalidFile
  entry.2.foldlM (ownField sha entry.1) owned

/-- `_owned_environment_names`. -/
def ownedEnvironmentNames (profiles : Dict Profile (Dict String String)) :
    Except String (List String) :=
  profiles.foldlM (ownProfile sha) []

def sameNames (names others : List String) : Bool :=
  names.all (others.contains ·) && others.all (names.contains ·)

/-! ## Parsing -/

/-- The values and the metadata of a file. -/
structure Parsed where
  values : Dict String String
  metadata : Dict String String

def metadataStart : List Char := "_MERCURY_PROFILE_INDEX_".toList

def valueStart : List Char := "MERCURY_".toList

/-- The loop body of `_parse_dotenv_text` for one name. -/
def parseBinding (parsed : Parsed) (entry : String × Option String) : Except String Parsed :=
  match entry.2 with
  | none => .error invalidFile
  | some value => do
      rejectControlOrFormatCharacters entry.1
      rejectControlOrFormatCharacters value
      if metadataStart.isPrefixOf entry.1.toList then
        return { parsed with metadata := parsed.metadata.set entry.1 value }
      else if valueStart.isPrefixOf entry.1.toList then
        return { parsed with values := parsed.values.set entry.1 value }
      else .error invalidFile

/-- The loop body for one index. -/
def parseIndex (profiles : Dict Profile (Dict String String)) (entry : String × String) :
    Except String (Dict Profile (Dict String String)) := do
  let (profile, fields) ← parseProfileMetadata sha entry.1 entry.2
  require (!profiles.keys.contains profile) ambiguousIdentifier
  return profiles.set profile fields

/-- `_parse_dotenv_text`. -/
def parseDotenvText (reader : DotenvReader) (text : List Char) : Except String Document := do
  require (!text.any fun c => c == '\u2028' || c == '\u2029') invalidFile
  validateDotenvAssignments text
  let parsed ← (reader.values text).foldlM parseBinding ⟨[], []⟩
  let profiles ← parsed.metadata.foldlM (parseIndex sha) []
  let owned ← ownedEnvironmentNames sha profiles
  require (sameNames owned parsed.values.keys) invalidFile
  return ⟨parsed.values, profiles⟩

/-! ## Serializing -/

/-- `_quote_dotenv`. -/
def quoteDotenv (value : String) : Except String (List Char) := do
  rejectControlOrFormatCharacters value
  return '"' :: (escapeDotenv value.toList ++ ['"'])

/-- The loop body of `_serialize_document` for one profile. -/
def serializeIndex (serialized : Dict String String) (entry : Profile × Dict String String) :
    Except String (Dict String String) := do
  let name := profileMetadataName sha entry.1
  require (!serialized.keys.contains name) ambiguousIdentifier
  return serialized.set name (profileMetadataValue entry.1 entry.2)

/-- The line of a name. -/
def serializeLine (serialized : Dict String String) (name : String) :
    Except String (List Char) := do
  let quoted ← quoteDotenv ((serialized.get name).getD "")
  return name.toList ++ '=' :: (quoted ++ ['\n'])

/-- `_serialize_document`. -/
def serializeDocument (document : Document) : Except String (List Char) := do
  let owned ← ownedEnvironmentNames sha document.profiles
  require (sameNames owned document.values.keys) invalidFile
  let serialized ← document.profiles.foldlM (serializeIndex sha) document.values
  let names := serialized.keys.insertionSort fun name other => Collation.codePointsLe name other
  let lines ← names.mapM (serializeLine serialized)
  return lines.flatten

/-! ## The operations -/

/-- The text of the file, if there is one. -/
abbrev StoreOperation (α : Type) : Type :=
  Operation (Option (List Char)) String α

/-- The loop body of `_field_environment_names`. -/
def declareField (profile : Profile) (names : Dict String String) (field : String) :
    Except String (Dict String String) := do
  let name ← credentialEnvName sha ⟨profile.1, profile.2, field⟩
  require (!names.keys.contains field && !names.values.contains name) ambiguousIdentifier
  return names.set field name

/-- `_field_environment_names`, for the names of the fields. -/
def fieldEnvironmentNames (profile : Profile) (fields : List String) :
    Except String (Dict String String) := do
  let _ ← credentialEnvName sha ⟨profile.1, profile.2, "field"⟩
  fields.foldlM (declareField sha profile) []

/-- `CredentialStatus`. -/
structure CredentialStatus where
  profile : Profile
  requiredFields : List String
  presentFields : List String
  missingFields : List String
  configured : Bool
  deriving DecidableEq

/-- `_status_from_document`. -/
def statusFromDocument (profile : Profile) (names : Dict String String) (document : Document) :
    CredentialStatus :=
  let present :=
    Dict.keys (names.filter fun entry => (document.values.get entry.2).getD "" != "")
  let missing := names.keys.filter fun field => !present.contains field
  ⟨profile, names.keys, present, missing, missing.isEmpty⟩

/-- What `save` does to the values and to the fields of the profile, for one of the values. -/
structure Update where
  values : Dict String String
  fields : Dict String String

def updateField (profile : Profile) (owners : Dict String Profile) (names : Dict String String)
    (update : Update) (entry : String × String) : Except String Update := do
  let name := (names.get entry.1).getD ""
  require (((owners.get name).getD profile) == profile) ambiguousIdentifier
  if entry.2 = "" then
    return ⟨update.values.remove name, update.fields.remove entry.1⟩
  else
    return ⟨update.values.set name entry.2, update.fields.set entry.1 name⟩

/-- The profile that owns each name. -/
def Document.owners (document : Document) : Dict String Profile :=
  Dict.setAll [] (document.profiles.flatMap fun entry => entry.2.values.map (·, entry.1))

/-- The document with the values saved. -/
def Document.update (document : Document) (profile : Profile) (names values : Dict String String) :
    Except String Document := do
  let fields := (document.profiles.get profile).getD []
  let updated ← values.foldlM (updateField profile document.owners names)
    ⟨document.values, fields⟩
  return ⟨updated.values,
    if updated.fields.isEmpty then document.profiles.remove profile
    else document.profiles.set profile updated.fields⟩

variable (reader : DotenvReader)

/-- `_read`. -/
def readDocument : StoreOperation Document :=
  check fun
    | none => .ok Document.empty
    | some text => parseDotenvText sha reader text

/-- `_write`. -/
def writeDocument (document : Document) : StoreOperation Unit := do
  let text ← check fun _ => serializeDocument sha document
  let parsed ← check fun _ => parseDotenvText sha reader text
  check fun _ => require (parsed.same document) invalidFile
  modify fun _ => some text

/-- `save`. -/
def save (profile : Profile) (values : Dict String String) (fields : List String) :
    StoreOperation CredentialStatus := do
  let names ← check fun _ => fieldEnvironmentNames sha profile fields
  check fun _ => require (values.keys.all (names.keys.contains ·)) "undeclared_credential_field"
  check fun _ => values.values.forM rejectControlOrFormatCharacters
  let document ← readDocument sha reader
  let updated ← check fun _ => document.update profile names values
  writeDocument sha reader updated
  let persisted ← readDocument sha reader
  return statusFromDocument profile names persisted

/-- `load`. -/
def load (profile : Profile) (fields : List String) : StoreOperation (Dict String String) := do
  let names ← check fun _ => fieldEnvironmentNames sha profile fields
  let document ← readDocument sha reader
  return names.filterMap fun entry =>
    match document.values.get entry.2 with
    | some value => if value = "" then none else some (entry.1, value)
    | none => none

/-- `_profile_matches`. -/
def profileMatches (connectorId? environment? : Option String) (profile : Profile) : Bool :=
  connectorId?.all (profile.1 == ·) && environment?.all (profile.2 == ·)

/-- The loop body of `clear` for one field of a profile that matches. -/
def clearField (profile : Profile) (names : List String) (entry : String × String) :
    Except String (List String) := do
  let name ← credentialEnvName sha ⟨profile.1, profile.2, entry.1⟩
  require (entry.2 == name) invalidFile
  return if names.contains name then names else name :: names

def clearProfile (connectorId? environment? : Option String) (names : List String)
    (entry : Profile × Dict String String) : Except String (List String) :=
  if profileMatches connectorId? environment? entry.1 then
    entry.2.foldlM (clearField sha entry.1) names
  else .ok names

/-- The document without the names. -/
def Document.clear (document : Document) (names : List String) : Document where
  values := document.values.removeAll names
  profiles := document.profiles.filterMap fun entry =>
    let remaining := entry.2.filter fun field => !names.contains field.2
    if remaining.isEmpty then none else some (entry.1, remaining)

def validateOptional : Option String → Except String Unit
  | none => .ok ()
  | some value => validateIdentifier value

/-- `clear` with `clear_all=False`. -/
def clear (connectorId? environment? : Option String) : StoreOperation Nat := do
  check fun _ => require (connectorId?.isSome || environment?.isSome)
    "credential_clear_scope_required"
  check fun _ => validateOptional connectorId?
  check fun _ => validateOptional environment?
  let document ← readDocument sha reader
  let names ← check fun _ =>
    document.profiles.foldlM (clearProfile sha connectorId? environment?) []
  if names.isEmpty then
    return 0
  else do
    writeDocument sha reader (document.clear names)
    return names.length

/-- `clear` with `clear_all=True`. -/
def clearAll (connectorId? environment? : Option String) : StoreOperation Nat := do
  check fun _ => require (connectorId?.isNone && environment?.isNone)
    "credential_clear_scope_ambiguous"
  let document ← readDocument sha reader
  modify fun _ => none
  return document.values.length

end

end MercuryTools.Local
