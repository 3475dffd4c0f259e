import MercuryTools.Framework.AsciiJson
import MercuryTools.Framework.Checks
import MercuryTools.Hosted.Fields

/-!
# Credential bindings and envelopes

`credentials/models.py`: what a provider credential is bound to, the envelope that carries it
encrypted, and the additional authenticated data of a binding.

Byte strings are lists of bytes.  Timestamps carry their offset and are given as instants.
-/

namespace MercuryTools.Credentials

open Checks Hosted JsonText

abbrev Bytes := List UInt8

/-! ## Fields -/

def isLowerAlnum (c : Char) : Bool :=
  ('a' ≤ c && c ≤ 'z') || ('0' ≤ c && c ≤ '9')

/-- `[a-z0-9]*(?:[._-][a-z0-9]+)*$`, after a separator or not. -/
def isIdentifierRest (separated : Bool) : List Char → Bool
  | [] => !separated
  | c :: cs =>
      if isLowerAlnum c then isIdentifierRest false cs
      else !separated && (c == '.' || c == '_' || c == '-') && isIdentifierRest true cs

/-- `_IDENTIFIER`: `^[a-z][a-z0-9]*(?:[._-][a-z0-9]+)*$`, of at most 64 characters. -/
def isIdentifier (s : String) : Bool :=
  s.toList.length ≤ 64 &&
    match s.toList with
    | [] => false
    | c :: cs => ('a' ≤ c && c ≤ 'z') && isIdentifierRest false cs

/-- The code points of category `Cc`. -/
def isControl (c : Char) : Bool :=
  c.toNat ≤ 0x1f || (0x7f ≤ c.toNat && c.toNat ≤ 0x9f)

/-- The code points of category `Cf`. -/
def formatRanges : List (Nat × Nat) :=
  [(0xad, 0xad), (0x600, 0x605), (0x61c, 0x61c), (0x6dd, 0x6dd), (0x70f, 0x70f), (0x890, 0x891),
    (0x8e2, 0x8e2), (0x180e, 0x180e), (0x200b, 0x200f), (0x202a, 0x202e), (0x2060, 0x2064),
    (0x2066, 0x206f), (0xfeff, 0xfeff), (0xfff9, 0xfffb), (0x110bd, 0x110bd), (0x110cd, 0x110cd),
    (0x13430, 0x1343f), (0x1bca0, 0x1bca3), (0x1d173, 0x1d17a), (0xe0001, 0xe0001),
    (0xe0020, 0xe007f)]

def isFormat (c : Char) : Bool :=
  formatRanges.any fun range => range.1 ≤ c.toNat && c.toNat ≤ range.2

/-- `company_or_merchant_id`: its length and `_reject_unsafe_text`. -/
def isSafeText (s : String) : Bool :=
  1 ≤ s.toList.length && s.toList.length ≤ 512 && !s.toList.any fun c => isControl c || isFormat c

/-! ## Bindings -/

/-- `CredentialBinding`. -/
@[ext]
structure CredentialBinding where
  tenantId : UUID
  workspaceId : UUID
  authUserId : UUID
  connectionId : UUID
  provider : String
  companyOrMerchantId : String
  environment : String
  credentialType : String
  identifiers : ([provider, environment, credentialType].all isIdentifier) = true
  safe : isSafeText companyOrMerchantId = true
  ids : (([tenantId, workspaceId, authUserId, connectionId] : List UUID).all (· != 0)) = true
  deriving DecidableEq

/-- The digit of a value at a power of 16. -/
def hexDigit (value : UUID) (i : Nat) : Char :=
  Nat.digitChar (value.toNat / 16 ^ i % 16)

/-- `%032x` -/
def uuidHex (value : UUID) : List Char :=
  (List.range 32).map fun i => hexDigit value (31 - i)

/-- `str` of a UUID. -/
def uuidText (value : UUID) : String :=
  let hex := uuidHex value
  String.ofList (hex.take 8 ++ '-' :: ((hex.drop 8).take 4 ++ '-' :: ((hex.drop 12).take 4 ++
    '-' :: ((hex.drop 16).take 4 ++ '-' :: hex.drop 20))))

def aadVersion : String := "mercury-provider-credential-aad-v1"

/-- The payload of `credential_aad`. -/
def aadPayload (binding : CredentialBinding) (keyVersion : String) : List (String × Json) :=
  [ ("aad_version", .str aadVersion),
    ("auth_user_id", .str (uuidText binding.authUserId)),
    ("company_or_merchant_id", .str binding.companyOrMerchantId),
    ("connection_id", .str (uuidText binding.connectionId)),
    ("credential_type", .str binding.credentialType),
    ("environment", .str binding.environment),
    ("key_version", .str keyVersion),
    ("provider", .str binding.provider),
    ("tenant_id", .str (uuidText binding.tenantId)),
    ("workspace_id", .str (uuidText binding.workspaceId))]

/-- `credential_aad`, for a key version that has been validated. -/
def credentialAad (binding : CredentialBinding) (keyVersion : String) : Bytes :=
  encodeAscii (asciiStyle.write (.obj (aadPayload binding keyVersion)))

/-! ### The additional authenticated data tells bindings apart -/

/-- A number of so many hexadecimal digits is determined by them. -/
lemma eq_of_hexDigits {k m n : Nat} (hm : m < 16 ^ k) (hn : n < 16 ^ k)
    (h : ∀ i < k, m / 16 ^ i % 16 = n / 16 ^ i % 16) : m = n := by
  induction k generalizing m n with
  | zero =>
      rw [Nat.pow_zero] at hm hn
      omega
  | succ k ih =>
      have hlast := h 0 (Nat.zero_lt_succ k)
      rw [Nat.pow_zero, Nat.div_one, Nat.div_one] at hlast
      have hrest : m / 16 = n / 16 := by
        rw [Nat.pow_succ] at hm hn
        apply ih (by omega) (by omega)
        intro i hi
        have hdigit := h (i + 1) (Nat.succ_lt_succ hi)
        rwa [Nat.pow_succ', ← Nat.div_div_eq_div_mul, ← Nat.div_div_eq_div_mul] at hdigit
      omega

lemma digitChar_inj : ∀ d < 16, ∀ e < 16, Nat.digitChar d = Nat.digitChar e → d = e := by decide

lemma uuidHex_inj {value other : UUID} (h : uuidHex value = uuidHex other) : value = other := by
  apply BitVec.eq_of_toNat_eq
  apply eq_of_hexDigits (k := 32) value.isLt other.isLt
  intro i hi
  have hdigit := List.map_inj_left.1 h (31 - i) (List.mem_range.2 (by omega))
  rw [hexDigit, hexDigit, show 31 - (31 - i) = i by omega] at hdigit
  exact digitChar_inj _ (Nat.mod_lt _ (by decide)) _ (Nat.mod_lt _ (by decide)) hdigit

lemma length_uuidHex (value : UUID) : (uuidHex value).length = 32 := by
  rw [uuidHex, List.length_map, List.length_range]

lemma uuidText_inj {value other : UUID} (h : uuidText value = uuidText other) : value = other := by
  apply uuidHex_inj
  have hparts : ∀ {n : Nat} {a b r s : List Char}, a.length = n → b.length = n →
      a ++ '-' :: r = b ++ '-' :: s → a = b ∧ r = s := by
    intro n a b r s ha hb heq
    obtain ⟨hab, hrs⟩ := List.append_inj heq (ha.trans hb.symm)
    exact ⟨hab, (List.cons.inj hrs).2⟩
  have htake : ∀ (value : UUID) (i : Nat), i + 4 ≤ 32 →
      (((uuidHex value).drop i).take 4).length = 4 := by
    intro value i hi
    rw [List.length_take, List.length_drop, length_uuidHex]
    omega
  have hfirst : ∀ value : UUID, ((uuidHex value).take 8).length = 8 := by
    intro value
    rw [List.length_take, length_uuidHex]
    rfl
  obtain ⟨h₁, h⟩ := hparts (hfirst value) (hfirst other) (String.ofList_inj.1 h)
  obtain ⟨h₂, h⟩ := hparts (htake value 8 (by decide)) (htake other 8 (by decide)) h
  obtain ⟨h₃, h⟩ := hparts (htake value 12 (by decide)) (htake other 12 (by decide)) h
  obtain ⟨h₄, h₅⟩ := hparts (htake value 16 (by decide)) (htake other 16 (by decide)) h
  have hsplit : ∀ hex : List Char, hex = hex.take 8 ++ ((hex.drop 8).take 4 ++
      ((hex.drop 12).take 4 ++ ((hex.drop 16).take 4 ++ hex.drop 20))) := by
    intro hex
    have hfour : ∀ i, (hex.drop i).take 4 ++ hex.drop (i + 4) = hex.drop i := by
      intro i
      rw [← List.drop_drop, List.take_append_drop]
    rw [hfour 16, hfour 12, hfour 8, List.take_append_drop]
  rw [hsplit (uuidHex value), hsplit (uuidHex other), h₁, h₂, h₃, h₄, h₅]

lemma text_eq_of_same {fields fields' : List (String × Json)}
    (h : Json.Same (.obj fields) (.obj fields')) {key text text' : String}
    (hmem : (key, .str text) ∈ fields)
    (honly : ∀ value, (key, value) ∈ fields' → value = .str text') : text = text' := by
  obtain ⟨value, hvalue, hsame⟩ := h.exists_field hmem
  rw [honly value hvalue] at hsame
  cases hsame
  rfl

/-- The data determine the binding and the key version. -/
theorem credentialAad_inj {binding binding' : CredentialBinding} {keyVersion keyVersion' : String}
    (h : credentialAad binding keyVersion = credentialAad binding' keyVersion') :
    binding = binding' ∧ keyVersion = keyVersion' := by
  have hsame : Json.Same (.obj (aadPayload binding keyVersion))
      (.obj (aadPayload binding' keyVersion')) :=
    same_of_encodeAscii_write (by rfl) (by rfl) h
  have hfield : ∀ (key : String) (text : CredentialBinding → String → String),
      (∀ b v, (key, .str (text b v)) ∈ aadPayload b v ∧
        ∀ value, (key, value) ∈ aadPayload b v → value = .str (text b v)) →
      text binding keyVersion = text binding' keyVersion' :=
    fun key text htext => text_eq_of_same hsame (htext _ _).1 (htext _ _).2
  have htenant := hfield "tenant_id" (fun b _ => uuidText b.tenantId) (by simp [aadPayload])
  have hworkspace := hfield "workspace_id" (fun b _ => uuidText b.workspaceId)
    (by simp [aadPayload])
  have huser := hfield "auth_user_id" (fun b _ => uuidText b.authUserId) (by simp [aadPayload])
  have hconnection := hfield "connection_id" (fun b _ => uuidText b.connectionId)
    (by simp [aadPayload])
  have hprovider := hfield "provider" (fun b _ => b.provider) (by simp [aadPayload])
  have hcompany := hfield "company_or_merchant_id" (fun b _ => b.companyOrMerchantId)
    (by simp [aadPayload])
  have henvironment := hfield "environment" (fun b _ => b.environment) (by simp [aadPayload])
  have htype := hfield "credential_type" (fun b _ => b.credentialType) (by simp [aadPayload])
  refine ⟨?_, hfield "key_version" (fun _ v => v) (by simp [aadPayload])⟩
  exact CredentialBinding.ext (uuidText_inj htenant) (uuidText_inj hworkspace) (uuidText_inj huser)
    (uuidText_inj hconnection) hprovider hcompany henvironment htype

/-! ## Envelopes -/

/-- `CredentialEnvelope`. -/
structure CredentialEnvelope where
  id : UUID
  tenantId : UUID
  workspaceId : UUID
  authUserId : UUID
  connectionId : UUID
  provider : String
  environment : String
  credentialType : String
  keyVersion : String
  nonce : Bytes
  ciphertext : Bytes
  aadHash : Bytes
  createdAt : Instant
  rotatedAt : Option Instant
  revokedAt : Option Instant
  deriving DecidableEq

namespace CredentialEnvelope

variable (envelope : CredentialEnvelope)

/-- The fields and `validate_lifecycle`. -/
def isValid : Bool :=
  ([envelope.provider, envelope.environment, envelope.credentialType, envelope.keyVersion].all
      isIdentifier) &&
    envelope.nonce.length == 12 && 16 ≤ envelope.ciphertext.length &&
    envelope.aadHash.length == 32 &&
    (([envelope.id, envelope.tenantId, envelope.workspaceId, envelope.authUserId,
      envelope.connectionId] : List UUID).all (· != 0)) &&
    (envelope.rotatedAt.all fun t => envelope.createdAt ≤ t) &&
    envelope.revokedAt.all fun t => envelope.createdAt ≤ t

/-- `_metadata_matches`, which compares everything but the company. -/
def metadataMatches (binding : CredentialBinding) : Bool :=
  envelope.tenantId == binding.tenantId && envelope.workspaceId == binding.workspaceId &&
    envelope.authUserId == binding.authUserId && envelope.connectionId == binding.connectionId &&
    envelope.provider == binding.provider && envelope.environment == binding.environment &&
    envelope.credentialType == binding.credentialType

end CredentialEnvelope

end MercuryTools.Credentials
