import MercuryTools.Credentials.Models
import MercuryTools.Framework.Aead
import MercuryTools.Framework.Dictionaries

/-!
# The credential vault

`credentials/vault.py`: a vault seals a plaintext under its active key, opens an envelope under the
key of its version, and rotates an envelope to its own active key.

The cipher and the digest come from a `Crypto`.  Of the cipher it is assumed that it is ideal for
the encryptions that have been performed (`Aead.Ideal`).  The digest may be any function: it is
compared, but the cipher authenticates what has been digested.
-/

namespace MercuryTools.Credentials

open Aead Checks Hosted

/-! ## Vaults -/

inductive VaultError where
  | bindingMismatch
  | decryptionFailed
  | envelopeInvalid
  | keyVersionUnknown
  | plaintextInvalid
  | revoked
  | clockInvalid
  | raised (exception : String)
  deriving DecidableEq

/-- AES-GCM and SHA-256. -/
structure Crypto where
  cipher : Cipher Bytes Bytes
  digest : Bytes → Bytes

/-- The checks of `__init__`. -/
def configurationIsValid (activeKeyVersion : String) (keys : Dict String Bytes) : Bool :=
  isIdentifier activeKeyVersion && (keys.get activeKeyVersion).isSome &&
    keys.all fun entry => isIdentifier entry.1 && entry.2.length == 32

/-- `CredentialVault`. -/
structure CredentialVault where
  activeKeyVersion : String
  keys : Dict String Bytes
  valid : configurationIsValid activeKeyVersion keys = true

namespace CredentialVault

/-- `__init__`. -/
def create (activeKeyVersion : String) (keys : Dict String Bytes) : Except String CredentialVault :=
  if h : configurationIsValid activeKeyVersion keys = true then .ok ⟨activeKeyVersion, keys, h⟩
  else .error "credential_vault_configuration_invalid"

variable (crypto : Crypto) (vault : CredentialVault)

lemma isSome_activeKey : (vault.keys.get vault.activeKeyVersion).isSome = true := by
  have h := vault.valid
  unfold configurationIsValid at h
  simp only [Bool.and_eq_true] at h
  exact h.1.2

def activeKey : Bytes :=
  (vault.keys.get vault.activeKeyVersion).get vault.isSome_activeKey

/-- What the nonce factory, the clock and `uuid4` return in a call; the clock may be naive. -/
structure Draws where
  nonce : Bytes
  now : Option Instant
  id : UUID

/-- `_timestamp`. -/
def timestamp (draws : Draws) : Except VaultError Instant :=
  match draws.now with
  | some now => .ok now
  | none => .error .clockInvalid

/-- The encryption that sealing performs. -/
def encryption (draws : Draws) (binding : CredentialBinding) (plaintext : Bytes) :
    Encryption Bytes Bytes :=
  ⟨vault.activeKey, draws.nonce, plaintext, credentialAad binding vault.activeKeyVersion⟩

/-- `encrypt`, with the exceptions that `_seal` maps. -/
def encrypt (e : Encryption Bytes Bytes) : Except VaultError Bytes :=
  match crypto.cipher.encrypt e.key e.nonce e.plaintext e.data with
  | .ok ciphertext => .ok ciphertext
  | .error exception =>
      if exception = "TypeError" ∨ exception = "ValueError" then .error .plaintextInvalid
      else .error (.raised exception)

/-- `created_at or self._timestamp()` -/
def creation (draws : Draws) : Option Instant → Except VaultError Instant
  | some created => .ok created
  | none => timestamp draws

/-- The envelope that `_seal` builds. -/
def sealedEnvelope (draws : Draws) (binding : CredentialBinding) (ciphertext : Bytes) (id : UUID)
    (created : Instant) (rotatedAt : Option Instant) : CredentialEnvelope where
  id := id
  tenantId := binding.tenantId
  workspaceId := binding.workspaceId
  authUserId := binding.authUserId
  connectionId := binding.connectionId
  provider := binding.provider
  environment := binding.environment
  credentialType := binding.credentialType
  keyVersion := vault.activeKeyVersion
  nonce := draws.nonce
  ciphertext := ciphertext
  aadHash := crypto.digest (credentialAad binding vault.activeKeyVersion)
  createdAt := created
  rotatedAt := rotatedAt
  revokedAt := none

/-- `_seal`. -/
def sealAs (draws : Draws) (binding : CredentialBinding) (plaintext : Bytes)
    (envelopeId : Option UUID) (createdAt rotatedAt : Option Instant) :
    Except VaultError CredentialEnvelope := do
  require (draws.nonce.length == 12) .envelopeInvalid
  let ciphertext ← encrypt crypto (vault.encryption draws binding plaintext)
  let created ← creation draws createdAt
  let envelope := vault.sealedEnvelope crypto draws binding ciphertext
    (envelopeId.getD draws.id) created rotatedAt
  require envelope.isValid .envelopeInvalid
  return envelope

/-- `seal`. -/
def sealEnvelope (draws : Draws) (binding : CredentialBinding) (plaintext : Bytes) :
    Except VaultError CredentialEnvelope := do
  require (!plaintext.isEmpty) .plaintextInvalid
  vault.sealAs crypto draws binding plaintext none none none

/-- `open`. -/
def openEnvelope (binding : CredentialBinding) (envelope : CredentialEnvelope) :
    Except VaultError Bytes := do
  require envelope.isValid .envelopeInvalid
  require envelope.revokedAt.isNone .revoked
  require (envelope.metadataMatches binding) .bindingMismatch
  match vault.keys.get envelope.keyVersion with
  | none => .error .keyVersionUnknown
  | some key => do
      let aad := credentialAad binding envelope.keyVersion
      require (crypto.digest aad == envelope.aadHash) .decryptionFailed
      match crypto.cipher.decrypt key envelope.nonce envelope.ciphertext aad with
      | none => .error .decryptionFailed
      | some plaintext => return plaintext

/-- `rotate`. -/
def rotate (draws : Draws) (binding : CredentialBinding) (envelope : CredentialEnvelope) :
    Except VaultError CredentialEnvelope := do
  let plaintext ← vault.openEnvelope crypto binding envelope
  let now ← timestamp draws
  vault.sealAs crypto draws binding plaintext (some envelope.id) (some envelope.createdAt)
    (some now)

end CredentialVault

/-! ## What an envelope carries -/

/-- The fields of an envelope that an alteration of the identifier or of the timestamps leaves. -/
structure SameStored (e e' : CredentialEnvelope) : Prop where
  tenantId : e'.tenantId = e.tenantId
  workspaceId : e'.workspaceId = e.workspaceId
  authUserId : e'.authUserId = e.authUserId
  connectionId : e'.connectionId = e.connectionId
  provider : e'.provider = e.provider
  environment : e'.environment = e.environment
  credentialType : e'.credentialType = e.credentialType
  keyVersion : e'.keyVersion = e.keyVersion
  nonce : e'.nonce = e.nonce
  ciphertext : e'.ciphertext = e.ciphertext
  aadHash : e'.aadHash = e.aadHash

variable {e : CredentialEnvelope}

lemma CredentialEnvelope.metadataMatches_iff {b : CredentialBinding} :
    e.metadataMatches b = true ↔ e.tenantId = b.tenantId ∧ e.workspaceId = b.workspaceId ∧
      e.authUserId = b.authUserId ∧ e.connectionId = b.connectionId ∧ e.provider = b.provider ∧
        e.environment = b.environment ∧ e.credentialType = b.credentialType := by
  unfold CredentialEnvelope.metadataMatches
  simp only [Bool.and_eq_true, beq_iff_eq, and_assoc]

/-- The envelope carries the plaintext for the binding, encrypted under the key. -/
structure Carries (crypto : Crypto) (performed : Encryption Bytes Bytes → Prop) (key : Bytes)
    (b : CredentialBinding) (plaintext : Bytes) (e : CredentialEnvelope) : Prop where
  valid : e.isValid = true
  metadata : e.metadataMatches b = true
  performs : performed ⟨key, e.nonce, plaintext, credentialAad b e.keyVersion⟩
  produces : Encryption.Produces crypto.cipher
    ⟨key, e.nonce, plaintext, credentialAad b e.keyVersion⟩ e.ciphertext
  aadHash : e.aadHash = crypto.digest (credentialAad b e.keyVersion)
  revokedAt : e.revokedAt = none

namespace CredentialVault

variable {crypto : Crypto} {vault : CredentialVault} {draws : Draws}
  {b b' : CredentialBinding} {e e' : CredentialEnvelope} {plaintext : Bytes}

variable {ciphertext : Bytes} {envelopeId : Option UUID} {createdAt rotatedAt : Option Instant}

lemma encrypt_eq_ok {encryption : Encryption Bytes Bytes} :
    encrypt crypto encryption = .ok ciphertext ↔ encryption.Produces crypto.cipher ciphertext := by
  unfold encrypt Encryption.Produces
  split
  · rename_i heq
    rw [heq]
    simp
  · rename_i exception heq
    rw [heq]
    split <;> simp

/-- What `_seal` returns. -/
lemma sealAs_eq_ok (performed : Encryption Bytes Bytes → Prop)
    (hperformed : performed (vault.encryption draws b plaintext))
    (h : vault.sealAs crypto draws b plaintext envelopeId createdAt rotatedAt = .ok e) :
    Carries crypto performed vault.activeKey b plaintext e ∧
      e.keyVersion = vault.activeKeyVersion ∧ e.id = envelopeId.getD draws.id ∧
        ∀ created, createdAt = some created → e.createdAt = created := by
  unfold sealAs at h
  simp only [bind_eq_ok, require_eq_ok, pure_eq_ok] at h
  obtain ⟨-, hnonce, ciphertext, hencrypt, created, hcreated, -, hvalid, rfl⟩ := h
  refine ⟨⟨hvalid, ?_, hperformed, encrypt_eq_ok.1 hencrypt, rfl, rfl⟩, rfl, rfl, ?_⟩
  · exact CredentialEnvelope.metadataMatches_iff.2 ⟨rfl, rfl, rfl, rfl, rfl, rfl, rfl⟩
  · rintro _ rfl
    exact (Except.ok.inj hcreated).symm

/-- Where the envelope is valid, it is returned. -/
lemma sealAs_of_valid {created : Instant} (hnonce : draws.nonce.length = 12)
    (hproduces : (vault.encryption draws b plaintext).Produces crypto.cipher ciphertext)
    (hcreated : creation draws createdAt = .ok created)
    (hvalid : (vault.sealedEnvelope crypto draws b ciphertext (envelopeId.getD draws.id) created
      rotatedAt).isValid = true) :
    vault.sealAs crypto draws b plaintext envelopeId createdAt rotatedAt =
      .ok (vault.sealedEnvelope crypto draws b ciphertext (envelopeId.getD draws.id) created
        rotatedAt) := by
  unfold sealAs
  simp only [bind_eq_ok, require_eq_ok, pure_eq_ok]
  exact ⟨(), beq_iff_eq.2 hnonce, ciphertext, encrypt_eq_ok.2 hproduces, created, hcreated, (),
    hvalid, rfl⟩

/-- When an envelope opens, and to what. -/
lemma openEnvelope_eq_ok : vault.openEnvelope crypto b e = .ok plaintext ↔
    e.isValid = true ∧ e.revokedAt = none ∧ e.metadataMatches b = true ∧
      crypto.digest (credentialAad b e.keyVersion) = e.aadHash ∧
        ∃ key, vault.keys.get e.keyVersion = some key ∧
          crypto.cipher.decrypt key e.nonce e.ciphertext (credentialAad b e.keyVersion) =
            some plaintext := by
  unfold openEnvelope
  cases hkey : vault.keys.get e.keyVersion with
  | none => simp
  | some key =>
      cases hdecrypt : crypto.cipher.decrypt key e.nonce e.ciphertext
        (credentialAad b e.keyVersion) with
      | none => simp [hdecrypt]
      | some opened => simp [hdecrypt, map_eq_ok]

end CredentialVault

/-! ## Chains of rotations -/

/-- The envelopes that come of sealing the plaintext for the binding and rotating, each time by a
vault that has the key of the envelope. -/
inductive Chain (crypto : Crypto) (performed : Encryption Bytes Bytes → Prop)
    (b : CredentialBinding) (plaintext : Bytes) : Bytes → CredentialEnvelope → Prop where
  | sealed {vault : CredentialVault} {draws : CredentialVault.Draws} {e : CredentialEnvelope}
      (hperformed : performed (vault.encryption draws b plaintext))
      (h : vault.sealEnvelope crypto draws b plaintext = .ok e) :
      Chain crypto performed b plaintext vault.activeKey e
  | rotated {key : Bytes} {e : CredentialEnvelope}
      (hchain : Chain crypto performed b plaintext key e) {vault : CredentialVault}
      {draws : CredentialVault.Draws} {b' : CredentialBinding}
      {e' : CredentialEnvelope} (hkey : vault.keys.get e.keyVersion = some key)
      (hperformed : ∀ opened, vault.openEnvelope crypto b' e = .ok opened →
        performed (vault.encryption draws b' opened))
      (h : vault.rotate crypto draws b' e = .ok e') :
      Chain crypto performed b plaintext vault.activeKey e'

section

variable {crypto : Crypto} {performed : Encryption Bytes Bytes → Prop}
  {key plaintext opened : Bytes} {b b' : CredentialBinding} {e e' : CredentialEnvelope}
  {vault : CredentialVault}

/-- The metadata of an envelope that matches two bindings. -/
lemma SameStored.metadataMatches (h : SameStored e e') :
    e'.metadataMatches b = e.metadataMatches b := by
  unfold CredentialEnvelope.metadataMatches
  rw [h.tenantId, h.workspaceId, h.authUserId, h.connectionId, h.provider, h.environment,
    h.credentialType]

/-- Whatever opens with the ciphertext, or with the nonce and the key version, of an envelope, opens
under its binding to its plaintext and has its stored fields. -/
lemma Carries.of_open (hideal : Ideal crypto.cipher performed)
    (h : Carries crypto performed key b plaintext e)
    (hkey : vault.keys.get e.keyVersion = some key)
    (hsame : e'.ciphertext = e.ciphertext ∨ e'.nonce = e.nonce ∧ e'.keyVersion = e.keyVersion)
    (hopen : vault.openEnvelope crypto b' e' = .ok opened) :
    b' = b ∧ e'.revokedAt = none ∧ opened = plaintext ∧ SameStored e e' := by
  obtain ⟨-, hrevoked, hmetadata, hhash, key', hkey', hdecrypt⟩ :=
    CredentialVault.openEnvelope_eq_ok.1 hopen
  have hciphertext : e'.ciphertext = e.ciphertext := by
    rcases hsame with hsame | ⟨hnonce, hversion⟩
    · exact hsame
    · rw [hversion, hkey, Option.some.injEq] at hkey'
      subst hkey'
      rw [hnonce] at hdecrypt
      exact hideal.of_nonce h.performs h.produces hdecrypt
  rw [hciphertext] at hdecrypt
  have hencryption := hideal.of_ciphertext h.performs h.produces hdecrypt
  obtain ⟨-, hnonce, hopened, hdata⟩ := Encryption.mk.inj hencryption
  obtain ⟨rfl, hversion⟩ := credentialAad_inj hdata
  refine ⟨rfl, hrevoked, hopened.symm, ?_⟩
  have hmetadata' := h.metadata
  rw [CredentialEnvelope.metadataMatches_iff] at hmetadata hmetadata'
  obtain ⟨h₁, h₂, h₃, h₄, h₅, h₆, h₇⟩ := hmetadata
  obtain ⟨h₁', h₂', h₃', h₄', h₅', h₆', h₇'⟩ := hmetadata'
  exact
    { tenantId := h₁.trans h₁'.symm
      workspaceId := h₂.trans h₂'.symm
      authUserId := h₃.trans h₃'.symm
      connectionId := h₄.trans h₄'.symm
      provider := h₅.trans h₅'.symm
      environment := h₆.trans h₆'.symm
      credentialType := h₇.trans h₇'.symm
      keyVersion := hversion.symm
      nonce := hnonce.symm
      ciphertext := hciphertext
      aadHash := by rw [← hhash, h.aadHash, hversion] }

/-- An envelope with the stored fields opens under the binding unless it is revoked. -/
lemma Carries.openEnvelope (hideal : Ideal crypto.cipher performed)
    (h : Carries crypto performed key b plaintext e)
    (hkey : vault.keys.get e.keyVersion = some key) (hsame : SameStored e e')
    (hvalid : e'.isValid = true) (hrevoked : e'.revokedAt = none) :
    vault.openEnvelope crypto b e' = .ok plaintext := by
  refine CredentialVault.openEnvelope_eq_ok.2 ⟨hvalid, hrevoked, ?_, ?_, key, ?_, ?_⟩
  · rw [hsame.metadataMatches]
    exact h.metadata
  · rw [hsame.keyVersion, hsame.aadHash, h.aadHash]
  · rw [hsame.keyVersion]
    exact hkey
  · rw [hsame.keyVersion, hsame.nonce, hsame.ciphertext]
    exact hideal.decrypts _ _ h.performs h.produces

/-- Every envelope of a chain carries the plaintext for the binding. -/
lemma Chain.carries (hideal : Ideal crypto.cipher performed)
    (h : Chain crypto performed b plaintext key e) :
    Carries crypto performed key b plaintext e := by
  induction h with
  | sealed hperformed h =>
      unfold CredentialVault.sealEnvelope at h
      simp only [bind_eq_ok] at h
      obtain ⟨-, -, h⟩ := h
      exact (CredentialVault.sealAs_eq_ok performed hperformed h).1
  | rotated hchain hkey hperformed h ih =>
      unfold CredentialVault.rotate at h
      simp only [bind_eq_ok] at h
      obtain ⟨opened, hopen, now, -, h⟩ := h
      obtain ⟨rfl, -, rfl, -⟩ := ih.of_open hideal hkey (.inl rfl) hopen
      exact (CredentialVault.sealAs_eq_ok performed (hperformed _ hopen) h).1

/-- What rotating keeps. -/
lemma CredentialVault.rotate_eq_ok {draws : CredentialVault.Draws}
    (h : vault.rotate crypto draws b e = .ok e') :
    (∃ opened, vault.openEnvelope crypto b e = .ok opened) ∧
      e'.id = e.id ∧ e'.metadataMatches b = true ∧ e'.createdAt = e.createdAt := by
  unfold CredentialVault.rotate at h
  simp only [bind_eq_ok] at h
  obtain ⟨opened, hopen, now, -, h⟩ := h
  obtain ⟨hcarries, -, hid, hcreated⟩ :=
    CredentialVault.sealAs_eq_ok (fun _ => True) trivial h
  exact ⟨⟨opened, hopen⟩, hid, hcarries.metadata, hcreated _ rfl⟩

end

/-- One stored field has another value, which is neither the identifier nor a timestamp. -/
inductive Alters (e : CredentialEnvelope) : CredentialEnvelope → Prop where
  | tenantId (value : UUID) (h : value ≠ e.tenantId) : Alters e { e with tenantId := value }
  | workspaceId (value : UUID) (h : value ≠ e.workspaceId) :
      Alters e { e with workspaceId := value }
  | authUserId (value : UUID) (h : value ≠ e.authUserId) : Alters e { e with authUserId := value }
  | connectionId (value : UUID) (h : value ≠ e.connectionId) :
      Alters e { e with connectionId := value }
  | provider (value : String) (h : value ≠ e.provider) : Alters e { e with provider := value }
  | environment (value : String) (h : value ≠ e.environment) :
      Alters e { e with environment := value }
  | credentialType (value : String) (h : value ≠ e.credentialType) :
      Alters e { e with credentialType := value }
  | keyVersion (value : String) (h : value ≠ e.keyVersion) : Alters e { e with keyVersion := value }
  | nonce (value : Bytes) (h : value ≠ e.nonce) : Alters e { e with nonce := value }
  | ciphertext (value : Bytes) (h : value ≠ e.ciphertext) : Alters e { e with ciphertext := value }
  | aadHash (value : Bytes) (h : value ≠ e.aadHash) : Alters e { e with aadHash := value }

/-- An altered envelope keeps its ciphertext, or its nonce and its key version. -/
lemma Alters.cases {e' : CredentialEnvelope} (h : Alters e e') :
    (e'.ciphertext = e.ciphertext ∨ e'.nonce = e.nonce ∧ e'.keyVersion = e.keyVersion) ∧
      ¬ SameStored e e' := by
  cases h with
  | tenantId value h => exact ⟨.inl rfl, fun hsame => h hsame.tenantId⟩
  | workspaceId value h => exact ⟨.inl rfl, fun hsame => h hsame.workspaceId⟩
  | authUserId value h => exact ⟨.inl rfl, fun hsame => h hsame.authUserId⟩
  | connectionId value h => exact ⟨.inl rfl, fun hsame => h hsame.connectionId⟩
  | provider value h => exact ⟨.inl rfl, fun hsame => h hsame.provider⟩
  | environment value h => exact ⟨.inl rfl, fun hsame => h hsame.environment⟩
  | credentialType value h => exact ⟨.inl rfl, fun hsame => h hsame.credentialType⟩
  | keyVersion value h => exact ⟨.inl rfl, fun hsame => h hsame.keyVersion⟩
  | nonce value h => exact ⟨.inl rfl, fun hsame => h hsame.nonce⟩
  | ciphertext value h => exact ⟨.inr ⟨rfl, rfl⟩, fun hsame => h hsame.ciphertext⟩
  | aadHash value h => exact ⟨.inl rfl, fun hsame => h hsame.aadHash⟩

/-- An envelope that comes of sealing a plaintext and any chain of rotations opens under exactly the
binding it was sealed for, to the plaintext, unless it is revoked.  Rotating keeps its identifier,
its metadata and the time of its creation, and no altered envelope opens. -/
theorem openEnvelope_iff_of_chain {crypto : Crypto} {performed : Encryption Bytes Bytes → Prop}
    (hideal : Ideal crypto.cipher performed) {b : CredentialBinding} {plaintext key : Bytes}
    {e : CredentialEnvelope} (hchain : Chain crypto performed b plaintext key e)
    {vault : CredentialVault} (hkey : vault.keys.get e.keyVersion = some key)
    (b' : CredentialBinding) :
    (∀ e', SameStored e e' → e'.isValid = true → ∀ opened,
      vault.openEnvelope crypto b' e' = .ok opened ↔
        (b' = b ∧ e'.revokedAt = none) ∧ opened = plaintext) ∧
    (∀ draws e', vault.rotate crypto draws b' e = .ok e' →
      e'.id = e.id ∧ e'.metadataMatches b = true ∧ e'.createdAt = e.createdAt) ∧
    ∀ e', Alters e e' → ∀ opened, vault.openEnvelope crypto b' e' ≠ .ok opened := by
  have hcarries := hchain.carries hideal
  refine ⟨fun e' hsame hvalid opened => ?_, fun draws e' hrotate => ?_, fun e' halters opened => ?_⟩
  · constructor
    · intro hopen
      obtain ⟨hb, hrevoked, hopened, -⟩ :=
        hcarries.of_open hideal hkey (.inl hsame.ciphertext) hopen
      exact ⟨⟨hb, hrevoked⟩, hopened⟩
    · rintro ⟨⟨rfl, hrevoked⟩, rfl⟩
      exact hcarries.openEnvelope hideal hkey hsame hvalid hrevoked
  · obtain ⟨⟨opened, hopen⟩, hid, hmetadata, hcreated⟩ := CredentialVault.rotate_eq_ok hrotate
    obtain ⟨rfl, -⟩ := hcarries.of_open hideal hkey (.inl rfl) hopen
    exact ⟨hid, hmetadata, hcreated⟩
  · obtain ⟨hkept, hnot⟩ := halters.cases
    exact fun hopen => hnot (hcarries.of_open hideal hkey hkept hopen).2.2.2

/-! ## A token of two companies -/

namespace CompanyToken

def binding (company : String) (h : isSafeText company = true) : CredentialBinding where
  tenantId := 1
  workspaceId := 2
  authUserId := 3
  connectionId := 4
  provider := "flowaccount"
  companyOrMerchantId := company
  environment := "sandbox"
  credentialType := "oauth"
  identifiers := by decide
  safe := h
  ids := by decide

def first : CredentialBinding := binding "a" (by decide)

def second : CredentialBinding := binding "b" (by decide)

def key (byte : UInt8) : Bytes := List.replicate 32 byte

def oldVault : CredentialVault := ⟨"k1", [("k1", key 1)], by decide⟩

def newVault : CredentialVault := ⟨"k2", [("k2", key 2), ("k1", key 1)], by decide⟩

def draws (byte : UInt8) : CredentialVault.Draws := ⟨List.replicate 12 byte, some 0, 5⟩

def token : Bytes := [116, 111, 107, 101, 110]

/-- Sealing the token, and rotating it. -/
def encryptions : List (Encryption Bytes Bytes) :=
  [oldVault.encryption (draws 1) first token, newVault.encryption (draws 2) first token]

def tagged (e : Encryption Bytes Bytes) : Bytes :=
  e.plaintext ++ e.nonce ++ [0, 0, 0, 0]

def crypto : Crypto where
  cipher := listed tagged encryptions
  digest message := List.replicate 32 (message.foldl (· + ·) 0)

lemma ideal_crypto : Ideal crypto.cipher (· ∈ encryptions) := by
  have hkeys : oldVault.activeKey ≠ newVault.activeKey := by decide
  have htags : tagged (oldVault.encryption (draws 1) first token) ≠
      tagged (newVault.encryption (draws 2) first token) := by decide
  apply ideal_listed
  · simp only [encryptions, List.forall_mem_cons, List.not_mem_nil, false_imp_iff, implies_true,
      and_true, true_and]
    exact ⟨fun h => absurd h hkeys, fun h => absurd h.symm hkeys⟩
  · simp only [encryptions, List.forall_mem_cons, List.not_mem_nil, false_imp_iff, implies_true,
      and_true, true_and]
    exact ⟨fun h => absurd h htags, fun h => absurd h.symm htags⟩

def sealed : CredentialEnvelope :=
  oldVault.sealedEnvelope crypto (draws 1) first
    (tagged (oldVault.encryption (draws 1) first token)) 5 0 none

def rotated : CredentialEnvelope :=
  newVault.sealedEnvelope crypto (draws 2) first
    (tagged (newVault.encryption (draws 2) first token)) 5 0 (some 0)

lemma chain_sealed : Chain crypto (· ∈ encryptions) first token oldVault.activeKey sealed := by
  have hseal : oldVault.sealEnvelope crypto (draws 1) first token = .ok sealed := by
    unfold CredentialVault.sealEnvelope
    simp only [bind_eq_ok, require_eq_ok]
    exact ⟨(), rfl, CredentialVault.sealAs_of_valid rfl rfl rfl (by decide)⟩
  exact .sealed List.mem_cons_self hseal

lemma chain_rotated : Chain crypto (· ∈ encryptions) first token newVault.activeKey rotated := by
  have hkey : newVault.keys.get sealed.keyVersion = some oldVault.activeKey := by decide
  have hcarries := chain_sealed.carries ideal_crypto
  have hopen : newVault.openEnvelope crypto first sealed = .ok token :=
    hcarries.openEnvelope ideal_crypto hkey ⟨rfl, rfl, rfl, rfl, rfl, rfl, rfl, rfl, rfl, rfl, rfl⟩
      hcarries.valid rfl
  have hrotate : newVault.rotate crypto (draws 2) first sealed = .ok rotated := by
    unfold CredentialVault.rotate
    simp only [bind_eq_ok]
    exact ⟨token, hopen, 0, rfl, CredentialVault.sealAs_of_valid rfl rfl rfl (by decide)⟩
  refine .rotated chain_sealed hkey (fun opened heq => ?_) hrotate
  rw [← Except.ok.inj (hopen.symm.trans heq)]
  exact List.mem_cons_of_mem _ List.mem_cons_self

/-- The rotated envelope opens for the one company and not for the other one. -/
theorem openEnvelope_rotated :
    newVault.openEnvelope crypto first rotated = .ok token ∧
      ∀ opened, newVault.openEnvelope crypto second rotated ≠ .ok opened := by
  have hkey : newVault.keys.get rotated.keyVersion = some newVault.activeKey := by decide
  have hsame : SameStored rotated rotated :=
    ⟨rfl, rfl, rfl, rfl, rfl, rfl, rfl, rfl, rfl, rfl, rfl⟩
  have hvalid := (chain_rotated.carries ideal_crypto).valid
  constructor
  · exact ((openEnvelope_iff_of_chain ideal_crypto chain_rotated hkey first).1 rotated hsame hvalid
      token).2 ⟨⟨rfl, rfl⟩, rfl⟩
  · intro opened hopen
    have hsecond := ((openEnvelope_iff_of_chain ideal_crypto chain_rotated hkey second).1 rotated
      hsame hvalid opened).1 hopen
    have hcompany := congrArg CredentialBinding.companyOrMerchantId hsecond.1.1
    exact absurd hcompany (by decide)

end CompanyToken

end MercuryTools.Credentials
