import Mathlib.Tactic.Common

/-!
# Authenticated encryption with associated data

A cipher encrypts a plaintext under a key, a nonce and associated data.  What is known of an ideal
one is relative to the encryptions that have been performed (`Ideal`): a ciphertext that has been
produced decrypts to its plaintext, nothing else decrypts, no nonce is used twice with one key, and
no two encryptions produce the same ciphertext.

Nothing here refers to a particular system.
-/

namespace Aead

variable {Key Bytes : Type}

/-- A cipher; encrypting may be refused. -/
structure Cipher (Key Bytes : Type) where
  encrypt : Key → Bytes → Bytes → Bytes → Except String Bytes
  decrypt : Key → Bytes → Bytes → Bytes → Option Bytes

structure Encryption (Key Bytes : Type) where
  key : Key
  nonce : Bytes
  plaintext : Bytes
  data : Bytes

variable {cipher : Cipher Key Bytes} {performed : Encryption Key Bytes → Prop}
  {e e' : Encryption Key Bytes} {c c' : Bytes}

def Encryption.Produces (cipher : Cipher Key Bytes) (e : Encryption Key Bytes) (c : Bytes) : Prop :=
  cipher.encrypt e.key e.nonce e.plaintext e.data = .ok c

/-- What is known of a cipher with which the encryptions in the set have been performed. -/
structure Ideal (cipher : Cipher Key Bytes) (performed : Encryption Key Bytes → Prop) : Prop where
  decrypts : ∀ e c, performed e → e.Produces cipher c →
    cipher.decrypt e.key e.nonce c e.data = some e.plaintext
  authentic : ∀ key nonce c data plaintext, cipher.decrypt key nonce c data = some plaintext →
    ∃ e, performed e ∧ e.Produces cipher c ∧ e.key = key ∧ e.nonce = nonce ∧ e.data = data
  nonce_once : ∀ e e', performed e → performed e' → e.key = e'.key → e.nonce = e'.nonce → e = e'
  distinct : ∀ e e' c, performed e → performed e' → e.Produces cipher c → e'.Produces cipher c →
    e = e'

namespace Ideal

variable (h : Ideal cipher performed)

include h

/-- A ciphertext decrypts only as it was encrypted. -/
lemma of_ciphertext (he : performed e) (hproduces : e.Produces cipher c) {key : Key}
    {nonce data plaintext : Bytes} (hdecrypt : cipher.decrypt key nonce c data = some plaintext) :
    e = ⟨key, nonce, plaintext, data⟩ := by
  obtain ⟨e', he', hproduces', rfl, rfl, rfl⟩ := h.authentic _ _ _ _ _ hdecrypt
  obtain rfl := h.distinct e e' c he he' hproduces hproduces'
  rw [h.decrypts e c he hproduces] at hdecrypt
  rw [← Option.some.inj hdecrypt]

/-- Under its key and its nonce only the ciphertext itself decrypts. -/
lemma of_nonce (he : performed e) (hproduces : e.Produces cipher c) {data plaintext : Bytes}
    (hdecrypt : cipher.decrypt e.key e.nonce c' data = some plaintext) : c' = c := by
  obtain ⟨e', he', hproduces', hkey, hnonce, -⟩ := h.authentic _ _ _ _ _ hdecrypt
  obtain rfl := h.nonce_once e' e he' he hkey hnonce
  exact Except.ok.inj (hproduces'.symm.trans hproduces)

end Ideal

/-! ## Ciphers that decrypt what is listed -/

variable [DecidableEq Key] [DecidableEq Bytes]

/-- A cipher that encrypts by an encoding and decrypts what has been encrypted in the list. -/
def listed (encode : Encryption Key Bytes → Bytes) (list : List (Encryption Key Bytes)) :
    Cipher Key Bytes where
  encrypt key nonce plaintext data := .ok (encode ⟨key, nonce, plaintext, data⟩)
  decrypt key nonce c data :=
    (list.find? fun e => e.key = key ∧ e.nonce = nonce ∧ e.data = data ∧ encode e = c).map
      (·.plaintext)

variable {encode : Encryption Key Bytes → Bytes} {list : List (Encryption Key Bytes)}

lemma produces_listed : e.Produces (listed encode list) c ↔ encode e = c :=
  Except.ok.injEq _ _ ▸ Iff.rfl

theorem ideal_listed
    (hnonce : ∀ e ∈ list, ∀ e' ∈ list, e.key = e'.key → e.nonce = e'.nonce → e = e')
    (hdistinct : ∀ e ∈ list, ∀ e' ∈ list, encode e = encode e' → e = e') :
    Ideal (listed encode list) (· ∈ list) where
  decrypts e c he hproduces := by
    have hfound : ∃ e', list.find? (fun e' => e'.key = e.key ∧ e'.nonce = e.nonce ∧
        e'.data = e.data ∧ encode e' = c) = some e' := by
      rw [← Option.isSome_iff_exists, List.find?_isSome]
      exact ⟨e, he, by simpa using produces_listed.1 hproduces⟩
    obtain ⟨e', heq⟩ := hfound
    have hmatches := List.find?_some heq
    rw [decide_eq_true_eq] at hmatches
    obtain rfl := hnonce e' (List.mem_of_find?_eq_some heq) e he hmatches.1 hmatches.2.1
    show Option.map _ (list.find? _) = _
    rw [heq]
    rfl
  authentic key nonce c data plaintext h := by
    obtain ⟨e, heq, -⟩ := Option.map_eq_some_iff.1 h
    have hmatches := List.find?_some heq
    rw [decide_eq_true_eq] at hmatches
    obtain ⟨hkey, hnonce', hdata, hencode⟩ := hmatches
    exact ⟨e, List.mem_of_find?_eq_some heq, produces_listed.2 hencode, hkey, hnonce', hdata⟩
  nonce_once e e' he he' := hnonce e he e' he'
  distinct e e' c he he' hproduces hproduces' :=
    hdistinct e he e' he' ((produces_listed.1 hproduces).trans (produces_listed.1 hproduces').symm)

end Aead
