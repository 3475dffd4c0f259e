import Mathlib.Data.Option.Basic

/-!
# Authenticated sealing

Sealed boxes with associated data: a box opens under associated data only to a message that was
sealed under the same data (`Authentic`).  An identity that is too large for the associated
data is replaced by a digest; where the digests of the sealed identities have no second
preimage (`NoCollision`), sealing under the digest authenticates the identity.
-/

namespace Sealing

variable {β δ ε μ ν : Type*}

/-- What a box opens to was sealed under the data it is opened with. -/
def Authentic (opens : β → ε → Option μ) (isSealed : β → μ → Prop) : Prop :=
  ∀ b e m, opens b e = some m → isSealed b m

/-- No other value has the digest of a value in the set. -/
def NoCollision (digest : β → δ) (P : β → Prop) : Prop :=
  ∀ b c, P c → digest b = digest c → b = c

/-- A digest that is part of a larger one collides less. -/
lemma NoCollision.of_comp {digest : β → δ} {whole : β → ν} {P : β → Prop} (part : ν → δ)
    (hpart : ∀ b, part (whole b) = digest b) (h : NoCollision digest P) : NoCollision whole P := by
  intro b c hc heq
  apply h b c hc
  rw [← hpart b, ← hpart c, heq]

/-- Sealing under a digest is sealing under what was digested. -/
lemma Authentic.of_digest {opens : δ → ε → Option μ} {digest : β → δ} {isSealed : β → μ → Prop}
    (h : Authentic opens fun d m => ∃ b, isSealed b m ∧ digest b = d)
    (hdigest : NoCollision digest fun b => ∃ m, isSealed b m) :
    Authentic (fun b e => opens (digest b) e) isSealed := by
  intro b e m hopen
  obtain ⟨c, hsealed, heq⟩ := h _ _ _ hopen
  rw [hdigest b c ⟨m, hsealed⟩ heq.symm]
  exact hsealed

/-- A message that is decoded after opening was encoded before sealing. -/
lemma Authentic.decode {opens : β → ε → Option μ} {encode : ν → μ} {decode : μ → Option ν}
    {isSealed : β → ν → Prop} (h : Authentic opens fun b m => ∃ n, isSealed b n ∧ encode n = m)
    (hdecode : ∀ n, decode (encode n) = some n) :
    Authentic (fun b e => (opens b e).bind decode) isSealed := by
  intro b e n hopen
  obtain ⟨m, hm, hn⟩ := Option.bind_eq_some_iff.1 hopen
  obtain ⟨n', hsealed, rfl⟩ := h _ _ _ hm
  rw [hdecode] at hn
  exact Option.some.inj hn ▸ hsealed

end Sealing
