import MercuryTools.Reconciliation.Conservation

/-!
# The reported pairs are the best

The pairs that `match_transactions` of `reconciliation/matcher.py` reports, compared with every
other one-to-one set of eligible pairs (`matchTransactions_optimal`).  The matcher only knows of the
left rows that have a candidate; the other left rows are unmatched in every set, so that they do not
change the order (`map_lt_map_of_filter`).
-/

namespace MercuryTools
namespace Reconciliation

open Matchings
open StableSorting (sortBy perm_sortBy pairwise_sortBy)

/-! ## Sequences that agree outside of a filter -/

section

variable {α β : Type} [LinearOrder β] {f g : α → β} {p : α → Bool} {xs : List α}

/-- Where two sequences agree does not count. -/
lemma map_lt_map_of_filter (hagree : ∀ x ∈ xs, p x = false → f x = g x)
    (h : (xs.filter p).map f < (xs.filter p).map g) : xs.map f < xs.map g := by
  induction xs with
  | nil => exact h
  | cons x xs ih =>
    obtain ⟨hx, hxs⟩ := List.forall_mem_cons.1 hagree
    rw [List.map_cons, List.map_cons, List.cons_lt_cons_iff]
    by_cases hpx : p x = true
    · rw [List.filter_cons_of_pos hpx, List.map_cons, List.map_cons, List.cons_lt_cons_iff] at h
      exact h.imp_right fun hrest => ⟨hrest.1, ih hxs hrest.2⟩
    · rw [List.filter_cons_of_neg hpx] at h
      exact .inr ⟨hx (Bool.eq_false_iff.2 hpx), ih hxs h⟩

end

/-! ## The order of the left rows -/

section

variable {rules : TextRules} {left right : List CanonicalTransaction}
  {policy : ReconciliationPolicy} {pairs other : Finset Candidate}

/-- The ids of the left rows without their duplicates. -/
def leftOrder (rules : TextRules) (left : List CanonicalTransaction) : List String :=
  (uniqueRows rules left).map (·.transactionId)

/-- The ids are in order. -/
lemma pairwise_leftOrder (h : ValidRows rules left) : (leftOrder rules left).Pairwise (· < ·) := by
  have hle : (leftOrder rules left).Pairwise (· ≤ ·) := by
    refine List.pairwise_map.2 ((pairwise_sortBy ..).imp fun {a b} hab => ?_)
    rcases Prod.Lex.toLex_le_toLex.1 hab with hlt | ⟨heq, -⟩
    · exact hlt.le
    · exact heq.le
  exact (hle.and h.unique.nodup).imp fun hab => lt_of_le_of_ne hab.1 hab.2

lemma pairwise_leftIds (candidates : List Candidate) :
    (leftIds candidates).Pairwise (· < ·) :=
  ((pairwise_sortBy id _).and (nodup_leftIds candidates)).imp fun hab =>
    lt_of_le_of_ne hab.1 hab.2

/-- The left rows that have a candidate. -/
lemma filter_leftOrder (h : ValidRows rules left) :
    (leftOrder rules left).filter
        (· ∈ leftIds (eligibleCandidates rules left right policy)) =
      leftIds (eligibleCandidates rules left right policy) := by
  have hordered := (pairwise_leftOrder h).filter
    (· ∈ leftIds (eligibleCandidates rules left right policy))
  have hids := pairwise_leftIds (eligibleCandidates rules left right policy)
  refine List.Perm.eq_of_pairwise (fun a b _ _ hab hba => absurd hab hba.not_gt) hordered hids ?_
  refine (List.perm_ext_iff_of_nodup (hordered.imp ne_of_lt) (hids.imp ne_of_lt)).2 fun id => ?_
  simp only [List.mem_filter, decide_eq_true_eq, and_iff_right_iff_imp]
  intro hid
  obtain ⟨candidate, hcandidate, rfl⟩ := List.mem_map.1 (mem_sortedIds.1 hid)
  obtain ⟨l, hl, r, -, hmade⟩ := mem_scoreCandidates.1 hcandidate
  rw [(candidateFor_made hmade).left]
  exact List.mem_map_of_mem hl

/-- The other left rows are unmatched. -/
lemma matchedRight_of_notMem_leftIds {candidates : List Candidate} {id : String}
    (hsubset : ∀ candidate ∈ pairs, candidate ∈ candidates) (h : id ∉ leftIds candidates) :
    matchedRight pairs id = ⊤ := by
  refine matchedRight_of_notMem fun hmem => h ?_
  obtain ⟨candidate, hcandidate, rfl⟩ := Finset.mem_image.1 hmem
  exact mem_leftIds (hsubset candidate hcandidate)

/-- The order of assignments, over all left rows. -/
lemma preference_leftOrder_lt (h : ValidRows rules left)
    (hpairs : ∀ candidate ∈ pairs, candidate ∈ eligibleCandidates rules left right policy)
    (hother : ∀ candidate ∈ other, candidate ∈ eligibleCandidates rules left right policy)
    (hlt : preference (leftIds (eligibleCandidates rules left right policy)) pairs <
      preference (leftIds (eligibleCandidates rules left right policy)) other) :
    preference (leftOrder rules left) pairs < preference (leftOrder rules left) other := by
  have hsequence : matchedSequence (leftIds (eligibleCandidates rules left right policy)) pairs <
      matchedSequence (leftIds (eligibleCandidates rules left right policy)) other →
        matchedSequence (leftOrder rules left) pairs <
          matchedSequence (leftOrder rules left) other := by
    intro hids
    rw [← filter_leftOrder h] at hids
    refine map_lt_map_of_filter (fun id _ hid => ?_) hids
    have hid := of_decide_eq_false hid
    rw [matchedRight_of_notMem_leftIds hpairs hid, matchedRight_of_notMem_leftIds hother hid]
  simp only [preference, Prod.Lex.toLex_lt_toLex] at hlt ⊢
  exact hlt.imp_right <| .imp_right <| .imp_right <| .imp_right <| .imp_right <| .imp_right <|
    .imp_right <| .imp_right <| .imp_right <| .imp_right hsequence

/-! ## The best set -/

/-- A pair of rows that are not duplicates, of which `_candidate_for` makes a candidate. -/
def IsEligible (rules : TextRules) (left right : List CanonicalTransaction)
    (policy : ReconciliationPolicy) (candidate : Candidate) : Prop :=
  ∃ l ∈ uniqueRows rules left, ∃ r ∈ uniqueRows rules right,
    candidateFor rules.casefold l r policy = some candidate

/-- A one-to-one set of eligible pairs, as large as any, and preferred to all others of its size. -/
structure IsBest (rules : TextRules) (left right : List CanonicalTransaction)
    (policy : ReconciliationPolicy) (pairs : Finset Candidate) : Prop where
  eligible : ∀ candidate ∈ pairs, IsEligible rules left right policy candidate
  isOneToOne : IsOneToOne Candidate.leftId Candidate.rightId pairs
  card_le : ∀ other : Finset Candidate, IsOneToOne Candidate.leftId Candidate.rightId other →
    (∀ candidate ∈ other, IsEligible rules left right policy candidate) → other.card ≤ pairs.card
  preference_lt : ∀ other : Finset Candidate,
    IsOneToOne Candidate.leftId Candidate.rightId other →
    (∀ candidate ∈ other, IsEligible rules left right policy candidate) →
    other.card = pairs.card → other ≠ pairs →
    preference (leftOrder rules left) pairs < preference (leftOrder rules left) other

lemma isBest_of_isOptimal (h : ValidRows rules left)
    (hoptimal : IsOptimal (eligibleCandidates rules left right policy) pairs) :
    IsBest rules left right policy pairs := by
  have hmem : ∀ {candidate}, IsEligible rules left right policy candidate →
      candidate ∈ eligibleCandidates rules left right policy := fun hcandidate =>
    mem_scoreCandidates.2 hcandidate
  constructor
  case eligible => exact fun candidate hpair => mem_scoreCandidates.1 (hoptimal.subset _ hpair)
  case isOneToOne => exact hoptimal.isOneToOne
  case card_le =>
    exact fun other hother heligible =>
      hoptimal.card_le other hother fun candidate hpair => hmem (heligible candidate hpair)
  case preference_lt =>
    intro other hother heligible hcard hne
    have hsubset : ∀ candidate ∈ other,
        candidate ∈ eligibleCandidates rules left right policy := fun candidate hpair =>
      hmem (heligible candidate hpair)
    exact preference_leftOrder_lt h hoptimal.subset hsubset
      (hoptimal.preference_lt other hother hsubset hcard hne)

/-- Whatever valid rows and policy: there is a result, and the pairs that it reports are the best
ones. -/
theorem matchTransactions_optimal (hleft : ValidRows rules left) (hright : ValidRows rules right)
    (policy : ReconciliationPolicy) :
    (∃ fuel result, matchTransactions rules left right policy fuel = some (.ok result)) ∧
      ∀ fuel result, matchTransactions rules left right policy fuel = some (.ok result) →
        ∃ pairs : Finset Candidate, IsBest rules left right policy pairs ∧
          ((result.matched ++ result.differences).map PairEvidence.pair).Perm
            (pairs.toList.map Candidate.pair) := by
  refine ⟨(matchTransactions_total hleft hright policy).1, fun fuel result hresult => ?_⟩
  obtain ⟨assignments, hnodup, hoptimal, rfl⟩ := exists_assignments hleft hright hresult
  refine ⟨assignments.toFinset, isBest_of_isOptimal hleft hoptimal, ?_⟩
  refine (pairs_reportedResult_perm.map _).trans ?_
  rw [List.map_map]
  exact (List.toFinset_toList hnodup).symm.map Candidate.pair

/-! ### Three payments -/

/-- The pair of two such payments. -/
def samePair (left right : CanonicalTransaction) : Candidate where
  left := left
  right := right
  classification := .matched
  amountDifference := 0
  dateDifferenceDays := 0
  matchedFields := ["currency", "reference", "document_state", "amount", "transaction_date"]
  quality := ⟨0, 0, 1, 0, 0⟩

lemma isEligible_payments {candidate : Candidate} :
    IsEligible asciiRules [payment "A1", payment "A2"] [payment "B1"] exactPolicy candidate ↔
      candidate = samePair (payment "A1") (payment "B1") := by
  have hleft : uniqueRows asciiRules [payment "A1", payment "A2"] = [payment "A1"] := by decide
  have hright : uniqueRows asciiRules [payment "B1"] = [payment "B1"] := by decide
  have hpair : candidateFor asciiRules.casefold (payment "A1") (payment "B1") exactPolicy =
      some (samePair (payment "A1") (payment "B1")) := by decide
  rw [IsEligible, hleft, hright]
  simp only [List.mem_singleton, exists_eq_left, hpair, Option.some.injEq]
  rw [eq_comm]

/-- Of three payments two are duplicates; the first of them is paired. -/
theorem matchTransactions_optimal_payments :
    ∃ fuel result, matchTransactions asciiRules [payment "A1", payment "A2"] [payment "B1"]
        exactPolicy fuel = some (.ok result) ∧
      (result.matched ++ result.differences).map PairEvidence.pair = [("A1", "B1")] := by
  obtain ⟨⟨fuel, result, hresult⟩, hbest⟩ :=
    matchTransactions_optimal validRows_payments.1 validRows_payments.2 exactPolicy
  obtain ⟨pairs, hpairs, hperm⟩ := hbest fuel result hresult
  have hcard := hpairs.card_le {samePair (payment "A1") (payment "B1")}
    ⟨by simp, by simp⟩ fun candidate hmem =>
      isEligible_payments.2 (Finset.mem_singleton.1 hmem)
  have hsubset : pairs ⊆ {samePair (payment "A1") (payment "B1")} := fun candidate hmem =>
    Finset.mem_singleton.2 (isEligible_payments.1 (hpairs.eligible candidate hmem))
  obtain rfl := Finset.eq_of_subset_of_card_le hsubset hcard
  rw [Finset.toList_singleton] at hperm
  exact ⟨fuel, result, hresult, List.perm_singleton.1 hperm⟩

end

end Reconciliation
end MercuryTools
