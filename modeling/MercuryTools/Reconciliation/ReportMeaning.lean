import MercuryTools.Reconciliation.TieBreakers

/-!
# What a report says

The result of `match_transactions` of `reconciliation/matcher.py` does not depend on the order of the
rows (`matchTransactions_perm`).  The pairs it reports are pairs of the policy, each in the list of
its classification (`reportedPairs_followPolicy`); and a row is only left over where all rows that fit
it are members of other pairs, as the reason says (`unmatched_explained`).
-/

namespace MercuryTools
namespace Reconciliation

open Checks Matchings
open StableSorting (sortBy perm_sortBy sortBy_eq_of_perm)

/-! ## The order of the rows -/

section

variable {rules : TextRules} {left right left' right' : List CanonicalTransaction}
  {policy : ReconciliationPolicy}

variable {rows : List CanonicalTransaction} {candidate : Candidate} {row : CanonicalTransaction}
  {side : Side} {candidates : List Candidate}

lemma normalizeTransactions_perm {rows' : List CanonicalTransaction} (h : rows.Perm rows') :
    normalizeTransactions rows = normalizeTransactions rows' := by
  have hids := (h.map (·.transactionId)).nodup_iff
  by_cases hnodup : (rows.map (·.transactionId)).Nodup
  · have hsort : sortBy transactionSortKey rows = sortBy transactionSortKey rows' := by
      refine sortBy_eq_of_perm h fun x hx y hy heq => ?_
      exact List.inj_on_of_nodup_map hnodup hx hy (Prod.mk.inj (toLex.injective heq)).1
    simp only [normalizeTransactions, hids, hsort]
  · have hnodup' : ¬ (rows'.map (·.transactionId)).Nodup := fun h' => hnodup (hids.2 h')
    simp only [normalizeTransactions, hnodup, hnodup', decide_false]
    rfl

/-- The rows may come in any order. -/
theorem matchTransactions_perm (hleft : left.Perm left') (hright : right.Perm right') (fuel : ℕ) :
    matchTransactions rules left right policy fuel =
      matchTransactions rules left' right' policy fuel := by
  have hprepare : prepare rules left right = prepare rules left' right' := by
    simp only [prepare, normalizeTransactions_perm hleft, normalizeTransactions_perm hright]
  rw [matchTransactions, matchTransactions, hprepare]

theorem matchTransactions_perm_payments :
    matchTransactions asciiRules [payment "A1", erpPayment] [payment "B1"] exactPolicy 40 =
      matchTransactions asciiRules [erpPayment, payment "A1"] [payment "B1"] exactPolicy 40 :=
  matchTransactions_perm (.swap _ _ _) (.refl _) 40

/-! ## Reported pairs -/

/-- What the policy lets through. -/
structure FollowsPolicy (rules : TextRules) (policy : ReconciliationPolicy)
    (left right : CanonicalTransaction) : Prop where
  currency : left.currency = right.currency
  dates : |left.transactionDate - right.transactionDate| ≤ policy.dateToleranceDays
  documentState : policy.requireDocumentStateMatch = true →
    left.documentState = right.documentState
  identity : policy.requireIdentityMatch = true →
    keysMatch rules.casefold left.reference right.reference = true ∨
      keysMatch rules.casefold left.counterpartyKey right.counterpartyKey = true

/-- The classification says how far the amounts are apart. -/
def IsClassified (policy : ReconciliationPolicy) (amountDifference : ℕ) : Classification → Prop
  | .matched => amountDifference ≤ policy.amountTolerance
  | .difference => policy.amountTolerance < amountDifference ∧
      amountDifference ≤ policy.differenceTolerance

/-- What `_candidate_for` has checked. -/
lemma candidateFor_followsPolicy {l r : CanonicalTransaction}
    (h : candidateFor rules.casefold l r policy = some candidate) :
    FollowsPolicy rules policy l r ∧
      (candidate.dateDifferenceDays : ℤ) = |l.transactionDate - r.transactionDate| ∧
      IsClassified policy candidate.amountDifference candidate.classification := by
  simp only [candidateFor] at h
  split at h
  · cases h
  next hcurrency =>
  split at h
  · cases h
  next hdates =>
  split at h
  · cases h
  next hstate =>
  split at h
  · cases h
  next hidentity =>
  have hpolicy : FollowsPolicy rules policy l r := by
    refine ⟨not_not.1 hcurrency, ?_, fun hrequired => ?_, fun hrequired => ?_⟩
    · rw [← Int.natCast_natAbs]
      exact_mod_cast not_lt.1 hdates
    · rw [hrequired, Bool.true_and, decide_eq_true_eq, not_not] at hstate
      exact hstate
    · rw [hrequired, Bool.true_and, Bool.not_eq_true, Bool.not_eq_false', Bool.or_eq_true]
        at hidentity
      exact hidentity
  split at h
  · next hmatched =>
    obtain rfl := Option.some.inj h
    exact ⟨hpolicy, Int.natCast_natAbs _, hmatched⟩
  · next hmatched =>
    split at h
    · next hdifference =>
      obtain rfl := Option.some.inj h
      exact ⟨hpolicy, Int.natCast_natAbs _, not_le.1 hmatched, hdifference⟩
    · cases h

/-- A reported pair: the rows it is of, how far they are apart, and what it refers to. -/
def IsPairOf (rules : TextRules) (policy : ReconciliationPolicy)
    (left right : List CanonicalTransaction) (item : PairEvidence) : Prop :=
  ∃ l ∈ left, ∃ r ∈ right, item.pair = (l.transactionId, r.transactionId) ∧
    FollowsPolicy rules policy l r ∧
    (item.amountDifference : ℤ) = |l.amount - r.amount| ∧
    (item.dateDifferenceDays : ℤ) = |l.transactionDate - r.transactionDate| ∧
    ∀ ref, ref ∈ item.evidenceRefs ↔ ref ∈ l.evidenceRefs ∨ ref ∈ r.evidenceRefs

lemma mem_of_mem_uniqueRows (h : row ∈ uniqueRows rules rows) : row ∈ rows :=
  (perm_sortBy ..).mem_iff.1 (canonicalRows_subset h)

/-- Whatever is reported as a pair is one that the policy lets through, and is in the list of its
classification. -/
theorem reportedPairs_followPolicy (hleft : ValidRows rules left) (hright : ValidRows rules right)
    {fuel : ℕ} {result : ReconciliationResult}
    (h : matchTransactions rules left right policy fuel = some (.ok result)) :
    (∀ item ∈ result.matched, IsPairOf rules policy left right item ∧
      IsClassified policy item.amountDifference .matched) ∧
    ∀ item ∈ result.differences, IsPairOf rules policy left right item ∧
      IsClassified policy item.amountDifference .difference := by
  obtain ⟨assignments, -, hoptimal, rfl⟩ := exists_assignments hleft hright h
  have hpair : ∀ item ∈ assignments.map
      (pairEvidence (eligibleCandidates rules left right policy)),
      IsPairOf rules policy left right item ∧
        IsClassified policy item.amountDifference item.classification := by
    intro item hitem
    obtain ⟨assignment, hassignment, rfl⟩ := List.mem_map.1 hitem
    obtain ⟨l, hl, r, hr, hcandidate⟩ :=
      mem_scoreCandidates.1 (hoptimal.subset assignment (List.mem_toFinset.2 hassignment))
    have hmade := candidateFor_made hcandidate
    obtain ⟨hpolicy, hdates, hclassified⟩ := candidateFor_followsPolicy hcandidate
    refine ⟨⟨l, mem_of_mem_uniqueRows hl, r, mem_of_mem_uniqueRows hr, ?_, hpolicy,
      candidateFor_amountDifference _ hcandidate, hdates, fun ref => ?_⟩, hclassified⟩
    · rw [← hmade.left, ← hmade.right]
      rfl
    · rw [← hmade.left, ← hmade.right, ← List.mem_append]
      exact mem_orderedUnique
  constructor
  · intro item hitem
    obtain ⟨hmem, hmatched⟩ := List.mem_filter.1 ((perm_sortBy ..).mem_iff.1 hitem)
    obtain ⟨hof, hclassified⟩ := hpair item hmem
    rw [of_decide_eq_true hmatched] at hclassified
    exact ⟨hof, hclassified⟩
  · intro item hitem
    obtain ⟨hmem, hdifference⟩ := List.mem_filter.1 ((perm_sortBy ..).mem_iff.1 hitem)
    obtain ⟨hof, hclassified⟩ := hpair item hmem
    have hclassification : item.classification = .difference := by
      cases hcase : item.classification with
      | matched => exact absurd hcase (of_decide_eq_true hdifference)
      | difference => rfl
    rw [hclassification] at hclassified
    exact ⟨hof, hclassified⟩

theorem reportedPairs_followPolicy_payments :
    ∃ fuel result, matchTransactions asciiRules twoSources [payment "B1"] exactPolicy fuel =
        some (.ok result) ∧
      (∀ item ∈ result.matched, IsPairOf asciiRules exactPolicy twoSources [payment "B1"] item ∧
        IsClassified exactPolicy item.amountDifference .matched) := by
  obtain ⟨⟨fuel, result, hresult⟩, -⟩ :=
    matchTransactions_total validRows_twoSources validRows_payments.2 exactPolicy
  exact ⟨fuel, result, hresult,
    (reportedPairs_followPolicy validRows_twoSources validRows_payments.2 hresult).1⟩

/-! ## Rows that are left over -/

def Side.opposite : Side → Side
  | .left => .right
  | .right => .left

/-- The policy lets the pair of a row of this side and a row of the opposite side through. -/
def Fits (rules : TextRules) (policy : ReconciliationPolicy) :
    Side → CanonicalTransaction → CanonicalTransaction → Prop
  | .left, row, other => ∃ candidate, candidateFor rules.casefold row other policy = some candidate
  | .right, row, other =>
    ∃ candidate, candidateFor rules.casefold other row policy = some candidate

/-- What an unmatched row of the result says of the row: the reason is whether another row fits it,
and those that do are members of reported pairs. -/
structure IsExplained (rules : TextRules) (policy : ReconciliationPolicy)
    (left right : List CanonicalTransaction) (result : ReconciliationResult)
    (item : UnmatchedEvidence) (row : CanonicalTransaction) : Prop where
  mem : row ∈ uniqueRows rules (inputRows left right item.side)
  id : item.transactionId = row.transactionId
  refs : item.evidenceRefs = row.evidenceRefs
  reason : item.reason = .noEligibleCandidate ↔
    ∀ other ∈ uniqueRows rules (inputRows left right item.side.opposite),
      ¬ Fits rules policy item.side row other
  taken : ∀ other ∈ uniqueRows rules (inputRows left right item.side.opposite),
    Fits rules policy item.side row other →
      other.transactionId ∈ result.assignedIds item.side.opposite

/-- Fitting rows are a candidate. -/
lemma exists_candidate_of_fits {other : CanonicalTransaction}
    (hrow : row ∈ uniqueRows rules (inputRows left right side))
    (hother : other ∈ uniqueRows rules (inputRows left right side.opposite))
    (h : Fits rules policy side row other) :
    ∃ candidate ∈ eligibleCandidates rules left right policy,
      candidate.member side = row.transactionId ∧
        candidate.member side.opposite = other.transactionId := by
  cases side with
  | left =>
    obtain ⟨candidate, hcandidate⟩ := h
    have hmade := candidateFor_made hcandidate
    exact ⟨candidate, mem_scoreCandidates.2 ⟨row, hrow, other, hother, hcandidate⟩,
      congrArg (·.transactionId) hmade.left, congrArg (·.transactionId) hmade.right⟩
  | right =>
    obtain ⟨candidate, hcandidate⟩ := h
    have hmade := candidateFor_made hcandidate
    exact ⟨candidate, mem_scoreCandidates.2 ⟨other, hother, row, hrow, hcandidate⟩,
      congrArg (·.transactionId) hmade.right, congrArg (·.transactionId) hmade.left⟩

/-- A candidate with this row is of a row that fits it. -/
lemma exists_fits_of_candidate (hleft : ValidRows rules left) (hright : ValidRows rules right)
    (hrow : row ∈ uniqueRows rules (inputRows left right side))
    (hcandidate : candidate ∈ eligibleCandidates rules left right policy)
    (hmember : candidate.member side = row.transactionId) :
    ∃ other ∈ uniqueRows rules (inputRows left right side.opposite),
      Fits rules policy side row other := by
  have hinj := List.inj_on_of_nodup_map (validRows_inputRows hleft hright side).unique.nodup
  obtain ⟨l, hl, r, hr, hmade⟩ := mem_scoreCandidates.1 hcandidate
  have hrows := candidateFor_made hmade
  cases side with
  | left =>
    have heq : l = row := hinj hl hrow (by rw [← hmember, ← hrows.left]; rfl)
    exact ⟨r, hr, candidate, heq ▸ hmade⟩
  | right =>
    have heq : r = row := hinj hr hrow (by rw [← hmember, ← hrows.right]; rfl)
    exact ⟨l, hl, candidate, heq ▸ hmade⟩

/-- No candidate can be added to a largest set. -/
lemma member_mem_of_isOptimal {pairs : Finset Candidate} (h : IsOptimal candidates pairs)
    (hcandidate : candidate ∈ candidates)
    (hfree : candidate.member side ∉ pairs.image (·.member side)) :
    candidate.member side.opposite ∈ pairs.image (·.member side.opposite) := by
  by_contra hopposite
  have hnotMem : candidate ∉ pairs := fun hmem => hfree (Finset.mem_image_of_mem _ hmem)
  have hkeys : candidate.leftId ∉ pairs.image Candidate.leftId ∧
      candidate.rightId ∉ pairs.image Candidate.rightId := by
    cases side with
    | left => exact ⟨hfree, hopposite⟩
    | right => exact ⟨hopposite, hfree⟩
  have hone : IsOneToOne Candidate.leftId Candidate.rightId (insert candidate pairs) := by
    refine ⟨?_, ?_⟩ <;> rw [Finset.coe_insert, Set.injOn_insert (by exact_mod_cast hnotMem)]
    · refine ⟨h.isOneToOne.left, ?_⟩
      rw [← Finset.coe_image]
      exact_mod_cast hkeys.1
    · refine ⟨h.isOneToOne.right, ?_⟩
      rw [← Finset.coe_image]
      exact_mod_cast hkeys.2
  have hle := h.card_le (insert candidate pairs) hone fun other hother => by
    rcases Finset.mem_insert.1 hother with rfl | hother
    · exact hcandidate
    · exact h.subset other hother
  rw [Finset.card_insert_of_notMem hnotMem] at hle
  omega

/-- The unmatched rows of the result. -/
lemma exists_row_of_mem_unmatched {leftUnique rightUnique : List CanonicalTransaction}
    {duplicates : List DuplicateEvidence} {assignments : List Candidate} {item : UnmatchedEvidence}
    (h : item ∈ (reportedResult leftUnique rightUnique duplicates candidates
      assignments).unmatched) :
    ∃ row ∈ sideRows leftUnique rightUnique item.side,
      row.transactionId ∉ assignments.map (·.member item.side) ∧
        item = unmatchedEvidence item.side (candidates.map (·.member item.side)) row := by
  have hside : ∀ {side : Side} {rows : List CanonicalTransaction},
      item ∈ unmatchedRows side rows (candidates.map (·.member side))
        (assignments.map (·.member side)) →
      item.side = side ∧ ∃ row ∈ rows, row.transactionId ∉ assignments.map (·.member side) ∧
        item = unmatchedEvidence side (candidates.map (·.member side)) row := by
    intro side rows hitem
    obtain ⟨row, hrow, rfl⟩ := List.mem_map.1 hitem
    obtain ⟨hmem, hfree⟩ := List.mem_filter.1 hrow
    rw [Bool.not_eq_true', ← Bool.not_eq_true, List.contains_iff_mem] at hfree
    exact ⟨rfl, row, hmem, hfree, rfl⟩
  rcases List.mem_append.1 ((perm_sortBy ..).mem_iff.1 h) with hitem | hitem
  · obtain ⟨hleft, row, hrow, hfree, heq⟩ := @hside .left _ hitem
    rw [hleft]
    exact ⟨row, hrow, hfree, heq⟩
  · obtain ⟨hright, row, hrow, hfree, heq⟩ := @hside .right _ hitem
    rw [hright]
    exact ⟨row, hrow, hfree, heq⟩

/-- Every unmatched row is explained. -/
theorem unmatched_explained (hleft : ValidRows rules left) (hright : ValidRows rules right)
    {fuel : ℕ} {result : ReconciliationResult}
    (h : matchTransactions rules left right policy fuel = some (.ok result)) :
    ∀ item ∈ result.unmatched, ∃ row, IsExplained rules policy left right result item row := by
  obtain ⟨assignments, -, hoptimal, rfl⟩ := exists_assignments hleft hright h
  intro item hitem
  obtain ⟨row, hrow, hfree, heq⟩ := exists_row_of_mem_unmatched hitem
  rw [sideRows_uniqueRows] at hrow
  have himage : ∀ {side : Side} {id : String},
      id ∈ assignments.toFinset.image (·.member side) ↔ id ∈ assignments.map (·.member side) := by
    intro side id
    simp only [Finset.mem_image, List.mem_toFinset, List.mem_map]
  refine ⟨row, hrow, by rw [heq]; rfl, by rw [heq]; rfl, ?_, fun other hother hfits => ?_⟩
  · have hreason : item.reason = .noEligibleCandidate ↔ row.transactionId ∉
        (eligibleCandidates rules left right policy).map (·.member item.side) := by
      rw [heq, unmatchedEvidence, ← List.contains_iff_mem]
      dsimp only
      split
      · next hcontains => exact iff_of_false (by decide) (not_not.2 hcontains)
      · next hcontains => exact iff_of_true rfl hcontains
    rw [hreason]
    constructor
    · intro hnone other hother hfits
      obtain ⟨candidate, hcandidate, hmember, -⟩ := exists_candidate_of_fits hrow hother hfits
      exact hnone (List.mem_map.2 ⟨candidate, hcandidate, hmember⟩)
    · intro hnone hmem
      obtain ⟨candidate, hcandidate, hmember⟩ := List.mem_map.1 hmem
      obtain ⟨other, hother, hfits⟩ :=
        exists_fits_of_candidate hleft hright hrow hcandidate hmember
      exact hnone other hother hfits
  · obtain ⟨candidate, hcandidate, hmember, hopposite⟩ :=
      exists_candidate_of_fits hrow hother hfits
    rw [assignedIds_reportedResult_perm.mem_iff, ← hopposite, ← himage]
    refine member_mem_of_isOptimal hoptimal hcandidate ?_
    rw [hmember, himage]
    exact hfree

theorem unmatched_explained_twoSources :
    ∃ fuel result, matchTransactions asciiRules twoSources [payment "B1"] exactPolicy fuel =
        some (.ok result) ∧
      ∀ item ∈ result.unmatched, ∃ row,
        IsExplained asciiRules exactPolicy twoSources [payment "B1"] result item row := by
  obtain ⟨⟨fuel, result, hresult⟩, -⟩ :=
    matchTransactions_total validRows_twoSources validRows_payments.2 exactPolicy
  exact ⟨fuel, result, hresult,
    unmatched_explained validRows_twoSources validRows_payments.2 hresult⟩

end

end Reconciliation
end MercuryTools
