import MercuryTools.Reconciliation.Duplicates
import MercuryTools.Reconciliation.Preference
import Mathlib.Data.List.ProdSigma

/-!
# The report of valid rows

`match_transactions` of `reconciliation/matcher.py` on valid rows: no validator rejects anything
(`Reportable.report_eq_ok`), so that it ends with a result and never raises
(`matchTransactions_total`), and the result is the report of an optimal assignment
(`exists_assignments`).
-/

namespace MercuryTools
namespace Reconciliation

open Checks Matchings
open StableSorting (sortBy perm_sortBy)

/-! ## Candidates -/

section

variable {casefold : String → String} {left right : CanonicalTransaction}
  {policy : ReconciliationPolicy} {candidate : Candidate}
  {leftRows rightRows : List CanonicalTransaction}

/-- What is true of a candidate. -/
structure Candidate.Made (candidate : Candidate) (left right : CanonicalTransaction) : Prop where
  left : candidate.left = left
  right : candidate.right = right
  wellFormed : candidate.WellFormed
  fields : ∀ field ∈ candidate.matchedFields, field ∈ allowedMatchFields
  fields_ne_nil : candidate.matchedFields ≠ []

lemma matchedFieldNames_allowed : ∀ reference counterparty documentState amount transactionDate,
    (∀ field ∈ matchedFieldNames reference counterparty documentState amount transactionDate,
      field ∈ allowedMatchFields) ∧
    matchedFieldNames reference counterparty documentState amount transactionDate ≠ [] := by
  decide

lemma candidateFor_made (h : candidateFor casefold left right policy = some candidate) :
    candidate.Made left right := by
  have hflag : ∀ {flag : Bool}, (if flag = true then 0 else 1) ≤ 1 := by
    intro flag
    cases flag <;> decide
  simp only [candidateFor] at h
  split at h
  · cases h
  · split at h
    · cases h
    · split at h
      · cases h
      · split at h
        · cases h
        · split at h
          · obtain rfl := Option.some.inj h
            exact ⟨rfl, rfl, ⟨rfl, rfl, Nat.zero_le _, hflag, hflag⟩,
              (matchedFieldNames_allowed ..).1, (matchedFieldNames_allowed ..).2⟩
          · split at h
            · obtain rfl := Option.some.inj h
              exact ⟨rfl, rfl, ⟨rfl, rfl, le_rfl, hflag, hflag⟩,
                (matchedFieldNames_allowed ..).1, (matchedFieldNames_allowed ..).2⟩
            · cases h

lemma mem_scoreCandidates : candidate ∈ scoreCandidates casefold leftRows rightRows policy ↔
    ∃ left ∈ leftRows, ∃ right ∈ rightRows,
      candidateFor casefold left right policy = some candidate := by
  rw [scoreCandidates, (perm_sortBy ..).mem_iff, List.mem_flatMap]
  simp only [List.mem_filterMap]

/-- The ids of the candidates are pairs of ids of the rows. -/
lemma nodup_pairs_scoreCandidates (hleft : (leftRows.map (·.transactionId)).Nodup)
    (hright : (rightRows.map (·.transactionId)).Nodup) :
    ((scoreCandidates casefold leftRows rightRows policy).map Candidate.pair).Nodup := by
  have hrow : ∀ (left : CanonicalTransaction) (rows : List CanonicalTransaction),
      ((rows.filterMap fun right => candidateFor casefold left right policy).map
        Candidate.pair).Sublist ((rows.map (·.transactionId)).map (left.transactionId, ·)) := by
    intro left rows
    induction rows with
    | nil => exact .slnil
    | cons right rows ih =>
      rw [List.filterMap_cons]
      split
      · exact .cons _ ih
      · next candidate hcandidate =>
        have hmade := candidateFor_made hcandidate
        rw [List.map_cons, Candidate.pair, hmade.left, hmade.right]
        exact .cons_cons _ ih
  have hrows : ∀ rows : List CanonicalTransaction,
      ((rows.flatMap fun left => rightRows.filterMap fun right =>
        candidateFor casefold left right policy).map Candidate.pair).Sublist
          ((rows.map (·.transactionId)) ×ˢ (rightRows.map (·.transactionId))) := by
    intro rows
    induction rows with
    | nil => exact .slnil
    | cons left rows ih =>
      rw [List.flatMap_cons, List.map_append, List.map_cons, List.product_cons]
      exact (hrow left rightRows).append ih
  refine ((perm_sortBy ..).map _).nodup_iff.2 ((hleft.product hright).sublist (hrows leftRows))

lemma wellFormed_of_mem_scoreCandidates
    (h : candidate ∈ scoreCandidates casefold leftRows rightRows policy) :
    candidate.WellFormed := by
  obtain ⟨left, -, right, -, hcandidate⟩ := mem_scoreCandidates.1 h
  exact (candidateFor_made hcandidate).wellFormed

end

/-! ## The report is made -/

/-- The report, if nothing is rejected. -/
def reportedResult (leftUnique rightUnique : List CanonicalTransaction)
    (duplicates : List DuplicateEvidence) (candidates assignments : List Candidate) :
    ReconciliationResult :=
  let items := assignments.map (pairEvidence candidates)
  { matched := sortBy (toLex ·.pair) (items.filter (·.classification = .matched))
    differences := sortBy (toLex ·.pair) (items.filter (·.classification ≠ .matched))
    duplicates := duplicates
    unmatched := sortBy (fun item => toLex (item.side.text, item.transactionId))
      (unmatchedRows .left leftUnique (candidates.map (·.left.transactionId))
          (assignments.map (·.left.transactionId)) ++
        unmatchedRows .right rightUnique (candidates.map (·.right.transactionId))
          (assignments.map (·.right.transactionId))) }

section

variable {rules : TextRules} {leftUnique rightUnique left right : List CanonicalTransaction}
  {duplicates : List DuplicateEvidence} {candidates assignments : List Candidate}
  {policy : ReconciliationPolicy}

variable {assignment : Candidate} {rows : List CanonicalTransaction}

lemma pairEvidence_valid (hmem : assignment ∈ candidates) (hleft : assignment.left.Valid rules)
    (hright : assignment.right.Valid rules)
    (hfields : ∀ field ∈ assignment.matchedFields, field ∈ allowedMatchFields)
    (hne : assignment.matchedFields ≠ []) : (pairEvidence candidates assignment).Valid rules where
  left := hleft.validId
  right := hright.validId
  fields := hfields
  fields_ne_nil := hne
  refs := by
    have hrows : ∀ row ∈ [assignment.left, assignment.right], row.Valid rules := by
      simp only [List.forall_mem_cons]
      exact ⟨hleft, hright, by simp⟩
    have hrefs := validRefs_orderedUnique hrows (List.cons_ne_nil _ _)
    simp only [List.flatMap_cons, List.flatMap_nil, List.append_nil] at hrefs
    exact hrefs
  count := List.length_pos_of_mem (List.mem_filter.2 ⟨hmem, decide_eq_true rfl⟩)

lemma unmatchedRows_valid {side : Side} {candidateIds assignedIds : List String}
    (hvalid : ∀ row ∈ rows, row.Valid rules) :
    ∀ item ∈ unmatchedRows side rows candidateIds assignedIds, item.Valid rules := by
  intro item hitem
  obtain ⟨row, hrow, rfl⟩ := List.mem_map.1 hitem
  have hvalidRow := hvalid row (List.mem_filter.1 hrow).1
  exact ⟨hvalidRow.validId, hvalidRow.validRefs⟩

/-- Rows that are valid, with candidates among them, and valid evidence for the duplicates. -/
structure Reportable (rules : TextRules) (leftUnique rightUnique : List CanonicalTransaction)
    (duplicates : List DuplicateEvidence) (candidates : List Candidate) : Prop where
  left : ∀ row ∈ leftUnique, row.Valid rules
  right : ∀ row ∈ rightUnique, row.Valid rules
  duplicates : ∀ item ∈ duplicates, item.Valid rules
  candidates : ∀ candidate ∈ candidates, ∃ left ∈ leftUnique, ∃ right ∈ rightUnique,
    candidate.Made left right

lemma Reportable.pairEvidence_valid
    (h : Reportable rules leftUnique rightUnique duplicates candidates)
    (hmem : assignment ∈ candidates) : (pairEvidence candidates assignment).Valid rules := by
  obtain ⟨left, hleft, right, hright, hmade⟩ := h.candidates assignment hmem
  exact Reconciliation.pairEvidence_valid hmem (hmade.left ▸ h.left left hleft)
    (hmade.right ▸ h.right right hright) hmade.fields hmade.fields_ne_nil

/-- The report of assigned candidates. -/
theorem Reportable.report_eq_ok
    (h : Reportable rules leftUnique rightUnique duplicates candidates)
    (hassigned : ∀ assignment ∈ assignments, assignment ∈ candidates) :
    report rules leftUnique rightUnique duplicates candidates assignments =
      .ok (reportedResult leftUnique rightUnique duplicates candidates assignments) := by
  have hpairs : ∀ item ∈ assignments.map (pairEvidence candidates), item.Valid rules := by
    intro item hitem
    obtain ⟨assignment, hassignment, rfl⟩ := List.mem_map.1 hitem
    exact h.pairEvidence_valid (hassigned assignment hassignment)
  have hitems : assignments.mapM (fun assignment =>
      (pairEvidence candidates assignment).validated rules) =
        .ok (assignments.map (pairEvidence candidates)) := by
    rw [mapM_eq_ok, List.forall₂_map_right_iff, List.forall₂_same]
    exact fun assignment hassignment =>
      (h.pairEvidence_valid (hassigned assignment hassignment)).validated
  have hunmatched : ∀ {side : Side} {rows : List CanonicalTransaction} {candidateIds assignedIds},
      (∀ row ∈ rows, row.Valid rules) →
        (unmatchedRows side rows candidateIds assignedIds).mapM (·.validated rules) =
          .ok (unmatchedRows side rows candidateIds assignedIds) := fun hrows =>
    mapM_eq_self fun item hitem => (unmatchedRows_valid hrows item hitem).validated
  have hresult : (reportedResult leftUnique rightUnique duplicates candidates
      assignments).validated rules =
        .ok (reportedResult leftUnique rightUnique duplicates candidates assignments) := by
    refine ReconciliationResult.validated_eq_ok ?_ ?_ h.duplicates ?_
    · intro item hitem
      exact hpairs item (List.mem_filter.1 ((perm_sortBy ..).mem_iff.1 hitem)).1
    · intro item hitem
      exact hpairs item (List.mem_filter.1 ((perm_sortBy ..).mem_iff.1 hitem)).1
    · intro item hitem
      rcases List.mem_append.1 ((perm_sortBy ..).mem_iff.1 hitem) with hitem | hitem
      · exact unmatchedRows_valid h.left item hitem
      · exact unmatchedRows_valid h.right item hitem
  simp only [report, bind_eq_ok]
  exact ⟨_, hitems, _, hunmatched h.left, _, hunmatched h.right, hresult⟩

/-! ### The rows of a side -/

/-- The rows of a side without their duplicates. -/
def uniqueRows (rules : TextRules) (rows : List CanonicalTransaction) : List CanonicalTransaction :=
  canonicalRows rules (sortBy transactionSortKey rows)

/-- The duplicates of both sides. -/
def allDuplicates (rules : TextRules) (left right : List CanonicalTransaction) :
    List DuplicateEvidence :=
  sideDuplicates rules .left (sortBy transactionSortKey left) ++
    sideDuplicates rules .right (sortBy transactionSortKey right)

/-- The pairs of rows that the policy lets through. -/
def eligibleCandidates (rules : TextRules) (left right : List CanonicalTransaction)
    (policy : ReconciliationPolicy) : List Candidate :=
  scoreCandidates rules.casefold (uniqueRows rules left) (uniqueRows rules right) policy

/-- Valid rows of one side, each with its own id. -/
structure ValidRows (rules : TextRules) (rows : List CanonicalTransaction) : Prop where
  valid : ∀ row ∈ rows, row.Valid rules
  nodup : (rows.map (·.transactionId)).Nodup

lemma ValidRows.sorted (h : ValidRows rules rows) :
    ValidRows rules (sortBy transactionSortKey rows) where
  valid := fun row hrow => h.valid row ((perm_sortBy ..).mem_iff.1 hrow)
  nodup := ((perm_sortBy ..).map _).nodup_iff.2 h.nodup

lemma ValidRows.unique (h : ValidRows rules rows) :
    ValidRows rules (uniqueRows rules rows) where
  valid := fun row hrow => h.sorted.valid row (canonicalRows_subset hrow)
  nodup := nodup_ids_canonicalRows h.sorted.nodup

lemma normalizeTransactions_eq_ok (h : ValidRows rules rows) :
    normalizeTransactions rows = .ok (sortBy transactionSortKey rows) := by
  simp only [normalizeTransactions, bind_eq_ok, require_eq_ok, pure_eq_ok]
  exact ⟨(), decide_eq_true h.nodup, trivial⟩

lemma prepare_eq_ok (hleft : ValidRows rules left) (hright : ValidRows rules right) :
    prepare rules left right =
      .ok (uniqueRows rules left, uniqueRows rules right, allDuplicates rules left right) := by
  simp only [prepare, bind_eq_ok, pure_eq_ok]
  exact ⟨_, normalizeTransactions_eq_ok hleft, _, normalizeTransactions_eq_ok hright,
    _, partitionDuplicates_eq_ok hleft.sorted.valid hleft.sorted.nodup .left,
    _, partitionDuplicates_eq_ok hright.sorted.valid hright.sorted.nodup .right, rfl⟩

lemma sideDuplicates_valid (h : ValidRows rules rows) (side : Side) :
    ∀ item ∈ sideDuplicates rules side rows, item.Valid rules := by
  intro item hitem
  obtain ⟨group, hgroup, rfl⟩ := List.mem_map.1 ((perm_sortBy ..).mem_iff.1 hitem)
  exact duplicateEvidence_valid h.valid h.nodup hgroup

lemma reportable_eligibleCandidates (hleft : ValidRows rules left) (hright : ValidRows rules right)
    (policy : ReconciliationPolicy) :
    Reportable rules (uniqueRows rules left) (uniqueRows rules right)
      (allDuplicates rules left right) (eligibleCandidates rules left right policy) where
  left := hleft.unique.valid
  right := hright.unique.valid
  duplicates := fun item hitem => (List.mem_append.1 hitem).elim
    (sideDuplicates_valid hleft.sorted .left item) (sideDuplicates_valid hright.sorted .right item)
  candidates := fun candidate hcandidate => by
    obtain ⟨left, hl, right, hr, hmade⟩ := mem_scoreCandidates.1 hcandidate
    exact ⟨left, hl, right, hr, candidateFor_made hmade⟩

lemma nodup_pairs_eligibleCandidates (hleft : ValidRows rules left)
    (hright : ValidRows rules right) (policy : ReconciliationPolicy) :
    ((eligibleCandidates rules left right policy).map Candidate.pair).Nodup :=
  nodup_pairs_scoreCandidates hleft.unique.nodup hright.unique.nodup

/-- What `match_transactions` makes of the match. -/
lemma matchTransactions_eq (hleft : ValidRows rules left) (hright : ValidRows rules right)
    (policy : ReconciliationPolicy) (fuel : ℕ) :
    matchTransactions rules left right policy fuel =
      (optimalOneToOneMatch (eligibleCandidates rules left right policy) fuel).map fun outcome =>
        (outcome.mapError .path).map (reportedResult (uniqueRows rules left)
          (uniqueRows rules right) (allDuplicates rules left right)
          (eligibleCandidates rules left right policy)) := by
  rw [matchTransactions, prepare_eq_ok hleft hright]
  simp only
  rw [← eligibleCandidates]
  cases hmatch : optimalOneToOneMatch (eligibleCandidates rules left right policy) fuel with
  | none => rfl
  | some outcome =>
    cases outcome with
    | error error => rfl
    | ok assignments =>
      have hoptimal := (optimalOneToOneMatch_optimal
        (nodup_pairs_eligibleCandidates hleft hright policy)
        (fun _ => wellFormed_of_mem_scoreCandidates) hmatch).2
      have hreport := (reportable_eligibleCandidates hleft hright policy).report_eq_ok
        fun assignment hassignment => hoptimal.subset assignment (List.mem_toFinset.2 hassignment)
      simp only [Option.map_some]
      rw [hreport]
      rfl

/-- What `match_transactions` returns. -/
theorem exists_assignments (hleft : ValidRows rules left) (hright : ValidRows rules right)
    {fuel : ℕ} {result : ReconciliationResult}
    (h : matchTransactions rules left right policy fuel = some (.ok result)) :
    ∃ assignments, assignments.Nodup ∧
      IsOptimal (eligibleCandidates rules left right policy) assignments.toFinset ∧
      result = reportedResult (uniqueRows rules left) (uniqueRows rules right)
        (allDuplicates rules left right) (eligibleCandidates rules left right policy)
        assignments := by
  rw [matchTransactions_eq hleft hright] at h
  obtain ⟨outcome, hmatch, hresult⟩ := Option.map_eq_some_iff.1 h
  cases outcome with
  | error error => cases hresult
  | ok assignments =>
    obtain ⟨hnodup, hoptimal⟩ := optimalOneToOneMatch_optimal
      (nodup_pairs_eligibleCandidates hleft hright policy)
      (fun _ => wellFormed_of_mem_scoreCandidates) hmatch
    exact ⟨assignments, hnodup, hoptimal, (Except.ok.inj hresult).symm⟩

/-- `match_transactions` ends, and does not raise. -/
theorem matchTransactions_total (hleft : ValidRows rules left) (hright : ValidRows rules right)
    (policy : ReconciliationPolicy) :
    (∃ fuel result, matchTransactions rules left right policy fuel = some (.ok result)) ∧
      ∀ fuel error, matchTransactions rules left right policy fuel ≠ some (.error error) := by
  simp only [matchTransactions_eq hleft hright]
  constructor
  · obtain ⟨fuel, assignments, hmatch⟩ :=
      optimalOneToOneMatch_ok (eligibleCandidates rules left right policy)
    exact ⟨fuel, _, by rw [hmatch]; rfl⟩
  · intro fuel error herror
    obtain ⟨outcome, hmatch, hresult⟩ := Option.map_eq_some_iff.1 herror
    cases outcome with
    | error error => exact optimalOneToOneMatch_ne_error _ fuel error hmatch
    | ok assignments => cases hresult

end

end Reconciliation
end MercuryTools
