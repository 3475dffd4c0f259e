import MercuryTools.Reconciliation.ValidReport

/-!
# Every row has one role

In the result of `match_transactions` every row of each side is a member of one pair, unmatched, or
one of the duplicates of a row that is, and its evidence is reported
(`matchTransactions_conserves`).
-/

namespace MercuryTools
namespace Reconciliation

open Matchings
open StableSorting (sortBy perm_sortBy)

/-! ## Roles -/

/-- The row of a side that is a member of the pair. -/
def PairEvidence.member (item : PairEvidence) : Side → String
  | .left => item.leftTransactionId
  | .right => item.rightTransactionId

namespace ReconciliationResult

/-- The rows of a side that are members of pairs. -/
def assignedIds (result : ReconciliationResult) (side : Side) : List String :=
  (result.matched ++ result.differences).map (·.member side)

/-- The unmatched rows of a side. -/
def unmatchedIds (result : ReconciliationResult) (side : Side) : List String :=
  (result.unmatched.filter (·.side = side)).map (·.transactionId)

/-- The rows of a side that are duplicates of a canonical one. -/
def duplicateIds (result : ReconciliationResult) (side : Side) : List String :=
  (result.duplicates.filter (·.side = side)).flatMap (·.otherIds)

/-- All evidence references. -/
def evidence (result : ReconciliationResult) : List String :=
  (result.matched ++ result.differences).flatMap (·.evidenceRefs) ++
    result.duplicates.flatMap (·.evidenceRefs) ++ result.unmatched.flatMap (·.evidenceRefs)

end ReconciliationResult

/-- Every row of a side has one role. -/
structure Conserves (result : ReconciliationResult) (side : Side)
    (rows : List CanonicalTransaction) : Prop where
  roles : (result.assignedIds side ++ result.unmatchedIds side ++ result.duplicateIds side).Perm
    (rows.map (·.transactionId))
  canonical : ∀ item ∈ result.duplicates, item.side = side →
    item.canonicalTransactionId ∈ result.assignedIds side ++ result.unmatchedIds side
  evidence : ∀ row ∈ rows, ∀ ref ∈ row.evidenceRefs, ref ∈ result.evidence

section

variable {rules : TextRules} {leftUnique rightUnique left right rows : List CanonicalTransaction}
  {duplicates : List DuplicateEvidence} {candidates assignments : List Candidate} {side : Side}

/-- The member of a side, and the rows of a side. -/
def Candidate.member (candidate : Candidate) : Side → String
  | .left => candidate.leftId
  | .right => candidate.rightId

def Candidate.row (candidate : Candidate) : Side → CanonicalTransaction
  | .left => candidate.left
  | .right => candidate.right

def sideRows (leftUnique rightUnique : List CanonicalTransaction) :
    Side → List CanonicalTransaction
  | .left => leftUnique
  | .right => rightUnique

lemma pairs_reportedResult_perm :
    ((reportedResult leftUnique rightUnique duplicates candidates assignments).matched ++
      (reportedResult leftUnique rightUnique duplicates candidates assignments).differences).Perm
        (assignments.map (pairEvidence candidates)) := by
  refine ((perm_sortBy ..).append (perm_sortBy ..)).trans ?_
  have hfilter : ∀ item : PairEvidence, decide (item.classification ≠ .matched) =
      !decide (item.classification = .matched) := fun item => by simp
  simp only [hfilter]
  exact List.filter_append_perm _ _

lemma assignedIds_reportedResult_perm :
    ((reportedResult leftUnique rightUnique duplicates candidates assignments).assignedIds
      side).Perm (assignments.map (·.member side)) := by
  refine (pairs_reportedResult_perm.map _).trans (.of_eq ?_)
  rw [List.map_map]
  refine List.map_congr_left fun assignment _ => ?_
  cases side <;> rfl

lemma filter_unmatchedRows {candidateIds assignedIds : List String} (other : Side) :
    (unmatchedRows side rows candidateIds assignedIds).filter (·.side = other) =
      if side = other then unmatchedRows side rows candidateIds assignedIds else [] := by
  split
  · next heq =>
    refine List.filter_eq_self.2 fun item hitem => ?_
    obtain ⟨row, -, rfl⟩ := List.mem_map.1 hitem
    exact decide_eq_true heq
  · next hne =>
    refine List.filter_eq_nil_iff.2 fun item hitem => ?_
    obtain ⟨row, -, rfl⟩ := List.mem_map.1 hitem
    exact fun h => hne (of_decide_eq_true h)

lemma unmatchedIds_reportedResult_perm :
    ((reportedResult leftUnique rightUnique duplicates candidates assignments).unmatchedIds
      side).Perm (((sideRows leftUnique rightUnique side).filter fun row =>
        !(assignments.map (·.member side)).contains row.transactionId).map (·.transactionId)) := by
  refine (((perm_sortBy ..).filter _).map _).trans (.of_eq ?_)
  rw [List.filter_append, filter_unmatchedRows, filter_unmatchedRows]
  cases side <;> simp only [unmatchedRows, if_true, reduceCtorEq, if_false, List.append_nil,
    List.nil_append, List.map_map] <;> rfl

/-- The rows without duplicates are assigned or unmatched. -/
lemma roles_reportedResult (hnodup : assignments.Nodup)
    (hone : IsOneToOne Candidate.leftId Candidate.rightId (assignments.toFinset : Finset Candidate))
    (hrows : ((sideRows leftUnique rightUnique side).map (·.transactionId)).Nodup)
    (hmember : ∀ assignment ∈ assignments,
      assignment.row side ∈ sideRows leftUnique rightUnique side) :
    ((reportedResult leftUnique rightUnique duplicates candidates assignments).assignedIds side ++
      (reportedResult leftUnique rightUnique duplicates candidates assignments).unmatchedIds
        side).Perm ((sideRows leftUnique rightUnique side).map (·.transactionId)) := by
  set rows := sideRows leftUnique rightUnique side with hrowsEq
  have hinj : (assignments.map (·.member side)).Nodup := by
    refine (List.nodup_map_iff_inj_on hnodup).2 fun x hx y hy heq => ?_
    have hx := List.mem_toFinset.2 hx
    have hy := List.mem_toFinset.2 hy
    cases side with
    | left => exact hone.left hx hy heq
    | right => exact hone.right hx hy heq
  have hassigned : (assignments.map (·.member side)).Perm ((rows.filter fun row =>
      (assignments.map (·.member side)).contains row.transactionId).map (·.transactionId)) := by
    refine (List.perm_ext_iff_of_nodup hinj
      (hrows.sublist (List.filter_sublist.map _))).2 fun id => ?_
    simp only [List.mem_map, List.mem_filter, List.contains_iff_mem]
    constructor
    · rintro ⟨assignment, hassignment, rfl⟩
      refine ⟨assignment.row side,
        ⟨hmember assignment hassignment, assignment, hassignment, ?_⟩, ?_⟩
        <;> cases side <;> rfl
    · rintro ⟨row, ⟨-, hassignment⟩, rfl⟩
      exact hassignment
  refine (assignedIds_reportedResult_perm.append unmatchedIds_reportedResult_perm).trans ?_
  refine (hassigned.append_right _).trans ?_
  rw [← List.map_append]
  exact (List.filter_append_perm _ _).map _

/-! ### Duplicates and evidence -/

lemma side_of_mem_sideDuplicates {item : DuplicateEvidence}
    (h : item ∈ sideDuplicates rules side rows) : item.side = side := by
  obtain ⟨group, -, rfl⟩ := List.mem_map.1 ((perm_sortBy ..).mem_iff.1 h)
  rfl

lemma filter_sideDuplicates (other : Side) :
    (sideDuplicates rules side rows).filter (·.side = other) =
      if side = other then sideDuplicates rules side rows else [] := by
  split
  · next heq =>
    exact List.filter_eq_self.2 fun item hitem =>
      decide_eq_true ((side_of_mem_sideDuplicates hitem).trans heq)
  · next hne =>
    exact List.filter_eq_nil_iff.2 fun item hitem h =>
      hne ((side_of_mem_sideDuplicates hitem).symm.trans (of_decide_eq_true h))

/-- The rows of a side before they are freed of duplicates. -/
def inputRows (left right : List CanonicalTransaction) : Side → List CanonicalTransaction
  | .left => left
  | .right => right

lemma sideRows_uniqueRows : sideRows (uniqueRows rules left) (uniqueRows rules right) side =
    uniqueRows rules (inputRows left right side) := by
  cases side <;> rfl

lemma filter_allDuplicates : (allDuplicates rules left right).filter (·.side = side) =
    sideDuplicates rules side (sortBy transactionSortKey (inputRows left right side)) := by
  rw [allDuplicates, List.filter_append, filter_sideDuplicates, filter_sideDuplicates]
  cases side <;> simp only [if_true, reduceCtorEq, if_false, List.append_nil, List.nil_append] <;>
    rfl

/-- The canonical rows and their duplicates. -/
lemma uniqueRows_append_perm (rules : TextRules) (rows : List CanonicalTransaction) :
    (uniqueRows rules rows ++ otherRows rules (sortBy transactionSortKey rows)).Perm rows :=
  (canonicalRows_append_perm rules _).trans (perm_sortBy ..)

variable {row : CanonicalTransaction} {ref : String} {policy : ReconciliationPolicy}

/-- The references of a row that is only reported as a duplicate. -/
lemma exists_evidence_of_mem_otherRows (side : Side) (h : row ∈ otherRows rules rows)
    (href : ref ∈ row.evidenceRefs) :
    ∃ item ∈ sideDuplicates rules side rows, ref ∈ item.evidenceRefs := by
  obtain ⟨group, hgroup, hrow⟩ := List.mem_flatMap.1 h
  have hlength : 1 < group.length := by
    have hpos := List.length_pos_of_mem hrow
    rw [List.length_tail] at hpos
    omega
  have hduplicates : group ∈ duplicateGroups rules rows :=
    List.mem_filter.2 ⟨hgroup, decide_eq_true hlength⟩
  refine ⟨duplicateEvidence side group,
    (perm_sortBy ..).mem_iff.2 (List.mem_map_of_mem hduplicates), ?_⟩
  exact mem_orderedUnique.2 (List.mem_flatMap.2 ⟨row, List.mem_of_mem_tail hrow, href⟩)

/-- The references of a row that is assigned or unmatched. -/
lemma mem_evidence_of_mem_sideRows
    (hrows : ((sideRows leftUnique rightUnique side).map (·.transactionId)).Nodup)
    (hmember : ∀ assignment ∈ assignments,
      assignment.row side ∈ sideRows leftUnique rightUnique side)
    (h : row ∈ sideRows leftUnique rightUnique side) (href : ref ∈ row.evidenceRefs) :
    ref ∈ (reportedResult leftUnique rightUnique duplicates candidates assignments).evidence := by
  rw [ReconciliationResult.evidence, List.mem_append, List.mem_append]
  by_cases hassigned : row.transactionId ∈ assignments.map (·.member side)
  · obtain ⟨assignment, hassignment, hid⟩ := List.mem_map.1 hassigned
    have heq : assignment.row side = row := by
      refine List.inj_on_of_nodup_map hrows (hmember assignment hassignment) h ?_
      rw [← hid]
      cases side <;> rfl
    have hrefs : ref ∈ (assignment.row side).evidenceRefs := by rwa [heq]
    refine .inl (.inl (List.mem_flatMap.2 ⟨pairEvidence candidates assignment,
      pairs_reportedResult_perm.mem_iff.2 (List.mem_map_of_mem hassignment), ?_⟩))
    rw [pairEvidence]
    refine mem_orderedUnique.2 (List.mem_append.2 ?_)
    cases side with
    | left => exact .inl hrefs
    | right => exact .inr hrefs
  · have hrow : row ∈ (sideRows leftUnique rightUnique side).filter fun row =>
        !(assignments.map (·.member side)).contains row.transactionId := by
      refine List.mem_filter.2 ⟨h, ?_⟩
      rw [Bool.not_eq_true', ← Bool.not_eq_true, List.contains_iff_mem]
      exact hassigned
    refine .inr (List.mem_flatMap.2 ?_)
    cases side with
    | left =>
      exact ⟨_, (perm_sortBy ..).mem_iff.2 (List.mem_append_left _ (List.mem_map_of_mem hrow)),
        href⟩
    | right =>
      exact ⟨_, (perm_sortBy ..).mem_iff.2 (List.mem_append_right _ (List.mem_map_of_mem hrow)),
        href⟩

/-- The rows that are reported as duplicates. -/
lemma duplicateIds_reportedResult_perm
    (hnodup : ((inputRows left right side).map (·.transactionId)).Nodup) :
    ((reportedResult leftUnique rightUnique (allDuplicates rules left right) candidates
      assignments).duplicateIds side).Perm
        ((otherRows rules (sortBy transactionSortKey (inputRows left right side))).map
          (·.transactionId)) := by
  have hfilter : (reportedResult leftUnique rightUnique (allDuplicates rules left right) candidates
      assignments).duplicateIds side =
        (sideDuplicates rules side
          (sortBy transactionSortKey (inputRows left right side))).flatMap (·.otherIds) :=
    congrArg (List.flatMap DuplicateEvidence.otherIds) filter_allDuplicates
  rw [hfilter]
  exact otherIds_sideDuplicates_perm (((perm_sortBy ..).map _).nodup_iff.2 hnodup)

lemma validRows_inputRows (hleft : ValidRows rules left) (hright : ValidRows rules right)
    (side : Side) : ValidRows rules (inputRows left right side) := by
  cases side with
  | left => exact hleft
  | right => exact hright

/-- Candidates are pairs of rows that are not duplicates. -/
lemma row_mem_sideRows {assignment : Candidate}
    (h : assignment ∈ eligibleCandidates rules left right policy) (side : Side) :
    assignment.row side ∈ sideRows (uniqueRows rules left) (uniqueRows rules right) side := by
  obtain ⟨l, hl, r, hr, hcandidate⟩ := mem_scoreCandidates.1 h
  have hmade := candidateFor_made hcandidate
  cases side with
  | left =>
    rw [← hmade.left] at hl
    exact hl
  | right =>
    rw [← hmade.right] at hr
    exact hr

/-- The result for assignments that are one-to-one. -/
theorem conserves_reportedResult (hleft : ValidRows rules left) (hright : ValidRows rules right)
    (hnodup : assignments.Nodup)
    (hoptimal : IsOptimal (eligibleCandidates rules left right policy) assignments.toFinset)
    (side : Side) :
    Conserves (reportedResult (uniqueRows rules left) (uniqueRows rules right)
      (allDuplicates rules left right) (eligibleCandidates rules left right policy) assignments)
        side (inputRows left right side) := by
  have hvalid := validRows_inputRows hleft hright side
  have hrows : ((sideRows (uniqueRows rules left) (uniqueRows rules right) side).map
      (·.transactionId)).Nodup := by
    rw [sideRows_uniqueRows]
    exact hvalid.unique.nodup
  have hmember : ∀ assignment ∈ assignments,
      assignment.row side ∈ sideRows (uniqueRows rules left) (uniqueRows rules right) side :=
    fun assignment hassignment =>
      row_mem_sideRows (hoptimal.subset assignment (List.mem_toFinset.2 hassignment)) side
  have hroles : ((reportedResult (uniqueRows rules left) (uniqueRows rules right)
      (allDuplicates rules left right) (eligibleCandidates rules left right policy)
        assignments).assignedIds side ++
      (reportedResult (uniqueRows rules left) (uniqueRows rules right)
        (allDuplicates rules left right) (eligibleCandidates rules left right policy)
          assignments).unmatchedIds side).Perm
        ((uniqueRows rules (inputRows left right side)).map (·.transactionId)) := by
    rw [← sideRows_uniqueRows]
    exact roles_reportedResult hnodup hoptimal.isOneToOne hrows hmember
  constructor
  case roles =>
    refine (hroles.append (duplicateIds_reportedResult_perm hvalid.nodup)).trans ?_
    rw [← List.map_append]
    exact (uniqueRows_append_perm rules _).map _
  case canonical =>
    intro item hitem hside
    have hfilter : item ∈ sideDuplicates rules side
        (sortBy transactionSortKey (inputRows left right side)) := by
      rw [← filter_allDuplicates]
      exact List.mem_filter.2 ⟨hitem, decide_eq_true hside⟩
    obtain ⟨group, hgroup, rfl⟩ := List.mem_map.1 ((perm_sortBy ..).mem_iff.1 hfilter)
    have hgroup := (List.mem_filter.1 hgroup).1
    rw [hroles.mem_iff]
    obtain ⟨first, others, rfl⟩ := List.exists_cons_of_ne_nil (groupedRows_ne_nil hgroup)
    exact List.mem_map_of_mem (mem_canonicalRows.2 ⟨_, hgroup, rfl⟩)
  case evidence =>
    intro row hrow ref href
    rcases List.mem_append.1 ((uniqueRows_append_perm rules _).mem_iff.2 hrow) with hunique | hother
    · rw [← sideRows_uniqueRows] at hunique
      exact mem_evidence_of_mem_sideRows hrows hmember hunique href
    · obtain ⟨item, hitem, hmem⟩ := exists_evidence_of_mem_otherRows side hother href
      rw [← filter_allDuplicates] at hitem
      rw [ReconciliationResult.evidence, List.mem_append, List.mem_append]
      exact .inl (.inr (List.mem_flatMap.2 ⟨item, (List.mem_filter.1 hitem).1, hmem⟩))

/-- The references that are reported are those of rows. -/
lemma exists_row_of_mem_evidence (hsubset : ∀ assignment ∈ assignments,
      assignment ∈ eligibleCandidates rules left right policy)
    (h : ref ∈ (reportedResult (uniqueRows rules left) (uniqueRows rules right)
      (allDuplicates rules left right) candidates assignments).evidence) :
    ∃ row ∈ left ++ right, ref ∈ row.evidenceRefs := by
  have hunique : ∀ {side : Side} {row : CanonicalTransaction},
      row ∈ sideRows (uniqueRows rules left) (uniqueRows rules right) side →
        row ∈ left ++ right := by
    intro side row hrow
    cases side with
    | left =>
      exact List.mem_append_left _ ((perm_sortBy ..).mem_iff.1 (canonicalRows_subset hrow))
    | right =>
      exact List.mem_append_right _ ((perm_sortBy ..).mem_iff.1 (canonicalRows_subset hrow))
  have hduplicate : ∀ {side : Side} {rows : List CanonicalTransaction} {item : DuplicateEvidence},
      item ∈ sideDuplicates rules side (sortBy transactionSortKey rows) →
        ref ∈ item.evidenceRefs → ∃ row ∈ rows, ref ∈ row.evidenceRefs := by
    intro side rows item hitem href
    obtain ⟨group, hgroup, rfl⟩ := List.mem_map.1 ((perm_sortBy ..).mem_iff.1 hitem)
    obtain ⟨row, hrow, href⟩ := List.mem_flatMap.1 (mem_orderedUnique.1 href)
    exact ⟨row, (perm_sortBy ..).mem_iff.1
      (mem_of_mem_groupedRows (List.mem_filter.1 hgroup).1 hrow), href⟩
  have hunmatched : ∀ (side : Side) {candidateIds assignedIds : List String}
      {item : UnmatchedEvidence},
      item ∈ unmatchedRows side (sideRows (uniqueRows rules left) (uniqueRows rules right) side)
        candidateIds assignedIds → ref ∈ item.evidenceRefs →
          ∃ row ∈ left ++ right, ref ∈ row.evidenceRefs := by
    intro side candidateIds assignedIds item hitem href
    obtain ⟨row, hrow, rfl⟩ := List.mem_map.1 hitem
    exact ⟨row, hunique (List.mem_filter.1 hrow).1, href⟩
  rw [ReconciliationResult.evidence, List.mem_append, List.mem_append] at h
  rcases h with (hpair | hitem) | hitem
  · obtain ⟨item, hitem, href⟩ := List.mem_flatMap.1 hpair
    obtain ⟨assignment, hassignment, rfl⟩ :=
      List.mem_map.1 (pairs_reportedResult_perm.mem_iff.1 hitem)
    have heligible := hsubset assignment hassignment
    rcases List.mem_append.1 (mem_orderedUnique.1 href) with href | href
    · exact ⟨_, hunique (row_mem_sideRows heligible .left), href⟩
    · exact ⟨_, hunique (row_mem_sideRows heligible .right), href⟩
  · obtain ⟨item, hitem, href⟩ := List.mem_flatMap.1 hitem
    rcases List.mem_append.1 hitem with hitem | hitem
    · obtain ⟨row, hrow, href⟩ := hduplicate hitem href
      exact ⟨row, List.mem_append_left _ hrow, href⟩
    · obtain ⟨row, hrow, href⟩ := hduplicate hitem href
      exact ⟨row, List.mem_append_right _ hrow, href⟩
  · obtain ⟨item, hitem, href⟩ := List.mem_flatMap.1 hitem
    rcases List.mem_append.1 ((perm_sortBy ..).mem_iff.1 hitem) with hitem | hitem
    · exact hunmatched .left hitem href
    · exact hunmatched .right hitem href

/-- Whatever valid rows and policy: there is a result, and in every result each row of a side has
one role, and each reference is that of a row. -/
theorem matchTransactions_conserves {policy : ReconciliationPolicy} (hleft : ValidRows rules left)
    (hright : ValidRows rules right) :
    (∃ fuel result, matchTransactions rules left right policy fuel = some (.ok result)) ∧
      (∀ fuel error, matchTransactions rules left right policy fuel ≠ some (.error error)) ∧
      ∀ fuel result, matchTransactions rules left right policy fuel = some (.ok result) →
        Conserves result .left left ∧ Conserves result .right right ∧
          ∀ ref ∈ result.evidence, ∃ row ∈ left ++ right, ref ∈ row.evidenceRefs := by
  obtain ⟨hexists, herror⟩ := matchTransactions_total hleft hright policy
  refine ⟨hexists, herror, fun fuel result hresult => ?_⟩
  obtain ⟨assignments, hnodup, hoptimal, rfl⟩ := exists_assignments hleft hright hresult
  refine ⟨conserves_reportedResult hleft hright hnodup hoptimal .left,
    conserves_reportedResult hleft hright hnodup hoptimal .right, fun ref href => ?_⟩
  exact exists_row_of_mem_evidence
    (fun assignment hassignment => hoptimal.subset assignment (List.mem_toFinset.2 hassignment))
    href

end

/-! ### Two sides -/

/-- Rules for texts of ASCII. -/
def asciiRules : TextRules where
  casefold := id
  isTokenCharacter := isLocatorCharacter
  isDisallowed := fun c => c.toNat < 32
  isSafeUri := fun _ => false
  casefold_eq := fun _ _ => rfl

/-- A payment with this id. -/
def payment (transactionId : String) : CanonicalTransaction where
  transactionId := transactionId
  source := "bank"
  amount := 1250
  currency := "THB"
  transactionDate := 739000
  reference := some "INV-7"
  counterpartyKey := none
  documentState := "paid"
  evidenceRefs := ["bank:row:" ++ transactionId]
  amount_lt := by decide
  evidenceRefs_ne_nil := List.cons_ne_nil _ _
  evidenceRefs_nodup := List.nodup_singleton _

def exactPolicy : ReconciliationPolicy where
  amountTolerance := 0
  differenceTolerance := 100
  dateToleranceDays := 3
  requireDocumentStateMatch := true
  requireIdentityMatch := true
  tolerance_le := by decide
  differenceTolerance_lt := by decide
  dateToleranceDays_le := by decide

lemma payment_valid : (payment "A1").Valid asciiRules ∧ (payment "A2").Valid asciiRules ∧
    (payment "B1").Valid asciiRules := by
  refine ⟨⟨?_, ?_, ?_, ?_⟩, ⟨?_, ?_, ?_, ?_⟩, ⟨?_, ?_, ?_, ?_⟩⟩ <;> decide

/-- Two payments that are duplicates of each other, and one that matches them. -/
lemma validRows_payments :
    ValidRows asciiRules [payment "A1", payment "A2"] ∧
      ValidRows asciiRules [payment "B1"] := by
  obtain ⟨ha1, ha2, hb1⟩ := payment_valid
  refine ⟨⟨?_, by decide⟩, ⟨?_, by decide⟩⟩
  · simp only [List.forall_mem_cons]
    exact ⟨ha1, ha2, by simp⟩
  · simp only [List.forall_mem_cons]
    exact ⟨hb1, by simp⟩

theorem matchTransactions_conserves_payments :
    ∃ fuel result, matchTransactions asciiRules [payment "A1", payment "A2"] [payment "B1"]
        exactPolicy fuel = some (.ok result) ∧
      Conserves result .left [payment "A1", payment "A2"] ∧
      Conserves result .right [payment "B1"] := by
  obtain ⟨⟨fuel, result, hresult⟩, -, hconserves⟩ :=
    matchTransactions_conserves validRows_payments.1 validRows_payments.2
  obtain ⟨hleft, hright, -⟩ := hconserves fuel result hresult
  exact ⟨fuel, result, hresult, hleft, hright⟩

end Reconciliation
end MercuryTools
