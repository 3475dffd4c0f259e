import MercuryTools.Reconciliation.EvidenceTexts
import MercuryTools.Reconciliation.Matching

/-!
# The report of a reconciliation

The evidence models of `reconciliation/models.py`, and `match_transactions` of
`reconciliation/matcher.py`: the rows of each side are sorted and freed of duplicates, the
candidates are matched, and every row is reported as a member of a pair, as unmatched, or as a
duplicate.  A model is validated when it is built, and again when the result is.
-/

namespace MercuryTools
namespace Reconciliation

open Checks
open StableSorting (sortBy)

/-! ## Evidence -/

inductive Side
  | left
  | right
  deriving DecidableEq, Repr

inductive TieBreaker
  | none
  | stableTransactionId
  deriving DecidableEq, Repr

inductive UnmatchedReason
  | candidateContention
  | noEligibleCandidate
  deriving DecidableEq, Repr

/-- The literals of the models. -/
def Classification.text : Classification → String
  | .matched => "matched"
  | .difference => "difference"

def Side.text : Side → String
  | .left => "left"
  | .right => "right"

def TieBreaker.text : TieBreaker → String
  | .none => "none"
  | .stableTransactionId => "stable_transaction_id"

def UnmatchedReason.text : UnmatchedReason → String
  | .candidateContention => "candidate_contention"
  | .noEligibleCandidate => "no_eligible_candidate"

/-- `PairEvidence` -/
structure PairEvidence where
  classification : Classification
  leftTransactionId : String
  rightTransactionId : String
  amountDifference : ℕ
  dateDifferenceDays : ℕ
  matchedFields : List String
  evidenceRefs : List String
  candidateCount : ℕ
  tieBreaker : TieBreaker
  deriving DecidableEq, Repr

/-- `DuplicateEvidence`; its reason is always the same. -/
structure DuplicateEvidence where
  side : Side
  canonicalTransactionId : String
  transactionIds : List String
  evidenceRefs : List String
  deriving DecidableEq, Repr

/-- `UnmatchedEvidence` -/
structure UnmatchedEvidence where
  side : Side
  transactionId : String
  evidenceRefs : List String
  reason : UnmatchedReason
  deriving DecidableEq, Repr

/-- `ReconciliationResult` -/
structure ReconciliationResult where
  matched : List PairEvidence
  differences : List PairEvidence
  duplicates : List DuplicateEvidence
  unmatched : List UnmatchedEvidence
  deriving DecidableEq, Repr

/-- The code of the validators of texts. -/
def evidenceTextInvalid : String := "reconciliation_evidence_text_invalid"

def evidenceRefsInvalid : String := "reconciliation_evidence_refs_invalid"

/-- The names that `PairEvidence` allows. -/
def allowedMatchFields : List String :=
  ["amount", "counterparty_key", "currency", "document_state", "reference", "transaction_date"]

/-- `_normalized_text` -/
def normalizedText (value : String) (code : String) : Except String String := do
  let cleaned := cleanText value.toList
  require (!cleaned.isEmpty) code
  return String.ofList cleaned

section

variable (rules : TextRules)

/-- The validators of the evidence references, which every model has. -/
def validatedRefs (refs : List String) : Except String (List String) := do
  let refs ← refs.mapM (evidenceLocator rules · evidenceTextInvalid)
  require (1 ≤ refs.length) "too_short"
  require (decide refs.Nodup) evidenceRefsInvalid
  return refs

/-- The validators of `PairEvidence`. -/
def PairEvidence.validated (item : PairEvidence) : Except String PairEvidence := do
  validateCredentialSafe rules ([item.classification.text, item.leftTransactionId,
    item.rightTransactionId] ++ item.matchedFields ++ item.evidenceRefs ++ [item.tieBreaker.text])
  let leftTransactionId ← recordIdentifier rules item.leftTransactionId evidenceTextInvalid
  let rightTransactionId ← recordIdentifier rules item.rightTransactionId evidenceTextInvalid
  let matchedFields ← item.matchedFields.mapM (normalizedText · evidenceTextInvalid)
  let evidenceRefs ← validatedRefs rules item.evidenceRefs
  require (1 ≤ item.candidateCount) "greater_than_equal"
  require (!matchedFields.isEmpty && matchedFields.all (allowedMatchFields.contains ·))
    "reconciliation_matched_fields_invalid"
  return { item with
    leftTransactionId := leftTransactionId
    rightTransactionId := rightTransactionId
    matchedFields := matchedFields
    evidenceRefs := evidenceRefs }

/-- The validators of `DuplicateEvidence`. -/
def DuplicateEvidence.validated (item : DuplicateEvidence) : Except String DuplicateEvidence := do
  validateCredentialSafe rules ([item.side.text, item.canonicalTransactionId] ++
    item.transactionIds ++ item.evidenceRefs)
  let canonicalTransactionId ←
    recordIdentifier rules item.canonicalTransactionId evidenceTextInvalid
  let transactionIds ← item.transactionIds.mapM (recordIdentifier rules · evidenceTextInvalid)
  require (2 ≤ transactionIds.length) "too_short"
  let evidenceRefs ← validatedRefs rules item.evidenceRefs
  require (decide transactionIds.Nodup && transactionIds.contains canonicalTransactionId)
    "reconciliation_duplicate_ids_invalid"
  return { item with
    canonicalTransactionId := canonicalTransactionId
    transactionIds := transactionIds
    evidenceRefs := evidenceRefs }

/-- The validators of `UnmatchedEvidence`. -/
def UnmatchedEvidence.validated (item : UnmatchedEvidence) : Except String UnmatchedEvidence := do
  validateCredentialSafe rules ([item.side.text, item.transactionId] ++ item.evidenceRefs ++
    [item.reason.text])
  let transactionId ← recordIdentifier rules item.transactionId evidenceTextInvalid
  let evidenceRefs ← validatedRefs rules item.evidenceRefs
  return { item with transactionId := transactionId, evidenceRefs := evidenceRefs }

/-- The validators of `ReconciliationResult`, which validates its items again. -/
def ReconciliationResult.validated (result : ReconciliationResult) :
    Except String ReconciliationResult := do
  let matched ← result.matched.mapM (·.validated rules)
  let differences ← result.differences.mapM (·.validated rules)
  let duplicates ← result.duplicates.mapM (·.validated rules)
  let unmatched ← result.unmatched.mapM (·.validated rules)
  return ⟨matched, differences, duplicates, unmatched⟩

/-! ## Duplicates -/

/-- `_ordered_unique`: the first of equal values stays. -/
def orderedUnique {α : Type} [DecidableEq α] : List α → List α
  | [] => []
  | value :: values => value :: (orderedUnique values).filter (· ≠ value)

/-- `_normalize_transactions`, for rows that are validated. -/
def normalizeTransactions (rows : List CanonicalTransaction) :
    Except String (List CanonicalTransaction) := do
  require (decide (rows.map (·.transactionId)).Nodup) "reconciliation_transaction_id_duplicate"
  return sortBy transactionSortKey rows

/-- The rows with the same key, in the order of the first row of each group. -/
def groupedRows (rows : List CanonicalTransaction) : List (List CanonicalTransaction) :=
  (orderedUnique (rows.map (duplicateKey rules.casefold))).map fun key =>
    sortBy transactionSortKey (rows.filter fun row => duplicateKey rules.casefold row = key)

/-- The evidence for a group with more than one row. -/
def duplicateEvidence (side : Side) (ordered : List CanonicalTransaction) : DuplicateEvidence where
  side := side
  canonicalTransactionId := (ordered.map (·.transactionId)).headD ""
  transactionIds := ordered.map (·.transactionId)
  evidenceRefs := orderedUnique (ordered.flatMap (·.evidenceRefs))

/-- The first row of each group. -/
def canonicalRows (rows : List CanonicalTransaction) : List CanonicalTransaction :=
  sortBy transactionSortKey ((groupedRows rules rows).filterMap List.head?)

/-- `_partition_duplicates` -/
def partitionDuplicates (rows : List CanonicalTransaction) (side : Side) :
    Except String (List CanonicalTransaction × List DuplicateEvidence) := do
  let evidence ← ((groupedRows rules rows).filter (1 < ·.length)).mapM fun ordered =>
    (duplicateEvidence side ordered).validated rules
  return (canonicalRows rules rows, sortBy (·.transactionIds) evidence)

/-! ## The report -/

/-- The evidence for an assignment. -/
def pairEvidence (candidates : List Candidate) (assignment : Candidate) : PairEvidence :=
  let rowCandidates := candidates.filter fun candidate =>
    candidate.left.transactionId = assignment.left.transactionId
  let tied := rowCandidates.countP fun candidate => candidate.quality = assignment.quality
  { classification := assignment.classification
    leftTransactionId := assignment.left.transactionId
    rightTransactionId := assignment.right.transactionId
    amountDifference := assignment.amountDifference
    dateDifferenceDays := assignment.dateDifferenceDays
    matchedFields := assignment.matchedFields
    evidenceRefs := orderedUnique (assignment.left.evidenceRefs ++ assignment.right.evidenceRefs)
    candidateCount := rowCandidates.length
    tieBreaker := if 1 < tied then .stableTransactionId else .none }

/-- The evidence for a row that is not assigned. -/
def unmatchedEvidence (side : Side) (candidateIds : List String) (row : CanonicalTransaction) :
    UnmatchedEvidence where
  side := side
  transactionId := row.transactionId
  evidenceRefs := row.evidenceRefs
  reason := if candidateIds.contains row.transactionId then .candidateContention
    else .noEligibleCandidate

/-- The rows of a side that are not assigned. -/
def unmatchedRows (side : Side) (rows : List CanonicalTransaction)
    (candidateIds assignedIds : List String) : List UnmatchedEvidence :=
  (rows.filter fun row => !assignedIds.contains row.transactionId).map
    (unmatchedEvidence side candidateIds)

/-- The order of pairs in the result. -/
def PairEvidence.pair (item : PairEvidence) : String × String :=
  (item.leftTransactionId, item.rightTransactionId)

/-- `match_transactions` after the assignments. -/
def report (leftUnique rightUnique : List CanonicalTransaction)
    (duplicates : List DuplicateEvidence) (candidates assignments : List Candidate) :
    Except String ReconciliationResult := do
  let items ← assignments.mapM fun assignment =>
    (pairEvidence candidates assignment).validated rules
  let unmatchedLeft ← (unmatchedRows .left leftUnique (candidates.map (·.left.transactionId))
    (assignments.map (·.left.transactionId))).mapM (·.validated rules)
  let unmatchedRight ← (unmatchedRows .right rightUnique (candidates.map (·.right.transactionId))
    (assignments.map (·.right.transactionId))).mapM (·.validated rules)
  ReconciliationResult.validated rules
    { matched := sortBy (toLex ·.pair) (items.filter (·.classification = .matched))
      differences := sortBy (toLex ·.pair) (items.filter (·.classification ≠ .matched))
      duplicates := duplicates
      unmatched := sortBy (fun item => toLex (item.side.text, item.transactionId))
        (unmatchedLeft ++ unmatchedRight) }

/-- What `match_transactions` raises. -/
inductive MatchError
  | value (code : String)
  | path (error : PathError)
  deriving DecidableEq, Repr

/-- The rows of both sides without duplicates, and the duplicates. -/
def prepare (left right : List CanonicalTransaction) :
    Except String
      (List CanonicalTransaction × List CanonicalTransaction × List DuplicateEvidence) :=
  do
    let leftRows ← normalizeTransactions left
    let rightRows ← normalizeTransactions right
    let (leftUnique, leftDuplicates) ← partitionDuplicates rules leftRows .left
    let (rightUnique, rightDuplicates) ← partitionDuplicates rules rightRows .right
    return (leftUnique, rightUnique, leftDuplicates ++ rightDuplicates)

/-- `match_transactions`, with at most this many rounds for each loop of the matching. -/
def matchTransactions (left right : List CanonicalTransaction) (policy : ReconciliationPolicy)
    (fuel : ℕ) : Option (Except MatchError ReconciliationResult) :=
  match prepare rules left right with
  | .error code => some (.error (.value code))
  | .ok (leftUnique, rightUnique, duplicates) =>
      let candidates := scoreCandidates rules.casefold leftUnique rightUnique policy
      (optimalOneToOneMatch candidates fuel).map fun result =>
        match result with
        | .error error => .error (.path error)
        | .ok assignments =>
            (report rules leftUnique rightUnique duplicates candidates assignments).mapError .value

end

end Reconciliation
end MercuryTools
