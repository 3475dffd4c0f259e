import MercuryTools.Framework.DecimalRounding
import MercuryTools.Framework.StableSorting
import MercuryTools.Local.CredentialStore
import Mathlib.Data.Prod.Lex
import Mathlib.Data.String.Basic

/-!
# Transactions and candidates

The rows of `reconciliation/models.py` as they are after validation, and the first half of
`reconciliation/matcher.py`: the duplicates of a side are grouped, and every two rows that the
policy lets through are a candidate.

An amount is quantized to two places and has at most 28 digits, so it is a whole number of
hundredths here.  The difference of two amounts can have one digit more and is then rounded, but
never for a candidate (`candidateFor_amountDifference`).
-/

namespace MercuryTools
namespace Reconciliation

open Local (isSpace strip)
open StableSorting (sortBy)

/-! ## The rows -/

/-- The largest coefficient of a decimal number is below this. -/
def moneyBound : ℤ := 10 ^ 28

/-- `CanonicalTransaction`; the amount is in hundredths, and the date is its ordinal. -/
structure CanonicalTransaction where
  transactionId : String
  source : String
  amount : ℤ
  currency : String
  transactionDate : ℤ
  reference : Option String
  counterpartyKey : Option String
  documentState : String
  evidenceRefs : List String
  amount_lt : |amount| < moneyBound
  evidenceRefs_ne_nil : evidenceRefs ≠ []
  evidenceRefs_nodup : evidenceRefs.Nodup
  deriving DecidableEq

/-- `ReconciliationPolicy`; the tolerances are in hundredths. -/
structure ReconciliationPolicy where
  amountTolerance : ℕ
  differenceTolerance : ℕ
  dateToleranceDays : ℕ
  requireDocumentStateMatch : Bool
  requireIdentityMatch : Bool
  tolerance_le : amountTolerance ≤ differenceTolerance
  differenceTolerance_lt : (differenceTolerance : ℤ) < moneyBound
  dateToleranceDays_le : dateToleranceDays ≤ 31

/-! ## The difference of two amounts -/

/-- A sum or a difference of two amounts, in hundredths, with 28 significant digits: where it has
one digit more, the last one is rounded away. -/
def roundMoney (n : ℤ) : ℤ :=
  if |n| < moneyBound then n else 10 * Decimals.nearestEven (n / 10 : ℚ)

lemma moneyBound_le_abs_roundMoney {n : ℤ} (h : moneyBound ≤ |n|) :
    moneyBound ≤ |roundMoney n| := by
  rw [roundMoney, if_neg (not_lt.2 h)]
  rw [moneyBound] at h ⊢
  rcases le_abs.1 h with hpos | hneg
  · have hle : ((10 ^ 27 : ℤ) : ℚ) ≤ n / 10 := by
      rw [le_div_iff₀ (by norm_num)]
      exact_mod_cast (show (10 : ℤ) ^ 27 * 10 ≤ n by omega)
    have hnearest := Decimals.le_nearestEven hle
    exact le_abs.2 (.inl (by omega))
  · have hle : (n / 10 : ℚ) ≤ ((-10 ^ 27 : ℤ) : ℚ) := by
      rw [div_le_iff₀ (by norm_num)]
      exact_mod_cast (show n ≤ -(10 : ℤ) ^ 27 * 10 by omega)
    have hnearest := Decimals.nearestEven_le hle
    exact le_abs.2 (.inr (by omega))

/-- A difference within a tolerance is exact. -/
lemma abs_roundMoney_eq {n t : ℤ} (ht : t < moneyBound) (h : |roundMoney n| ≤ t) :
    |roundMoney n| = |n| := by
  by_cases hn : |n| < moneyBound
  · rw [roundMoney, if_pos hn]
  · exact absurd (moneyBound_le_abs_roundMoney (not_lt.1 hn)) (not_le.2 (h.trans_lt ht))

/-! ## Keys -/

/-- The tuple that rows with the same key share. -/
structure DuplicateKey where
  source : String
  amount : ℤ
  currency : String
  transactionDate : ℤ
  reference : String
  counterpartyKey : String
  documentState : String
  deriving DecidableEq

/-- `re.sub`, with a blank for every run of these characters. -/
def collapse (isBlank : Char → Bool) : List Char → List Char
  | [] => []
  | c :: text =>
      if isBlank c then
        if text.head?.any isBlank then collapse isBlank text else ' ' :: collapse isBlank text
      else c :: collapse isBlank text

section

variable (casefold : String → String)

/-- `_text_key`. -/
def textKey (value : Option String) : String :=
  casefold (String.ofList (collapse isSpace (strip (value.getD "").toList)))

/-- `_transaction_sort_key`. -/
def transactionSortKey (transaction : CanonicalTransaction) : String ×ₗ String :=
  toLex (transaction.transactionId, transaction.source)

/-- `_duplicate_key`. -/
def duplicateKey (transaction : CanonicalTransaction) : DuplicateKey where
  source := transaction.source
  amount := transaction.amount
  currency := transaction.currency
  transactionDate := transaction.transactionDate
  reference := textKey casefold transaction.reference
  counterpartyKey := textKey casefold transaction.counterpartyKey
  documentState := transaction.documentState

/-! ## Candidates -/

/-- The literals of a classification. -/
inductive Classification
  | matched
  | difference
  deriving DecidableEq, Repr

/-- The tuple `quality`. -/
structure Quality where
  classification : ℕ
  reference : ℕ
  counterparty : ℕ
  amountDifference : ℕ
  dateDifference : ℕ
  deriving DecidableEq, Repr

/-- `_Candidate`. -/
structure Candidate where
  left : CanonicalTransaction
  right : CanonicalTransaction
  classification : Classification
  amountDifference : ℕ
  dateDifferenceDays : ℕ
  matchedFields : List String
  quality : Quality
  deriving DecidableEq

/-- `stable_rank`. -/
def Candidate.stableRank (candidate : Candidate) :
    ℕ ×ₗ ℕ ×ₗ ℕ ×ₗ ℕ ×ₗ ℕ ×ₗ String ×ₗ String :=
  toLex (candidate.quality.classification, toLex (candidate.quality.reference,
    toLex (candidate.quality.counterparty, toLex (candidate.quality.amountDifference,
      toLex (candidate.quality.dateDifference,
        toLex (candidate.left.transactionId, candidate.right.transactionId))))))

/-- Whether two keys are equal and not empty. -/
def keysMatch (left right : Option String) : Bool :=
  textKey casefold left ≠ "" && textKey casefold left == textKey casefold right

/-- The names of the fields that match; the currency always does. -/
def matchedFieldNames (reference counterparty documentState amount transactionDate : Bool) :
    List String :=
  ["currency"] ++ (if reference then ["reference"] else []) ++
    (if counterparty then ["counterparty_key"] else []) ++
    (if documentState then ["document_state"] else []) ++ (if amount then ["amount"] else []) ++
    (if transactionDate then ["transaction_date"] else [])

/-- `_candidate_for`. -/
def candidateFor (left right : CanonicalTransaction) (policy : ReconciliationPolicy) :
    Option Candidate :=
  if left.currency ≠ right.currency then none
  else
    let dateDifference := (left.transactionDate - right.transactionDate).natAbs
    if policy.dateToleranceDays < dateDifference then none
    else if policy.requireDocumentStateMatch && left.documentState ≠ right.documentState then none
    else
      let referenceMatch := keysMatch casefold left.reference right.reference
      let counterpartyMatch := keysMatch casefold left.counterpartyKey right.counterpartyKey
      if policy.requireIdentityMatch && !(referenceMatch || counterpartyMatch) then none
      else
        let amountDifference := (roundMoney (left.amount - right.amount)).natAbs
        let candidate (classification : Classification) (classificationRank : ℕ) : Candidate :=
          { left := left
            right := right
            classification := classification
            amountDifference := amountDifference
            dateDifferenceDays := dateDifference
            matchedFields := matchedFieldNames referenceMatch counterpartyMatch
              (left.documentState = right.documentState)
              (amountDifference ≤ policy.amountTolerance) (dateDifference = 0)
            quality :=
              { classification := classificationRank
                reference := if referenceMatch then 0 else 1
                counterparty := if counterpartyMatch then 0 else 1
                amountDifference := amountDifference
                dateDifference := dateDifference } }
        if amountDifference ≤ policy.amountTolerance then some (candidate .matched 0)
        else if amountDifference ≤ policy.differenceTolerance then some (candidate .difference 1)
        else none

/-- The amount difference of a candidate is exact. -/
lemma candidateFor_amountDifference {left right : CanonicalTransaction}
    {policy : ReconciliationPolicy} {candidate : Candidate}
    (h : candidateFor casefold left right policy = some candidate) :
    (candidate.amountDifference : ℤ) = |left.amount - right.amount| := by
  have hexact : (roundMoney (left.amount - right.amount)).natAbs ≤ policy.differenceTolerance →
      ((roundMoney (left.amount - right.amount)).natAbs : ℤ) = |left.amount - right.amount| := by
    intro hle
    rw [Int.natCast_natAbs]
    refine abs_roundMoney_eq policy.differenceTolerance_lt ?_
    rw [← Int.natCast_natAbs]
    exact_mod_cast hle
  simp only [candidateFor] at h
  split at h
  · cases h
  · split at h
    · cases h
    · split at h
      · cases h
      · split at h
        · cases h
        · split at h
          · next hle =>
            obtain rfl := Option.some.inj h
            exact hexact (hle.trans policy.tolerance_le)
          · split at h
            · next hle =>
              obtain rfl := Option.some.inj h
              exact hexact hle
            · cases h

/-- `_score_candidates`. -/
def scoreCandidates (leftRows rightRows : List CanonicalTransaction)
    (policy : ReconciliationPolicy) : List Candidate :=
  sortBy Candidate.stableRank <| leftRows.flatMap fun left =>
    rightRows.filterMap fun right => candidateFor casefold left right policy

end

end Reconciliation
end MercuryTools
