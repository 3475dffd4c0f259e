import MercuryTools.Flows.Templates
import MercuryTools.Framework.Checks
import MercuryTools.Framework.Decimals

/-!
# General journal vouchers

`prepare_general_journal` of `journals/models.py`.  The lines of a voucher are read one after the
other: a side, an amount in hundredths and the one account of the chart that fits.  The totals of
the two sides are kept in the default context, which has a precision of twenty-eight digits.
-/

namespace MercuryTools
namespace Journals

open Checks
open Decimals hiding Decimal
open Decimals (Decimal)
open Flows (Fields ValueRules getArg isTrue stripText)
open Local (isSpace)

/-- What `Decimal` makes of a text. -/
inductive Number where
  | finite (value : Decimal)
  | infinity
  | nan
  deriving DecidableEq

/-- What the journals take from Python: the texts and integers of values, folded letters, the number
and the date of a text, and the text of the nearest float. -/
structure JournalRules where
  values : ValueRules
  casefold : String → String
  decimal : String → Option Number
  isoDate : String → Option String
  float : ℚ → String

/-- `JournalValidationError`, or the name of another exception. -/
inductive JournalFailure where
  | validation (code message : String) (details : Fields)
  | raised (name : String)
  deriving DecidableEq

variable (rules : JournalRules)

/-! ## Values -/

/-- `str(value or "")` -/
def textOf (value : Json) : String :=
  if isTrue rules.values value then rules.values.str value else ""

/-- `re.sub(r"\s+", " ", text)` -/
def collapseSpaces : List Char → List Char
  | [] => []
  | c :: text =>
      if isSpace c then
        if text.head?.any isSpace then collapseSpaces text else ' ' :: collapseSpaces text
      else c :: collapseSpaces text

/-- `_normalize_text` -/
def normalizeText (value : Json) : String :=
  rules.casefold (String.ofList (collapseSpaces (stripText (textOf rules value)).toList))

/-- `_money`: `quantize` fails where the coefficient would be longer than the precision. -/
def money (value : Json) : Except JournalFailure ℚ :=
  let notDecimal := JournalFailure.validation "invalid_amount"
    "Journal amounts must be decimal values." []
  let notPositive := JournalFailure.validation "invalid_amount"
    "Journal amounts must be greater than zero." []
  match rules.decimal (rules.values.str value) with
  | some (.finite number) =>
      let amount := roundHalfUp 2 number.value
      if |amount| * 10 ^ 2 < 10 ^ 28 then
        if 0 < amount then .ok amount else .error notPositive
      else .error notDecimal
  | some .nan => .error notPositive
  | some .infinity | none => .error notDecimal

/-- `_json_amount` -/
def jsonAmount (amount : ℚ) : Json :=
  if amount.den = 1 then .int amount.num else .float (rules.float amount)

/-- The text of a number with two places, `f"{amount:.2f}"`. -/
def twoPlaces (amount : ℚ) : String :=
  Decimal.text ⟨decide (amount < 0), (amount * 10 ^ 2).num.natAbs, -2⟩

/-! ## Accounts -/

/-- `str(row.get("nameLocal") or row.get("nameForeign") or "")` -/
def accountName (row : Fields) : String :=
  if isTrue rules.values (getArg row "nameLocal") then
    rules.values.str (getArg row "nameLocal")
  else textOf rules (getArg row "nameForeign")

/-- `_candidate_summary` -/
def candidateSummary (row : Fields) : Fields :=
  [("code", .str (textOf rules (getArg row "code"))), ("name", .str (accountName rules row))]

/-- A row fits a line: by its code where the line has one, else by one of its names. -/
def fits (line row : Fields) : Bool :=
  if normalizeText rules (getArg line "account_code") ≠ "" then
    normalizeText rules (getArg row "code") == normalizeText rules (getArg line "account_code")
  else
    [normalizeText rules (getArg row "nameLocal"),
      normalizeText rules (getArg row "nameForeign")].contains
        (normalizeText rules (getArg line "account_name"))

/-- `_resolve_account` -/
def resolveAccount (line : Fields) (accounts : List Fields) : Except JournalFailure Fields :=
  if normalizeText rules (getArg line "account_code") = "" ∧
      normalizeText rules (getArg line "account_name") = "" then
    .error (.validation "account_required"
      "Each journal line requires account_code or account_name." [])
  else
    match accounts.filter (fits rules line) with
    | [] => .error (.validation "account_resolution_required"
        "No exact chart-of-account match was found."

    [("account_code", getArg line "account_code"), ("account_name", getArg line "account_name")])
    | [row] => .ok row
    | candidates => .error (.validation "ambiguous_account"
        "More than one chart-of-account match was found."
        [("candidates", .arr (candidates.map fun row => .obj (candidateSummary rules row)))])

/-! ## Lines -/

inductive Side where
  | debit
  | credit
  deriving DecidableEq

def Side.text : Side → String
  | .debit => "debit"
  | .credit => "credit"

/-- `SIDE_CODES` -/
def Side.code : Side → ℤ
  | .debit => 1
  | .credit => 3

/-- The side of a line. -/
def readSide (line : Fields) : Except JournalFailure Side :=
  let side := rules.values.lower (stripText (textOf rules (getArg line "side")))
  if side = "debit" then .ok .debit
  else if side = "credit" then .ok .credit
  else .error (.validation "invalid_side" "side must be debit or credit." [])

/-- `int(account["id"])` -/
def accountId (account : Fields) : Except JournalFailure ℤ :=
  match account.lookup "id" with
  | none => .error (.raised "KeyError")
  | some value => (rules.values.int value).elim (.error (.raised "ValueError")) .ok

/-- A text, or `None` for a blank one. -/
def orNone (text : String) : Json :=
  if text = "" then .null else .str text

/-- What is read of a line. -/
structure JournalLine where
  side : Side
  amount : ℚ
  account : Fields
  accountId : ℤ
  description : Json
  deriving DecidableEq

/-- The checks of a line, in the loop of `prepare_general_journal`. -/
def readLine (accounts : List Fields) (line : Fields) : Except JournalFailure JournalLine := do
  let side ← readSide rules line
  let amount ← money rules (getArg line "amount")
  let account ← resolveAccount rules line accounts
  let id ← accountId rules account
  return {
    side, amount, account
    accountId := id
    description := orNone (stripText (textOf rules (getArg line "description"))) }

/-- An entry of `body_lines`. -/
def bodyLine (line : JournalLine) : Fields :=
  [("debitCredit", .int line.side.code), ("chartOfAccountId", .int line.accountId),
    ("value", jsonAmount rules line.amount), ("description", line.description)]

/-- An entry of `preview_lines`. -/
def previewLine (line : JournalLine) : Fields :=
  [("side", .str line.side.text),
    ("account_code", .str (textOf rules (getArg line.account "code"))),
    ("account_name", .str (accountName rules line.account)),
    ("amount", .str (twoPlaces line.amount)), ("description", line.description)]

/-- A sum in the default context. -/
def addInContext (total amount : ℚ) : ℚ :=
  roundSignificant 28 2 (total + amount)

/-- The totals and the lines of a voucher, as far as it has been read. -/
structure JournalState where
  debit : ℚ
  credit : ℚ
  bodyLines : List Fields
  previewLines : List Fields

def JournalState.empty : JournalState where
  debit := 0
  credit := 0
  bodyLines := []
  previewLines := []

/-- A line is added. -/
def JournalState.add (state : JournalState) (line : JournalLine) : JournalState where
  debit := if line.side = .debit then addInContext state.debit line.amount else state.debit
  credit := if line.side = .debit then state.credit else addInContext state.credit line.amount
  bodyLines := state.bodyLines ++ [bodyLine rules line]
  previewLines := state.previewLines ++ [previewLine rules line]

/-! ## `prepare_general_journal` -/

/-- The arguments of `prepare_general_journal`. -/
structure JournalRequest where
  documentDate : String
  reference : String
  description : String
  lines : List Fields
  accounts : List Fields
  environment : String
  note : Option String
  remarks : Option String

/-- `PreparedJournal` -/
structure PreparedJournal where
  documentDate : String
  reference : String
  description : String
  totalDebit : String
  totalCredit : String
  previewLines : List Fields
  flowaccountPayload : Fields
  deriving DecidableEq

/-- `str(text).strip() if text else None` -/
def strippedOrNone : Option String → Json
  | none => .null
  | some text => if text = "" then .null else .str (stripText text)

/-- The payload of a voucher. -/
def flowaccountPayload (request : JournalRequest) (date : String) (bodyLines : List Fields) :
    Fields :=
  [("documentType", .int 51), ("documentDate", .str date), ("contactId", .null),
    ("contactName", .str ""), ("description", .str (stripText request.description)),
    ("note", strippedOrNone request.note), ("remarks", strippedOrNone request.remarks),
    ("reference", orNone (stripText request.reference)),
    ("bookOfAccounts", .arr (bodyLines.map Json.obj))]

def prepareGeneralJournal (request : JournalRequest) : Except JournalFailure PreparedJournal := do
  let date ← (rules.isoDate request.documentDate).elim (.error (.validation "invalid_document_date"
    "document_date must use YYYY-MM-DD." [])) .ok
  require (!(request.environment == "production" && stripText request.reference == ""))
    (.validation "reference_required" "reference is required for production journals." [])
  require (stripText request.description != "")
    (.validation "description_required" "description is required." [])
  require (decide (2 ≤ request.lines.length))
    (.validation "insufficient_lines" "A journal requires at least two lines." [])
  let state ← request.lines.foldlM (fun state line =>
    state.add rules <$> readLine rules request.accounts line) JournalState.empty
  require (decide (state.debit ≠ 0 ∧ state.credit ≠ 0 ∧ state.debit = state.credit))
    (.validation "unbalanced_journal" "Total debit must equal total credit."
      [("total_debit", .str (twoPlaces state.debit)),
        ("total_credit", .str (twoPlaces state.credit))])
  return {
    documentDate := date
    reference := stripText request.reference
    description := stripText request.description
    totalDebit := twoPlaces state.debit
    totalCredit := twoPlaces state.credit
    previewLines := state.previewLines
    flowaccountPayload := flowaccountPayload request date state.bodyLines }

end Journals
end MercuryTools
