import MercuryTools.Framework.Checks
import MercuryTools.Reconciliation.Transactions

/-!
# The texts of evidence

What `reconciliation/models.py` checks of the ids and the evidence references: the record
identifiers and evidence locators of `orchestration/models.py`, and the scan for credentials that
every model makes before it is built.  A text that was normalized is normalized already
(`recordIdentifier_eq_ok`, `evidenceLocator_eq_ok`), so that a row that is valid can be reported.
-/

namespace MercuryTools
namespace Reconciliation

open Checks
open Local (isSpace strip)

/-- What the checks need to know of the characters, and of texts that look like a URI. -/
structure TextRules where
  casefold : String → String
  /-- A category of letters, marks or numbers. -/
  isTokenCharacter : Char → Bool
  /-- `_has_disallowed_text_character`, for one character. -/
  isDisallowed : Char → Bool
  /-- Whether `_sanitize_string` leaves a text alone that looks like a URI. -/
  isSafeUri : String → Bool
  /-- A text of small letters of ASCII and low lines. -/
  casefold_eq : ∀ s : String, (s.toList.all fun c => 'a' ≤ c && c ≤ 'z' || c = '_') →
    casefold s = s

variable (rules : TextRules)

/-! ## Credentials -/

/-- `_SENSITIVE_VALUE_PREFIXES` -/
def sensitiveValuePrefixes : List String :=
  ["aiza", "akia", "basic ", "bearer ", "digest ", "gho_", "ghp_", "github_pat_", "pk_live_",
    "rk_live_", "sk-", "sk_", "sq0atp-", "xoxb-", "xoxp-", "ya29."]

/-- Whether the characters occur in the text. -/
def occursIn (part text : List Char) : Bool :=
  text.tails.any (part.isPrefixOf ·)

/-- Whether `_sanitize_string` leaves the text alone. -/
def isCredentialSafe (value : String) : Bool :=
  if value = "[REDACTED]" then true
  else if sensitiveValuePrefixes.any fun entry =>
      entry.toList.isPrefixOf
        (rules.casefold (String.ofList (value.toList.dropWhile isSpace))).toList then false
  else if !occursIn ['?'] value.toList && !occursIn "://".toList value.toList &&
      !"//".toList.isPrefixOf value.toList then true
  else rules.isSafeUri value

/-- `validate_credential_safe` on a model whose texts these are; no field of the models has a
sensitive name or that of a path. -/
def validateCredentialSafe (texts : List String) : Except String Unit :=
  require (texts.all (isCredentialSafe rules)) "catalog_credentials_unsafe"

/-! ## Normalization -/

/-- `_clean_text` -/
def cleanText (value : List Char) : List Char :=
  collapse (· = ' ') ((value.dropWhile (· = ' ')).rdropWhile (· = ' '))

/-- `_require_plain_text` -/
def requirePlainText (value : List Char) (code : String) (maxLength : ℕ) :
    Except String (List Char) := do
  require (!value.isEmpty && value.length ≤ maxLength && value == strip value &&
    collapse (· = ' ') value == value) code
  require (!value.any rules.isDisallowed) "cross_mcp_control_character_forbidden"
  return value

/-- The loop of `_is_segmented_unicode_token`. -/
def segmentsOk (separators : List Char) : Bool → List Char → Bool
  | _, [] => true
  | previousWasSeparator, c :: value =>
      if c ∈ separators then !previousWasSeparator && segmentsOk separators true value
      else rules.isTokenCharacter c && segmentsOk separators false value

/-- `_is_segmented_unicode_token` -/
def isSegmentedUnicodeToken (value : List Char) (separators : List Char) : Bool :=
  !value.isEmpty && !value.head?.any (· ∈ separators) && !value.getLast?.any (· ∈ separators) &&
    segmentsOk rules separators false value

/-- `validate_record_identifier` -/
def validateRecordIdentifier (value : List Char) (code : String) : Except String (List Char) := do
  let identifier ← requirePlainText rules value code 256
  require (!identifier.contains ' ' && isSegmentedUnicodeToken rules identifier ['-']) code
  return identifier

/-- `_EVIDENCE_NAMESPACES` -/
def evidenceNamespaces : List String :=
  ["bank", "erp", "evidence", "left", "marketplace", "right", "settlement", "statement", "upload"]

/-- `_EVIDENCE_RECORD_KINDS` -/
def evidenceRecordKinds : List String :=
  ["document", "invoice", "payment", "payout", "receipt", "record", "row", "shared", "statement",
    "transaction"]

/-- `[A-Za-z0-9]` -/
def isLocatorCharacter (c : Char) : Bool :=
  'A' ≤ c && c ≤ 'Z' || 'a' ≤ c && c ≤ 'z' || '0' ≤ c && c ≤ '9'

/-- `_is_evidence_locator_id` -/
def isEvidenceLocatorId (value : List Char) : Bool :=
  1 ≤ value.length && value.length ≤ 128 && value.head?.any isLocatorCharacter &&
    value.getLast?.any isLocatorCharacter && value.all fun c => isLocatorCharacter c || c = '-'

/-- `validate_evidence_locator` -/
def validateEvidenceLocator (value : List Char) (code : String) : Except String (List Char) := do
  let locator ← requirePlainText rules value code 256
  require (!locator.contains ' ') code
  match locator.splitOn ':' with
  | [scope, locatorId] => do
      require (evidenceNamespaces.contains (String.ofList scope) && isEvidenceLocatorId locatorId)
        code
      return locator
  | [scope, recordKind, locatorId] => do
      require (evidenceNamespaces.contains (String.ofList scope) &&
        evidenceRecordKinds.contains (String.ofList recordKind) && isEvidenceLocatorId locatorId)
        code
      return locator
  | _ => .error code

/-- `_normalized_record_identifier` -/
def recordIdentifier (value : String) (code : String) : Except String String := do
  let cleaned := cleanText value.toList
  require (!cleaned.isEmpty) code
  return String.ofList (← validateRecordIdentifier rules cleaned code)

/-- `_normalized_evidence_locator` -/
def evidenceLocator (value : String) (code : String) : Except String String := do
  return String.ofList (← validateEvidenceLocator rules (cleanText value.toList) code)

/-! ## A text that was normalized -/

section

variable {rules} {value text : List Char} {code code' : String} {maxLength : ℕ}

lemma requirePlainText_eq_ok : requirePlainText rules value code maxLength = .ok text ↔
    (value ≠ [] ∧ value.length ≤ maxLength ∧ value = strip value ∧
      collapse (· = ' ') value = value) ∧ value.any rules.isDisallowed = false ∧ value = text := by
  simp [requirePlainText, map_eq_ok, and_assoc]

/-- A text without whitespace around it. -/
lemma cleanText_eq (hstrip : value = strip value) (hcollapse : collapse (· = ' ') value = value) :
    cleanText value = value := by
  have hdrop : value.dropWhile isSpace = value :=
    (List.dropWhile_suffix isSpace).eq_of_length_le <| by
      conv_lhs => rw [hstrip]
      exact (List.rdropWhile_prefix isSpace _).length_le
  have hrdrop : value.rdropWhile isSpace = value := by
    conv_rhs => rw [hstrip, strip, hdrop]
  have hblank : value.dropWhile (· = ' ') = value := by
    rw [List.dropWhile_eq_self_iff] at hdrop ⊢
    intro hpos hhead
    refine hdrop hpos ?_
    rw [of_decide_eq_true hhead]
    decide
  have hrblank : value.rdropWhile (· = ' ') = value := by
    rw [List.rdropWhile_eq_self_iff] at hrdrop ⊢
    intro hne hlast
    refine hrdrop hne ?_
    rw [of_decide_eq_true hlast]
    decide
  rw [cleanText, hblank, hrblank, hcollapse]

lemma validateRecordIdentifier_eq_ok (h : validateRecordIdentifier rules value code = .ok text) :
    text = value ∧ cleanText value = value ∧
      validateRecordIdentifier rules value code' = .ok value := by
  simp only [validateRecordIdentifier, bind_eq_ok, requirePlainText_eq_ok, require_eq_ok,
    pure_eq_ok] at h ⊢
  obtain ⟨text, ⟨hplain, hdisallowed, rfl⟩, _, hidentifier, rfl⟩ := h
  exact ⟨rfl, cleanText_eq hplain.2.2.1 hplain.2.2.2,
    value, ⟨hplain, hdisallowed, rfl⟩, (), hidentifier, rfl⟩

lemma validateEvidenceLocator_eq_ok (h : validateEvidenceLocator rules value code = .ok text) :
    text = value ∧ cleanText value = value ∧
      validateEvidenceLocator rules value code' = .ok value := by
  simp only [validateEvidenceLocator, bind_eq_ok, requirePlainText_eq_ok, require_eq_ok] at h ⊢
  obtain ⟨text, ⟨hplain, hdisallowed, rfl⟩, _, hblank, hparts⟩ := h
  have hclean := cleanText_eq hplain.2.2.1 hplain.2.2.2
  split at hparts
  · next scope locatorId hsplit =>
    simp only [bind_eq_ok, require_eq_ok, pure_eq_ok] at hparts
    obtain ⟨_, hscope, rfl⟩ := hparts
    refine ⟨rfl, hclean, value, ⟨hplain, hdisallowed, rfl⟩, (), hblank, ?_⟩
    rw [hsplit]
    simp only [bind_eq_ok, require_eq_ok, pure_eq_ok]
    exact ⟨(), hscope, trivial⟩
  · next scope recordKind locatorId hsplit =>
    simp only [bind_eq_ok, require_eq_ok, pure_eq_ok] at hparts
    obtain ⟨_, hscope, rfl⟩ := hparts
    refine ⟨rfl, hclean, value, ⟨hplain, hdisallowed, rfl⟩, (), hblank, ?_⟩
    rw [hsplit]
    simp only [bind_eq_ok, require_eq_ok, pure_eq_ok]
    exact ⟨(), hscope, trivial⟩
  · cases hparts

variable {input output : String}

lemma recordIdentifier_eq_ok (h : recordIdentifier rules input code = .ok output) :
    recordIdentifier rules output code' = .ok output := by
  simp only [recordIdentifier, bind_eq_ok, require_eq_ok, pure_eq_ok] at h ⊢
  obtain ⟨_, hempty, text, htext, rfl⟩ := h
  obtain ⟨rfl, hclean, hagain⟩ := validateRecordIdentifier_eq_ok htext
  rw [String.toList_ofList, hclean]
  exact ⟨(), hempty, _, hagain, rfl⟩

lemma evidenceLocator_eq_ok (h : evidenceLocator rules input code = .ok output) :
    evidenceLocator rules output code' = .ok output := by
  simp only [evidenceLocator, bind_eq_ok, pure_eq_ok] at h ⊢
  obtain ⟨text, htext, rfl⟩ := h
  obtain ⟨rfl, hclean, hagain⟩ := validateEvidenceLocator_eq_ok htext
  rw [String.toList_ofList, hclean]
  exact ⟨_, hagain, rfl⟩

end

end Reconciliation
end MercuryTools
