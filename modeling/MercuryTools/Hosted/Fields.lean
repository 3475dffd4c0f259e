import Mathlib.Data.List.Basic
import MercuryTools.Framework.Checks
import MercuryTools.Hosted.Transitions

/-!
# Field types and patterns of the hosted models

What `execution/hosted/models.py` says about single fields: identifiers, instants, the
patterns of hashes and public identifiers, the length limits, and the binding a preview
shares with the operation confirmed from it.

The projection of public texts (`sanitize_public_text` in `hosted/sanitization.py`, the
redaction patterns) is the parameter `sanitize` throughout: `none` where it raises, the
projected text otherwise.  No result about previews or operations depends on which texts it
changes.

Instants are microseconds in UTC.  A `datetime` argument carries its offset or none at all,
and `awareUtc` is the normalisation every timestamp goes through.
-/

namespace MercuryTools
namespace Hosted

open Checks

abbrev UUID := BitVec 128

abbrev Instant := Int

/-- A `datetime` argument: wall clock microseconds and the offset from UTC, if it has one. -/
structure DateTime where
  wall : Int
  utcoffset : Option Int
  deriving DecidableEq, Repr

/-- `_aware_utc`: a naive value is refused with `code`. -/
def awareUtc (value : DateTime) (code : String) : Except String Instant :=
  match value.utcoffset with
  | none => .error code
  | some offset => .ok (value.wall - offset)

def maxBatchDocuments : Nat := 25

/-- `PREVIEW_TTL_SECONDS`, in microseconds. -/
def previewTtl : Int := 1800 * 1000000

/-- `UNCONFIRMED_PAYLOAD_RETENTION`, twenty-four hours. -/
def unconfirmedPayloadRetention : Int := 24 * 3600 * 1000000

/-- `CONFIRMED_PAYLOAD_RETENTION`, thirty days. -/
def confirmedPayloadRetention : Int := 30 * 24 * 3600 * 1000000

/-! ## Field patterns -/

def isAlnum (c : Char) : Bool :=
  ('a' ≤ c && c ≤ 'z') || ('A' ≤ c && c ≤ 'Z') || ('0' ≤ c && c ≤ '9')

/-- `_IDENTIFIER`: `^[A-Za-z0-9][A-Za-z0-9._:-]{0,199}$`. -/
def isIdentifier (s : String) : Bool :=
  match s.toList with
  | [] => false
  | c :: cs =>
      isAlnum c && cs.length ≤ 199 && cs.all (fun d => isAlnum d || d ∈ ['.', '_', ':', '-'])

/-- `_SHA256`: `^[0-9a-f]{64}$`. -/
def isSha256 (s : String) : Bool :=
  s.toList.length = 64 &&
    s.toList.all (fun c => ('0' ≤ c && c ≤ '9') || ('a' ≤ c && c ≤ 'f'))

/-- The characters of a literal are not read back from its bytes. -/
lemma isSha256_ofList {cs : List Char} (h : (cs.length = 64 &&
      cs.all (fun c => ('0' ≤ c && c ≤ '9') || ('a' ≤ c && c ≤ 'f'))) = true) :
    isSha256 (String.ofList cs) = true := by
  rw [isSha256, String.toList_ofList]
  exact h

/-- `_ENVIRONMENT`: `^[a-z][a-z0-9_-]{0,63}$`. -/
def isEnvironment (s : String) : Bool :=
  match s.toList with
  | [] => false
  | c :: cs =>
      ('a' ≤ c && c ≤ 'z') && cs.length ≤ 63 &&
        cs.all (fun d => ('a' ≤ d && d ≤ 'z') || ('0' ≤ d && d ≤ '9') || d ∈ ['_', '-'])

/-- One segment of a capability: `[a-z][a-z0-9_]*`. -/
def isCapabilitySegment : List Char → Bool
  | [] => false
  | c :: cs =>
      ('a' ≤ c && c ≤ 'z') &&
        cs.all (fun d => ('a' ≤ d && d ≤ 'z') || ('0' ≤ d && d ≤ '9') || d == '_')

/-- `_CAPABILITY`: `^[a-z][a-z0-9_]*(?:\.[a-z][a-z0-9_]*)+$`. -/
def isCapability (s : String) : Bool :=
  let segments := s.toList.splitOn '.'
  2 ≤ segments.length && segments.all isCapabilitySegment

/-- The letters after `[REDACTED_` up to the closing bracket. -/
def redactionKind : List Char → Bool
  | ']' :: _ => true
  | c :: cs => ('A' ≤ c && c ≤ 'Z') && redactionKind cs
  | [] => false

/-- `_REDACTION_MARKER` matched at the head: `\[REDACTED(?:_[A-Z]+)?\]`. -/
def redactionMarkerAt (cs : List Char) : Bool :=
  "[REDACTED".toList.isPrefixOf cs &&
    match cs.drop 9 with
    | ']' :: _ => true
    | '_' :: c :: rest => ('A' ≤ c && c ≤ 'Z') && redactionKind rest
    | _ => false

/-- `_REDACTION_MARKER.search(text) is not None`. -/
def hasRedactionMarker (s : String) : Bool :=
  s.toList.tails.any redactionMarkerAt

section

variable (sanitize : String → Option String)

/-- `sanitize_public_text(value, code=code)`. -/
def sanitizePublicText (value code : String) : Except String String :=
  match sanitize value with
  | some projected => .ok projected
  | none => .error code

/-- `require_safe_public_identifier(value, code=code)`. -/
def requireSafePublicIdentifier (value code : String) : Except String String := do
  let projected ← sanitizePublicText sanitize value code
  require (projected == value && !hasRedactionMarker projected) code
  return value

end

/-! ## The binding of a confirmation -/

inductive ProviderId where
  | flowaccount
  | peak
  deriving DecidableEq, Repr

/-- The fields a preview and the operation confirmed from it have in common. -/
structure ConfirmationBinding where
  previewId : UUID
  tenantId : UUID
  authUserId : UUID
  workspaceId : UUID
  connectionId : UUID
  provider : ProviderId
  environment : String
  capabilityId : String
  capabilityVersion : String
  connectionRevision : Nat
  providerCallHash : String
  previewIntegrityHash : String
  deriving DecidableEq, Repr

/-- The field constraints that `DocumentPreview` and `HostedOperation` put on these fields. -/
def ConfirmationBinding.fieldsValid (binding : ConfirmationBinding) : Bool :=
  isEnvironment binding.environment && isCapability binding.capabilityId &&
    isSha256 binding.capabilityVersion && 1 ≤ binding.connectionRevision &&
    isSha256 binding.providerCallHash && isSha256 binding.previewIntegrityHash

end Hosted
end MercuryTools
