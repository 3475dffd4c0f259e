import MercuryTools.Framework.Checks
import MercuryTools.Framework.Json

/-!
# Rendering an action path

`render_action_path` of `execution/models.py`, with the two functions of `urllib.parse` it
rests on, `quote` and `unquote`, on UTF-8 bytes.
-/

namespace MercuryTools
namespace Execution

open Checks

/-! ## Percent encoding -/

def hexDigit (n : Nat) : Char :=
  if n < 10 then Char.ofNat ('0'.toNat + n) else Char.ofNat ('A'.toNat + (n - 10))

/-- The value of a hexadecimal digit. -/
def hexValue (c : Char) : Option Nat :=
  if '0' ≤ c ∧ c ≤ '9' then some (c.toNat - '0'.toNat)
  else if 'a' ≤ c ∧ c ≤ 'f' then some (c.toNat - 'a'.toNat + 10)
  else if 'A' ≤ c ∧ c ≤ 'F' then some (c.toNat - 'A'.toNat + 10)
  else none

/-- The characters `quote` leaves alone: letters, digits and `-._~`. -/
def isUnreserved (c : Char) : Bool :=
  ('a' ≤ c && c ≤ 'z') || ('A' ≤ c && c ≤ 'Z') || ('0' ≤ c && c ≤ '9') ||
    c ∈ ['-', '.', '_', '~']

/-- `quote(value, safe="-._~", encoding="utf-8")`. -/
def quote (value : String) : String :=
  String.ofList (value.toUTF8.toList.flatMap fun byte =>
    let c := Char.ofNat byte.toNat
    if byte < 128 && isUnreserved c then [c]
    else ['%', hexDigit (byte.toNat / 16), hexDigit (byte.toNat % 16)])

/-- `unquote_to_bytes` on a run of ASCII characters. -/
def unquoteToBytes : List Char → List UInt8
  | '%' :: high :: low :: rest =>
      match hexValue high, hexValue low with
      | some h, some l => UInt8.ofNat (16 * h + l) :: unquoteToBytes rest
      | _, _ => '%'.toNat.toUInt8 :: unquoteToBytes (high :: low :: rest)
  | c :: rest => c.toNat.toUInt8 :: unquoteToBytes rest
  | [] => []

/-- `unquote(value, encoding="utf-8", errors="strict")`: each run of ASCII characters is decoded
on its own, and `none` is a decoding error. -/
def unquote (value : String) : Option String := do
  let runs := value.toList.splitBy fun c d => c.toNat < 128 && d.toNat < 128
  let decoded ← runs.mapM fun cs =>
    if cs.all (·.toNat < 128) then String.fromUTF8? ⟨(unquoteToBytes cs).toArray⟩
    else some (String.ofList cs)
  return String.join decoded

/-! ## Segments -/

/-- The code points of the general category Cc. -/
def isControl (c : Char) : Bool :=
  c.toNat < 32 || (127 ≤ c.toNat && c.toNat < 160)

/-- A segment that would leave its place in the path. -/
def escapesSegment (decoded : String) : Bool :=
  decoded ∈ [".", ".."] ||
    decoded.toList.any fun c => c ∈ ['/', '\\', '?', '#'] || isControl c

/-- The rounds of decoding of `_validate_path_segment`. -/
def segmentIsStable : Nat → String → Bool
  | 0, _ => false
  | rounds + 1, decoded =>
      !escapesSegment decoded &&
        match unquote decoded with
        | none => false
        | some next => next == decoded || segmentIsStable rounds next

/-- `_validate_path_segment`. -/
def validatePathSegment (value : String) (allowEmpty : Bool) : Except String Unit := do
  require (!value.isEmpty || allowEmpty) "invalid_action_path"
  require (segmentIsStable (value.length + 2) value) "invalid_action_path"

/-- `_PATH_PLACEHOLDER`: `^\{([A-Za-z][A-Za-z0-9_]*)\}$`, and the name it captures. -/
def placeholderName? (segment : String) : Option String :=
  match segment.toList with
  | '{' :: c :: rest =>
      let name := c :: rest.dropLast
      if rest.getLast? = some '}' && c.isAlpha && name.all fun d => d.isAlphanum || d == '_' then
        some (String.ofList name)
      else none
  | _ => none

/-- `_valid_final_path`. -/
def validFinalPath (value : String) : Bool :=
  let cs := value.toList
  cs.head? = some '/' && !cs.any (fun c => c ∈ ['?', '#', '\\']) &&
    !cs.tails.any (fun suffix => ['/', '/'].isPrefixOf suffix || [':', '/', '/'].isPrefixOf suffix)

/-- `str(raw_value)` for a path parameter, which is a string or an integer. -/
def parameterText : Json → Option String
  | .str value => some value
  | .int value => some (toString value)
  | _ => none

/-! ## Paths -/

/-- A segment of a template: a placeholder's name, or text that stays. -/
def readSegment (segment : String) : Except String (String ⊕ String) :=
  match placeholderName? segment with
  | some name => .ok (.inl name)
  | none => do
      require (!segment.toList.any (fun c => c == '{' || c == '}')) "invalid_action_path"
      validatePathSegment segment segment.isEmpty
      return .inr segment

/-- The text of a segment. -/
def renderSegment (parameters : Json) : String ⊕ String → Except String String
  | .inr text => .ok text
  | .inl name =>
      match (parameters.get? name).bind parameterText with
      | none => .error "invalid_action_path"
      | some raw => do
          validatePathSegment raw false
          return quote raw

/-- `render_action_path`. -/
def renderActionPath (pathTemplate : String) (parameters : Json) : Except String String := do
  require (validFinalPath pathTemplate) "invalid_action_path"
  require parameters.isObj "invalid_action_path"
  let segments ← ((pathTemplate.toList.splitOn '/').map String.ofList).mapM readSegment
  let placeholders := segments.filterMap Sum.getLeft?
  require placeholders.Nodup "invalid_action_path"
  require (parameters.keys.all (· ∈ placeholders) && placeholders.all (· ∈ parameters.keys))
    "invalid_action_path"
  let rendered ← segments.mapM (renderSegment parameters)
  let path := String.intercalate "/" rendered
  require (validFinalPath path) "invalid_action_path"
  return path

end Execution
end MercuryTools
