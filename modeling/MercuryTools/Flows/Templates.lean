import MercuryTools.Flows.Models
import MercuryTools.Framework.StableSorting
import Mathlib.Data.String.Basic

/-!
# Templates, conditions and summaries

The functions of `flows/runner.py` that only look at values: variables are put into the arguments of
a command, with a note of what comes from an ERP read; a condition decides whether a command runs;
and an output is summarized for the result.
-/

namespace MercuryTools
namespace Flows

open Local (isSpace strip)

/-- The entries of a dictionary of Python. -/
abbrev Fields : Type :=
  List (String × Json)

/-- What the runner takes from Python and from other packages: the texts and integers of values,
small letters, equality across the kinds of numbers, whether a float is zero, the redaction, and the
filters that a search accepts. -/
structure ValueRules where
  str : Json → String
  repr : Json → String
  int : Json → Option ℤ
  lower : String → String
  eq : Json → Json → Bool
  isZero : String → Bool
  redactJson : Json → Json
  validFilters : Fields → Bool

/-- `args.get(key)` -/
def getArg (args : Fields) (key : String) : Json :=
  (args.lookup key).getD .null

/-- `args.get(key, args.get(other))` -/
def getArgOr (args : Fields) (key other : String) : Json :=
  (args.lookup key).getD (getArg args other)

/-- A dictionary of `{**fields, **entries}`. -/
def merged (fields entries : Fields) : Fields :=
  Dict.setAll (Dict.setAll [] fields) entries

variable (rules : ValueRules)

/-- `bool(value)` -/
def isTrue : Json → Bool
  | .null => false
  | .bool value => value
  | .int value => value ≠ 0
  | .float text => !rules.isZero text
  | .str value => value ≠ ""
  | .arr items => !items.isEmpty
  | .obj fields => !fields.isEmpty

/-- `a or b or … or default` -/
def firstTrue (values : List Json) (default : Json) : Json :=
  (values.find? (isTrue rules)).getD default

/-! ## Templates -/

/-- What `_TEMPLATE_PATTERN` matches at the start of the text: the key of the variable, and the
text after the match. -/
def templateAt : List Char → Option (List Char × List Char)
  | '$' :: '{' :: text =>
      match text.dropWhile (· ≠ '}') with
      | '}' :: rest =>
          if text.head? = some '}' then none else some (strip (text.takeWhile (· ≠ '}')), rest)
      | _ => none
  | '{' :: '{' :: text =>
      match text.dropWhile (· ≠ '}') with
      | '}' :: '}' :: rest =>
          if text.head? = some '}' then none else some (strip (text.takeWhile (· ≠ '}')), rest)
      | _ => none
  | _ => none

/-- What `_TEMPLATE_EXACT_PATTERN` matches. -/
def exactTemplate (text : List Char) : Option (List Char) :=
  match templateAt (strip text) with
  | some (key, []) => some key
  | _ => none

/-- The parts of a text between the dots. -/
def pathParts (path : List Char) : List String :=
  (path.splitOn '.').map String.ofList

/-- `_get_path` -/
def getPath (vars : Fields) (path : List Char) : Except Failure Json :=
  (pathParts path).foldlM (fun current part =>
    match current.get? part with
    | some value => .ok value
    | none => .error (.validation s!"Unknown template variable: {String.ofList path}"))
    (.obj vars)

/-- The paths that `_TaintState` has marked. -/
abbrev TaintState : Type :=
  List String

def stripDots (path : String) : String :=
  String.ofList ((path.toList.dropWhile (· = '.')).rdropWhile (· = '.'))

/-- `_TaintState.mark` -/
def TaintState.mark (taint : TaintState) (path : String) : TaintState :=
  if stripDots path = "" then taint else stripDots path :: taint

/-- `_TaintState.references` -/
def TaintState.references (taint : TaintState) (path : String) : Bool :=
  taint.any fun tainted =>
    stripDots path = tainted || (tainted ++ ".").toList.isPrefixOf (stripDots path).toList ||
      (stripDots path ++ ".").toList.isPrefixOf tainted.toList

/-- The replacements of `_TEMPLATE_PATTERN.sub`, with at most this many characters. -/
def substitute (vars : Fields) (taint : TaintState) :
    ℕ → List Char → Except Failure (List Char × Bool)
  | 0, text => .ok (text, false)
  | _ + 1, [] => .ok ([], false)
  | length + 1, c :: text =>
      match templateAt (c :: text) with
      | some (key, rest) => do
          let replacement ← getPath vars key
          let (rendered, tainted) ← substitute vars taint length rest
          return ((rules.str replacement).toList ++ rendered,
            taint.references (String.ofList key) || tainted)
      | none => do
          let (rendered, tainted) ← substitute vars taint length text
          return (c :: rendered, tainted)

/-- The case of a text of `_interpolate_with_taint`. -/
def interpolateText (vars : Fields) (taint : TaintState) (text : String) :
    Except Failure (Json × Bool) :=
  match exactTemplate text.toList with
  | some key => do
      let value ← getPath vars key
      return (value, taint.references (String.ofList key))
  | none => do
      let (rendered, tainted) ← substitute rules vars taint text.length text.toList
      return (.str (String.ofList rendered), tainted)

mutual

/-- `_interpolate_with_taint` -/
def interpolateWithTaint (vars : Fields) (taint : TaintState) :
    Json → Except Failure (Json × Bool)
  | .str text => interpolateText rules vars taint text
  | .arr items => do
      let (rendered, tainted) ← interpolateItems vars taint items
      return (.arr rendered, tainted)
  | .obj fields => do
      let (rendered, tainted) ← interpolateFields vars taint fields
      return (.obj rendered, tainted)
  | value => .ok (value, false)

def interpolateItems (vars : Fields) (taint : TaintState) :
    List Json → Except Failure (List Json × Bool)
  | [] => .ok ([], false)
  | item :: items => do
      let (item, itemTainted) ← interpolateWithTaint vars taint item
      let (items, tainted) ← interpolateItems vars taint items
      return (item :: items, itemTainted || tainted)

def interpolateFields (vars : Fields) (taint : TaintState) :
    Fields → Except Failure (Fields × Bool)
  | [] => .ok ([], false)
  | (key, item) :: fields => do
      let (item, itemTainted) ← interpolateWithTaint vars taint item
      let (fields, tainted) ← interpolateFields vars taint fields
      return ((key, item) :: fields, itemTainted || tainted)

end

/-- `_interpolate` -/
def interpolate (vars : Fields) (value : Json) : Except Failure Json := do
  let (rendered, _) ← interpolateWithTaint rules vars [] value
  return rendered

/-- An argument of a command that runs others; the commands are left alone, and so is the condition
of a loop. -/
def interpolateGroupArg (vars : Fields) (taint : TaintState) (preserveWhile : Bool) (key : String)
    (value : Json) : Except Failure (Json × Bool) :=
  if key = "commands" || preserveWhile && key = "while" then .ok (value, false)
  else interpolateWithTaint rules vars taint value

/-- `_interpolate_group_args_with_taint` -/
def interpolateGroupArgs (vars : Fields) (taint : TaintState) (preserveWhile : Bool) :
    Fields → Except Failure (Fields × Bool)
  | [] => .ok ([], false)
  | (key, value) :: args => do
      let (value, valueTainted) ← interpolateGroupArg rules vars taint preserveWhile key value
      let (args, tainted) ← interpolateGroupArgs vars taint preserveWhile args
      return ((key, value) :: args, valueTainted || tainted)

/-- `_tainted_mapping_keys` -/
def taintedMappingKeys (vars : Fields) (taint : TaintState) :
    Json → Except Failure (List String)
  | .obj fields => do
      let keys ← fields.mapM fun (key, item) => do
        let (_, tainted) ← interpolateWithTaint rules vars taint item
        return if tainted then [key] else []
      return keys.flatten
  | _ => .ok []

/-- `_child_taint_state` -/
def childTaintState (childEnv : Fields) (parentTaint : TaintState)
    (taintedEnvKeys : List String) : TaintState :=
  childEnv.foldl (fun taint entry =>
    if entry.1 ∈ taintedEnvKeys || parentTaint.references entry.1 then
      (taint.mark entry.1).mark ("env." ++ entry.1)
    else taint) []

/-! ## Conditions -/

/-- `_is_present` -/
def isPresent : Json → Bool
  | .null => false
  | .str value => !(strip value.toList).isEmpty
  | .arr items => !items.isEmpty
  | .obj fields => !fields.isEmpty
  | _ => true

/-- `_as_bool` -/
def asBool : Json → Bool
  | .str value =>
      if rules.lower (stripText value) ∈ ["true", "1", "yes", "y", "on"] then true
      else if rules.lower (stripText value) ∈
        ["", "false", "0", "no", "n", "off", "none", "null"] then false
      else value ≠ ""
  | value => isTrue rules value

/-- The first of the keys that is there. -/
def firstKey (fields : Fields) (keys : List String) : Option Json :=
  keys.findSome? fun key => fields.lookup key

/-- `_condition_pair` and `_assert_pair`, which only differ in the keys and the texts. -/
def pairOf (what : String) (keys : List String) : Json → Except Failure (Json × Json)
  | .arr [left, right] => .ok (left, right)
  | .obj fields =>
      match fields.lookup "value" with
      | none => .error (.validation s!"{what} requires value.")
      | some value =>
          match firstKey fields keys with
          | none => .error (.validation s!"{what} requires expected.")
          | some expected => .ok (value, expected)
  | _ => .error (.validation s!"{what} must be a mapping or two-item list.")

/-- `_condition_pair` -/
def conditionPair (value : Json) (label : String) : Except Failure (Json × Json) :=
  pairOf s!"when.{label}" ["expected", "equals", "notEquals", "not_equals"] value

/-- `_assert_pair` -/
def assertPair (value : Json) (label : String) : Except Failure (Json × Json) :=
  pairOf s!"assert {label}"
    ["expected", "equals", "notEquals", "not_equals", "contains", "item"] value

/-- One entry of the loop of `_condition_matches`. -/
def entryMatches (key : String) (value : Json) : Except Failure Bool :=
  let condition := if rules.lower key = "true" then "true" else key
  if condition = "true" then .ok (asBool rules value)
  else if condition = "exists" then .ok (isPresent value)
  else if condition ∈ ["notExists", "not_exists"] then .ok !(isPresent value)
  else if condition = "equals" then do
    let (left, right) ← conditionPair value condition
    return rules.str left == rules.str right
  else if condition ∈ ["notEquals", "not_equals"] then do
    let (left, right) ← conditionPair value condition
    return rules.str left != rules.str right
  else .error (.validation s!"Unsupported when condition: {condition}")

/-- The loop of `_condition_matches`, which ends with the first entry that does not match. -/
def entriesMatch : Fields → Except Failure Bool
  | [] => .ok true
  | (key, value) :: entries => do
      if ← entryMatches rules key value then entriesMatch entries else return false

/-- `_condition_matches` -/
def conditionMatches : Json → Except Failure Bool
  | .null => .ok true
  | .obj entries => entriesMatch rules entries
  | .arr _ => .error (.validation "when must be a boolean, string, number, or mapping.")
  | value => .ok (asBool rules value)

/-- `_bounded_int` -/
def boundedInt (raw : Json) (label : String) (default minimum maximum : ℕ) :
    Except Failure ℕ := do
  let value ←
    if raw = .null || raw = .str "" then .ok (default : ℤ)
    else
      match rules.int raw with
      | some value => .ok value
      | none => .error (.validation s!"{label} must be an integer.")
  if value < minimum || (maximum : ℤ) < value then
    .error (.validation s!"{label} must be between {minimum} and {maximum}.")
  else return value.toNat

/-! ## Summaries -/

/-- `_TAINTED_VALUE_SUMMARY` -/
def taintedValueSummary : Fields :=
  [("status", .str "erp_derived_value_withheld")]

/-- The entries that a summary copies. -/
def copiedKeys : List String :=
  ["skill_id", "title", "attempts", "max_retries", "iterations", "max_iterations", "reason",
    "capability"]

/-- The number of items of a list. -/
def countEntry (fields : Fields) (key name : String) : Fields :=
  match fields.lookup key with
  | some (.arr items) => [(name, .int items.length)]
  | _ => []

/-- The entry, where there is one. -/
def copiedEntry (fields : Fields) (key : String) : Fields :=
  (fields.lookup key).elim [] fun value => [(key, value)]

/-- The texts of the entries, where they are not empty. -/
def textEntries (fields : Fields) (keys : List String) : Fields :=
  keys.flatMap fun key =>
    match fields.lookup key with
    | some (.str value) => if value = "" then [] else [(key, .str value)]
    | _ => []

/-- `_summary` -/
def summary (payload : Json) : Fields :=
  match rules.redactJson payload with
  | .obj fields =>
      if fields.lookup "status" = some (.str "confirmation_required") then
        ("status", .str "confirmation_required") ::
          textEntries fields ["request_id", "payload_hash"]
      else
        ("keys", .arr (((StableSorting.sortBy id (fields.map Prod.fst)).take 12).map .str)) ::
          (copiedEntry fields "status" ++ countEntry fields "results" "result_count" ++
            countEntry fields "context" "context_count" ++
            copiedKeys.flatMap (copiedEntry fields))
  | .arr items => [("count", .int items.length)]
  | value => [("value", .str (String.ofList ((rules.str value).toList.take 160)))]

mutual

/-- `_safe_tainted_variables` before the redaction, on one entry. -/
def safeTaintedValue (taint : TaintState) (key : String) : Json → Json
  | .obj fields =>
      if taint.references key then .obj taintedValueSummary
      else .obj (safeTaintedFields taint fields)
  | value => if taint.references key then .obj taintedValueSummary else value

def safeTaintedFields (taint : TaintState) : Fields → Fields
  | [] => []
  | (key, value) :: fields => (key, safeTaintedValue taint key value) ::
      safeTaintedFields taint fields

end

/-- `declared_command_capabilities` -/
def declaredCommandCapabilities (args : Fields) : List String :=
  let declared (raw : Json) : Option (List String) :=
    match raw with
    | .str value => some (if stripText value = "" then [] else [stripText value])
    | .arr items => some ((items.map fun item => stripText (rules.str item)).filter (· ≠ ""))
    | _ => none
  (["capability", "requiredCapability", "required_capability", "requiredCapabilities",
    "required_capabilities"].findSome? fun key => declared (getArg args key)).getD []

end Flows
end MercuryTools
