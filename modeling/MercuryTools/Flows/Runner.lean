import MercuryTools.Flows.Templates
import MercuryTools.Framework.Programs

/-!
# The flow runner

`MercuryFlowRunner` of `flows/runner.py`.  A run is a program whose effects are the calls of the
callbacks that were given to the runner, of the loader of nested flows among them.  A flow runs its
commands one after the other (`runCommands`), and a command may run a child flow (`ChildRun`); a run
has as many flows inside each other as the interpreter allows calls (`runFlow`).

An effect notes the commands around it, which the code never looks at.
-/

namespace MercuryTools
namespace Flows

open Programs

/-! ## Callbacks -/

/-- What a run calls. -/
inductive Call
  | capabilityGate (capability : String)
  | connectorStatus
  | ragService
  | search (query : String) (filters : Fields) (topK : ℤ) (mode : String)
  | contextPack (query : String) (task : Json) (filters : Fields) (maxChunks : ℤ)
  | getDocument (documentId : String)
  | runSkill (skillId : String) (inputs : Fields) (evidenceMode : Bool)
  | erpRead (actionId : String) (inputs : Fields) (environment : String)
  | erpWritePreview (actionId : String) (inputs : Fields) (environment : String)
  | flowLoader (baseDir : List String) (rawPath : String)
  | flowPathResolver (baseDir : List String) (rawPath : String)
  | isFile (path : List String)
  | parseFlowPath (path : List String)

/-- What is returned.  The results of a search and a context pack are their public payloads, or
nothing where there is none. -/
abbrev Call.Value : Call → Type
  | capabilityGate _ => Option Fields
  | connectorStatus => Json
  | ragService => Unit
  | search .. => List (Option Json)
  | contextPack .. => Option Json
  | getDocument _ => Json
  | runSkill .. => Json
  | erpRead .. => Json
  | erpWritePreview .. => Json
  | flowLoader .. => MercuryFlow
  | flowPathResolver .. => List String
  | isFile _ => Bool
  | parseFlowPath _ => MercuryFlow

/-- A call, and the commands around it. -/
structure Event where
  inside : List CommandName
  call : Call

/-- A call returns or raises. -/
abbrev Answer (event : Event) : Type :=
  Except Failure event.call.Value

/-- A run. -/
abbrev Run (α : Type) : Type :=
  ExceptT Failure (Program Event Answer) α

def ask (inside : List CommandName) (call : Call) : Run call.Value :=
  ExceptT.mk (.perform ⟨inside, call⟩ .done)

def raise {α : Type} (failure : Failure) : Run α :=
  ExceptT.mk (.done (.error failure))

/-- What is computed without calls. -/
def compute {α : Type} (result : Except Failure α) : Run α :=
  ExceptT.mk (.done result)

/-- What the run returned or raised. -/
def attempt {α : Type} (run : Run α) : Run (Except Failure α) :=
  ExceptT.mk (run.run >>= fun result => .done (.ok result))

/-! ## The runner -/

/-- `MercuryFlowRunner`: which callbacks it was given. -/
structure MercuryFlowRunner where
  rules : ValueRules
  dryRun : Bool
  hasRagService : Bool
  hasDocumentGetter : Bool
  hasConnectorStatusGetter : Bool
  hasSkillRunner : Bool
  hasErpReadCallback : Bool
  hasErpWritePreviewCallback : Bool
  hasFlowLoader : Bool
  hasCapabilityGate : Bool
  cwd : List String

/-- What a command is told by the flow. -/
structure CommandContext where
  inside : List CommandName
  baseDir : List String
  parentEnv : Json
  retryContext : Bool
  taint : TaintState
  taintedChildEnvKeys : List String

/-- `_CommandOutput` -/
structure CommandOutput where
  value : Json
  tainted : Bool := false
  blockedReason : Option String := none

/-- `run_flow`, for the flows inside of one: the commands around it, the flow, the environment,
whether a retry is around it, and the taint. -/
abbrev ChildRun : Type :=
  List CommandName → MercuryFlow → Fields → Bool → TaintState → Run FlowRunResult

/-- `_ERP_TO_CLOUD_TAINT_REASON` -/
def erpToCloudTaintReason : String := "erp_to_cloud_taint"

/-- `_INLINE_FLOW_FILENAME` -/
def inlineFlowFilename : String := ".mercury-inline-flow.yaml"

/-- `_SEARCH_FILTER_FIELDS` -/
def searchFilterFields : List String :=
  ["jurisdiction", "connector", "doc_type", "review_status", "effective_date", "action_id",
    "version_id", "environment", "capability", "accounting_use"]

namespace MercuryFlowRunner

variable (runner : MercuryFlowRunner)

/-! ### Arguments -/

/-- `str(args.get(…) or … or default)` -/
def textArg (args : Fields) (keys : List String) (default : String) : String :=
  runner.rules.str (firstTrue runner.rules (keys.map (getArg args)) (.str default))

/-- `int(args.get(…) or … or default)` -/
def intArg (args : Fields) (keys : List String) (default : ℤ) : Except Failure ℤ :=
  match runner.rules.int (firstTrue runner.rules (keys.map (getArg args)) (.int default)) with
  | some value => .ok value
  | none => .error (.other "ValueError")

/-- `args.get(key) or default`, which is to be a mapping. -/
def mappingArg (args : Fields) (key : String) (message : String) : Except Failure Fields :=
  match firstTrue runner.rules [getArg args key] (.obj []) with
  | .obj fields => .ok fields
  | _ => .error (.validation message)

/-- `_filters` -/
def filters (raw : Json) : Except Failure Fields :=
  match raw with
  | .null => .ok []
  | .obj fields =>
      if fields.all (·.1 ∈ searchFilterFields) && runner.rules.validFilters fields then .ok fields
      else .error (.validation "knowledge_filters_invalid")
  | _ => .error (.validation "knowledge_filters_invalid")

/-- `_erp_callback_args` -/
def erpCallbackArgs (args : Fields) (parentEnv : Json) (commandName : String) :
    Except Failure (String × Fields × String) := do
  let actionId := stripText (runner.textArg args ["actionId", "action_id", "value"] "")
  if actionId = "" then .error (.validation s!"{commandName} requires actionId.")
  let inputs ← runner.mappingArg args "inputs" s!"{commandName} inputs must be a mapping."
  let environment ←
    if isTrue runner.rules (getArg args "environment") then
      .ok (runner.rules.str (getArg args "environment"))
    else
      match parentEnv with
      | .obj env => .ok (runner.textArg env ["environment"] "production")
      | _ => .error (.other "AttributeError")
  if stripText environment = "" then
    .error (.validation s!"{commandName} environment must not be empty.")
  return (actionId, inputs, stripText environment)

/-! ### Assertions -/

/-- `_value_count` -/
def valueCount : Json → Except Failure ℕ
  | .str value => .ok value.length
  | .arr items => .ok items.length
  | .obj fields => .ok fields.length
  | _ => .error (.validation "assert minCount value must be countable.")

/-- `_contains` -/
def contains (value expected : Json) : Except Failure Bool :=
  match value, expected with
  | .str value, _ =>
      .ok (value.toList.tails.any ((runner.rules.str expected).toList.isPrefixOf ·))
  | .obj fields, .str key => .ok (fields.lookup key).isSome
  | .obj _, .arr _ | .obj _, .obj _ => .error (.other "TypeError")
  | .obj _, _ => .ok false
  | .arr items, _ => .ok (items.any (runner.rules.eq · expected))
  | _, _ =>
      .error (.validation "assert contains value must be string, mapping, or collection.")

/-- One of the assertions, where one of its keys is there. -/
def assertion (args : Fields) (keys : List String) (name : String)
    (check : Json → Except Failure Unit) : Except Failure (List String) :=
  match firstKey args keys with
  | none => .ok []
  | some value => do
      check value
      return [name]

/-- `_assert` -/
def checkAssertions (args : Fields) : Except Failure Json := do
  let holds (condition : Bool) (message : String) : Except Failure Unit :=
    if condition then .ok () else .error (.validation message)
  let rules := runner.rules
  let assertions ← [
    assertion args ["exists"] "exists" fun value =>
      holds (asBool rules value) "assert exists failed.",
    assertion args ["notExists", "not_exists"] "notExists" fun value =>
      holds (!asBool rules value) "assert notExists failed.",
    assertion args ["equals"] "equals" fun value => do
      let (left, right) ← assertPair value "equals"
      holds (rules.str left == rules.str right)
        s!"assert equals failed: {rules.repr left} != {rules.repr right}.",
    assertion args ["notEquals", "not_equals"] "notEquals" fun value => do
      let (left, right) ← assertPair value "notEquals"
      holds (rules.str left != rules.str right)
        s!"assert notEquals failed: {rules.repr left} == {rules.repr right}.",
    assertion args ["contains"] "contains" fun value => do
      let (value, expected) ← assertPair value "contains"
      holds (← runner.contains value expected)
        s!"assert contains failed: expected {rules.repr expected}.",
    assertion args ["status"] "status" fun raw =>
      let (status, expected) :=
        match raw with
        | .obj fields => (getArgOr fields "value" "status",
            (fields.lookup "expected").getD (.str "ok"))
        | _ => (raw, .str "ok")
      holds (rules.lower (rules.str status) == rules.lower (rules.str expected))
        s!"assert status failed: {rules.repr status} != {rules.repr expected}.",
    assertion args ["minCount", "min_count"] "minCount" fun _ => do
      match firstTrue rules [getArg args "minCount"] (getArg args "min_count") with
      | .obj raw => do
          let count ← runner.intArg raw ["count"] 1
          let valueCount ← valueCount (getArg raw "value")
          holds (count ≤ valueCount) s!"assert minCount failed: expected at least {count}."
      | _ => .error (.validation "assert minCount must be a mapping.")].mapM id
  if assertions.flatten.isEmpty then
    .error (.validation "assert requires at least one assertion.")
  return .obj [("status", .str "ok"), ("assertions", .arr (assertions.flatten.map .str))]

/-! ### Outputs -/

/-- The output of `emitReport`. -/
def reportFields (args : Fields) : Fields :=
  [("title", .str (runner.textArg args ["title"] "Mercury Flow Report")),
    ("sections", firstTrue runner.rules [getArg args "sections"] (.arr [])),
    ("metadata", firstTrue runner.rules [getArg args "metadata"] (.obj []))]

/-- `_planned_output` -/
def plannedOutput (command : CommandName) (args : Fields) : Json :=
  let rules := runner.rules
  .obj ([("status", .str "planned"), ("command", .str command.text),
    ("args", rules.redactJson (.obj args))] ++
    match command with
    | .searchKnowledge | .retrieveContextPack =>
        [("query", .str (runner.textArg args ["query"] "")), ("task", getArg args "task"),
          ("results", .arr []), ("context", .arr [])]
    | .connectorStatus => [("connectors", .arr [])]
    | .runSkill =>
        [("skill_id", .str (runner.textArg args ["skillId", "skill_id"] "")),
          ("inputs", firstTrue rules [getArg args "inputs"] (.obj [])),
          ("evidence_mode", .bool (isTrue rules (getArg args "evidenceMode") ||
            isTrue rules (getArg args "evidence_mode")))]
    | .emitReport => runner.reportFields args
    | .getDocument => [("document", .null)]
    | _ => [])

/-- `_confirmation_required_output` -/
def confirmationRequiredOutput (preview : Json) : Except Failure Json :=
  match preview with
  | .obj fields =>
      match textEntries fields ["request_id"], textEntries fields ["payload_hash"] with
      | [], _ => .error (.validation "erpWritePreview callback did not return request_id.")
      | _, [] => .error (.validation "erpWritePreview callback did not return payload_hash.")
      | requestId, payloadHash =>
          .ok (.obj (("status", .str "confirmation_required") :: requestId ++ payloadHash))
  | _ => .error (.other "AttributeError")

/-- `_confirmation_summary_fields` -/
def confirmationSummaryFields (result : FlowRunResult) : Fields :=
  if result.status ≠ .confirmationRequired then []
  else
    match result.steps.getLast? with
    | none => []
    | some step => textEntries step.outputSummary ["request_id", "payload_hash"]

/-- `_child_flow_output` -/
def childFlowOutput (result : FlowRunResult) : Fields :=
  Dict.setAll result.asDict (confirmationSummaryFields result)

/-! ### Child flows -/

/-- `_resolve_nested_flow_path` -/
def resolveNestedFlowPath (ctx : CommandContext) (rawPath : String) : Run (List String) := do
  let childPath ← ask ctx.inside (.flowPathResolver ctx.baseDir rawPath)
  let isFile ← ask ctx.inside (.isFile childPath)
  if isFile then return childPath
  else raise (.validation s!"Nested flow does not exist: {rawPath}")

/-- The flow of a file. -/
def loadNestedFlow (ctx : CommandContext) (rawPath : String) : Run MercuryFlow := do
  if runner.hasFlowLoader then ask ctx.inside (.flowLoader ctx.baseDir rawPath)
  else
    let childPath ← resolveNestedFlowPath ctx rawPath
    ask ctx.inside (.parseFlowPath childPath)

/-- The path of the flow of a command. -/
def rawPathOf (args : Fields) : String :=
  stripText (runner.textArg args ["file", "path", "value"] "")

/-- The environment of the child flow of a command. -/
def childEnvOf (command : CommandName) (args : Fields) (parentEnv : Json) :
    Except Failure Fields := do
  let childEnv ← runner.mappingArg args "env" s!"{command.text} env must be a mapping."
  match parentEnv with
  | .obj env => return merged env childEnv
  | _ => .error (.other "TypeError")

/-- The commands of a command, which are to be some. -/
def inlineCommandsOf (command : CommandName) (inlineCommands : Json) :
    Except Failure (List FlowCommand) := do
  let commands ← parseInlineCommands inlineCommands s!"{command.text}.commands"
  if commands.isEmpty then
    .error (.validation s!"{command.text} commands must include at least one command.")
  return commands

/-- The flow of the commands of a command. -/
def inlineFlow (command : CommandName) (args : Fields) (baseDir : List String) (childEnv : Fields)
    (commands : List FlowCommand) : MercuryFlow :=
  let label := stripText (runner.textArg args ["label"] "Inline Flow")
  { name := if label = "" then "Inline Flow" else label
    description := some s!"Inline Mercury {command.text} flow"
    tags := []
    env := childEnv
    commands := commands
    path := some (baseDir ++ [inlineFlowFilename]) }

/-- The flow that a command runs. -/
def childFlowOf (command : CommandName) (args : Fields) (ctx : CommandContext)
    (childEnv : Fields) : Run MercuryFlow := do
  let inlineCommands := getArg args "commands"
  let rawPath := runner.rawPathOf args
  if inlineCommands ≠ .null && rawPath ≠ "" then
    raise (.validation s!"{command.text} accepts either file/path or commands, not both.")
  else if inlineCommands ≠ .null then
    let commands ← compute (inlineCommandsOf command inlineCommands)
    return runner.inlineFlow command args ctx.baseDir childEnv commands
  else if rawPath = "" then
    raise (.validation s!"{command.text} requires file/path or commands.")
  else runner.loadNestedFlow ctx rawPath

/-- `_run_child_flow_command` -/
def runChildFlowCommand (child : ChildRun) (command : CommandName) (args : Fields)
    (ctx : CommandContext) : Run FlowRunResult := do
  let childEnv ← compute (runner.childEnvOf command args ctx.parentEnv)
  let flow ← runner.childFlowOf command args ctx childEnv
  child (ctx.inside ++ [command]) flow childEnv ctx.retryContext
    (childTaintState childEnv ctx.taint ctx.taintedChildEnvKeys)

/-! ### Repeat -/

/-- What the loop of `_repeat` has gathered. -/
structure RepeatState where
  results : List FlowRunResult := []
  stoppedReason : String
  renderedWhile : Json := .null

/-- The environment of an iteration. -/
def repeatEnv (parentEnv : Json) (index maxIterations : ℕ) : Except Failure Fields :=
  match parentEnv with
  | .obj env => .ok (merged env [("repeat", .obj [("index", .int index),
      ("iteration", .int (index + 1)), ("remaining", .int (maxIterations - index))])])
  | _ => .error (.other "TypeError")

/-- The condition of an iteration: whether it holds, and how it was rendered. -/
def whileHolds (condition : Json) (env : Fields) (rendered : Json) :
    Except Failure (Bool × Json) := do
  if condition = .null then return (true, rendered)
  else
    let rendered ← interpolate runner.rules (merged [("env", .obj env)] env) condition
    return (← conditionMatches runner.rules rendered, rendered)

/-- The loop of `_repeat`, with this many iterations left. -/
def repeatLoop (child : ChildRun) (args : Fields) (ctx : CommandContext) (maxIterations : ℕ) :
    ℕ → RepeatState → Run RepeatState
  | 0, s => return s
  | remaining + 1, s => do
      let index := maxIterations - (remaining + 1)
      let env ← compute (repeatEnv ctx.parentEnv index maxIterations)
      let (holds, rendered) ← compute (runner.whileHolds (getArg args "while") env s.renderedWhile)
      if holds then
        let result ← runner.runChildFlowCommand child .repeat args
          { ctx with parentEnv := .obj env }
        let s' : RepeatState :=
          { s with results := s.results ++ [result], renderedWhile := rendered }
        if result.status = .confirmationRequired then
          return { s' with stoppedReason := "confirmation required" }
        else if result.status = .blocked && result.reason = some erpToCloudTaintReason then
          return { s' with stoppedReason := erpToCloudTaintReason }
        else repeatLoop child args ctx maxIterations remaining s'
      else
        return { s with
          stoppedReason := "while condition evaluated false", renderedWhile := rendered }

/-- The status of the output of `repeat`. -/
def repeatStatus (s : RepeatState) : FlowStatus :=
  match s.results.getLast?.map FlowRunResult.status with
  | some .confirmationRequired => .confirmationRequired
  | some .blocked => .blocked
  | _ => if runner.dryRun then .planned else .ok

/-- The output of `repeat`. -/
def repeatOutput (maxIterations : ℕ) (s : RepeatState) : CommandOutput :=
  let history := s.results.zipIdx.map fun (result, index) =>
    Json.obj [("iteration", .int (index + 1)), ("index", .int index),
      ("status", .str result.status.text)]
  let output : Fields :=
    [("status", .str (runner.repeatStatus s).text), ("iterations", .int s.results.length),
      ("max_iterations", .int maxIterations), ("stopped_reason", .str s.stoppedReason),
      ("while", if s.renderedWhile = .null then .null
        else runner.rules.redactJson s.renderedWhile),
      ("results", .arr (s.results.map fun result => .obj (childFlowOutput result))),
      ("iteration_history", .arr history)]
  { value := .obj (Dict.setAll output
      ((s.results.getLast?.map confirmationSummaryFields).getD []))
    tainted := s.results.any FlowRunResult.tainted
    blockedReason :=
      if runner.repeatStatus s = .blocked && s.stoppedReason = erpToCloudTaintReason then
        some erpToCloudTaintReason
      else none }

/-- Whether `repeat` is told how often it runs. -/
def hasTimes (args : Fields) : Bool :=
  getArg args "times" ≠ .null && getArg args "times" ≠ .str ""

/-- The number of iterations of `_repeat`. -/
def repeatIterations (args : Fields) : Except Failure ℕ :=
  if hasTimes args then
    boundedInt runner.rules (getArg args "times") "repeat times" 1 0 100
  else
    boundedInt runner.rules (getArgOr args "maxIterations" "max_iterations")
      "repeat maxIterations" 10 1 100

/-- What `_repeat` checks of the arguments first. -/
def checkRepeatArgs (args : Fields) : Except Failure Unit :=
  let inlineCommands := getArg args "commands"
  let rawPath := runner.rawPathOf args
  if !hasTimes args && getArg args "while" = .null then
    .error (.validation "repeat requires times or while.")
  else if inlineCommands ≠ .null && rawPath ≠ "" then
    .error (.validation "repeat accepts either file/path or commands, not both.")
  else if inlineCommands = .null && rawPath = "" then
    .error (.validation "repeat requires file/path or commands.")
  else .ok ()

/-- What `_repeat` looks at before the first iteration: its commands, or the file. -/
def checkRepeatFlow (args : Fields) (ctx : CommandContext) : Run Unit :=
  let inlineCommands := getArg args "commands"
  if inlineCommands ≠ .null then
    compute ((inlineCommandsOf .repeat inlineCommands).map fun _ => ())
  else if runner.hasFlowLoader then pure ()
  else do
    let _ ← resolveNestedFlowPath ctx (runner.rawPathOf args)
    return ()

/-- `_repeat` -/
def runRepeat (child : ChildRun) (args : Fields) (ctx : CommandContext) : Run CommandOutput := do
  compute (runner.checkRepeatArgs args)
  runner.checkRepeatFlow args ctx
  let maxIterations ← compute (runner.repeatIterations args)
  let s ← runner.repeatLoop child args ctx maxIterations maxIterations
    { stoppedReason := if hasTimes args then "times exhausted" else "maxIterations exhausted" }
  return runner.repeatOutput maxIterations s

/-! ### Retry -/

/-- An attempt that failed. -/
def failedAttempt (number : ℕ) (failure : Failure) : Json :=
  .obj [("attempt", .int number), ("status", .str "error"),
    ("message", .str (String.ofList ((runner.rules.str
      (runner.rules.redactJson (.str failure.message))).toList.take 300)))]

/-- The output of a `retry` whose child flow returned. -/
def retryOutput (maxRetries delayMs : ℕ) (attempts : List Json) (result : FlowRunResult) :
    CommandOutput where
  value := .obj (Dict.setAll
    [("status", .str result.status.text), ("attempts", .int (attempts.length + 1)),
      ("max_retries", .int maxRetries), ("delay_ms", .int delayMs),
      ("result", .obj (childFlowOutput result)), ("attempt_history", .arr attempts)]
    (confirmationSummaryFields result))
  tainted := result.tainted
  blockedReason := if result.status = .blocked then result.reason else none

/-- The exception after the last attempt. -/
def retryFailed (attempts : List Json) : Failure :=
  let last := (attempts.getLast?.bind (·.get? "message")).getD (.str "unknown error")
  .validation s!"retry failed after {attempts.length} attempt(s): {runner.rules.str last}"

/-- The loop of `_retry`, with this many attempts left. -/
def retryLoop (child : ChildRun) (args : Fields) (ctx : CommandContext)
    (maxRetries delayMs : ℕ) : ℕ → List Json → Run CommandOutput
  | 0, attempts => raise (runner.retryFailed attempts)
  | remaining + 1, attempts => do
      match ← attempt (runner.runChildFlowCommand child .retry args
        { ctx with retryContext := true }) with
      | .ok result => return retryOutput maxRetries delayMs attempts result
      | .error (.retryMutation message) => raise (.retryMutation message)
      | .error failure =>
          let attempts := attempts ++ [runner.failedAttempt (attempts.length + 1) failure]
          if runner.dryRun then raise (runner.retryFailed attempts)
          else retryLoop child args ctx maxRetries delayMs remaining attempts

/-- `_retry` -/
def runRetry (child : ChildRun) (args : Fields) (ctx : CommandContext) : Run CommandOutput := do
  let maxRetries ← compute (boundedInt runner.rules (getArgOr args "maxRetries" "max_retries")
    "retry maxRetries" 1 0 3)
  let delayMs ← compute (boundedInt runner.rules (getArgOr args "delayMs" "delay_ms")
    "retry delayMs" 0 0 30000)
  runner.retryLoop child args ctx maxRetries delayMs (maxRetries + 1) []

/-! ### Commands -/

/-- A callback that has to be there. -/
def require (isThere : Bool) (message : String) : Except Failure Unit :=
  if isThere then .ok () else .error (.validation message)

/-- `searchKnowledge` -/
def searchKnowledge (args : Fields) (inside : List CommandName) : Run CommandOutput := do
  compute (require runner.hasRagService "RAG service is not configured for this runner.")
  ask inside .ragService
  let query := stripText (runner.textArg args ["query", "value"] "")
  let filters ← compute (runner.filters (getArg args "filters"))
  let topK ← compute (runner.intArg args ["topK", "top_k"] 8)
  let results ← ask inside (.search query filters topK (runner.textArg args ["mode"] "hybrid"))
  let payloads ← compute (results.mapM fun payload =>
    payload.elim (.error (.validation "knowledge_metadata_invalid")) .ok)
  return { value := .obj [("query", .str query), ("results", .arr payloads)] }

/-- `retrieveContextPack` -/
def retrieveContextPack (args : Fields) (inside : List CommandName) : Run CommandOutput := do
  compute (require runner.hasRagService "RAG service is not configured for this runner.")
  ask inside .ragService
  let filters ← compute (runner.filters (getArg args "filters"))
  let maxChunks ← compute (runner.intArg args ["maxChunks", "max_chunks"] 12)
  let pack ← ask inside (.contextPack (stripText (runner.textArg args ["query"] ""))
    (getArg args "task") filters maxChunks)
  let payload ← compute (pack.elim (.error (.validation "knowledge_metadata_invalid")) .ok)
  return { value := payload }

/-- `getDocument` -/
def getDocument (args : Fields) (inside : List CommandName) : Run CommandOutput := do
  compute (require runner.hasDocumentGetter "getDocument is not configured for this runner.")
  let documentId := runner.textArg args ["documentId", "document_id", "value"] ""
  compute (require (documentId ≠ "") "getDocument requires documentId.")
  let document ← ask inside (.getDocument documentId)
  let status := if isTrue runner.rules document then "ok" else "not_found"
  return { value := .obj [("status", .str status), ("document", document)] }

/-- `runSkill` -/
def runSkill (args : Fields) (inside : List CommandName) : Run CommandOutput := do
  compute (require runner.hasSkillRunner "runSkill is not configured for this runner.")
  let skillId := runner.textArg args ["skillId", "skill_id", "value"] ""
  compute (require (skillId ≠ "") "runSkill requires skillId.")
  let inputs ← compute (runner.mappingArg args "inputs" "runSkill inputs must be a mapping.")
  let evidenceMode := isTrue runner.rules (getArg args "evidenceMode") ||
    isTrue runner.rules (getArg args "evidence_mode")
  return { value := ← ask inside (.runSkill skillId inputs evidenceMode) }

/-- `erpRead` -/
def erpRead (args : Fields) (ctx : CommandContext) : Run CommandOutput := do
  compute (require runner.hasErpReadCallback "erpRead is not configured for this runner.")
  let (actionId, inputs, environment) ←
    compute (runner.erpCallbackArgs args ctx.parentEnv "erpRead")
  return { value := ← ask ctx.inside (.erpRead actionId inputs environment), tainted := true }

/-- `erpWritePreview` -/
def erpWritePreview (args : Fields) (ctx : CommandContext) : Run CommandOutput :=
  if ctx.retryContext then
    raise (.retryMutation "erpWritePreview cannot run inside retry.")
  else do
    compute (require runner.hasErpWritePreviewCallback
      "erpWritePreview is not configured for this runner.")
    let (actionId, inputs, environment) ←
      compute (runner.erpCallbackArgs args ctx.parentEnv "erpWritePreview")
    let preview ← ask ctx.inside (.erpWritePreview actionId inputs environment)
    let output ← compute (confirmationRequiredOutput preview)
    return { value := output }

/-- `_execute` -/
def execute (child : ChildRun) (command : CommandName) (args : Fields) (ctx : CommandContext) :
    Run CommandOutput := do
  match command with
  | .connectorStatus =>
      compute (require runner.hasConnectorStatusGetter
        "connectorStatus is not configured for this runner.")
      return { value := ← ask ctx.inside .connectorStatus }
  | .searchKnowledge => runner.searchKnowledge args ctx.inside
  | .retrieveContextPack => runner.retrieveContextPack args ctx.inside
  | .getDocument => runner.getDocument args ctx.inside
  | .runSkill => runner.runSkill args ctx.inside
  | .erpRead => runner.erpRead args ctx
  | .erpWritePreview => runner.erpWritePreview args ctx
  | .assert => return { value := ← compute (runner.checkAssertions args) }
  | .emitReport => return { value := .obj (runner.reportFields args) }
  | .runFlow =>
      let result ← runner.runChildFlowCommand child .runFlow args ctx
      return { value := .obj (childFlowOutput result), tainted := result.tainted
               blockedReason := if result.status = .blocked then result.reason else none }
  | .repeat => runner.runRepeat child args ctx
  | .retry => runner.runRetry child args ctx

end MercuryFlowRunner

/-! ## Runs -/

/-- What `run_flow` has gathered after some commands. -/
structure RunState where
  vars : Fields
  steps : List FlowStepResult := []
  artifacts : List (Json × Bool) := []
  taint : TaintState
  taintedSequences : List ℕ := []

/-- A command is followed by the next one, or ends the run. -/
inductive StepOutcome
  | next (s : RunState)
  | done (result : FlowRunResult)

/-- The path below which the files of a flow are looked up. -/
def MercuryFlow.baseDir (flow : MercuryFlow) (cwd : List String) : List String :=
  flow.path.elim cwd List.dropLast

namespace MercuryFlowRunner

variable (runner : MercuryFlowRunner)

/-- `rendered_args.get("saveAs") or rendered_args.get("save_as")` -/
def saveAsOf (args : Fields) : Option String :=
  let saveAs := firstTrue runner.rules [getArg args "saveAs"] (getArg args "save_as")
  if isTrue runner.rules saveAs then some (runner.rules.str saveAs) else none

/-- The arguments of a command with the variables put in. -/
def renderArgs (command : FlowCommand) (s : RunState) : Except Failure (Fields × Bool) :=
  if command.name.isGroup then
    interpolateGroupArgs runner.rules s.vars s.taint (command.name = .repeat) command.args
  else interpolateFields runner.rules s.vars s.taint command.args

/-- The result of a run that ends here. -/
def resultOf (flow : MercuryFlow) (status : FlowStatus) (s : RunState) : FlowRunResult where
  status := status
  flow := flow
  dryRun := runner.dryRun
  steps := s.steps
  vars := runner.rules.redactJson (.obj s.vars)
  artifacts := runner.rules.redactJson (.arr (s.artifacts.map Prod.fst))

/-- The result of a run that is blocked because of what it has read from the ERP. -/
def taintBlockedResult (flow : MercuryFlow) (s : RunState) : FlowRunResult where
  status := .blocked
  flow := flow
  dryRun := runner.dryRun
  steps := s.steps.map fun step =>
    if step.index ∈ s.taintedSequences then { step with outputSummary := taintedValueSummary }
    else step
  vars := runner.rules.redactJson (.obj (safeTaintedFields s.taint s.vars))
  artifacts := .arr (s.artifacts.map fun artifact =>
    if artifact.2 then .obj taintedValueSummary else runner.rules.redactJson artifact.1)
  reason := some erpToCloudTaintReason
  tainted := true

/-- A command whose condition does not hold. -/
def skip (sequence : ℕ) (command : FlowCommand) (renderedWhen : Json) (whenTainted : Bool)
    (s : RunState) : RunState :=
  { s with
    taintedSequences :=
      if whenTainted then sequence :: s.taintedSequences else s.taintedSequences
    steps := s.steps ++ [
      { index := sequence
        command := command.name
        status := .skipped
        source := command.source
        savedAs := none
        outputSummary := [("reason", .str "when condition evaluated false"),
          ("when", if whenTainted then .obj taintedValueSummary
            else runner.rules.redactJson renderedWhen)] }] }

/-- The first capability that the gate blocks. -/
def checkCapabilities (inside : List CommandName) : List String → Run (Option Fields)
  | [] => return none
  | capability :: capabilities => do
      match ← ask inside (.capabilityGate capability) with
      | some blocked => return some blocked
      | none => checkCapabilities inside capabilities

/-- The answer of the capability gate, if there is one. -/
def askGate (inside : List CommandName) (args : Fields) : Run (Option Fields) :=
  if runner.hasCapabilityGate then
    checkCapabilities inside (declaredCommandCapabilities runner.rules args)
  else pure none

/-- A command that the gate blocks. -/
def blockedByGate (flow : MercuryFlow) (sequence : ℕ) (command : FlowCommand)
    (args blocked : Fields) (s : RunState) : Except Failure FlowRunResult := do
  let saveAs := runner.saveAsOf args
  let s := { s with
    vars := saveAs.elim s.vars fun name => Dict.set s.vars name (.obj blocked)
    steps := s.steps ++ [
      { index := sequence
        command := command.name
        status := .blocked
        source := command.source
        savedAs := saveAs
        outputSummary := summary runner.rules (.obj blocked) }] }
  match blocked.lookup "reason", blocked.lookup "capability" with
  | some reason, some capability =>
      return { runner.resultOf flow .blocked s with
        reason := some (runner.rules.str reason)
        capability := some (runner.rules.str capability) }
  | _, _ => .error (.other "KeyError")

/-- A command that would pass on what was read from the ERP. -/
def blockedByTaint (flow : MercuryFlow) (sequence : ℕ) (command : FlowCommand) (s : RunState) :
    FlowRunResult :=
  runner.taintBlockedResult flow { s with
    taintedSequences := sequence :: s.taintedSequences
    steps := s.steps ++ [
      { index := sequence
        command := command.name
        status := .blocked
        source := command.source
        savedAs := none
        outputSummary := summary runner.rules (.obj [("status", .str "blocked"),
          ("reason", .str erpToCloudTaintReason), ("command", .str command.name.text)]) }] }

/-- Whether the output waits for a confirmation. -/
def isTerminalConfirmation (output : Json) : Bool :=
  output.get? "status" = some (.str "confirmation_required")

/-- What follows the execution of a command. -/
def afterExecution (flow : MercuryFlow) (sequence : ℕ) (command : FlowCommand) (args : Fields)
    (renderedTainted : Bool) (execution : CommandOutput) (s : RunState) : StepOutcome :=
  let saveAs := runner.saveAsOf args
  let tainted := execution.tainted || renderedTainted
  let terminalConfirmation := isTerminalConfirmation execution.value
  let s : RunState :=
    { vars := saveAs.elim s.vars fun name => Dict.set s.vars name execution.value
      taint := saveAs.elim s.taint fun name => if tainted then s.taint.mark name else s.taint
      artifacts := if command.name = .emitReport then s.artifacts ++ [(execution.value, tainted)]
        else s.artifacts
      taintedSequences := if tainted then sequence :: s.taintedSequences else s.taintedSequences
      steps := s.steps ++ [
        { index := sequence
          command := command.name
          status := if terminalConfirmation then .confirmationRequired
            else if runner.dryRun then .planned else .ok
          source := command.source
          savedAs := saveAs
          outputSummary := summary runner.rules execution.value }] }
  if execution.blockedReason = some erpToCloudTaintReason then
    .done (runner.taintBlockedResult flow s)
  else if terminalConfirmation then
    .done { runner.resultOf flow .confirmationRequired s with
      reason := some "confirmation_required"
      tainted := !s.taint.isEmpty }
  else .next s

/-- A dry run only plans the commands that run no others. -/
def executeOrPlan (child : ChildRun) (command : CommandName) (args : Fields)
    (ctx : CommandContext) : Run CommandOutput :=
  if runner.dryRun && !command.isGroup then
    pure { value := runner.plannedOutput command args }
  else runner.execute child command args ctx

/-- One command of `run_flow`. -/
def runCommand (child : ChildRun) (inside : List CommandName) (flow : MercuryFlow)
    (retryContext : Bool) (sequence : ℕ) (command : FlowCommand) (s : RunState) :
    Run StepOutcome := do
  let (renderedWhen, whenTainted) ← compute
    (interpolateWithTaint runner.rules s.vars s.taint (getArg command.args "when"))
  let holds ← compute (conditionMatches runner.rules renderedWhen)
  if !holds then return .next (runner.skip sequence command renderedWhen whenTainted s)
  else
  let (args, renderedTainted) ← compute (runner.renderArgs command s)
  let taintedChildEnvKeys ← compute
    (taintedMappingKeys runner.rules s.vars s.taint (getArg command.args "env"))
  match ← runner.askGate inside args with
  | some blocked =>
      return .done (← compute (runner.blockedByGate flow sequence command args blocked s))
  | none =>
      if command.name.isCloudBound && renderedTainted then
        return .done (runner.blockedByTaint flow sequence command s)
      else
        let execution ← runner.executeOrPlan child command.name args
          { inside, retryContext, taintedChildEnvKeys
            baseDir := flow.baseDir runner.cwd
            parentEnv := getArg s.vars "env"
            taint := s.taint }
        return runner.afterExecution flow sequence command args renderedTainted execution s

/-- The loop of `run_flow`. -/
def runCommands (child : ChildRun) (inside : List CommandName) (flow : MercuryFlow)
    (retryContext : Bool) : ℕ → List FlowCommand → RunState → Run FlowRunResult
  | _, [], s =>
      return { runner.resultOf flow (if runner.dryRun then .planned else .ok) s with
        tainted := !s.taint.isEmpty }
  | sequence, command :: commands, s => do
      match ← runner.runCommand child inside flow retryContext sequence command s with
      | .done result => return result
      | .next s => runCommands child inside flow retryContext (sequence + 1) commands s

/-- The variables at the start of a run. -/
def startVars (flow : MercuryFlow) (env : Fields) : Fields :=
  Dict.setAll [("env", .obj (merged flow.env env))] (merged flow.env env)

/-- `run_flow`, with the flows inside of this one. -/
def runFlowWith (child : ChildRun) : ChildRun := fun inside flow env retryContext taint =>
  runner.runCommands child inside flow retryContext 1 flow.allCommands
    { vars := startVars flow env, taint := taint }

/-- `run_flow`, where the interpreter lets this many flows run inside each other. -/
def runFlow : ℕ → ChildRun
  | 0 => fun _ _ _ _ _ => raise .recursion
  | limit + 1 => runner.runFlowWith (runFlow limit)

end MercuryFlowRunner

end Flows
end MercuryTools
