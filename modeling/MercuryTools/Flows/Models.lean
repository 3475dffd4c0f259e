import MercuryTools.Framework.Dictionaries
import MercuryTools.Framework.Json
import MercuryTools.Local.CredentialStore

/-!
# Flows and their results

The models of `flows/models.py`, and the commands that `flows/parser.py` reads from the arguments of
another command.  A flow that was parsed has supported commands only, so that the name of a command
is a type here.
-/

namespace MercuryTools
namespace Flows

open Local (strip)

/-! ## Commands -/

/-- `SUPPORTED_COMMANDS` -/
inductive CommandName
  | assert
  | connectorStatus
  | erpRead
  | erpWritePreview
  | emitReport
  | getDocument
  | repeat
  | retrieveContextPack
  | retry
  | runFlow
  | runSkill
  | searchKnowledge
  deriving DecidableEq, Repr

namespace CommandName

def all : List CommandName :=
  [assert, connectorStatus, erpRead, erpWritePreview, emitReport, getDocument, .repeat,
    retrieveContextPack, retry, runFlow, runSkill, searchKnowledge]

def text : CommandName → String
  | assert => "assert"
  | connectorStatus => "connectorStatus"
  | erpRead => "erpRead"
  | erpWritePreview => "erpWritePreview"
  | emitReport => "emitReport"
  | getDocument => "getDocument"
  | .repeat => "repeat"
  | retrieveContextPack => "retrieveContextPack"
  | retry => "retry"
  | runFlow => "runFlow"
  | runSkill => "runSkill"
  | searchKnowledge => "searchKnowledge"

/-- Commands that run other commands. -/
def isGroup : CommandName → Bool
  | .repeat | retry | runFlow => true
  | _ => false

/-- `_CLOUD_BOUND_COMMANDS` -/
def isCloudBound : CommandName → Bool
  | getDocument | retrieveContextPack | runSkill | searchKnowledge => true
  | _ => false

end CommandName

/-- `COMMAND_ALIASES` -/
def commandAliases : List (String × CommandName) :=
  [("connector_status", .connectorStatus), ("erp_read", .erpRead),
    ("erp_write_preview", .erpWritePreview), ("emit_report", .emitReport),
    ("get_document", .getDocument), ("retrieve_context_pack", .retrieveContextPack),
    ("run_accounting_skill", .runSkill), ("run_flow", .runFlow), ("run_skill", .runSkill),
    ("search_knowledge", .searchKnowledge)]

def stripText (s : String) : String :=
  String.ofList (strip s.toList)

/-- `normalize_command_name`, where the name is supported. -/
def normalizeCommandName (name : String) : Option CommandName :=
  (commandAliases.lookup (stripText name)).or
    (CommandName.all.find? (·.text = stripText name))

/-- `FlowCommand` -/
structure FlowCommand where
  name : CommandName
  args : List (String × Json)
  source : String
  index : ℕ
  deriving DecidableEq

/-- `MercuryFlow`; a path is the list of its parts. -/
structure MercuryFlow where
  name : String
  description : Option String
  tags : List String
  env : List (String × Json)
  commands : List FlowCommand
  onFlowStart : List FlowCommand := []
  onFlowComplete : List FlowCommand := []
  path : Option (List String) := none
  deriving DecidableEq

/-- `all_commands` -/
def MercuryFlow.allCommands (flow : MercuryFlow) : List FlowCommand :=
  flow.onFlowStart ++ flow.commands ++ flow.onFlowComplete

/-! ## Failures -/

/-- What a run raises.  A `RecursionError` comes from the interpreter where calls are nested too
deep; the others are the validation errors of the flow, the policy rejection that no retry catches,
and any other exception with its text. -/
inductive Failure
  | validation (message : String)
  | retryMutation (message : String)
  | recursion
  | other (message : String)
  deriving DecidableEq, Repr

/-- `str(exc)` -/
def Failure.message : Failure → String
  | validation message => message
  | retryMutation message => message
  | recursion => "maximum recursion depth exceeded"
  | other message => message

/-! ## Inline commands -/

/-- The end of `_parse_command`: a command that is supported. -/
def supportedCommand (name : String) (args : List (String × Json)) (source : String) (index : ℕ) :
    Except Failure FlowCommand :=
  match normalizeCommandName name with
  | some name => .ok ⟨name, args, source, index⟩
  | none => .error (.validation (s!"Unsupported command '{stripText name}'. " ++
      "Supported commands: assert, connectorStatus, emitReport, erpRead, erpWritePreview, " ++
      "getDocument, repeat, retrieveContextPack, retry, runFlow, runSkill, searchKnowledge."))

/-- `_parse_command` -/
def parseCommand (raw : Json) (source : String) (index : ℕ) : Except Failure FlowCommand :=
  match raw with
  | .str name => supportedCommand name [] source index
  | .obj [(rawName, .null)] => supportedCommand rawName [] source index
  | .obj [(rawName, .obj args)] => supportedCommand rawName args source index
  | .obj [(rawName, value)] => supportedCommand rawName [("value", value)] source index
  | .obj _ => .error (.validation s!"{source}[{index}] must contain exactly one command name.")
  | _ => .error (.validation s!"{source}[{index}] must be a string or one-command mapping.")

/-- `parse_inline_commands` -/
def parseInlineCommands (raw : Json) (source : String) : Except Failure (List FlowCommand) :=
  match raw with
  | .null => .ok []
  | .arr items => items.zipIdx.mapM fun (item, index) => parseCommand item source index
  | _ => .error (.validation s!"{source} must be a list of commands.")

/-! ## Results -/

/-- The status of a step or of a run. -/
inductive FlowStatus
  | ok
  | planned
  | skipped
  | blocked
  | confirmationRequired
  deriving DecidableEq, Repr

def FlowStatus.text : FlowStatus → String
  | ok => "ok"
  | planned => "planned"
  | skipped => "skipped"
  | blocked => "blocked"
  | confirmationRequired => "confirmation_required"

/-- `FlowStepResult` -/
structure FlowStepResult where
  index : ℕ
  command : CommandName
  status : FlowStatus
  source : String
  savedAs : Option String
  outputSummary : List (String × Json)
  deriving DecidableEq

/-- `FlowRunResult` -/
structure FlowRunResult where
  status : FlowStatus
  flow : MercuryFlow
  dryRun : Bool
  steps : List FlowStepResult
  vars : Json
  artifacts : Json
  reason : Option String := none
  capability : Option String := none
  tainted : Bool := false
  deriving DecidableEq

/-- `None`, or the text. -/
def optionalText : Option String → Json
  | none => .null
  | some text => .str text

/-- `FlowCommand.as_dict` -/
def FlowCommand.asDict (command : FlowCommand) : Json :=
  .obj [("name", .str command.name.text), ("args", .obj command.args),
    ("source", .str command.source), ("index", .int command.index)]

/-- `str` of a path. -/
def pathText (path : List String) : String :=
  "/" ++ String.intercalate "/" path

/-- `MercuryFlow.as_dict` -/
def MercuryFlow.asDict (flow : MercuryFlow) : Json :=
  .obj [("name", .str flow.name), ("description", optionalText flow.description),
    ("tags", .arr (flow.tags.map .str)), ("env", .obj flow.env),
    ("path", optionalText (flow.path.map pathText)),
    ("command_count", .int flow.commands.length),
    ("on_flow_start_count", .int flow.onFlowStart.length),
    ("on_flow_complete_count", .int flow.onFlowComplete.length),
    ("commands", .arr (flow.commands.map FlowCommand.asDict))]

/-- `FlowStepResult.as_dict` -/
def FlowStepResult.asDict (step : FlowStepResult) : Json :=
  .obj [("index", .int step.index), ("command", .str step.command.text),
    ("status", .str step.status.text), ("source", .str step.source),
    ("saved_as", optionalText step.savedAs), ("output_summary", .obj step.outputSummary)]

/-- `FlowRunResult.as_dict` -/
def FlowRunResult.asDict (result : FlowRunResult) : List (String × Json) :=
  [("status", .str result.status.text), ("dry_run", .bool result.dryRun),
    ("flow", result.flow.asDict), ("steps", .arr (result.steps.map FlowStepResult.asDict)),
    ("variables", result.vars), ("artifacts", result.artifacts)] ++
    (result.reason.elim [] fun reason => [("reason", .str reason)]) ++
    result.capability.elim [] fun capability => [("capability", .str capability)]

end Flows
end MercuryTools
