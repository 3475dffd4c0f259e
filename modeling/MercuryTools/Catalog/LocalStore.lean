import Mathlib.Data.List.Lex
import Mathlib.Data.List.Sort
import Mathlib.Data.String.Basic
import Mathlib.Logic.Function.Basic
import MercuryTools.Framework.Dictionaries
import MercuryTools.Framework.Interruptions

/-!
# The local catalog

`LocalCatalogStore` of `catalog/local_store.py`: an import writes one file for its source and one
for each of its actions.  All files are staged as temporary files in the directories of their
destinations, existing destinations are backed up there, then the staged files replace the
destinations one by one, and a failure restores those that have been replaced.

The state is the two directories, with the fields of the write plans.  A step is one operation of
the file system that can fail; operations that follow each other without effect are one step, and
so are an operation that has an effect and the assignments right after it.
-/

namespace MercuryTools.Catalog

open Checks

/-! ## Records -/

/-- The directories of the catalog. -/
inductive Folder where
  | sources
  | actions
  deriving DecidableEq

/-- The files of the directories. -/
abbrev Files : Type :=
  Folder → Dict String (List Char)

/-- The fields of a `CatalogAction` that the store reads, with its canonical JSON text. -/
structure CatalogAction where
  actionId : String
  versionId : String
  connectorId : String
  capability : String
  method : String
  pathTemplate : String
  variantId : String
  canonicalJson : List Char
  deriving DecidableEq, Inhabited

/-- The field of a `CatalogSource` that the store reads, with its canonical JSON text. -/
structure CatalogSource where
  sourceId : String
  canonicalJson : List Char
  deriving DecidableEq

/-- The validation of records, and the names that `tempfile.mkstemp` finds in a directory. -/
structure CatalogEnv where
  /-- `revalidate_catalog_source` -/
  revalidateSource : CatalogSource → Option CatalogSource
  /-- `revalidate_catalog_action` -/
  revalidateAction : CatalogAction → Option CatalogAction
  /-- `json.loads`, `CatalogAction.model_validate` and `validate_action_identity` -/
  loadAction : List Char → Except String CatalogAction
  temporaryName : List String → String

/-! ## Names of files -/

def isHexDigit (c : Char) : Bool :=
  ('0' ≤ c && c ≤ '9') || ('a' ≤ c && c ≤ 'f')

/-- Four characters, `[0-9a-f]{24}` and `\.json`. -/
def isCatalogFilename (start : List Char) (name : List Char) : Bool :=
  name.take 4 == start && ((name.drop 4).take 24).length == 24 &&
    ((name.drop 4).take 24).all isHexDigit && name.drop 28 == ".json".toList

/-- `_ACTION_FILENAME`. -/
def isActionFilename (name : String) : Bool :=
  isCatalogFilename "act_".toList name.toList

/-- `_SOURCE_FILENAME`. -/
def isSourceFilename (name : String) : Bool :=
  isCatalogFilename "src_".toList name.toList

/-- `.catalog-*.tmp`, the names of temporary files. -/
def isTemporaryName (name : String) : Bool :=
  ".catalog-".toList.isPrefixOf name.toList && ".tmp".toList.isSuffixOf name.toList

/-! ## Imports -/

/-- What is fixed of a `_WritePlan`. -/
structure WritePlan where
  folder : Folder
  filename : String
  payload : List Char
  deriving DecidableEq

/-- Where the path of a temporary file is kept: `temporary_path` of `_stage_bytes`, or
`staged_path` and `backup_path` of the plan for a file. -/
inductive Slot where
  | pending
  | staged (filename : String)
  | backup (filename : String)
  deriving DecidableEq

/-- The directories, the paths of temporary files, which destinations existed, and `committed`. -/
structure ImportState where
  files : Files
  paths : Folder → Slot → Option String
  existed : Folder → String → Bool
  committed : List WritePlan

/-- What the program is doing.  While it commits or restores: how many action files are left. -/
inductive Phase where
  | staging
  | committing (remaining : Nat)
  | restoring (remaining : Nat)
  | cleaning (committed : Bool)
  deriving DecidableEq

/-- What an import raises: the failure of a step, or an error of its own. -/
inductive ImportError where
  | osError (phase : Phase)
  | value (code : String)
  | runtime (code : String)
  deriving DecidableEq

abbrev ImportProgram (α : Type) : Type :=
  Program Phase ImportState ImportError α

namespace ImportState

variable (s : ImportState)

def setFile (folder : Folder) (name : String) (content : List Char) : ImportState :=
  { s with files := Function.update s.files folder ((s.files folder).set name content) }

def removeFile (folder : Folder) (name : String) : ImportState :=
  { s with files := Function.update s.files folder ((s.files folder).remove name) }

def setPath (folder : Folder) (slot : Slot) (path? : Option String) : ImportState :=
  { s with paths := Function.update s.paths folder (Function.update (s.paths folder) slot path?) }

/-- `os.replace` of a temporary file with the destination. -/
def replaceFile (folder : Folder) (path name : String) : ImportState :=
  match (s.files folder).get path with
  | some content => (s.removeFile folder path).setFile folder name content
  | none => s

def setExisted (folder : Folder) (name : String) (existed : Bool) : ImportState :=
  let names := Function.update (s.existed folder) name existed
  { s with existed := Function.update s.existed folder names }

end ImportState

/-- Look at the files; every such operation can fail. -/
def look {α : Type} (phase : Phase) (f : ImportState → α) : ImportProgram α :=
  Program.step phase (.osError phase) fun s => (f s, s)

def change (phase : Phase) (f : ImportState → ImportState) : ImportProgram Unit :=
  Program.step phase (.osError phase) fun s => ((), f s)

def assign (f : ImportState → ImportState) : ImportProgram Unit :=
  Program.modifyGet fun s => ((), f s)

def current {α : Type} (f : ImportState → α) : ImportProgram α :=
  Program.modifyGet fun s => (f s, s)

/-- `path.exists()` -/
def destinationExists (plan : WritePlan) (s : ImportState) : Bool :=
  ((s.files plan.folder).get plan.filename).isSome

/-- `_validate_destination`: what exists is a regular file, and nothing is a symbolic link. -/
def validateDestination (phase : Phase) (plan : WritePlan) : ImportProgram Unit := do
  let _ ← look phase (destinationExists plan)
  look phase fun _ => ()

/-- `_remove_temporary`, where the path is no longer used. -/
def removeTemporary (phase : Phase) (folder : Folder) (slot : Slot) : ImportProgram Unit := do
  match ← current fun s => s.paths folder slot with
  | none => pure ()
  | some path => change phase fun s => (s.removeFile folder path).setPath folder slot none

/-- The file that `tempfile.mkstemp` creates. -/
def createTemporary (env : CatalogEnv) (folder : Folder) (s : ImportState) : ImportState :=
  let name := env.temporaryName (s.files folder).keys
  (s.setFile folder name []).setPath folder .pending (some name)

/-- `handle.write(payload)` -/
def writeTemporary (folder : Folder) (payload : List Char) (s : ImportState) : ImportState :=
  match s.paths folder .pending with
  | some path => s.setFile folder path payload
  | none => s

/-- The path is returned, and assigned to the field of the plan. -/
def returnTemporary (folder : Folder) (slot : Slot) (s : ImportState) : ImportState :=
  (s.setPath folder slot (s.paths folder .pending)).setPath folder .pending none

/-- `_stage_bytes`. -/
def stageBytes (env : CatalogEnv) (folder : Folder) (slot : Slot) (payload : List Char) :
    ImportProgram Unit := do
  change .staging (createTemporary env folder)
  Program.onError (do
      change .staging (writeTemporary folder payload)
      look .staging fun _ => ())
    (removeTemporary .staging folder .pending) id
  assign (returnTemporary folder slot)

/-- The second loop body of `_stage_import`. -/
def backUp (env : CatalogEnv) (plan : WritePlan) : ImportProgram Unit := do
  let existed ← look .staging (destinationExists plan)
  assign fun s => s.setExisted plan.folder plan.filename existed
  if existed then do
    look .staging fun _ => ()
    let payload ← look .staging fun s => ((s.files plan.folder).get plan.filename).getD []
    stageBytes env plan.folder (.backup plan.filename) payload
  else pure ()

/-- `_stage_import`. -/
def stageImport (env : CatalogEnv) (plans : List WritePlan) : ImportProgram Unit := do
  plans.forM fun plan => stageBytes env plan.folder (.staged plan.filename) plan.payload
  plans.forM (backUp env)

/-- The plans for actions. -/
def actionCount (plans : List WritePlan) : Nat :=
  plans.countP fun plan => plan.folder == .actions

/-- The loop body of `_commit_import`, with the plans that follow. -/
def commitPlan (plan : WritePlan) (rest : List WritePlan) : ImportProgram Unit := do
  validateDestination (.committing (actionCount (plan :: rest))) plan
  match ← current fun s => s.paths plan.folder (.staged plan.filename) with
  | none => Program.throw (.runtime "catalog_stage_missing")
  | some path => do
      change (.committing (actionCount rest)) fun s =>
        { (s.replaceFile plan.folder path plan.filename).setPath plan.folder
            (.staged plan.filename) none with committed := s.committed ++ [plan] }
      look (.committing (actionCount rest)) fun _ => ()

def commitPlans : List WritePlan → ImportProgram Unit
  | [] => pure ()
  | plan :: rest => do
      commitPlan plan rest
      commitPlans rest

/-- The backup takes the place of the destination, or the destination is removed. -/
def restoreFile (phase : Phase) (plan : WritePlan) : ImportProgram Unit := do
  match ← current fun s => s.existed plan.folder plan.filename with
  | false => change phase fun s => s.removeFile plan.folder plan.filename
  | true =>
      match ← current fun s => s.paths plan.folder (.backup plan.filename) with
      | none => Program.throw (.runtime "catalog_backup_missing")
      | some path =>
          change phase fun s => (s.replaceFile plan.folder path plan.filename).setPath plan.folder
            (.backup plan.filename) none

/-- The loop body of `_rollback_import`, with the plans that follow. -/
def restorePlan (plan : WritePlan) (rest : List WritePlan) : ImportProgram Unit := do
  restoreFile (.restoring (actionCount rest)) plan
  look (.restoring (actionCount rest)) fun _ => ()

/-- `_rollback_import`, over the committed plans in reverse. -/
def restorePlans : List WritePlan → ImportProgram Unit
  | [] => pure ()
  | plan :: rest => do
      restorePlan plan rest
      restorePlans rest

/-- `_commit_import`. -/
def commitImport (plans : List WritePlan) : ImportProgram Unit :=
  Program.onError (commitPlans plans)
    (do
      let committed ← current fun s => s.committed
      restorePlans committed.reverse)
    fun _ => .runtime "catalog_import_rollback_failed"

/-- The loop of the `finally` block of `write_import`. -/
def cleanUp (committed : Bool) (plans : List WritePlan) : ImportProgram Unit :=
  plans.forM fun plan => do
    removeTemporary (.cleaning committed) plan.folder (.staged plan.filename)
    removeTemporary (.cleaning committed) plan.folder (.backup plan.filename)

/-- The loop body of `_prepare_import` for one action. -/
def prepareAction (env : CatalogEnv) (validated : List CatalogAction) (action : CatalogAction) :
    Except String (List CatalogAction) :=
  match env.revalidateAction action with
  | none => .error "catalog_action_invalid"
  | some action => do
      require (!(validated.map (·.actionId)).contains action.actionId) "catalog_action_duplicate"
      return validated ++ [action]

/-- `_plan_write`, before the destination is validated. -/
def planWrite (folder : Folder) (filename : String) (payload : List Char) :
    Except String WritePlan := do
  require (isActionFilename filename || isSourceFilename filename) "catalog_filename_invalid"
  return ⟨folder, filename, payload⟩

/-- `_prepare_import`, before the destinations are validated. -/
def prepareImport (env : CatalogEnv) (source : CatalogSource) (actions : List CatalogAction) :
    Except String (List WritePlan) :=
  match env.revalidateSource source with
  | none => .error "catalog_source_invalid"
  | some source => do
      let validated ← actions.foldlM (prepareAction env) []
      let first ← planWrite .sources (source.sourceId ++ ".json") source.canonicalJson
      let rest ← validated.mapM fun action =>
        planWrite .actions (action.actionId ++ ".json") action.canonicalJson
      return first :: rest

/-- `write_import`.  The five directories are validated first. -/
def writeImport (env : CatalogEnv) (source : CatalogSource) (actions : List CatalogAction) :
    ImportProgram Unit := do
  (List.range 5).forM fun _ => look .staging fun _ => ()
  match prepareImport env source actions with
  | .error code => Program.throw (.value code)
  | .ok plans => do
      plans.forM (validateDestination .staging)
      Program.ensuring (do
          stageImport env plans
          commitImport plans)
        fun result => cleanUp result.toBool plans

def ImportState.initial (files : Files) : ImportState :=
  ⟨files, fun _ _ => none, fun _ _ => false, []⟩

/-! ## Listing -/

/-- `_decode_action`. -/
def decodeAction (env : CatalogEnv) (payload : List Char) (expectedActionId : String) :
    Except String CatalogAction := do
  let action ← env.loadAction payload
  require (action.actionId == expectedActionId) "catalog_action_filename_mismatch"
  require (payload == action.canonicalJson) "catalog_action_content_invalid"
  return action

/-- `path.name[:-5]` -/
def stem (name : String) : String :=
  String.ofList (name.toList.take (name.toList.length - 5))

/-- The loop body of `list_actions`: a file may be gone when it is read. -/
def listAction (env : CatalogEnv) (read : String → Option (List Char))
    (actions : List CatalogAction) (name : String) : Except String (List CatalogAction) :=
  match read name with
  | none => .error "catalog_path_invalid"
  | some payload => do
      require (isActionFilename name) "catalog_action_filename_invalid"
      let action ← decodeAction env payload (stem name)
      require (!(actions.map (·.actionId)).contains action.actionId &&
        !(actions.map (·.versionId)).contains action.versionId) "catalog_action_duplicate"
      return actions ++ [action]

/-- The key of `merge_actions`. -/
def CatalogAction.sortKey (action : CatalogAction) : List String :=
  [action.connectorId, action.capability, action.method, action.pathTemplate, action.variantId,
    action.actionId, action.versionId]

/-- The loop body of `_unique_actions`. -/
def indexAction (indexed : Dict String CatalogAction) (action : CatalogAction) :
    Except String (Dict String CatalogAction) := do
  require (!indexed.keys.contains action.actionId) "catalog_action_duplicate"
  return indexed.set action.actionId action

/-- `merge_actions`. -/
def mergeActions (globalActions localActions : List CatalogAction) :
    Except String (List CatalogAction) := do
  let globalById ← globalActions.foldlM indexAction []
  let localById ← localActions.foldlM indexAction []
  return (globalById.setAll localById).values.insertionSort fun action other =>
    action.sortKey ≤ other.sortKey

/-- `list_actions`, where the directory is listed and its files are read at different times. -/
def listActionsFrom (env : CatalogEnv) (names : List String) (read : String → Option (List Char)) :
    Except String (List CatalogAction) := do
  let actions ← (names.insertionSort (· ≤ ·)).foldlM (listAction env read) []
  mergeActions [] actions

/-- `list_actions`. -/
def listActions (env : CatalogEnv) (files : Files) : Except String (List CatalogAction) :=
  listActionsFrom env (files .actions).keys (files .actions).get

end MercuryTools.Catalog
