import MercuryTools.Flows.RunEffects
import Mathlib.Algebra.Order.BigOperators.Group.List

/-!
# Flows inside each other

`run_flow` of `flows/runner.py` has no check for a flow that reaches itself, and only the
interpreter bounds the calls.  Where every flow has a depth that is larger than that of the flows
that its commands run, whether inline or from a file and whatever the variables, the bound plays no
part: with more calls than the depth of the flow every run is the same (`runFlow_of_depth_lt`).
-/

namespace MercuryTools
namespace Flows

open Programs

/-! ## The files of a run -/

/-- What the loader of flows, or the resolver of paths and the files, may give. -/
structure FlowFiles where
  loads : List String → String → MercuryFlow → Prop
  resolves : List String → String → List String → Prop
  contains : List String → MercuryFlow → Prop

/-- A flow that may be loaded for this path, from this directory. -/
def FlowFiles.MayLoad (files : FlowFiles) (baseDir : List String) (rawPath : String)
    (flow : MercuryFlow) : Prop :=
  files.loads baseDir rawPath flow ∨
    ∃ path, files.resolves baseDir rawPath path ∧ files.contains path flow

/-- Answers of these files; the other callbacks may answer anything. -/
def FlowFiles.Possible (files : FlowFiles) (event : Event) (answer : Answer event) : Prop :=
  match event, answer with
  | ⟨_, .flowLoader baseDir rawPath⟩, answer =>
      ∀ flow, answer = .ok flow → files.loads baseDir rawPath flow
  | ⟨_, .flowPathResolver baseDir rawPath⟩, answer =>
      ∀ path, answer = .ok path → files.resolves baseDir rawPath path
  | ⟨_, .parseFlowPath path⟩, answer => ∀ flow, answer = .ok flow → files.contains path flow
  | _, _ => True

/-- The arguments of a command, with some variables put in. -/
def IsRendered (runner : MercuryFlowRunner) (command : FlowCommand) (args : Fields) : Prop :=
  ∃ s tainted, runner.renderArgs command s = .ok (args, tainted)

/-- Depths of the commands of a directory: larger than those of the commands that one of them runs.
Arguments are looked at with any variables, so that a depth may only depend on what is written in
the files. -/
structure FlowDepth (runner : MercuryFlowRunner) (files : FlowFiles)
    (depth : List String → List FlowCommand → ℕ) : Prop where
  inline : ∀ baseDir commands, ∀ command ∈ commands, command.name.isGroup = true →
    ∀ args, IsRendered runner command args → ∀ inner,
      MercuryFlowRunner.inlineCommandsOf command.name (getArg args "commands") = .ok inner →
      depth baseDir inner < depth baseDir commands
  loaded : ∀ baseDir commands, ∀ command ∈ commands, command.name.isGroup = true →
    ∀ args, IsRendered runner command args → ∀ flow,
      files.MayLoad baseDir (runner.rawPathOf args) flow →
      depth (flow.baseDir runner.cwd) flow.allCommands < depth baseDir commands

section

variable {α β : Type} {files : FlowFiles} {Q : Except Failure α → Prop}
  {Q' : Except Failure β → Prop}

/-! ## Rules -/

/-- Runs that do the same with these files. -/
abbrev SameRuns (files : FlowFiles) (run run' : Run α) : Prop :=
  Agrees files.Possible (fun _ => True) run.run run'.run

lemma SameRuns.refl (run : Run α) : SameRuns files run run :=
  Agrees.refl run.run

variable {run run' : Run α} {f f' : α → Run β}

lemma agrees_bind (h : Agrees files.Possible Q run.run run'.run)
    (hnext : ∀ a, Q (.ok a) → SameRuns files (f a) (f' a)) :
    SameRuns files (run >>= f) (run' >>= f') := by
  refine Agrees.bind h fun result hresult => ?_
  cases result with
  | error failure => exact .done trivial
  | ok a => exact hnext a hresult

lemma SameRuns.bind (h : SameRuns files run run') (hnext : ∀ a, SameRuns files (f a) (f' a)) :
    SameRuns files (run >>= f) (run' >>= f') :=
  agrees_bind h fun a _ => hnext a

/-- What is computed first is known in what follows. -/
lemma SameRuns.compute_bind {result : Except Failure α}
    (hnext : ∀ a, result = .ok a → SameRuns files (f a) (f' a)) :
    SameRuns files (compute result >>= f) (compute result >>= f') :=
  agrees_bind (Q := (· = result)) (.done rfl) fun a ha => hnext a ha.symm

lemma SameRuns.attempt (h : SameRuns files run run') :
    SameRuns files (attempt run) (attempt run') :=
  Agrees.bind h fun _ _ => .done trivial

end

/-! ## Child flows -/

/-- The child flows of a command with these arguments. -/
inductive RunsInside (runner : MercuryFlowRunner) (files : FlowFiles) (command : CommandName)
    (args : Fields) (baseDir : List String) (flow : MercuryFlow) : Prop
  | inline (inner : List FlowCommand) (hbase : flow.baseDir runner.cwd = baseDir)
      (hcommands : flow.allCommands = inner)
      (h : MercuryFlowRunner.inlineCommandsOf command (getArg args "commands") = .ok inner)
  | loaded (h : files.MayLoad baseDir (runner.rawPathOf args) flow)

/-- Two ways to run the child flows of a command that do the same. -/
def SameChildren (runner : MercuryFlowRunner) (files : FlowFiles) (command : CommandName)
    (args : Fields) (baseDir : List String) (child child' : ChildRun) : Prop :=
  ∀ flow, RunsInside runner files command args baseDir flow →
    ∀ inside env retryContext taint, SameRuns files (child inside flow env retryContext taint)
      (child' inside flow env retryContext taint)

namespace MercuryFlowRunner

variable {runner : MercuryFlowRunner} {files : FlowFiles} {child child' : ChildRun}
  {ctx : CommandContext} {command : CommandName} {args : Fields}

/-- A file that is loaded is one that may be. -/
lemma agrees_loadNestedFlow (rawPath : String) :
    Agrees files.Possible
      (fun result => ∀ flow, result = .ok flow → files.MayLoad ctx.baseDir rawPath flow)
      (runner.loadNestedFlow ctx rawPath).run (runner.loadNestedFlow ctx rawPath).run := by
  unfold loadNestedFlow
  split
  · exact .perform fun answer hanswer => .done fun flow hflow => .inl (hanswer flow hflow)
  · refine .perform fun answer hanswer => ?_
    cases answer with
    | error failure => exact .done fun flow hflow => by cases hflow
    | ok path =>
      refine .perform fun isFile _ => ?_
      cases isFile with
      | error failure => exact .done fun flow hflow => by cases hflow
      | ok isFile =>
        cases isFile with
        | false => exact .done fun flow hflow => by cases hflow
        | true =>
          exact .perform fun answer hflow => .done fun flow heq =>
            .inr ⟨path, hanswer path rfl, hflow flow heq⟩

/-- The flow of a command is one of its child flows. -/
lemma agrees_childFlowOf (childEnv : Fields) :
    Agrees files.Possible
      (fun result => ∀ flow, result = .ok flow →
        RunsInside runner files command args ctx.baseDir flow)
      (runner.childFlowOf command args ctx childEnv).run
      (runner.childFlowOf command args ctx childEnv).run := by
  unfold childFlowOf
  dsimp only
  split
  · exact .done fun flow hflow => by cases hflow
  · split
    · cases hcommands : inlineCommandsOf command (getArg args "commands") with
      | error failure => exact .done fun flow hflow => by cases hflow
      | ok inner =>
        refine .done fun flow hflow => ?_
        obtain rfl := Except.ok.inj hflow
        refine .inline inner ?_ ?_ hcommands
        · simp [MercuryFlow.baseDir, inlineFlow]
        · simp [MercuryFlow.allCommands, inlineFlow]
    · split
      · exact .done fun flow hflow => by cases hflow
      · exact (agrees_loadNestedFlow (runner.rawPathOf args)).mono fun result hresult flow hflow =>
          .loaded (hresult flow hflow)

lemma sameRuns_runChildFlowCommand
    (hchild : SameChildren runner files command args ctx.baseDir child child') :
    SameRuns files (runner.runChildFlowCommand child command args ctx)
      (runner.runChildFlowCommand child' command args ctx) :=
  SameRuns.compute_bind fun childEnv _ =>
    agrees_bind (agrees_childFlowOf childEnv) fun flow hflow => hchild flow (hflow flow rfl) _ _ _ _

lemma sameRuns_repeatLoop
    (hchild : SameChildren runner files .repeat args ctx.baseDir child child')
    (maxIterations remaining : ℕ) (s : RepeatState) :
    SameRuns files (runner.repeatLoop child args ctx maxIterations remaining s)
      (runner.repeatLoop child' args ctx maxIterations remaining s) := by
  induction remaining generalizing s with
  | zero => exact SameRuns.refl _
  | succ remaining ih =>
    refine SameRuns.compute_bind fun env _ => SameRuns.compute_bind fun rendered _ => ?_
    dsimp only
    split
    · refine SameRuns.bind (sameRuns_runChildFlowCommand hchild) fun result => ?_
      split
      · exact SameRuns.refl _
      · split
        · exact SameRuns.refl _
        · exact ih _
    · exact SameRuns.refl _

lemma sameRuns_retryLoop
    (hchild : SameChildren runner files .retry args ctx.baseDir child child')
    (maxRetries delayMs remaining : ℕ) (attempts : List Json) :
    SameRuns files (runner.retryLoop child args ctx maxRetries delayMs remaining attempts)
      (runner.retryLoop child' args ctx maxRetries delayMs remaining attempts) := by
  induction remaining generalizing attempts with
  | zero => exact SameRuns.refl _
  | succ remaining ih =>
    refine SameRuns.bind (SameRuns.attempt (sameRuns_runChildFlowCommand hchild)) fun outcome => ?_
    split
    · exact SameRuns.refl _
    · exact SameRuns.refl _
    · dsimp only
      split
      · exact SameRuns.refl _
      · exact ih _

lemma sameRuns_execute (hchild : command.isGroup = true →
      SameChildren runner files command args ctx.baseDir child child') :
    SameRuns files (runner.execute child command args ctx)
      (runner.execute child' command args ctx) := by
  cases command with
  | «repeat» =>
    refine SameRuns.compute_bind fun _ _ => SameRuns.bind (SameRuns.refl _) fun _ => ?_
    refine SameRuns.compute_bind fun maxIterations _ => ?_
    exact SameRuns.bind (sameRuns_repeatLoop (hchild rfl) _ _ _) fun s => SameRuns.refl _
  | retry =>
    refine SameRuns.compute_bind fun maxRetries _ => SameRuns.compute_bind fun delayMs _ => ?_
    exact sameRuns_retryLoop (hchild rfl) _ _ _ _
  | runFlow =>
    exact SameRuns.bind (sameRuns_runChildFlowCommand (hchild rfl)) fun result => SameRuns.refl _
  | _ => exact SameRuns.refl _

/-! ## Runs -/

variable {inside : List CommandName} {flow : MercuryFlow} {retryContext : Bool} {sequence : ℕ}
  {s : RunState}

lemma sameRuns_runCommand {command : FlowCommand}
    (hchild : command.name.isGroup = true → ∀ args, IsRendered runner command args →
      SameChildren runner files command.name args (flow.baseDir runner.cwd) child child') :
    SameRuns files (runner.runCommand child inside flow retryContext sequence command s)
      (runner.runCommand child' inside flow retryContext sequence command s) := by
  refine SameRuns.compute_bind fun renderedWhen _ => SameRuns.compute_bind fun holds _ => ?_
  split
  · exact SameRuns.refl _
  · refine SameRuns.compute_bind fun rendered hrendered => ?_
    refine SameRuns.compute_bind fun taintedChildEnvKeys _ => ?_
    refine SameRuns.bind (SameRuns.refl _) fun blocked => ?_
    cases blocked with
    | some blocked => exact SameRuns.refl _
    | none =>
      dsimp only
      split
      · exact SameRuns.refl _
      · refine SameRuns.bind ?_ fun execution => SameRuns.refl _
        unfold executeOrPlan
        split
        · exact SameRuns.refl _
        · exact sameRuns_execute fun hgroup => hchild hgroup rendered.1 ⟨s, rendered.2, hrendered⟩

lemma sameRuns_runCommands {commands : List FlowCommand}
    (hchild : ∀ command ∈ commands, command.name.isGroup = true →
      ∀ args, IsRendered runner command args →
        SameChildren runner files command.name args (flow.baseDir runner.cwd) child child') :
    SameRuns files (runner.runCommands child inside flow retryContext sequence commands s)
      (runner.runCommands child' inside flow retryContext sequence commands s) := by
  induction commands generalizing sequence s with
  | nil => exact SameRuns.refl _
  | cons command commands ih =>
    obtain ⟨hcommand, hcommands⟩ := List.forall_mem_cons.1 hchild
    refine SameRuns.bind (sameRuns_runCommand hcommand) fun outcome => ?_
    cases outcome with
    | done result => exact SameRuns.refl _
    | next s => exact ih hcommands

/-- Flows whose depth is below the bound do the same with any larger one. -/
theorem sameRuns_runFlow {depth : List String → List FlowCommand → ℕ}
    (hdepth : FlowDepth runner files depth) {limit limit' : ℕ}
    (h : depth (flow.baseDir runner.cwd) flow.allCommands < limit)
    (h' : depth (flow.baseDir runner.cwd) flow.allCommands < limit') (inside : List CommandName)
    (env : Fields) (retryContext : Bool) (taint : TaintState) :
    SameRuns files (runner.runFlow limit inside flow env retryContext taint)
      (runner.runFlow limit' inside flow env retryContext taint) := by
  induction limit generalizing limit' flow inside env retryContext taint with
  | zero => exact absurd h (Nat.not_lt_zero _)
  | succ limit ih =>
    cases limit' with
    | zero => exact absurd h' (Nat.not_lt_zero _)
    | succ limit' =>
      refine sameRuns_runCommands fun command hcommand hgroup args hargs inner hinner => ?_
      have hlt : depth (inner.baseDir runner.cwd) inner.allCommands <
          depth (flow.baseDir runner.cwd) flow.allCommands := by
        cases hinner with
        | inline commands hbase hcommands hinline =>
          rw [hbase, hcommands]
          exact hdepth.inline _ _ command hcommand hgroup args hargs commands hinline
        | loaded hload => exact hdepth.loaded _ _ command hcommand hgroup args hargs inner hload
      exact ih (by omega) (by omega)

end MercuryFlowRunner

/-- With more calls than the depth of the flow, the bound of the interpreter plays no part. -/
theorem runFlow_of_depth_lt {σ : Type} {R : Rules σ Event Answer (Except Failure FlowRunResult)}
    {runner : MercuryFlowRunner} {files : FlowFiles} {depth : List String → List FlowCommand → ℕ}
    (hdepth : FlowDepth runner files depth)
    (hfiles : ∀ {s event answer s'}, R.happens s event answer s' → files.Possible event answer)
    {flow : MercuryFlow} {limit : ℕ}
    (h : depth (flow.baseDir runner.cwd) flow.allCommands < limit) {env : Fields} {s s' : σ}
    {log : List ((event : Event) × Answer event)} {result : Except Failure FlowRunResult} :
    Performs R s (runner.runFlow limit [] flow env false []).run log s' (.done result) ↔
      Performs R s (runner.runFlow (depth (flow.baseDir runner.cwd) flow.allCommands + 1) [] flow
        env false []).run log s' (.done result) :=
  Agrees.performs_iff hfiles
    (MercuryFlowRunner.sameRuns_runFlow hdepth h (Nat.lt_succ_self _) [] env false [])

/-! ## Commands inside of commands -/

mutual

/-- The number of values that a value is made of. -/
def nodes : Json → ℕ
  | .arr items => 1 + itemNodes items
  | .obj fields => 1 + fieldNodes fields
  | _ => 1

def itemNodes : List Json → ℕ
  | [] => 0
  | item :: items => nodes item + itemNodes items

def fieldNodes : Fields → ℕ
  | [] => 0
  | (_, value) :: fields => nodes value + fieldNodes fields

end

def commandNodes (commands : List FlowCommand) : ℕ :=
  (commands.map fun command => 1 + fieldNodes command.args).sum

lemma commandNodes_cons (command : FlowCommand) (commands : List FlowCommand) :
    commandNodes (command :: commands) = 1 + fieldNodes command.args + commandNodes commands :=
  rfl

lemma nodes_le_of_lookup {fields : Fields} {key : String} {value : Json}
    (h : fields.lookup key = some value) : nodes value ≤ fieldNodes fields := by
  induction fields with
  | nil => cases h
  | cons field fields ih =>
    obtain ⟨key', value'⟩ := field
    rw [fieldNodes]
    rw [List.lookup_cons] at h
    split at h
    · obtain rfl := Option.some.inj h
      exact Nat.le_add_right _ _
    · exact (ih h).trans (Nat.le_add_left _ _)

variable {args : Fields} {source : String} {index : ℕ} {command : FlowCommand}
  {inner : List FlowCommand}

lemma args_of_supportedCommand {name : String}
    (h : supportedCommand name args source index = .ok command) : command.args = args := by
  unfold supportedCommand at h
  split at h
  · obtain rfl := Except.ok.inj h
    rfl
  · cases h

lemma nodes_parseCommand {raw : Json} (h : parseCommand raw source index = .ok command) :
    1 + fieldNodes command.args ≤ nodes raw := by
  unfold parseCommand at h
  split at h
  · rw [args_of_supportedCommand h]
    exact le_rfl
  · rw [args_of_supportedCommand h]
    exact Nat.le_add_right _ _
  · rw [args_of_supportedCommand h]
    simp only [nodes, fieldNodes]
    omega
  · rw [args_of_supportedCommand h]
    simp only [nodes, fieldNodes]
    exact le_rfl
  · cases h
  · cases h

lemma commandNodes_le_itemNodes {items : List (Json × ℕ)}
    (h : List.Forall₂ (fun item command => parseCommand item.1 source item.2 = .ok command) items
      inner) : commandNodes inner ≤ itemNodes (items.map Prod.fst) := by
  induction h with
  | nil => exact le_rfl
  | cons hcommand _ ih =>
    rw [commandNodes_cons, List.map_cons, itemNodes]
    exact Nat.add_le_add (nodes_parseCommand hcommand) ih

/-- The commands inside of a command have fewer nodes than its arguments. -/
lemma commandNodes_lt_of_inlineCommandsOf {command : CommandName}
    (h : MercuryFlowRunner.inlineCommandsOf command (getArg args "commands") = .ok inner) :
    commandNodes inner < 1 + fieldNodes args := by
  simp only [MercuryFlowRunner.inlineCommandsOf, Checks.bind_eq_ok] at h
  obtain ⟨commands, hcommands, hinner⟩ := h
  split at hinner
  · simp only [Checks.bind_eq_ok, reduceCtorEq, false_and, exists_false] at hinner
  · next hempty =>
    obtain rfl := Except.ok.inj hinner
    unfold parseInlineCommands at hcommands
    split at hcommands
    · obtain rfl := Except.ok.inj hcommands
      exact absurd rfl hempty
    · next items harg =>
      have hle := commandNodes_le_itemNodes (Checks.mapM_eq_ok.1 hcommands)
      rw [List.zipIdx_map_fst] at hle
      have hlookup : args.lookup "commands" = some (.arr items) := by
        unfold getArg at harg
        cases hlookup : args.lookup "commands" with
        | none => rw [hlookup] at harg; cases harg
        | some value => rw [hlookup] at harg; rw [← harg]; rfl
      have hnodes := nodes_le_of_lookup hlookup
      rw [nodes] at hnodes
      omega
    · cases hcommands

lemma lookup_commands_interpolateGroupArgs {rules : ValueRules} {vars : Fields} {taint : TaintState}
    {preserveWhile : Bool} {rendered : Fields} {tainted : Bool}
    (h : interpolateGroupArgs rules vars taint preserveWhile args = .ok (rendered, tainted)) :
    rendered.lookup "commands" = args.lookup "commands" := by
  induction args generalizing rendered tainted with
  | nil =>
    obtain ⟨rfl, -⟩ := Prod.mk.inj (Except.ok.inj h)
    rfl
  | cons arg args ih =>
    obtain ⟨key, value⟩ := arg
    simp only [interpolateGroupArgs, Checks.bind_eq_ok] at h
    obtain ⟨⟨value', tainted'⟩, hvalue, ⟨args', tainted''⟩, hargs, hrendered⟩ := h
    obtain ⟨rfl, -⟩ := Prod.mk.inj (Except.ok.inj hrendered)
    rw [List.lookup_cons, List.lookup_cons, ih hargs]
    by_cases hkey : key = "commands"
    · rw [hkey, interpolateGroupArg, if_pos (by simp)] at hvalue
      obtain ⟨rfl, -⟩ := Prod.mk.inj (Except.ok.inj hvalue)
      rfl
    · have hne : ("commands" == key) = false := beq_eq_false_iff_ne.2 (Ne.symm hkey)
      rw [hne]

/-- The commands of a group command are not changed by the variables. -/
lemma getArg_commands_of_isRendered {runner : MercuryFlowRunner}
    (hgroup : command.name.isGroup = true) (h : IsRendered runner command args) :
    getArg args "commands" = getArg command.args "commands" := by
  obtain ⟨s, tainted, hrendered⟩ := h
  rw [MercuryFlowRunner.renderArgs, if_pos hgroup] at hrendered
  exact congrArg (Option.getD · .null) (lookup_commands_interpolateGroupArgs hrendered)

/-- A group command has more nodes than the commands inside of it. -/
lemma commandNodes_lt_of_isRendered {runner : MercuryFlowRunner} {commands : List FlowCommand}
    (hcommand : command ∈ commands) (hgroup : command.name.isGroup = true)
    (hargs : IsRendered runner command args)
    (hinner : MercuryFlowRunner.inlineCommandsOf command.name (getArg args "commands") =
      .ok inner) : commandNodes inner < commandNodes commands := by
  rw [getArg_commands_of_isRendered hgroup hargs] at hinner
  refine (commandNodes_lt_of_inlineCommandsOf hinner).trans_le ?_
  exact List.single_le_sum (fun _ _ => Nat.zero_le _) _
    (List.mem_map_of_mem (f := fun command : FlowCommand => 1 + fieldNodes command.args) hcommand)

/-- The nodes of commands that run others. -/
def groupNodes (commands : List FlowCommand) : ℕ :=
  if commands.any (·.name.isGroup) then commandNodes commands + 1 else 0

lemma groupNodes_of_mem {commands : List FlowCommand} (hcommand : command ∈ commands)
    (hgroup : command.name.isGroup = true) : groupNodes commands = commandNodes commands + 1 :=
  if_pos (List.any_eq_true.2 ⟨command, hcommand, hgroup⟩)

lemma groupNodes_le (commands : List FlowCommand) :
    groupNodes commands ≤ commandNodes commands + 1 := by
  unfold groupNodes
  split
  · exact le_rfl
  · exact Nat.zero_le _

/-- Flows whose files run no others. -/
theorem flowDepth_groupNodes (runner : MercuryFlowRunner) {files : FlowFiles}
    (hfiles : ∀ baseDir rawPath flow, files.MayLoad baseDir rawPath flow →
      groupNodes flow.allCommands = 0) : FlowDepth runner files fun _ => groupNodes where
  inline := by
    intro baseDir commands command hcommand hgroup args hargs inner hinner
    rw [groupNodes_of_mem hcommand hgroup]
    exact (groupNodes_le inner).trans_lt
      (Nat.succ_lt_succ (commandNodes_lt_of_isRendered hcommand hgroup hargs hinner))
  loaded := by
    intro baseDir commands command hcommand hgroup args hargs flow hload
    rw [groupNodes_of_mem hcommand hgroup, hfiles _ _ flow hload]
    exact Nat.succ_pos _

/-! ### A file -/

/-- Answers of these files, and any others. -/
def answersOf (files : FlowFiles) : Rules Unit Event Answer (Except Failure FlowRunResult) where
  happens := fun _ event answer _ => files.Possible event answer
  entry := fun _ => True
  outside := fun _ _ => True

/-- The runner with a loader of flows. -/
def loaderRunner : MercuryFlowRunner :=
  { erpRunner with hasFlowLoader := true }

/-- A flow that previews. -/
def loadedFlow : MercuryFlow :=
  { previewFlow with commands := [erpCommand .erpWritePreview "invoices.create"] }

/-- A flow that runs a file, inside of another. -/
def fileFlow : MercuryFlow :=
  { previewFlow with
    commands := [⟨.runFlow, [("commands", .arr [.obj [("runFlow",
      .obj [("file", .str "preview.yaml")])]])], "commands", 0⟩] }

/-- One file. -/
def oneFile : FlowFiles where
  loads := fun _ _ flow => flow = loadedFlow
  resolves := fun _ _ _ => False
  contains := fun _ _ => False

/-- The run of the flow with at most so many flows inside each other. -/
def fileRun (limit : ℕ) : Run FlowRunResult :=
  loaderRunner.runFlow limit [] fileFlow [] false []

/-- What runs with as many calls as the depth runs with a thousand. -/
theorem runFlow_of_depth_lt_fileRun :
    ∃ result log, Performs (answersOf oneFile) () (fileRun 1000).run log () (.done (.ok result)) ∧
      log.map (·.1.call.isPreview) = [false, true] := by
  have hdepth : FlowDepth loaderRunner oneFile fun _ => groupNodes :=
    flowDepth_groupNodes loaderRunner fun _ _ flow hload => by
      rcases hload with rfl | ⟨_, hload, -⟩
      · rfl
      · exact hload.elim
  have hpossible : ∀ event, oneFile.Possible event (previewAnswer loadedFlow event) := by
    rintro ⟨inside, call⟩
    cases call with
    | flowLoader => exact fun _ h => (Except.ok.inj h).symm
    | flowPathResolver => exact fun _ h => by cases h
    | parseFlowPath => exact fun _ h => by cases h
    | _ => trivial
  obtain ⟨outcome, houtcome, hok⟩ := (Option.any_eq_true _ _).1
    (by decide +kernel : ((fileRun (groupNodes fileFlow.allCommands + 1)).run.replay
      (previewAnswer loadedFlow)).2.any Except.isOk = true)
  cases outcome with
  | error failure => cases hok
  | ok result =>
    have hperforms : Performs (answersOf oneFile) ()
        (fileRun (groupNodes fileFlow.allCommands + 1)).run _ () (.done (.ok result)) :=
      Performs.replay hpossible houtcome
    exact ⟨result, _, (runFlow_of_depth_lt hdepth id (by decide)).2 hperforms, by decide +kernel⟩

end Flows
end MercuryTools
