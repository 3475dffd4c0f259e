import MercuryTools.Flows.Runner

/-!
# A write preview is the last call of a run

What `MercuryFlowRunner` of `flows/runner.py` calls in a run, whatever the callbacks return or
raise.  A preview ends the run with the status of a confirmation: the status is passed on by every
child flow and every iteration around it, and there is no retry around it that could catch what the
preview raises (`runFlow_preview_last`).  A dry run only asks the capability gate and loads nested
flows.
-/

namespace MercuryTools
namespace Flows

open Programs

/-! ## Kinds of calls -/

def Call.isPreview : Call → Bool
  | erpWritePreview .. => true
  | _ => false

/-- Calls that come before a command is executed: the gate, and the loader of nested flows. -/
def Call.isPreparatory : Call → Bool
  | capabilityGate _ | flowLoader .. | flowPathResolver .. | isFile _ | parseFlowPath _ => true
  | _ => false

/-- Nothing is called after a preview, which is not inside a retry. -/
def previewProtocol (dryRun : Bool) : Protocol Event Answer Bool where
  start := false
  allowed := fun previewed event => previewed = false ∧
    (dryRun = true → event.call.isPreparatory = true) ∧
    (event.call.isPreview = true → .retry ∉ event.inside)
  next := fun _ event _ => event.call.isPreview

/-- After a preview, what is returned satisfies the condition, and there is no retry around. -/
def Ends {α : Type} (retryContext : Bool) (confirmed : α → Prop) (previewed : Bool)
    (outcome : Option (Except Failure α)) : Prop :=
  ∃ result, outcome = some result ∧
    (previewed = true → retryContext = false ∧ ∀ a, result = .ok a → confirmed a)

/-- A run that starts before any preview. -/
def Tame {α : Type} (dryRun retryContext : Bool) (confirmed : α → Prop) (run : Run α) : Prop :=
  Keeps (previewProtocol dryRun) (Ends retryContext confirmed) run false

/-- A run without a preview. -/
abbrev Previewless {α : Type} (dryRun retryContext : Bool) (run : Run α) : Prop :=
  Tame dryRun retryContext (fun _ => False) run

section

variable {α β : Type} {dryRun retryContext : Bool} {confirmed : α → Prop} {confirmed' : β → Prop}
  {run : Run α}

/-! ## Rules -/

lemma tame_compute (result : Except Failure α) :
    Tame dryRun retryContext confirmed (compute result) :=
  ⟨result, rfl, fun h => absurd h (by decide)⟩

lemma tame_pure (a : α) : Tame dryRun retryContext confirmed (pure a) :=
  tame_compute (.ok a)

lemma tame_raise (failure : Failure) : Tame dryRun retryContext confirmed (raise failure) :=
  tame_compute (.error failure)

/-- A call that is not a preview. -/
lemma tame_ask {inside : List CommandName} {call : Call} {confirmed : call.Value → Prop}
    (hpreview : call.isPreview = false) (hdry : dryRun = true → call.isPreparatory = true) :
    Tame dryRun retryContext confirmed (ask inside call) := by
  refine ⟨⟨rfl, hdry, fun h => ?_⟩, fun answer => ⟨answer, rfl, fun h => ?_⟩⟩
  · exact absurd (hpreview.symm.trans h) (by decide)
  · exact absurd (hpreview.symm.trans h) (by decide)

/-- What follows a preview makes no calls. -/
lemma tame_bind {f : α → Run β} (h : Tame dryRun retryContext confirmed run)
    (hnext : ∀ a, Tame dryRun retryContext confirmed' (f a))
    (hafter : ∀ a, retryContext = false → confirmed a →
      Keeps (previewProtocol dryRun) (Ends retryContext confirmed') (f a) true) :
    Tame dryRun retryContext confirmed' (run >>= f) := by
  refine Keeps.bind h ?_ ?_
  · rintro previewed result ⟨_, ⟨⟩, hresult⟩
    cases result with
    | error failure =>
      exact ⟨_, rfl, fun h => ⟨(hresult h).1, fun b hb => by cases hb⟩⟩
    | ok a =>
      cases previewed with
      | false => exact hnext a
      | true => exact hafter a (hresult rfl).1 ((hresult rfl).2 a rfl)
  · rintro previewed ⟨_, ⟨⟩, -⟩

/-- What follows a run without a preview. -/
lemma Tame.bind {f : α → Run β} (h : Previewless dryRun retryContext run)
    (hnext : ∀ a, Tame dryRun retryContext confirmed' (f a)) :
    Tame dryRun retryContext confirmed' (run >>= f) :=
  tame_bind h hnext fun _ _ hfalse => hfalse.elim

lemma keeps_pure_of_confirmed {a : α} (hretry : retryContext = false) (h : confirmed a) :
    Keeps (previewProtocol dryRun) (Ends retryContext confirmed) (pure a : Run α) true :=
  ⟨.ok a, rfl, fun _ => ⟨hretry, fun _ heq => Except.ok.inj heq ▸ h⟩⟩

/-- What is returned after a preview, changed without a call. -/
lemma tame_map {f : α → β} (h : Tame dryRun retryContext confirmed run)
    (hconfirmed : ∀ a, confirmed a → confirmed' (f a)) :
    Tame dryRun retryContext confirmed' (run >>= fun a => pure (f a)) := by
  refine Keeps.bind h ?_ ?_
  · rintro previewed result ⟨_, ⟨⟩, hresult⟩
    cases result with
    | error failure =>
      exact ⟨_, rfl, fun h => ⟨(hresult h).1, fun b hb => by cases hb⟩⟩
    | ok a =>
      refine ⟨.ok (f a), rfl, fun h => ⟨(hresult h).1, fun b hb => ?_⟩⟩
      obtain rfl := Except.ok.inj hb
      exact hconfirmed a ((hresult h).2 a rfl)
  · rintro previewed ⟨_, ⟨⟩, -⟩

lemma Tame.mono {confirmed'' : α → Prop} (h : Tame dryRun retryContext confirmed run)
    (himp : ∀ a, confirmed a → confirmed'' a) : Tame dryRun retryContext confirmed'' run := by
  refine Keeps.mono h ?_
  rintro previewed outcome ⟨result, rfl, hresult⟩
  exact ⟨result, rfl, fun h => ⟨(hresult h).1, fun a ha => himp a ((hresult h).2 a ha)⟩⟩

/-- Inside a retry there is no preview, so that what is raised can be caught. -/
lemma previewless_attempt {confirmed : α → Prop} (h : Tame dryRun true confirmed run) :
    Previewless dryRun retryContext (attempt run) := by
  refine Keeps.bind h ?_ ?_
  · rintro previewed result ⟨_, ⟨⟩, hresult⟩
    refine ⟨.ok result, rfl, fun h => ?_⟩
    exact absurd (hresult h).1 (by decide)
  · rintro previewed ⟨_, ⟨⟩, -⟩

end

/-! ## Child flows -/

/-- The run ends here, with the status of a confirmation. -/
def StepOutcome.IsConfirmed : StepOutcome → Prop
  | .next _ => False
  | .done result => result.status = .confirmationRequired

/-- Child flows whose previews are the last calls. -/
def ChildTame (dryRun : Bool) (child : ChildRun) : Prop :=
  ∀ inside flow env retryContext taint, (.retry ∈ inside → retryContext = true) →
    Tame dryRun retryContext (fun result => result.status = .confirmationRequired)
      (child inside flow env retryContext taint)

namespace MercuryFlowRunner

variable {runner : MercuryFlowRunner} {child : ChildRun} {ctx : CommandContext}
  {command : CommandName} {args : Fields} {retryContext : Bool}

lemma previewless_resolveNestedFlowPath (rawPath : String) :
    Previewless runner.dryRun retryContext (resolveNestedFlowPath ctx rawPath) := by
  refine Tame.bind (tame_ask rfl fun _ => rfl) fun childPath => ?_
  refine Tame.bind (tame_ask rfl fun _ => rfl) fun isFile => ?_
  cases isFile with
  | false => exact tame_raise _
  | true => exact tame_pure _

lemma previewless_loadNestedFlow (rawPath : String) :
    Previewless runner.dryRun retryContext (runner.loadNestedFlow ctx rawPath) := by
  unfold loadNestedFlow
  split
  · exact tame_ask rfl fun _ => rfl
  · exact Tame.bind (previewless_resolveNestedFlowPath rawPath) fun childPath =>
      tame_ask rfl fun _ => rfl

lemma previewless_childFlowOf (childEnv : Fields) :
    Previewless runner.dryRun retryContext (runner.childFlowOf command args ctx childEnv) := by
  unfold childFlowOf
  dsimp only
  split
  · exact tame_raise _
  · split
    · exact Tame.bind (tame_compute _) fun commands => tame_pure _
    · split
      · exact tame_raise _
      · exact previewless_loadNestedFlow _

/-- The child flow of a command is the last one to call something. -/
lemma tame_runChildFlowCommand (hchild : ChildTame runner.dryRun child) (ctx : CommandContext)
    (hinside : .retry ∈ ctx.inside ++ [command] → ctx.retryContext = true) :
    Tame runner.dryRun ctx.retryContext (fun result => result.status = .confirmationRequired)
      (runner.runChildFlowCommand child command args ctx) := by
  refine Tame.bind (tame_compute _) fun childEnv => ?_
  refine Tame.bind (previewless_childFlowOf childEnv) fun flow => ?_
  exact hchild _ _ _ _ _ hinside

/-! ## Repeat and retry -/

/-- The last iteration waits for a confirmation. -/
def RepeatState.IsConfirmed (s : RepeatState) : Prop :=
  s.results.getLast?.map FlowRunResult.status = some .confirmationRequired

lemma tame_repeatLoop (hchild : ChildTame runner.dryRun child)
    (hinside : .retry ∈ ctx.inside → ctx.retryContext = true) (maxIterations remaining : ℕ)
    (s : RepeatState) :
    Tame runner.dryRun ctx.retryContext RepeatState.IsConfirmed
      (runner.repeatLoop child args ctx maxIterations remaining s) := by
  induction remaining generalizing s with
  | zero => exact tame_pure _
  | succ remaining ih =>
    unfold repeatLoop
    dsimp only
    refine Tame.bind (tame_compute _) fun env => ?_
    refine Tame.bind (tame_compute _) fun rendered => ?_
    split
    · have hrepeat : .retry ∈ ctx.inside ++ [CommandName.repeat] → ctx.retryContext = true := by
        intro hmem
        rcases List.mem_append.1 hmem with hmem | hmem
        · exact hinside hmem
        · exact absurd (List.mem_singleton.1 hmem) (by decide)
      refine tame_bind (tame_runChildFlowCommand hchild { ctx with parentEnv := .obj env } hrepeat)
        (fun result => ?_) fun result hretry hconfirmed => ?_
      · split
        · exact tame_pure _
        · split
          · exact tame_pure _
          · exact ih _
      · rw [if_pos hconfirmed]
        refine keeps_pure_of_confirmed hretry ?_
        rw [RepeatState.IsConfirmed, List.getLast?_concat, Option.map_some, hconfirmed]
    · exact tame_pure _

lemma previewless_retryLoop (hchild : ChildTame runner.dryRun child) (maxRetries delayMs : ℕ)
    (remaining : ℕ) (attempts : List Json) :
    Previewless runner.dryRun retryContext
      (runner.retryLoop child args ctx maxRetries delayMs remaining attempts) := by
  induction remaining generalizing attempts with
  | zero => exact tame_raise _
  | succ remaining ih =>
    refine Tame.bind (previewless_attempt (tame_runChildFlowCommand hchild
      { ctx with retryContext := true } fun _ => rfl)) fun outcome => ?_
    split
    · exact tame_pure _
    · exact tame_raise _
    · dsimp only
      split
      · exact tame_raise _
      · exact ih _

lemma previewless_runRetry (hchild : ChildTame runner.dryRun child) :
    Previewless runner.dryRun retryContext (runner.runRetry child args ctx) := by
  refine Tame.bind (tame_compute _) fun maxRetries => ?_
  refine Tame.bind (tame_compute _) fun delayMs => ?_
  exact previewless_retryLoop hchild maxRetries delayMs _ _

/-! ## Outputs that wait for a confirmation -/

/-- An output that ends the run with a confirmation. -/
def IsConfirmation (output : CommandOutput) : Prop :=
  isTerminalConfirmation output.value = true ∧
    output.blockedReason ≠ some erpToCloudTaintReason

lemma key_of_mem_textEntries {fields : Fields} {keys : List String} {entry : String × Json}
    (h : entry ∈ textEntries fields keys) : entry.1 ∈ keys := by
  obtain ⟨key, hkey, hentry⟩ := List.mem_flatMap.1 h
  split at hentry
  · split at hentry
    · cases hentry
    · rw [List.mem_singleton.1 hentry]
      exact hkey
  · cases hentry

/-- The ids of the request do not change the status. -/
lemma lookup_status_setAll (fields : Fields) (result : FlowRunResult) :
    (Dict.setAll fields (confirmationSummaryFields result)).lookup "status" =
      fields.lookup "status" := by
  refine Dict.get_setAll_of_notMem fields fun hmem => ?_
  obtain ⟨entry, hentry, hkey⟩ := List.mem_map.1 hmem
  unfold confirmationSummaryFields at hentry
  split at hentry
  · cases hentry
  · split at hentry
    · cases hentry
    · have hkeys := key_of_mem_textEntries hentry
      rw [hkey] at hkeys
      exact absurd hkeys (by decide)

lemma isConfirmation_repeatOutput {s : RepeatState} (h : s.IsConfirmed) (maxIterations : ℕ) :
    IsConfirmation (runner.repeatOutput maxIterations s) := by
  have hstatus : runner.repeatStatus s = .confirmationRequired := by
    rw [repeatStatus, h]
  obtain ⟨result, hresult, -⟩ := Option.map_eq_some_iff.1 h
  constructor
  · rw [isTerminalConfirmation, decide_eq_true_eq]
    simp only [repeatOutput, hresult, Option.map_some, Option.getD_some, Json.get?]
    rw [lookup_status_setAll, hstatus]
    rfl
  · simp [repeatOutput, hstatus]

/-- A child flow that waits for a confirmation makes the command wait for it. -/
lemma isConfirmation_runFlow {result : FlowRunResult}
    (h : result.status = .confirmationRequired) :
    IsConfirmation
      { value := .obj (childFlowOutput result), tainted := result.tainted
        blockedReason := if result.status = .blocked then result.reason else none } := by
  constructor
  · rw [isTerminalConfirmation, decide_eq_true_eq]
    simp only [childFlowOutput, Json.get?]
    rw [lookup_status_setAll, FlowRunResult.asDict, h]
    rfl
  · simp [h]

lemma isConfirmation_of_preview {preview output : Json}
    (h : confirmationRequiredOutput preview = .ok output) : IsConfirmation { value := output } := by
  refine ⟨?_, by simp⟩
  unfold confirmationRequiredOutput at h
  split at h
  · split at h
    · cases h
    · cases h
    · obtain rfl := Except.ok.inj h
      rfl
  · cases h

/-! ## Commands -/

lemma tame_runRepeat (hchild : ChildTame runner.dryRun child)
    (hinside : .retry ∈ ctx.inside → ctx.retryContext = true) :
    Tame runner.dryRun ctx.retryContext IsConfirmation (runner.runRepeat child args ctx) := by
  have hloop : ∀ maxIterations s, Tame runner.dryRun ctx.retryContext IsConfirmation
      (runner.repeatLoop child args ctx maxIterations maxIterations s >>= fun s =>
        pure (runner.repeatOutput maxIterations s)) := fun maxIterations s =>
    tame_map (tame_repeatLoop hchild hinside maxIterations maxIterations s) fun s hs =>
      isConfirmation_repeatOutput hs maxIterations
  have hflow : Previewless runner.dryRun ctx.retryContext (runner.checkRepeatFlow args ctx) := by
    unfold checkRepeatFlow
    dsimp only
    split
    · exact tame_compute _
    · split
      · exact tame_pure _
      · exact Tame.bind (previewless_resolveNestedFlowPath _) fun _ => tame_pure _
  refine Tame.bind (tame_compute _) fun _ => ?_
  refine Tame.bind hflow fun _ => ?_
  exact Tame.bind (tame_compute _) fun maxIterations => hloop maxIterations _

lemma previewless_checkCapabilities (inside : List CommandName) (capabilities : List String) :
    Previewless runner.dryRun retryContext (checkCapabilities inside capabilities) := by
  induction capabilities with
  | nil => exact tame_pure _
  | cons capability capabilities ih =>
    refine Tame.bind (tame_ask rfl fun _ => rfl) fun blocked => ?_
    cases blocked with
    | none => exact ih
    | some blocked => exact tame_pure _

lemma previewless_askGate (inside : List CommandName) (args : Fields) :
    Previewless runner.dryRun retryContext (runner.askGate inside args) := by
  unfold askGate
  split
  · exact previewless_checkCapabilities inside _
  · exact tame_pure _

/-- A preview is not inside a retry, and makes the command wait for a confirmation. -/
lemma tame_erpWritePreview (hinside : .retry ∈ ctx.inside → ctx.retryContext = true)
    (hdry : runner.dryRun = false) :
    Tame runner.dryRun ctx.retryContext IsConfirmation (runner.erpWritePreview args ctx) := by
  unfold erpWritePreview
  split
  · exact tame_raise _
  · next hretry =>
    have hretry := Bool.eq_false_iff.2 hretry
    refine Tame.bind (tame_compute _) fun _ => Tame.bind (tame_compute _) fun arguments => ?_
    refine ⟨⟨rfl, fun hdry' => absurd (hdry.symm.trans hdry') (by decide), fun _ hmem => ?_⟩,
      fun answer => ?_⟩
    · exact absurd (hretry.symm.trans (hinside hmem)) (by decide)
    · cases answer with
      | error failure => exact ⟨_, rfl, fun _ => ⟨hretry, fun a ha => by cases ha⟩⟩
      | ok preview =>
        change Keeps _ _ (compute (confirmationRequiredOutput preview) >>= fun output =>
          pure { value := output } : Run CommandOutput) true
        cases houtput : confirmationRequiredOutput preview with
        | error failure => exact ⟨_, rfl, fun _ => ⟨hretry, fun a ha => by cases ha⟩⟩
        | ok output => exact keeps_pure_of_confirmed hretry (isConfirmation_of_preview houtput)

lemma tame_execute (hchild : ChildTame runner.dryRun child)
    (hinside : .retry ∈ ctx.inside → ctx.retryContext = true)
    (hdry : runner.dryRun = true → command.isGroup = true) :
    Tame runner.dryRun ctx.retryContext IsConfirmation
      (runner.execute child command args ctx) := by
  have hreal : command.isGroup = false → runner.dryRun = false := fun hgroup =>
    Bool.eq_false_iff.2 fun h => absurd (hgroup.symm.trans (hdry h)) (by decide)
  have hask : command.isGroup = false → ∀ {call : Call} {confirmed : call.Value → Prop},
      call.isPreview = false → Tame runner.dryRun ctx.retryContext confirmed
        (ask ctx.inside call) := fun hgroup call confirmed hpreview =>
    tame_ask hpreview fun h => absurd ((hreal hgroup).symm.trans h) (by decide)
  cases command with
  | assert => exact Tame.bind (tame_compute _) fun _ => tame_pure _
  | connectorStatus =>
    exact Tame.bind (tame_compute _) fun _ => Tame.bind (hask rfl rfl) fun _ => tame_pure _
  | erpRead =>
    exact Tame.bind (tame_compute _) fun _ => Tame.bind (tame_compute _) fun _ =>
      Tame.bind (hask rfl rfl) fun _ => tame_pure _
  | erpWritePreview => exact tame_erpWritePreview hinside (hreal rfl)
  | emitReport => exact tame_pure _
  | getDocument =>
    exact Tame.bind (tame_compute _) fun _ => Tame.bind (tame_compute _) fun _ =>
      Tame.bind (hask rfl rfl) fun _ => tame_pure _
  | «repeat» => exact tame_runRepeat hchild hinside
  | retrieveContextPack =>
    exact Tame.bind (tame_compute _) fun _ => Tame.bind (hask rfl rfl) fun _ =>
      Tame.bind (tame_compute _) fun _ => Tame.bind (tame_compute _) fun _ =>
        Tame.bind (hask rfl rfl) fun _ => Tame.bind (tame_compute _) fun _ => tame_pure _
  | retry => exact (previewless_runRetry hchild).mono fun _ hfalse => hfalse.elim
  | runFlow =>
    have hrunFlow : .retry ∈ ctx.inside ++ [CommandName.runFlow] → ctx.retryContext = true := by
      intro hmem
      rcases List.mem_append.1 hmem with hmem | hmem
      · exact hinside hmem
      · exact absurd (List.mem_singleton.1 hmem) (by decide)
    exact tame_map (tame_runChildFlowCommand hchild ctx hrunFlow) fun result hresult =>
      isConfirmation_runFlow hresult
  | runSkill =>
    exact Tame.bind (tame_compute _) fun _ => Tame.bind (tame_compute _) fun _ =>
      Tame.bind (tame_compute _) fun _ => Tame.bind (hask rfl rfl) fun _ => tame_pure _
  | searchKnowledge =>
    exact Tame.bind (tame_compute _) fun _ => Tame.bind (hask rfl rfl) fun _ =>
      Tame.bind (tame_compute _) fun _ => Tame.bind (tame_compute _) fun _ =>
        Tame.bind (hask rfl rfl) fun _ => Tame.bind (tame_compute _) fun _ => tame_pure _

lemma tame_executeOrPlan (hchild : ChildTame runner.dryRun child) (ctx : CommandContext)
    (hinside : .retry ∈ ctx.inside → ctx.retryContext = true) :
    Tame runner.dryRun ctx.retryContext IsConfirmation
      (runner.executeOrPlan child command args ctx) := by
  unfold executeOrPlan
  split
  · exact tame_pure _
  · next hplan =>
    refine tame_execute hchild hinside fun hdry => ?_
    rw [hdry, Bool.true_and, Bool.not_eq_true, Bool.not_eq_false'] at hplan
    exact hplan

/-! ## Runs -/

lemma isConfirmed_afterExecution {flow : MercuryFlow} {sequence : ℕ} {command : FlowCommand}
    {renderedTainted : Bool} {execution : CommandOutput} {s : RunState}
    (h : IsConfirmation execution) :
    (runner.afterExecution flow sequence command args renderedTainted execution s).IsConfirmed := by
  unfold afterExecution
  dsimp only
  rw [if_neg h.2, if_pos h.1]
  rfl

lemma tame_runCommand (hchild : ChildTame runner.dryRun child) {inside : List CommandName}
    (hinside : .retry ∈ inside → retryContext = true) (flow : MercuryFlow) (sequence : ℕ)
    (command : FlowCommand) (s : RunState) :
    Tame runner.dryRun retryContext StepOutcome.IsConfirmed
      (runner.runCommand child inside flow retryContext sequence command s) := by
  refine Tame.bind (tame_compute _) fun renderedWhen => ?_
  refine Tame.bind (tame_compute _) fun holds => ?_
  split
  · exact tame_pure _
  · refine Tame.bind (tame_compute _) fun rendered => ?_
    refine Tame.bind (tame_compute _) fun taintedChildEnvKeys => ?_
    refine Tame.bind (previewless_askGate inside _) fun blocked => ?_
    cases blocked with
    | some blocked => exact Tame.bind (tame_compute _) fun _ => tame_pure _
    | none =>
      dsimp only
      split
      · exact tame_pure _
      · exact tame_map (tame_executeOrPlan hchild ⟨inside, flow.baseDir runner.cwd,
          getArg s.vars "env", retryContext, s.taint, taintedChildEnvKeys⟩ hinside)
            fun execution hexecution => isConfirmed_afterExecution hexecution

lemma tame_runCommands (hchild : ChildTame runner.dryRun child) {inside : List CommandName}
    (hinside : .retry ∈ inside → retryContext = true) (flow : MercuryFlow) (sequence : ℕ)
    (commands : List FlowCommand) (s : RunState) :
    Tame runner.dryRun retryContext (fun result => result.status = .confirmationRequired)
      (runner.runCommands child inside flow retryContext sequence commands s) := by
  induction commands generalizing sequence s with
  | nil => exact tame_pure _
  | cons command commands ih =>
    refine tame_bind (tame_runCommand hchild hinside flow sequence command s)
      (fun outcome => ?_) fun outcome hretry hconfirmed => ?_
    · cases outcome with
      | next s => exact ih (sequence + 1) s
      | done result => exact tame_pure _
    · cases outcome with
      | next s => exact hconfirmed.elim
      | done result => exact keeps_pure_of_confirmed hretry hconfirmed

/-- Flows inside each other, however many the interpreter lets run. -/
theorem childTame_runFlow (runner : MercuryFlowRunner) (limit : ℕ) :
    ChildTame runner.dryRun (runner.runFlow limit) := by
  induction limit with
  | zero => exact fun _ _ _ _ _ _ => tame_raise _
  | succ limit ih => exact fun _ flow _ _ _ hinside => tame_runCommands ih hinside flow 1 _ _

end MercuryFlowRunner

/-- What a run has called: after a preview nothing more, and it is not inside a retry; in a dry run
only what prepares a command. -/
structure PreviewLast (dryRun : Bool) (log : List ((event : Event) × Answer event)) : Prop where
  last : ∀ before entry after, log = before ++ entry :: after → entry.1.call.isPreview = true →
    after = [] ∧ .retry ∉ entry.1.inside
  dry : dryRun = true → ∀ entry ∈ log, entry.1.call.isPreparatory = true

/-- Whatever the callbacks return or raise, and whatever happens to what they work on: a preview is
the last call, and what is returned after it waits for the confirmation. -/
theorem runFlow_preview_last {σ : Type} {R : Rules σ Event Answer (Except Failure FlowRunResult)}
    {runner : MercuryFlowRunner} {limit : ℕ} {flow : MercuryFlow} {env : Fields} {s s' : σ}
    {log : List ((event : Event) × Answer event)} {rest : Run FlowRunResult}
    (h : Performs R s (runner.runFlow limit [] flow env false []).run log s' rest) :
    PreviewLast runner.dryRun log ∧
      ∀ result, rest = pure result → (∃ entry ∈ log, entry.1.call.isPreview = true) →
        result.status = .confirmationRequired := by
  have hkeeps := runner.childTame_runFlow limit [] flow env false [] fun hmem =>
    absurd hmem List.not_mem_nil
  have hlast : ∀ before entry after, log = before ++ entry :: after →
      entry.1.call.isPreview = true → after = [] := by
    intro before entry after hlog hpreview
    cases after with
    | nil => rfl
    | cons next after =>
      have hlog' : log = (before ++ [entry]) ++ next :: after := by
        rw [hlog, List.append_assoc]
        rfl
      have hnext := h.allowed hkeeps hlog'
      rw [List.foldl_append] at hnext
      exact absurd (hpreview.symm.trans hnext.1) (by decide)
  refine ⟨⟨?_, ?_⟩, ?_⟩
  · intro before entry after hlog hpreview
    exact ⟨hlast before entry after hlog hpreview, (h.allowed hkeeps hlog).2.2 hpreview⟩
  · intro hdry entry hentry
    obtain ⟨before, after, hlog⟩ := List.append_of_mem hentry
    exact (h.allowed hkeeps hlog).2.1 hdry
  · rintro result rfl ⟨entry, hentry, hpreview⟩
    obtain ⟨before, after, hlog⟩ := List.append_of_mem hentry
    obtain rfl := hlast before entry after hlog hpreview
    obtain ⟨_, hresult, hconfirmed⟩ := h.keeps hkeeps
    obtain rfl := Option.some.inj hresult
    rw [hlog, List.foldl_append] at hconfirmed
    exact (hconfirmed hpreview).2 result rfl

/-! ### A preview -/

/-- Rules that only know of texts. -/
def textRules : ValueRules where
  str := fun value => match value with
    | .str text => text
    | _ => ""
  repr := fun value => match value with
    | .str text => text
    | _ => ""
  int := fun _ => none
  lower := id
  eq := fun _ _ => false
  isZero := fun _ => false
  redactJson := id
  validFilters := fun _ => true

/-- A runner with the callbacks of an ERP. -/
def erpRunner : MercuryFlowRunner where
  rules := textRules
  dryRun := false
  hasRagService := false
  hasDocumentGetter := false
  hasConnectorStatusGetter := false
  hasSkillRunner := false
  hasErpReadCallback := true
  hasErpWritePreviewCallback := true
  hasFlowLoader := false
  hasCapabilityGate := false
  cwd := []

/-- A command with the id of an action. -/
def erpCommand (name : CommandName) (actionId : String) : FlowCommand :=
  ⟨name, [("actionId", .str actionId)], "commands", 0⟩

/-- A flow that reads, and previews in a child flow. -/
def previewFlow : MercuryFlow where
  name := "Preview"
  description := none
  tags := []
  env := []
  commands := [erpCommand .erpRead "contacts.list",
    ⟨.runFlow, [("commands", .arr [.obj [("erpWritePreview",
      .obj [("actionId", .str "invoices.create")])]])], "commands", 1⟩]

/-- A flow is loaded, nothing is read and a preview is stored. -/
def previewAnswer (loaded : MercuryFlow) : (event : Event) → Answer event
  | ⟨_, .erpRead ..⟩ => .ok (.arr [])
  | ⟨_, .erpWritePreview ..⟩ =>
      .ok (.obj [("request_id", .str "req_1"), ("payload_hash", .str "sha256")])
  | ⟨_, .flowLoader ..⟩ => .ok loaded
  | _ => .error .recursion

/-- Whatever may be answered. -/
def anyAnswer : Rules Unit Event Answer (Except Failure FlowRunResult) where
  happens := fun _ _ _ _ => True
  entry := fun _ => True
  outside := fun _ _ => True

/-- The run of the flow. -/
def previewRun : Run FlowRunResult :=
  erpRunner.runFlow 2 [] previewFlow [] false []

/-- The run ends with the preview, and what it returns waits for the confirmation. -/
theorem runFlow_preview_last_previewRun :
    ∃ result log, Performs anyAnswer () previewRun.run log () (.done (.ok result)) ∧
      log.map (·.1.call.isPreview) = [false, true] ∧ PreviewLast false log ∧
      result.status = .confirmationRequired := by
  obtain ⟨outcome, houtcome, hok⟩ := (Option.any_eq_true _ _).1
    (by decide +kernel :
      (previewRun.run.replay (previewAnswer previewFlow)).2.any Except.isOk = true)
  cases outcome with
  | error failure => cases hok
  | ok result =>
    have hperforms : Performs anyAnswer () previewRun.run _ () (.done (.ok result)) :=
      Performs.replay (fun _ => trivial) houtcome
    have hcalls : (previewRun.run.replay (previewAnswer previewFlow)).1.map
        (·.1.call.isPreview) = [false, true] := by decide +kernel
    obtain ⟨hlast, hresult⟩ := runFlow_preview_last hperforms
    refine ⟨result, _, hperforms, hcalls, hlast, hresult result rfl ?_⟩
    exact List.mem_map.1 (hcalls ▸ List.mem_cons_of_mem _ List.mem_cons_self)

end Flows
end MercuryTools
