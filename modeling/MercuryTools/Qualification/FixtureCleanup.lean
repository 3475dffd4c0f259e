import MercuryTools.Framework.TopologicalOrder
import MercuryTools.Qualification.RunDirectory
import Mathlib.Data.String.Basic

/-!
# Cleanup of the fixtures of a run

`FixtureRegistry` and `CleanupCoordinator` of `qualification/fixtures.py`.  A cleanup works in
turns: it runs until it awaits the adapter, and goes on when the adapter has answered.  Between two
turns of one cleanup, fixtures may be registered and other cleanups may begin, go on or be
cancelled.

The store is a run store that has been opened; its calls may raise at any time.
-/

namespace MercuryTools.Qualification

open Checks Hosted

/-! ## Registry -/

/-- `FixtureCleanupTarget`. -/
structure FixtureTarget extends FixtureReference where
  providerId : String
  deriving DecidableEq

structure FixtureRegistry where
  fixtures : List FixtureTarget
  claimed : List String
  halted : Bool
  deriving DecidableEq

namespace FixtureRegistry

variable (registry : FixtureRegistry)

def handles : List String :=
  registry.fixtures.map (·.handle)

def isProviderId (s : String) : Bool :=
  s != "" && s.length ≤ 2048 && !s.toList.contains '\x00'

/-- `register`. -/
def register (fixture : FixtureTarget) : Except String FixtureRegistry := do
  require (isFixtureHandle fixture.handle) "fixture_handle_invalid"
  require (fixture.handle ∉ registry.handles) "fixture_handle_duplicate"
  require (isProviderId fixture.providerId) "fixture_provider_id_invalid"
  require (isActionId fixture.actionId && isVersionId fixture.versionId)
    "fixture_action_reference_invalid"
  require (isActionId fixture.cleanupActionId && isVersionId fixture.cleanupVersionId)
    "fixture_action_reference_invalid"
  require (fixture.dependsOn.all isFixtureHandle) "fixture_dependency_invalid"
  require (decide fixture.dependsOn.Nodup) "fixture_dependency_duplicate"
  return { registry with fixtures := registry.fixtures ++ [fixture] }

/-- `references`. -/
def references : List FixtureReference :=
  (registry.fixtures.insertionSort fun x y => x.handle ≤ y.handle).map (·.toFixtureReference)

/-- The fixture of a handle. -/
def fixture? (handle : String) : Option FixtureTarget :=
  registry.fixtures.find? fun fixture => fixture.handle = handle

/-- What a handle's fixture depends on. -/
def dependencies (handle : String) : List String :=
  ((registry.fixture? handle).map (·.dependsOn)).getD []

/-- `dependency_order`. -/
def dependencyOrder : Except String (List FixtureTarget) := do
  require (registry.fixtures.all fun fixture => fixture.dependsOn.all (· ∈ registry.handles))
    "fixture_dependency_missing"
  let ordered := TopologicalOrder.order registry.dependencies registry.handles
  require (ordered.length = registry.handles.length) "fixture_dependency_cycle"
  return ordered.filterMap registry.fixture?

/-- `claim_cleanup` of a fixture that is not claimed. -/
def claim (handle : String) : FixtureRegistry :=
  { registry with claimed := registry.claimed ++ [handle] }

/-- `halt_cleanup`. -/
def halt : FixtureRegistry :=
  { registry with halted := true }

end FixtureRegistry

/-! ## Calls of the store -/

/-- A call of the store raises, before or after it has given up the right to publish, or it reads
the clock and writes. -/
inductive CallOutcome where
  | raises (revoked : Bool)
  | proceeds (now : Instant)
  deriving DecidableEq

/-- The codes that `_replace` raises with. -/
def replaceCodes : List String :=
  ["qualification_clock_regressed", "qualification_state_invalid"]

/-- A call of an opened store. -/
def RunStore.perform (store : RunStore) (call : StoreCall) :
    CallOutcome → RunStore × Except String Unit
  | .raises revoked =>
      ({ store with
          runtimePublicationGranted := store.runtimePublicationGranted && !revoked },
        .error "qualification_state_write_failed")
  | .proceeds now =>
      match store.record.call now call with
      | .ok none => (store, .ok ())
      | .ok (some record) => (store.written call record, .ok ())
      | .error code =>
          ({ store with
              runtimePublicationGranted :=
                store.runtimePublicationGranted && !replaceCodes.contains code },
            .error code)

/-! ## Cleanups -/

inductive CleanupOutcome where
  | cleaned
  | failed
  | outcomeUnknown
  deriving DecidableEq

structure CleanupReport where
  attemptedHandles : List String
  cleanedHandles : List String
  failedHandles : List String
  outcomeUnknownHandles : List String
  runState : RunState
  publicationAllowed : Bool
  deriving DecidableEq

/-- `validate_handles`. -/
def CleanupReport.validate (report : CleanupReport) : Except String Unit := do
  let outcomes := [report.cleanedHandles, report.failedHandles, report.outcomeUnknownHandles]
  for handles in report.attemptedHandles :: outcomes do
    require (decide handles.Nodup) "cleanup_report_handle_duplicate"
    require (handles.all isFixtureHandle) "fixture_handle_invalid"
  require (outcomes.all (·.all (· ∈ report.attemptedHandles))) "cleanup_report_handle_invalid"
  require (decide (outcomes.Pairwise fun xs ys => ∀ handle ∈ xs, handle ∉ ys))
    "cleanup_report_handle_invalid"
  require (!report.publicationAllowed || report.runState == .completed)
    "cleanup_report_state_invalid"

/-- A cleanup that awaits the adapter. -/
structure CleanupCall where
  fixture : FixtureTarget
  rest : List FixtureTarget
  attempted : List String
  cleaned : List String
  deriving DecidableEq

/-- The registry and the store, as the coordinator holds them. -/
structure CleanupCoordinator where
  registry : FixtureRegistry
  runStore : RunStore
  deriving DecidableEq

/-- How a turn of a cleanup ends. -/
inductive Turn where
  | awaits (call : CleanupCall)
  | reports (report : CleanupReport)
  | raises (code : String)
  deriving DecidableEq

namespace CleanupCoordinator

variable (env : StoreCall → CallOutcome) (c : CleanupCoordinator)

/-- A call of the store. -/
def perform (call : StoreCall) : CleanupCoordinator × Except String Unit :=
  let (store, outcome) := c.runStore.perform call (env call)
  ({ c with runStore := store }, outcome)

def halt : CleanupCoordinator :=
  { c with registry := c.registry.halt }

/-- `_report`. -/
def report (attempted cleaned failed outcomeUnknown : List String) : Turn :=
  let report : CleanupReport :=
    ⟨attempted, cleaned, failed, outcomeUnknown, c.runStore.record.state,
      c.runStore.publicationAllowed⟩
  match report.validate with
  | .ok _ => .reports report
  | .error code => .raises code

/-- The end of a cleanup that has seen no failure. -/
def finish (attempted cleaned : List String) : CleanupCoordinator × Turn :=
  match c.perform env .complete with
  | (c', .ok _) => (c', c'.report attempted cleaned [] [])
  | (c', .error code) => (c'.halt, .raises code)

/-- The loop over the fixtures, up to the next call of the adapter. -/
def next (attempted cleaned : List String) : List FixtureTarget → CleanupCoordinator × Turn
  | [] => c.finish env attempted cleaned
  | fixture :: rest =>
      match c.runStore.record.cleanupStatus fixture.handle with
      | .error code => (c, .raises code)
      | .ok status =>
          if status ≠ .pending ∨ fixture.handle ∈ c.registry.claimed then
            next attempted cleaned rest
          else
            ({ c with registry := c.registry.claim fixture.handle },
              .awaits ⟨fixture, rest, attempted ++ [fixture.handle], cleaned⟩)

/-- The fixtures are recorded and cleaned one after another. -/
def clean (order : List FixtureTarget) : CleanupCoordinator × Turn :=
  match c.perform env (.recordFixtures c.registry.references) with
  | (c', .error code) => (c', .raises code)
  | (c', .ok _) => c'.next env [] [] order.reverse

/-- `cleanup`, up to its first call of the adapter. -/
def begin : CleanupCoordinator × Turn :=
  if c.registry.halted then (c, c.report [] [] [] [])
  else if c.runStore.record.state = .quarantined then (c, c.report [] [] [] [])
  else
    match c.registry.dependencyOrder with
    | .error code => (c, .raises code)
    | .ok order =>
        if c.runStore.record.state = .completed then (c, c.report [] [] [] [])
        else c.clean env order

/-- The adapter has not cleaned the fixture. -/
def stop (call : CleanupCall) (status : CleanupStatus) (failed outcomeUnknown : List String) :
    CleanupCoordinator × Turn :=
  match c.halt.perform env (.quarantineCleanup call.fixture.handle status) with
  | (c', .error code) => (c', .raises code)
  | (c', .ok _) => (c', c'.report call.attempted call.cleaned failed outcomeUnknown)

/-- `cleanup`, from an answer of the adapter on; an exception and an unknown answer count as a
failure. -/
def resume (call : CleanupCall) : CleanupOutcome → CleanupCoordinator × Turn
  | .cleaned =>
      match c.perform env (.markCleanup call.fixture.handle .cleaned) with
      | (c', .error code) => (c'.halt, .raises code)
      | (c', .ok _) =>
          c'.next env call.attempted (call.cleaned ++ [call.fixture.handle]) call.rest
  | .failed => c.stop env call .failed [call.fixture.handle] []
  | .outcomeUnknown => c.stop env call .outcomeUnknown [] [call.fixture.handle]

end CleanupCoordinator

/-! ## Runs -/

/-- What has happened, with what was registered and recorded at the time. -/
inductive CleanupEvent where
  | called (fixture : FixtureTarget) (registered : List FixtureTarget) (record : RunRecord)
  | answered (outcome : CleanupOutcome)
  | reported (report : CleanupReport) (registered : List FixtureTarget) (record : RunRecord)
  deriving DecidableEq

/-- The coordinator, the cleanups that await the adapter, and what has happened so far. -/
structure CleanupState where
  coordinator : CleanupCoordinator
  calls : List CleanupCall
  events : List CleanupEvent
  deriving DecidableEq

inductive CleanupAction where
  | register (fixture : FixtureTarget)
  | begin (env : StoreCall → CallOutcome)
  | resume (i : Nat) (outcome : CleanupOutcome) (env : StoreCall → CallOutcome)
  | cancel (i : Nat)

namespace CleanupState

variable (s : CleanupState)

abbrev registry : FixtureRegistry :=
  s.coordinator.registry

abbrev record : RunRecord :=
  s.coordinator.runStore.record

/-- The state before the first cleanup. -/
def initial (record : RunRecord) : CleanupState :=
  ⟨⟨⟨[], [], false⟩, ⟨record, false, .ready⟩⟩, [], []⟩

/-- The state after a turn. -/
def after (c : CleanupCoordinator) (calls : List CleanupCall) (events : List CleanupEvent) :
    Turn → CleanupState
  | .awaits call =>
      ⟨c, calls ++ [call],
        events ++ [.called call.fixture c.registry.fixtures c.runStore.record]⟩
  | .reports report =>
      ⟨c, calls, events ++ [.reported report c.registry.fixtures c.runStore.record]⟩
  | .raises _ => ⟨c, calls, events⟩

def step : CleanupAction → Except String CleanupState
  | .register fixture => do
      let registry ← s.registry.register fixture
      return { s with coordinator := { s.coordinator with registry := registry } }
  | .begin env =>
      let (c, turn) := s.coordinator.begin env
      .ok (after c s.calls s.events turn)
  | .resume i outcome env =>
      match s.calls[i]? with
      | none => .error "no_call"
      | some call =>
          let (c, turn) := s.coordinator.resume env call outcome
          .ok (after c (s.calls.eraseIdx i) (s.events ++ [.answered outcome]) turn)
  | .cancel i => .ok { s with calls := s.calls.eraseIdx i }

/-- Some fixture that is left and not claimed has a dependent, other than `except`, that is claimed
and still pending. -/
def Overtakes (left : List FixtureTarget) (except : Option String) : Prop :=
  ∃ fixture ∈ left, fixture.handle ∉ s.registry.claimed ∧
    ∃ dependent ∈ s.registry.fixtures, fixture.handle ∈ dependent.dependsOn ∧
      dependent.handle ∈ s.registry.claimed ∧ some dependent.handle ≠ except ∧
      s.record.cleanupStatus dependent.handle = .ok .pending

/-- No fixture is registered while a cleanup awaits the adapter or while the run may be published.
A cleanup does not overtake a claimed dependent that is still pending, and it does not go on to
another fixture once cleanups are halted. -/
def Careful : CleanupAction → Prop
  | .register _ => s.calls = [] ∧ s.coordinator.runStore.publicationAllowed = false
  | .begin _ =>
      s.registry.halted = false → s.record.state = .failed →
        ¬ s.Overtakes s.registry.fixtures none
  | .resume i outcome _ =>
      outcome = .cleaned → ∀ call, s.calls[i]? = some call →
        (s.registry.halted = true → ∀ left ∈ call.rest, left.handle ∈ s.registry.claimed) ∧
          ¬ s.Overtakes call.rest (some call.fixture.handle)
  | .cancel _ => True

/-- One action. -/
def Moves (s s' : CleanupState) : Prop :=
  ∃ action, s.step action = .ok s'

/-- One careful action. -/
def CarefulMoves (s s' : CleanupState) : Prop :=
  ∃ action, s.step action = .ok s' ∧ s.Careful action

/-! ## What is to hold -/

/-- The handles that the adapter was called for. -/
def calledHandles (events : List CleanupEvent) : List String :=
  events.filterMap fun event =>
    match event with
    | .called fixture _ _ => some fixture.handle
    | _ => none

/-- Fixtures are cleaned in order and completely. -/
structure Lawful (s : CleanupState) : Prop where
  once : (calledHandles s.events).Nodup
  ordered : ∀ fixture registered record, .called fixture registered record ∈ s.events →
    ∀ dependent ∈ registered, fixture.handle ∈ dependent.dependsOn →
      record.cleanupStatus dependent.handle = .ok .cleaned
  stopped : ∀ before outcome after, s.events = before ++ .answered outcome :: after →
    outcome ≠ .cleaned → calledHandles after = []
  complete : ∀ report registered record, .reported report registered record ∈ s.events →
    report.publicationAllowed = true → ∀ fixture ∈ registered,
      record.cleanupStatus fixture.handle = .ok .cleaned

end CleanupState

end MercuryTools.Qualification
