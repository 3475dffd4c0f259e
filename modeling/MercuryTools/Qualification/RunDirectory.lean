import MercuryTools.Qualification.RunRecord
import Mathlib.Logic.Relation

/-!
# Run stores on one directory

Any number of instances of `QualificationRunStore` are opened on the directory of one run.  Each
reads the file when it is opened, keeps the record in memory, and replaces the whole file with its
own record from then on.  A write may fail before the file is renamed, or raise after it, and an
instance may be lost at any point.

An instance whose record is no longer that of the file overwrites what others have written.  As
long as every write finds the record that its instance holds (`Fresh`), nothing that was written is
undone, and only an instance that nobody else has opened the run after may publish.
-/

namespace MercuryTools.Qualification

open Checks Hosted

/-! ## Instances -/

/-- How far the opening of an instance has come; it creates the file, migrates it, or quarantines a
run that was not finished. -/
inductive Stage where
  | creating
  | migrating (found : RunRecord)
  | recovering
  | ready
  | gone
  deriving DecidableEq

/-- `QualificationRunStore`. -/
structure RunStore where
  record : RunRecord
  runtimePublicationGranted : Bool
  stage : Stage
  deriving DecidableEq

namespace RunStore

variable (store : RunStore)

/-- `publication_allowed` of an instance that has been opened. -/
def publicationAllowed : Bool :=
  store.stage == .ready && store.record.state == .completed && store.runtimePublicationGranted

/-- What the instance takes the file to be. -/
def expected : Option RunRecord :=
  match store.stage with
  | .creating => none
  | .migrating found => some found
  | .recovering | .ready | .gone => some store.record

/-- What the instance writes next, if anything.  One that is still being opened does not take
calls. -/
def writes (call : StoreCall) (now : Instant) : Except String (Option RunRecord) :=
  match store.stage with
  | .creating | .migrating _ => .ok (some store.record)
  | .recovering => store.record.call now (.quarantine .processLost)
  | .ready => store.record.call now call
  | .gone => .ok none

/-- The instance after a call that raised. -/
def raised : RunStore :=
  { store with
    runtimePublicationGranted := false
    stage := if store.stage = .ready then .ready else .gone }

/-- The instance after a call that has written. -/
def written (call : StoreCall) (record : RunRecord) : RunStore where
  record := record
  runtimePublicationGranted := store.stage == .ready && call == .complete
  stage := .ready

end RunStore

/-! ## The directory -/

inductive DirectoryEvent where
  | found (i : Nat)
  | opened (i : Nat)
  | completed (i : Nat)
  deriving DecidableEq

/-- The file, the instances, and what has been written and has happened so far. -/
structure RunDirectory where
  file : Option RunRecord
  stores : List RunStore
  versions : List RunRecord
  events : List DirectoryEvent
  deriving DecidableEq

/-- A write fails before the file is renamed, or raises after it, or succeeds. -/
inductive WriteOutcome where
  | fails
  | raisesAfterRename
  | succeeds
  deriving DecidableEq

/-- Opening an instance reads the file; its writes, and those of the calls, follow one by one. -/
inductive DirectoryAction where
  | openStore (now : Instant)
  | write (i : Nat) (call : StoreCall) (now : Instant) (outcome : WriteOutcome)
  | raise (i : Nat)
  | crash (i : Nat)
  deriving DecidableEq

namespace RunDirectory

variable (runId : String) (d : RunDirectory)

/-- A directory on which no instance has been opened. -/
def initial (file : Option RunRecord) : RunDirectory :=
  ⟨file, [], file.toList, []⟩

/-- A new instance. -/
def push (store : RunStore) (events : List DirectoryEvent) : RunDirectory :=
  { d with stores := d.stores ++ [store], events := d.events ++ events }

/-- One instance changes. -/
def setStore (i : Nat) (store : RunStore) : RunDirectory :=
  { d with stores := d.stores.set i store }

/-- The file is replaced, and the instance that did it changes. -/
def rename (record : RunRecord) (i : Nat) (store : RunStore) (events : List DirectoryEvent) :
    RunDirectory where
  file := some record
  stores := d.stores.set i store
  versions := d.versions ++ [record]
  events := d.events ++ events

/-- What `__init__` makes of the file that it reads. -/
def openFile (record : RunRecord) (found : Option RunRecord) : RunDirectory :=
  match found with
  | some legacy => d.push ⟨record, false, .migrating legacy⟩ []
  | none =>
      if record.state = .failed then d.push ⟨record, false, .recovering⟩ [.found d.stores.length]
      else d.push ⟨record, false, .ready⟩ [.opened d.stores.length]

/-- The events of a write that succeeds. -/
def writeEvents (i : Nat) (store : RunStore) (call : StoreCall) : List DirectoryEvent :=
  if store.stage ≠ .ready then [.opened i]
  else if call = .complete then [.completed i]
  else []

def step : DirectoryAction → Except String RunDirectory
  | .openStore now =>
      match d.file with
      | none => .ok (d.push ⟨.initial runId now, false, .creating⟩ [])
      | some file => do
          let (record, migrate) ← file.read
          require (record.runId == runId) "qualification_state_invalid"
          return d.openFile record (if migrate then some file else none)
  | .write i call now outcome =>
      match d.stores[i]? with
      | none => .error "no_instance"
      | some store =>
          match store.writes call now with
          | .ok (some record) =>
              match outcome with
              | .fails => .ok (d.setStore i store.raised)
              | .raisesAfterRename => .ok (d.rename record i store.raised [])
              | .succeeds =>
                  .ok (d.rename record i (store.written call record) (writeEvents i store call))
          | .ok none => .ok d
          | .error code => .error code
  | .raise i =>
      match d.stores[i]? with
      | none => .error "no_instance"
      | some store => .ok (d.setStore i store.raised)
  | .crash i =>
      match d.stores[i]? with
      | none => .error "no_instance"
      | some store => .ok (d.setStore i { store with stage := .gone })

/-- A write that renames the file finds the record there that its instance holds. -/
def Fresh : DirectoryAction → Prop
  | .write i _ _ outcome =>
      outcome ≠ .fails → ∀ store, d.stores[i]? = some store → d.file = store.expected
  | .openStore _ | .raise _ | .crash _ => True

/-- One action. -/
def Moves (d d' : RunDirectory) : Prop :=
  ∃ action, d.step runId action = .ok d'

/-- One action that is fresh where it writes. -/
def FreshMoves (d d' : RunDirectory) : Prop :=
  ∃ action, d.step runId action = .ok d' ∧ d.Fresh action

/-! ## What is to hold -/

/-- A run's state survives. -/
structure Lawful (d : RunDirectory) : Prop where
  /-- A quarantined run stays quarantined, and no fixture or outcome of a cleanup is lost. -/
  persists : d.versions.Pairwise Persists
  /-- A run that an opened instance has found unfinished is quarantined. -/
  recovered : ∀ i, .found i ∈ d.events → .opened i ∈ d.events →
    ∃ record, d.file = some record ∧ record.state = .quarantined
  /-- Only an instance that completed the run may publish, if no other one had opened it by then. -/
  publication : ∀ i store, d.stores[i]? = some store → store.publicationAllowed = true →
    ∃ before after, d.events = before ++ .completed i :: after ∧ ∀ j, j ≠ i → .opened j ∉ before

end RunDirectory

end MercuryTools.Qualification
