import Mathlib.Logic.Function.Basic
import MercuryTools.Framework.Programs

/-!
# The operation lock of a repository

`repository_operation_lock` of `local/operation_lock.py`: the blocks of all threads of all processes
that change a repository exclude each other.  Within a process a reentrant lock (`_LockState`)
counts the nested blocks; the outermost one opens a file in the directory and locks it with `flock`.

Threads are programs that perform their effects on one machine, in any order, one read or write of a
field at a time.  The check of the directory, opening, locking and unlocking may fail, closing does
not, and processes may die at any time.  Blocks do what they like in between (`Runs`); no process
forks within a block, and `fcntl` is there.
-/

namespace MercuryTools.Local

open Programs

namespace OperationLock

/-! ## The machine -/

/-- A thread of a process. -/
structure Caller where
  process : ℕ
  thread : ℕ
  deriving DecidableEq

/-- A `_LockState`, with the owner and the count of its `thread_lock`; there is no descriptor where
the code has `-1`. -/
structure LockState where
  owner : Option ℕ
  count : ℕ
  depth : ℕ
  fileDescriptor : Option ℕ
  deriving DecidableEq

def LockState.initial : LockState :=
  ⟨none, 0, 0, none⟩

/-- The processes: what they have in memory for each directory, what their descriptors refer to, and
which descriptor holds the lock of the file of a directory. -/
structure Machine where
  alive : ℕ → Bool
  started : List Caller
  states : ℕ → String → LockState
  opened : ℕ → ℕ → Option String
  locks : String → Option (ℕ × ℕ)

/-- Processes without threads. -/
def Machine.initial : Machine :=
  ⟨fun _ => true, [], fun _ _ => .initial, fun _ _ => none, fun _ => none⟩

def Machine.setState (m : Machine) (process : ℕ) (directory : String) (state : LockState) :
    Machine :=
  let ofProcess := Function.update (m.states process) directory state
  { m with states := Function.update m.states process ofProcess }

def Machine.setOpened (m : Machine) (process descriptor : ℕ) (directory : Option String) :
    Machine :=
  let ofProcess := Function.update (m.opened process) descriptor directory
  { m with opened := Function.update m.opened process ofProcess }

def Machine.setLock (m : Machine) (directory : String) (holder : Option (ℕ × ℕ)) : Machine :=
  { m with locks := Function.update m.locks directory holder }

/-- The lock of the file, without the one that this descriptor holds. -/
def Machine.unlocked (m : Machine) (process descriptor : ℕ) (directory : String) : Machine :=
  m.setLock directory
    (if m.locks directory = some (process, descriptor) then none else m.locks directory)

/-- The process is gone, with its descriptors and what they hold. -/
def Machine.crash (m : Machine) (process : ℕ) : Machine :=
  { m with
    alive := Function.update m.alive process false
    opened := Function.update m.opened process fun _ => none
    locks := fun directory => (m.locks directory).filter (·.1 ≠ process) }

/-! ## Effects -/

/-- What a thread does with the state and the file of a directory; `enter` and `leave` are where the
block begins and ends, and `work` is what is done in it. -/
inductive Action where
  | validate (directory : String)
  | acquireThread (directory : String)
  | releaseThread (directory : String)
  | getDepth (directory : String)
  | setDepth (directory : String) (depth : ℕ)
  | getDescriptor (directory : String)
  | setDescriptor (directory : String) (descriptor : Option ℕ)
  | openFile (directory : String)
  | closeFile (directory : String) (descriptor : Option ℕ)
  | lockFile (directory : String) (descriptor : ℕ)
  | unlockFile (directory : String) (descriptor : Option ℕ)
  | enter (directory : String)
  | leave (directory : String)
  | work (name : String)

/-- What is returned, or the code of what is raised; the calls of `flock` only succeed or not. -/
def Action.Answer : Action → Type
  | .validate _ => Except String Unit
  | .getDepth _ => ℕ
  | .getDescriptor _ => Option ℕ
  | .openFile _ => Except String ℕ
  | .lockFile .. => Bool
  | .unlockFile .. => Bool
  | .work _ => String
  | _ => Unit

inductive Effect where
  | start
  | act (caller : Caller) (action : Action)

def Answer : Effect → Type
  | .start => Caller
  | .act _ action => action.Answer

/-- How an action changes the machine. -/
inductive Acts (m : Machine) (c : Caller) : (action : Action) → action.Answer → Machine → Prop where
  | validate (directory : String) (result : Except String Unit) :
      Acts m c (.validate directory) result m
  | acquireThread (directory : String)
      (hfree : (m.states c.process directory).owner = none ∨
        (m.states c.process directory).owner = some c.thread) :
      Acts m c (.acquireThread directory) ()
        (m.setState c.process directory
          { m.states c.process directory with
            owner := some c.thread
            count := (m.states c.process directory).count + 1 })
  | releaseThread (directory : String)
      (howner : (m.states c.process directory).owner = some c.thread) :
      Acts m c (.releaseThread directory) ()
        (m.setState c.process directory
          { m.states c.process directory with
            owner := if (m.states c.process directory).count = 1 then none else some c.thread
            count := (m.states c.process directory).count - 1 })
  | getDepth (directory : String) :
      Acts m c (.getDepth directory) (m.states c.process directory).depth m
  | setDepth (directory : String) (depth : ℕ) :
      Acts m c (.setDepth directory depth) ()
        (m.setState c.process directory { m.states c.process directory with depth := depth })
  | getDescriptor (directory : String) :
      Acts m c (.getDescriptor directory) (m.states c.process directory).fileDescriptor m
  | setDescriptor (directory : String) (descriptor : Option ℕ) :
      Acts m c (.setDescriptor directory descriptor) ()
        (m.setState c.process directory
          { m.states c.process directory with fileDescriptor := descriptor })
  | openFile (directory : String) (descriptor : ℕ)
      (hfresh : m.opened c.process descriptor = none) :
      Acts m c (.openFile directory) (.ok descriptor)
        (m.setOpened c.process descriptor (some directory))
  | notOpened (directory : String) (code : String) : Acts m c (.openFile directory) (.error code) m
  | closeFile (directory : String) (descriptor : ℕ)
      (hopened : m.opened c.process descriptor = some directory) :
      Acts m c (.closeFile directory (some descriptor)) ()
        ((m.unlocked c.process descriptor directory).setOpened c.process descriptor none)
  | lockFile (directory : String) (descriptor : ℕ)
      (hopened : m.opened c.process descriptor = some directory)
      (hfree : m.locks directory = none ∨ m.locks directory = some (c.process, descriptor)) :
      Acts m c (.lockFile directory descriptor) true
        (m.setLock directory (some (c.process, descriptor)))
  | notLocked (directory : String) (descriptor : ℕ) :
      Acts m c (.lockFile directory descriptor) false m
  | unlockFile (directory : String) (descriptor : ℕ)
      (hopened : m.opened c.process descriptor = some directory) :
      Acts m c (.unlockFile directory (some descriptor)) true
        (m.unlocked c.process descriptor directory)
  | notUnlocked (directory : String) (descriptor : Option ℕ) :
      Acts m c (.unlockFile directory descriptor) false m
  | enter (directory : String) : Acts m c (.enter directory) () m
  | leave (directory : String) : Acts m c (.leave directory) () m
  | work (name : String) (result : String) : Acts m c (.work name) result m

/-- Threads of living processes act; a new thread is one that was not there before. -/
inductive Happens (m : Machine) : (e : Effect) → Answer e → Machine → Prop where
  | start (c : Caller) (halive : m.alive c.process = true) (hfresh : c ∉ m.started) :
      Happens m .start c { m with started := c :: m.started }
  | act (c : Caller) (action : Action) (answer : action.Answer) (m' : Machine)
      (halive : m.alive c.process = true) (hacts : Acts m c action answer m') :
      Happens m (.act c action) answer m'

/-! ## The lock -/

abbrev Locking (α : Type) := Program Effect Answer α

section

variable (c : Caller) (directory : String)

def act (action : Action) : Locking action.Answer :=
  .perform (.act c action) .done

/-- `_validated_cache_directory` -/
def validatedCacheDirectory : Locking Unit := do
  let result ← act c (.validate directory)
  Program.ofExcept result

/-- `_open_lock_file` -/
def openLockFile : Locking ℕ := do
  let result ← act c (.openFile directory)
  Program.ofExcept result

/-- `_acquire_process_lock` -/
def acquireProcessLock (fileDescriptor : ℕ) : Locking Unit := do
  let locked : Bool ← act c (.lockFile directory fileDescriptor)
  if locked then return () else .fail "operation_lock_unavailable"

/-- `_release_process_lock` -/
def releaseProcessLock (fileDescriptor : Option ℕ) : Locking Unit := do
  let unlocked : Bool ← act c (.unlockFile directory fileDescriptor)
  if unlocked then return () else .fail "OSError"

/-- What the outermost block does first. -/
def openAndLock : Locking Unit := do
  let fileDescriptor ← openLockFile c directory
  (acquireProcessLock c directory fileDescriptor).catchFailure fun code => do
    let _ ← act c (.closeFile directory (some fileDescriptor))
    .fail code
  act c (.setDescriptor directory (some fileDescriptor))

def openAtDepth (depth : ℕ) : Locking Unit :=
  if depth = 0 then openAndLock c directory else return ()

/-- Before the block. -/
def enterBlock : Locking Unit := do
  let depth : ℕ ← act c (.getDepth directory)
  openAtDepth c directory depth
  let depth : ℕ ← act c (.getDepth directory)
  act c (.setDepth directory (depth + 1))

/-- What the outermost block does last. -/
def unlockAndClose : Locking Unit := do
  let fileDescriptor : Option ℕ ← act c (.getDescriptor directory)
  (releaseProcessLock c directory fileDescriptor).ensuring do
    let fileDescriptor : Option ℕ ← act c (.getDescriptor directory)
    let _ ← act c (.closeFile directory fileDescriptor)
    act c (.setDescriptor directory none)

def closeAtDepth (depth : ℕ) : Locking Unit :=
  if depth = 0 then unlockAndClose c directory else return ()

/-- After the block. -/
def leaveBlock : Locking Unit := do
  let depth : ℕ ← act c (.getDepth directory)
  (act c (.setDepth directory (depth - 1)) : Locking Unit)
  let depth : ℕ ← act c (.getDepth directory)
  closeAtDepth c directory depth

/-- The block, between where it begins and ends. -/
def runBlock {α : Type} (block : Locking α) : Locking α := do
  let _ ← act c (.enter directory)
  block

/-- What is done while the thread has the reentrant lock. -/
def lockedBlock {α : Type} (block : Locking α) : Locking α := do
  enterBlock c directory
  (runBlock c directory block).ensuring do
    let _ ← act c (.leave directory)
    leaveBlock c directory

/-- A block within `repository_operation_lock`. -/
def repositoryOperationLock {α : Type} (block : Locking α) : Locking α := do
  validatedCacheDirectory c directory
  let _ ← act c (.acquireThread directory)
  (lockedBlock c directory block).ensuring (act c (.releaseThread directory))

end

/-- What a thread does in the blocks of the directories that it holds: its own work, and blocks of
other directories or again of the same, after which it goes on whether they return or raise.  A
directory may be nested in those that it is `After`. -/
inductive Runs (After : String → String → Prop) (c : Caller) :
    List String → (α : Type) → Locking α → Prop where
  | done {held : List String} {α : Type} (a : α) : Runs After c held α (.done a)
  | fail {held : List String} {α : Type} (code : String) : Runs After c held α (.fail code)
  | work {held : List String} {α : Type} (name : String) (next : String → Locking α)
      (hnext : ∀ result, Runs After c held α (next result)) :
      Runs After c held α (.perform (.act c (.work name)) next)
  | block {held : List String} {α β : Type} (directory : String) (inner : Locking β)
      (next : Except String β → Locking α) (hafter : ∀ outer ∈ held, After outer directory)
      (hinner : Runs After c (directory :: held) β inner)
      (hnext : ∀ result, Runs After c held α (next result)) :
      Runs After c held α ((repositoryOperationLock c directory inner).attempt >>= next)

/-- A thread: it learns who it is, and then runs. -/
def Thread (After : String → String → Prop) (program : Locking Unit) : Prop :=
  ∃ body : Caller → Locking Unit,
    (∀ c, Runs After c [] Unit (body c)) ∧ program = .perform .start body

/-- Any number of threads; their processes may die. -/
def lockRules (After : String → String → Prop) : Rules Machine Effect Answer Unit where
  happens := Happens
  entry := Thread After
  outside := fun m m' => ∃ process, m' = m.crash process

abbrev LockPool := Pool Machine Effect Answer Unit

/-- The pools that can be reached. -/
def Reachable (After : String → String → Prop) (pool : LockPool) : Prop :=
  Relation.ReflTransGen (Pool.Step (lockRules After)) ⟨.initial, []⟩ pool

/-! ## What a thread has done -/

/-- The thread, once it is started. -/
def callerOf (log : List ((e : Effect) × Answer e)) : Option Caller :=
  log.foldl (fun caller entry =>
    match entry with
    | ⟨.start, c⟩ => some c
    | _ => caller) none

/-- How many blocks of the directory the thread is in. -/
def blocksOf (directory : String) (log : List ((e : Effect) × Answer e)) : ℕ :=
  log.foldl (fun blocks entry =>
    match entry.1 with
    | .act _ (.enter other) => if other = directory then blocks + 1 else blocks
    | .act _ (.leave other) => if other = directory then blocks - 1 else blocks
    | _ => blocks) 0

/-- The task is a thread of a living process, and in a block of the directory. -/
def InBlock (pool : LockPool) (directory : String) (i : ℕ) : Prop :=
  ∃ task c, pool.tasks[i]? = some task ∧ callerOf task.log = some c ∧
    pool.shared.alive c.process = true ∧ 0 < blocksOf directory task.log

end OperationLock

end MercuryTools.Local
