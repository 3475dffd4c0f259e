import MercuryTools.Local.OperationLock

/-!
# What a thread knows of the locks it holds

While a thread has the reentrant lock of a directory, nobody else changes its `_LockState`, its
descriptor or the lock of the file, so that the thread knows them from its own effects.  `View` is
what it knows, and `lockProtocol` says what it may do: it only touches what it has locked, and gives
up the reentrant lock for the last time when everything is as it was.  Whatever runs within
`repository_operation_lock` keeps to it (`Runs.keeps`).
-/

namespace MercuryTools.Local

open Programs

namespace OperationLock

/-! ## Views -/

/-- What a thread knows of the state of a directory: how often it has entered the reentrant lock,
the fields, the descriptor that is open, and whether that one holds the lock of the file. -/
structure Share where
  count : ℕ
  depth : ℕ
  stored : Option ℕ
  opened : Option ℕ
  locked : Bool
  deriving DecidableEq

def Share.free : Share :=
  ⟨0, 0, none, none, false⟩

/-- The share in the nested blocks. -/
def Share.InBlocks (share : Share) : ℕ → Prop
  | 0 => share = .free
  | blocks + 1 => ∃ descriptor,
    share = ⟨blocks + 1, blocks + 1, some descriptor, some descriptor, true⟩

/-- The share once the reentrant lock is acquired, before another block or after it. -/
def Share.Acquired (share : Share) (blocks : ℕ) : Prop :=
  ∃ before : Share, before.InBlocks blocks ∧ share = { before with count := blocks + 1 }

structure View where
  caller : Option Caller
  share : String → Share
  blocks : String → ℕ

def View.start : View :=
  ⟨none, fun _ => .free, fun _ => 0⟩

namespace View

def set (view : View) (directory : String) (share : Share) : View :=
  { view with share := Function.update view.share directory share }

def setBlocks (view : View) (directory : String) (blocks : ℕ) : View :=
  { view with blocks := Function.update view.blocks directory blocks }

section

variable (view : View) (directory : String) (share share' : Share) (blocks : ℕ)

@[simp] lemma set_blocks : (view.set directory share).blocks = view.blocks := rfl

@[simp] lemma set_share_self : (view.set directory share).share directory = share :=
  Function.update_self ..

@[simp] lemma set_set : (view.set directory share).set directory share' =
    view.set directory share' := by
  simp only [set, Function.update_idem]

@[simp] lemma set_self : view.set directory (view.share directory) = view := by
  simp only [set, Function.update_eq_self]

@[simp] lemma setBlocks_share : (view.setBlocks directory blocks).share = view.share := rfl

lemma set_share_of_ne {other : String} (h : other ≠ directory) :
    (view.set directory share).share other = view.share other :=
  Function.update_of_ne h ..

end

/-! ## The protocol -/

/-- Waiting for a directory is only allowed after those that the thread has. -/
def MayWait (After : String → String → Prop) (view : View) (directory : String) : Prop :=
  ∀ other, other ≠ directory → 0 < (view.share other).count → After other directory

/-- What the thread may do. -/
def Allows (After : String → String → Prop) (view : View) : Action → Prop
  | .validate _ | .work _ => True
  | .acquireThread directory => view.MayWait After directory
  | .releaseThread directory =>
    0 < (view.share directory).count ∧
      ((view.share directory).count = 1 → view.share directory = { Share.free with count := 1 })
  | .getDepth directory | .setDepth directory _ | .getDescriptor directory
  | .setDescriptor directory _ => 0 < (view.share directory).count
  | .openFile directory =>
    0 < (view.share directory).count ∧ (view.share directory).opened = none ∧
      (view.share directory).locked = false
  | .closeFile directory descriptor =>
    0 < (view.share directory).count ∧ (view.share directory).opened = descriptor ∧
      descriptor.isSome = true ∧ view.blocks directory = 0
  | .lockFile directory descriptor =>
    0 < (view.share directory).count ∧ (view.share directory).opened = some descriptor ∧
      (view.share directory).locked = false ∧ view.MayWait After directory
  | .unlockFile directory descriptor =>
    0 < (view.share directory).count ∧ (view.share directory).opened = descriptor ∧
      descriptor.isSome = true ∧ view.blocks directory = 0
  | .enter directory =>
    0 < (view.share directory).count ∧ (view.share directory).locked = true
  | .leave directory => 0 < view.blocks directory

/-- What the thread knows of the directory after its action; an answer that it does not expect is
not possible. -/
def next (view : View) : (action : Action) → action.Answer → Option View
  | .validate _, _ => some view
  | .work _, _ => some view
  | .acquireThread directory, _ =>
    let share := view.share directory
    some (view.set directory { share with count := share.count + 1 })
  | .releaseThread directory, _ =>
    let share := view.share directory
    some (view.set directory { share with count := share.count - 1 })
  | .getDepth directory, (depth : ℕ) =>
    if (view.share directory).depth = depth then some view else none
  | .setDepth directory depth, _ =>
    some (view.set directory { view.share directory with depth := depth })
  | .getDescriptor directory, (descriptor : Option ℕ) =>
    if (view.share directory).stored = descriptor then some view else none
  | .setDescriptor directory descriptor, _ =>
    some (view.set directory { view.share directory with stored := descriptor })
  | .openFile directory, .ok descriptor =>
    some (view.set directory { view.share directory with opened := some descriptor })
  | .openFile _, .error _ => some view
  | .closeFile directory _, _ =>
    some (view.set directory { view.share directory with opened := none, locked := false })
  | .lockFile directory _, true =>
    some (view.set directory { view.share directory with locked := true })
  | .lockFile .., false => some view
  | .unlockFile directory _, true =>
    some (view.set directory { view.share directory with locked := false })
  | .unlockFile .., false => some view
  | .enter directory, _ => some (view.setBlocks directory (view.blocks directory + 1))
  | .leave directory, _ => some (view.setBlocks directory (view.blocks directory - 1))

lemma mayWait_set {After : String → String → Prop} {view : View} {directory : String}
    {share : Share} :
    (view.set directory share).MayWait After directory ↔ view.MayWait After directory := by
  refine forall_congr' fun other => forall_congr' fun hne => ?_
  rw [set_share_of_ne _ _ _ hne]

end View

/-- What a thread may do, and how it changes what it knows. -/
def lockProtocol (After : String → String → Prop) : Protocol Effect Answer (Option View) where
  start := some .start
  allowed view effect := ∀ v, view = some v →
    match effect with
    | .start => v.caller = none
    | .act c action => v.caller = some c ∧ v.Allows After action
  next view effect answer := view.bind fun v =>
    match effect, answer with
    | .start, c => some { v with caller := some c }
    | .act _ action, answer => v.next action answer

/-- The program ends in a view that satisfies the predicate, unless an answer was not possible. -/
def Ends {α : Type} (Q : View → Option α → Prop) : Option View → Option α → Prop :=
  fun view result => ∀ v, view = some v → Q v result

section

variable {After : String → String → Prop} {c : Caller} {directory : String} {view : View}
  {α β : Type} {Q : View → Option α → Prop}

/-- After an answer that is not possible. -/
lemma keeps_none (p : Locking α) : Keeps (lockProtocol After) (Ends Q) p none := by
  induction p with
  | done a => exact fun _ h => absurd h.symm (Option.some_ne_none _)
  | fail code => exact fun _ h => absurd h.symm (Option.some_ne_none _)
  | perform e next ih => exact ⟨fun _ h => absurd h.symm (Option.some_ne_none _), fun a => ih a⟩

lemma ends_some {result : Option α} : Ends Q (some view) result ↔ Q view result :=
  ⟨fun h => h view rfl, fun h _ hv => Option.some.inj hv ▸ h⟩

/-- One action of the thread. -/
lemma keeps_act (hcaller : view.caller = some c) (action : Action) {f : action.Answer → Locking α}
    (hallows : view.Allows After action)
    (hnext : ∀ answer v, view.next action answer = some v →
      Keeps (lockProtocol After) (Ends Q) (f answer) (some v)) :
    Keeps (lockProtocol After) (Ends Q) (act c action >>= f) (some view) := by
  refine ⟨fun _ hv => Option.some.inj hv ▸ ⟨hcaller, hallows⟩, fun answer => ?_⟩
  cases hcase : view.next action answer with
  | none =>
    have hnone : (lockProtocol After).next (some view) (.act c action) answer = none := hcase
    rw [hnone]
    exact keeps_none _
  | some v =>
    have hsome : (lockProtocol After).next (some view) (.act c action) answer = some v := hcase
    rw [hsome]
    exact hnext answer v hcase

variable {share : Share} {p : Locking α} {start : Option View} {blocks descriptor : ℕ}

/-- An action where the share of the directory is known. -/
lemma keeps_act_set (hcaller : view.caller = some c) (action : Action)
    {f : action.Answer → Locking α} (hallows : (view.set directory share).Allows After action)
    (hnext : ∀ answer v, (view.set directory share).next action answer = some v →
      Keeps (lockProtocol After) (Ends Q) (f answer) (some v)) :
    Keeps (lockProtocol After) (Ends Q) (act c action >>= f)
      (some (view.set directory share)) := by
  have hset : (view.set directory share).caller = some c := hcaller
  exact keeps_act hset action hallows hnext

/-- One part after the other. -/
lemma keeps_then {p : Locking β} {f : β → Locking α} {R : View → Option β → Prop}
    (h : Keeps (lockProtocol After) (Ends R) p start)
    (hok : ∀ v b, R v (some b) → Keeps (lockProtocol After) (Ends Q) (f b) (some v))
    (hfail : ∀ v, R v none → Q v none) : Keeps (lockProtocol After) (Ends Q) (p >>= f) start := by
  refine h.bind (fun l b hb => ?_) fun l hl v hv => hfail v (hl v hv)
  cases l with
  | none => exact keeps_none _
  | some v => exact hok v b (hb v rfl)

lemma keeps_ofExcept_ends {result : Except String α} (hok : ∀ a, result = .ok a → Q view (some a))
    (hfail : Q view none) :
    Keeps (lockProtocol After) (Ends Q) (Program.ofExcept result) (some view) :=
  keeps_ofExcept (fun a ha => ends_some.2 (hok a ha)) (ends_some.2 hfail)

/-- A `try … finally`. -/
lemma keeps_ensuring {last : Locking Unit} {R : View → Option α → Prop}
    (h : Keeps (lockProtocol After) (Ends R) p start)
    (hlast : ∀ v result, R v result → Keeps (lockProtocol After)
      (Ends fun v' done => Q v' (if done.isSome then result else none)) last (some v)) :
    Keeps (lockProtocol After) (Ends Q) (p.ensuring last) start := by
  refine h.ensuring fun l result hR => ?_
  cases l with
  | none =>
    refine (keeps_none last).mono (Q := Ends fun _ _ => False) fun l' done hfalse => ?_
    split <;> exact fun v hv => (hfalse v hv).elim
  | some v =>
    refine (hlast v result (hR v rfl)).mono fun l' done hQ => ?_
    cases done with
    | none => exact hQ
    | some _ => exact hQ

/-! ## The lock keeps to the protocol -/

/-- The share of an outermost block, before it has the file. -/
def Share.outermost : Share :=
  { Share.free with count := 1 }

/-- The share with an open file. -/
def Share.withFile (stored : Option ℕ) (descriptor : ℕ) (locked : Bool) : Share :=
  { Share.outermost with stored := stored, opened := some descriptor, locked := locked }

/-- The share in a block. -/
def Share.inside (count depth descriptor : ℕ) : Share :=
  ⟨count, depth, some descriptor, some descriptor, true⟩

lemma Share.acquired_zero : share.Acquired 0 ↔ share = .outermost := by
  constructor
  · rintro ⟨before, hbefore, rfl⟩
    rw [show before = .free from hbefore]
    rfl
  · rintro rfl
    exact ⟨.free, rfl, rfl⟩

lemma Share.acquired_succ :
    share.Acquired (blocks + 1) ↔
      ∃ descriptor, share = .inside (blocks + 2) (blocks + 1) descriptor := by
  constructor
  · rintro ⟨before, ⟨descriptor, rfl⟩, rfl⟩
    exact ⟨descriptor, rfl⟩
  · rintro ⟨descriptor, rfl⟩
    exact ⟨_, ⟨descriptor, rfl⟩, rfl⟩

/-- `_acquire_process_lock`, and closing the file where it fails. -/
lemma keeps_acquireProcessLock (hcaller : view.caller = some c)
    (hblocks : view.blocks directory = 0) (hwait : view.MayWait After directory) :
    Keeps (lockProtocol After)
      (Ends fun v result => v = view.set directory
        (if result.isSome then .withFile none descriptor true else .outermost))
      ((acquireProcessLock c directory descriptor).catchFailure fun code => do
        let _ ← act c (.closeFile directory (some descriptor))
        .fail code)
      (some (view.set directory (.withFile none descriptor false))) := by
  have hlocked : Keeps (lockProtocol After)
      (Ends fun v result => v = view.set directory (.withFile none descriptor result.isSome))
      (acquireProcessLock c directory descriptor)
      (some (view.set directory (.withFile none descriptor false))) := by
    refine keeps_act_set hcaller (.lockFile directory descriptor) ?_ fun locked v hv => ?_
    · simp [View.Allows, View.mayWait_set, hwait, Share.withFile, Share.outermost]
    · cases locked with
      | true =>
        refine ends_some.2 ?_
        rw [← Option.some.inj hv, View.set_share_self, View.set_set]
        rfl
      | false =>
        refine ends_some.2 ?_
        rw [← Option.some.inj hv]
        rfl
  refine hlocked.catchFailure (fun l _ hl v hv => hl v hv) fun l code hl => ?_
  cases l with
  | none => exact keeps_none _
  | some v =>
    obtain rfl := hl v rfl
    refine keeps_act_set hcaller (.closeFile directory (some descriptor)) ?_ fun _ v hv => ?_
    · simp [View.Allows, Share.withFile, Share.outermost, hblocks]
    · refine ends_some.2 ?_
      rw [← Option.some.inj hv, View.set_share_self, View.set_set]
      rfl

lemma keeps_openAndLock (hcaller : view.caller = some c) (hblocks : view.blocks directory = 0)
    (hwait : view.MayWait After directory) :
    Keeps (lockProtocol After)
      (Ends fun v result => if result.isSome
        then ∃ descriptor, v = view.set directory (.inside 1 0 descriptor)
        else v = view.set directory .outermost)
      (openAndLock c directory) (some (view.set directory .outermost)) := by
  have hopened : Keeps (lockProtocol After)
      (Ends fun v result => v = view.set directory
        (result.elim .outermost fun descriptor => .withFile none descriptor false))
      (openLockFile c directory) (some (view.set directory .outermost)) := by
    refine keeps_act_set hcaller (.openFile directory) ?_ fun result v hv => ?_
    · simp [View.Allows, Share.outermost, Share.free]
    · cases result with
      | ok descriptor =>
        refine ends_some.2 ?_
        rw [← Option.some.inj hv, View.set_share_self, View.set_set]
        rfl
      | error code =>
        refine ends_some.2 ?_
        rw [← Option.some.inj hv]
        rfl
  refine keeps_then hopened (fun v descriptor hv => ?_) fun v hv => hv
  subst hv
  refine keeps_then (keeps_acquireProcessLock hcaller hblocks hwait) (fun v _ hv => ?_)
    fun v hv => hv
  subst hv
  refine keeps_act_set hcaller (.setDescriptor directory (some descriptor)) (f := .done) ?_
    fun _ v hv => ?_
  · simp [View.Allows, Share.withFile, Share.outermost]
  · refine ends_some.2 ⟨descriptor, ?_⟩
    rw [← Option.some.inj hv, View.set_share_self, View.set_set]
    rfl

/-- `state.depth += 1` and `state.depth -= 1`. -/
lemma keeps_changeDepth (hcaller : view.caller = some c) (hcount : 0 < share.count) (change : ℕ → ℕ)
    {f : Unit → Locking α} (hnext : Keeps (lockProtocol After) (Ends Q) (f ())
      (some (view.set directory { share with depth := change share.depth }))) :
    Keeps (lockProtocol After) (Ends Q)
      (do
        let depth : ℕ ← act c (.getDepth directory)
        act c (.setDepth directory (change depth)) >>= f)
      (some (view.set directory share)) := by
  refine keeps_act_set hcaller (.getDepth directory) ?_ fun (depth : ℕ) v hv => ?_
  · rwa [View.Allows, View.set_share_self]
  simp only [View.next, View.set_share_self] at hv
  obtain ⟨rfl, rfl⟩ := (Option.ite_none_right_eq_some.1 hv).imp_right Option.some.inj
  refine keeps_act_set hcaller (.setDepth directory _) ?_ fun _ v hv => ?_
  · rwa [View.Allows, View.set_share_self]
  · rw [← Option.some.inj hv, View.set_share_self, View.set_set]
    exact hnext

/-- Reading the depth. -/
lemma keeps_getDepth (hcaller : view.caller = some c) (hcount : 0 < share.count) {f : ℕ → Locking α}
    (hnext : Keeps (lockProtocol After) (Ends Q) (f share.depth)
      (some (view.set directory share))) :
    Keeps (lockProtocol After) (Ends Q)
      (do
        let depth : ℕ ← act c (.getDepth directory)
        f depth)
      (some (view.set directory share)) := by
  refine keeps_act_set hcaller (.getDepth directory) ?_ fun (depth : ℕ) v hv => ?_
  · rwa [View.Allows, View.set_share_self]
  · simp only [View.next, View.set_share_self] at hv
    obtain ⟨rfl, rfl⟩ := (Option.ite_none_right_eq_some.1 hv).imp_right Option.some.inj
    exact hnext

/-- Before a block. -/
lemma keeps_enterBlock (hcaller : view.caller = some c) (hshare : share.Acquired blocks)
    (hblocks : view.blocks directory = blocks) (hwait : view.MayWait After directory) :
    Keeps (lockProtocol After)
      (Ends fun v result => if result.isSome
        then ∃ descriptor, v = view.set directory (.inside (blocks + 1) (blocks + 1) descriptor)
        else v = view.set directory share)
      (enterBlock c directory) (some (view.set directory share)) := by
  have hopened : Keeps (lockProtocol After)
      (Ends fun v result => if result.isSome
        then ∃ descriptor, v = view.set directory (.inside (blocks + 1) blocks descriptor)
        else v = view.set directory share)
      (openAtDepth c directory share.depth) (some (view.set directory share)) := by
    cases blocks with
    | zero =>
      rw [Share.acquired_zero] at hshare
      rw [hshare]
      exact keeps_openAndLock hcaller hblocks hwait
    | succ blocks =>
      obtain ⟨descriptor, rfl⟩ := Share.acquired_succ.1 hshare
      exact ends_some.2 ⟨descriptor, rfl⟩
  have hcount : 0 < share.count := by
    obtain ⟨before, -, rfl⟩ := hshare
    exact Nat.succ_pos _
  refine keeps_getDepth hcaller hcount (keeps_then hopened (fun v _ hv => ?_) fun v hv => hv)
  obtain ⟨descriptor, rfl⟩ := hv
  refine keeps_changeDepth (f := .done) hcaller (Nat.succ_pos blocks) (· + 1) ?_
  exact ends_some.2 ⟨descriptor, rfl⟩

/-- Reading the descriptor. -/
lemma keeps_getDescriptor (hcaller : view.caller = some c) (hcount : 0 < share.count)
    {f : Option ℕ → Locking α} (hnext : Keeps (lockProtocol After) (Ends Q) (f share.stored)
      (some (view.set directory share))) :
    Keeps (lockProtocol After) (Ends Q)
      (do
        let fileDescriptor : Option ℕ ← act c (.getDescriptor directory)
        f fileDescriptor)
      (some (view.set directory share)) := by
  refine keeps_act_set hcaller (.getDescriptor directory) ?_
    fun (descriptor : Option ℕ) v hv => ?_
  · rwa [View.Allows, View.set_share_self]
  · simp only [View.next, View.set_share_self] at hv
    obtain ⟨rfl, rfl⟩ := (Option.ite_none_right_eq_some.1 hv).imp_right Option.some.inj
    exact hnext

/-- Whether the file is unlocked or not, it is closed. -/
lemma keeps_unlockAndClose (hcaller : view.caller = some c) (hblocks : view.blocks directory = 0) :
    Keeps (lockProtocol After) (Ends fun v _ => v = view.set directory .outermost)
      (unlockAndClose c directory) (some (view.set directory (.inside 1 0 descriptor))) := by
  have hunlock : Keeps (lockProtocol After)
      (Ends fun v _ => ∃ locked,
        v = view.set directory (.withFile (some descriptor) descriptor locked))
      (releaseProcessLock c directory (some descriptor))
      (some (view.set directory (.inside 1 0 descriptor))) := by
    refine keeps_act_set hcaller (.unlockFile directory (some descriptor)) ?_
      fun unlocked v hv => ?_
    · simp [View.Allows, Share.inside, hblocks]
    · cases unlocked with
      | true =>
        refine ends_some.2 ⟨false, ?_⟩
        rw [← Option.some.inj hv, View.set_share_self, View.set_set]
        rfl
      | false => exact ends_some.2 ⟨true, (Option.some.inj hv).symm⟩
  refine keeps_getDescriptor hcaller Nat.one_pos (keeps_ensuring hunlock fun v _ hv => ?_)
  obtain ⟨locked, rfl⟩ := hv
  refine keeps_getDescriptor hcaller Nat.one_pos ?_
  refine keeps_act_set hcaller (.closeFile directory (some descriptor)) ?_ fun _ v hv => ?_
  · simp [View.Allows, Share.withFile, Share.outermost, hblocks]
  · rw [← Option.some.inj hv, View.set_share_self, View.set_set]
    refine keeps_act_set hcaller (.setDescriptor directory none) (f := .done) ?_ fun _ v hv => ?_
    · simp [View.Allows, Share.withFile, Share.outermost]
    · refine ends_some.2 ?_
      rw [← Option.some.inj hv, View.set_share_self, View.set_set]
      rfl

/-- After a block. -/
lemma keeps_leaveBlock (hcaller : view.caller = some c) (hblocks : view.blocks directory = blocks) :
    Keeps (lockProtocol After)
      (Ends fun v _ => ∃ share : Share, share.Acquired blocks ∧ v = view.set directory share)
      (leaveBlock c directory)
      (some (view.set directory (.inside (blocks + 1) (blocks + 1) descriptor))) := by
  have hclosed : Keeps (lockProtocol After)
      (Ends fun v _ => ∃ share : Share, share.Acquired blocks ∧ v = view.set directory share)
      (do
        let depth : ℕ ← act c (.getDepth directory)
        closeAtDepth c directory depth)
      (some (view.set directory (.inside (blocks + 1) blocks descriptor))) := by
    refine keeps_getDepth hcaller (Nat.succ_pos blocks) ?_
    cases blocks with
    | zero =>
      refine (keeps_unlockAndClose hcaller hblocks).mono fun l result hl v hv => ?_
      exact ⟨_, Share.acquired_zero.2 rfl, hl v hv⟩
    | succ blocks => exact ends_some.2 ⟨_, Share.acquired_succ.2 ⟨descriptor, rfl⟩, rfl⟩
  exact keeps_changeDepth hcaller (Nat.succ_pos blocks) (· - 1) hclosed

/-! ## Whatever runs in blocks -/

/-- A thread in these blocks, between its actions on locks. -/
structure View.Settled (c : Caller) (blocks : String → ℕ) (view : View) : Prop where
  caller : view.caller = some c
  inBlocks : view.blocks = blocks
  share : ∀ directory, (view.share directory).InBlocks (blocks directory)

/-- The same, but for what the thread knows of the directory. -/
structure View.SettledElsewhere (c : Caller) (blocks : String → ℕ) (directory : String)
    (view : View) : Prop where
  caller : view.caller = some c
  inBlocks : view.blocks = blocks
  share : ∀ other, other ≠ directory → (view.share other).InBlocks (blocks other)

/-- The thread has just acquired the reentrant lock of the directory, or is about to release it. -/
structure View.AtLock (c : Caller) (blocks : String → ℕ) (directory : String) (view : View) : Prop
    extends view.SettledElsewhere c blocks directory where
  acquired : (view.share directory).Acquired (blocks directory)

lemma Share.InBlocks.count (h : share.InBlocks blocks) : share.count = blocks := by
  cases blocks with
  | zero => exact congrArg Share.count h
  | succ blocks =>
    obtain ⟨descriptor, rfl⟩ := h
    rfl

variable {blocks : String → ℕ} {block : Locking α}

lemma View.Settled.elsewhere (h : view.Settled c blocks) (directory : String) :
    view.SettledElsewhere c blocks directory :=
  ⟨h.caller, h.inBlocks, fun other _ => h.share other⟩

lemma View.SettledElsewhere.set (h : view.SettledElsewhere c blocks directory) (share : Share) :
    (view.set directory share).SettledElsewhere c blocks directory where
  caller := h.caller
  inBlocks := h.inBlocks
  share := fun other hne => by
    rw [View.set_share_of_ne _ _ _ hne]
    exact h.share other hne

lemma View.SettledElsewhere.settled (h : view.SettledElsewhere c blocks directory)
    (hshare : (view.share directory).InBlocks (blocks directory)) : view.Settled c blocks where
  caller := h.caller
  inBlocks := h.inBlocks
  share := fun other => by
    by_cases heq : other = directory
    · rwa [heq]
    · exact h.share other heq

lemma View.SettledElsewhere.atLock (h : view.SettledElsewhere c blocks directory)
    (hshare : share.Acquired (blocks directory)) :
    (view.set directory share).AtLock c blocks directory where
  toSettledElsewhere := h.set share
  acquired := by rwa [View.set_share_self]

/-- In the block. -/
lemma View.SettledElsewhere.enter (h : view.SettledElsewhere c blocks directory)
    (descriptor : ℕ) :
    ((view.set directory
        (.inside (blocks directory + 1) (blocks directory + 1) descriptor)).setBlocks
      directory (blocks directory + 1)).Settled c
        (Function.update blocks directory (blocks directory + 1)) where
  caller := h.caller
  inBlocks := by rw [← h.inBlocks]; rfl
  share := fun other => by
    rw [View.setBlocks_share]
    by_cases heq : other = directory
    · rw [heq, View.set_share_self, Function.update_self]
      exact ⟨descriptor, rfl⟩
    · rw [View.set_share_of_ne _ _ _ heq, Function.update_of_ne heq]
      exact h.share other heq

/-- After the block. -/
lemma View.Settled.leave
    (h : view.Settled c (Function.update blocks directory (blocks directory + 1))) :
    (view.setBlocks directory (blocks directory)).SettledElsewhere c blocks directory ∧
      ∃ descriptor, view.share directory =
        .inside (blocks directory + 1) (blocks directory + 1) descriptor := by
  refine ⟨⟨h.caller, ?_, fun other hne => ?_⟩, ?_⟩
  · rw [View.setBlocks, h.inBlocks, Function.update_idem, Function.update_eq_self]
  · have hshare := h.share other
    rwa [Function.update_of_ne hne] at hshare
  · have hshare := h.share directory
    rwa [Function.update_self] at hshare

/-- A block, and what is done after it. -/
lemma keeps_lockedBlock (h : view.AtLock c blocks directory)
    (hwait : view.MayWait After directory)
    (hblock : ∀ v : View, v.Settled c (Function.update blocks directory (blocks directory + 1)) →
      Keeps (lockProtocol After)
        (Ends fun v _ => v.Settled c (Function.update blocks directory (blocks directory + 1)))
        block (some v)) :
    Keeps (lockProtocol After) (Ends fun v _ => v.AtLock c blocks directory)
      (lockedBlock c directory block) (some view) := by
  have henter := keeps_enterBlock h.caller h.acquired (congrFun h.inBlocks directory) hwait
  rw [View.set_self] at henter
  refine keeps_then henter (fun v _ hv => ?_) fun v hv => hv ▸ h
  obtain ⟨descriptor, rfl⟩ := hv
  have hrun : Keeps (lockProtocol After)
      (Ends fun v _ => v.Settled c (Function.update blocks directory (blocks directory + 1)))
      (runBlock c directory block)
      (some (view.set directory
        (.inside (blocks directory + 1) (blocks directory + 1) descriptor))) := by
    refine keeps_act_set h.caller (.enter directory) ?_ fun _ v hv => ?_
    · simp [View.Allows, Share.inside]
    · rw [← Option.some.inj hv, View.set_blocks, h.inBlocks]
      exact hblock _ (h.enter descriptor)
  refine keeps_ensuring hrun fun v result hv => ?_
  refine keeps_act hv.caller (.leave directory) ?_ fun _ v' hv' => ?_
  · rw [View.Allows, hv.inBlocks, Function.update_self]
    exact Nat.succ_pos _
  obtain ⟨hleft, descriptor, hshare⟩ := hv.leave
  rw [View.next, hv.inBlocks, Function.update_self, Nat.add_sub_cancel] at hv'
  rw [← Option.some.inj hv', ← View.set_self (v.setBlocks directory _) directory,
    View.setBlocks_share, hshare]
  refine (keeps_leaveBlock hleft.caller (congrFun hleft.inBlocks directory)).mono
    fun l result hl w hw => ?_
  obtain ⟨share, hacquired, rfl⟩ := hl w hw
  exact hleft.atLock hacquired

/-- `repository_operation_lock` around a block. -/
lemma keeps_repositoryOperationLock (h : view.Settled c blocks)
    (hwait : view.MayWait After directory)
    (hblock : ∀ v : View, v.Settled c (Function.update blocks directory (blocks directory + 1)) →
      Keeps (lockProtocol After)
        (Ends fun v _ => v.Settled c (Function.update blocks directory (blocks directory + 1)))
        block (some v)) :
    Keeps (lockProtocol After) (Ends fun v _ => v.Settled c blocks)
      (repositoryOperationLock c directory block) (some view) := by
  have hvalidated : Keeps (lockProtocol After) (Ends fun v _ => v = view)
      (validatedCacheDirectory c directory) (some view) := by
    refine keeps_act h.caller (.validate directory) trivial fun result v hv => ?_
    obtain rfl := Option.some.inj hv
    exact keeps_ofExcept_ends (fun _ _ => rfl) rfl
  refine keeps_then hvalidated (fun v _ hv => ?_) fun v hv => hv ▸ h
  subst hv
  refine keeps_act h.caller (.acquireThread directory) hwait fun _ v' hv' => ?_
  have hacquired : Share.Acquired
      { v.share directory with count := (v.share directory).count + 1 } (blocks directory) :=
    ⟨v.share directory, h.share directory, by rw [(h.share directory).count]⟩
  rw [← Option.some.inj hv']
  have hlocked := keeps_lockedBlock ((h.elsewhere directory).atLock hacquired)
    (View.mayWait_set.2 hwait) hblock
  refine keeps_ensuring hlocked fun w result hw => ?_
  obtain ⟨before, hbefore, hshare⟩ := hw.acquired
  refine keeps_act hw.caller (.releaseThread directory) (f := .done) ?_ fun _ w' hw' => ?_
  · rw [View.Allows, hshare]
    refine ⟨Nat.succ_pos _, fun hone => ?_⟩
    rw [show blocks directory = 0 from Nat.succ.inj hone] at hbefore ⊢
    rw [show before = .free from hbefore]
  · refine ends_some.2 ?_
    rw [← Option.some.inj hw', hshare]
    refine (hw.set _).settled ?_
    rw [View.set_share_self, Nat.add_sub_cancel]
    have hcount : ({ before with count := blocks directory } : Share) = before := by
      rw [← hbefore.count]
    rwa [← hcount] at hbefore

/-- Whatever runs in blocks keeps to the protocol, and ends in the same blocks. -/
theorem Runs.keeps {held : List String} (h : Runs After c held α p) :
    ∀ {view : View} {blocks : String → ℕ}, view.Settled c blocks →
      (∀ directory, 0 < blocks directory → directory ∈ held) →
      Keeps (lockProtocol After) (Ends fun v _ => v.Settled c blocks) p (some view) := by
  induction h with
  | done a => exact fun hview _ => ends_some.2 hview
  | fail code => exact fun hview _ => ends_some.2 hview
  | work name next _ ih =>
    intro view blocks hview hheld
    refine keeps_act hview.caller (.work name) trivial fun result v hv => ?_
    obtain rfl := Option.some.inj hv
    exact ih result hview hheld
  | block directory inner next hafter _ _ ihinner ihnext =>
    intro view blocks hview hheld
    have hwait : view.MayWait After directory := by
      intro other _ hcount
      rw [(hview.share other).count] at hcount
      exact hafter other (hheld other hcount)
    have hlock := keeps_repositoryOperationLock hview hwait fun v hv => ihinner hv
      fun other hother => by
        by_cases heq : other = directory
        · exact heq ▸ List.mem_cons_self
        · rw [Function.update_of_ne heq] at hother
          exact List.mem_cons_of_mem _ (hheld other hother)
    have hattempt : Keeps (lockProtocol After) (Ends fun v _ => v.Settled _ blocks)
        (repositoryOperationLock _ directory inner).attempt (some view) :=
      hlock.attempt (fun _ _ hl => hl) fun _ _ hl => hl
    exact keeps_then hattempt (fun v result hv => ihnext result hv hheld) fun v hv => hv

/-- A thread ends without a lock. -/
theorem Thread.keeps {program : Locking Unit} (h : Thread After program) :
    Keeps (lockProtocol After) (Ends fun v _ => ∀ directory, v.share directory = .free) program
      (lockProtocol After).start := by
  obtain ⟨body, hbody, rfl⟩ := h
  refine ⟨fun v hv => Option.some.inj hv ▸ rfl, fun c => ?_⟩
  have hstart : View.Settled c (fun _ => 0) { View.start with caller := some c } :=
    ⟨rfl, rfl, fun _ => rfl⟩
  refine ((hbody c).keeps hstart fun _ h => absurd h (Nat.lt_irrefl 0)).mono
    fun l result hl v hv => ?_
  exact (hl v hv).share

end

end OperationLock

end MercuryTools.Local
