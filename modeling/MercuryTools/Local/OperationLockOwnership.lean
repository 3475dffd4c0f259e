import MercuryTools.Local.OperationLockProtocol

/-!
# What a thread owns

Who has the reentrant lock of a directory owns its `_LockState`, the descriptor of its file and the
lock of the file, as far as its process has them (`Owns`).  What the protocol allows a thread
changes nothing else, so that what other threads know stays true (`Acts.advances`).
-/

namespace MercuryTools.Local

open Programs

namespace OperationLock

/-! ## Updates of the machine -/

section

variable {m m' : Machine} {c : Caller} {directory : String} {share share' : Share}

lemma setState_states (process : ℕ) (state : LockState) (process' : ℕ) (other : String) :
    (m.setState process directory state).states process' other =
      if process' = process ∧ other = directory then state else m.states process' other := by
  simp only [Machine.setState, Function.update_apply]
  by_cases hprocess : process' = process
  · by_cases hother : other = directory
    · simp only [hprocess, hother, if_true, and_self, Function.update_self]
    · simp only [hprocess, hother, if_true, if_false, and_false]
      exact Function.update_of_ne hother ..
  · simp only [hprocess, if_false, false_and]

lemma setOpened_opened (process descriptor : ℕ) (target : Option String)
    (process' descriptor' : ℕ) :
    (m.setOpened process descriptor target).opened process' descriptor' =
      if process' = process ∧ descriptor' = descriptor then target
      else m.opened process' descriptor' := by
  simp only [Machine.setOpened, Function.update_apply]
  by_cases hprocess : process' = process
  · by_cases hdescriptor : descriptor' = descriptor
    · simp only [hprocess, hdescriptor, if_true, and_self, Function.update_self]
    · simp only [hprocess, hdescriptor, if_true, if_false, and_false]
      exact Function.update_of_ne hdescriptor ..
  · simp only [hprocess, if_false, false_and]

lemma setLock_locks (holder : Option (ℕ × ℕ)) (other : String) :
    (m.setLock directory holder).locks other =
      if other = directory then holder else m.locks other := by
  simp only [Machine.setLock, Function.update_apply]

/-- Who holds a lock after a descriptor has given it up. -/
lemma unlocked_locks (process descriptor process' descriptor' : ℕ) (other : String) :
    (m.unlocked process descriptor directory).locks other = some (process', descriptor') ↔
      m.locks other = some (process', descriptor') ∧
        ¬ (other = directory ∧ process' = process ∧ descriptor' = descriptor) := by
  rw [Machine.unlocked, setLock_locks]
  by_cases hother : other = directory
  · rw [if_pos hother, hother]
    by_cases hheld : m.locks directory = some (process, descriptor)
    · rw [if_pos hheld, hheld]
      refine iff_of_false (Option.some_ne_none _).symm fun h => h.2 ?_
      obtain ⟨hprocess, hdescriptor⟩ := Prod.mk.inj (Option.some.inj h.1)
      exact ⟨rfl, hprocess.symm, hdescriptor.symm⟩
    · rw [if_neg hheld]
      refine ⟨fun h => ⟨h, fun heq => hheld ?_⟩, fun h => h.1⟩
      rw [h, heq.2.1, heq.2.2]
  · rw [if_neg hother]
    exact ⟨fun h => ⟨h, fun heq => hother heq.1⟩, fun h => h.1⟩

/-! ## Owning a directory -/

/-- The process has the state of the directory, its descriptor and the lock of its file as the share
says. -/
structure Owns (m : Machine) (c : Caller) (directory : String) (share : Share) : Prop where
  state : m.states c.process directory =
    ⟨if share.count = 0 then none else some c.thread, share.count, share.depth, share.stored⟩
  opened : ∀ descriptor,
    m.opened c.process descriptor = some directory ↔ share.opened = some descriptor
  locked : ∀ descriptor, m.locks directory = some (c.process, descriptor) ↔
    share.locked = true ∧ share.opened = some descriptor

/-- What the thread knows is true: it owns the directory, or knows that it does not. -/
def Fits (m : Machine) (c : Caller) (directory : String) (share : Share) : Prop :=
  if share.count = 0 then
    share = .free ∧ (m.states c.process directory).owner ≠ some c.thread
  else Owns m c directory share

/-- What is true of the machine between actions. -/
structure Machine.WellFormed (m : Machine) : Prop where
  idle : ∀ (c : Caller) (directory : String), m.alive c.process = true →
    (m.states c.process directory).owner = none → Owns m c directory .free
  holder : ∀ directory process descriptor, m.locks directory = some (process, descriptor) →
    m.alive process = true ∧ m.opened process descriptor = some directory
  started : ∀ (c : Caller) (directory : String),
    (m.states c.process directory).owner = some c.thread → c ∈ m.started

/-- Only what the thread may change of the directory is changed. -/
structure Changes (c : Caller) (directory : String) (m m' : Machine) : Prop where
  alive : m'.alive = m.alive
  started : m'.started = m.started
  states : ∀ process other, ¬ (process = c.process ∧ other = directory) →
    m'.states process other = m.states process other
  opened : ∀ process other, ¬ (process = c.process ∧ other = directory) → ∀ descriptor,
    m'.opened process descriptor = some other ↔ m.opened process descriptor = some other
  locks : ∀ process other, ¬ (process = c.process ∧ other = directory) → ∀ descriptor,
    m'.locks other = some (process, descriptor) ↔ m.locks other = some (process, descriptor)

lemma Owns.owner (h : Owns m c directory share) :
    (m.states c.process directory).owner = if share.count = 0 then none else some c.thread := by
  rw [h.state]

variable {other : Caller} {directory' : String} {descriptor : ℕ}

lemma Owns.owner_ne (h : Owns m c directory share) (hprocess : other.process = c.process)
    (hne : other ≠ c) : (m.states other.process directory).owner ≠ some other.thread := by
  rw [hprocess, h.owner]
  split
  · exact (Option.some_ne_none _).symm
  · intro hthread
    refine hne ?_
    cases other
    cases c
    cases hprocess
    cases Option.some.inj hthread
    rfl

lemma Owns.congr (h : Owns m c directory share)
    (hstates : m'.states c.process directory = m.states c.process directory)
    (hopened : ∀ descriptor, m'.opened c.process descriptor = some directory ↔
      m.opened c.process descriptor = some directory)
    (hlocks : ∀ descriptor, m'.locks directory = some (c.process, descriptor) ↔
      m.locks directory = some (c.process, descriptor)) : Owns m' c directory share where
  state := hstates.trans h.state
  opened := fun descriptor => (hopened descriptor).trans (h.opened descriptor)
  locked := fun descriptor => (hlocks descriptor).trans (h.locked descriptor)

lemma Fits.owns (h : Fits m c directory share) (hcount : 0 < share.count) :
    Owns m c directory share := by
  rwa [Fits, if_neg (Nat.ne_of_gt hcount)] at h

/-- Nothing changes for other directories, and in other processes. -/
lemma Changes.fits_of_ne (h : Changes c directory m m')
    (hne : ¬ (other.process = c.process ∧ directory' = directory))
    (hfits : Fits m other directory' share) : Fits m' other directory' share := by
  rw [Fits] at hfits ⊢
  split at hfits
  · next hcount =>
    rw [if_pos hcount, h.states _ _ hne]
    exact hfits
  · next hcount =>
    rw [if_neg hcount]
    exact hfits.congr (h.states _ _ hne) (h.opened _ _ hne) (h.locks _ _ hne)

/-- What another thread knows stays true. -/
lemma Changes.fits (h : Changes c directory m m') (hbefore : Owns m c directory share)
    (hafter : Owns m' c directory share') {known : Share} (hother : other ≠ c)
    (hfits : Fits m other directory' known) : Fits m' other directory' known := by
  by_cases hsame : other.process = c.process ∧ directory' = directory
  · obtain ⟨hprocess, rfl⟩ := hsame
    have hcount : known.count = 0 := by
      by_contra hcount
      have howner := (hfits.owns (Nat.pos_of_ne_zero hcount)).owner
      rw [if_neg hcount] at howner
      exact hbefore.owner_ne hprocess hother howner
    rw [Fits, if_pos hcount] at hfits ⊢
    exact ⟨hfits.1, hafter.owner_ne hprocess hother⟩
  · exact h.fits_of_ne hsame hfits

lemma Owns.fits (h : Owns m c directory share) (hfree : share.count = 0 → share = .free) :
    Fits m c directory share := by
  rw [Fits]
  split
  · next hcount =>
    refine ⟨hfree hcount, ?_⟩
    rw [h.owner, if_pos hcount]
    exact (Option.some_ne_none _).symm
  · exact h

lemma Changes.wellFormed (h : Changes c directory m m') (hwf : m.WellFormed)
    (halive : m.alive c.process = true) (hstarted : c ∈ m.started)
    (hafter : Owns m' c directory share') (hfree : share'.count = 0 → share' = .free) :
    m'.WellFormed where
  idle := fun other directory' hother howner => by
    by_cases hsame : other.process = c.process ∧ directory' = directory
    · obtain ⟨hprocess, rfl⟩ := hsame
      have hcount : share'.count = 0 := by
        by_contra hcount
        rw [hprocess, hafter.owner, if_neg hcount] at howner
        cases howner
      have hafter' := hfree hcount ▸ hafter
      refine ⟨?_, fun descriptor => ?_, fun descriptor => ?_⟩
      · rw [hprocess]
        exact hafter'.state
      · rw [hprocess]
        exact hafter'.opened descriptor
      · rw [hprocess]
        exact hafter'.locked descriptor
    · rw [h.states _ _ hsame] at howner
      rw [h.alive] at hother
      exact (hwf.idle other directory' hother howner).congr (h.states _ _ hsame)
        (h.opened _ _ hsame) (h.locks _ _ hsame)
  holder := fun directory' process descriptor hlock => by
    rw [h.alive]
    by_cases hsame : process = c.process ∧ directory' = directory
    · obtain ⟨rfl, rfl⟩ := hsame
      exact ⟨halive, (hafter.opened _).2 ((hafter.locked _).1 hlock).2⟩
    · rw [h.locks _ _ hsame] at hlock
      rw [h.opened _ _ hsame]
      exact hwf.holder _ _ _ hlock
  started := fun other directory' howner => by
    rw [h.started]
    by_cases hsame : other.process = c.process ∧ directory' = directory
    · obtain ⟨hprocess, rfl⟩ := hsame
      by_cases heq : other = c
      · exact heq ▸ hstarted
      · exact absurd howner (hafter.owner_ne hprocess heq)
    · rw [h.states _ _ hsame] at howner
      exact hwf.started _ _ howner

/-! ## One action -/

lemma changes_setState (state : LockState) :
    Changes c directory m (m.setState c.process directory state) where
  alive := rfl
  started := rfl
  states := fun _ _ hne => by rw [setState_states, if_neg hne]
  opened := fun _ _ _ _ => .rfl
  locks := fun _ _ _ _ => .rfl

/-- Another state, of the same thread. -/
lemma Owns.setState (h : Owns m c directory share) {state : LockState}
    (hstate : state = ⟨if share'.count = 0 then none else some c.thread, share'.count,
      share'.depth, share'.stored⟩) (hopened : share'.opened = share.opened)
    (hlocked : share'.locked = share.locked) :
    Owns (m.setState c.process directory state) c directory share' where
  state := by rw [setState_states, if_pos ⟨rfl, rfl⟩, hstate]
  opened := fun descriptor => by rw [hopened]; exact h.opened descriptor
  locked := fun descriptor => by rw [hopened, hlocked]; exact h.locked descriptor

/-- An action of the thread: what it knows is true afterwards, and what others know stays true. -/
structure Advances (c : Caller) (m m' : Machine) (view view' : View) : Prop where
  alive : m'.alive = m.alive
  started : m'.started = m.started
  wellFormed : m'.WellFormed
  own : ∀ directory, Fits m' c directory (view'.share directory)
  others : ∀ other, other ≠ c → ∀ directory share, Fits m other directory share →
    Fits m' other directory share
  owners : ∀ other, other ≠ c → ∀ directory,
    (m'.states other.process directory).owner = some other.thread →
      (m.states other.process directory).owner = some other.thread
  caller : view'.caller = view.caller

variable {view view' : View} {After : String → String → Prop}

lemma advances_same (hwf : m.WellFormed)
    (hfits : ∀ directory, Fits m c directory (view.share directory))
    (hshare : view'.share = view.share) (hcaller : view'.caller = view.caller) :
    Advances c m m view view' where
  alive := rfl
  started := rfl
  wellFormed := hwf
  own := fun directory => by rw [hshare]; exact hfits directory
  others := fun _ _ _ _ h => h
  owners := fun _ _ _ h => h
  caller := hcaller

lemma Changes.advances (h : Changes c directory m m') (hwf : m.WellFormed)
    (halive : m.alive c.process = true) (hstarted : c ∈ m.started)
    (hfits : ∀ directory, Fits m c directory (view.share directory))
    (hbefore : Owns m c directory share) (hafter : Owns m' c directory share')
    (hfree : share'.count = 0 → share' = .free) :
    Advances c m m' view (view.set directory share') where
  alive := h.alive
  started := h.started
  wellFormed := h.wellFormed hwf halive hstarted hafter hfree
  own := fun other => by
    by_cases heq : other = directory
    · rw [heq, View.set_share_self]
      exact hafter.fits hfree
    · rw [View.set_share_of_ne _ _ _ heq]
      exact h.fits_of_ne (fun hsame => heq hsame.2) (hfits other)
  others := fun _ hne _ _ hknown => h.fits hbefore hafter hne hknown
  owners := fun other hne directory' howner => by
    by_cases hsame : other.process = c.process ∧ directory' = directory
    · obtain ⟨hprocess, rfl⟩ := hsame
      exact absurd howner (hafter.owner_ne hprocess hne)
    · rwa [h.states _ _ hsame] at howner
  caller := rfl

/-- A thread that may acquire the reentrant lock knows the state of the directory. -/
lemma owns_of_free (hwf : m.WellFormed) (halive : m.alive c.process = true)
    (hfits : Fits m c directory share)
    (hfree : (m.states c.process directory).owner = none ∨
      (m.states c.process directory).owner = some c.thread) : Owns m c directory share := by
  by_cases hcount : share.count = 0
  · rw [Fits, if_pos hcount] at hfits
    rw [hfits.1]
    exact hwf.idle c directory halive (hfree.resolve_right hfits.2)
  · exact hfits.owns (Nat.pos_of_ne_zero hcount)

lemma changes_setOpened {target : Option String}
    (hbefore : ∀ other, m.opened c.process descriptor = some other → other = directory)
    (hafter : ∀ other, target = some other → other = directory) :
    Changes c directory m (m.setOpened c.process descriptor target) where
  alive := rfl
  started := rfl
  states := fun _ _ _ => rfl
  opened := fun process other hne descriptor' => by
    rw [setOpened_opened]
    split
    · next hsame =>
      obtain ⟨rfl, rfl⟩ := hsame
      exact iff_of_false (fun h => hne ⟨rfl, hafter other h⟩) fun h => hne ⟨rfl, hbefore other h⟩
    · exact .rfl
  locks := fun _ _ _ _ => .rfl

lemma changes_unlocked (descriptor : ℕ) :
    Changes c directory m (m.unlocked c.process descriptor directory) where
  alive := rfl
  started := rfl
  states := fun _ _ _ => rfl
  opened := fun _ _ _ _ => .rfl
  locks := fun process other hne descriptor' => by
    rw [unlocked_locks]
    exact ⟨fun h => h.1, fun h => ⟨h, fun hsame => hne ⟨hsame.2.1, hsame.1⟩⟩⟩

lemma Changes.trans {m'' : Machine} (h : Changes c directory m m')
    (h' : Changes c directory m' m'') : Changes c directory m m'' where
  alive := h'.alive.trans h.alive
  started := h'.started.trans h.started
  states := fun process other hne =>
    (h'.states process other hne).trans (h.states process other hne)
  opened := fun process other hne descriptor =>
    (h'.opened process other hne descriptor).trans (h.opened process other hne descriptor)
  locks := fun process other hne descriptor =>
    (h'.locks process other hne descriptor).trans (h.locks process other hne descriptor)

/-- The reentrant lock is released once. -/
lemma Owns.releaseThread (h : Owns m c directory share) (hcount : 0 < share.count) :
    Owns (m.setState c.process directory
      { m.states c.process directory with
        owner := if (m.states c.process directory).count = 1 then none else some c.thread
        count := (m.states c.process directory).count - 1 }) c directory
      { share with count := share.count - 1 } := by
  refine h.setState ?_ rfl rfl
  have hlast : share.count - 1 = 0 ↔ share.count = 1 := by omega
  rw [h.state]
  simp only [hlast]

lemma free_of_release (hcount : 0 < share.count)
    (hone : share.count = 1 → share = { Share.free with count := 1 })
    (hzero : share.count - 1 = 0) : { share with count := share.count - 1 } = Share.free := by
  rw [hone (by omega)]
  rfl

/-- The file is opened. -/
lemma Owns.openFile (h : Owns m c directory share) (hclosed : share.opened = none)
    (hunlocked : share.locked = false) (descriptor : ℕ) :
    Owns (m.setOpened c.process descriptor (some directory)) c directory
      { share with opened := some descriptor } where
  state := h.state
  opened := fun descriptor' => by
    rw [setOpened_opened]
    split
    · next hsame => exact iff_of_true rfl (congrArg some hsame.2.symm)
    · next hne =>
      rw [h.opened, hclosed]
      exact iff_of_false (Option.some_ne_none _).symm fun heq =>
        hne ⟨rfl, (Option.some.inj heq).symm⟩
  locked := fun descriptor' => by
    refine (h.locked descriptor').trans (iff_of_false ?_ ?_)
    · rw [hunlocked]
      exact fun hlocked => Bool.false_ne_true hlocked.1
    · rw [hunlocked]
      exact fun hlocked => Bool.false_ne_true hlocked.1

lemma Owns.unlockFile (h : Owns m c directory share) (hopened : share.opened = some descriptor) :
    Owns (m.unlocked c.process descriptor directory) c directory { share with locked := false }
      where
  state := h.state
  opened := h.opened
  locked := fun descriptor' => by
    refine iff_of_false (fun hlock => ?_) fun hlocked => Bool.false_ne_true hlocked.1
    obtain ⟨hlock, hne⟩ := (unlocked_locks ..).1 hlock
    have heq := ((h.locked descriptor').1 hlock).2
    exact hne ⟨rfl, rfl, Option.some.inj (heq.symm.trans hopened)⟩

/-- The file is closed, and its lock is given up. -/
lemma Owns.closeFile (h : Owns m c directory share) (hopened : share.opened = some descriptor) :
    Owns ((m.unlocked c.process descriptor directory).setOpened c.process descriptor none) c
      directory { share with opened := none, locked := false } where
  state := h.state
  opened := fun descriptor' => by
    rw [setOpened_opened]
    split
    · exact iff_of_false (Option.some_ne_none _).symm (Option.some_ne_none _).symm
    · next hne =>
      refine iff_of_false (fun heq => hne ⟨rfl, ?_⟩) (Option.some_ne_none _).symm
      exact Option.some.inj (((h.opened descriptor').1 heq).symm.trans hopened)
  locked := fun descriptor' => ((h.unlockFile hopened).locked descriptor').trans <|
    iff_of_false (fun hlocked => Bool.false_ne_true hlocked.1) fun hlocked =>
      Bool.false_ne_true hlocked.1

/-- The file is locked. -/
lemma Owns.lockFile (h : Owns m c directory share) (hopened : share.opened = some descriptor) :
    Owns (m.setLock directory (some (c.process, descriptor))) c directory
      { share with locked := true } where
  state := h.state
  opened := h.opened
  locked := fun descriptor' => by
    rw [setLock_locks, if_pos rfl, hopened, Option.some.injEq, Prod.mk.injEq, Option.some.injEq]
    exact ⟨fun heq => ⟨rfl, heq.2⟩, fun heq => ⟨rfl, heq.2⟩⟩

lemma changes_lockFile
    (hfree : m.locks directory = none ∨ m.locks directory = some (c.process, descriptor)) :
    Changes c directory m (m.setLock directory (some (c.process, descriptor))) where
  alive := rfl
  started := rfl
  states := fun _ _ _ => rfl
  opened := fun _ _ _ _ => .rfl
  locks := fun process other hne descriptor' => by
    rw [setLock_locks]
    split
    · next heq =>
      have hprocess : c.process ≠ process := fun hprocess => hne ⟨hprocess.symm, heq⟩
      rw [heq]
      refine iff_of_false (fun h => hprocess (Prod.mk.inj (Option.some.inj h)).1) fun h => ?_
      rcases hfree with hfree | hfree
      · exact Option.some_ne_none _ (h.symm.trans hfree)
      · exact hprocess (Prod.mk.inj (Option.some.inj (hfree.symm.trans h))).1
    · exact .rfl

/-- Every action that the thread may do. -/
theorem Acts.advances {action : Action} {answer : action.Answer} (h : Acts m c action answer m')
    (hwf : m.WellFormed) (halive : m.alive c.process = true) (hstarted : c ∈ m.started)
    (hfits : ∀ directory, Fits m c directory (view.share directory))
    (hallows : view.Allows After action) :
    ∃ view', view.next action answer = some view' ∧ Advances c m m' view view' := by
  cases h with
  | validate directory result => exact ⟨view, rfl, advances_same hwf hfits rfl rfl⟩
  | acquireThread directory hfree =>
    have howns := owns_of_free hwf halive (hfits directory) hfree
    refine ⟨_, rfl, (changes_setState _).advances hwf halive hstarted hfits howns ?_ ?_⟩
    · refine howns.setState ?_ rfl rfl
      rw [howns.state]
      rfl
    · exact fun hzero => absurd hzero (Nat.succ_ne_zero _)
  | releaseThread directory howner =>
    obtain ⟨hcount, hone⟩ := hallows
    have howns := (hfits directory).owns hcount
    exact ⟨_, rfl, (changes_setState _).advances hwf halive hstarted hfits howns
      (howns.releaseThread hcount) (free_of_release hcount hone)⟩
  | getDepth directory =>
    refine ⟨view, if_pos ?_, advances_same hwf hfits rfl rfl⟩
    rw [((hfits directory).owns hallows).state]
  | setDepth directory depth =>
    have howns := (hfits directory).owns hallows
    refine ⟨_, rfl, (changes_setState _).advances hwf halive hstarted hfits howns ?_ ?_⟩
    · refine howns.setState ?_ rfl rfl
      rw [howns.state]
    · exact fun hzero => absurd hzero (Nat.ne_of_gt hallows)
  | getDescriptor directory =>
    refine ⟨view, if_pos ?_, advances_same hwf hfits rfl rfl⟩
    rw [((hfits directory).owns hallows).state]
  | setDescriptor directory descriptor =>
    have howns := (hfits directory).owns hallows
    refine ⟨_, rfl, (changes_setState _).advances hwf halive hstarted hfits howns ?_ ?_⟩
    · refine howns.setState ?_ rfl rfl
      rw [howns.state]
    · exact fun hzero => absurd hzero (Nat.ne_of_gt hallows)
  | openFile directory descriptor hfresh =>
    obtain ⟨hcount, hclosed, hunlocked⟩ := hallows
    have howns := (hfits directory).owns hcount
    refine ⟨_, rfl, Changes.advances ?_ hwf halive hstarted hfits howns
      (howns.openFile hclosed hunlocked descriptor) fun hzero => absurd hzero (Nat.ne_of_gt hcount)⟩
    refine changes_setOpened (fun other hother => ?_) fun other hother => ?_
    · rw [hfresh] at hother
      cases hother
    · exact (Option.some.inj hother).symm
  | notOpened directory code => exact ⟨view, rfl, advances_same hwf hfits rfl rfl⟩
  | closeFile directory descriptor hopened =>
    obtain ⟨hcount, hdescriptor, -, -⟩ := hallows
    have howns := (hfits directory).owns hcount
    refine ⟨_, rfl, Changes.advances ?_ hwf halive hstarted hfits howns
      (howns.closeFile hdescriptor) fun hzero => absurd hzero (Nat.ne_of_gt hcount)⟩
    refine (changes_unlocked descriptor).trans (changes_setOpened (fun other hother => ?_)
      fun other hother => absurd hother.symm (Option.some_ne_none _))
    exact Option.some.inj (hother.symm.trans hopened)
  | lockFile directory descriptor hopened hfree =>
    obtain ⟨hcount, hdescriptor, -, -⟩ := hallows
    have howns := (hfits directory).owns hcount
    exact ⟨_, rfl, (changes_lockFile hfree).advances hwf halive hstarted hfits howns
      (howns.lockFile hdescriptor) fun hzero => absurd hzero (Nat.ne_of_gt hcount)⟩
  | notLocked directory descriptor => exact ⟨view, rfl, advances_same hwf hfits rfl rfl⟩
  | unlockFile directory descriptor hopened =>
    obtain ⟨hcount, hdescriptor, -, -⟩ := hallows
    have howns := (hfits directory).owns hcount
    exact ⟨_, rfl, (changes_unlocked descriptor).advances hwf halive hstarted hfits howns
      (howns.unlockFile hdescriptor) fun hzero => absurd hzero (Nat.ne_of_gt hcount)⟩
  | notUnlocked directory descriptor => exact ⟨view, rfl, advances_same hwf hfits rfl rfl⟩
  | enter directory => exact ⟨_, rfl, advances_same hwf hfits rfl rfl⟩
  | leave directory => exact ⟨_, rfl, advances_same hwf hfits rfl rfl⟩
  | work name result => exact ⟨view, rfl, advances_same hwf hfits rfl rfl⟩

end

end OperationLock

end MercuryTools.Local
