import Mathlib.Data.List.Induction
import MercuryTools.Local.OperationLockOwnership

/-!
# The blocks of a repository exclude each other

In every pool of threads that can be reached, whatever fails and whichever processes die, at most
one thread of a living process is in a block of a directory (`operationLock_exclusive`).  A process
whose threads have ended has left nothing locked or open (`operationLock_released`); and where no
thread takes the locks of two directories at a time, the threads do not lock each other out
(`operationLock_progress`).
-/

namespace MercuryTools.Local

open Programs

namespace OperationLock

section

variable {m m' : Machine} {c : Caller} {directory : String} {share : Share} {view view' : View}
  {After : String → String → Prop}

/-! ## What holds in a block -/

/-- In a block, the thread has the lock of the file. -/
structure View.Sound (view : View) : Prop where
  inBlock : ∀ directory, 0 < view.blocks directory →
    0 < (view.share directory).count ∧ (view.share directory).locked = true
  opened : ∀ directory, (view.share directory).locked = true →
    (view.share directory).opened.isSome = true

lemma View.sound_start (caller : Option Caller) :
    View.Sound { View.start with caller := caller } where
  inBlock := fun _ h => absurd h (Nat.lt_irrefl 0)
  opened := fun _ h => absurd h Bool.false_ne_true

/-- Another share. -/
lemma View.Sound.set (h : view.Sound)
    (hblock : 0 < view.blocks directory → 0 < share.count ∧ share.locked = true)
    (hopened : share.locked = true → share.opened.isSome = true) :
    (view.set directory share).Sound where
  inBlock := fun other hother => by
    by_cases heq : other = directory
    · subst heq
      rw [View.set_share_self]
      exact hblock hother
    · rw [View.set_share_of_ne _ _ _ heq]
      exact h.inBlock other hother
  opened := fun other hlocked => by
    by_cases heq : other = directory
    · subst heq
      rw [View.set_share_self] at hlocked ⊢
      exact hopened hlocked
    · rw [View.set_share_of_ne _ _ _ heq] at hlocked ⊢
      exact h.opened other hlocked

lemma View.Sound.setBlocks (h : view.Sound) {blocks : ℕ}
    (hblock : 0 < blocks →
      0 < (view.share directory).count ∧ (view.share directory).locked = true) :
    (view.setBlocks directory blocks).Sound where
  inBlock := fun other hother => by
    by_cases heq : other = directory
    · subst heq
      have hpos : 0 < Function.update view.blocks other blocks other := hother
      rw [Function.update_self] at hpos
      exact hblock hpos
    · have hpos : 0 < Function.update view.blocks directory blocks other := hother
      rw [Function.update_of_ne heq] at hpos
      exact h.inBlock other hpos
  opened := h.opened

variable {action : Action} {process process' i : ℕ} {task : Task Effect Answer Unit} {e : Effect}
  {rest : Locking Unit}

/-- What the thread may do keeps this. -/
lemma View.Sound.next (h : view.Sound) {answer : action.Answer} (hallows : view.Allows After action)
    (hnext : view.next action answer = some view') : view'.Sound := by
  cases action with
  | validate directory => exact Option.some.inj hnext ▸ h
  | work name => exact Option.some.inj hnext ▸ h
  | acquireThread directory =>
    rw [← Option.some.inj hnext]
    exact h.set (fun hblock => ⟨Nat.succ_pos _, (h.inBlock directory hblock).2⟩)
      (h.opened directory)
  | releaseThread directory =>
    rw [← Option.some.inj hnext]
    refine h.set (fun hblock => ⟨?_, (h.inBlock directory hblock).2⟩) (h.opened directory)
    obtain ⟨hcount, hone⟩ := hallows
    have hne : (view.share directory).count ≠ 1 := fun heq => by
      have hlocked := (h.inBlock directory hblock).2
      rw [hone heq] at hlocked
      cases hlocked
    exact Nat.sub_pos_of_lt (Nat.lt_of_le_of_ne hcount hne.symm)
  | getDepth directory =>
    exact Option.some.inj (Option.ite_none_right_eq_some.1 hnext).2 ▸ h
  | setDepth directory depth =>
    rw [← Option.some.inj hnext]
    exact h.set (h.inBlock directory) (h.opened directory)
  | getDescriptor directory =>
    exact Option.some.inj (Option.ite_none_right_eq_some.1 hnext).2 ▸ h
  | setDescriptor directory descriptor =>
    rw [← Option.some.inj hnext]
    exact h.set (h.inBlock directory) (h.opened directory)
  | openFile directory =>
    cases answer with
    | ok descriptor =>
      rw [← Option.some.inj hnext]
      exact h.set (h.inBlock directory) fun _ => rfl
    | error code => exact Option.some.inj hnext ▸ h
  | closeFile directory descriptor =>
    rw [← Option.some.inj hnext]
    exact h.set (fun hblock => absurd hallows.2.2.2 (Nat.ne_of_gt hblock))
      fun hlocked => absurd hlocked Bool.false_ne_true
  | lockFile directory descriptor =>
    cases answer with
    | true =>
      rw [← Option.some.inj hnext]
      refine h.set (fun _ => ⟨hallows.1, rfl⟩) fun _ => ?_
      rw [hallows.2.1]
      rfl
    | false => exact Option.some.inj hnext ▸ h
  | unlockFile directory descriptor =>
    cases answer with
    | true =>
      rw [← Option.some.inj hnext]
      exact h.set (fun hblock => absurd hallows.2.2.2 (Nat.ne_of_gt hblock))
        fun hlocked => absurd hlocked Bool.false_ne_true
    | false => exact Option.some.inj hnext ▸ h
  | enter directory =>
    rw [← Option.some.inj hnext]
    exact h.setBlocks fun _ => hallows
  | leave directory =>
    rw [← Option.some.inj hnext]
    exact h.setBlocks fun _ => h.inBlock directory hallows

/-! ## Pools -/

/-- What the thread knows is true, as long as its process is alive. -/
structure Knows (m : Machine) (view : View) : Prop where
  sound : view.Sound
  unstarted : view.caller = none → ∀ directory, view.share directory = .free
  started : ∀ c, view.caller = some c → c ∈ m.started
  fits : ∀ c, view.caller = some c → m.alive c.process = true →
    ∀ directory, Fits m c directory (view.share directory)

/-- The view of a task. -/
def Sees (After : String → String → Prop) (task : Task Effect Answer Unit) (view : View) : Prop :=
  (lockProtocol After).after task.log = some view

structure LockInvariant (After : String → String → Prop) (pool : LockPool) : Prop where
  keeps : pool.Keeps (lockProtocol After) (Ends fun v _ => ∀ directory, v.share directory = .free)
  wellFormed : pool.shared.WellFormed
  knows : ∀ task ∈ pool.tasks, ∃ view, Sees After task view ∧ Knows pool.shared view
  distinct : ∀ (i j : ℕ) task task' view view' c, pool.tasks[i]? = some task →
    pool.tasks[j]? = some task' → Sees After task view → Sees After task' view' →
    view.caller = some c → view'.caller = some c → i = j
  owners : ∀ c directory, pool.shared.alive c.process = true →
    (pool.shared.states c.process directory).owner = some c.thread →
    ∃ task ∈ pool.tasks, ∃ view, Sees After task view ∧ view.caller = some c

lemma lockInvariant_initial : LockInvariant After ⟨.initial, []⟩ where
  keeps := fun _ h => absurd h List.not_mem_nil
  wellFormed := by
    refine ⟨fun c directory _ _ => ?_, fun directory process descriptor h => ?_,
      fun c directory h => ?_⟩
    · refine ⟨rfl, fun descriptor => ?_, fun descriptor => ?_⟩
      · exact iff_of_false (Option.some_ne_none _).symm (Option.some_ne_none _).symm
      · exact iff_of_false (Option.some_ne_none _).symm fun h => Bool.false_ne_true h.1
    · exact absurd h.symm (Option.some_ne_none _)
    · exact absurd h.symm (Option.some_ne_none _)
  knows := fun _ h => absurd h List.not_mem_nil
  distinct := fun i j task task' view view' c h => by
    rw [List.getElem?_nil] at h
    cases h
  owners := fun c directory _ h => absurd h.symm (Option.some_ne_none _)

variable {pool pool' : LockPool}

lemma LockInvariant.spawn (h : LockInvariant After pool) {program : Locking Unit}
    (hkeeps : Pool.Keeps (lockProtocol After)
      (Ends fun v _ => ∀ directory, v.share directory = .free)
      { pool with tasks := pool.tasks ++ [⟨[], program⟩] }) :
    LockInvariant After { pool with tasks := pool.tasks ++ [⟨[], program⟩] } where
  keeps := hkeeps
  wellFormed := h.wellFormed
  knows := fun task htask => by
    rcases List.mem_append.1 htask with htask | htask
    · exact h.knows task htask
    · rw [List.mem_singleton.1 htask]
      exact ⟨.start, rfl, View.sound_start none, fun _ _ => rfl,
        fun c hc => absurd hc.symm (Option.some_ne_none _),
        fun c hc => absurd hc.symm (Option.some_ne_none _)⟩
  distinct := fun i j task task' view view' c hi hj hview hview' hc hc' => by
    have hold : ∀ (k : ℕ) (t : Task Effect Answer Unit) (v : View),
        (pool.tasks ++ [⟨[], program⟩])[k]? = some t → Sees After t v → v.caller = some c →
          pool.tasks[k]? = some t := by
      intro k t v hk hv hcaller
      rw [List.getElem?_append] at hk
      split at hk
      · exact hk
      · obtain rfl := List.mem_singleton.1 (List.mem_of_getElem? hk)
        rw [← Option.some.inj hv] at hcaller
        exact absurd hcaller.symm (Option.some_ne_none _)
    exact h.distinct i j task task' view view' c (hold i task view hi hview hc)
      (hold j task' view' hj hview' hc') hview hview' hc hc'
  owners := fun c directory halive howner => by
    obtain ⟨task, htask, hview⟩ := h.owners c directory halive howner
    exact ⟨task, List.mem_append_left _ htask, hview⟩

/-! ### A process dies -/

lemma crash_locks (process : ℕ) (other : String) (holder : ℕ × ℕ) :
    (m.crash process).locks other = some holder ↔
      m.locks other = some holder ∧ holder.1 ≠ process := by
  rw [Machine.crash, Option.filter_eq_some_iff, decide_eq_true_eq]

lemma crash_opened (hne : process' ≠ process) :
    (m.crash process).opened process' = m.opened process' :=
  Function.update_of_ne hne ..

lemma crash_alive_iff :
    (m.crash process).alive process' = true ↔
      process' ≠ process ∧ m.alive process' = true := by
  have halive : (m.crash process).alive process' =
      if process' = process then false else m.alive process' := Function.update_apply ..
  rw [halive]
  split
  · next heq => exact iff_of_false Bool.false_ne_true fun h => h.1 heq
  · next hne => exact ⟨fun h => ⟨hne, h⟩, fun h => h.2⟩

lemma Owns.crash (h : Owns m c directory share) (hne : c.process ≠ process) :
    Owns (m.crash process) c directory share := by
  refine h.congr rfl (fun descriptor => ?_) fun descriptor => ?_
  · rw [crash_opened hne]
  · rw [crash_locks]
    exact ⟨fun hlock => hlock.1, fun hlock => ⟨hlock, hne⟩⟩

lemma Fits.crash (h : Fits m c directory share) (hne : c.process ≠ process) :
    Fits (m.crash process) c directory share := by
  rw [Fits] at h ⊢
  split at h
  · next hcount =>
    rw [if_pos hcount]
    exact h
  · next hcount =>
    rw [if_neg hcount]
    exact h.crash hne

lemma Machine.WellFormed.crash (h : m.WellFormed) (process : ℕ) :
    (m.crash process).WellFormed where
  idle := fun c directory halive howner =>
    (h.idle c directory (crash_alive_iff.1 halive).2 howner).crash (crash_alive_iff.1 halive).1
  holder := fun directory process' descriptor hlock => by
    obtain ⟨hlock, hne⟩ := (crash_locks ..).1 hlock
    obtain ⟨halive, hopened⟩ := h.holder directory process' descriptor hlock
    exact ⟨crash_alive_iff.2 ⟨hne, halive⟩, by rwa [crash_opened hne]⟩
  started := h.started

lemma Knows.crash (h : Knows m view) (process : ℕ) : Knows (m.crash process) view where
  sound := h.sound
  unstarted := h.unstarted
  started := h.started
  fits := fun c hc halive directory =>
    (h.fits c hc (crash_alive_iff.1 halive).2 directory).crash (crash_alive_iff.1 halive).1

lemma LockInvariant.crash (h : LockInvariant After pool) (process : ℕ)
    (hkeeps : Pool.Keeps (lockProtocol After)
      (Ends fun v _ => ∀ directory, v.share directory = .free)
      { pool with shared := pool.shared.crash process }) :
    LockInvariant After { pool with shared := pool.shared.crash process } where
  keeps := hkeeps
  wellFormed := h.wellFormed.crash process
  knows := fun task htask => by
    obtain ⟨view, hsees, hknows⟩ := h.knows task htask
    exact ⟨view, hsees, hknows.crash process⟩
  distinct := h.distinct
  owners := fun c directory halive howner =>
    h.owners c directory (crash_alive_iff.1 halive).2 howner

/-! ### A thread acts -/

/-- A thread has acted, and the others keep what they know. -/
lemma LockInvariant.replace (h : LockInvariant After pool) {task' : Task Effect Answer Unit}
    (htask : pool.tasks[i]? = some task) (hkeeps : Pool.Keeps (lockProtocol After)
      (Ends fun v _ => ∀ directory, v.share directory = .free) ⟨m', pool.tasks.set i task'⟩)
    (hwf : m'.WellFormed) (hsees : Sees After task' view') (hcaller : view'.caller = some c)
    (hknows : Knows m' view')
    (hothers : ∀ view, view.caller ≠ some c → Knows pool.shared view → Knows m' view)
    (hfresh : ∀ (j : ℕ) other view, pool.tasks[j]? = some other → Sees After other view →
      view.caller = some c → j = i)
    (hbefore : ∀ view, Sees After task view → view.caller = none ∨ view.caller = some c)
    (halive : m'.alive = pool.shared.alive) (howners : ∀ other, other ≠ c → ∀ directory,
      (m'.states other.process directory).owner = some other.thread →
        (pool.shared.states other.process directory).owner = some other.thread) :
    LockInvariant After ⟨m', pool.tasks.set i task'⟩ := by
  have hlt := (List.getElem?_eq_some_iff.1 htask).1
  have hself : (pool.tasks.set i task')[i]? = some task' := List.getElem?_set_self hlt
  have hne : ∀ {j : ℕ}, j ≠ i → (pool.tasks.set i task')[j]? = pool.tasks[j]? :=
    fun hne => List.getElem?_set_ne (Ne.symm hne)
  refine ⟨hkeeps, hwf, fun other hother => ?_, ?_, fun other directory hother howner => ?_⟩
  · obtain ⟨j, hj⟩ := List.mem_iff_getElem?.1 hother
    by_cases heq : j = i
    · rw [heq, hself] at hj
      rw [← Option.some.inj hj]
      exact ⟨view', hsees, hknows⟩
    · rw [hne heq] at hj
      obtain ⟨view, hview, hknown⟩ := h.knows other (List.mem_of_getElem? hj)
      refine ⟨view, hview, hothers view (fun hc => heq ?_) hknown⟩
      exact hfresh j other view hj hview hc
  · intro j k t t' v v' d hj hk hv hv' hd hd'
    have hboth : ∀ {j k : ℕ} {t t' : Task Effect Answer Unit} {v v' : View},
        (pool.tasks.set i task')[j]? = some t → (pool.tasks.set i task')[k]? = some t' →
          Sees After t v → Sees After t' v' → v.caller = some d → v'.caller = some d →
            j = i → k = i := by
      intro j k t t' v v' hj hk hv hv' hd hd' heq
      by_contra hki
      rw [heq, hself] at hj
      rw [hne hki] at hk
      rw [← Option.some.inj hj] at hv
      rw [← Option.some.inj (hsees.symm.trans hv), hcaller] at hd
      rw [← Option.some.inj hd] at hd'
      exact hki (hfresh k t' v' hk hv' hd')
    by_cases hji : j = i
    · rw [hji, hboth hj hk hv hv' hd hd' hji]
    · by_cases hki : k = i
      · exact absurd (hboth hk hj hv' hv hd' hd hki) hji
      · rw [hne hji] at hj
        rw [hne hki] at hk
        exact h.distinct j k t t' v v' d hj hk hv hv' hd hd'
  · by_cases heq : other = c
    · exact ⟨task', List.mem_of_getElem? hself, view', hsees, heq ▸ hcaller⟩
    · rw [halive] at hother
      obtain ⟨t, ht, v, hv, hvc⟩ := h.owners other directory hother (howners other heq _ howner)
      obtain ⟨j, hj⟩ := List.mem_iff_getElem?.1 ht
      have hji : j ≠ i := by
        rintro rfl
        rw [htask] at hj
        rcases hbefore v (Option.some.inj hj ▸ hv) with hnone | hsome
        · exact Option.some_ne_none _ (hvc.symm.trans hnone)
        · exact heq (Option.some.inj (hvc.symm.trans hsome))
      exact ⟨t, List.mem_of_getElem? ((hne hji).trans hj), v, hv, hvc⟩

lemma sees_append (hsees : Sees After task view) {a : Answer e}
    (hnext : (lockProtocol After).next (some view) e a = some view') :
    Sees After ⟨task.log ++ [⟨e, a⟩], rest⟩ view' := by
  rw [Sees, Protocol.after_append, show (lockProtocol After).after task.log = some view from hsees]
  exact hnext

lemma Advances.knows (h : Advances c m m' view view') {other : View}
    (hother : other.caller ≠ some c) (hknows : Knows m other) : Knows m' other where
  sound := hknows.sound
  unstarted := hknows.unstarted
  started := fun d hd => by
    rw [h.started]
    exact hknows.started d hd
  fits := fun d hd halive directory => by
    rw [h.alive] at halive
    refine h.others d (fun heq => hother (heq ▸ hd)) directory _ ?_
    exact hknows.fits d hd halive directory

/-- A thread is started. -/
lemma Owns.start (h : Owns m c directory share) (started : List Caller) :
    Owns { m with started := started } c directory share :=
  ⟨h.state, h.opened, h.locked⟩

lemma Fits.start (h : Fits m c directory share) (started : List Caller) :
    Fits { m with started := started } c directory share := by
  rw [Fits] at h ⊢
  split at h
  · next hcount =>
    rw [if_pos hcount]
    exact h
  · next hcount =>
    rw [if_neg hcount]
    exact h.start started

lemma Machine.WellFormed.start (h : m.WellFormed) (c : Caller) :
    Machine.WellFormed { m with started := c :: m.started } where
  idle := fun d directory halive howner => (h.idle d directory halive howner).start _
  holder := h.holder
  started := fun d directory hd => List.mem_cons_of_mem _ (h.started d directory hd)

lemma Knows.start (h : Knows m view) (c : Caller) :
    Knows { m with started := c :: m.started } view where
  sound := h.sound
  unstarted := h.unstarted
  started := fun d hd => List.mem_cons_of_mem _ (h.started d hd)
  fits := fun d hd halive directory => (h.fits d hd halive directory).start _

/-- The invariant is kept by every step of a thread. -/
lemma LockInvariant.perform (h : LockInvariant After pool) {log : List ((e : Effect) × Answer e)}
    {next : Answer e → Locking Unit} (htask : pool.tasks[i]? = some ⟨log, .perform e next⟩)
    {a : Answer e} (hhappens : Happens pool.shared e a m') (hkeeps : Pool.Keeps (lockProtocol After)
      (Ends fun v _ => ∀ directory, v.share directory = .free)
      ⟨m', pool.tasks.set i ⟨log ++ [⟨e, a⟩], next a⟩⟩) :
    LockInvariant After ⟨m', pool.tasks.set i ⟨log ++ [⟨e, a⟩], next a⟩⟩ := by
  obtain ⟨view, hsees, hknows⟩ := h.knows _ (List.mem_of_getElem? htask)
  have hallowed := (h.keeps _ (List.mem_of_getElem? htask)).1 view hsees
  have hviews : ∀ v, Sees After ⟨log, .perform e next⟩ v → v = view := fun v hv =>
    Option.some.inj (hv.symm.trans hsees)
  cases hhappens with
  | start c halive hfresh =>
    have hnone : view.caller = none := hallowed
    refine h.replace htask hkeeps (h.wellFormed.start c) (sees_append hsees rfl) rfl
      ⟨⟨hknows.sound.inBlock, hknows.sound.opened⟩, ?_, ?_, ?_⟩
      (fun other _ hother => hother.start c) ?_ (fun v hv => .inl (hviews v hv ▸ hnone)) rfl
      fun _ _ _ howner => howner
    · exact fun hc => absurd hc (Option.some_ne_none _)
    · rintro d hd
      rw [← Option.some.inj hd]
      exact List.mem_cons_self
    · intro d hd _ directory
      obtain rfl := Option.some.inj hd
      have hfree : view.share directory = .free := hknows.unstarted hnone directory
      have hfits : Fits pool.shared c directory .free :=
        ⟨rfl, fun howner => hfresh (h.wellFormed.started c directory howner)⟩
      exact hfree ▸ hfits.start _
    · intro j other v hj hv hc
      obtain ⟨v', hv', hknown⟩ := h.knows other (List.mem_of_getElem? hj)
      rw [Option.some.inj (hv.symm.trans hv')] at hc
      exact absurd (hknown.started c hc) hfresh
  | act c action answer m' halive hacts =>
    obtain ⟨hcaller, hallows⟩ : view.caller = some c ∧ view.Allows After action := hallowed
    obtain ⟨view', hnext, hadvances⟩ := hacts.advances h.wellFormed halive
      (hknows.started c hcaller) (hknows.fits c hcaller halive) hallows
    have hcaller' : view'.caller = some c := hadvances.caller.trans hcaller
    refine h.replace htask hkeeps hadvances.wellFormed (sees_append hsees hnext) hcaller'
      ⟨hknows.sound.next hallows hnext, ?_, ?_, ?_⟩
      (fun other hother hknown => hadvances.knows hother hknown) ?_
      (fun v hv => .inr (hviews v hv ▸ hcaller)) hadvances.alive hadvances.owners
    · exact fun hnone => absurd (hcaller'.symm.trans hnone) (Option.some_ne_none _)
    · intro d hd
      rw [← Option.some.inj (hcaller'.symm.trans hd), hadvances.started]
      exact hknows.started c hcaller
    · intro d hd _ directory
      rw [← Option.some.inj (hcaller'.symm.trans hd)]
      exact hadvances.own directory
    · intro j other v hj hv hc
      exact h.distinct j i other _ v view c hj htask hv hsees hc hcaller

/-- The invariant holds in every pool that can be reached. -/
theorem Reachable.lockInvariant (h : Reachable After pool) : LockInvariant After pool := by
  induction h with
  | refl => exact lockInvariant_initial
  | tail _ hstep ih =>
    have hkeeps := ih.keeps.step (fun _ hentry => Thread.keeps hentry) hstep
    cases hstep with
    | spawn program hentry => exact ih.spawn hkeeps
    | perform i log e next htask a shared hhappens => exact ih.perform htask hhappens hkeeps
    | outside shared houtside =>
      obtain ⟨process, rfl⟩ := houtside
      exact ih.crash process hkeeps

/-! ## Exclusion -/

/-- How an action changes the number of blocks. -/
def blocksAfter (directory : String) (blocks : ℕ) : Action → ℕ
  | .enter other => if other = directory then blocks + 1 else blocks
  | .leave other => if other = directory then blocks - 1 else blocks
  | _ => blocks

lemma blocksOf_append (log : List ((e : Effect) × Answer e)) (action : Action)
    (answer : action.Answer) :
    blocksOf directory (log ++ [⟨.act c action, answer⟩]) =
      blocksAfter directory (blocksOf directory log) action := by
  rw [blocksOf, List.foldl_append]
  cases action <;> rfl

lemma View.next_caller_blocks {answer : action.Answer} (h : view.next action answer = some view') :
    view'.caller = view.caller ∧
      ∀ directory,
        view'.blocks directory = blocksAfter directory (view.blocks directory) action := by
  have hblocks : ∀ (directory other : String) (blocks : ℕ),
      Function.update view.blocks other blocks directory =
        if other = directory then blocks else view.blocks directory := by
    intro directory other blocks
    rw [Function.update_apply]
    exact if_congr eq_comm rfl rfl
  cases action with
  | getDepth other =>
    obtain rfl := Option.some.inj (Option.ite_none_right_eq_some.1 h).2
    exact ⟨rfl, fun _ => rfl⟩
  | getDescriptor other =>
    obtain rfl := Option.some.inj (Option.ite_none_right_eq_some.1 h).2
    exact ⟨rfl, fun _ => rfl⟩
  | openFile other => cases answer <;> exact Option.some.inj h ▸ ⟨rfl, fun _ => rfl⟩
  | lockFile other descriptor => cases answer <;> exact Option.some.inj h ▸ ⟨rfl, fun _ => rfl⟩
  | unlockFile other descriptor => cases answer <;> exact Option.some.inj h ▸ ⟨rfl, fun _ => rfl⟩
  | enter other =>
    refine Option.some.inj h ▸ ⟨rfl, fun directory => (hblocks directory other _).trans ?_⟩
    rw [blocksAfter]
    split
    · next heq => rw [heq]
    · rfl
  | leave other =>
    refine Option.some.inj h ▸ ⟨rfl, fun directory => (hblocks directory other _).trans ?_⟩
    rw [blocksAfter]
    split
    · next heq => rw [heq]
    · rfl
  | _ => exact Option.some.inj h ▸ ⟨rfl, fun _ => rfl⟩

/-- What the protocol knows of a task is what its log says. -/
lemma view_of_log : ∀ {log : List ((e : Effect) × Answer e)} {view : View},
    (lockProtocol After).after log = some view →
      view.caller = callerOf log ∧ ∀ directory, view.blocks directory = blocksOf directory log := by
  intro log
  induction log using List.reverseRecOn with
  | nil =>
    intro view h
    obtain rfl := Option.some.inj h
    exact ⟨rfl, fun _ => rfl⟩
  | append_singleton log entry ih =>
    intro view h
    obtain ⟨e, a⟩ := entry
    rw [Protocol.after_append] at h
    obtain ⟨before, hbefore, hnext⟩ := Option.bind_eq_some_iff.1 h
    obtain ⟨hcaller, hblocks⟩ := ih hbefore
    cases e with
    | start =>
      rw [← Option.some.inj hnext, callerOf, List.foldl_append]
      refine ⟨rfl, fun directory => ?_⟩
      rw [blocksOf, List.foldl_append]
      exact hblocks directory
    | act c action =>
      obtain ⟨hcaller', hblocks'⟩ := View.next_caller_blocks hnext
      rw [hcaller', hcaller, callerOf, callerOf, List.foldl_append]
      refine ⟨rfl, fun directory => ?_⟩
      rw [hblocks', hblocks]
      exact (blocksOf_append log action a).symm

/-- At most one thread is in a block of a directory. -/
theorem operationLock_exclusive (h : Reachable After pool) (directory : String) :
    ∀ i j, InBlock pool directory i → InBlock pool directory j → i = j := by
  have hinv := h.lockInvariant
  have hblock : ∀ {i : ℕ}, InBlock pool directory i → ∃ task view c, pool.tasks[i]? = some task ∧
      Sees After task view ∧ view.caller = some c ∧ Owns pool.shared c directory
        (view.share directory) ∧ 0 < (view.share directory).count ∧
        ∃ descriptor, pool.shared.locks directory = some (c.process, descriptor) := by
    rintro i ⟨task, c, htask, hcaller, halive, hpos⟩
    obtain ⟨view, hsees, hknows⟩ := hinv.knows task (List.mem_of_getElem? htask)
    obtain ⟨hview, hblocks⟩ := view_of_log hsees
    rw [hcaller] at hview
    rw [← hblocks] at hpos
    obtain ⟨hcount, hlocked⟩ := hknows.sound.inBlock directory hpos
    have howns := (hknows.fits c hview halive directory).owns hcount
    obtain ⟨descriptor, hopened⟩ := Option.isSome_iff_exists.1
      (hknows.sound.opened directory hlocked)
    exact ⟨task, view, c, htask, hsees, hview, howns, hcount, descriptor,
      (howns.locked descriptor).2 ⟨hlocked, hopened⟩⟩
  intro i j hi hj
  obtain ⟨task, view, c, htask, hsees, hc, howns, hcount, descriptor, hlock⟩ := hblock hi
  obtain ⟨task', view', c', htask', hsees', hc', howns', hcount', descriptor', hlock'⟩ := hblock hj
  have hprocess : c.process = c'.process :=
    (Prod.mk.inj (Option.some.inj (hlock.symm.trans hlock'))).1
  have hcallers : c = c' := by
    by_contra hne
    refine howns'.owner_ne hprocess hne ?_
    rw [howns.owner, if_neg (Nat.ne_of_gt hcount)]
  exact hinv.distinct i j task task' view view' c htask htask' hsees hsees' hc (hcallers ▸ hc')

/-! ## Nothing is left behind -/

/-- A thread that has ended has no share. -/
lemma LockInvariant.free_of_finished (h : LockInvariant After pool) (htask : task ∈ pool.tasks)
    (hsees : Sees After task view) (hfinished : task.rest.Finished) (directory : String) :
    view.share directory = .free := by
  obtain ⟨log, rest⟩ := task
  have hkeeps := h.keeps _ htask
  cases rest with
  | done a => exact hkeeps view hsees directory
  | fail code => exact hkeeps view hsees directory
  | perform e next => exact hfinished.elim

/-- The owner of a reentrant lock is a thread that knows it. -/
lemma LockInvariant.exists_owner (h : LockInvariant After pool)
    (halive : pool.shared.alive c.process = true)
    (howner : (pool.shared.states c.process directory).owner = some c.thread) :
    ∃ task view, task ∈ pool.tasks ∧ Sees After task view ∧ view.caller = some c ∧
      Knows pool.shared view ∧ 0 < (view.share directory).count := by
  obtain ⟨task, htask, view, hsees, hc⟩ := h.owners c directory halive howner
  obtain ⟨view', hsees', hknows⟩ := h.knows task htask
  rw [← Option.some.inj (hsees.symm.trans hsees')] at hknows
  refine ⟨task, view, htask, hsees, hc, hknows, Nat.pos_of_ne_zero fun hzero => ?_⟩
  have hfits := hknows.fits c hc halive directory
  rw [Fits, if_pos hzero] at hfits
  exact hfits.2 howner

/-- Where all threads of a living process have ended, however they did, its locks are as at first,
and none of its descriptors is of a lock file. -/
theorem operationLock_released (h : Reachable After pool) {process : ℕ}
    (halive : pool.shared.alive process = true)
    (hended : ∀ task ∈ pool.tasks, ∀ c, callerOf task.log = some c → c.process = process →
      task.rest.Finished) (directory : String) :
    pool.shared.states process directory = .initial ∧
      (∀ descriptor, pool.shared.opened process descriptor ≠ some directory) ∧
      ∀ descriptor, pool.shared.locks directory ≠ some (process, descriptor) := by
  have hinv := h.lockInvariant
  have hnone : (pool.shared.states process directory).owner = none := by
    by_contra howner
    obtain ⟨thread, hthread⟩ := Option.ne_none_iff_exists'.1 howner
    obtain ⟨task, view, htask, hsees, hc, -, hcount⟩ :=
      hinv.exists_owner (c := ⟨process, thread⟩) halive hthread
    have hcaller : callerOf task.log = some ⟨process, thread⟩ := by
      rw [← (view_of_log hsees).1, hc]
    rw [hinv.free_of_finished htask hsees (hended task htask _ hcaller rfl)] at hcount
    exact absurd hcount (Nat.lt_irrefl 0)
  have howns := hinv.wellFormed.idle ⟨process, 0⟩ directory halive hnone
  refine ⟨howns.state, fun descriptor hopened => ?_, fun descriptor hlock => ?_⟩
  · exact absurd ((howns.opened descriptor).1 hopened).symm (Option.some_ne_none _)
  · exact Bool.false_ne_true ((howns.locked descriptor).1 hlock).1

/-! ## Progress -/

/-- The effect is not one that has failed to lock or unlock a file. -/
def Succeeds : (e : Effect) → Answer e → Prop
  | .act _ (.lockFile ..), locked => locked = true
  | .act _ (.unlockFile ..), unlocked => unlocked = true
  | _, _ => True

/-- The thread can perform its next effect. -/
def CanStep (pool : LockPool) (i : ℕ) : Prop :=
  ∃ log e, ∃ next : Answer e → Locking Unit, ∃ a m',
    pool.tasks[i]? = some ⟨log, .perform e next⟩ ∧ Happens pool.shared e a m' ∧ Succeeds e a

/-- The actions that wait for another thread. -/
inductive Waits (m : Machine) (c : Caller) : Action → Prop where
  | acquireThread (directory : String) (thread : ℕ)
      (howner : (m.states c.process directory).owner = some thread) (hne : thread ≠ c.thread) :
      Waits m c (.acquireThread directory)
  | lockFile (directory : String) (descriptor process descriptor' : ℕ)
      (hlock : m.locks directory = some (process, descriptor')) :
      Waits m c (.lockFile directory descriptor)

/-- All other actions can happen. -/
lemma acts_or_waits (hallows : view.Allows After action)
    (hfits : ∀ directory, Fits m c directory (view.share directory)) :
    (∃ answer m', Acts m c action answer m' ∧ Succeeds (.act c action) answer) ∨
      Waits m c action := by
  cases action with
  | validate directory => exact .inl ⟨.ok (), m, .validate directory _, trivial⟩
  | acquireThread directory =>
    cases howner : (m.states c.process directory).owner with
    | none => exact .inl ⟨_, _, .acquireThread directory (.inl howner), trivial⟩
    | some thread =>
      by_cases heq : thread = c.thread
      · exact .inl ⟨_, _, .acquireThread directory (.inr (heq ▸ howner)), trivial⟩
      · exact .inr (.acquireThread directory thread howner heq)
  | releaseThread directory =>
    have howner := ((hfits directory).owns hallows.1).owner
    rw [if_neg (Nat.ne_of_gt hallows.1)] at howner
    exact .inl ⟨_, _, .releaseThread directory howner, trivial⟩
  | getDepth directory => exact .inl ⟨_, m, .getDepth directory, trivial⟩
  | setDepth directory depth => exact .inl ⟨_, _, .setDepth directory depth, trivial⟩
  | getDescriptor directory => exact .inl ⟨_, m, .getDescriptor directory, trivial⟩
  | setDescriptor directory descriptor =>
    exact .inl ⟨_, _, .setDescriptor directory descriptor, trivial⟩
  | openFile directory => exact .inl ⟨_, m, .notOpened directory "", trivial⟩
  | closeFile directory descriptor =>
    obtain ⟨hcount, hopened, hsome, -⟩ := hallows
    obtain ⟨descriptor, rfl⟩ := Option.isSome_iff_exists.1 hsome
    exact .inl ⟨_, _, .closeFile directory descriptor
      ((((hfits directory).owns hcount).opened descriptor).2 hopened), trivial⟩
  | lockFile directory descriptor =>
    obtain ⟨hcount, hopened, -, -⟩ := hallows
    cases hlock : m.locks directory with
    | none =>
      exact .inl ⟨true, _, .lockFile directory descriptor
        ((((hfits directory).owns hcount).opened descriptor).2 hopened) (.inl hlock), rfl⟩
    | some holder => exact .inr (.lockFile directory descriptor holder.1 holder.2 hlock)
  | unlockFile directory descriptor =>
    obtain ⟨hcount, hopened, hsome, -⟩ := hallows
    obtain ⟨descriptor, rfl⟩ := Option.isSome_iff_exists.1 hsome
    exact .inl ⟨true, _, .unlockFile directory descriptor
      ((((hfits directory).owns hcount).opened descriptor).2 hopened), rfl⟩
  | enter directory => exact .inl ⟨_, m, .enter directory, trivial⟩
  | leave directory => exact .inl ⟨_, m, .leave directory, trivial⟩
  | work name => exact .inl ⟨"", m, .work name "", trivial⟩

/-- A thread that has not ended can do its next effect, or waits. -/
lemma LockInvariant.canStep_or_waits (h : LockInvariant After pool)
    (htask : pool.tasks[i]? = some task) (hsees : Sees After task view)
    (hknows : Knows pool.shared view) (hcaller : view.caller = some c)
    (halive : pool.shared.alive c.process = true) (hrest : ¬ task.rest.Finished) :
    CanStep pool i ∨ ∃ action, view.Allows After action ∧ Waits pool.shared c action := by
  obtain ⟨log, rest⟩ := task
  cases rest with
  | done a => exact (hrest trivial).elim
  | fail code => exact (hrest trivial).elim
  | perform e next =>
    have hallowed := (h.keeps _ (List.mem_of_getElem? htask)).1 view hsees
    cases e with
    | start => exact absurd (hcaller.symm.trans hallowed) (Option.some_ne_none _)
    | act d action =>
      obtain ⟨hd, hallows⟩ : view.caller = some d ∧ view.Allows After action := hallowed
      obtain rfl : c = d := Option.some.inj (hcaller.symm.trans hd)
      rcases acts_or_waits hallows (hknows.fits c hcaller halive) with hacts | hwaits
      · obtain ⟨answer, m', hacts, hsucceeds⟩ := hacts
        exact .inl ⟨log, _, next, answer, m', htask, .act c action answer m' halive hacts,
          hsucceeds⟩
      · exact .inr ⟨action, hallows, hwaits⟩

/-- A thread that has a share has not ended. -/
lemma LockInvariant.not_finished (h : LockInvariant After pool) (htask : task ∈ pool.tasks)
    (hsees : Sees After task view) (hcount : 0 < (view.share directory).count) :
    ¬ task.rest.Finished := by
  intro hfinished
  rw [h.free_of_finished htask hsees hfinished directory] at hcount
  exact absurd hcount (Nat.lt_irrefl 0)

/-- Who waits has no other directory. -/
lemma waits_for (hallows : view.Allows Eq (.acquireThread directory) ∨
      ∃ descriptor, view.Allows Eq (.lockFile directory descriptor)) {other : String}
    (hcount : 0 < (view.share other).count) : other = directory := by
  by_contra hne
  rcases hallows with hallows | ⟨descriptor, hallows⟩
  · exact hne (hallows other hne hcount)
  · exact hne (hallows.2.2.2 other hne hcount)

/-- The holder of the lock of a file does not wait. -/
lemma LockInvariant.canStep_of_locked (h : LockInvariant Eq pool) {descriptor : ℕ}
    (hlock : pool.shared.locks directory = some (process, descriptor)) : ∃ i, CanStep pool i := by
  obtain ⟨halive, hopened⟩ := h.wellFormed.holder directory process descriptor hlock
  have howner : (pool.shared.states process directory).owner ≠ none := fun hnone => by
    have howns := h.wellFormed.idle ⟨process, 0⟩ directory halive hnone
    exact absurd ((howns.opened descriptor).1 hopened).symm (Option.some_ne_none _)
  obtain ⟨thread, hthread⟩ := Option.ne_none_iff_exists'.1 howner
  obtain ⟨task, view, htask, hsees, hc, hknows, hcount⟩ :=
    h.exists_owner (c := ⟨process, thread⟩) halive hthread
  obtain ⟨i, hi⟩ := List.mem_iff_getElem?.1 htask
  rcases h.canStep_or_waits hi hsees hknows hc halive (h.not_finished htask hsees hcount) with
    hstep | ⟨action, hallows, hwaits⟩
  · exact ⟨i, hstep⟩
  · exfalso
    cases hwaits with
    | acquireThread other thread' howner' hne =>
      rw [← waits_for (.inl hallows) hcount] at howner'
      exact hne (Option.some.inj (howner'.symm.trans hthread))
    | lockFile other descriptor' process' descriptor'' hlock' =>
      have heq := waits_for (.inr ⟨_, hallows⟩) hcount
      have howns := (hknows.fits _ hc halive directory).owns hcount
      have hlocked := ((howns.locked descriptor).1 hlock).1
      rw [heq] at hlocked
      exact Bool.false_ne_true (hallows.2.2.1.symm.trans hlocked)

/-- The owner of a reentrant lock can go on, or another thread can. -/
lemma LockInvariant.canStep_of_owner (h : LockInvariant Eq pool) {thread : ℕ}
    (halive : pool.shared.alive process = true)
    (howner : (pool.shared.states process directory).owner = some thread) :
    ∃ i, CanStep pool i := by
  obtain ⟨task, view, htask, hsees, hc, hknows, hcount⟩ :=
    h.exists_owner (c := ⟨process, thread⟩) halive howner
  obtain ⟨i, hi⟩ := List.mem_iff_getElem?.1 htask
  rcases h.canStep_or_waits hi hsees hknows hc halive (h.not_finished htask hsees hcount) with
    hstep | ⟨action, hallows, hwaits⟩
  · exact ⟨i, hstep⟩
  · cases hwaits with
    | acquireThread other thread' howner' hne =>
      rw [← waits_for (.inl hallows) hcount] at howner'
      exact absurd (Option.some.inj (howner'.symm.trans howner)) hne
    | lockFile other descriptor process' descriptor' hlock => exact h.canStep_of_locked hlock

lemma exists_fresh (started : List Caller) (process : ℕ) :
    ∃ thread, (⟨process, thread⟩ : Caller) ∉ started := by
  have hbound : ∃ bound, ∀ c ∈ started, c.thread < bound := by
    induction started with
    | nil => exact ⟨0, fun _ h => absurd h List.not_mem_nil⟩
    | cons c started ih =>
      obtain ⟨bound, hbound⟩ := ih
      refine ⟨max bound (c.thread + 1), fun d hd => ?_⟩
      rcases List.mem_cons.1 hd with rfl | hd
      · omega
      · have hlt := hbound d hd
        omega
  obtain ⟨bound, hbound⟩ := hbound
  exact ⟨bound, fun hmem => Nat.lt_irrefl _ (hbound _ hmem)⟩

/-- Where no thread takes the lock of a directory in a block of another one, the threads never wait
for each other: as long as one has not ended, some thread can go on. -/
theorem operationLock_progress (h : Reachable Eq pool)
    (hprocess : ∃ process, pool.shared.alive process = true) {task : Task Effect Answer Unit}
    (htask : task ∈ pool.tasks) (hrest : ¬ task.rest.Finished)
    (halive : ∀ c, callerOf task.log = some c → pool.shared.alive c.process = true) :
    ∃ i, CanStep pool i := by
  have hinv := h.lockInvariant
  obtain ⟨i, hi⟩ := List.mem_iff_getElem?.1 htask
  obtain ⟨view, hsees, hknows⟩ := hinv.knows task htask
  have hcaller := (view_of_log hsees).1
  cases hc : view.caller with
  | some c =>
    have hcalive := halive c (hcaller.symm.trans hc)
    rcases hinv.canStep_or_waits hi hsees hknows hc hcalive hrest with
      hstep | ⟨action, -, hwaits⟩
    · exact ⟨i, hstep⟩
    · cases hwaits with
      | acquireThread directory thread howner _ => exact hinv.canStep_of_owner hcalive howner
      | lockFile directory descriptor process descriptor' hlock =>
        exact hinv.canStep_of_locked hlock
  | none =>
    obtain ⟨log, rest⟩ := task
    cases rest with
    | done a => exact (hrest trivial).elim
    | fail code => exact (hrest trivial).elim
    | perform e next =>
      have hallowed := (hinv.keeps _ htask).1 view hsees
      cases e with
      | start =>
        obtain ⟨process, hprocess⟩ := hprocess
        obtain ⟨thread, hfresh⟩ := exists_fresh pool.shared.started process
        exact ⟨i, log, .start, next, ⟨process, thread⟩, _, hi,
          .start ⟨process, thread⟩ hprocess hfresh, trivial⟩
      | act d action => exact absurd (hallowed.1.symm.trans hc) (Option.some_ne_none _)

/-! ### Threads with an empty block -/

/-- A thread with an empty block. -/
def soleBlock (c : Caller) : Locking Unit :=
  (repositoryOperationLock c "cache" (.done ())).attempt >>= fun _ => .done ()

def soleCaller : Caller := ⟨0, 0⟩

lemma thread_soleBlock : Thread Eq (.perform .start soleBlock) :=
  ⟨soleBlock, fun _ => .block "cache" (.done ()) _ (fun _ h => absurd h List.not_mem_nil) (.done ())
    fun _ => .done (), rfl⟩

/-- A new thread performs some of its effects. -/
lemma Reachable.performs {m m' : Machine} {tasks : List (Task Effect Answer Unit)}
    {log : List ((e : Effect) × Answer e)} (hreachable : Reachable Eq ⟨m, tasks⟩)
    (h : Performs (lockRules Eq) m (.perform .start soleBlock) log m' rest) :
    Reachable Eq ⟨m', tasks ++ [⟨log, rest⟩]⟩ := by
  have htask : (tasks ++ [⟨[], .perform .start soleBlock⟩])[tasks.length]? =
      some ⟨[], .perform .start soleBlock⟩ :=
    List.getElem?_concat_length
  have hsteps := h.steps htask
  rw [List.set_append_right _ _ (Nat.le_refl _), Nat.sub_self] at hsteps
  exact (hreachable.tail (.spawn _ thread_soleBlock)).trans hsteps

/-- A thread of another process, and another thread of the same process. -/
def otherProcess : Caller := ⟨1, 0⟩

def otherThread : Caller := ⟨0, 1⟩

/-- The thread cannot go on until another one has. -/
def IsWaiting (pool : LockPool) (i : ℕ) : Prop :=
  ∃ log c action, ∃ next : action.Answer → Locking Unit,
    pool.tasks[i]? = some ⟨log, .perform (.act c action) next⟩ ∧ callerOf log = some c ∧
      pool.shared.alive c.process = true ∧
      ∀ answer m', Acts pool.shared c action answer m' → ¬ Succeeds (.act c action) answer

lemma IsWaiting.not_canStep (h : IsWaiting pool i) : ¬ CanStep pool i := by
  obtain ⟨log, c, action, next, htask, -, -, hwaits⟩ := h
  rintro ⟨log', e, next', a, m', htask', hhappens, hsucceeds⟩
  cases htask.symm.trans htask'
  cases hhappens with
  | act _ _ _ _ _ hacts => exact hwaits a m' hacts hsucceeds

/-- The first thread goes into its block, the second one waits for the lock of the file, and the
third one for the reentrant lock. -/
lemma exists_waiting : ∃ pool, Reachable Eq pool ∧ pool.tasks.length = 3 ∧
    InBlock pool "cache" 0 ∧ IsWaiting pool 1 ∧ IsWaiting pool 2 := by
  have hinBlock := Reachable.performs .refl <|
    .cons (.start soleCaller rfl List.not_mem_nil) <|
    .cons (.act _ _ _ _ rfl (.validate _ (.ok ()))) <|
    .cons (.act _ _ _ _ rfl (.acquireThread _ (.inl rfl))) <|
    .cons (.act _ _ _ _ rfl (.getDepth _)) <|
    .cons (.act _ _ _ _ rfl (.openFile _ 3 rfl)) <|
    .cons (.act _ _ _ _ rfl (.lockFile _ 3 rfl (.inl rfl))) <|
    .cons (.act _ _ _ _ rfl (.setDescriptor _ _)) <|
    .cons (.act _ _ _ _ rfl (.getDepth _)) <|
    .cons (.act _ _ _ _ rfl (.setDepth _ _)) <|
    .cons (.act _ _ _ _ rfl (.enter _)) <| .nil _ _
  have hfile := hinBlock.performs <|
    .cons (.start otherProcess rfl (by decide)) <|
    .cons (.act _ _ _ _ rfl (.validate _ (.ok ()))) <|
    .cons (.act _ _ _ _ rfl (.acquireThread _ (.inl rfl))) <|
    .cons (.act _ _ _ _ rfl (.getDepth _)) <|
    .cons (.act _ _ _ _ rfl (.openFile _ 4 rfl)) <| .nil _ _
  have hthread := hfile.performs <|
    .cons (.start otherThread rfl (by decide)) <|
    .cons (.act _ _ _ _ rfl (.validate _ (.ok ()))) <| .nil _ _
  refine ⟨_, hthread, rfl, ⟨_, soleCaller, rfl, rfl, rfl, Nat.one_pos⟩,
    ⟨_, otherProcess, .lockFile "cache" 4, _, rfl, rfl, rfl, ?_⟩,
    ⟨_, otherThread, .acquireThread "cache", _, rfl, rfl, rfl, ?_⟩⟩
  · intro answer m' hacts hsucceeds
    cases hacts with
    | lockFile _ _ _ hfree => rcases hfree with hfree | hfree <;> cases hfree
    | notLocked => cases hsucceeds
  · intro answer m' hacts
    cases hacts with
    | acquireThread _ hfree => rcases hfree with hfree | hfree <;> cases hfree

theorem operationLock_exclusive_waiting : ∃ pool, Reachable Eq pool ∧
    InBlock pool "cache" 0 ∧ IsWaiting pool 1 ∧ IsWaiting pool 2 ∧
    ∀ i, InBlock pool "cache" i → i = 0 := by
  obtain ⟨pool, hreachable, -, hblock, hfile, hthread⟩ := exists_waiting
  exact ⟨pool, hreachable, hblock, hfile, hthread,
    fun i hi => operationLock_exclusive hreachable "cache" i 0 hi hblock⟩

/-- As two of the three threads wait, it is the one in the block that goes on. -/
theorem operationLock_progress_waiting : ∃ pool, Reachable Eq pool ∧
    IsWaiting pool 1 ∧ IsWaiting pool 2 ∧ CanStep pool 0 := by
  obtain ⟨pool, hreachable, hlength, -, hfile, hthread⟩ := exists_waiting
  obtain ⟨log, c, action, next, htask, hcaller, halive, -⟩ := id hfile
  obtain ⟨i, hstep⟩ := operationLock_progress hreachable ⟨_, halive⟩ (List.mem_of_getElem? htask) id
    fun d hd => by rwa [← Option.some.inj (hcaller.symm.trans hd)]
  obtain ⟨_, _, _, _, _, hi, -⟩ := id hstep
  have hlt : i < 3 := hlength ▸ (List.getElem?_eq_some_iff.1 hi).1
  refine ⟨pool, hreachable, hfile, hthread, ?_⟩
  obtain rfl | rfl | rfl : i = 0 ∨ i = 1 ∨ i = 2 := by omega
  · exact hstep
  · exact absurd hstep hfile.not_canStep
  · exact absurd hstep hthread.not_canStep

/-- The thread ends, although the lock of its file could not be given up. -/
lemma exists_ended : ∃ pool, Reachable Eq pool ∧ pool.shared.alive 0 = true ∧
    pool.tasks.length = 1 ∧ ∀ task ∈ pool.tasks, ∀ c, callerOf task.log = some c →
      c.process = 0 → task.rest.Finished :=
  ⟨_, Reachable.performs .refl <|
    .cons (.start soleCaller rfl List.not_mem_nil) <|
    .cons (.act _ _ _ _ rfl (.validate _ (.ok ()))) <|
    .cons (.act _ _ _ _ rfl (.acquireThread _ (.inl rfl))) <|
    .cons (.act _ _ _ _ rfl (.getDepth _)) <|
    .cons (.act _ _ _ _ rfl (.openFile _ 3 rfl)) <|
    .cons (.act _ _ _ _ rfl (.lockFile _ 3 rfl (.inl rfl))) <|
    .cons (.act _ _ _ _ rfl (.setDescriptor _ _)) <|
    .cons (.act _ _ _ _ rfl (.getDepth _)) <|
    .cons (.act _ _ _ _ rfl (.setDepth _ _)) <|
    .cons (.act _ _ _ _ rfl (.enter _)) <|
    .cons (.act _ _ _ _ rfl (.leave _)) <|
    .cons (.act _ _ _ _ rfl (.getDepth _)) <|
    .cons (.act _ _ _ _ rfl (.setDepth _ _)) <|
    .cons (.act _ _ _ _ rfl (.getDepth _)) <|
    .cons (.act _ _ _ _ rfl (.getDescriptor _)) <|
    .cons (.act _ _ _ _ rfl (.notUnlocked _ _)) <|
    .cons (.act _ _ _ _ rfl (.getDescriptor _)) <|
    .cons (.act _ _ _ _ rfl (.closeFile _ 3 rfl)) <|
    .cons (.act _ _ _ _ rfl (.setDescriptor _ _)) <|
    .cons (.act _ _ _ _ rfl (.releaseThread _ rfl)) <| .nil _ _, rfl, rfl,
    List.forall_mem_singleton.2 fun _ _ _ => trivial⟩

theorem operationLock_released_soleBlock : ∃ pool, Reachable Eq pool ∧ pool.tasks.length = 1 ∧
    ∀ directory, pool.shared.states 0 directory = .initial ∧
      (∀ descriptor, pool.shared.opened 0 descriptor ≠ some directory) ∧
      ∀ descriptor, pool.shared.locks directory ≠ some (0, descriptor) := by
  obtain ⟨pool, hreachable, halive, hlength, hended⟩ := exists_ended
  exact ⟨pool, hreachable, hlength, operationLock_released hreachable halive hended⟩

end

end OperationLock

end MercuryTools.Local
