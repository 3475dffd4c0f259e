import MercuryTools.Mcp.PublicationHistory

/-!
# Publishing, reconciling and clearing side by side

Any number of calls work on one publisher.  A request takes its generation before it waits for the
lock, and `clear` does not wait for it.

The registered tools are always those of the last committed request, or none where `clear` came
after it.  A request that was waiting when `clear` came is still carried out, however, and a
request may be dropped in favour of a newer one that is cancelled or fails.  Two runs at the end
show both.
-/

namespace MercuryTools.Mcp

open Programs

variable {Q T : Type}

/-! ## Where a call is -/

/-- A call has made no request, waits with one, or is past its turn. -/
inductive PublisherLocal (T : Type) where
  | idle
  | waiting (generation : Nat) (staged : Staged T)
  | ended

def PublisherLocal.held : PublisherLocal T → Option Nat
  | .waiting generation _ => some generation
  | _ => none

def PublisherLocal.next : PublisherLocal T → (e : PublisherEffect Q T) → e.Answer →
    PublisherLocal T
  | .idle, .request staged, generation => .waiting generation staged
  | .waiting _ _, .acquire _, .error _ => .ended
  | .waiting _ _, .turn _ _, _ => .ended
  | l, _, _ => l

/-- A request is made once, and its turn is taken with what it has staged. -/
def PublisherLocal.Allowed : PublisherLocal T → PublisherEffect Q T → Prop
  | .idle, .request _ => True
  | .waiting generation _, .acquire generation' => generation' = generation
  | .waiting generation staged, .turn generation' staged' =>
      generation' = generation ∧ staged' = staged
  | _, .request _ | _, .acquire _ | _, .turn _ _ => False
  | _, _ => True

def publisherProtocol :
    Protocol (PublisherEffect Q T) PublisherEffect.Answer (PublisherLocal T) where
  start := .idle
  allowed := PublisherLocal.Allowed
  next := PublisherLocal.next

section

variable (env : PublisherEnvironment Q T)

lemma keeps_lift {α : Type} {outcome : Except String α} {l : PublisherLocal T}
    {R : PublisherLocal T → Option α → Prop} (hok : ∀ a, R l (some a)) (hfail : R l none) :
    Keeps (publisherProtocol (Q := Q)) R (lift outcome : PublisherProgram Q T α) l := by
  cases outcome with
  | ok a => exact hok a
  | error code => exact hfail

lemma keeps_afterTurn (turn : PublisherState.Turn) :
    Keeps (publisherProtocol (T := T)) (fun _ _ => True)
      (afterTurn turn : PublisherProgram Q T Bool) .ended := by
  have hnotified : ∀ changed : Bool, Keeps (publisherProtocol (T := T)) (fun _ _ => True)
      (do
        let notified ← (PublisherEffect.notify : PublisherEffect Q T).run
        (PublisherEffect.release : PublisherEffect Q T).run
        lift notified
        return changed) .ended := by
    intro changed
    refine keeps_perform.2 ⟨trivial, fun notified => keeps_perform.2 ⟨trivial, fun _ => ?_⟩⟩
    show Keeps _ _ (lift notified >>= fun _ => return changed) _
    exact Keeps.bind (Q := fun _ _ => True) (keeps_lift (fun _ => trivial) trivial)
      (fun _ _ _ => trivial) fun _ _ => trivial
  cases turn with
  | dropped => exact keeps_perform.2 ⟨trivial, fun _ => trivial⟩
  | raised code => exact keeps_perform.2 ⟨trivial, fun _ => trivial⟩
  | unchanged => exact hnotified false
  | changed => exact hnotified true

lemma keeps_publish (qualifications : List Q) :
    Keeps publisherProtocol (fun _ _ => True) (publish env qualifications) .idle := by
  unfold publish
  refine Keeps.bind (Q := fun l _ => l = .idle) (keeps_lift (fun _ => rfl) rfl) ?_
    fun _ _ => trivial
  rintro _ staged rfl
  refine keeps_perform.2 ⟨trivial, fun generation => keeps_perform.2 ⟨rfl, fun acquired => ?_⟩⟩
  cases acquired with
  | error code => exact trivial
  | ok _ => exact keeps_perform.2 ⟨⟨rfl, rfl⟩, keeps_afterTurn⟩

lemma keeps_settle (quarantined current : List Q) :
    Keeps publisherProtocol (fun l _ => l = .idle) (settle env quarantined current) .idle := by
  induction quarantined generalizing current with
  | nil => rfl
  | cons qualification rest ih =>
      unfold settle
      split
      · exact ih current
      split
      · exact ih current
      · refine keeps_perform.2 ⟨trivial, fun persisted => ?_⟩
        cases persisted with
        | persisted current => exact ih current
        | cancelled => rfl
        | failed =>
            refine keeps_perform.2 ⟨trivial, fun alerted => ?_⟩
            show Keeps _ _ (lift alerted >>= fun _ => settle env rest current) _
            refine Keeps.bind (Q := fun l _ => l = .idle) (keeps_lift (fun _ => rfl) rfl) ?_
              fun _ hl => hl
            rintro _ _ rfl
            exact ih current

lemma keeps_reconcile (qualifications : List Q) :
    Keeps publisherProtocol (fun _ _ => True) (reconcile env qualifications) .idle := by
  refine keeps_perform.2 ⟨trivial, fun quarantined => ?_⟩
  refine (keeps_settle env quarantined qualifications).bind ?_ fun _ _ => trivial
  rintro _ current rfl
  exact keeps_publish env current

lemma keeps_clear :
    Keeps publisherProtocol (fun _ _ => True) (clear : PublisherProgram Q T Bool) .idle :=
  keeps_perform.2 ⟨trivial, fun _ => trivial⟩

lemma keeps_entry {program : PublisherProgram Q T Bool} (h : (publisherRules env).entry program) :
    Keeps publisherProtocol (fun _ _ => True) program .idle := by
  rcases h with rfl | ⟨qualifications, rfl | rfl⟩
  · exact keeps_clear
  · exact keeps_publish env qualifications
  · exact keeps_reconcile env qualifications

end

/-! ## What one effect preserves -/

/-- The registry and the identities are those of the authority. -/
structure Sound (identity : T → String) (s : PublisherState T) : Prop where
  legal : Legal identity s.history
  generation : s.requestedGeneration = (requests s.history).length
  registered : ∀ name staged, s.published.tools.get name = some (.generated staged) ↔
    (authority s.history).get name = some staged
  identities : ∀ name, s.published.identities.get name =
    ((authority s.history).get name).map identity

/-- The request of a call waits. -/
def PublisherLocal.Holds (l : PublisherLocal T) (s : PublisherState T) : Prop :=
  ∀ generation staged, l = .waiting generation staged →
    generation ∈ Mcp.waiting s.history ∧ .requested generation staged ∈ s.history

/-- How an effect of a call concerns the others. -/
structure Advances (s s' : PublisherState T) (l l' : PublisherLocal T) : Prop where
  history : s.history <+: s'.history
  holds : l'.Holds s'
  others : ∀ generation ∈ waiting s.history, l.held ≠ some generation →
    generation ∈ waiting s'.history
  fresh : ∀ generation, l'.held = some generation →
    l.held = some generation ∨ generation ∉ requests s.history

section

variable {identity : T → String} {s s' : PublisherState T} {l l' : PublisherLocal T}
  {entry : Entry T}

lemma PublisherLocal.holds_of_held (h : l.held = none) (s : PublisherState T) : l.Holds s := by
  rintro generation staged rfl
  cases h

/-- What does not touch the history. -/
lemma Advances.same (hholds : l.Holds s) (h : s'.history = s.history) : Advances s s' l l where
  history := h ▸ List.prefix_refl _
  holds := fun generation staged heq => h ▸ hholds generation staged heq
  others := fun _ hmem _ => h ▸ hmem
  fresh := fun _ hheld => .inl hheld

/-- A call that brings its request to its end. -/
lemma Advances.ended (hentry : entry.ended? = l.held) (hheld : l'.held = none)
    (h : s'.history = s.history ++ [entry]) : Advances s s' l l' where
  history := h ▸ List.prefix_append _ _
  holds := l'.holds_of_held hheld s'
  others := fun _ hmem hne => h ▸ Legal.mem_waiting_concat_of_ne hmem (hentry ▸ hne)
  fresh := fun _ heq => by rw [hheld] at heq; cases heq

lemma Advances.cleared (hholds : l.Holds s) (h : s'.history = s.history ++ [.cleared]) :
    Advances s s' l l where
  history := h ▸ List.prefix_append _ _
  holds := fun generation staged heq => by
    obtain ⟨hmem, hrequested⟩ := hholds generation staged heq
    rw [h]
    exact ⟨Legal.mem_waiting_concat_of_ne hmem (Option.some_ne_none _).symm,
      List.mem_append_left _ hrequested⟩
  others := fun _ hmem _ => h ▸ Legal.mem_waiting_concat_of_ne hmem (Option.some_ne_none _).symm
  fresh := fun _ hheld => .inl hheld

variable (entry) in
/-- An entry that leaves the authority. -/
lemma Sound.record (h : Sound identity s) (hfollows : Legal.Follows identity s.history entry)
    (hauthority : authority (s.history ++ [entry]) = authority s.history)
    (hhistory : s'.history = s.history ++ [entry])
    (htools : ∀ name, s'.published.tools.get name = s.published.tools.get name)
    (hidentities : s'.published.identities = s.published.identities)
    (hgeneration : s'.requestedGeneration = (requests s'.history).length) : Sound identity s' where
  legal := hhistory ▸ .concat h.legal hfollows
  generation := hgeneration
  registered := fun name staged => by rw [htools, hhistory, hauthority, h.registered]
  identities := fun name => by rw [hidentities, hhistory, hauthority, h.identities]

lemma Sound.same (h : Sound identity s) (hhistory : s'.history = s.history)
    (hpublished : s'.published = s.published)
    (hgeneration : s'.requestedGeneration = s.requestedGeneration) : Sound identity s' where
  legal := hhistory ▸ h.legal
  generation := by rw [hgeneration, hhistory, h.generation]
  registered := by rw [hpublished, hhistory]; exact h.registered
  identities := by rw [hpublished, hhistory]; exact h.identities

/-- A tool that is registered though it is not published is not a generated one. -/
lemma Sound.not_generated (h : Sound identity s) {name : String}
    (hmem : name ∉ s.published.identities.keys) (staged : T) :
    s.published.tools.get name ≠ some (.generated staged) := by
  intro hget
  have hidentity := h.identities name
  rw [(h.registered name staged).1 hget, Dict.get_eq_none.2 hmem] at hidentity
  cases hidentity

lemma Sound.clear (h : Sound identity s) : Sound identity s.clear.2 where
  legal := .concat h.legal trivial
  generation := by
    rw [PublisherState.clear, PublisherState.record, requests_concat]
    simpa [Entry.request?] using h.generation
  registered := fun name staged => by
    rw [PublisherState.clear, PublisherState.record, authority_concat]
    dsimp only
    rw [get_removeAll]
    split
    · exact ⟨fun heq => absurd heq (by simp), fun heq => absurd heq (by simp [Dict.get])⟩
    · rename_i hmem
      exact ⟨fun heq => absurd heq (h.not_generated hmem staged),
        fun heq => absurd heq (by simp [Dict.get])⟩
  identities := fun name => by
    rw [PublisherState.clear, PublisherState.record, authority_concat]
    rfl

/-- The turn of a request. -/
lemma Sound.turn (h : Sound identity s) {generation : Nat} {staged : Staged T}
    (hmem : generation ∈ waiting s.history) (hrequested : .requested generation staged ∈ s.history)
    (registration : String → Registration) :
    Sound identity (s.turn identity registration generation staged).2 ∧
      ∃ entry, entry.ended? = some generation ∧
        (s.turn identity registration generation staged).2.history = s.history ++ [entry] := by
  unfold PublisherState.turn
  by_cases hlt : generation < s.requestedGeneration
  · rw [if_pos hlt]
    refine ⟨h.record (.dropped generation) ⟨hmem, h.generation ▸ hlt⟩ (authority_concat _ _)
      rfl (fun _ => rfl) rfl ?_, _, rfl, rfl⟩
    rw [PublisherState.record, requests_concat]
    simpa [Entry.request?] using h.generation
  · rw [if_neg hlt]
    have hle := (h.legal.mem_requests.1 (mem_waiting.1 hmem).1).2
    have hnewest : generation = (requests s.history).length :=
      le_antisymm hle (h.generation ▸ not_lt.1 hlt)
    rcases swap_cases identity registration s.published staged with
      ⟨heq, hsame⟩ | ⟨tools, heq, htools⟩ | ⟨code, tools, heq, htools⟩
    · rw [heq]
      dsimp only
      refine ⟨h.record (.unchanged generation staged)
        ⟨hmem, hrequested, hnewest, fun name => by rw [hsame, h.identities]⟩ (authority_concat _ _)
        rfl (fun _ => rfl) rfl ?_, _, rfl, rfl⟩
      rw [PublisherState.record, requests_concat]
      simpa [Entry.request?] using h.generation
    · rw [heq]
      dsimp only
      refine ⟨⟨.concat h.legal ⟨hmem, hrequested, hnewest⟩, ?_, fun name tool => ?_,
        fun name => ?_⟩, _, rfl, rfl⟩
      · rw [PublisherState.record, requests_concat]
        simpa [Entry.request?] using h.generation
      · rw [PublisherState.record, authority_concat]
        dsimp only
        rw [htools]
        cases hget : staged.tools.get name with
        | some other => simp
        | none =>
            rw [Option.map_none, Option.none_or]
            split
            · simp
            · rename_i hkeys
              simpa using h.not_generated hkeys tool
      · rw [PublisherState.record, authority_concat]
        exact get_targetIdentities name
    · rw [heq]
      dsimp only
      refine ⟨h.record (.failed generation s.published.tools tools)
        ⟨hmem, hnewest, htools⟩ (authority_concat _ _) rfl htools rfl ?_, _, rfl, rfl⟩
      rw [PublisherState.record, requests_concat]
      simpa [Entry.request?] using h.generation

lemma Sound.request (h : Sound identity s) (staged : Staged T) :
    Sound identity (s.request staged).2 := by
  refine h.record (.requested (s.requestedGeneration + 1) staged) ?_ (authority_concat _ _)
    rfl (fun _ => rfl) rfl ?_
  · show s.requestedGeneration + 1 = _
    rw [h.generation]
  · show s.requestedGeneration + 1 = (requests (s.history ++ [_])).length
    rw [requests_concat, List.length_append, h.generation]
    rfl

/-- A request that is made. -/
lemma Advances.requested (h : Sound identity s) (staged : Staged T) :
    Advances s (s.request staged).2 .idle (.waiting (s.requestedGeneration + 1) staged) := by
  have hfresh : s.requestedGeneration + 1 ∉ requests s.history := fun hmem => by
    have hle := (h.legal.mem_requests.1 hmem).2
    rw [← h.generation] at hle
    omega
  refine ⟨List.prefix_append _ _, ?_, fun _ hmem _ => ?_, fun _ heq => ?_⟩
  · rintro _ _ ⟨⟩
    refine ⟨mem_waiting_concat.2 ⟨.inr rfl, fun entry hentry hended => hfresh ?_,
      (Option.some_ne_none _).symm⟩, List.mem_append_right _ (List.mem_singleton_self _)⟩
    exact (h.legal.mem_requests_of_ended hentry hended)
  · exact Legal.mem_waiting_concat_of_ne hmem (Option.some_ne_none _).symm
  · exact .inr (Option.some.inj heq ▸ hfresh)

end

/-- What an effect preserves. -/
lemma Sound.step {env : PublisherEnvironment Q T} {s s' : PublisherState T} {l : PublisherLocal T}
    {e : PublisherEffect Q T} {a : e.Answer} (h : Sound env.identity s) (hholds : l.Holds s)
    (hallowed : l.Allowed e) (hhappens : publisherHappens env s e a s') :
    Sound env.identity s' ∧ Advances s s' l (l.next e a) := by
  cases e with
  | request staged =>
      cases l with
      | idle =>
          obtain ⟨rfl, rfl⟩ := Prod.mk.inj hhappens
          exact ⟨h.request staged, .requested h staged⟩
      | waiting _ _ => cases hallowed
      | ended => cases hallowed
  | acquire generation =>
      cases l with
      | idle => cases hallowed
      | ended => cases hallowed
      | waiting held staged =>
          obtain rfl : generation = held := hallowed
          cases a with
          | ok _ =>
              obtain ⟨-, rfl⟩ := hhappens
              exact ⟨h.same rfl rfl rfl, .same hholds rfl⟩
          | error code =>
              obtain rfl : s' = s.record (.cancelled generation) := hhappens
              refine ⟨h.record (.cancelled generation) (hholds _ _ rfl).1
                (authority_concat _ _) rfl (fun _ => rfl) rfl ?_, .ended rfl rfl rfl⟩
              rw [PublisherState.record, requests_concat]
              simpa [Entry.request?] using h.generation
  | turn generation staged =>
      cases l with
      | idle => cases hallowed
      | ended => cases hallowed
      | waiting held staged' =>
          obtain ⟨rfl, rfl⟩ := hallowed
          obtain ⟨registration, heq⟩ := hhappens
          obtain rfl := congrArg Prod.snd heq
          obtain ⟨hmem, hrequested⟩ := hholds _ _ rfl
          obtain ⟨hsound, entry, hended, hhistory⟩ := h.turn hmem hrequested registration
          exact ⟨hsound, .ended hended rfl hhistory⟩
  | clear =>
      obtain rfl := congrArg Prod.snd hhappens
      have hnext : l.next (Q := Q) .clear a = l := by cases l <;> rfl
      rw [hnext]
      exact ⟨h.clear, .cleared hholds rfl⟩
  | release =>
      obtain rfl : s' = { s with locked := false } := hhappens
      have hnext : l.next (Q := Q) .release a = l := by cases l <;> rfl
      rw [hnext]
      exact ⟨h.same rfl rfl rfl, .same hholds rfl⟩
  | notify =>
      obtain rfl : s' = s := hhappens
      have hnext : l.next (Q := Q) .notify a = l := by cases l <;> rfl
      rw [hnext]
      exact ⟨h, .same hholds rfl⟩
  | quarantined =>
      obtain rfl : s' = s := hhappens
      have hnext : l.next (Q := Q) .quarantined a = l := by cases l <;> rfl
      rw [hnext]
      exact ⟨h, .same hholds rfl⟩
  | persist qualification =>
      obtain rfl : s' = s := hhappens
      have hnext : l.next (.persist qualification) a = l := by cases l <;> rfl
      rw [hnext]
      exact ⟨h, .same hholds rfl⟩
  | alert qualification =>
      obtain rfl : s' = s := hhappens
      have hnext : l.next (.alert qualification) a = l := by cases l <;> rfl
      rw [hnext]
      exact ⟨h, .same hholds rfl⟩

/-! ## Runs -/

abbrev PublisherPool (Q T : Type) : Type :=
  Pool (PublisherState T) (PublisherEffect Q T) PublisherEffect.Answer Bool

/-- A new publisher on a server with tools of its own, without calls. -/
def PublisherPool.initial (stable : Dict String String) : PublisherPool Q T :=
  ⟨⟨⟨stable.map fun entry => (entry.1, .stable entry.2), []⟩, false, 0, 0, []⟩, []⟩

def PublisherReachable (env : PublisherEnvironment Q T) (stable : Dict String String) :
    PublisherPool Q T → Prop :=
  Relation.ReflTransGen (Pool.Step (publisherRules env)) (.initial stable)

/-- Where a call is. -/
def publisherLocal (task : Task (PublisherEffect Q T) PublisherEffect.Answer Bool) :
    PublisherLocal T :=
  publisherProtocol.after task.log

/-- The request that a task holds. -/
def heldBy (tasks : List (Task (PublisherEffect Q T) PublisherEffect.Answer Bool)) (i : Nat) :
    Option Nat :=
  tasks[i]?.bind fun task => (publisherLocal task).held

structure PublisherInvariant (env : PublisherEnvironment Q T) (p : PublisherPool Q T) : Prop where
  keeps : p.Keeps publisherProtocol (fun _ _ => True)
  sound : Sound env.identity p.shared
  holds : ∀ task ∈ p.tasks, (publisherLocal task).Holds p.shared
  distinct : ∀ i j generation, heldBy p.tasks i = some generation →
    heldBy p.tasks j = some generation → i = j

section

variable {env : PublisherEnvironment Q T}
  {tasks : List (Task (PublisherEffect Q T) PublisherEffect.Answer Bool)}
  {task : Task (PublisherEffect Q T) PublisherEffect.Answer Bool}

/-- A call that has just been started holds nothing. -/
lemma heldBy_concat (program : PublisherProgram Q T Bool) (i : Nat) :
    heldBy (tasks ++ [⟨[], program⟩]) i = heldBy tasks i := by
  unfold heldBy
  rcases lt_trichotomy i tasks.length with hlt | rfl | hgt
  · rw [List.getElem?_append_left hlt]
  · rw [List.getElem?_concat_length, List.getElem?_eq_none (le_refl _)]
    rfl
  · rw [List.getElem?_eq_none (by rw [List.length_append]; exact hgt),
      List.getElem?_eq_none hgt.le]

lemma heldBy_set_self {i : Nat} (hlt : i < tasks.length) :
    heldBy (tasks.set i task) i = (publisherLocal task).held := by
  unfold heldBy
  rw [List.getElem?_set_self hlt]
  rfl

lemma heldBy_set_of_ne {i j : Nat} (hne : i ≠ j) :
    heldBy (tasks.set i task) j = heldBy tasks j := by
  unfold heldBy
  rw [List.getElem?_set_ne hne]

lemma publisherInvariant_initial (stable : Dict String String) :
    PublisherInvariant env (.initial stable) where
  keeps := fun _ hmem => nomatch hmem
  sound :=
    { legal := .nil
      generation := rfl
      registered := fun name staged => by
        have hget : Dict.get (stable.map fun entry => (entry.1, (Tool.stable entry.2 : Tool T)))
            name = (stable.get name).map Tool.stable := Dict.get_mapValues _ _ _
        show Dict.get (stable.map _) name = _ ↔ _
        rw [hget]
        constructor
        · intro heq
          obtain ⟨_, -, hstable⟩ := Option.map_eq_some_iff.1 heq
          cases hstable
        · intro heq
          cases heq
      identities := fun _ => rfl }
  holds := fun _ hmem => nomatch hmem
  distinct := fun _ _ _ heq => by cases heq

lemma PublisherInvariant.step {p p' : PublisherPool Q T} (h : PublisherInvariant env p)
    (hstep : Pool.Step (publisherRules env) p p') : PublisherInvariant env p' := by
  have hkeeps := h.keeps.step (fun _ hentry => keeps_entry env hentry) hstep
  cases hstep with
  | spawn program hentry =>
      refine ⟨hkeeps, h.sound, fun task htask => ?_, fun i j generation hi hj => ?_⟩
      · rcases List.mem_append.1 htask with htask | htask
        · exact h.holds task htask
        · rw [List.mem_singleton.1 htask]
          exact PublisherLocal.holds_of_held rfl _
      · rw [heldBy_concat] at hi hj
        exact h.distinct i j generation hi hj
  | outside shared houtside => exact houtside.elim
  | perform i log e next htask a shared hhappens =>
      have hmem := List.mem_of_getElem? htask
      obtain ⟨hlt, -⟩ := List.getElem?_eq_some_iff.1 htask
      obtain ⟨hsound, hadvances⟩ :=
        h.sound.step (h.holds _ hmem) (h.keeps _ hmem).1 hhappens
      have hlocal : publisherLocal ⟨log ++ [⟨e, a⟩], next a⟩ =
          (publisherProtocol.after log).next e a := publisherProtocol.after_append log e a
      have hheld : heldBy p.tasks i = (publisherProtocol.after log : PublisherLocal T).held := by
        unfold heldBy
        rw [htask]
        rfl
      refine ⟨hkeeps, hsound, fun task htask' => ?_, ?_⟩
      · obtain ⟨j, hj⟩ := List.mem_iff_getElem?.1 htask'
        by_cases hij : i = j
        · subst hij
          rw [List.getElem?_set_self hlt] at hj
          rw [← Option.some.inj hj, hlocal]
          exact hadvances.holds
        · -- the request of another call is another one
          rw [List.getElem?_set_ne hij] at hj
          intro generation staged hwaiting
          obtain ⟨hother, hrequested⟩ := h.holds task (List.mem_of_getElem? hj) _ _ hwaiting
          refine ⟨hadvances.others generation hother fun hsame => hij ?_,
            hadvances.history.subset hrequested⟩
          refine h.distinct i j generation (hheld.trans hsame) ?_
          unfold heldBy
          rw [hj, Option.bind_some, hwaiting]
          rfl
      · -- a request that is made has a new generation
        have hnew : ∀ j generation, i ≠ j →
            heldBy (p.tasks.set i ⟨log ++ [⟨e, a⟩], next a⟩) i = some generation →
              heldBy p.tasks j ≠ some generation := by
          intro j generation hij hi hj
          rw [heldBy_set_self hlt, hlocal] at hi
          rcases hadvances.fresh generation hi with hsame | hfresh
          · exact hij (h.distinct i j generation (hheld.trans hsame) hj)
          · obtain ⟨task, hget, hwaiting⟩ := Option.bind_eq_some_iff.1 hj
            cases hlocal' : publisherLocal task with
            | waiting held staged =>
                rw [hlocal'] at hwaiting
                obtain ⟨hother, -⟩ := h.holds task (List.mem_of_getElem? hget) _ _ hlocal'
                exact hfresh (Option.some.inj hwaiting ▸ (mem_waiting.1 hother).1)
            | idle => rw [hlocal'] at hwaiting; cases hwaiting
            | ended => rw [hlocal'] at hwaiting; cases hwaiting
        intro j k generation hj hk
        by_cases hij : i = j
        · by_cases hik : i = k
          · exact hij ▸ hik
          · subst hij
            rw [heldBy_set_of_ne hik] at hk
            exact absurd hk (hnew k generation hik hj)
        · rw [heldBy_set_of_ne hij] at hj
          by_cases hik : i = k
          · subst hik
            exact absurd hj (hnew j generation hij hk)
          · rw [heldBy_set_of_ne hik] at hk
            exact h.distinct j k generation hj hk

lemma PublisherReachable.invariant {stable : Dict String String} {p : PublisherPool Q T}
    (h : PublisherReachable env stable p) : PublisherInvariant env p := by
  induction h with
  | refl => exact publisherInvariant_initial stable
  | tail _ hstep ih => exact ih.step hstep

/-- Where every entry is in order, the registered tools are those of the latest authority. -/
lemma Sound.lawful {identity : T → String} {s : PublisherState T} (h : Sound identity s)
    (horderly : Orderly s.history) : Lawful identity s where
  registered := h.registered
  unchanged := fun _ _ _ hinitial => h.legal.unchanged hinitial
  failed := fun _ _ _ hmem => h.legal.failed hmem
  ordered := h.legal.ordered
  dropped := fun _ hmem => h.legal.superseded horderly hmem
  cleared := fun before after heq hnone name staged hget => by
    have hsince : requests (sinceCleared s.history) = [] := by
      rw [heq]
      exact List.subset_nil.1 (hnone ▸ requests_sinceCleared_subset before after)
    have hauthority := (h.registered name staged).1 hget
    rw [h.legal.authority_eq_nil horderly hsince] at hauthority
    cases hauthority

end

/-- In every run in which no request is carried out after a `clear` that came after it, and no
request is lost that another one was dropped for, the registered tools are those of the latest
authority. -/
theorem lawful_of_orderly (env : PublisherEnvironment Q T) {stable : Dict String String}
    {p : PublisherPool Q T} (h : PublisherReachable env stable p)
    (horderly : Orderly p.shared.history) : Lawful env.identity p.shared :=
  h.invariant.sound.lawful horderly

/-! ## Two runs -/

section

variable (env : PublisherEnvironment Q T)

/-- A request that waits for the lock. -/
lemma performs_request {qualifications : List Q} {staged : Staged T}
    (hstage : env.stage qualifications = .ok staged) (s : PublisherState T) :
    ∃ log, Performs (publisherRules env) s (publish env qualifications) log (s.request staged).2
      (awaitTurn (s.request staged).1 staged) := by
  unfold publish
  rw [hstage]
  exact ⟨_, Performs.one (R := publisherRules env) (e := .request staged)
    (a := (s.request staged).1) rfl⟩

/-- A request that is given the lock. -/
lemma performs_turn {s : PublisherState T} (hlocked : s.locked = false) (generation : Nat)
    (staged : Staged T) (registration : String → Registration) :
    ∃ log, Performs (publisherRules env) s (awaitTurn generation staged) log
      ({ s with locked := true }.turn env.identity registration generation staged).2
      (afterTurn
        ({ s with locked := true }.turn env.identity registration generation staged).1) := by
  have hacquire : (publisherRules env).happens s (.acquire generation) (.ok ())
      { s with locked := true } := ⟨hlocked, rfl⟩
  have hturn : (publisherRules env).happens { s with locked := true } (.turn generation staged)
      ({ s with locked := true }.turn env.identity registration generation staged).1
      ({ s with locked := true }.turn env.identity registration generation staged).2 :=
    ⟨registration, rfl⟩
  exact ⟨_, .cons hacquire (.one hturn)⟩

/-- A call that gives the lock back. -/
lemma performs_release (s : PublisherState T) (turn : PublisherState.Turn) :
    ∃ log q, Performs (publisherRules env) s (afterTurn turn) log { s with locked := false } q := by
  have hnotify : (publisherRules env).happens s .notify (.ok ()) s := rfl
  have hrelease : (publisherRules env).happens s .release () { s with locked := false } := rfl
  cases turn with
  | dropped => exact ⟨_, _, .one hrelease⟩
  | raised code => exact ⟨_, _, .one hrelease⟩
  | unchanged => exact ⟨_, _, .cons hnotify (.one hrelease)⟩
  | changed => exact ⟨_, _, .cons hnotify (.one hrelease)⟩

lemma performs_clear (s : PublisherState T) :
    ∃ log, Performs (publisherRules env) s clear log s.clear.2 (.done s.clear.1) := by
  have hclear : (publisherRules env).happens s .clear s.clear.1 s.clear.2 := rfl
  exact ⟨_, .one hclear⟩

end

namespace ContactTools

def staged (version : String) : Staged String :=
  ⟨[("list_contacts", version)], by simp [Dict.keys]⟩

/-- A call publishes the version it is given. -/
def environment : PublisherEnvironment String String where
  stage
    | [] => .error "nothing_qualified"
    | version :: _ => .ok (staged version)
  identity := id
  changePersisted _ _ := false
  enabledVersion _ _ := none

lemma stage_singleton (version : String) : environment.stage [version] = .ok (staged version) := rfl

/-- The tools of a version are registered. -/
def publishedOf (version : String) : Published String :=
  ⟨[("list_contacts", .generated version)], [("list_contacts", version)]⟩

/-- The lock is held, and three requests have been made of which the first was carried out. -/
def stateAfter (published : Published String) (history : List (Entry String)) :
    PublisherState String :=
  ⟨published, true, 3, 1, history⟩

abbrev CallTasks : Type :=
  List (Task (PublisherEffect String String) PublisherEffect.Answer Bool)

/-- The first of three calls holds the lock, and the others wait. -/
def Waiting (tasks : CallTasks) : Prop :=
  (∃ log, tasks[0]? = some ⟨log, afterTurn .changed⟩) ∧
    (∃ log, tasks[1]? = some ⟨log, awaitTurn 2 (staged "2")⟩) ∧
      ∃ log, tasks[2]? = some ⟨log, awaitTurn 3 (staged "3")⟩

def requested : List (Entry String) :=
  [.requested 1 (staged "1"), .committed 1 (staged "1"), .requested 2 (staged "2"),
    .requested 3 (staged "3")]

/-- A first call has published and is about to notify, while two more requests have been made. -/
lemma exists_waiting : ∃ tasks,
    PublisherReachable environment [] ⟨stateAfter (publishedOf "1") requested, tasks⟩ ∧
      Waiting tasks := by
  let spawned : CallTasks := ["1", "2", "3"].map fun version => ⟨[], publish environment [version]⟩
  let empty : PublisherState String := ⟨⟨[], []⟩, false, 0, 0, []⟩
  have hspawned : PublisherReachable environment [] ⟨empty, spawned⟩ := by
    refine .head (.spawn (publish environment ["1"]) (.inr ⟨_, .inl rfl⟩)) ?_
    refine .head (.spawn (publish environment ["2"]) (.inr ⟨_, .inl rfl⟩)) ?_
    exact .head (.spawn (publish environment ["3"]) (.inr ⟨_, .inl rfl⟩)) .refl
  have hfirst : spawned[0]? = some ⟨[], publish environment ["1"]⟩ := rfl
  have hsecond : spawned[1]? = some ⟨[], publish environment ["2"]⟩ := rfl
  have hthird : spawned[2]? = some ⟨[], publish environment ["3"]⟩ := rfl
  obtain ⟨log, hrequest⟩ := performs_request environment (stage_singleton "1") empty
  obtain ⟨log', hturn⟩ := performs_turn environment (s := (empty.request (staged "1")).2) rfl 1
    (staged "1") fun _ => .registers
  obtain ⟨tasks₁, hsteps₁, htask₁, hothers₁⟩ := (hrequest.trans hturn).exists_steps hfirst
  rw [← hothers₁ 1 (by decide)] at hsecond
  rw [← hothers₁ 2 (by decide)] at hthird
  obtain ⟨log₂, hrequest₂⟩ := performs_request environment (stage_singleton "2") _
  obtain ⟨tasks₂, hsteps₂, htask₂, hothers₂⟩ := hrequest₂.exists_steps hsecond
  rw [← hothers₂ 0 (by decide)] at htask₁
  rw [← hothers₂ 2 (by decide)] at hthird
  obtain ⟨log₃, hrequest₃⟩ := performs_request environment (stage_singleton "3") _
  obtain ⟨tasks₃, hsteps₃, htask₃, hothers₃⟩ := hrequest₃.exists_steps hthird
  rw [← hothers₃ 0 (by decide)] at htask₁
  rw [← hothers₃ 1 (by decide)] at htask₂
  exact ⟨tasks₃, hspawned.trans (hsteps₁.trans (hsteps₂.trans hsteps₃)), ⟨_, htask₁⟩, ⟨_, htask₂⟩,
    ⟨_, htask₃⟩⟩

/-- The first call gives the lock back, the second request is dropped, and the third has its
turn. -/
lemma exists_turns {tasks : CallTasks} (h : Waiting tasks) (published : Published String)
    (history : List (Entry String)) (registration : String → Registration) :
    ∃ tasks', Relation.ReflTransGen (Pool.Step (publisherRules environment))
      ⟨stateAfter published history, tasks⟩
      ⟨((stateAfter published (history ++ [.dropped 2])).turn id registration 3 (staged "3")).2,
        tasks'⟩ := by
  obtain ⟨⟨_, hfirst⟩, ⟨_, hsecond⟩, ⟨_, hthird⟩⟩ := h
  obtain ⟨log, q, hrelease⟩ := performs_release environment (stateAfter published history) .changed
  obtain ⟨tasks₁, hsteps₁, -, hothers₁⟩ := hrelease.exists_steps hfirst
  rw [← hothers₁ 1 (by decide)] at hsecond
  rw [← hothers₁ 2 (by decide)] at hthird
  obtain ⟨log₂, hturn⟩ := performs_turn environment (s := { stateAfter published history with
    locked := false }) rfl 2 (staged "2") registration
  obtain ⟨log₃, q', hrelease'⟩ := performs_release environment
    (stateAfter published (history ++ [.dropped 2])) .dropped
  obtain ⟨tasks₂, hsteps₂, -, hothers₂⟩ := (hturn.trans hrelease').exists_steps hsecond
  rw [← hothers₂ 2 (by decide)] at hthird
  obtain ⟨log₄, hturn'⟩ := performs_turn environment (s := { stateAfter published
    (history ++ [.dropped 2]) with locked := false }) rfl 3 (staged "3") registration
  obtain ⟨tasks₃, hsteps₃, -, -⟩ := hturn'.exists_steps hthird
  exact ⟨tasks₃, hsteps₁.trans (hsteps₂.trans hsteps₃)⟩

/-- The tools are cleared while the calls wait. -/
lemma exists_cleared {tasks : CallTasks} (h : Waiting tasks) (s : PublisherState String) :
    ∃ tasks', Relation.ReflTransGen (Pool.Step (publisherRules environment)) ⟨s, tasks⟩
      ⟨s.clear.2, tasks'⟩ ∧ Waiting tasks' := by
  obtain ⟨⟨_, hfirst⟩, ⟨_, hsecond⟩, ⟨_, hthird⟩⟩ := h
  have hspawn := Pool.Step.spawn (R := publisherRules environment) (p := ⟨s, tasks⟩) clear
    (.inl rfl)
  have htask : (tasks ++ [⟨[], clear⟩])[tasks.length]? = some ⟨[], clear⟩ := by simp
  have hlt : 2 < tasks.length := (List.getElem?_eq_some_iff.1 hthird).1
  obtain ⟨log, hclear⟩ := performs_clear environment s
  obtain ⟨tasks', hsteps, -, hothers⟩ := hclear.exists_steps htask
  have hkept : ∀ i < 3, tasks'[i]? = tasks[i]? := by
    intro i hi
    rw [hothers i (by omega), List.getElem?_append_left (by omega)]
  refine ⟨tasks', .head hspawn hsteps, ⟨_, (hkept 0 (by decide)).trans hfirst⟩,
    ⟨_, (hkept 1 (by decide)).trans hsecond⟩, ⟨_, (hkept 2 (by decide)).trans hthird⟩⟩

/-- The third request is carried out. -/
lemma exists_committed : ∃ p : PublisherPool String String, PublisherReachable environment [] p ∧
    p.shared = ⟨publishedOf "3", true, 3, 3,
      requested ++ [.dropped 2] ++ [.committed 3 (staged "3")]⟩ := by
  obtain ⟨tasks, hreach, hwaiting⟩ := exists_waiting
  obtain ⟨tasks', hsteps⟩ := exists_turns hwaiting (publishedOf "1") requested fun _ => .registers
  exact ⟨_, hreach.trans hsteps, rfl⟩

lemma exists_committed_cleared : ∃ p : PublisherPool String String,
    PublisherReachable environment [] p ∧ p.shared = ⟨publishedOf "3", true, 3, 3,
      requested ++ [.cleared, .dropped 2, .committed 3 (staged "3")]⟩ := by
  obtain ⟨tasks, hreach, hwaiting⟩ := exists_waiting
  obtain ⟨tasks', hclear, hwaiting'⟩ := exists_cleared hwaiting _
  obtain ⟨tasks', hsteps⟩ := exists_turns hwaiting' ⟨[], []⟩ (requested ++ [.cleared])
    fun _ => .registers
  exact ⟨_, hreach.trans (hclear.trans hsteps), rfl⟩

lemma exists_failed : ∃ p : PublisherPool String String, PublisherReachable environment [] p ∧
    p.shared.history = requested ++
      [.dropped 2, .failed 3 (publishedOf "1").tools (publishedOf "1").tools] := by
  obtain ⟨tasks, hreach, hwaiting⟩ := exists_waiting
  obtain ⟨tasks', hsteps⟩ := exists_turns hwaiting (publishedOf "1") requested
    fun _ => .raisesBefore "tool_rejected"
  exact ⟨_, hreach.trans hsteps, rfl⟩

lemma orderly_committed :
    Orderly (requested ++ [.dropped 2] ++ [.committed 3 (staged "3")]) := by
  have hnil : Orderly ([] : List (Entry String)) := fun before entry hinitial =>
    absurd (List.prefix_nil.1 hinitial) (by simp)
  have hrequest : ∀ (history : List (Entry String)) (generation : Nat) (tools : Staged String),
      Orderly history → Orderly (history ++ [.requested generation tools]) :=
    fun history generation tools h => Orderly.concat_iff.2 ⟨h, trivial⟩
  have hfirst : Orderly [.requested 1 (staged "1"), .committed 1 (staged "1")] :=
    Orderly.concat_iff.2 ⟨hrequest [] _ _ hnil, List.mem_singleton_self _⟩
  have hthird : Orderly requested := hrequest _ 3 (staged "3") (hrequest _ 2 (staged "2") hfirst)
  refine Orderly.concat_iff.2 ⟨Orderly.concat_iff.2 ⟨hthird, ?_⟩, ?_⟩
  · exact List.not_mem_nil
  · show 3 ∈ ([1, 2, 3] : List Nat)
    decide

/-- A request that is dropped for one that is carried out. -/
theorem lawful_committed : ∃ p : PublisherPool String String, PublisherReachable environment [] p ∧
    p.shared.published.tools.get "list_contacts" = some (.generated "3") ∧
      Lawful environment.identity p.shared := by
  obtain ⟨p, hreach, hshared⟩ := exists_committed
  refine ⟨p, hreach, by rw [hshared]; rfl, lawful_of_orderly environment hreach ?_⟩
  rw [hshared]
  exact orderly_committed

/-- A request that waits while the tools are cleared is carried out, and a request is dropped for
one that fails. -/
theorem exists_not_lawful :
    (∃ p : PublisherPool String String, PublisherReachable environment [] p ∧
      (∃ before after, p.shared.history = before ++ .cleared :: after ∧ requests after = [] ∧
        p.shared.published.tools.get "list_contacts" = some (.generated "3")) ∧
      ¬ Lawful environment.identity p.shared) ∧
    ∃ p : PublisherPool String String, PublisherReachable environment [] p ∧
      (2 ∈ dropped p.shared.history ∧ succeeded p.shared.history = [1] ∧
        waiting p.shared.history = []) ∧
      ¬ Lawful environment.identity p.shared := by
  constructor
  · obtain ⟨p, hreach, hshared⟩ := exists_committed_cleared
    have hget : p.shared.published.tools.get "list_contacts" = some (.generated "3") := by
      rw [hshared]
      rfl
    have hhistory : p.shared.history =
        requested ++ .cleared :: [.dropped 2, .committed 3 (staged "3")] := by
      rw [hshared]
    refine ⟨p, hreach, ⟨_, _, hhistory, rfl, hget⟩, fun hlawful => ?_⟩
    exact hlawful.cleared _ _ hhistory rfl _ _ hget
  · obtain ⟨p, hreach, hhistory⟩ := exists_failed
    have hdropped : 2 ∈ dropped p.shared.history := by
      rw [hhistory]
      decide
    have hsucceeded : succeeded p.shared.history = [1] := by
      rw [hhistory]
      rfl
    have hwaiting : waiting p.shared.history = [] := by
      rw [hhistory]
      decide
    refine ⟨p, hreach, ⟨hdropped, hsucceeded, hwaiting⟩, fun hlawful => ?_⟩
    obtain ⟨newer, hlt, hnewer⟩ := hlawful.dropped 2 hdropped
    rw [hsucceeded, hwaiting, List.mem_singleton] at hnewer
    rcases hnewer with rfl | hnewer
    · exact absurd hlt (by decide)
    · cases hnewer

end ContactTools

end MercuryTools.Mcp
