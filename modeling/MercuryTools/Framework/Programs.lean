import Mathlib.Logic.Relation
import Mathlib.Tactic.Common

/-!
# Programs that run side by side

A *program* performs effects one after the other and goes on with the answers.  A *protocol*
is a small automaton that watches the effects of one program: it says which effects are allowed
in its current local state and where an answer takes it.  `Keeps` says that a program only
performs what the protocol allows, whatever the answers, and that it ends in a local state that
satisfies a postcondition; `Keeps.bind` and `Keeps.catchFailure` compose it.

A *pool* is a shared state with any number of tasks.  One step performs the next effect of one
task, starts a task or changes the shared state from outside.  `Pool.keeps` carries `Keeps`
through every run, so that an invariant of a pool needs to look at the local states only.

Nothing here refers to a particular system.
-/

namespace Programs

/-- Programs that perform effects `E`, where the effect `e` is answered by an `A e`. -/
inductive Program (E : Type) (A : E → Type) (α : Type) where
  | done (a : α)
  | fail (code : String)
  | perform (e : E) (next : A e → Program E A α)

variable {E : Type} {A : E → Type} {α β L σ : Type}

namespace Program

def bind : Program E A α → (α → Program E A β) → Program E A β
  | .done a, f => f a
  | .fail code, _ => .fail code
  | .perform e next, f => .perform e fun a => (next a).bind f

/-- Go on with `handler` where the program fails. -/
def catchFailure : Program E A α → (String → Program E A α) → Program E A α
  | .done a, _ => .done a
  | .fail code, handler => handler code
  | .perform e next, handler => .perform e fun a => (next a).catchFailure handler

instance : Monad (Program E A) where
  pure := .done
  bind := bind

/-- Return what the program returns or raises. -/
def attempt : Program E A α → Program E A (Except String α)
  | .done a => .done (.ok a)
  | .fail code => .done (.error code)
  | .perform e next => .perform e fun a => (next a).attempt

/-- What is computed without effects. -/
def ofExcept : Except String α → Program E A α
  | .ok a => .done a
  | .error code => .fail code

/-- Perform the last effects, whether the program returns or raises. -/
def ensuring (p : Program E A α) (last : Program E A Unit) : Program E A α :=
  p.attempt.bind fun result => last.bind fun _ => ofExcept result

lemma bind_assoc {γ : Type} (p : Program E A α) (f : α → Program E A β) (g : β → Program E A γ) :
    p >>= f >>= g = p >>= fun a => f a >>= g := by
  induction p with
  | done a => rfl
  | fail code => rfl
  | perform e next ih => exact congrArg (Program.perform e) (funext ih)

/-- The program has returned or raised. -/
def Finished : Program E A α → Prop
  | .perform _ _ => False
  | _ => True

end Program

/-! ## Protocols -/

structure Protocol (E : Type) (A : E → Type) (L : Type) where
  start : L
  allowed : L → E → Prop
  next : L → (e : E) → A e → L

/-- From the local state on, the program performs allowed effects only and ends with `Q`, which
is told what it returns, or `none` where it fails. -/
def Keeps (P : Protocol E A L) (Q : L → Option α → Prop) : Program E A α → L → Prop
  | .done a, l => Q l (some a)
  | .fail _, l => Q l none
  | .perform e next, l => P.allowed l e ∧ ∀ a, Keeps P Q (next a) (P.next l e a)

variable {P : Protocol E A L}

variable {Q R : L → Option α → Prop} {a : α} {l : L} {p : Program E A α}
  {answer : σ → (e : E) → A e × σ} {s : σ}

@[simp] lemma keeps_done :
    Keeps P Q (.done a) l ↔ Q l (some a) := Iff.rfl

lemma keeps_perform {e : E} {next : A e → Program E A α} :
    Keeps P Q (.perform e next) l ↔
      P.allowed l e ∧ ∀ a, Keeps P Q (next a) (P.next l e a) := Iff.rfl

lemma keeps_ofExcept {x : Except String α} (hok : ∀ a, x = .ok a → Q l (some a)) (hfail : Q l none) :
    Keeps P Q (Program.ofExcept x) l := by
  cases x with
  | ok a => exact hok a rfl
  | error code => exact hfail

lemma Keeps.mono (h : Keeps P Q p l) (himp : ∀ l r, Q l r → R l r) : Keeps P R p l := by
  induction p generalizing l with
  | done a => exact himp _ _ h
  | fail code => exact himp _ _ h
  | perform e next ih => exact ⟨h.1, fun a => ih a (h.2 a)⟩

/-- What the first program ends with is where the second one starts. -/
lemma Keeps.bind {R : L → Option β → Prop} {f : α → Program E A β} (h : Keeps P Q p l)
    (hok : ∀ l a, Q l (some a) → Keeps P R (f a) l) (hfail : ∀ l, Q l none → R l none) :
    Keeps P R (p >>= f) l := by
  induction p generalizing l with
  | done a => exact hok _ _ h
  | fail code => exact hfail _ h
  | perform e next ih => exact ⟨h.1, fun a => ih a (h.2 a)⟩

lemma Keeps.catchFailure {handler : String → Program E A α} (h : Keeps P Q p l)
    (hok : ∀ l a, Q l (some a) → R l (some a))
    (hfail : ∀ l code, Q l none → Keeps P R (handler code) l) :
    Keeps P R (p.catchFailure handler) l := by
  induction p generalizing l with
  | done a => exact hok _ _ h
  | fail code => exact hfail _ code h
  | perform e next ih => exact ⟨h.1, fun a => ih a (h.2 a)⟩

lemma Keeps.attempt {R : L → Option (Except String α) → Prop} (h : Keeps P Q p l)
    (hok : ∀ l a, Q l (some a) → R l (some (.ok a)))
    (hfail : ∀ l code, Q l none → R l (some (.error code))) : Keeps P R p.attempt l := by
  induction p generalizing l with
  | done a => exact hok _ _ h
  | fail code => exact hfail _ code h
  | perform e next ih => exact ⟨h.1, fun a => ih a (h.2 a)⟩

/-- The last effects start where the program returns or raises. -/
lemma Keeps.ensuring {last : Program E A Unit} (h : Keeps P Q p l) (hlast : ∀ l result, Q l result →
      Keeps P (fun l' done => if done.isSome then R l' result else R l' none) last l) :
    Keeps P R (p.ensuring last) l := by
  have hrest : ∀ l (result : Except String α), Q l result.toOption →
      Keeps P R (last >>= fun _ => Program.ofExcept result) l := by
    intro l result hQ
    refine (hlast l _ hQ).bind (fun l' _ hR => ?_) fun l' hR => by simpa using hR
    cases result with
    | ok a => exact hR
    | error code => exact hR
  have hattempt : Keeps P (fun l r => ∃ result, r = some result ∧ Q l result.toOption)
      p.attempt l :=
    h.attempt (fun _ a hQ => ⟨.ok a, rfl, hQ⟩) fun _ code hQ => ⟨.error code, rfl, hQ⟩
  refine hattempt.bind (fun l r hQ => ?_) fun l hQ => ?_
  · obtain ⟨result, hr, hQ⟩ := hQ
    rw [Option.some.inj hr]
    exact hrest l result hQ
  · obtain ⟨result, hr, -⟩ := hQ
    cases hr

/-! ## Running alone -/

/-- A program that runs alone on a state that answers its effects. -/
def Program.execute (answer : σ → (e : E) → A e × σ) :
    Program E A α → σ → Except String α × σ
  | .done a, s => (.ok a, s)
  | .fail code, s => (.error code, s)
  | .perform e next, s => (next (answer s e).1).execute answer (answer s e).2

/-- What is performed where an effect always has the same answer, and what is returned. -/
def Program.replay (answer : (e : E) → A e) :
    Program E A α → List ((e : E) × A e) × Option α
  | .done a => ([], some a)
  | .fail _ => ([], none)
  | .perform e next =>
      let rest := (next (answer e)).replay answer
      (⟨e, answer e⟩ :: rest.1, rest.2)

lemma Program.execute_bind_ok {s' : σ} (h : p.execute answer s = (.ok a, s'))
    (f : α → Program E A β) : (p >>= f).execute answer s = (f a).execute answer s' := by
  induction p generalizing s with
  | done b =>
      obtain ⟨hb, rfl⟩ := Prod.mk.inj h
      rw [← Except.ok.inj hb]
      rfl
  | fail code => cases (Prod.mk.inj h).1
  | perform e next ih => exact ih _ h

/-- What the allowed effects keep of the local state and the shared one holds in the end. -/
theorem Keeps.execute {I : L → σ → Prop}
    (hstep : ∀ l s e, I l s → P.allowed l e → I (P.next l e (answer s e).1) (answer s e).2)
    (h : Keeps P Q p l) (hI : I l s) :
    ∃ l', I l' (p.execute answer s).2 ∧ Q l' (p.execute answer s).1.toOption := by
  induction p generalizing l s with
  | done a => exact ⟨l, hI, h⟩
  | fail code => exact ⟨l, hI, h⟩
  | perform e next ih => exact ih _ (h.2 _) (hstep l s e hI h.1)

/-! ## Pools -/

/-- A task: what it has done so far and what it will do. -/
structure Task (E : Type) (A : E → Type) (α : Type) where
  log : List ((e : E) × A e)
  rest : Program E A α

/-- The local state of a task. -/
def Protocol.after (P : Protocol E A L) (log : List ((e : E) × A e)) : L :=
  log.foldl (fun l x => P.next l x.1 x.2) P.start

@[simp] lemma Protocol.after_nil : P.after ([] : List ((e : E) × A e)) = P.start := rfl

@[simp] lemma Protocol.after_append (log : List ((e : E) × A e)) (e : E) (a : A e) :
    P.after (log ++ [⟨e, a⟩]) = P.next (P.after log) e a := by
  simp [Protocol.after]

/-- A shared state and the tasks that work on it. -/
structure Pool (σ : Type) (E : Type) (A : E → Type) (α : Type) where
  shared : σ
  tasks : List (Task E A α)

/-- The rules of a pool: how an effect is answered, which programs are started, and what happens
from outside. -/
structure Rules (σ : Type) (E : Type) (A : E → Type) (α : Type) where
  happens : σ → (e : E) → A e → σ → Prop
  entry : Program E A α → Prop
  outside : σ → σ → Prop

inductive Pool.Step (R : Rules σ E A α) (p : Pool σ E A α) : Pool σ E A α → Prop where
  | spawn (program : Program E A α) (hentry : R.entry program) :
      Pool.Step R p { p with tasks := p.tasks ++ [⟨[], program⟩] }
  | perform (i : Nat) (log : List ((e : E) × A e)) (e : E) (next : A e → Program E A α)
      (htask : p.tasks[i]? = some ⟨log, .perform e next⟩) (a : A e) (shared : σ)
      (hhappens : R.happens p.shared e a shared) :
      Pool.Step R p ⟨shared, p.tasks.set i ⟨log ++ [⟨e, a⟩], next a⟩⟩
  | outside (shared : σ) (houtside : R.outside p.shared shared) :
      Pool.Step R p { p with shared := shared }

/-- What a program performs when nothing else happens in between. -/
inductive Performs (R : Rules σ E A α) {β : Type} :
    σ → Program E A β → List ((e : E) × A e) → σ → Program E A β → Prop where
  | nil (s : σ) (p : Program E A β) : Performs R s p [] s p
  | cons {s s' s'' : σ} {e : E} {a : A e} {next : A e → Program E A β}
      {log : List ((e : E) × A e)} {q : Program E A β} (h : R.happens s e a s')
      (hrest : Performs R s' (next a) log s'' q) :
      Performs R s (.perform e next) (⟨e, a⟩ :: log) s'' q

section

variable {R : Rules σ E A α}

variable {s s' s'' : σ} {p q : Program E A β} {log log' done : List ((e : E) × A e)} {γ : Type}
  {b : β} {Q : L → Option β → Prop} {l : L} {tasks : List (Task E A α)} {i : Nat}

lemma Performs.one {e : E} {a : A e} {next : A e → Program E A β} (h : R.happens s e a s') :
    Performs R s (.perform e next) [⟨e, a⟩] s' (next a) :=
  .cons h (.nil s' _)

lemma Performs.trans {r : Program E A β} (h : Performs R s p log s' q)
    (h' : Performs R s' q log' s'' r) : Performs R s p (log ++ log') s'' r := by
  induction h with
  | nil s p => exact h'
  | cons hhappens _ ih => exact .cons hhappens (ih h')

/-- Running the first part of a program. -/
lemma Performs.bind (h : Performs R s p log s' q) (f : β → Program E A γ) :
    Performs R s (p >>= f) log s' (q >>= f) := by
  induction h with
  | nil s p => exact .nil s _
  | cons hhappens _ ih => exact .cons hhappens ih

/-- A program that returns, and what goes on with its value. -/
lemma Performs.then {f : β → Program E A γ} {q : Program E A γ}
    (h : Performs R s p log s' (.done b)) (h' : Performs R s' (f b) log' s'' q) :
    Performs R s (p >>= f) (log ++ log') s'' q :=
  (h.bind f).trans h'

/-- What comes first only adds to the front of the log. -/
lemma Performs.then_suffix {tail : List ((e : E) × A e)} {f : β → Program E A γ} {q : Program E A γ}
    (h : Performs R s p log s' (.done b))
    (h' : ∃ before, Performs R s' (f b) (before ++ tail) s'' q) :
    ∃ before, Performs R s (p >>= f) (before ++ tail) s'' q := by
  obtain ⟨before, hbefore⟩ := h'
  exact ⟨log ++ before, by rw [List.append_assoc]; exact h.then hbefore⟩

/-- What is left of a program keeps to the protocol. -/
lemma Performs.keeps (h : Performs R s p log s' q) (hkeeps : Keeps P Q p l) :
    Keeps P Q q (log.foldl (fun l x => P.next l x.1 x.2) l) := by
  induction h generalizing l with
  | nil s p => exact hkeeps
  | cons hhappens _ ih => exact ih (hkeeps.2 _)

/-- What is performed is allowed, after what was performed before it. -/
lemma Performs.allowed (h : Performs R s p log s' q) (hkeeps : Keeps P Q p l)
    {before after : List ((e : E) × A e)} {entry : (e : E) × A e}
    (hlog : log = before ++ entry :: after) :
    P.allowed (before.foldl (fun l x => P.next l x.1 x.2) l) entry.1 := by
  induction h generalizing before l with
  | nil s p => exact absurd hlog.symm (List.append_ne_nil_of_right_ne_nil _ (List.cons_ne_nil _ _))
  | cons hhappens _ ih =>
    cases before with
    | nil =>
      obtain ⟨rfl, -⟩ := List.cons.inj hlog
      exact hkeeps.1
    | cons first before =>
      obtain ⟨rfl, hrest⟩ := List.cons.inj hlog
      exact ih (hkeeps.2 _) hrest

/-- A program that runs alone performs its effects one after the other. -/
lemma Performs.of_execute {answer : σ → (e : E) → A e × σ}
    (hanswer : ∀ s e, R.happens s e (answer s e).1 (answer s e).2)
    (h : p.execute answer s = (.ok b, s')) : ∃ log, Performs R s p log s' (.done b) := by
  induction p generalizing s with
  | done a =>
      obtain ⟨ha, rfl⟩ := Prod.mk.inj h
      exact ⟨[], Except.ok.inj ha ▸ .nil s _⟩
  | fail code => cases (Prod.mk.inj h).1
  | perform e next ih =>
      obtain ⟨log, hperforms⟩ := ih _ h
      exact ⟨⟨e, (answer s e).1⟩ :: log, .cons (hanswer s e) hperforms⟩

lemma Performs.replay {answer : (e : E) → A e} (hanswer : ∀ e, R.happens s e (answer e) s)
    (h : (p.replay answer).2 = some b) : Performs R s p (p.replay answer).1 s (.done b) := by
  induction p with
  | done a => exact Option.some.inj h ▸ .nil s _
  | fail code => cases h
  | perform e next ih => exact .cons (hanswer e) (ih _ h)

/-- A task of a pool that runs while the others wait. -/
lemma Performs.steps {p q : Program E A α} (h : Performs R s p log s' q)
    (htask : tasks[i]? = some ⟨done, p⟩) :
    Relation.ReflTransGen (Pool.Step R) ⟨s, tasks⟩
      ⟨s', tasks.set i ⟨done ++ log, q⟩⟩ := by
  induction h generalizing tasks done with
  | nil s p =>
      obtain ⟨hlt, hget⟩ := List.getElem?_eq_some_iff.1 htask
      rw [List.append_nil, ← hget, List.set_getElem_self hlt]
  | @cons _ _ _ e a next _ _ hhappens _ ih =>
      have hlt := (List.getElem?_eq_some_iff.1 htask).1
      refine .head (Pool.Step.perform i done _ _ htask _ _ hhappens) ?_
      have hget : (tasks.set i ⟨done ++ [⟨e, a⟩], next a⟩)[i]? =
        some ⟨done ++ [⟨e, a⟩], next a⟩ := List.getElem?_set_self hlt
      have hrest := ih hget
      rwa [List.set_set, List.append_assoc] at hrest

/-- The other tasks stay where they are. -/
lemma Performs.exists_steps {p q : Program E A α} (h : Performs R s p log s' q)
    (htask : tasks[i]? = some ⟨done, p⟩) :
    ∃ tasks', Relation.ReflTransGen (Pool.Step R) ⟨s, tasks⟩ ⟨s', tasks'⟩ ∧
      tasks'[i]? = some ⟨done ++ log, q⟩ ∧ ∀ j, j ≠ i → tasks'[j]? = tasks[j]? := by
  have hlt := (List.getElem?_eq_some_iff.1 htask).1
  refine ⟨_, h.steps htask, List.getElem?_set_self hlt, fun j hj => ?_⟩
  exact List.getElem?_set_ne (Ne.symm hj)

end

/-! ## Programs that do the same -/

/-- Two programs perform the same effects and end the same, as long as the answers are possible; what
they return satisfies the condition. -/
inductive Agrees (possible : (e : E) → A e → Prop) (Q : α → Prop) :
    Program E A α → Program E A α → Prop where
  | done {a : α} (h : Q a) : Agrees possible Q (.done a) (.done a)
  | fail (code : String) : Agrees possible Q (.fail code) (.fail code)
  | perform {e : E} {next next' : A e → Program E A α}
      (h : ∀ a, possible e a → Agrees possible Q (next a) (next' a)) :
      Agrees possible Q (.perform e next) (.perform e next')

section

variable {possible : (e : E) → A e → Prop} {Q : α → Prop} {p p' : Program E A α}

lemma Agrees.refl (p : Program E A α) : Agrees possible (fun _ => True) p p := by
  induction p with
  | done a => exact .done trivial
  | fail code => exact .fail code
  | perform e next ih => exact .perform fun a _ => ih a

lemma Agrees.bind {Q' : β → Prop} {f f' : α → Program E A β} (h : Agrees possible Q p p')
    (hnext : ∀ a, Q a → Agrees possible Q' (f a) (f' a)) :
    Agrees possible Q' (p >>= f) (p' >>= f') := by
  induction h with
  | done h => exact hnext _ h
  | fail code => exact .fail code
  | perform _ ih => exact .perform ih

lemma Agrees.mono {Q' : α → Prop} (h : Agrees possible Q p p') (himp : ∀ a, Q a → Q' a) :
    Agrees possible Q' p p' := by
  induction h with
  | done h => exact .done (himp _ h)
  | fail code => exact .fail code
  | perform _ ih => exact .perform ih

lemma Agrees.symm (h : Agrees possible Q p p') : Agrees possible Q p' p := by
  induction h with
  | done h => exact .done h
  | fail code => exact .fail code
  | perform _ ih => exact .perform ih

variable {R : Rules σ E A β} {s s' : σ} {log : List ((e : E) × A e)} {a : α}

/-- The second program runs as the first one does. -/
lemma Agrees.performs (hpossible : ∀ {s e a s'}, R.happens s e a s' → possible e a)
    (h : Agrees possible Q p p') (hperforms : Performs R s p log s' (.done a)) :
    Performs R s p' log s' (.done a) := by
  induction h generalizing s log with
  | done h => exact hperforms
  | fail code => cases hperforms
  | perform _ ih =>
    cases hperforms with
    | cons hhappens hrest => exact .cons hhappens (ih _ (hpossible hhappens) hrest)

theorem Agrees.performs_iff (hpossible : ∀ {s e a s'}, R.happens s e a s' → possible e a)
    (h : Agrees possible Q p p') :
    Performs R s p log s' (.done a) ↔ Performs R s p' log s' (.done a) :=
  ⟨h.performs hpossible, h.symm.performs hpossible⟩

end

/-- Every task keeps to the protocol from where it is. -/
def Pool.Keeps (P : Protocol E A L) (Q : L → Option α → Prop) (p : Pool σ E A α) : Prop :=
  ∀ task ∈ p.tasks, Programs.Keeps P Q task.rest (P.after task.log)

lemma Pool.Keeps.step {R : Rules σ E A α} {Q : L → Option α → Prop}
    (hentry : ∀ program, R.entry program → Programs.Keeps P Q program P.start)
    {p p' : Pool σ E A α} (h : p.Keeps P Q) (hstep : Pool.Step R p p') : p'.Keeps P Q := by
  intro task htask
  cases hstep with
  | spawn program hprogram =>
      rcases List.mem_append.1 htask with htask | htask
      · exact h task htask
      · rw [List.mem_singleton] at htask
        rw [htask]
        exact hentry program hprogram
  | perform i log e next hget a shared hhappens =>
      rcases List.mem_or_eq_of_mem_set htask with htask | rfl
      · exact h task htask
      · have hkeeps := h _ (List.mem_of_getElem? hget)
        rw [Protocol.after_append]
        exact hkeeps.2 a
  | outside shared houtside => exact h task htask

end Programs
