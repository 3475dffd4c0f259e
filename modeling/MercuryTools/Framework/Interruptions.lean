import Mathlib.Tactic.Common
import MercuryTools.Framework.Checks

/-!
# Programs that may fail or be cut off at any step

A *program* changes a state step by step.  At most one of its steps fails: the fault says how many
steps come before it.  The states after the steps are recorded with the labels of the steps, so
that a program that is cut off has left one of them, and so that others can look at them while it
runs; the label of the step that failed is recorded too.

A *triple* bounds a program: from the states of its precondition, every state that is visited
satisfies the first predicate, what is returned satisfies the postcondition, and what is raised
satisfies the last predicate.  Predicates see whether the fault is still to come, since nothing
fails after it.  A program *reports* its failures if it raises the failure of a step only where
that step failed.

Nothing here refers to a particular system.
-/

/-- What a program has done. -/
structure Outcome (ι σ ε α : Type) where
  result : Except ε α
  state : σ
  fault : Option Nat
  visited : List (ι × σ)
  failed : Option ι

/-- What the program does from a fault and a state. -/
def Program (ι σ ε α : Type) : Type :=
  Option Nat → σ → Outcome ι σ ε α

namespace Program

variable {ι σ ε α β : Type}

def andThen (p : Program ι σ ε α) (next : α → Program ι σ ε β) : Program ι σ ε β := fun fault s =>
  let first := p fault s
  match first.result with
  | .ok a =>
      let second := next a first.fault first.state
      { second with
        visited := first.visited ++ second.visited
        failed := second.failed.or first.failed }
  | .error e => ⟨.error e, first.state, first.fault, first.visited, first.failed⟩

instance : Monad (Program ι σ ε) where
  pure a := fun fault s => ⟨.ok a, s, fault, [], none⟩
  bind := andThen

/-- Raise without a step. -/
def throw (e : ε) : Program ι σ ε α := fun fault s => ⟨.error e, s, fault, [], none⟩

/-- A step, which raises `failure` where it is the one that fails. -/
def step (label : ι) (failure : ε) (f : σ → α × σ) : Program ι σ ε α := fun fault s =>
  match fault with
  | some 0 => ⟨.error failure, s, none, [], some label⟩
  | some (n + 1) => ⟨.ok (f s).1, (f s).2, some n, [(label, (f s).2)], none⟩
  | none => ⟨.ok (f s).1, (f s).2, none, [(label, (f s).2)], none⟩

/-- Look at the state, or change what is not seen from outside, without a step. -/
def modifyGet (f : σ → α × σ) : Program ι σ ε α := fun fault s =>
  ⟨.ok (f s).1, (f s).2, fault, [], none⟩

/-- Where the program raises, run the handler and raise what `wrap` makes of both. -/
def onError (p : Program ι σ ε α) (handler : Program ι σ ε Unit) (wrap : ε → ε) : Program ι σ ε α :=
  fun fault s =>
    let first := p fault s
    match first.result with
    | .ok a => ⟨.ok a, first.state, first.fault, first.visited, first.failed⟩
    | .error e =>
        let second := handler first.fault first.state
        let raised := match second.result with
          | .ok _ => e
          | .error e' => wrap e'
        ⟨.error raised, second.state, second.fault, first.visited ++ second.visited,
          second.failed.or first.failed⟩

/-- Whether the program returns or raises, run the last one, and raise what it raises. -/
def ensuring (p : Program ι σ ε α) (last : Except ε α → Program ι σ ε Unit) : Program ι σ ε α :=
  fun fault s =>
    let first := p fault s
    let second := last first.result first.fault first.state
    let result := match second.result with
      | .ok _ => first.result
      | .error e => .error e
    ⟨result, second.state, second.fault, first.visited ++ second.visited,
      second.failed.or first.failed⟩

/-! ## Triples -/

/-- The outcome satisfies the predicates. -/
structure Meets (I : ι → σ → Prop) (Q : α → Bool → σ → Prop) (E : ε → Bool → σ → Prop)
    (outcome : Outcome ι σ ε α) : Prop where
  visited : ∀ entry ∈ outcome.visited, I entry.1 entry.2
  ok : ∀ a, outcome.result = .ok a → Q a outcome.fault.isSome outcome.state
  error : ∀ e, outcome.result = .error e → E e outcome.fault.isSome outcome.state

def Triple (I : ι → σ → Prop) (P : Bool → σ → Prop) (p : Program ι σ ε α)
    (Q : α → Bool → σ → Prop) (E : ε → Bool → σ → Prop) : Prop :=
  ∀ fault s, P fault.isSome s → Meets I Q E (p fault s)

variable {I : ι → σ → Prop} {P P' : Bool → σ → Prop} {p : Program ι σ ε α}
  {next : α → Program ι σ ε β} {Q Q' : α → Bool → σ → Prop} {R : β → Bool → σ → Prop}
  {E E' : ε → Bool → σ → Prop}

lemma Triple.conseq (h : Triple I P p Q E) (hP : ∀ b s, P' b s → P b s) (hQ : ∀ a b s, Q a b s → Q' a b s)
    (hE : ∀ e b s, E e b s → E' e b s) : Triple I P' p Q' E' := by
  intro fault s hs
  have hmeets := h fault s (hP _ _ hs)
  exact ⟨hmeets.visited, fun a ha => hQ _ _ _ (hmeets.ok a ha),
    fun e he => hE _ _ _ (hmeets.error e he)⟩

lemma triple_pure {a : α} (h : ∀ b s, P b s → Q a b s) :
    Triple I P (pure a : Program ι σ ε α) Q E := by
  intro fault s hs
  refine ⟨nofun, ?_, nofun⟩
  rintro _ ⟨⟩
  exact h _ _ hs

variable {f : σ → α × σ} {e : ε} {handler : Program ι σ ε Unit} {wrap : ε → ε}
  {last : Except ε α → Program ι σ ε Unit} {γ : Type}

lemma triple_modifyGet (h : ∀ b s, P b s → Q (f s).1 b (f s).2) :
    Triple I P (modifyGet f : Program ι σ ε α) Q E := by
  intro fault s hs
  refine ⟨nofun, ?_, nofun⟩
  rintro _ ⟨⟩
  exact h _ _ hs

lemma triple_throw (h : ∀ b s, P b s → E e b s) : Triple I P (throw e : Program ι σ ε α) Q E := by
  intro fault s hs
  refine ⟨nofun, nofun, ?_⟩
  rintro _ ⟨⟩
  exact h _ _ hs

lemma triple_step {label : ι} {failure : ε}
    (h : ∀ b s, P b s → I label (f s).2 ∧ Q (f s).1 b (f s).2)
    (hfault : ∀ s, P true s → E failure false s) : Triple I P (step label failure f) Q E := by
  intro fault s hs
  match fault with
  | some 0 =>
      refine ⟨nofun, nofun, ?_⟩
      rintro _ ⟨⟩
      exact hfault s hs
  | some (n + 1) =>
      obtain ⟨hI, hQ⟩ := h true s hs
      refine ⟨?_, ?_, nofun⟩
      · intro entry hentry
        rw [List.mem_singleton.1 hentry]
        exact hI
      · rintro _ ⟨⟩
        exact hQ
  | none =>
      obtain ⟨hI, hQ⟩ := h false s hs
      refine ⟨?_, ?_, nofun⟩
      · intro entry hentry
        rw [List.mem_singleton.1 hentry]
        exact hI
      · rintro _ ⟨⟩
        exact hQ

lemma triple_bind (hp : Triple I P p Q E) (hnext : ∀ a, Triple I (Q a) (next a) R E) :
    Triple I P (p >>= next) R E := by
  intro fault s hs
  have hfirst := hp fault s hs
  change Meets I R E (andThen p next fault s)
  unfold andThen
  dsimp only
  cases hresult : (p fault s).result with
  | error e =>
      refine ⟨hfirst.visited, nofun, ?_⟩
      rintro _ ⟨⟩
      exact hfirst.error e hresult
  | ok a =>
      have hsecond := hnext a _ _ (hfirst.ok a hresult)
      refine ⟨?_, hsecond.ok, hsecond.error⟩
      intro entry hentry
      rcases List.mem_append.1 hentry with hmem | hmem
      · exact hfirst.visited entry hmem
      · exact hsecond.visited entry hmem

/-- The handler runs from what is raised. -/
lemma triple_onError (hp : Triple I P p Q E)
    (hhandler : ∀ e, Triple I (E e) handler (fun _ => E' e) (fun e' => E' (wrap e'))) :
    Triple I P (p.onError handler wrap) Q E' := by
  intro fault s hs
  have hfirst := hp fault s hs
  unfold onError
  dsimp only
  cases hresult : (p fault s).result with
  | ok a =>
      refine ⟨hfirst.visited, ?_, nofun⟩
      rintro _ ⟨⟩
      exact hfirst.ok a hresult
  | error e =>
      have hsecond := hhandler e _ _ (hfirst.error e hresult)
      refine ⟨?_, nofun, ?_⟩
      · intro entry hentry
        rcases List.mem_append.1 hentry with hmem | hmem
        · exact hfirst.visited entry hmem
        · exact hsecond.visited entry hmem
      · rintro _ ⟨⟩
        cases hhandled : (handler (p fault s).fault (p fault s).state).result with
        | ok u => exact hsecond.ok u hhandled
        | error e' => exact hsecond.error e' hhandled

lemma triple_ensuring (hp : Triple I P p Q E)
    (hok : ∀ a, Triple I (Q a) (last (.ok a)) (fun _ => Q' a) E')
    (herror : ∀ e, Triple I (E e) (last (.error e)) (fun _ => E' e) E') :
    Triple I P (p.ensuring last) Q' E' := by
  intro fault s hs
  have hfirst := hp fault s hs
  unfold ensuring
  dsimp only
  cases hresult : (p fault s).result with
  | ok a =>
      have hsecond := hok a _ _ (hfirst.ok a hresult)
      refine ⟨?_, ?_, ?_⟩
      · intro entry hentry
        rcases List.mem_append.1 hentry with hmem | hmem
        · exact hfirst.visited entry hmem
        · exact hsecond.visited entry hmem
      · intro a' ha'
        dsimp only at ha' ⊢
        split at ha'
        next u hlast =>
          cases ha'
          exact hsecond.ok u hlast
        · cases ha'
      · intro e' he'
        dsimp only at he' ⊢
        split at he'
        · cases he'
        next hlast =>
          cases he'
          exact hsecond.error e' hlast
  | error e =>
      have hsecond := herror e _ _ (hfirst.error e hresult)
      refine ⟨?_, ?_, ?_⟩
      · intro entry hentry
        rcases List.mem_append.1 hentry with hmem | hmem
        · exact hfirst.visited entry hmem
        · exact hsecond.visited entry hmem
      · intro a' ha'
        dsimp only at ha'
        split at ha'
        · cases ha'
        · cases ha'
      · intro e' he'
        dsimp only at he' ⊢
        split at he'
        next u hlast =>
          cases he'
          exact hsecond.ok u hlast
        next hlast =>
          cases he'
          exact hsecond.error e' hlast

/-- A loop, by an invariant of what has been done. -/
lemma triple_forM {body : γ → Program ι σ ε PUnit} {xs : List γ} (J : List γ → Bool → σ → Prop)
    (hbody : ∀ done x rest, xs = done ++ x :: rest →
      Triple I (J done) (body x) (fun _ => J (done ++ [x])) E) :
    Triple I (J []) (xs.forM body) (fun _ => J xs) E := by
  have hloop : ∀ rest done, xs = done ++ rest →
      Triple I (J done) (rest.forM body) (fun _ => J xs) E := by
    intro rest
    induction rest with
    | nil =>
        intro done heq
        rw [List.append_nil] at heq
        exact triple_pure fun b s hs => heq ▸ hs
    | cons x rest ih =>
        intro done heq
        refine triple_bind (hbody done x rest heq) fun _ => ih (done ++ [x]) ?_
        rw [heq, List.append_assoc, List.singleton_append]
  exact hloop xs [] rfl

/-! ## Which step failed -/

structure Reports (failure : ι → ε) (p : Program ι σ ε α) : Prop where
  ok : ∀ fault s a, (p fault s).result = .ok a → (p fault s).failed = none
  error : ∀ fault s label, (p fault s).result = .error (failure label) →
    (p fault s).failed = some label

variable {failure : ι → ε}

lemma reports_pure (a : α) : Reports failure (pure a : Program ι σ ε α) :=
  ⟨fun _ _ _ _ => rfl, nofun⟩

lemma reports_modifyGet (f : σ → α × σ) : Reports failure (modifyGet f : Program ι σ ε α) :=
  ⟨fun _ _ _ _ => rfl, nofun⟩

lemma reports_throw (h : ∀ label, e ≠ failure label) :
    Reports failure (throw e : Program ι σ ε α) := by
  refine ⟨nofun, fun _ _ label hresult => ?_⟩
  exact absurd (Except.error.inj hresult) (h label)

lemma reports_step (hfailure : Function.Injective failure) (label : ι) (f : σ → α × σ) :
    Reports failure (step label (failure label) f) := by
  constructor
  · intro fault s a hresult
    match fault with
    | some 0 => cases hresult
    | some (n + 1) => rfl
    | none => rfl
  · intro fault s label' hresult
    match fault with
    | some 0 => exact congrArg some (hfailure (Except.error.inj hresult))
    | some (n + 1) => cases hresult
    | none => cases hresult

lemma reports_bind (hp : Reports failure p) (hnext : ∀ a, Reports failure (next a)) :
    Reports failure (p >>= next) := by
  constructor
  · intro fault s b hresult
    change (andThen p next fault s).result = .ok b at hresult
    change (andThen p next fault s).failed = none
    unfold andThen at hresult ⊢
    dsimp only at hresult ⊢
    cases hfirst : (p fault s).result with
    | error e =>
        rw [hfirst] at hresult
        cases hresult
    | ok a =>
        rw [hfirst] at hresult
        dsimp only at hresult ⊢
        rw [(hnext a).ok _ _ b hresult, hp.ok fault s a hfirst]
        rfl
  · intro fault s label hresult
    change (andThen p next fault s).result = .error (failure label) at hresult
    change (andThen p next fault s).failed = some label
    unfold andThen at hresult ⊢
    dsimp only at hresult ⊢
    cases hfirst : (p fault s).result with
    | error e =>
        rw [hfirst] at hresult
        rw [Except.error.inj hresult] at hfirst
        exact hp.error fault s label hfirst
    | ok a =>
        rw [hfirst] at hresult
        dsimp only at hresult ⊢
        rw [(hnext a).error _ _ label hresult]
        rfl

lemma reports_onError (hp : Reports failure p) (hhandler : Reports failure handler)
    (hwrap : ∀ e label, wrap e = failure label → e = failure label) :
    Reports failure (p.onError handler wrap) := by
  constructor
  · intro fault s a hresult
    unfold onError at hresult ⊢
    dsimp only at hresult ⊢
    cases hfirst : (p fault s).result with
    | error e =>
        rw [hfirst] at hresult
        cases hresult
    | ok a' => exact hp.ok fault s a' hfirst
  · intro fault s label hresult
    unfold onError at hresult ⊢
    dsimp only at hresult ⊢
    cases hfirst : (p fault s).result with
    | ok a =>
        rw [hfirst] at hresult
        cases hresult
    | error e =>
        rw [hfirst] at hresult
        dsimp only at hresult ⊢
        cases hsecond : (handler (p fault s).fault (p fault s).state).result with
        | ok u =>
            rw [hsecond] at hresult
            rw [hhandler.ok _ _ u hsecond, hp.error fault s label (hfirst.trans hresult)]
            rfl
        | error e' =>
            rw [hsecond] at hresult
            rw [hhandler.error _ _ label
              (hsecond.trans (congrArg _ (hwrap e' label (Except.error.inj hresult))))]
            rfl

lemma reports_ensuring (hp : Reports failure p) (hlast : ∀ result, Reports failure (last result)) :
    Reports failure (p.ensuring last) := by
  constructor
  · intro fault s a hresult
    unfold ensuring at hresult ⊢
    dsimp only at hresult ⊢
    cases hsecond : (last (p fault s).result (p fault s).fault (p fault s).state).result with
    | ok u =>
        rw [hsecond] at hresult
        rw [(hlast _).ok _ _ u hsecond, hp.ok fault s a hresult]
        rfl
    | error e =>
        rw [hsecond] at hresult
        cases hresult
  · intro fault s label hresult
    unfold ensuring at hresult ⊢
    dsimp only at hresult ⊢
    cases hsecond : (last (p fault s).result (p fault s).fault (p fault s).state).result with
    | ok u =>
        rw [hsecond] at hresult
        rw [(hlast _).ok _ _ u hsecond, hp.error fault s label hresult]
        rfl
    | error e =>
        rw [hsecond] at hresult
        rw [Except.error.inj hresult] at hsecond
        rw [(hlast _).error _ _ label hsecond]
        rfl

lemma reports_forM {body : γ → Program ι σ ε PUnit} (hbody : ∀ x, Reports failure (body x))
    (xs : List γ) : Reports failure (xs.forM body) := by
  induction xs with
  | nil => exact reports_pure _
  | cons x rest ih => exact reports_bind (hbody x) fun _ => ih

end Program
