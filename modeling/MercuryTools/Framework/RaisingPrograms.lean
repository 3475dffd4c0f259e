import MercuryTools.Framework.Programs

/-!
# Programs that raise and are caught

A raising program performs effects, changes variables and returns or raises; what it raises can be
caught, and the variables keep what was assigned before.  A `Triple` says what holds of the effects
performed so far, of the variables and of the result, whatever the answers of the effects are; it
also says that every effect was allowed after those before it.

Nothing here refers to a particular system.
-/

namespace Programs

variable {E : Type} {A : E → Type} {X σ α β : Type}

/-- What was performed, with the answers. -/
abbrev History (E : Type) (A : E → Type) : Type :=
  List ((e : E) × A e)

/-- A program with variables `σ` that returns an `α` or raises an `X`. -/
def Raising (E : Type) (A : E → Type) (X σ α : Type) : Type :=
  σ → Program E A (Except X α × σ)

namespace Raising

def bind (x : Raising E A X σ α) (f : α → Raising E A X σ β) : Raising E A X σ β := fun s =>
  (x s).bind fun result =>
    match result with
    | (.ok a, s) => f a s
    | (.error e, s) => .done (.error e, s)

instance : Monad (Raising E A X σ) where
  pure a := fun s => .done (.ok a, s)
  bind := bind

def raise (e : X) : Raising E A X σ α := fun s => .done (.error e, s)

/-- Perform one effect. -/
def effect (e : E) : Raising E A X σ (A e) := fun s => .perform e fun a => .done (.ok a, s)

def read : Raising E A X σ σ := fun s => .done (.ok s, s)

def assign (f : σ → σ) : Raising E A X σ Unit := fun s => .done (.ok (), f s)

/-- Go on with `handler` where the program raises. -/
def catching (x : Raising E A X σ α) (handler : X → Raising E A X σ α) : Raising E A X σ α :=
  fun s => (x s).bind fun result =>
    match result with
    | (.ok a, s) => .done (.ok a, s)
    | (.error e, s) => handler e s

/-- Return what is returned or raised. -/
def attempt (x : Raising E A X σ α) : Raising E A X σ (Except X α) := fun s =>
  (x s).bind fun result => .done (.ok result.1, result.2)

/-- Return or raise. -/
def ofExcept : Except X α → Raising E A X σ α
  | .ok a => pure a
  | .error e => raise e

/-- Run `last` in the end, also where the program raises; what `last` raises comes first. -/
def ensuring (x : Raising E A X σ α) (last : Raising E A X σ Unit) : Raising E A X σ α := do
  let result ← x.attempt
  last
  ofExcept result

end Raising

/-! ## Triples -/

/-- The protocol that remembers everything. -/
def historyProtocol (allowed : History E A → E → Prop) : Protocol E A (History E A) where
  start := []
  allowed := allowed
  next log e a := log ++ [⟨e, a⟩]

/-- What holds in the end: `Q` where something is returned, `R` where something is raised. -/
def Ends (Q : History E A → σ → α → Prop) (R : History E A → σ → X → Prop) (log : History E A)
    (s : σ) : Except X α → Prop
  | .ok a => Q log s a
  | .error e => R log s e

/-- From where `I` holds, only allowed effects are performed, and `Q` or `R` holds in the end. -/
def Triple (allowed : History E A → E → Prop) (I : History E A → σ → Prop)
    (x : Raising E A X σ α) (Q : History E A → σ → α → Prop)
    (R : History E A → σ → X → Prop) : Prop :=
  ∀ log s, I log s → Keeps (historyProtocol allowed)
    (fun log r => ∃ result s, r = some (result, s) ∧ Ends Q R log s result) (x s) log

namespace Triple

variable {allowed : History E A → E → Prop} {I I' : History E A → σ → Prop}
  {Q Q' : History E A → σ → α → Prop} {R R' : History E A → σ → X → Prop}
  {x : Raising E A X σ α}

lemma pure {a : α} (h : ∀ log s, I log s → Q log s a) :
    Triple allowed I (pure a : Raising E A X σ α) Q R :=
  fun log s hI => ⟨_, _, rfl, h log s hI⟩

lemma raise {e : X} (h : ∀ log s, I log s → R log s e) :
    Triple allowed I (Raising.raise e : Raising E A X σ α) Q R :=
  fun log s hI => ⟨_, _, rfl, h log s hI⟩

lemma effect {e : E} {Q : History E A → σ → A e → Prop}
    (h : ∀ log s, I log s → allowed log e ∧ ∀ a, Q (log ++ [⟨e, a⟩]) s a) :
    Triple allowed I (Raising.effect e) Q R :=
  fun log s hI => ⟨(h log s hI).1, fun a => ⟨_, _, rfl, (h log s hI).2 a⟩⟩

/-- The variables are what they were before. -/
lemma read {Q : History E A → σ → σ → Prop} (h : ∀ log s, I log s → Q log s s) :
    Triple allowed I Raising.read Q R :=
  fun log s hI => ⟨_, _, rfl, h log s hI⟩

lemma assign {f : σ → σ} {Q : History E A → σ → Unit → Prop}
    (h : ∀ log s, I log s → Q log (f s) ()) : Triple allowed I (Raising.assign f) Q R :=
  fun log s hI => ⟨_, _, rfl, h log s hI⟩

lemma bind {f : α → Raising E A X σ β} {Q' : History E A → σ → β → Prop}
    (hx : Triple allowed I x Q R) (hf : ∀ a, Triple allowed (fun log s => Q log s a) (f a) Q' R) :
    Triple allowed I (x >>= f) Q' R := by
  intro log s hI
  refine (hx log s hI).bind (fun log r hr => ?_) fun log hr => ?_
  · obtain ⟨result, t, hresult, hends⟩ := hr
    obtain rfl := Option.some.inj hresult
    cases result with
    | ok a => exact hf a log t hends
    | error e => exact ⟨_, _, rfl, hends⟩
  · obtain ⟨result, t, hresult, -⟩ := hr
    cases hresult

lemma catching {handler : X → Raising E A X σ α} (hx : Triple allowed I x Q R)
    (hhandler : ∀ e, Triple allowed (fun log s => R log s e) (handler e) Q R') :
    Triple allowed I (x.catching handler) Q R' := by
  intro log s hI
  refine (hx log s hI).bind (fun log r hr => ?_) fun log hr => ?_
  · obtain ⟨result, t, hresult, hends⟩ := hr
    obtain rfl := Option.some.inj hresult
    cases result with
    | ok a => exact ⟨_, _, rfl, hends⟩
    | error e => exact hhandler e log t hends
  · obtain ⟨result, t, hresult, -⟩ := hr
    cases hresult

lemma attempt (hx : Triple allowed I x Q R) :
    Triple allowed I x.attempt (fun log s result => Ends Q R log s result) R' := by
  intro log s hI
  refine (hx log s hI).bind (fun log r hr => ?_) fun log hr => ?_
  · obtain ⟨result, t, hresult, hends⟩ := hr
    obtain rfl := Option.some.inj hresult
    exact ⟨_, _, rfl, hends⟩
  · obtain ⟨result, t, hresult, -⟩ := hr
    cases hresult

lemma ofExcept {result : Except X α} (h : ∀ log s, I log s → Ends Q R log s result) :
    Triple allowed I (Raising.ofExcept result : Raising E A X σ α) Q R := by
  cases result with
  | ok a => exact pure h
  | error e => exact raise h

lemma pre (hx : Triple allowed I x Q R) (hI : ∀ log s, I' log s → I log s) :
    Triple allowed I' x Q R :=
  fun log s h => hx log s (hI log s h)

lemma post (hx : Triple allowed I x Q R) (hQ : ∀ log s a, Q log s a → Q' log s a) :
    Triple allowed I x Q' R := by
  intro log s h
  refine (hx log s h).mono fun log r hr => ?_
  obtain ⟨result, t, hresult, hends⟩ := hr
  refine ⟨result, t, hresult, ?_⟩
  cases result with
  | ok a => exact hQ log t a hends
  | error e => exact hends

/-- Something of which more is known is named. -/
lemma choose {ι : Type} {K : ι → History E A → σ → Prop} (hI : ∀ log s, I log s → ∃ i, K i log s)
    (hx : ∀ i, Triple allowed (K i) x Q R) : Triple allowed I x Q R := by
  intro log s h
  obtain ⟨i, hi⟩ := hI log s h
  exact hx i log s hi

/-- The last step runs from what is returned and from what is raised. -/
lemma ensuring {last : Raising E A X σ Unit} (hx : Triple allowed I x Q R)
    (hlast : ∀ result, Triple allowed (fun log s => Ends Q R log s result) last
      (fun log s _ => Ends Q' R' log s result) R') :
    Triple allowed I (x.ensuring last) Q' R' :=
  bind hx.attempt fun result => bind (hlast result) fun _ => ofExcept fun _ _ h => h

/-- What a run has performed was allowed, and the end of the run is as the triple says. -/
theorem performs {ρ τ : Type} {rules : Rules ρ E A τ} {r r' : ρ} {s : σ} {log : History E A}
    {q : Program E A (Except X α × σ)} (hx : Triple allowed I x Q R) (hI : I [] s)
    (h : Performs rules r (x s) log r' q) :
    (∀ before e a after, log = before ++ ⟨e, a⟩ :: after → allowed before e) ∧
      ∀ result s', q = .done (result, s') → Ends Q R log s' result := by
  have hlog : ∀ log before : History E A, log.foldl
      (fun l entry => (historyProtocol allowed).next l entry.1 entry.2) before = before ++ log := by
    intro log
    induction log with
    | nil => exact fun before => (List.append_nil before).symm
    | cons entry log ih =>
      intro before
      rw [List.foldl_cons, ih]
      exact List.append_assoc before [entry] log
  refine ⟨fun before e a after heq => ?_, fun result s' hdone => ?_⟩
  · have hallowed := h.allowed (hx [] s hI) heq
    rwa [hlog] at hallowed
  · have hkeeps := h.keeps (hx [] s hI)
    rw [hlog, hdone] at hkeeps
    obtain ⟨result', s'', heq, hends⟩ := hkeeps
    obtain ⟨rfl, rfl⟩ := Prod.mk.inj (Option.some.inj heq)
    exact hends

end Triple

/-! ## Fixed answers -/

/-- What a program performs where every effect has one answer. -/
def Program.trace (answer : (e : E) → A e) : Program E A α → History E A
  | .done _ | .fail _ => []
  | .perform e next => ⟨e, answer e⟩ :: (next (answer e)).trace answer

/-- What the program returns. -/
def Program.returns (answer : (e : E) → A e) : Program E A α → Option α
  | .done a => some a
  | .fail _ => none
  | .perform e next => (next (answer e)).returns answer

lemma Program.performs_trace {ρ τ : Type} {rules : Rules ρ E A τ} {answer : (e : E) → A e} {r : ρ}
    (hanswer : ∀ e, rules.happens r e (answer e) r) {p : Program E A α} {a : α}
    (h : p.returns answer = some a) : Performs rules r p (p.trace answer) r (.done a) := by
  induction p with
  | done b => exact Option.some.inj h ▸ .nil r _
  | fail code => cases h
  | perform e next ih => exact .cons (hanswer e) (ih (answer e) h)

end Programs
