import Mathlib.Tactic.Common
import MercuryTools.Framework.Checks

/-!
# Operations that may raise halfway

An *operation* takes a state and leaves another, whether it returns or raises: what it has done
before it raises stays done.  `check` looks at the state without changing it, `modify` changes it,
and `restoring` puts parts of the state back where the operation raises.

An operation is *atomic* at a state up to a relation of states when raising leaves the state as it
was, up to that relation.  Checks are atomic, so is a change that comes last, and an operation that
restores everything it changes.

Nothing here refers to a particular system.
-/

/-- What is returned or raised, with the state left. -/
def Operation (σ ε α : Type) : Type :=
  σ → Except ε α × σ

namespace Operation

variable {σ ε α β : Type}

def andThen (op : Operation σ ε α) (next : α → Operation σ ε β) : Operation σ ε β := fun s =>
  match op s with
  | (.ok a, s') => next a s'
  | (.error e, s') => (.error e, s')

instance : Monad (Operation σ ε) where
  pure a := fun s => (.ok a, s)
  bind := andThen

/-- Look at the state; a failed check raises. -/
def check (f : σ → Except ε α) : Operation σ ε α := fun s => (f s, s)

def modify (f : σ → σ) : Operation σ ε Unit := fun s => (.ok (), f s)

/-- Where the operation raises, `restore` makes of the states before and after what is left. -/
def restoring (restore : σ → σ → σ) (op : Operation σ ε α) : Operation σ ε α := fun s =>
  match op s with
  | (.ok a, s') => (.ok a, s')
  | (.error e, s') => (.error e, restore s s')

/-- The operation on a part of the state. -/
def within {τ : Type} (get : σ → τ) (set : σ → τ → σ) (op : Operation τ ε α) : Operation σ ε α :=
  fun s => ((op (get s)).1, set s (op (get s)).2)

/-- What is raised, under another name. -/
def mapError {ε' : Type} (f : ε → ε') (op : Operation σ ε α) : Operation σ ε' α := fun s =>
  ((op s).1.mapError f, (op s).2)

variable {op : Operation σ ε α} {next : α → Operation σ ε β} {s s' : σ} {a : α} {b : β} {e : ε}

/-! ## What an operation returned -/

@[simp] lemma pure_apply (a : α) (s : σ) : (pure a : Operation σ ε α) s = (.ok a, s) := rfl

@[simp] lemma check_apply (f : σ → Except ε α) (s : σ) : check f s = (f s, s) := rfl

lemma bind_of_ok (h : op s = (.ok a, s')) : (op >>= next) s = next a s' := by
  change andThen op next s = _
  rw [andThen, h]

lemma bind_of_error (h : op s = (.error e, s')) : (op >>= next) s = (.error e, s') := by
  change andThen op next s = _
  rw [andThen, h]

variable {t : σ} {f : σ → Except ε α} {restore : σ → σ → σ} {τ ε' : Type} {R : σ → σ → Prop}

protected lemma bind_eq_ok :
    (op >>= next) s = (.ok b, t) ↔ ∃ a s', op s = (.ok a, s') ∧ next a s' = (.ok b, t) := by
  rcases hop : op s with ⟨e | a, s'⟩
  · rw [bind_of_error hop]
    constructor
    · nofun
    · rintro ⟨_, _, ⟨⟩, _⟩
  · rw [bind_of_ok hop]
    constructor
    · exact fun h => ⟨a, s', rfl, h⟩
    · rintro ⟨_, _, ⟨⟩, h⟩
      exact h

protected lemma bind_eq_error :
    (op >>= next) s = (.error e, t) ↔
      op s = (.error e, t) ∨ ∃ a s', op s = (.ok a, s') ∧ next a s' = (.error e, t) := by
  rcases hop : op s with ⟨e' | a, s'⟩
  · rw [bind_of_error hop]
    constructor
    · rintro ⟨⟩
      exact .inl rfl
    · rintro (h | ⟨_, _, ⟨⟩, _⟩)
      cases h
      rfl
  · rw [bind_of_ok hop]
    constructor
    · exact fun h => .inr ⟨a, s', rfl, h⟩
    · rintro (⟨⟨⟩⟩ | ⟨_, _, ⟨⟩, h⟩)
      exact h

protected lemma map_eq_ok {f : α → β} :
    (f <$> op) s = (.ok b, t) ↔ ∃ a, op s = (.ok a, t) ∧ f a = b := by
  change (op >>= fun a => pure (f a)) s = _ ↔ _
  rw [Operation.bind_eq_ok]
  constructor
  · rintro ⟨a, s', hop, hpure⟩
    cases hpure
    exact ⟨a, hop, rfl⟩
  · rintro ⟨a, hop, rfl⟩
    exact ⟨a, t, hop, rfl⟩

lemma snd_map (f : α → β) (op : Operation σ ε α) (s : σ) : ((f <$> op) s).2 = (op s).2 := by
  change (andThen op (fun a => pure (f a)) s).2 = (op s).2
  rw [andThen]
  rcases op s with ⟨e | a, s'⟩
  · rfl
  · rfl

lemma check_bind_of_ok (h : f s = .ok a) : (check f >>= next) s = next a s :=
  bind_of_ok (congrArg (·, s) h)

lemma check_bind_of_error (h : f s = .error e) : (check f >>= next) s = (.error e, s) :=
  bind_of_error (congrArg (·, s) h)

lemma check_bind_eq_ok :
    (check f >>= next) s = (.ok b, t) ↔ ∃ a, f s = .ok a ∧ next a s = (.ok b, t) := by
  rw [Operation.bind_eq_ok]
  constructor
  · rintro ⟨a, s', h, hnext⟩
    obtain ⟨hf, rfl⟩ := Prod.mk.inj h
    exact ⟨a, hf, hnext⟩
  · rintro ⟨a, hf, hnext⟩
    exact ⟨a, s, by rw [check_apply, hf], hnext⟩

lemma check_bind_eq_error :
    (check f >>= next) s = (.error e, t) ↔
      f s = .error e ∧ t = s ∨ ∃ a, f s = .ok a ∧ next a s = (.error e, t) := by
  rw [Operation.bind_eq_error]
  constructor
  · rintro (h | ⟨a, s', h, hnext⟩)
    · obtain ⟨hf, rfl⟩ := Prod.mk.inj h
      exact .inl ⟨hf, rfl⟩
    · obtain ⟨hf, rfl⟩ := Prod.mk.inj h
      exact .inr ⟨a, hf, hnext⟩
  · rintro (⟨hf, rfl⟩ | ⟨a, hf, hnext⟩)
    · exact .inl (by rw [check_apply, hf])
    · exact .inr ⟨a, s, by rw [check_apply, hf], hnext⟩

protected lemma map_eq_error {f : α → β} : (f <$> op) s = (.error e, t) ↔ op s = (.error e, t) := by
  change (op >>= fun a => pure (f a)) s = _ ↔ _
  rw [Operation.bind_eq_error]
  constructor
  · rintro (h | ⟨a, s', -, hpure⟩)
    · exact h
    · cases hpure
  · exact Or.inl

lemma modify_bind {f : σ → σ} {next : Unit → Operation σ ε β} :
    (modify f >>= next) s = next () (f s) :=
  bind_of_ok rfl

lemma restoring_eq_ok : op.restoring restore s = (.ok a, t) ↔ op s = (.ok a, t) := by
  unfold restoring
  rcases op s with ⟨e | a, s'⟩
  · constructor <;> nofun
  · rfl

lemma restoring_eq_error :
    op.restoring restore s = (.error e, t) ↔ ∃ s', op s = (.error e, s') ∧ t = restore s s' := by
  unfold restoring
  rcases op s with ⟨e' | a, s'⟩
  · constructor
    · rintro ⟨⟩
      exact ⟨s', rfl, rfl⟩
    · rintro ⟨_, ⟨⟩, rfl⟩
      rfl
  · constructor
    · nofun
    · rintro ⟨_, ⟨⟩, _⟩

lemma within_eq_ok {get : σ → τ} {set : σ → τ → σ} {op : Operation τ ε α} :
    op.within get set s = (.ok a, t) ↔ ∃ u, op (get s) = (.ok a, u) ∧ t = set s u := by
  constructor
  · intro h
    obtain ⟨hresult, rfl⟩ := Prod.mk.inj h
    exact ⟨_, Prod.ext hresult rfl, rfl⟩
  · rintro ⟨u, hop, rfl⟩
    rw [within, hop]

lemma within_eq_error {get : σ → τ} {set : σ → τ → σ} {op : Operation τ ε α} :
    op.within get set s = (.error e, t) ↔ ∃ u, op (get s) = (.error e, u) ∧ t = set s u := by
  constructor
  · intro h
    obtain ⟨hresult, rfl⟩ := Prod.mk.inj h
    exact ⟨_, Prod.ext hresult rfl, rfl⟩
  · rintro ⟨u, hop, rfl⟩
    rw [within, hop]

protected lemma mapError_eq_ok {f : ε → ε'} : op.mapError f s = (.ok a, t) ↔ op s = (.ok a, t) := by
  unfold mapError
  rcases op s with ⟨e | a, s'⟩
  · constructor <;> nofun
  · constructor <;>
    · rintro ⟨⟩
      rfl

protected lemma mapError_eq_error {f : ε → ε'} {e' : ε'} :
    op.mapError f s = (.error e', t) ↔ ∃ e, op s = (.error e, t) ∧ f e = e' := by
  unfold mapError
  rcases op s with ⟨e | a, s'⟩
  · constructor
    · rintro ⟨⟩
      exact ⟨e, rfl, rfl⟩
    · rintro ⟨_, ⟨⟩, rfl⟩
      rfl
  · constructor
    · nofun
    · rintro ⟨_, ⟨⟩, _⟩

/-! ## What an operation keeps -/

/-- However the operation ends, the relation holds between the states before and after. -/
def Keeps (R : σ → σ → Prop) (op : Operation σ ε α) : Prop :=
  ∀ s, R s (op s).2

lemma Keeps.of_eq (h : op.Keeps R) {result : Except ε α} (heq : op s = (result, s')) : R s s' := by
  have hkeeps := h s
  rw [heq] at hkeeps
  exact hkeeps

lemma Keeps.bind (htrans : ∀ s t u, R s t → R t u → R s u) (h : op.Keeps R)
    (hnext : ∀ a, (next a).Keeps R) : (op >>= next).Keeps R := by
  intro s
  have hfirst := h s
  rcases hop : op s with ⟨e | a, s'⟩ <;> rw [hop] at hfirst
  · rw [bind_of_error hop]
    exact hfirst
  · rw [bind_of_ok hop]
    exact htrans _ _ _ hfirst (hnext a s')

/-! ### Fields that are kept -/

/-- However the operation ends, the field is as it was. -/
def KeepsField {τ : Type} (f : σ → τ) (op : Operation σ ε α) : Prop :=
  op.Keeps fun s s' => f s' = f s

section

variable {τ : Type} {f : σ → τ}

lemma keepsField_pure (a : α) : (pure a : Operation σ ε α).KeepsField f := fun _ => rfl

lemma keepsField_check (g : σ → Except ε α) : (check g).KeepsField f := fun _ => rfl

variable {g : σ → σ}

lemma keepsField_modify (h : ∀ s, f (g s) = f s) :
    (modify g : Operation σ ε Unit).KeepsField f := h

lemma KeepsField.bind (h : op.KeepsField f) (hnext : ∀ a, (next a).KeepsField f) :
    (op >>= next).KeepsField f :=
  Keeps.bind (fun _ _ _ hst htu => htu.trans hst) h hnext

lemma KeepsField.check_bind {g : σ → Except ε α} (hnext : ∀ a, (next a).KeepsField f) :
    (check g >>= next).KeepsField f :=
  (keepsField_check g).bind hnext

lemma KeepsField.modify_bind {next : Unit → Operation σ ε β} (h : ∀ s, f (g s) = f s)
    (hnext : (next ()).KeepsField f) : (modify g >>= next).KeepsField f :=
  (keepsField_modify h).bind fun _ => hnext

end

/-! ## Operations that do not raise -/

/-- The operation returns. -/
def Returns (op : Operation σ ε α) (s : σ) : Prop :=
  ∃ a s', op s = (.ok a, s')

lemma returns_pure (a : α) : (pure a : Operation σ ε α).Returns s :=
  ⟨a, s, rfl⟩

lemma Returns.modify_bind {f : σ → σ} {next : Unit → Operation σ ε β}
    (h : (next ()).Returns (f s)) : (modify f >>= next).Returns s := by
  obtain ⟨b, s', hnext⟩ := h
  exact ⟨b, s', Operation.modify_bind.trans hnext⟩

lemma Returns.check_bind (hf : f s = .ok a) (h : (next a).Returns s) :
    (check f >>= next).Returns s := by
  obtain ⟨b, s', hnext⟩ := h
  exact ⟨b, s', check_bind_eq_ok.2 ⟨a, hf, hnext⟩⟩

/-! ## Atomic operations -/

/-- Raising leaves the state as it was, up to the relation. -/
def AtomicAt (R : σ → σ → Prop) (op : Operation σ ε α) (s : σ) : Prop :=
  ∀ e s', op s = (.error e, s') → R s s'

variable {R : σ → σ → Prop}

lemma Returns.atomicAt (h : op.Returns s) : op.AtomicAt R s := by
  obtain ⟨a, t, hop⟩ := h
  intro e s' heq
  rw [hop] at heq
  cases heq

lemma AtomicAt.map (h : op.AtomicAt R s) (f : α → β) : (f <$> op).AtomicAt R s := by
  intro e s' heq
  rcases Operation.bind_eq_error.1 heq with hop | ⟨a, t, -, hnever⟩
  · exact h e s' hop
  · cases hnever

lemma atomicAt_check (hrefl : ∀ s, R s s) (f : σ → Except ε α) : (check f).AtomicAt R s := by
  rintro e s' h
  obtain ⟨-, rfl⟩ := Prod.mk.inj h
  exact hrefl s

lemma atomicAt_pure (a : α) : (pure a : Operation σ ε α).AtomicAt R s := nofun

/-- Nothing raises after the last change. -/
lemma atomicAt_modify_pure (f : σ → σ) (a : α) :
    (do modify f; pure a : Operation σ ε α).AtomicAt R s := nofun

/-- A check first. -/
lemma AtomicAt.check_bind (hrefl : ∀ s, R s s) (hnext : ∀ a, f s = .ok a → (next a).AtomicAt R s) :
    (check f >>= next).AtomicAt R s := by
  intro e s' h
  rcases Operation.bind_eq_error.1 h with hcheck | ⟨a, t, hcheck, hraise⟩
  · exact atomicAt_check hrefl f e s' hcheck
  · obtain ⟨hf, rfl⟩ := Prod.mk.inj hcheck
    exact hnext a hf e s' hraise

/-- An atomic operation first, and nothing that raises after it. -/
lemma AtomicAt.bind_modify (h : op.AtomicAt R s) (f : α → σ → σ) (g : α → β) :
    (do let a ← op; modify (f a); pure (g a) : Operation σ ε β).AtomicAt R s := by
  intro e s' heq
  rcases Operation.bind_eq_error.1 heq with hop | ⟨a, t, hop, hnever⟩
  · exact h e s' hop
  · cases hnever

/-- What is restored covers what is kept. -/
lemma Keeps.atomicAt_restoring {K : σ → σ → Prop} (h : op.Keeps K)
    (hrestore : ∀ s s', K s s' → R s (restore s s')) : (op.restoring restore).AtomicAt R s := by
  intro e t heq
  obtain ⟨s', hop, rfl⟩ := restoring_eq_error.1 heq
  exact hrestore s s' (h.of_eq hop)

end Operation
