import MercuryTools.Framework.Checks

/-!
# Computations that change a state and stop at the first failure

A computation keeps an invariant and ensures a condition (`Keeps`) if, whenever it starts in a state
of the invariant and returns, its value meets the condition and the state is again one of the
invariant.  The rules follow the way a computation is built.

Nothing here refers to a particular system.
-/

namespace StatefulChecks

variable {σ ε α β : Type} {I : σ → Prop} {V : α → Prop} {W : β → Prop}

/-- From a state of the invariant, what is returned meets the condition, and the invariant is kept. -/
def Keeps (I : σ → Prop) (x : StateT σ (Except ε) α) (V : α → Prop) : Prop :=
  ∀ s a s', I s → x.run s = .ok (a, s') → V a ∧ I s'

namespace Keeps

lemma pure {a : α} (h : V a) : Keeps (ε := ε) I (pure a) V := by
  intro s b s' hs hrun
  obtain ⟨rfl, rfl⟩ := Prod.mk.inj (Except.ok.inj hrun)
  exact ⟨h, hs⟩

lemma throw {e : ε} : Keeps I (throw e : StateT σ (Except ε) α) V :=
  fun _ _ _ _ hrun => nomatch hrun

/-- A check that knows no state. -/
lemma lift {x : Except ε α} (h : ∀ a, x = .ok a → V a) :
    Keeps I (liftM x : StateT σ (Except ε) α) V := by
  intro s a s' hs hrun
  cases x with
  | error e => cases hrun
  | ok b =>
      obtain ⟨rfl, rfl⟩ := Prod.mk.inj (Except.ok.inj hrun)
      exact ⟨h _ rfl, hs⟩

lemma modify {f : σ → σ} (h : ∀ s, I s → I (f s)) :
    Keeps I (modify f : StateT σ (Except ε) Unit) fun _ => True := by
  intro s a s' hs hrun
  obtain ⟨-, rfl⟩ := Prod.mk.inj (Except.ok.inj hrun)
  exact ⟨trivial, h s hs⟩

lemma bind {x : StateT σ (Except ε) α} {f : α → StateT σ (Except ε) β} (hx : Keeps I x V)
    (hf : ∀ a, V a → Keeps I (f a) W) : Keeps I (x >>= f) W := by
  intro s b s' hs hrun
  rw [StateT.run_bind] at hrun
  obtain ⟨⟨a, t⟩, ha, hb⟩ := Checks.bind_eq_ok.1 hrun
  obtain ⟨hV, ht⟩ := hx s a t hs ha
  exact hf a hV t b s' ht hb

/-- A loop that collects a value for every element. -/
lemma mapM {V : α → β → Prop} {f : α → StateT σ (Except ε) β} {xs : List α}
    (h : ∀ x ∈ xs, Keeps I (f x) (V x)) : Keeps I (xs.mapM f) fun ys => List.Forall₂ V xs ys := by
  induction xs with
  | nil =>
      rw [List.mapM_nil]
      exact pure .nil
  | cons x xs ih =>
      rw [List.mapM_cons]
      refine bind (h x List.mem_cons_self) fun y hy => ?_
      refine bind (ih fun z hz => h z (List.mem_cons_of_mem _ hz)) fun ys hys => ?_
      exact pure (.cons hy hys)

end Keeps

end StatefulChecks
