import Mathlib.Data.List.Basic
import Mathlib.Data.List.Induction
import Mathlib.Tactic.Common

/-!
# Computations that stop at the first failed check

Validators are written as `do` blocks in `Except`: a check that fails ends the computation
with its code.  The lemmas here take such a block apart: which checks passed when it
succeeded (`bind_eq_ok`, `require_eq_ok`), and what a list of successful validations is
element by element (`mapM_eq_ok`).
-/

namespace Checks

universe u

variable {ε : Type*} {α β : Type u}

/-- Continue if the check holds, stop with `code` otherwise. -/
def require (b : Bool) (code : ε) : Except ε Unit :=
  if b then .ok () else .error code

variable {b : β} {x : Except ε α} {f : α → Except ε β} {a : α} {xs : List α} {ys : List β}
  {σ : Type u}

@[simp] lemma require_eq_ok {b : Bool} {code : ε} {u : Unit} :
    require b code = .ok u ↔ b = true := by
  cases b <;> simp [require]

@[simp] lemma require_true (code : ε) : require true code = .ok () := rfl


@[simp] lemma bind_eq_ok : (x >>= f) = .ok b ↔ ∃ a, x = .ok a ∧ f a = .ok b := by
  cases x with
  | ok a => simp [bind, Except.bind]
  | error e => simp [bind, Except.bind]

@[simp] lemma pure_eq_ok {b : α} : (pure a : Except ε α) = .ok b ↔ a = b := by
  simp [pure, Except.pure]

lemma map_eq_ok {f : α → β} : f <$> x = .ok b ↔ ∃ a, x = .ok a ∧ f a = b := by
  cases x with
  | ok a => simp [Functor.map, Except.map]
  | error e => simp [Functor.map, Except.map]

/-- Another error code does not change what succeeds. -/
@[simp] lemma mapError_eq_ok {ε' : Type*} {f : ε → ε'} : x.mapError f = .ok a ↔ x = .ok a := by
  cases x with
  | ok b => simp [Except.mapError]
  | error e => simp [Except.mapError]

/-- A list of validations succeeds exactly when each of them does, in the same order. -/
lemma mapM_eq_ok : xs.mapM f = .ok ys ↔ List.Forall₂ (fun x y => f x = .ok y) xs ys := by
  induction xs generalizing ys with
  | nil =>
      rw [List.mapM_nil, pure_eq_ok]
      constructor
      · rintro rfl; exact .nil
      · rintro ⟨⟩; rfl
  | cons x xs ih =>
      rw [List.mapM_cons]
      simp only [bind_eq_ok, pure_eq_ok]
      constructor
      · rintro ⟨y, hy, zs, hzs, rfl⟩
        exact .cons hy (ih.1 hzs)
      · rintro (_ | ⟨hy, hys⟩)
        exact ⟨_, hy, _, ih.2 hys, rfl⟩

/-- The element that a value was collected for. -/
lemma exists_of_forall₂ {R : α → β → Prop} (h : List.Forall₂ R xs ys) {y : β} (hy : y ∈ ys) :
    ∃ x ∈ xs, R x y := by
  induction h with
  | nil => cases hy
  | cons hR _ ih =>
      rcases List.mem_cons.1 hy with rfl | hy
      · exact ⟨_, List.mem_cons_self, hR⟩
      · obtain ⟨x, hx, hxy⟩ := ih hy
        exact ⟨x, List.mem_cons_of_mem _ hx, hxy⟩

/-- Where every element passes, so does the list. -/
lemma exists_mapM_eq_ok (h : ∀ x ∈ xs, ∃ y, f x = .ok y) : ∃ ys, xs.mapM f = .ok ys := by
  induction xs with
  | nil => exact ⟨[], mapM_eq_ok.2 .nil⟩
  | cons x xs ih =>
      obtain ⟨y, hy⟩ := h x List.mem_cons_self
      obtain ⟨ys, hys⟩ := ih fun z hz => h z (List.mem_cons_of_mem _ hz)
      exact ⟨y :: ys, mapM_eq_ok.2 (.cons hy (mapM_eq_ok.1 hys))⟩

/-- A loop of validations succeeds exactly when each of them does. -/
lemma forM_eq_ok {β : Type*} {f : β → Except ε PUnit} {xs : List β} {u : PUnit} :
    xs.forM f = .ok u ↔ ∀ x ∈ xs, f x = .ok ⟨⟩ := by
  induction xs with
  | nil => simp [List.forM, pure, Except.pure]
  | cons x xs ih =>
      rw [List.forM, bind_eq_ok, List.forall_mem_cons, ih]
      constructor
      · rintro ⟨_, hx, hxs⟩
        exact ⟨hx, hxs⟩
      · rintro ⟨hx, hxs⟩
        exact ⟨_, hx, hxs⟩

/-- What every step of a loop preserves holds when the loop has succeeded. -/
lemma foldlM_ok {I : σ → Prop} {f : σ → β → Except ε σ} {xs : List β}
    (hstep : ∀ x ∈ xs, ∀ s s', I s → f s x = .ok s' → I s') {s s' : σ} (hs : I s)
    (h : xs.foldlM f s = .ok s') : I s' := by
  induction xs generalizing s with
  | nil =>
      rw [List.foldlM_nil, pure_eq_ok] at h
      exact h ▸ hs
  | cons x xs ih =>
      rw [List.foldlM_cons, bind_eq_ok] at h
      obtain ⟨t, ht, h⟩ := h
      exact ih (fun y hy => hstep y (List.mem_cons_of_mem _ hy))
        (hstep x List.mem_cons_self s t hs ht) h

/-- What the steps of a loop say about the elements so far holds when the loop has succeeded. -/
lemma foldlM_ok_append {I : List β → σ → Prop} {f : σ → β → Except ε σ} {xs : List β}
    (hstep : ∀ before x s s', I before s → f s x = .ok s' → I (before ++ [x]) s') {s s' : σ}
    (hs : I [] s) (h : xs.foldlM f s = .ok s') : I xs s' := by
  induction xs using List.reverseRecOn generalizing s' with
  | nil =>
      rw [List.foldlM_nil, pure_eq_ok] at h
      exact h ▸ hs
  | append_singleton xs x ih =>
      simp only [List.foldlM_append, List.foldlM_cons, List.foldlM_nil, bind_eq_ok,
        pure_eq_ok] at h
      obtain ⟨t, hfold, u, hlast, rfl⟩ := h
      exact hstep xs x t u (ih hfold) hlast

/-- A loop whose every step passes, given what holds after the elements before it. -/
lemma exists_foldlM_eq_ok (f : σ → β → Except ε σ) (xs : List β) (I : List β → σ → Prop)
    (hstep : ∀ before x after, xs = before ++ x :: after → ∀ s, I before s →
      ∃ s', f s x = .ok s' ∧ I (before ++ [x]) s') {s : σ} (hs : I [] s) :
    ∃ s', xs.foldlM f s = .ok s' ∧ I xs s' := by
  induction xs using List.reverseRecOn with
  | nil => exact ⟨s, rfl, hs⟩
  | append_singleton xs x ih =>
      obtain ⟨t, hfold, ht⟩ := ih fun before y after heq =>
        hstep before y (after ++ [x]) (by rw [heq, List.append_assoc, List.cons_append])
      obtain ⟨s', hlast, hs'⟩ := hstep xs x [] rfl t ht
      refine ⟨s', ?_, hs'⟩
      rw [List.foldlM_append, hfold]
      simp only [List.foldlM_cons, List.foldlM_nil, bind_eq_ok, Except.ok.injEq, exists_eq_left']
      exact ⟨s', hlast, rfl⟩

end Checks
