import Mathlib.Logic.Relation
import Mathlib.Data.List.Basic
import Mathlib.Data.List.Induction

/-!
# Systems driven by calls that are accepted or rejected

A *call system* is a step function `step : State → Call → Except Error State`.  An accepted
call moves the system, a rejected one leaves it where it was.  This file fixes the vocabulary
the state machines of this development share: one attempted call (`attempt`), a whole run of
calls (`run`), the accepted moves (`Moves`) and reachability along them (`Reaches`), together
with the rules that carry a property from one accepted call to every run.

Nothing here refers to a particular system.
-/

namespace CallSystem

variable {State Call Error : Type*} (step : State → Call → Except Error State)

/-- The state after one call: the accepted state, or the same state where it is rejected. -/
def attempt (s : State) (c : Call) : State :=
  match step s c with
  | .ok s' => s'
  | .error _ => s

/-- The state after a sequence of calls, each accepted or rejected. -/
def run (s : State) (cs : List Call) : State :=
  cs.foldl (attempt step) s

/-- One accepted call. -/
def Moves (s s' : State) : Prop :=
  ∃ c, step s c = .ok s'

/-- Reachability along accepted calls. -/
def Reaches : State → State → Prop :=
  Relation.ReflTransGen (Moves step)

variable {step}

@[simp] lemma run_nil (s : State) : run step s [] = s := rfl

@[simp] lemma run_cons (s : State) (c : Call) (cs : List Call) :
    run step s (c :: cs) = run step (attempt step s c) cs := rfl

lemma run_append (s : State) (cs ds : List Call) :
    run step s (cs ++ ds) = run step (run step s cs) ds := by
  simp [run, List.foldl_append]

variable {s s' : State} {c : Call} {I : State → Prop}

lemma attempt_of_ok (h : step s c = .ok s') : attempt step s c = s' := by
  simp [attempt, h]

variable (step) in
/-- A call either moves the system or leaves it unchanged. -/
lemma attempt_cases (s : State) (c : Call) :
    step s c = .ok (attempt step s c) ∨ attempt step s c = s := by
  unfold attempt
  cases step s c with
  | ok s' => exact .inl rfl
  | error e => exact .inr rfl

/-! ## From one accepted call to a whole run -/

/-- A property that every accepted call preserves holds after every run. -/
theorem run_invariant (hstep : ∀ s c s', I s → step s c = .ok s' → I s') (hs : I s) (cs : List Call)
    : I (run step s cs) := by
  induction cs generalizing s with
  | nil => exact hs
  | cons c cs ih =>
      apply ih
      rcases attempt_cases step s c with h | h
      · exact hstep s c _ hs h
      · rw [h]; exact hs

/-- A property of the calls made so far and the state they lead to, which every call preserves,
holds after every run. -/
theorem run_history {I : List Call → State → Prop} (hnil : I [] s)
    (hok : ∀ cs c s', I cs (run step s cs) → step (run step s cs) c = .ok s' → I (cs ++ [c]) s')
    (herror : ∀ cs c, I cs (run step s cs) → I (cs ++ [c]) (run step s cs)) (cs : List Call) :
    I cs (run step s cs) := by
  induction cs using List.reverseRecOn with
  | nil => exact hnil
  | append_singleton cs c ih =>
      rw [run_append, run_cons, run_nil]
      rcases attempt_cases step (run step s cs) c with h | h
      · exact hok cs c _ ih h
      · rw [h]
        exact herror cs c ih

/-- A reflexive and transitive relation between the states before and after every accepted
call relates the ends of every run. -/
theorem run_relates {R : State → State → Prop} (hrefl : ∀ s, R s s)
    (htrans : ∀ s t u, R s t → R t u → R s u) (hinv : ∀ s c s', I s → step s c = .ok s' → I s')
    (hstep : ∀ s c s', I s → step s c = .ok s' → R s s') (hs : I s) (cs : List Call) :
    R s (run step s cs) := by
  induction cs generalizing s with
  | nil => exact hrefl s
  | cons c cs ih =>
      rcases attempt_cases step s c with h | h
      · exact htrans _ _ _ (hstep s c _ hs h) (ih (hinv s c _ hs h))
      · rw [run_cons, h]; exact ih hs

lemma Reaches.refl (s : State) : Reaches step s s := Relation.ReflTransGen.refl

lemma Reaches.single (h : step s c = .ok s') : Reaches step s s' :=
  Relation.ReflTransGen.single ⟨c, h⟩

lemma Reaches.trans {t u : State} (h : Reaches step s t) (k : Reaches step t u) :
    Reaches step s u :=
  Relation.ReflTransGen.trans h k

/-- An invariant of accepted calls holds in every reachable state. -/
theorem Reaches.invariant (hstep : ∀ s c s', I s → step s c = .ok s' → I s') (h : Reaches step s s')
    (hs : I s) : I s' := by
  induction h with
  | refl => exact hs
  | tail _ hmove ih =>
      obtain ⟨c, hc⟩ := hmove
      exact hstep _ c _ ih hc

end CallSystem
