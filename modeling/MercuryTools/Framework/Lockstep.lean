import Mathlib.Data.List.Basic
import Mathlib.Tactic.Common

/-!
# Two systems driven by the same calls

Two implementations of one interface answer the same calls, each answer being an acceptance or
a rejection.  They run in lockstep where every call is answered alike and leaves them in
related states; `lockstep` carries this from one call to a whole sequence.
-/

namespace Lockstep

variable {State Other Call : Type*}

/-- The answers to a sequence of calls and the state they leave. -/
def trace (step : State → Call → Bool × State) : State → List Call → List Bool × State
  | s, [] => ([], s)
  | s, c :: cs =>
      let answer := step s c
      let rest := trace step answer.2 cs
      (answer.1 :: rest.1, rest.2)

/-- Every call meets a condition in the state it is made in. -/
def Meets (step : State → Call → Bool × State) (P : State → Call → Prop) :
    State → List Call → Prop
  | _, [] => True
  | s, c :: cs => P s c ∧ Meets step P (step s c).2 cs

variable {step : State → Call → Bool × State} {s : State} {P : State → Call → Prop} {cs : List Call}

lemma trace_cons {s' : State} {c : Call} {b : Bool} (h : step s c = (b, s')) (cs : List Call) :
    trace step s (c :: cs) = (b :: (trace step s' cs).1, (trace step s' cs).2) := by
  simp only [trace, h]

lemma Meets.cons {step : State → Call → Bool × State} {P : State → Call → Prop} {s s' : State}
    {c : Call} {b : Bool} (h : step s c = (b, s')) (hc : P s c) {cs : List Call}
    (hcs : Meets step P s' cs) : Meets step P s (c :: cs) := by
  refine ⟨hc, ?_⟩
  rw [h]
  exact hcs

lemma Meets.of_append {ds : List Call} (h : Meets step P s (cs ++ ds)) : Meets step P s cs := by
  induction cs generalizing s with
  | nil => trivial
  | cons c cs ih => exact ⟨h.1, ih h.2⟩

/-- What every call under the condition keeps holds after all of them. -/
theorem trace_invariant {I : State → Prop} (h : ∀ s c, I s → P s c → I (step s c).2) (hs : I s)
    (hP : Meets step P s cs) : I (trace step s cs).2 := by
  induction cs generalizing s with
  | nil => exact hs
  | cons c cs ih => exact ih (h s c hs hP.1) hP.2

/-- What holds in the end held from the start, or some call brought it about. -/
theorem exists_call_of_trace {Q : State → Prop} (h : Q (trace step s cs).2) :
    Q s ∨ ∃ before c after, cs = before ++ c :: after ∧ ¬ Q (trace step s before).2 ∧
      Q (step (trace step s before).2 c).2 := by
  induction cs generalizing s with
  | nil => exact .inl h
  | cons c cs ih =>
      by_cases hs : Q s
      · exact .inl hs
      · refine .inr ?_
        rcases ih (s := (step s c).2) h with hfirst | ⟨before, d, after, rfl, hbefore, hafter⟩
        · exact ⟨[], c, cs, rfl, hs, hfirst⟩
        · exact ⟨c :: before, d, after, rfl, hbefore, hafter⟩

/-- From one call answered alike to all of them. -/
theorem lockstep {step' : Other → Call → Bool × Other} {R : State → Other → Prop}
    (h : ∀ s t c, R s t → P s c → (step s c).1 = (step' t c).1 ∧ R (step s c).2 (step' t c).2)
    {t : Other} (hR : R s t) (hP : Meets step P s cs) :
    (trace step s cs).1 = (trace step' t cs).1 ∧ R (trace step s cs).2 (trace step' t cs).2 := by
  induction cs generalizing s t with
  | nil => exact ⟨rfl, hR⟩
  | cons c cs ih =>
      obtain ⟨hc, hcs⟩ := hP
      obtain ⟨hanswer, hnext⟩ := h s t c hR hc
      obtain ⟨hanswers, hfinal⟩ := ih hnext hcs
      exact ⟨by simp only [trace, hanswer, hanswers], hfinal⟩

end Lockstep
