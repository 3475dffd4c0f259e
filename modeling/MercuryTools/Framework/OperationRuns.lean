import Mathlib.Data.List.Infix
import MercuryTools.Framework.Operations

/-!
# Runs of operations

A run performs one operation after the other; one that raises ends its own call only.  A call of a
run *occurs* after the calls before it, with what it returned or raised.

An event that leaves a mark, which nothing removes and which excludes the event, occurs at most
once.

Nothing here refers to a particular system.
-/

namespace Operation

variable {κ σ ε α : Type} (perform : κ → Operation σ ε α)

/-- The state after the calls. -/
def runAll (s : σ) (calls : List κ) : σ :=
  calls.foldl (fun s call => (perform call s).2) s

/-- The call occurs in the run after the calls of `prior`, with the result. -/
def Occurs (s : σ) (calls prior : List κ) (call : κ) (result : Except ε α) : Prop :=
  prior ++ [call] <+: calls ∧ (perform call (runAll perform s prior)).1 = result

variable {perform} {s : σ} {calls prior prior' : List κ} {call call' : κ} {result : Except ε α}

lemma runAll_append (calls later : List κ) :
    runAll perform s (calls ++ later) = runAll perform (runAll perform s calls) later :=
  List.foldl_append

lemma runAll_concat (calls : List κ) (call : κ) :
    runAll perform s (calls ++ [call]) = (perform call (runAll perform s calls)).2 :=
  runAll_append calls [call]

/-- What the call returned and the state it left. -/
lemma Occurs.perform_eq (h : Occurs perform s calls prior call result) :
    perform call (runAll perform s prior) = (result, runAll perform s (prior ++ [call])) := by
  rw [runAll_concat, ← h.2]

lemma Occurs.mono (h : Occurs perform s prior' prior call result) (hinitial : prior' <+: calls) :
    Occurs perform s calls prior call result :=
  ⟨h.1.trans hinitial, h.2⟩

lemma occurs_of_initial (h : prior ++ [call] <+: calls) :
    Occurs perform s calls prior call (perform call (runAll perform s prior)).1 :=
  ⟨h, rfl⟩

/-- What holds at first and is kept by every call of the run holds before each of them. -/
theorem runAll_invariant (I : List κ → σ → Prop) (hnil : I [] s)
    (hstep : ∀ prior call, prior ++ [call] <+: calls → I prior (runAll perform s prior) →
      I (prior ++ [call]) (runAll perform s (prior ++ [call]))) :
    ∀ prior, prior <+: calls → I prior (runAll perform s prior) := by
  intro prior
  induction prior using List.reverseRecOn with
  | nil => exact fun _ => hnil
  | append_singleton prior call ih =>
      intro hinitial
      exact hstep prior call hinitial (ih ((List.prefix_append prior [call]).trans hinitial))

/-- What holds at some point of the run and is kept by every call of the run holds from there. -/
lemma runAll_kept {P : σ → Prop}
    (hkeep : ∀ prior call, prior ++ [call] <+: calls → P (runAll perform s prior) →
      P (runAll perform s (prior ++ [call])))
    (hprior : P (runAll perform s prior)) (hinitial : prior <+: prior') (hcalls : prior' <+: calls) :
    P (runAll perform s prior') := by
  obtain ⟨middle, rfl⟩ := hinitial
  induction middle using List.reverseRecOn with
  | nil => rwa [List.append_nil]
  | append_singleton middle call ih =>
      rw [← List.append_assoc] at hcalls ⊢
      have hbefore : prior ++ middle <+: calls := (List.prefix_append _ [call]).trans hcalls
      exact hkeep _ call hcalls (ih hbefore)

/-- A call of a run is one of the calls before the last one, or that one. -/
lemma prefix_concat_cases (h : prior ++ [call] <+: calls ++ [call']) :
    prior ++ [call] <+: calls ∨ prior = calls ∧ call = call' := by
  rcases List.prefix_concat_iff.1 h with heq | hbefore
  · exact .inr (List.append_inj' heq rfl |>.imp_right List.singleton_inj.1)
  · exact .inl hbefore

/-- Of two calls of a run, one is the other or comes before it. -/
lemma prefix_cases (h : prior ++ [call] <+: calls) (h' : prior' ++ [call'] <+: calls) :
    prior = prior' ∨ prior ++ [call] <+: prior' ∨ prior' ++ [call'] <+: prior := by
  have hprior : prior <+: calls := (List.prefix_append _ _).trans h
  have hprior' : prior' <+: calls := (List.prefix_append _ _).trans h'
  rcases Nat.lt_trichotomy prior.length prior'.length with hlt | heq | hgt
  · refine .inr (.inl (List.prefix_of_prefix_length_le h hprior' ?_))
    rw [List.length_append, List.length_singleton]
    omega
  · exact .inl ((List.prefix_of_prefix_length_le hprior hprior' heq.le).eq_of_length heq)
  · refine .inr (.inr (List.prefix_of_prefix_length_le h' hprior ?_))
    rw [List.length_append, List.length_singleton]
    omega

/-- An event that leaves the mark `P`, where no call removes the mark and the event never occurs
under it, occurs at most once. -/
theorem occurs_unique (P : σ → Prop) (event : κ → Except ε α → Prop)
    (hmark : ∀ prior call result, Occurs perform s calls prior call result → event call result →
      P (runAll perform s (prior ++ [call])))
    (hkeep : ∀ prior call, prior ++ [call] <+: calls → P (runAll perform s prior) →
      P (runAll perform s (prior ++ [call])))
    (hexcludes : ∀ prior call result, Occurs perform s calls prior call result →
      event call result → ¬ P (runAll perform s prior))
    {result' : Except ε α} (h : Occurs perform s calls prior call result)
    (hevent : event call result)
    (h' : Occurs perform s calls prior' call' result') (hevent' : event call' result') :
    prior = prior' := by
  rcases prefix_cases h.1 h'.1 with heq | hbefore | hafter
  · exact heq
  · have hmarked := hmark prior call result h hevent
    have hprior' : prior' <+: calls := (List.prefix_append _ _).trans h'.1
    exact absurd (runAll_kept hkeep hmarked hbefore hprior') (hexcludes _ _ _ h' hevent')
  · have hmarked := hmark prior' call' result' h' hevent'
    have hprior : prior <+: calls := (List.prefix_append _ _).trans h.1
    exact absurd (runAll_kept hkeep hmarked hafter hprior) (hexcludes _ _ _ h hevent)

end Operation
