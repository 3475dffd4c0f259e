import MercuryTools.Framework.CallSystem
import MercuryTools.Hosted.Transitions

/-!
# The status system of an operation

What the guards see of an operation: the status of the parent and the list of the statuses of
its children.  A move changes the parent's status or one child's, and is accepted where the
guard accepts it.  `HostedOperation` refines this system (`Hosted/OperationInvariant.lean`);
here it is studied by itself.

`Coherent` is the invariant of the states an operation can be in.  It is stronger than the
compatibility validator (`Coherent.compatible`), and unlike the validator it is closed under
every accepted move (`Coherent.step`).  Which coherent states can
still reach a terminal parent status is the subject of `Hosted/StatusExits.lean`.
-/

namespace MercuryTools
namespace Hosted

open CallSystem

@[ext]
structure Statuses where
  parent : ParentOperationState
  children : List OperationItemState
  deriving DecidableEq, Repr

inductive StatusMove where
  | parent (target : ParentOperationState)
  | item (index : Nat) (target : OperationItemState)
  deriving DecidableEq, Repr

namespace Statuses

/-- One move, accepted by the guard it falls under. -/
def step (s : Statuses) : StatusMove → Except Unit Statuses
  | .parent target =>
      if parentOperationTransitionAllowed s.parent target s.children then
        .ok { s with parent := target }
      else .error ()
  | .item index target =>
      match s.children[index]? with
      | none => .error ()
      | some child =>
          if itemOperationTransitionAllowed child target s.parent then
            .ok { s with children := s.children.set index target }
          else .error ()

variable {s s' : Statuses} {target p : ParentOperationState} {index : Nat} {t : OperationItemState}
  {cs : List OperationItemState}

lemma step_parent :
    s.step (.parent target) = .ok s' ↔
      parentOperationTransitionAllowed s.parent target s.children = true ∧
        s' = { s with parent := target } := by
  by_cases h : parentOperationTransitionAllowed s.parent target s.children = true
  · simp only [step, h, if_true, Except.ok.injEq, true_and]
    exact eq_comm
  · simp [step, h]

lemma step_item {target : OperationItemState} :
    s.step (.item index target) = .ok s' ↔
      ∃ child, s.children[index]? = some child ∧
        itemOperationTransitionAllowed child target s.parent = true ∧
        s' = { s with children := s.children.set index target } := by
  simp only [step]
  cases s.children[index]? with
  | none => simp
  | some child =>
      by_cases h : itemOperationTransitionAllowed child target s.parent = true
      · simp only [h, if_true, Except.ok.injEq, Option.some.injEq, exists_eq_left', true_and]
        exact eq_comm
      · simp [h]

/-! ## Coherent states -/

/-- The statuses a child can have under each parent status, in an operation that started with
every child awaiting confirmation. -/
def childrenUnder : ParentOperationState → List OperationItemState
  | .prepared => []
  | .awaitingConfirmation =>
      [.awaitingConfirmation, .failedPreDispatch, .notDispatched, .expired, .cancelled]
  | .failedPreDispatch => [.failedPreDispatch, .notDispatched, .cancelled]
  | .dispatching =>
      [.awaitingConfirmation, .failedPreDispatch, .dispatching, .succeeded, .providerRejected,
        .outcomeUnknown, .notDispatched]
  | .succeeded => [.succeeded]
  | .providerRejected => itemTerminal
  | .outcomeUnknown =>
      [.succeeded, .providerRejected, .outcomeUnknown, .needsManualReview, .notDispatched]
  | .needsManualReview => itemTerminal
  | .expired => [.expired]
  | .cancelled => [.cancelled, .notDispatched]

/-- The statuses one of which at least one child has, under each parent status. -/
def witnessesUnder : ParentOperationState → List OperationItemState
  | .providerRejected => [.providerRejected]
  | .outcomeUnknown => [.succeeded, .outcomeUnknown, .needsManualReview]
  | .needsManualReview => [.needsManualReview, .outcomeUnknown]
  | p => childrenUnder p

structure Coherent (s : Statuses) : Prop where
  all_mem : ∀ c ∈ s.children, c ∈ childrenUnder s.parent
  exists_mem : ∃ c ∈ s.children, c ∈ witnessesUnder s.parent

/-- A coherent state passes the validator. -/
theorem Coherent.compatible (h : s.Coherent) :
    parentOperationChildrenCompatible s.parent s.children = true := by
  obtain ⟨p, cs⟩ := s
  obtain ⟨hall, c, hc, hw⟩ := h
  have hne : cs.isEmpty = false := by
    simpa using List.ne_nil_of_mem hc
  simp only [parentOperationChildrenCompatible, hne, Bool.false_eq_true, if_false]
  have hsub : ∀ {t : List OperationItemState}, childrenUnder p ⊆ t → cs.all (· ∈ t) = true :=
    fun hsub => List.all_eq_true.2 fun d hd => by simpa using hsub (hall d hd)
  have hany : ∀ {t : List OperationItemState}, witnessesUnder p ⊆ t → cs.any (· ∈ t) = true :=
    fun hsub => List.any_eq_true.2 ⟨c, hc, by simpa using hsub hw⟩
  have heq : ∀ {t : OperationItemState}, childrenUnder p ⊆ [t] → cs.all (· == t) = true :=
    fun hsub => List.all_eq_true.2 fun d hd => by simpa using hsub (hall d hd)
  have hone : ∀ {t : OperationItemState}, witnessesUnder p ⊆ [t] → cs.any (· == t) = true :=
    fun hsub => List.any_eq_true.2 ⟨c, hc, by simpa using hsub hw⟩
  cases p with
  | prepared => exact hsub (by decide)
  | awaitingConfirmation => exact hsub (by decide)
  | failedPreDispatch => exact hsub (by decide)
  | dispatching => exact hsub (by decide)
  | succeeded => exact heq (by decide)
  | providerRejected => exact Bool.and_eq_true_iff.2 ⟨hsub (by decide), hone (by decide)⟩
  | outcomeUnknown => exact Bool.and_eq_true_iff.2 ⟨hsub (by decide), hany (by decide)⟩
  | needsManualReview => exact Bool.and_eq_true_iff.2 ⟨hsub (by decide), hany (by decide)⟩
  | expired => exact heq (by decide)
  | cancelled => exact hsub (by decide)

/-! ### Moves keep coherence -/

/-- Where an item move is accepted, its target is a status the parent admits, and it is one
that a parent in need of a witness is satisfied with. -/
lemma itemMove_target {c : OperationItemState} (hc : c ∈ childrenUnder p)
    (h : itemOperationTransitionAllowed c t p = true) :
    t ∈ childrenUnder p ∧ t ∈ witnessesUnder p := by
  have hall : ∀ c ∈ childrenUnder p, ∀ t ∈ itemTransitions c,
      itemOperationTransitionAllowed c t p = true → t ∈ childrenUnder p ∧ t ∈ witnessesUnder p := by
    cases p <;> decide
  exact hall c hc t (mem_itemTransitions h) h

lemma Coherent.step_item (h : s.Coherent) {child target : OperationItemState}
    (hchild : s.children[index]? = some child)
    (hallowed : itemOperationTransitionAllowed child target s.parent = true) :
    Coherent { s with children := s.children.set index target } := by
  obtain ⟨hmem, hwitness⟩ := itemMove_target (h.all_mem _ (List.mem_of_getElem? hchild)) hallowed
  obtain ⟨hlt, -⟩ := List.getElem?_eq_some_iff.1 hchild
  refine ⟨fun c hc => ?_, target, List.mem_set hlt target, hwitness⟩
  rcases List.mem_or_eq_of_mem_set hc with hc | rfl
  · exact h.all_mem c hc
  · exact hmem

/-- A list all of whose members lie in `t`, and one of which does. -/
lemma coherent_of_all {t : List OperationItemState} (hne : cs ≠ []) (hall : ∀ c ∈ cs, c ∈ t)
    (hunder : t ⊆ childrenUnder p) (hwitness : t ⊆ witnessesUnder p) : Coherent ⟨p, cs⟩ := by
  obtain ⟨c, hc⟩ := List.exists_mem_of_ne_nil cs hne
  exact ⟨fun c hc => hunder (hall c hc), c, hc, hwitness (hall c hc)⟩

lemma Coherent.children_ne_nil (h : s.Coherent) : s.children ≠ [] := by
  obtain ⟨c, hc, -⟩ := h.exists_mem
  exact List.ne_nil_of_mem hc

lemma all_mem_iff {t : List OperationItemState} : cs.all (· ∈ t) = true ↔ ∀ c ∈ cs, c ∈ t := by
  simp

lemma all_eq_iff : cs.all (· == t) = true ↔ ∀ c ∈ cs, c ∈ [t] := by
  simp

/-- The table row under which a parent move was accepted. -/
lemma mem_parentTransitions {t : ParentOperationState}
    (h : parentOperationTransitionAllowed p t cs = true) : t ∈ parentTransitions p := by
  by_contra hmem
  simp [parentOperationTransitionAllowed, hmem] at h

/-- What a parent move asks of the children, given that its table row has the target. -/
def targetAdmits (cs : List OperationItemState) : ParentOperationState → Prop
  | .prepared => True
  | .awaitingConfirmation => ∀ c ∈ cs, c ∈ [.prepared]
  | .dispatching => ∀ c ∈ cs, c ∈ [.awaitingConfirmation, .failedPreDispatch]
  | .failedPreDispatch => cs ≠ [] ∧ ∀ c ∈ cs, c ∈ [.failedPreDispatch, .notDispatched]
  | .succeeded => cs ≠ [] ∧ ∀ c ∈ cs, c ∈ [.succeeded]
  | .providerRejected =>
      cs ≠ [] ∧ (∀ c ∈ cs, c ∈ itemTerminal) ∧ ∃ c ∈ cs, c ∈ [.providerRejected]
  | .outcomeUnknown =>
      cs ≠ [] ∧ (∀ c ∈ cs, c ∈ itemTerminal) ∧ ∃ c ∈ cs, c ∈ [.outcomeUnknown]
  | .needsManualReview =>
      cs ≠ [] ∧ (∀ c ∈ cs, c ∈ itemTerminal) ∧ ∃ c ∈ cs, c ∈ [.needsManualReview, .outcomeUnknown]
  | .expired => cs ≠ [] ∧ ∀ c ∈ cs, c ∈ [.expired]
  | .cancelled => cs ≠ [] ∧ ∀ c ∈ cs, c ∈ [.cancelled, .notDispatched]

lemma parentAllowed_iff {t : ParentOperationState} (hmem : t ∈ parentTransitions p) :
    parentOperationTransitionAllowed p t cs = true ↔ targetAdmits cs t := by
  cases t <;> simp [parentOperationTransitionAllowed, hmem, targetAdmits, and_assoc]

lemma Coherent.parent_ne_prepared (h : s.Coherent) : s.parent ≠ .prepared := by
  intro hp
  obtain ⟨c, hc, hw⟩ := h.exists_mem
  simp [hp, witnessesUnder, childrenUnder] at hw

lemma Coherent.step_parent (h : s.Coherent)
    (hallowed : parentOperationTransitionAllowed s.parent target s.children = true) :
    Coherent { s with parent := target } := by
  have hmem := mem_parentTransitions hallowed
  have hne := h.children_ne_nil
  rw [parentAllowed_iff hmem] at hallowed
  cases target with
  | prepared => cases hp : s.parent <;> simp [hp, parentTransitions] at hmem
  | awaitingConfirmation =>
      -- only a prepared parent moves here
      have hp := h.parent_ne_prepared
      cases hp' : s.parent <;> simp [hp', parentTransitions] at hmem hp
  | dispatching => exact coherent_of_all hne hallowed (by decide) (by decide)
  | failedPreDispatch => exact coherent_of_all hne hallowed.2 (by decide) (by decide)
  | succeeded => exact coherent_of_all hne hallowed.2 (by decide) (by decide)
  | providerRejected => exact ⟨hallowed.2.1, hallowed.2.2⟩
  | outcomeUnknown =>
      -- a dispatching parent: its ended children exclude the two that never dispatched
      have hp : s.parent = .dispatching := by
        cases hp : s.parent <;> simp [hp, parentTransitions] at hmem ⊢
      obtain ⟨-, hall, c, hc, hunknown⟩ := hallowed
      refine ⟨fun d hd => ?_, c, hc, by simp_all [witnessesUnder]⟩
      have hunder : d ∈ childrenUnder .dispatching := hp ▸ h.all_mem d hd
      have hended := hall d hd
      change d ∈ childrenUnder .outcomeUnknown
      revert hunder hended
      cases d <;> decide
  | needsManualReview => exact ⟨hallowed.2.1, hallowed.2.2⟩
  | expired => exact coherent_of_all hne hallowed.2 (by decide) (by decide)
  | cancelled => exact coherent_of_all hne hallowed.2 (by decide) (by decide)

/-- Every accepted move keeps coherence. -/
theorem Coherent.step {s s' : Statuses} (h : s.Coherent) {move : StatusMove}
    (hmove : s.step move = .ok s') : s'.Coherent := by
  cases move with
  | parent target =>
      obtain ⟨hallowed, rfl⟩ := Statuses.step_parent.1 hmove
      exact h.step_parent hallowed
  | item index target =>
      obtain ⟨child, hchild, hallowed, rfl⟩ := Statuses.step_item.1 hmove
      exact h.step_item hchild hallowed

/-- An operation starts with every child awaiting confirmation. -/
lemma coherent_initial (hne : cs ≠ []) (hall : ∀ c ∈ cs, c = .awaitingConfirmation) :
    Coherent ⟨.awaitingConfirmation, cs⟩ :=
  coherent_of_all hne (show ∀ c ∈ cs, c ∈ [.awaitingConfirmation] by simpa using hall)
    (by decide) (by decide)

end Statuses

end Hosted
end MercuryTools
