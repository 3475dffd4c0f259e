import Mathlib.Tactic.Common

/-!
# Parent and item state contracts of a hosted operation

The two state enumerations of `execution/hosted/transitions.py`, their transition tables and
the three predicates over them: the parent guard, the item guard and the compatibility of a
parent with its children.  The source writes the guards over strings or members and coerces
first; here they take members, and the coercion is `ofValue?`.
-/

namespace MercuryTools
namespace Hosted

inductive ParentOperationState where
  | prepared
  | awaitingConfirmation
  | dispatching
  | succeeded
  | failedPreDispatch
  | providerRejected
  | outcomeUnknown
  | needsManualReview
  | expired
  | cancelled
  deriving DecidableEq, Repr

inductive OperationItemState where
  | prepared
  | awaitingConfirmation
  | dispatching
  | succeeded
  | failedPreDispatch
  | providerRejected
  | outcomeUnknown
  | needsManualReview
  | notDispatched
  | expired
  | cancelled
  deriving DecidableEq, Repr

namespace ParentOperationState

def value : ParentOperationState → String
  | prepared => "prepared"
  | awaitingConfirmation => "awaiting_confirmation"
  | dispatching => "dispatching"
  | succeeded => "succeeded"
  | failedPreDispatch => "failed_pre_dispatch"
  | providerRejected => "provider_rejected"
  | outcomeUnknown => "outcome_unknown"
  | needsManualReview => "needs_manual_review"
  | expired => "expired"
  | cancelled => "cancelled"

def members : List ParentOperationState :=
  [prepared, awaitingConfirmation, dispatching, succeeded, failedPreDispatch, providerRejected,
    outcomeUnknown, needsManualReview, expired, cancelled]

/-- `ParentOperationState(value)`: the member with this value, if there is one. -/
def ofValue? (v : String) : Option ParentOperationState :=
  members.find? (fun s => s.value == v)

lemma value_injective : Function.Injective value := by
  intro s t
  cases s <;> cases t <;> simp [value]

@[simp] lemma ofValue?_value (s : ParentOperationState) : ofValue? s.value = some s := by
  cases s <;> decide

lemma value_of_ofValue? {v : String} {s : ParentOperationState} (h : ofValue? v = some s) :
    s.value = v := by
  simpa using List.find?_some h

end ParentOperationState

namespace OperationItemState

def value : OperationItemState → String
  | prepared => "prepared"
  | awaitingConfirmation => "awaiting_confirmation"
  | dispatching => "dispatching"
  | succeeded => "succeeded"
  | failedPreDispatch => "failed_pre_dispatch"
  | providerRejected => "provider_rejected"
  | outcomeUnknown => "outcome_unknown"
  | needsManualReview => "needs_manual_review"
  | notDispatched => "not_dispatched"
  | expired => "expired"
  | cancelled => "cancelled"

def members : List OperationItemState :=
  [prepared, awaitingConfirmation, dispatching, succeeded, failedPreDispatch, providerRejected,
    outcomeUnknown, needsManualReview, notDispatched, expired, cancelled]

/-- `OperationItemState(value)`: the member with this value, if there is one. -/
def ofValue? (v : String) : Option OperationItemState :=
  members.find? (fun s => s.value == v)

lemma value_injective : Function.Injective value := by
  intro s t
  cases s <;> cases t <;> simp [value]

@[simp] lemma ofValue?_value (s : OperationItemState) : ofValue? s.value = some s := by
  cases s <;> decide

lemma value_of_ofValue? {v : String} {s : OperationItemState} (h : ofValue? v = some s) :
    s.value = v := by
  simpa using List.find?_some h

end OperationItemState

/-! ## Transition tables -/

/-- `_PARENT_TRANSITIONS`. -/
def parentTransitions : ParentOperationState → List ParentOperationState
  | .prepared => [.awaitingConfirmation, .expired, .cancelled]
  | .awaitingConfirmation => [.dispatching, .failedPreDispatch, .expired, .cancelled]
  | .failedPreDispatch => [.dispatching, .cancelled]
  | .dispatching => [.succeeded, .providerRejected, .outcomeUnknown, .needsManualReview]
  | .outcomeUnknown => [.succeeded, .needsManualReview]
  | .succeeded => []
  | .providerRejected => []
  | .needsManualReview => []
  | .expired => []
  | .cancelled => []

/-- `_ITEM_TRANSITIONS`. -/
def itemTransitions : OperationItemState → List OperationItemState
  | .prepared => [.awaitingConfirmation, .expired, .cancelled]
  | .awaitingConfirmation =>
      [.dispatching, .failedPreDispatch, .notDispatched, .cancelled, .expired]
  | .failedPreDispatch => [.dispatching, .cancelled]
  | .dispatching => [.succeeded, .providerRejected, .outcomeUnknown]
  | .outcomeUnknown => [.succeeded, .needsManualReview]
  | .succeeded => []
  | .providerRejected => []
  | .needsManualReview => []
  | .notDispatched => []
  | .expired => []
  | .cancelled => []

/-- `_ITEM_TERMINAL`: the item states in which a dispatch has ended.  `outcomeUnknown` is
among them although its row of `itemTransitions` is not empty. -/
def itemTerminal : List OperationItemState :=
  [.succeeded, .providerRejected, .outcomeUnknown, .needsManualReview, .notDispatched, .expired,
    .cancelled]

/-- `_DISPATCH_RECOVERY_STATES`. -/
def dispatchRecoveryStates : List OperationItemState :=
  [.succeeded, .providerRejected, .outcomeUnknown, .needsManualReview, .notDispatched]

/-- A parent state with no way out in the transition table. -/
def ParentOperationState.isTerminal (s : ParentOperationState) : Bool :=
  (parentTransitions s).isEmpty

/-- An item state with no way out in the transition table. -/
def OperationItemState.isTerminal (s : OperationItemState) : Bool :=
  (itemTransitions s).isEmpty

/-! ## Guards -/

def parentOperationTransitionAllowed (source destination : ParentOperationState)
    (children : List OperationItemState) : Bool :=
  if destination ∉ parentTransitions source then false
  else match destination with
  | .awaitingConfirmation => children.all (· == .prepared)
  | .dispatching => children.all (· ∈ [.awaitingConfirmation, .failedPreDispatch])
  | .failedPreDispatch =>
      !children.isEmpty && children.all (· ∈ [.failedPreDispatch, .notDispatched])
  | .succeeded => !children.isEmpty && children.all (· == .succeeded)
  | .providerRejected =>
      !children.isEmpty && children.all (· ∈ itemTerminal) &&
        children.any (· == .providerRejected)
  | .outcomeUnknown =>
      !children.isEmpty && children.all (· ∈ itemTerminal) && children.any (· == .outcomeUnknown)
  | .needsManualReview =>
      !children.isEmpty && children.all (· ∈ itemTerminal) &&
        children.any (· ∈ [.needsManualReview, .outcomeUnknown])
  | .expired => !children.isEmpty && children.all (· == .expired)
  | .cancelled => !children.isEmpty && children.all (· ∈ [.cancelled, .notDispatched])
  | .prepared => true

def parentOperationChildrenCompatible (parent : ParentOperationState)
    (children : List OperationItemState) : Bool :=
  if children.isEmpty then false
  else match parent with
  | .prepared => children.all (· ∈ [.prepared, .cancelled, .expired])
  | .awaitingConfirmation =>
      children.all (· ∈ [.prepared, .awaitingConfirmation, .failedPreDispatch, .notDispatched,
        .expired, .cancelled])
  | .failedPreDispatch => children.all (· ∈ [.failedPreDispatch, .notDispatched, .cancelled])
  | .dispatching =>
      children.all (· ∈ [.awaitingConfirmation, .failedPreDispatch, .dispatching] ++
        dispatchRecoveryStates)
  | .succeeded => children.all (· == .succeeded)
  | .providerRejected => children.all (· ∈ itemTerminal) && children.any (· == .providerRejected)
  | .outcomeUnknown =>
      children.all (· ∈ itemTerminal) &&
        children.any (· ∈ [.succeeded, .outcomeUnknown, .needsManualReview])
  | .needsManualReview =>
      children.all (· ∈ itemTerminal) && children.any (· ∈ [.needsManualReview, .outcomeUnknown])
  | .expired => children.all (· == .expired)
  | .cancelled => children.all (· ∈ [.cancelled, .notDispatched])

def itemOperationTransitionAllowed (source destination : OperationItemState)
    (parent : ParentOperationState) : Bool :=
  if destination ∉ itemTransitions source then false
  else match source with
  | .prepared =>
      if destination = .awaitingConfirmation then parent == .awaitingConfirmation
      else parent == .prepared
  | .awaitingConfirmation =>
      if destination = .dispatching then parent == .dispatching
      else if destination = .notDispatched then parent ∈ [.awaitingConfirmation, .dispatching]
      else parent == .awaitingConfirmation
  | .failedPreDispatch =>
      if destination = .dispatching then parent == .dispatching
      else parent == .failedPreDispatch
  | .dispatching => parent == .dispatching
  | .outcomeUnknown => parent == .outcomeUnknown
  | _ => false

/-- An accepted item move is one of the table. -/
lemma mem_itemTransitions {source destination : OperationItemState} {parent : ParentOperationState}
    (h : itemOperationTransitionAllowed source destination parent = true) :
    destination ∈ itemTransitions source := by
  by_contra hmem
  simp [itemOperationTransitionAllowed, hmem] at h

end Hosted
end MercuryTools
