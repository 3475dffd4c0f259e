import Mathlib.Data.List.Forall2
import MercuryTools.Hosted.Operation
import MercuryTools.Hosted.StatusSystem

/-!
# What validation accepts, and what it changes

A validated operation is the operation that went in, except that the texts of its provider
result identifiers were projected once more.  `HostedOperation.sameUpToTexts` is that
relation, through `shape`, which forgets the texts, and `validate_eq_ok` takes a successful
validation apart: the conditions are `HostedOperation.WellFormed`, on the result.
-/

namespace MercuryTools
namespace Hosted

open Checks

section

variable {sanitize : String → Option String}

/-! ## Items -/

/-- The item with the text of its provider result identifier forgotten. -/
def OperationItem.shape (item : OperationItem) : OperationItem :=
  { item with providerResultIdentifier := item.providerResultIdentifier.map fun _ => "" }

/-- The checks of `OperationItem.model_validate` that are not about text projection. -/
structure OperationItem.WellFormed (item : OperationItem) : Prop where
  index_lt : item.itemIndex < maxBatchDocuments
  client_item_id : isIdentifier item.clientItemId = true
  call_hash : isSha256 item.providerCallHash = true
  integrity_hash : isSha256 item.previewIntegrityHash = true
  version_pos : 1 ≤ item.stateVersion
  id_ne : item.operationItemId ≠ 0
  preview_id_ne : item.previewItemId ≠ 0
  created_le : item.createdAt ≤ item.updatedAt
  identifier_iff : item.state = .succeeded ↔ item.providerResultIdentifier.isSome = true

/-- The text of the provider result identifier passes its field's checks. -/
def OperationItem.TextAccepted (sanitize : String → Option String) (item : OperationItem) : Prop :=
  ∃ r, validateProviderResultIdentifier sanitize item.providerResultIdentifier = .ok r

lemma isSome_of_validateProviderResultIdentifier {o r : Option String}
    (h : validateProviderResultIdentifier sanitize o = .ok r) : r.isSome = o.isSome := by
  cases o with
  | none => cases h; rfl
  | some value =>
      simp only [validateProviderResultIdentifier, bind_eq_ok, require_eq_ok, pure_eq_ok] at h
      obtain ⟨projected, -, -, -, rfl⟩ := h
      rfl

variable {item item' : OperationItem} {event event' : OperationEvent}

lemma OperationItem.validate_eq_ok :
    item.validate sanitize = .ok item' ↔
      ∃ r, validateProviderResultIdentifier sanitize item.providerResultIdentifier = .ok r ∧
        item' = { item with providerResultIdentifier := r } ∧ item'.WellFormed := by
  simp only [OperationItem.validate, bind_eq_ok, require_eq_ok, pure_eq_ok, exists_and_left,
    exists_const, decide_eq_true_eq, Bool.and_eq_true, bne_iff_ne, beq_iff_eq]
  constructor
  · rintro ⟨h1, h2, h3, h4, h5, r, hr, ⟨h6, h7⟩, h8, h9, rfl⟩
    exact ⟨r, hr, rfl, h1, h2, h3, h4, h5, h6, h7, h8, by rw [← h9]; simp⟩
  · rintro ⟨r, hr, rfl, h⟩
    refine ⟨h.index_lt, h.client_item_id, h.call_hash, h.integrity_hash, h.version_pos, r, hr,
      ⟨h.id_ne, h.preview_id_ne⟩, h.created_le, ?_, rfl⟩
    rw [Bool.eq_iff_iff, beq_iff_eq]
    exact h.identifier_iff

lemma OperationItem.shape_of_validate (h : item.validate sanitize = .ok item') :
    item'.shape = item.shape := by
  obtain ⟨r, hr, rfl, -⟩ := validate_eq_ok.1 h
  have := isSome_of_validateProviderResultIdentifier hr
  cases r <;> cases hi : item.providerResultIdentifier <;> simp_all [shape]

lemma OperationItem.wellFormed_shape : item.shape.WellFormed ↔ item.WellFormed := by
  constructor
  · intro h
    exact ⟨h.1, h.2, h.3, h.4, h.5, h.6, h.7, h.8, by simpa [shape] using h.9⟩
  · intro h
    exact ⟨h.1, h.2, h.3, h.4, h.5, h.6, h.7, h.8, by simpa [shape] using h.9⟩

/-! ## Events -/

lemma OperationEvent.eq_of_validate (h : event.validate sanitize = .ok event') :
    event' = event := by
  simp only [OperationEvent.validate, requireSafePublicIdentifier, bind_eq_ok, require_eq_ok,
    pure_eq_ok] at h
  obtain ⟨-, -, reason, ⟨-, -, -, -, rfl⟩, -, -, -, -, rfl⟩ := h
  rfl

/-- The checks on the reason of an event: it is an identifier and its public projection. -/
def ReasonAccepted (sanitize : String → Option String) (reason : String) : Prop :=
  requireSafePublicIdentifier sanitize reason "operation_transition_invalid" = .ok reason ∧
    isIdentifier reason = true

lemma OperationEvent.validate_eq_ok :
    event.validate sanitize = .ok event' ↔
      event' = event ∧ 1 ≤ event.stateVersion ∧ ReasonAccepted sanitize event.sanitizedReason ∧
        event.toState ∈ eventStates ∧ ∀ s, event.fromState = some s → s ∈ eventStates := by
  constructor
  · intro h
    obtain rfl := eq_of_validate h
    simp only [OperationEvent.validate, bind_eq_ok, require_eq_ok, pure_eq_ok, Bool.and_eq_true,
      decide_eq_true_eq, Option.all_eq_true] at h
    obtain ⟨-, hversion, reason, hreason, -, hid, -, ⟨hto, hfrom⟩, heq⟩ := h
    obtain rfl : reason = event'.sanitizedReason := congrArg (·.sanitizedReason) heq
    exact ⟨rfl, hversion, ⟨hreason, hid⟩, hto, hfrom⟩
  · rintro ⟨rfl, hversion, ⟨hreason, hid⟩, hto, hfrom⟩
    simp only [OperationEvent.validate, bind_eq_ok, require_eq_ok, pure_eq_ok, Bool.and_eq_true,
      decide_eq_true_eq, Option.all_eq_true]
    exact ⟨(), hversion, _, hreason, (), hid, (), ⟨hto, hfrom⟩, rfl⟩

lemma value_mem_eventStates (s : ParentOperationState) : s.value ∈ eventStates := by
  cases s <;> decide

lemma itemValue_mem_eventStates (s : OperationItemState) : s.value ∈ eventStates := by
  cases s <;> decide

/-! ## Operations -/

namespace HostedOperation

/-- What the status system sees of an operation. -/
def statuses (op : HostedOperation) : Statuses :=
  ⟨op.state, op.childStates⟩

/-- The operation with the texts of its provider result identifiers forgotten. -/
def shape (op : HostedOperation) : HostedOperation :=
  { op with items := op.items.map OperationItem.shape }

/-- The checks of `HostedOperation.model_validate` that are not about text projection. -/
structure WellFormed (sanitize : String → Option String) (op : HostedOperation) : Prop where
  fields : op.fieldsValid = true
  version_pos : 1 ≤ op.stateVersion
  items_length : 1 ≤ op.items.length ∧ op.items.length ≤ maxBatchDocuments
  items : ∀ item ∈ op.items, item.WellFormed
  events : ∀ event ∈ op.events, event.validate sanitize = .ok event
  events_ne : op.events ≠ []
  whole : op.validateOperation = .ok ()

variable {items : List OperationItem} {op op' : HostedOperation}

lemma map_shape_of_validate {items' : List OperationItem}
    (h : List.Forall₂ (fun item item' => item.validate sanitize = .ok item') items items') :
    items'.map OperationItem.shape = items.map OperationItem.shape := by
  induction h with
  | nil => rfl
  | cons hhead _ ih => simp [OperationItem.shape_of_validate hhead, ih]

lemma events_eq_of_validate {events events' : List OperationEvent}
    (h : List.Forall₂ (fun event event' => event.validate sanitize = .ok event') events events') :
    events' = events ∧ ∀ event ∈ events, event.validate sanitize = .ok event := by
  induction h with
  | nil => simp
  | cons hhead _ ih =>
      obtain rfl := OperationEvent.eq_of_validate hhead
      obtain ⟨rfl, hall⟩ := ih
      exact ⟨rfl, by simpa using ⟨hhead, hall⟩⟩

/-- A successful validation returns a well-formed operation of the same shape. -/
theorem validate_ok (h : op.validate sanitize = .ok op') :
    op'.shape = op.shape ∧ op'.WellFormed sanitize := by
  simp only [validate, bind_eq_ok, require_eq_ok, pure_eq_ok, mapM_eq_ok] at h
  obtain ⟨-, hfields, -, hversion, items, hitems, -, hlength, events, hevents, -, hne, ⟨⟩, hwhole,
    rfl⟩ := h
  obtain ⟨rfl, hvalid⟩ := events_eq_of_validate hevents
  refine ⟨by simp [shape, map_shape_of_validate hitems], hfields, by simpa using hversion,
    by simpa using hlength, ?_, hvalid, by simpa using hne, hwhole⟩
  intro item hitem
  obtain ⟨i, hi, rfl⟩ := List.mem_iff_getElem.1 hitem
  obtain ⟨-, -, -, hwf⟩ := OperationItem.validate_eq_ok.1
    (hitems.get (by rw [hitems.length_eq]; exact hi) hi)
  exact hwf

lemma childStates_shape (op : HostedOperation) : op.shape.childStates = op.childStates := by
  simp [childStates, shape, OperationItem.shape]

lemma validateOperation_shape (op : HostedOperation) :
    op.shape.validateOperation = op.validateOperation := by
  simp only [validateOperation, childStates_shape]
  simp only [shape, parentEvents, itemEvents, List.map_map, List.length_map, List.all_map]
  rfl

lemma wellFormed_shape : op.shape.WellFormed sanitize ↔ op.WellFormed sanitize := by
  have hitems : (∀ item ∈ op.shape.items, item.WellFormed) ↔ ∀ item ∈ op.items, item.WellFormed := by
    simp [shape, OperationItem.wellFormed_shape]
  constructor
  · rintro ⟨h1, h2, h3, h4, h5, h6, h7⟩
    exact ⟨h1, h2, by simpa [shape] using h3, hitems.1 h4, h5, h6,
      by rwa [validateOperation_shape] at h7⟩
  · rintro ⟨h1, h2, h3, h4, h5, h6, h7⟩
    exact ⟨h1, h2, by simpa [shape] using h3, hitems.2 h4, h5, h6,
      by rwa [validateOperation_shape]⟩

lemma WellFormed.of_shape_eq (h : op.WellFormed sanitize) (hshape : op'.shape = op.shape) :
    op'.WellFormed sanitize := by
  rw [← wellFormed_shape, hshape, wellFormed_shape]
  exact h

/-- A well-formed operation validates to itself with its items revalidated. -/
lemma validate_of_forall₂ (h : op.WellFormed sanitize)
    (hitems : List.Forall₂ (fun item item' => item.validate sanitize = .ok item') op.items items) :
    op.validate sanitize = .ok { op with items := items } := by
  have hshape : shape { op with items := items } = op.shape := by
    simp [shape, map_shape_of_validate hitems]
  have hwf := h.of_shape_eq hshape
  have hevents : List.Forall₂ (fun event event' => event.validate sanitize = .ok event')
      op.events op.events := List.forall₂_same.2 h.events
  simp only [validate, bind_eq_ok, require_eq_ok, pure_eq_ok, mapM_eq_ok]
  exact ⟨(), h.fields, (), by simpa using h.version_pos, items, hitems, (),
    by simpa using hwf.items_length, op.events, hevents, (), by simpa using h.events_ne, (),
    hwf.whole, rfl⟩

lemma exists_validate_items (hwf : ∀ item ∈ items, item.WellFormed)
    (htexts : ∀ item ∈ items, item.TextAccepted sanitize) :
    ∃ items', List.Forall₂ (fun item item' => item.validate sanitize = .ok item') items items' := by
  induction items with
  | nil => exact ⟨[], .nil⟩
  | cons item items ih =>
      rw [List.forall_mem_cons] at hwf htexts
      obtain ⟨items', hitems'⟩ := ih hwf.2 htexts.2
      obtain ⟨r, hr⟩ := htexts.1
      refine ⟨_, .cons (OperationItem.validate_eq_ok.2 ⟨r, hr, rfl, ?_⟩) hitems'⟩
      have hsome := isSome_of_validateProviderResultIdentifier hr
      obtain ⟨h1, h2, h3, h4, h5, h6, h7, h8, h9⟩ := hwf.1
      exact ⟨h1, h2, h3, h4, h5, h6, h7, h8, by simpa only [hsome] using h9⟩

/-- What it takes to validate: a well-formed operation whose texts are accepted. -/
theorem exists_validate (h : op.WellFormed sanitize)
    (htexts : ∀ item ∈ op.items, item.TextAccepted sanitize) :
    ∃ op', op.validate sanitize = .ok op' := by
  obtain ⟨items', hitems'⟩ := exists_validate_items h.items htexts
  exact ⟨_, validate_of_forall₂ h hitems'⟩

/-- The texts on record are their own projections. -/
def TextsStable (sanitize : String → Option String) (op : HostedOperation) : Prop :=
  ∀ item ∈ op.items, validateProviderResultIdentifier sanitize item.providerResultIdentifier =
    .ok item.providerResultIdentifier

/-- With stable texts, validation changes nothing. -/
theorem validate_self (h : op.WellFormed sanitize) (htexts : op.TextsStable sanitize) :
    op.validate sanitize = .ok op := by
  refine validate_of_forall₂ h (List.forall₂_same.2 fun item hitem => ?_)
  exact OperationItem.validate_eq_ok.2 ⟨_, htexts item hitem, rfl, h.items item hitem⟩

/-- Which texts a validated operation came from does not matter for the next validation to
find them: every item that validated had its text accepted. -/
lemma texts_of_validate (h : op.validate sanitize = .ok op') :
    ∀ item ∈ op.items, item.TextAccepted sanitize := by
  simp only [validate, bind_eq_ok, require_eq_ok, pure_eq_ok, mapM_eq_ok] at h
  obtain ⟨-, -, -, -, items, hitems, -⟩ := h
  intro item hitem
  obtain ⟨i, hi, rfl⟩ := List.mem_iff_getElem.1 hitem
  obtain ⟨r, hr, -⟩ := OperationItem.validate_eq_ok.1
    (hitems.get hi (by rw [← hitems.length_eq]; exact hi))
  exact ⟨r, hr⟩

end HostedOperation

end

end Hosted
end MercuryTools
