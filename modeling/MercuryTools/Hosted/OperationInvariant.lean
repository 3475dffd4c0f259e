import MercuryTools.Framework.VersionedLog
import MercuryTools.Hosted.OperationValidation

/-!
# The invariant of a hosted operation

A hosted operation is moved by two calls, `transition` and `transition_item`
(`OperationCall`).  `Invariant` is what every accepted call preserves.  Its core is
`Statuses.Coherent` together with the two versioned logs, one of the parent and one of every
item; from these the event checks and the compatibility check of the validator follow
(`Invariant.wellFormed`), so the validator never rejects what the guards let through.
-/

namespace MercuryTools
namespace Hosted

open Checks CallSystem VersionedLog

section

variable (sanitize : String → Option String)

/-- A call on an operation, with the arguments a caller chooses. -/
inductive OperationCall where
  | transition (target : ParentOperationState) (eventId : UUID) (occurredAt : DateTime)
      (sanitizedReason : String)
  | transitionItem (operationItemId : UUID) (target : OperationItemState) (eventId : UUID)
      (occurredAt : DateTime) (sanitizedReason : String)
      (providerResultIdentifier : Option String)
  deriving DecidableEq, Repr

namespace HostedOperation

def call (op : HostedOperation) : OperationCall → Except String HostedOperation
  | .transition target eventId occurredAt sanitizedReason =>
      op.transition sanitize target eventId occurredAt sanitizedReason
  | .transitionItem operationItemId target eventId occurredAt sanitizedReason result =>
      op.transitionItem sanitize operationItemId target eventId occurredAt sanitizedReason result

/-- The position of the item a call names. -/
def itemIndexOf (op : HostedOperation) (operationItemId : UUID) : Nat :=
  op.items.findIdx (·.operationItemId == operationItemId)

/-- The move of the status system a call asks for. -/
def moveOf (op : HostedOperation) : OperationCall → StatusMove
  | .transition target _ _ _ => .parent target
  | .transitionItem operationItemId target _ _ _ _ => .item (op.itemIndexOf operationItemId) target

end HostedOperation

/-! ## The logs -/

def OperationEvent.entry (event : OperationEvent) : Entry String :=
  ⟨event.fromState, event.toState, event.stateVersion⟩

/-- How far along a status is.  Every row of both transition tables leads upwards. -/
def stateRank (s : String) : Nat :=
  if s = "prepared" then 0
  else if s = "awaiting_confirmation" then 1
  else if s = "failed_pre_dispatch" then 2
  else if s = "dispatching" then 3
  else if s = "outcome_unknown" then 4
  else 5

lemma stateRank_lt_of_parentTransitions {s t : ParentOperationState}
    (h : t ∈ parentTransitions s) : stateRank s.value < stateRank t.value := by
  revert h
  cases s <;> cases t <;> decide

lemma stateRank_lt_of_itemTransitions {s t : OperationItemState}
    (h : t ∈ itemTransitions s) : stateRank s.value < stateRank t.value := by
  revert h
  cases s <;> cases t <;> decide

namespace HostedOperation

def parentLog (op : HostedOperation) : List (Entry String) :=
  op.parentEvents.map (·.entry)

def itemLog (op : HostedOperation) (itemId : UUID) : List (Entry String) :=
  (op.itemEvents itemId).map (·.entry)

/-- What holds of an operation after any sequence of accepted calls. -/
structure Invariant (op : HostedOperation) : Prop where
  fields : op.fieldsValid = true
  ids_ne : [op.operationId, op.previewId, op.tenantId, op.authUserId, op.workspaceId,
    op.connectionId].all (· != 0) = true
  version_pos : 1 ≤ op.stateVersion
  created_le : op.createdAt ≤ op.updatedAt
  retention : op.createdAt < op.payloadPurgeAfter ∧
    op.payloadPurgeAfter ≤ op.createdAt + confirmedPayloadRetention
  items_length : 1 ≤ op.items.length ∧ op.items.length ≤ maxBatchDocuments
  items_ids : (op.items.map (·.operationItemId)).Nodup
  items_index : op.items.map (·.itemIndex) = List.range op.items.length
  items_valid : ∀ item ∈ op.items, item.WellFormed
  items_created : ∀ item ∈ op.items, item.createdAt = op.createdAt
  events_valid : ∀ event ∈ op.events, event.validate sanitize = .ok event
  events_own : ∀ event ∈ op.events,
    event.operationId = op.operationId ∧ op.createdAt ≤ event.occurredAt
  events_items : ∀ event ∈ op.events, ∀ itemId, event.operationItemId = some itemId →
    itemId ∈ op.items.map (·.operationItemId)
  coherent : op.statuses.Coherent
  parent_records : Records stateRank none 1 op.parentLog op.state.value op.stateVersion
  item_records : ∀ (i : Nat) item, op.items[i]? = some item →
    Records stateRank (some OperationItemState.awaitingConfirmation.value) 2
      (op.itemLog item.operationItemId) item.state.value item.stateVersion

end HostedOperation

end

section

variable {sanitize : String → Option String}

namespace HostedOperation

/-! ### The invariant implies the checks of the validator -/

lemma lastEventIs_of_records {events : List OperationEvent} {start : Option String} {first : Nat}
    {state : String} {version : Nat} (hne : events ≠ [])
    (h : Records stateRank start first (events.map (·.entry)) state version) :
    lastEventIs events version state = true := by
  rw [lastEventIs, List.getLast?_eq_some_getLast hne]
  have hlast : (events.map (·.entry)).getLast? = some (events.getLast hne).entry := by
    rw [List.getLast?_map, List.getLast?_eq_some_getLast hne]
    rfl
  obtain ⟨htarget, hversion⟩ := h.getLast hlast
  simp only [OperationEvent.entry] at htarget hversion
  simp [htarget, hversion]

variable {op op' : HostedOperation} {α : Type} {target : OperationItemState} {eventId : UUID}
  {occurredAt : DateTime} {reason : String} {timestamp : Instant} {item : OperationItem}
  {result : Option String} {i : Nat}

lemma Invariant.parentEvents_ne (h : op.Invariant sanitize) : op.parentEvents ≠ [] := by
  intro hnil
  have hcur := h.parent_records.current_eq
  simp [parentLog, hnil, VersionedLog.current] at hcur

theorem Invariant.wellFormed (h : op.Invariant sanitize) : op.WellFormed sanitize := by
  have hparent : lastEventIs op.parentEvents op.stateVersion op.state.value = true :=
    lastEventIs_of_records h.parentEvents_ne h.parent_records
  have hitems : ∀ item ∈ op.items, (op.itemEvents item.operationItemId).isEmpty = true ∨
      lastEventIs (op.itemEvents item.operationItemId) item.stateVersion item.state.value = true := by
    intro item hitem
    obtain ⟨i, hi⟩ := List.mem_iff_getElem?.1 hitem
    by_cases hne : op.itemEvents item.operationItemId = []
    · exact .inl (by simp [hne])
    · exact .inr (lastEventIs_of_records hne (h.item_records i item hi))
  refine ⟨h.fields, h.version_pos, h.items_length, h.items_valid, h.events_valid, ?_, ?_⟩
  · intro hnil
    exact h.parentEvents_ne (by simp [parentEvents, hnil])
  · simp only [validateOperation, bind_eq_ok, require_eq_ok]
    refine ⟨(), h.ids_ne, (), by simpa using h.created_le, (), by simpa using h.retention, (),
      by simpa using ⟨h.items_ids, h.items_index⟩, (), ?_, (), hparent, (), ?_, (), ?_,
      h.coherent.compatible⟩
    · simpa using h.events_own
    · simpa [Option.all_eq_true] using h.events_items
    · simpa using hitems

/-! ### The invariant does not see the texts -/

lemma map_shape (op : HostedOperation) (f : OperationItem → α) (hf : ∀ item, f item.shape = f item)
    : op.shape.items.map f = op.items.map f := by
  simp [shape, Function.comp_def, hf]

lemma forall_getElem?_shape {op : HostedOperation} {P : OperationItem → Prop}
    (hP : ∀ item, P item.shape ↔ P item) :
    (∀ (i : Nat) item, op.shape.items[i]? = some item → P item) ↔
      ∀ (i : Nat) item, op.items[i]? = some item → P item := by
  simp [shape, List.getElem?_map, hP]

lemma statuses_shape (op : HostedOperation) : op.shape.statuses = op.statuses := by
  rw [statuses, childStates_shape]
  rfl

lemma invariant_shape : op.shape.Invariant sanitize ↔ op.Invariant sanitize := by
  have hids := map_shape op (·.operationItemId) fun _ => rfl
  have hindex := map_shape op (·.itemIndex) fun _ => rfl
  have hlength : op.shape.items.length = op.items.length := by simp [shape]
  have hrecords := @forall_getElem?_shape op (fun item =>
    Records stateRank (some OperationItemState.awaitingConfirmation.value) 2
      (op.itemLog item.operationItemId) item.state.value item.stateVersion) fun _ => Iff.rfl
  constructor
  · intro h
    refine ⟨h.fields, h.ids_ne, h.version_pos, h.created_le, h.retention, hlength ▸ h.items_length,
      hids ▸ h.items_ids, by rw [← hindex, ← hlength]; exact h.items_index, ?_, ?_, h.events_valid,
      h.events_own, hids ▸ h.events_items, statuses_shape op ▸ h.coherent, h.parent_records,
      hrecords.1 h.item_records⟩
    · intro item hitem
      exact OperationItem.wellFormed_shape.1 (h.items_valid _ (List.mem_map_of_mem hitem))
    · intro item hitem
      exact h.items_created item.shape (List.mem_map_of_mem hitem)
  · intro h
    refine ⟨h.fields, h.ids_ne, h.version_pos, h.created_le, h.retention, hlength ▸ h.items_length,
      hids ▸ h.items_ids, by rw [hindex, hlength]; exact h.items_index, ?_, ?_, h.events_valid,
      h.events_own, hids ▸ h.events_items, (statuses_shape op).symm ▸ h.coherent, h.parent_records,
      hrecords.2 h.item_records⟩
    · intro item hitem
      obtain ⟨original, horiginal, rfl⟩ := List.mem_map.1 hitem
      exact OperationItem.wellFormed_shape.2 (h.items_valid _ horiginal)
    · intro item hitem
      obtain ⟨original, horiginal, rfl⟩ := List.mem_map.1 hitem
      exact h.items_created original horiginal

lemma Invariant.of_shape_eq (h : op.Invariant sanitize) (hshape : op'.shape = op.shape) :
    op'.Invariant sanitize := by
  rw [← invariant_shape, hshape, invariant_shape]
  exact h

/-! ## A parent transition -/

/-- The event a parent transition appends. -/
def parentEvent (op : HostedOperation) (target : ParentOperationState) (eventId : UUID)
    (timestamp : Instant) (sanitizedReason : String) : OperationEvent where
  eventId := eventId
  operationId := op.operationId
  operationItemId := none
  fromState := some op.state.value
  toState := target.value
  stateVersion := op.stateVersion + 1
  sanitizedReason := sanitizedReason
  occurredAt := timestamp

/-- The operation a parent transition hands to validation. -/
def afterTransition (op : HostedOperation) (target : ParentOperationState) (eventId : UUID)
    (timestamp : Instant) (sanitizedReason : String) : HostedOperation :=
  { op with
    state := target
    stateVersion := op.stateVersion + 1
    events := op.events ++ [op.parentEvent target eventId timestamp sanitizedReason]
    updatedAt := timestamp }

lemma transition_eq_ok {target : ParentOperationState} :
    op.transition sanitize target eventId occurredAt reason = .ok op' ↔
      parentOperationTransitionAllowed op.state target op.childStates = true ∧
        ∃ timestamp, awareUtc occurredAt "operation_timestamp_invalid" = .ok timestamp ∧
          op.updatedAt ≤ timestamp ∧ ReasonAccepted sanitize reason ∧
          (op.afterTransition target eventId timestamp reason).validate sanitize = .ok op' := by
  simp only [transition, bind_eq_ok, require_eq_ok, decide_eq_true_eq,
    OperationEvent.validate_eq_ok]
  constructor
  · rintro ⟨-, hallowed, timestamp, hts, -, hle, event, ⟨rfl, -, hreason, -, -⟩, hvalid⟩
    exact ⟨hallowed, timestamp, hts, hle, hreason, hvalid⟩
  · rintro ⟨hallowed, timestamp, hts, hle, hreason, hvalid⟩
    refine ⟨(), hallowed, timestamp, hts, (), hle, _, ⟨rfl, by simp, hreason,
      value_mem_eventStates _, ?_⟩, hvalid⟩
    rintro s ⟨⟩
    exact value_mem_eventStates _

lemma Invariant.afterTransition (h : op.Invariant sanitize) {target : ParentOperationState}
    (eventId : UUID)
    (hallowed : parentOperationTransitionAllowed op.state target op.childStates = true)
    (hle : op.updatedAt ≤ timestamp) (hreason : ReasonAccepted sanitize reason) :
    (op.afterTransition target eventId timestamp reason).Invariant sanitize := by
  have hcreated : op.createdAt ≤ timestamp := Int.le_trans h.created_le hle
  refine ⟨h.fields, h.ids_ne, by simp [HostedOperation.afterTransition], hcreated, h.retention,
    h.items_length, h.items_ids, h.items_index, h.items_valid, h.items_created, ?_, ?_, ?_,
    h.coherent.step_parent hallowed, ?_, ?_⟩
  · intro event hevent
    rcases List.mem_append.1 hevent with hevent | hevent
    · exact h.events_valid event hevent
    · obtain rfl := List.mem_singleton.1 hevent
      refine OperationEvent.validate_eq_ok.2 ⟨rfl, by simp [parentEvent], hreason,
        value_mem_eventStates _, ?_⟩
      rintro s ⟨⟩
      exact value_mem_eventStates _
  · intro event hevent
    rcases List.mem_append.1 hevent with hevent | hevent
    · exact h.events_own event hevent
    · obtain rfl := List.mem_singleton.1 hevent
      exact ⟨rfl, hcreated⟩
  · intro event hevent itemId hitemId
    rcases List.mem_append.1 hevent with hevent | hevent
    · exact h.events_items event hevent itemId hitemId
    · obtain rfl := List.mem_singleton.1 hevent
      cases hitemId
  · have hlog : (op.afterTransition target eventId timestamp reason).parentLog =
        op.parentLog ++ [⟨some op.state.value, target.value, op.stateVersion + 1⟩] := by
      simp [parentLog, parentEvents, HostedOperation.afterTransition, parentEvent,
        OperationEvent.entry]
    rw [hlog]
    exact h.parent_records.extend
      (stateRank_lt_of_parentTransitions (Statuses.mem_parentTransitions hallowed))
  · intro i item hitem
    have hlog : (op.afterTransition target eventId timestamp reason).itemLog item.operationItemId =
        op.itemLog item.operationItemId := by
      simp [itemLog, itemEvents, HostedOperation.afterTransition, parentEvent]
    rw [hlog]
    exact h.item_records i item hitem

/-! ## An item transition -/

/-- The item an item transition hands to validation. -/
def itemAfter (item : OperationItem) (target : OperationItemState) (timestamp : Instant)
    (result : Option String) : OperationItem :=
  { item with
    state := target
    stateVersion := item.stateVersion + 1
    providerResultIdentifier := result
    updatedAt := timestamp }

/-- The event an item transition appends. -/
def itemEvent (op : HostedOperation) (item : OperationItem) (target : OperationItemState)
    (eventId : UUID) (timestamp : Instant) (sanitizedReason : String) : OperationEvent where
  eventId := eventId
  operationId := op.operationId
  operationItemId := some item.operationItemId
  fromState := some item.state.value
  toState := target.value
  stateVersion := item.stateVersion + 1
  sanitizedReason := sanitizedReason
  occurredAt := timestamp

/-- The operation a transition of the item at `index` hands to validation. -/
def afterTransitionItem (op : HostedOperation) (index : Nat) (item : OperationItem)
    (target : OperationItemState) (eventId : UUID) (timestamp : Instant) (sanitizedReason : String)
    (result : Option String) : HostedOperation :=
  { op with
    items := op.items.set index (itemAfter item target timestamp result)
    events := op.events ++ [op.itemEvent item target eventId timestamp sanitizedReason]
    updatedAt := max op.updatedAt timestamp }

lemma itemTransition_eq_ok {item' : OperationItem} {parent : ParentOperationState} :
    item.transition sanitize target occurredAt result parent = .ok item' ↔
      itemOperationTransitionAllowed item.state target parent = true ∧
        ∃ timestamp, awareUtc occurredAt "operation_timestamp_invalid" = .ok timestamp ∧
          item.updatedAt ≤ timestamp ∧ (target = .succeeded ↔ result.isSome = true) ∧
          ∃ r, validateProviderResultIdentifier sanitize result = .ok r ∧
            item' = itemAfter item target timestamp r ∧ item'.WellFormed := by
  simp only [OperationItem.transition, bind_eq_ok, require_eq_ok, decide_eq_true_eq,
    OperationItem.validate_eq_ok, beq_iff_eq]
  constructor
  · rintro ⟨-, hallowed, timestamp, hts, -, hle, -, hiff, r, hr, rfl, hwf⟩
    exact ⟨hallowed, timestamp, hts, hle, by rw [← hiff]; simp, r, hr, rfl, hwf⟩
  · rintro ⟨hallowed, timestamp, hts, hle, hiff, r, hr, rfl, hwf⟩
    refine ⟨(), hallowed, timestamp, hts, (), hle, (), ?_, r, hr, rfl, hwf⟩
    rw [Bool.eq_iff_iff, beq_iff_eq]
    exact hiff

lemma transitionItem_eq_ok {itemId : UUID} :
    op.transitionItem sanitize itemId target eventId occurredAt reason result = .ok op' ↔
      op.items.countP (·.operationItemId == itemId) = 1 ∧
        ∃ item, op.items[op.itemIndexOf itemId]? = some item ∧ item.operationItemId = itemId ∧
          itemOperationTransitionAllowed item.state target op.state = true ∧
          ∃ timestamp, awareUtc occurredAt "operation_timestamp_invalid" = .ok timestamp ∧
            item.updatedAt ≤ timestamp ∧ (target = .succeeded ↔ result.isSome = true) ∧
            ReasonAccepted sanitize reason ∧
            ∃ r, validateProviderResultIdentifier sanitize result = .ok r ∧
              (itemAfter item target timestamp r).WellFormed ∧
              (op.afterTransitionItem (op.itemIndexOf itemId) item target eventId timestamp reason
                r).validate sanitize = .ok op' := by
  have hid : ∀ item, op.items[op.itemIndexOf itemId]? = some item →
      item.operationItemId = itemId := by
    intro item hitem
    obtain ⟨hlt, rfl⟩ := List.getElem?_eq_some_iff.1 hitem
    exact eq_of_beq (List.findIdx_getElem (w := hlt))
  simp only [transitionItem, bind_eq_ok, require_eq_ok, beq_iff_eq]
  constructor
  · rintro ⟨-, hcount, h⟩
    refine ⟨hcount, ?_⟩
    split at h
    · cases h
    · rename_i item hitem
      simp only [bind_eq_ok, itemTransition_eq_ok, OperationEvent.validate_eq_ok] at h
      obtain ⟨_, ⟨hallowed, timestamp, hts, hle, hiff, r, hr, rfl, hwf⟩, _, ⟨rfl, -, hreason, -, -⟩,
        hvalid⟩ := h
      have := hid item hitem
      subst this
      exact ⟨item, hitem, rfl, hallowed, timestamp, hts, hle, hiff, hreason, r, hr, hwf, hvalid⟩
  · rintro ⟨hcount, item, hitem, rfl, hallowed, timestamp, hts, hle, hiff, hreason, r, hr, hwf,
      hvalid⟩
    refine ⟨(), hcount, ?_⟩
    rw [show op.items[op.items.findIdx (·.operationItemId == item.operationItemId)]? = some item
      from hitem]
    simp only [bind_eq_ok, itemTransition_eq_ok, OperationEvent.validate_eq_ok]
    refine ⟨_, ⟨hallowed, timestamp, hts, hle, hiff, r, hr, rfl, hwf⟩, _, ⟨rfl, Nat.le_add_left 1 _, hreason,
      itemValue_mem_eventStates _, ?_⟩, hvalid⟩
    rintro s ⟨⟩
    exact itemValue_mem_eventStates _

/-- Replacing a member by one that agrees with it under `f` does not change the image. -/
lemma map_set_of_eq {β : Type} (f : α → β) {xs : List α} {x y : α} (hx : xs[i]? = some x)
    (hf : f y = f x) : (xs.set i y).map f = xs.map f := by
  obtain ⟨hlt, rfl⟩ := List.getElem?_eq_some_iff.1 hx
  rw [List.map_set, hf, ← List.getElem_map f (h := by simpa using hlt), List.set_getElem_self]

/-- An item is found by its identifier. -/
lemma Invariant.index_inj (h : op.Invariant sanitize) {j : Nat} {x y : OperationItem}
    (hx : op.items[i]? = some x) (hy : op.items[j]? = some y)
    (heq : x.operationItemId = y.operationItemId) : i = j := by
  have hlt : i < (op.items.map (·.operationItemId)).length := by
    simpa using (List.getElem?_eq_some_iff.1 hx).1
  exact (List.getElem?_inj hlt h.items_ids).1 (by simp [hx, hy, heq])

lemma Invariant.afterTransitionItem (h : op.Invariant sanitize) {index : Nat} (eventId : UUID)
    (hitem : op.items[index]? = some item)
    (hallowed : itemOperationTransitionAllowed item.state target op.state = true)
    (hle : item.updatedAt ≤ timestamp) (hreason : ReasonAccepted sanitize reason)
    (hwf : (itemAfter item target timestamp result).WellFormed) :
    (op.afterTransitionItem index item target eventId timestamp reason result).Invariant
      sanitize := by
  have hmem : item ∈ op.items := List.mem_of_getElem? hitem
  have hcreated : op.createdAt ≤ timestamp := by
    have := h.items_created item hmem
    have := (h.items_valid item hmem).created_le
    unfold Instant at *
    omega
  have hmap : ∀ {α : Type} (f : OperationItem → α),
      f (itemAfter item target timestamp result) = f item →
      (op.items.set index (itemAfter item target timestamp result)).map f = op.items.map f :=
    fun f hf => map_set_of_eq f hitem hf
  have hids := hmap (·.operationItemId) rfl
  refine ⟨h.fields, h.ids_ne, h.version_pos, Int.le_trans h.created_le (Int.le_max_left _ _),
    h.retention, by simpa [HostedOperation.afterTransitionItem] using h.items_length,
    by simpa only [HostedOperation.afterTransitionItem, hids] using h.items_ids, ?_, ?_, ?_, ?_, ?_,
    ?_, ?_, ?_, ?_⟩
  · simpa only [HostedOperation.afterTransitionItem, hmap (·.itemIndex) rfl, List.length_set] using
      h.items_index
  · intro other hother
    rcases List.mem_or_eq_of_mem_set hother with hother | rfl
    · exact h.items_valid other hother
    · exact hwf
  · intro other hother
    rcases List.mem_or_eq_of_mem_set hother with hother | rfl
    · exact h.items_created other hother
    · exact h.items_created item hmem
  · intro event hevent
    rcases List.mem_append.1 hevent with hevent | hevent
    · exact h.events_valid event hevent
    · obtain rfl := List.mem_singleton.1 hevent
      refine OperationEvent.validate_eq_ok.2 ⟨rfl, Nat.le_add_left 1 _, hreason,
        itemValue_mem_eventStates _, ?_⟩
      rintro s ⟨⟩
      exact itemValue_mem_eventStates _
  · intro event hevent
    rcases List.mem_append.1 hevent with hevent | hevent
    · exact h.events_own event hevent
    · obtain rfl := List.mem_singleton.1 hevent
      exact ⟨rfl, hcreated⟩
  · intro event hevent itemId hitemId
    simp only [HostedOperation.afterTransitionItem, hids]
    rcases List.mem_append.1 hevent with hevent | hevent
    · exact h.events_items event hevent itemId hitemId
    · obtain rfl := List.mem_singleton.1 hevent
      cases hitemId
      exact List.mem_map_of_mem hmem
  · have hchild : op.childStates[index]? = some item.state := by
      simp [childStates, List.getElem?_map, hitem]
    have hstatuses : (op.afterTransitionItem index item target eventId timestamp reason
        result).statuses = ⟨op.state, op.childStates.set index target⟩ := by
      simp [statuses, childStates, HostedOperation.afterTransitionItem, itemAfter, List.map_set]
    rw [hstatuses]
    exact h.coherent.step_item hchild hallowed
  · have hlog : (op.afterTransitionItem index item target eventId timestamp reason
        result).parentLog = op.parentLog := by
      simp [parentLog, parentEvents, HostedOperation.afterTransitionItem, itemEvent]
    rw [hlog]
    exact h.parent_records
  · intro j other hother
    simp only [HostedOperation.afterTransitionItem] at hother
    rcases eq_or_ne index j with rfl | hne
    · obtain rfl : itemAfter item target timestamp result = other := by
        have hlt := (List.getElem?_eq_some_iff.1 hitem).1
        simpa [hlt] using hother
      have hlog : (op.afterTransitionItem index item target eventId timestamp reason
          result).itemLog item.operationItemId = op.itemLog item.operationItemId ++
            [⟨some item.state.value, target.value, item.stateVersion + 1⟩] := by
        simp [itemLog, itemEvents, HostedOperation.afterTransitionItem, itemEvent,
          OperationEvent.entry]
      change Records _ _ _ ((op.afterTransitionItem index item target eventId timestamp reason
          result).itemLog item.operationItemId) _ _
      rw [hlog]
      exact (h.item_records index item hitem).extend
        (stateRank_lt_of_itemTransitions (mem_itemTransitions hallowed))
    · rw [List.getElem?_set_ne hne] at hother
      have hid : item.operationItemId ≠ other.operationItemId :=
        fun heq => hne (h.index_inj hitem hother heq)
      have hlog : (op.afterTransitionItem index item target eventId timestamp reason
          result).itemLog other.operationItemId = op.itemLog other.operationItemId := by
        simp [itemLog, itemEvents, HostedOperation.afterTransitionItem, itemEvent, hid]
      rw [hlog]
      exact h.item_records j other hother

end HostedOperation

end

end Hosted
end MercuryTools
