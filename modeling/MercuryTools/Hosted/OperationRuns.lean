import MercuryTools.Hosted.OperationInvariant
import MercuryTools.Hosted.StatusExits

/-!
# Runs of a hosted operation

`HostedOperation` refines the status system (`call_refines`), every operation that
`from_preview` builds satisfies the invariant (`invariant_fromPreview`), and every accepted
call keeps it (`Invariant.call`).  From these follow the results about whole runs: what the
events record, which calls are accepted, what is never left, and in which runs the operation
stays able to reach a terminal status.
-/

namespace MercuryTools
namespace Hosted

open Checks CallSystem VersionedLog

section

variable {sanitize : String → Option String}

namespace HostedOperation

/-! ## Accepted calls -/

variable {op op' : HostedOperation} {c : OperationCall} {preview : DocumentPreview}
  {operationId eventId : UUID} {operationItemIds : List UUID} {now : DateTime}
  {item : OperationItem} {i : Nat}

theorem Invariant.call (h : op.Invariant sanitize) (hcall : op.call sanitize c = .ok op') :
    op'.Invariant sanitize := by
  cases c with
  | transition target eventId occurredAt reason =>
      obtain ⟨hallowed, timestamp, -, hle, hreason, hvalid⟩ := transition_eq_ok.1 hcall
      exact (h.afterTransition eventId hallowed hle hreason).of_shape_eq (validate_ok hvalid).1
  | transitionItem itemId target eventId occurredAt reason result =>
      obtain ⟨-, item, hitem, -, hallowed, timestamp, -, hle, -, hreason, r, -, hwf, hvalid⟩ :=
        transitionItem_eq_ok.1 hcall
      exact (h.afterTransitionItem eventId hitem hallowed hle hreason hwf).of_shape_eq
        (validate_ok hvalid).1

lemma statuses_of_validate (h : op.validate sanitize = .ok op') : op'.statuses = op.statuses := by
  rw [← statuses_shape, (validate_ok h).1, statuses_shape]

/-- An accepted call is an accepted move of the status system. -/
theorem call_refines (hcall : op.call sanitize c = .ok op') :
    op.statuses.step (op.moveOf c) = .ok op'.statuses := by
  cases c with
  | transition target eventId occurredAt reason =>
      obtain ⟨hallowed, timestamp, -, -, -, hvalid⟩ := transition_eq_ok.1 hcall
      rw [statuses_of_validate hvalid]
      exact Statuses.step_parent.2 ⟨hallowed, rfl⟩
  | transitionItem itemId target eventId occurredAt reason result =>
      obtain ⟨-, item, hitem, -, hallowed, timestamp, -, -, -, -, r, -, -, hvalid⟩ :=
        transitionItem_eq_ok.1 hcall
      rw [statuses_of_validate hvalid]
      refine Statuses.step_item.2 ⟨item.state, ?_, hallowed, ?_⟩
      · simp [statuses, childStates, hitem]
      · simp [statuses, childStates, afterTransitionItem, itemAfter, List.map_set]

/-- The identifiers of the items never change. -/
lemma ids_of_call (hcall : op.call sanitize c = .ok op') :
    op'.items.map (·.operationItemId) = op.items.map (·.operationItemId) := by
  have hids : ∀ {u : HostedOperation}, u.validate sanitize = .ok op' →
      op'.items.map (·.operationItemId) = u.items.map (·.operationItemId) := by
    intro u hvalid
    rw [← map_shape op' _ fun _ => rfl, (validate_ok hvalid).1, map_shape u _ fun _ => rfl]
  cases c with
  | transition target eventId occurredAt reason =>
      obtain ⟨-, timestamp, -, -, -, hvalid⟩ := transition_eq_ok.1 hcall
      rw [hids hvalid]
      rfl
  | transitionItem itemId target eventId occurredAt reason result =>
      obtain ⟨-, item, hitem, -, -, timestamp, -, -, -, -, r, -, -, hvalid⟩ :=
        transitionItem_eq_ok.1 hcall
      rw [hids hvalid]
      exact map_set_of_eq _ hitem rfl

/-! ## The initial operation -/

lemma Invariant.of_wellFormed (h : op.WellFormed sanitize)
    (hcreated : ∀ item ∈ op.items, item.createdAt = op.createdAt) (hcoherent : op.statuses.Coherent)
    (hparent : Records stateRank none 1 op.parentLog op.state.value op.stateVersion)
    (hitems : ∀ (i : Nat) item, op.items[i]? = some item →
      Records stateRank (some OperationItemState.awaitingConfirmation.value) 2
        (op.itemLog item.operationItemId) item.state.value item.stateVersion) :
    op.Invariant sanitize := by
  have hwhole := h.whole
  simp only [validateOperation, bind_eq_ok, require_eq_ok] at hwhole
  obtain ⟨-, hids, -, hle, -, hretention, -, hitemIds, -, hown, -, -, -, hmem, -⟩ := hwhole
  simp only [Bool.and_eq_true, decide_eq_true_eq, beq_iff_eq] at hle hretention hitemIds
  exact ⟨h.fields, hids, h.version_pos, hle, hretention, h.items_length, hitemIds.1, hitemIds.2,
    h.items, hcreated, h.events, by simpa using hown,
    by simpa [Option.all_eq_true] using hmem, hcoherent, hparent, hitems⟩

/-- An operation as `from_preview` hands it to validation. -/
structure Initial (op : HostedOperation) : Prop where
  state : op.state = .awaitingConfirmation
  stateVersion : op.stateVersion = 1
  events : ∃ event, op.events = [event] ∧ event.operationItemId = none ∧
    event.entry = ⟨none, ParentOperationState.awaitingConfirmation.value, 1⟩
  items : ∀ item ∈ op.items, item.state = .awaitingConfirmation ∧ item.stateVersion = 1 ∧
    item.createdAt = op.createdAt

lemma initial_fromPreview
    (h : fromPreview sanitize preview operationId operationItemIds eventId now = .ok op) :
    ∃ raw : HostedOperation, raw.Initial ∧ raw.validate sanitize = .ok op := by
  simp only [fromPreview, bind_eq_ok, require_eq_ok, mapM_eq_ok, OperationEvent.validate_eq_ok] at h
  obtain ⟨checked, -, timestamp, -, -, -, items, hitems, event, ⟨rfl, -⟩, hvalid⟩ := h
  refine ⟨_, ⟨rfl, rfl, ⟨_, rfl, rfl, rfl⟩, ?_⟩, hvalid⟩
  intro item hitem
  obtain ⟨i, hi, rfl⟩ := List.mem_iff_getElem.1 hitem
  obtain ⟨r, -, heq, -⟩ := OperationItem.validate_eq_ok.1
    (hitems.get (by rw [hitems.length_eq]; exact hi) hi)
  simp only [List.get_eq_getElem] at heq
  rw [heq]
  exact ⟨rfl, rfl, rfl⟩

/-- A well-formed operation with nothing but its initial event satisfies the invariant. -/
theorem Initial.invariant (h : op.Initial) (hwf : op.WellFormed sanitize) :
    op.Invariant sanitize := by
  obtain ⟨hstate, hversion, ⟨event, hevents, hparent, hentry⟩, hitems⟩ := h
  refine Invariant.of_wellFormed hwf (fun item hitem => (hitems item hitem).2.2) ?_ ?_ ?_
  · have hne : op.childStates ≠ [] := by
      have hlength := hwf.items_length.1
      intro hnil
      simp only [childStates, List.map_eq_nil_iff] at hnil
      simp [hnil] at hlength
    rw [statuses, hstate]
    refine Statuses.coherent_initial hne fun c hc => ?_
    obtain ⟨item, hitem, rfl⟩ := List.mem_map.1 hc
    exact (hitems item hitem).1
  · have hlog : op.parentLog = [⟨none, ParentOperationState.awaitingConfirmation.value, 1⟩] := by
      simp [parentLog, parentEvents, hevents, hparent, hentry]
    rw [hlog, hstate, hversion]
    refine ⟨?_, ?_, ?_, ?_⟩ <;> simp [Chained, VersionedLog.current, Rising]
  · intro i item hitem
    obtain ⟨hitemState, hitemVersion, -⟩ := hitems item (List.mem_of_getElem? hitem)
    have hlog : op.itemLog item.operationItemId = [] := by
      simp [itemLog, itemEvents, hevents, hparent]
    rw [hlog, hitemState, hitemVersion]
    refine ⟨?_, ?_, ?_, ?_⟩ <;> simp [Chained, VersionedLog.current, Rising]

/-- Every operation built from a preview satisfies the invariant. -/
theorem invariant_fromPreview
    (h : fromPreview sanitize preview operationId operationItemIds eventId now = .ok op) :
    op.Invariant sanitize := by
  obtain ⟨raw, hraw, hvalid⟩ := initial_fromPreview h
  obtain ⟨hshape, hwf⟩ := validate_ok hvalid
  exact (hraw.invariant (hwf.of_shape_eq hshape.symm)).of_shape_eq hshape

lemma hasExit_fromPreview
    (h : fromPreview sanitize preview operationId operationItemIds eventId now = .ok op) :
    op.statuses.hasExit = true := by
  obtain ⟨raw, ⟨hstate, -, -, hitems⟩, hvalid⟩ := initial_fromPreview h
  rw [statuses_of_validate hvalid, statuses, hstate]
  have hall : raw.childStates.all
      (· ∈ [.awaitingConfirmation, .failedPreDispatch, .notDispatched]) = true := by
    refine Statuses.all_mem_iff.2 fun c hc => ?_
    obtain ⟨item, hitem, rfl⟩ := List.mem_map.1 hc
    simp [(hitems item hitem).1]
  simp only [Statuses.hasExit, hall, Bool.true_or]

lemma invariant_run
    (h : fromPreview sanitize preview operationId operationItemIds eventId now = .ok op)
    (calls : List OperationCall) : (run (call sanitize) op calls).Invariant sanitize :=
  run_invariant (fun _ _ _ hinv hcall => hinv.call hcall) (invariant_fromPreview h) calls

/-! ## Which calls are accepted

The validator adds nothing to the guards and to the checks on the arguments of the call: all
that is left of it is that the texts on record are projected once more. -/

/-- The argument is aware, and not before `earliest`. -/
def NotBefore (earliest : Instant) (occurredAt : DateTime) : Prop :=
  ∃ timestamp, awareUtc occurredAt "operation_timestamp_invalid" = .ok timestamp ∧
    earliest ≤ timestamp

/-- A text that is accepted twice, by the item transition and by the validation after it. -/
def ResultAccepted (sanitize : String → Option String) (result : Option String) : Prop :=
  ∃ r, validateProviderResultIdentifier sanitize result = .ok r ∧
    ∃ r', validateProviderResultIdentifier sanitize r = .ok r'

/-- What the guards ask of a call, and what the checks on its own arguments do. -/
def Accepts (sanitize : String → Option String) (op : HostedOperation) : OperationCall → Prop
  | .transition target _ occurredAt reason =>
      parentOperationTransitionAllowed op.state target op.childStates = true ∧
        NotBefore op.updatedAt occurredAt ∧ ReasonAccepted sanitize reason ∧
        ∀ item ∈ op.items, item.TextAccepted sanitize
  | .transitionItem itemId target _ occurredAt reason result =>
      ∃ index item, op.items[index]? = some item ∧ item.operationItemId = itemId ∧
        itemOperationTransitionAllowed item.state target op.state = true ∧
        NotBefore item.updatedAt occurredAt ∧ ReasonAccepted sanitize reason ∧
        (target = .succeeded ↔ result.isSome = true) ∧ ResultAccepted sanitize result ∧
        ∀ other ∈ op.items.eraseIdx index, other.TextAccepted sanitize

lemma Invariant.countP_eq_one (h : op.Invariant sanitize) (hitem : item ∈ op.items) :
    op.items.countP (·.operationItemId == item.operationItemId) = 1 := by
  have hcount := List.count_eq_one_of_mem h.items_ids
    (List.mem_map_of_mem (f := (·.operationItemId)) hitem)
  rw [List.count, List.countP_map] at hcount
  exact hcount

lemma Invariant.itemIndexOf_eq (h : op.Invariant sanitize) (hitem : op.items[i]? = some item) :
    op.itemIndexOf item.operationItemId = i := by
  have hlt : op.itemIndexOf item.operationItemId < op.items.length :=
    List.findIdx_lt_length_of_exists ⟨item, List.mem_of_getElem? hitem, by simp⟩
  have hfound := List.findIdx_getElem (w := hlt)
  exact h.index_inj (List.getElem?_eq_getElem hlt) hitem (eq_of_beq hfound)

lemma mem_set_eraseIdx {α : Type} {xs : List α} {y z : α} (h : z ∈ xs.set i y) :
    z = y ∨ z ∈ xs.eraseIdx i := by
  obtain ⟨j, hj⟩ := List.mem_iff_getElem?.1 h
  rcases eq_or_ne i j with rfl | hne
  · rw [List.getElem?_set_self'] at hj
    obtain ⟨-, -, rfl⟩ := Option.map_eq_some_iff.1 hj
    exact .inl rfl
  · rw [List.getElem?_set_ne hne] at hj
    exact .inr (List.mem_eraseIdx_iff_getElem?.2 ⟨j, hne.symm, hj⟩)

/-- Exactly the calls accepted by the guards and by the checks on their arguments succeed. -/
theorem Invariant.accepts_iff (h : op.Invariant sanitize) (c : OperationCall) :
    (∃ op', op.call sanitize c = .ok op') ↔ op.Accepts sanitize c := by
  cases c with
  | transition target eventId occurredAt reason =>
      constructor
      · rintro ⟨op', hcall⟩
        obtain ⟨hallowed, timestamp, hts, hle, hreason, hvalid⟩ := transition_eq_ok.1 hcall
        have htexts := texts_of_validate hvalid
        exact ⟨hallowed, ⟨timestamp, hts, hle⟩, hreason, htexts⟩
      · rintro ⟨hallowed, ⟨timestamp, hts, hle⟩, hreason, htexts⟩
        obtain ⟨op', hvalid⟩ := exists_validate
          (h.afterTransition eventId hallowed hle hreason).wellFormed htexts
        exact ⟨op', transition_eq_ok.2 ⟨hallowed, timestamp, hts, hle, hreason, hvalid⟩⟩
  | transitionItem itemId target eventId occurredAt reason result =>
      constructor
      · rintro ⟨op', hcall⟩
        obtain ⟨-, item, hitem, hid, hallowed, timestamp, hts, hle, hiff, hreason, r, hr, hwf,
          hvalid⟩ := transitionItem_eq_ok.1 hcall
        have htexts := texts_of_validate hvalid
        refine ⟨_, item, hitem, hid, hallowed, ⟨timestamp, hts, hle⟩, hreason, hiff, ⟨r, hr, ?_⟩, ?_⟩
        · exact htexts (itemAfter item target timestamp r)
            (List.mem_set (List.getElem?_eq_some_iff.1 hitem).1 _)
        · intro other hother
          obtain ⟨j, hne, hj⟩ := List.mem_eraseIdx_iff_getElem?.1 hother
          refine htexts other (List.mem_of_getElem? (i := j) ?_)
          rw [HostedOperation.afterTransitionItem, List.getElem?_set_ne hne.symm]
          exact hj
      · rintro ⟨index, item, hitem, rfl, hallowed, ⟨timestamp, hts, hle⟩, hreason, hiff,
          ⟨r, hr, r', hr'⟩, htexts⟩
        obtain rfl := h.itemIndexOf_eq hitem
        have hmem := List.mem_of_getElem? hitem
        have hwf : (itemAfter item target timestamp r).WellFormed := by
          obtain ⟨h1, h2, h3, h4, h5, h6, h7, h8, -⟩ := h.items_valid item hmem
          exact ⟨h1, h2, h3, h4, Nat.le_add_left 1 _, h6, h7, Int.le_trans h8 hle,
            by simpa [itemAfter, isSome_of_validateProviderResultIdentifier hr] using hiff⟩
        obtain ⟨op', hvalid⟩ := exists_validate
          (h.afterTransitionItem eventId hitem hallowed hle hreason hwf).wellFormed
          (by
            intro other hother
            rcases mem_set_eraseIdx hother with rfl | hother
            · exact ⟨r', hr'⟩
            · exact htexts other hother)
        exact ⟨op', transitionItem_eq_ok.2 ⟨h.countP_eq_one hmem, item, hitem, rfl, hallowed,
          timestamp, hts, hle, hiff, hreason, r, hr, hwf, hvalid⟩⟩

/-- An item moves to a status that comes without a result text. -/
lemma Invariant.transitionItem_none (h : op.Invariant sanitize) (htexts : op.TextsStable sanitize)
    (hitem : op.items[i]? = some item) (target : OperationItemState) (eventId : UUID)
    (timestamp : Instant) {reason : String} (hne : target ≠ .succeeded)
    (hallowed : itemOperationTransitionAllowed item.state target op.state = true)
    (hle : item.updatedAt ≤ timestamp) (hreason : ReasonAccepted sanitize reason) :
    let op' := op.afterTransitionItem i item target eventId timestamp reason none
    op.transitionItem sanitize item.operationItemId target eventId ⟨timestamp, some 0⟩ reason none =
        .ok op' ∧
      op'.Invariant sanitize ∧ op'.TextsStable sanitize := by
  intro op'
  have hmem := List.mem_of_getElem? hitem
  have hwf : (itemAfter item target timestamp none).WellFormed := by
    obtain ⟨h1, h2, h3, h4, h5, h6, h7, h8, -⟩ := h.items_valid item hmem
    exact ⟨h1, h2, h3, h4, Nat.le_add_left 1 _, h6, h7, Int.le_trans h8 hle,
      by simp [itemAfter, hne]⟩
  have hnext : op'.Invariant sanitize :=
    h.afterTransitionItem eventId hitem hallowed hle hreason hwf
  have hstable : op'.TextsStable sanitize := by
    intro other hother
    rcases List.mem_or_eq_of_mem_set hother with hother | rfl
    · exact htexts other hother
    · rfl
  refine ⟨transitionItem_eq_ok.2 ⟨h.countP_eq_one hmem, item, ?_, rfl, hallowed, timestamp,
    by simp [awareUtc], hle, by simp [hne], hreason, none, rfl, hwf, ?_⟩, hnext, hstable⟩
  · rw [h.itemIndexOf_eq hitem, hitem]
  · rw [h.itemIndexOf_eq hitem]
    exact validate_self hnext.wellFormed hstable

/-! ## What the events record -/

/-- What the events of an operation say about it, and what its statuses satisfy. -/
structure Consistent (op : HostedOperation) : Prop where
  compatible : parentOperationChildrenCompatible op.state op.childStates = true
  parent_versions : op.parentEvents.map (·.stateVersion) = List.range' 1 op.stateVersion
  parent_adjacent : ∀ (i : Nat) d e, op.parentEvents[i]? = some d →
    op.parentEvents[i + 1]? = some e → e.fromState = some d.toState
  parent_dispatches : (op.parentEvents.map (·.toState)).count "dispatching" ≤ 1
  item_versions : ∀ item ∈ op.items, (op.itemEvents item.operationItemId).map (·.stateVersion) =
    List.range' 2 (item.stateVersion - 1)
  item_first : ∀ item ∈ op.items, ∀ e, (op.itemEvents item.operationItemId)[0]? = some e →
    e.fromState = some "awaiting_confirmation"
  item_adjacent : ∀ item ∈ op.items, ∀ (i : Nat) d e,
    (op.itemEvents item.operationItemId)[i]? = some d →
    (op.itemEvents item.operationItemId)[i + 1]? = some e → e.fromState = some d.toState
  item_dispatches : ∀ item ∈ op.items,
    ((op.itemEvents item.operationItemId).map (·.toState)).count "dispatching" ≤ 1

lemma adjacent_of_chained {events : List OperationEvent} {start : Option String} {first : Nat}
    (h : Chained start first (events.map (·.entry))) (i : Nat) (d e : OperationEvent)
    (hd : events[i]? = some d) (he : events[i + 1]? = some e) : e.fromState = some d.toState :=
  h.adjacent i (d := d.entry) (e := e.entry) (by simp [hd]) (by simp [he])

lemma Invariant.consistent (h : op.Invariant sanitize) : op.Consistent := by
  have hitem : ∀ item ∈ op.items,
      Records stateRank (some OperationItemState.awaitingConfirmation.value) 2
        (op.itemLog item.operationItemId) item.state.value item.stateVersion := by
    intro item hitem
    obtain ⟨i, hi⟩ := List.mem_iff_getElem?.1 hitem
    exact h.item_records i item hi
  refine ⟨h.coherent.compatible, ?_, adjacent_of_chained h.parent_records.chained, ?_, ?_, ?_,
    fun item hmem => adjacent_of_chained (hitem item hmem).chained, ?_⟩
  · have hversions := h.parent_records.versions
    rwa [parentLog, List.map_map] at hversions
  · have hnodup := h.parent_records.nodup
    rw [parentLog, List.map_map] at hnodup
    exact List.nodup_iff_count_le_one.1 hnodup _
  · intro item hmem
    have hversions := (hitem item hmem).versions
    rwa [itemLog, List.map_map] at hversions
  · intro item hmem e he
    have hchained := (hitem item hmem).chained
    rw [itemLog] at hchained
    cases hevents : op.itemEvents item.operationItemId with
    | nil => simp [hevents] at he
    | cons d events =>
        rw [hevents] at hchained he
        obtain rfl : d = e := by simpa using he
        exact hchained.1
  · intro item hmem
    have hnodup := (hitem item hmem).nodup
    rw [itemLog, List.map_map] at hnodup
    exact List.nodup_iff_count_le_one.1 hnodup _

end HostedOperation

/-! ## A preview of two documents -/

/-- A hash that consists of one digit. -/
def hashOf (digit : Char) : String :=
  String.ofList (List.replicate 64 digit)

lemma isSha256_hashOf (digit : Char)
    (h : (('0' ≤ digit && digit ≤ '9') || ('a' ≤ digit && digit ≤ 'f')) = true) :
    isSha256 (hashOf digit) = true := by
  simp only [isSha256, hashOf, String.toList_ofList, List.length_replicate, List.all_replicate, h]
  rfl

def twoDocuments : DocumentPreview where
  previewId := 1
  tenantId := 2
  authUserId := 3
  workspaceId := 4
  connectionId := 5
  provider := .peak
  environment := "production"
  capabilityId := "documents.invoice.create"
  capabilityVersion := hashOf '5'
  connectionRevision := 1
  providerCallHash := hashOf '6'
  previewIntegrityHash := hashOf '7'
  state := .awaitingConfirmation
  stateVersion := 1
  items := [
    { previewItemId := 7
      itemIndex := 0
      clientItemId := "first"
      providerCallHash := hashOf '1'
      previewIntegrityHash := hashOf '3'
      createdAt := 0
      payloadPurgeAfter := previewTtl + unconfirmedPayloadRetention },
    { previewItemId := 8
      itemIndex := 1
      clientItemId := "second"
      providerCallHash := hashOf '2'
      previewIntegrityHash := hashOf '4'
      createdAt := 0
      payloadPurgeAfter := previewTtl + unconfirmedPayloadRetention }]
  createdAt := 0
  expiresAt := previewTtl
  payloadPurgeAfter := previewTtl + unconfirmedPayloadRetention
  confirmedAt := none
  cancelledAt := none

/-- One of the two items is closed as expired, the other one is cancelled. -/
def expireThenCancel : List OperationCall :=
  [.transitionItem 11 .expired 22 ⟨120, some 0⟩ "item_expired" none,
    .transitionItem 12 .cancelled 23 ⟨180, some 0⟩ "item_cancelled" none]

/-- The items of the operation built from `twoDocuments`, before any transition. -/
def firstItem : OperationItem where
  operationItemId := 11
  previewItemId := 7
  itemIndex := 0
  clientItemId := "first"
  providerCallHash := hashOf '1'
  previewIntegrityHash := hashOf '3'
  state := .awaitingConfirmation
  stateVersion := 1
  providerResultIdentifier := none
  createdAt := 60
  updatedAt := 60

def secondItem : OperationItem where
  operationItemId := 12
  previewItemId := 8
  itemIndex := 1
  clientItemId := "second"
  providerCallHash := hashOf '2'
  previewIntegrityHash := hashOf '4'
  state := .awaitingConfirmation
  stateVersion := 1
  providerResultIdentifier := none
  createdAt := 60
  updatedAt := 60

/-- The operation built from `twoDocuments`. -/
def twoItemOperation : HostedOperation where
  toConfirmationBinding := twoDocuments.toConfirmationBinding
  operationId := 6
  state := .awaitingConfirmation
  stateVersion := 1
  items := [firstItem, secondItem]
  events := [
    { eventId := 21
      operationId := 6
      operationItemId := none
      fromState := none
      toState := "awaiting_confirmation"
      stateVersion := 1
      sanitizedReason := "explicit_confirmation"
      occurredAt := 60 }]
  createdAt := 60
  updatedAt := 60
  payloadPurgeAfter := 60 + confirmedPayloadRetention

lemma fieldsValid_twoDocuments : twoDocuments.fieldsValid = true := by
  have henvironment : isEnvironment "production" = true := by decide
  have hcapability : isCapability "documents.invoice.create" = true := by decide
  simp only [ConfirmationBinding.fieldsValid, twoDocuments, henvironment, hcapability,
    isSha256_hashOf '5' (by decide), isSha256_hashOf '6' (by decide),
    isSha256_hashOf '7' (by decide)]
  decide

lemma wellFormed_twoDocuments : twoDocuments.WellFormed where
  fields := fieldsValid_twoDocuments
  version_pos := by decide
  items_length := by decide
  items := by
    have hfirst : isIdentifier "first" = true := by decide
    have hsecond : isIdentifier "second" = true := by decide
    simp only [twoDocuments, List.forall_mem_cons, StoredPreviewItem.isValid, hfirst, hsecond,
      isSha256_hashOf '1' (by decide), isSha256_hashOf '2' (by decide),
      isSha256_hashOf '3' (by decide), isSha256_hashOf '4' (by decide)]
    decide
  ids_ne := by decide
  ttl := by decide
  version := by decide
  timestamps := by decide
  client_ids := by decide
  item_ids := by decide
  call_hashes := by decide
  integrity_hashes := by decide
  index := by decide
  item_times := by decide

lemma wellFormed_item {item : OperationItem} (h : item ∈ [firstItem, secondItem]) :
    item.WellFormed := by
  simp only [List.mem_cons, List.not_mem_nil, or_false] at h
  rcases h with rfl | rfl
  · exact ⟨by decide, by decide, isSha256_hashOf '1' (by decide),
      isSha256_hashOf '3' (by decide), by decide, by decide, by decide, by decide, by decide⟩
  · exact ⟨by decide, by decide, isSha256_hashOf '2' (by decide),
      isSha256_hashOf '4' (by decide), by decide, by decide, by decide, by decide, by decide⟩

lemma wellFormed_twoItemOperation : twoItemOperation.WellFormed some where
  fields := fieldsValid_twoDocuments
  version_pos := by decide
  items_length := by decide
  items := fun _ hitem => wellFormed_item hitem
  events := by decide
  events_ne := by decide
  whole := by decide

lemma textsStable_twoItemOperation : twoItemOperation.TextsStable some := by
  intro item hitem
  simp only [twoItemOperation, List.mem_cons, List.not_mem_nil, or_false] at hitem
  rcases hitem with rfl | rfl <;> rfl

lemma fromPreview_twoDocuments :
    HostedOperation.fromPreview some twoDocuments 6 [11, 12] 21 ⟨60, some 0⟩ =
      .ok twoItemOperation := by
  have hitem : ∀ item ∈ [firstItem, secondItem], item.validate some = .ok item := by
    intro item hmem
    have hnone : item.providerResultIdentifier = none := by
      simp only [List.mem_cons, List.not_mem_nil, or_false] at hmem
      rcases hmem with rfl | rfl <;> rfl
    refine OperationItem.validate_eq_ok.2 ⟨none, by rw [hnone]; rfl, ?_, wellFormed_item hmem⟩
    rw [← hnone]
  have hevent := wellFormed_twoItemOperation.events
  simp only [twoItemOperation, List.forall_mem_cons, List.not_mem_nil, false_implies, implies_true,
    and_true] at hevent
  simp only [HostedOperation.fromPreview, bind_eq_ok, require_eq_ok, mapM_eq_ok,
    DocumentPreview.validate_eq_ok]
  exact ⟨_, ⟨rfl, wellFormed_twoDocuments⟩, 60, rfl, (), rfl, [firstItem, secondItem],
    .cons (hitem firstItem (by simp)) (.cons (hitem secondItem (by simp)) .nil), _, hevent,
    HostedOperation.validate_self wellFormed_twoItemOperation textsStable_twoItemOperation⟩

lemma run_expireThenCancel :
    let op := run (HostedOperation.call some) twoItemOperation expireThenCancel
    op.statuses = ⟨.awaitingConfirmation, [.expired, .cancelled]⟩ ∧
      op.items.map (·.operationItemId) = [11, 12] ∧
      (op.itemEvents 11).map (·.stateVersion) = [2] := by
  have hinv := HostedOperation.invariant_fromPreview fromPreview_twoDocuments
  have hexpired : ReasonAccepted some "item_expired" := by
    constructor <;> decide
  have hcancelled : ReasonAccepted some "item_cancelled" := by
    constructor <;> decide
  have hitem₁ : twoItemOperation.items[0]? = some firstItem := rfl
  obtain ⟨hfirst, hinv', hstable'⟩ := hinv.transitionItem_none textsStable_twoItemOperation hitem₁
    .expired 22 120 (by decide) (by decide) (by decide) hexpired
  have hitem₂ : (twoItemOperation.afterTransitionItem 0 firstItem .expired 22 120 "item_expired"
    none).items[1]? = some secondItem := rfl
  obtain ⟨hsecond, -, -⟩ := hinv'.transitionItem_none hstable' hitem₂ .cancelled 23 180 (by decide)
    (by decide) (by decide) hcancelled
  obtain ⟨first, hfirst'⟩ : ∃ x, x = twoItemOperation.afterTransitionItem 0 firstItem .expired 22 120
    "item_expired" none := ⟨_, rfl⟩
  obtain ⟨second, hsecond'⟩ : ∃ x, x = first.afterTransitionItem 1 secondItem .cancelled 23 180
    "item_cancelled" none := ⟨_, rfl⟩
  rw [← hfirst'] at hfirst hsecond
  rw [← hsecond'] at hsecond
  have hcall₁ : HostedOperation.call some twoItemOperation
      (.transitionItem 11 .expired 22 ⟨120, some 0⟩ "item_expired" none) = .ok first := hfirst
  have hcall₂ : HostedOperation.call some first
      (.transitionItem 12 .cancelled 23 ⟨180, some 0⟩ "item_cancelled" none) = .ok second := hsecond
  rw [expireThenCancel, run_cons, run_cons, run_nil, attempt_of_ok hcall₁, attempt_of_ok hcall₂,
    hsecond', hfirst']
  decide

/-! ## What is never left -/

namespace Statuses

/-- What was terminal before is unchanged after. -/
def TerminalKept (s s' : Statuses) : Prop :=
  (s.parent.isTerminal = true → s'.parent = s.parent) ∧
    ∀ (i : Nat) c, s.children[i]? = some c → c.isTerminal = true → s'.children[i]? = some c

variable {s : Statuses}

lemma TerminalKept.trans {t u : Statuses} (h : TerminalKept s t) (k : TerminalKept t u) :
    TerminalKept s u := by
  refine ⟨fun hterm => ?_, fun i c hc hterm => k.2 i c (h.2 i c hc hterm) hterm⟩
  have hst := h.1 hterm
  rw [← hst]
  exact k.1 (hst ▸ hterm)

lemma terminalKept_step {s' : Statuses} {move : StatusMove} (h : s.step move = .ok s') :
    TerminalKept s s' := by
  cases move with
  | parent target =>
      obtain ⟨hallowed, rfl⟩ := step_parent.1 h
      refine ⟨fun hterm => ?_, fun i c hc _ => hc⟩
      have hmem := mem_parentTransitions hallowed
      simp [ParentOperationState.isTerminal] at hterm
      simp [hterm] at hmem
  | item index target =>
      obtain ⟨child, hchild, hallowed, rfl⟩ := step_item.1 h
      refine ⟨fun _ => rfl, fun i c hc hterm => ?_⟩
      rcases eq_or_ne index i with rfl | hne
      · obtain rfl : child = c := by simpa [hchild] using hc
        have hmem := mem_itemTransitions hallowed
        simp [OperationItemState.isTerminal] at hterm
        simp [hterm] at hmem
      · rw [List.getElem?_set_ne hne]
        exact hc

end Statuses

namespace HostedOperation

lemma terminalKept_run (op : HostedOperation) (calls : List OperationCall) :
    Statuses.TerminalKept op.statuses (run (call sanitize) op calls).statuses :=
  run_relates (R := fun s s' : HostedOperation => Statuses.TerminalKept s.statuses s'.statuses)
    (I := fun _ => True) (fun _ => ⟨fun _ => rfl, fun _ _ hc _ => hc⟩)
    (fun _ _ _ h k => h.trans k) (fun _ _ _ _ _ => trivial)
    (fun _ _ _ _ hcall => Statuses.terminalKept_step (call_refines hcall)) trivial calls

lemma ids_run (op : HostedOperation) (calls : List OperationCall) :
    (run (call sanitize) op calls).items.map (·.operationItemId) =
      op.items.map (·.operationItemId) :=
  run_relates (R := fun s s' : HostedOperation =>
      s'.items.map (·.operationItemId) = s.items.map (·.operationItemId))
    (I := fun _ => True) (fun _ => rfl) (fun _ _ _ h k => k.trans h) (fun _ _ _ _ _ => trivial)
    (fun _ _ _ _ hcall => ids_of_call hcall) trivial calls

/-- After any calls on an operation built from a preview: the statuses are compatible and the
events account for them, a call is accepted exactly where the guards and the checks on its own
arguments accept it, and what is terminal stays as it is. -/
theorem run_consistent {preview : DocumentPreview} {operationId : UUID}
    {operationItemIds : List UUID} {eventId : UUID} {now : DateTime} {op₀ : HostedOperation}
    (h : fromPreview sanitize preview operationId operationItemIds eventId now = .ok op₀)
    (calls : List OperationCall) :
    let op := run (call sanitize) op₀ calls
    op.Consistent ∧
      (∀ move s, op.statuses.step move = .ok s →
        parentOperationChildrenCompatible s.parent s.children = true) ∧
      (∀ c, (∃ op', op.call sanitize c = .ok op') ↔ op.Accepts sanitize c) ∧
      ∀ later, let op' := run (call sanitize) op later
        op'.items.map (·.operationItemId) = op.items.map (·.operationItemId) ∧
          (op.state.isTerminal = true → op'.state = op.state) ∧
          ∀ (i : Nat) c, op.childStates[i]? = some c → c.isTerminal = true →
            op'.childStates[i]? = some c := by
  intro op
  have hinv : op.Invariant sanitize := invariant_run h calls
  refine ⟨hinv.consistent, ?_, hinv.accepts_iff, ?_⟩
  · intro move s hmove
    exact (hinv.coherent.step hmove).compatible
  · intro later
    obtain ⟨hparent, hchildren⟩ := terminalKept_run op later
    exact ⟨ids_run op later, hparent, hchildren⟩

/-- The first item transition records version two: an item's creation leaves no event. -/
theorem item_versions_start_at_two :
    ∃ op₀, fromPreview some twoDocuments 6 [11, 12] 21 ⟨60, some 0⟩ = .ok op₀ ∧
      ∃ item ∈ (run (call some) op₀ expireThenCancel).items,
        let events := (run (call some) op₀ expireThenCancel).itemEvents item.operationItemId
        events.map (·.stateVersion) = [2] ∧
          events.map (·.stateVersion) ≠ List.range' 1 events.length := by
  obtain ⟨-, hids, hversions⟩ := run_expireThenCancel
  refine ⟨twoItemOperation, fromPreview_twoDocuments, ?_⟩
  have hmem : (11 : UUID) ∈ (run (call some) twoItemOperation expireThenCancel).items.map
      (·.operationItemId) := by simp [hids]
  obtain ⟨item, hitem, hid⟩ := List.mem_map.1 hmem
  refine ⟨item, hitem, ?_⟩
  have hlength := congrArg List.length hversions
  rw [List.length_map] at hlength
  simp only [hid, hversions, hlength, true_and]
  decide

theorem run_consistent_twoDocuments :
    (run (call some) twoItemOperation expireThenCancel).Consistent :=
  (run_consistent fromPreview_twoDocuments expireThenCancel).1

/-! ## Staying able to finish -/

lemma Invariant.notStuck_iff {op : HostedOperation} (h : op.Invariant sanitize) :
    op.statuses.NotStuck ↔ op.statuses.hasExit = true :=
  h.coherent.notStuck_iff_hasExit

/-- An operation is able to finish in every state of a run exactly when every accepted call of
the run keeps the exit of the state it is made in. -/
theorem run_notStuck_iff {preview : DocumentPreview} {operationId : UUID}
    {operationItemIds : List UUID} {eventId : UUID} {now : DateTime} {op₀ : HostedOperation}
    (h : fromPreview sanitize preview operationId operationItemIds eventId now = .ok op₀)
    (calls : List OperationCall) :
    (∀ done, done <+: calls → (run (call sanitize) op₀ done).statuses.NotStuck) ↔
      ∀ done c, done ++ [c] <+: calls →
        (∃ op', (run (call sanitize) op₀ done).call sanitize c = .ok op') →
        (run (call sanitize) op₀ done).statuses.keepsExit
          ((run (call sanitize) op₀ done).moveOf c) = true := by
  constructor
  · rintro hlive done c hprefix ⟨op', hcall⟩
    have hinv := invariant_run h done
    have hnext := hlive (done ++ [c]) hprefix
    rw [(invariant_run h _).notStuck_iff, run_append, run_cons, run_nil,
      attempt_of_ok hcall] at hnext
    rw [← hinv.coherent.hasExit_step (call_refines hcall)]
    exact hnext
  · intro hkeeps done hprefix
    rw [(invariant_run h done).notStuck_iff]
    induction done using List.reverseRecOn with
    | nil => exact hasExit_fromPreview h
    | append_singleton done c ih =>
        have hexit := ih ((List.prefix_append done [c]).trans hprefix)
        rw [run_append, run_cons, run_nil]
        rcases attempt_cases (call sanitize) (run (call sanitize) op₀ done) c with hcall | hcall
        · rw [(invariant_run h done).coherent.hasExit_step (call_refines hcall)]
          exact hkeeps done c hprefix ⟨_, hcall⟩
        · rw [hcall]
          exact hexit

theorem run_notStuck_iff_twoDocuments :
    (∀ done, done <+: expireThenCancel →
        (run (call some) twoItemOperation done).statuses.NotStuck) ↔
      ∀ done c, done ++ [c] <+: expireThenCancel →
        (∃ op', (run (call some) twoItemOperation done).call some c = .ok op') →
        (run (call some) twoItemOperation done).statuses.keepsExit
          ((run (call some) twoItemOperation done).moveOf c) = true :=
  run_notStuck_iff fromPreview_twoDocuments expireThenCancel

/-- An expired item next to a cancelled one: the operation is neither terminal nor able to
move. -/
theorem expireThenCancel_stuck :
    ∃ op₀, fromPreview some twoDocuments 6 [11, 12] 21 ⟨60, some 0⟩ = .ok op₀ ∧
      ¬ (run (call some) op₀ expireThenCancel).statuses.NotStuck := by
  refine ⟨twoItemOperation, fromPreview_twoDocuments, ?_⟩
  rw [(invariant_run fromPreview_twoDocuments expireThenCancel).notStuck_iff,
    run_expireThenCancel.1]
  decide

end HostedOperation

end

end Hosted
end MercuryTools
