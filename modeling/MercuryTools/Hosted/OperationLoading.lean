import MercuryTools.Hosted.StoreRelation
import Mathlib.Data.List.Pairwise

/-!
# Loading an operation

`load_mercury_operation` of the operations migration, which returns an operation with its items
by index and its events by time and identifier, and `_operation_from_rpc` of
`execution/hosted/store.py`, which parses the instants and validates what it gets.  Where every
instant is one that a `datetime` can be, and the events of the parent and of each item are in the
order of the read, loading returns the operation that is stored (`loads_of_inOrder`).
-/

namespace MercuryTools
namespace Hosted

open Checks HostedOperation

variable {env : StoreEnvironment}

/-! ## The read function -/

/-- What `load_mercury_operation` returns. -/
structure OperationRecord where
  operation : OperationRow
  items : List OperationItemRow
  events : List OperationEventRow
  deriving DecidableEq, Repr

/-- `order by event.occurred_at, event.id`. -/
def OperationEventRow.before (event other : OperationEventRow) : Bool :=
  event.occurredAt < other.occurredAt ||
    (event.occurredAt == other.occurredAt && event.id ≤ other.id)

/-- `load_mercury_operation`. -/
def Database.loadMercuryOperation (env : StoreEnvironment) (db : Database) (scope : Scope)
    (operationId : UUID) : Except String OperationRecord := do
  require (env.workspaceAccess scope.tenantId scope.workspaceId scope.authUserId)
    "workspace_access_denied"
  match db.findOperation scope operationId with
  | none => .error "operation_not_found"
  | some stored =>
      return {
        operation := stored
        items := (db.items.filter fun item =>
          item.operationId == stored.id && item.tenantId == scope.tenantId &&
            item.authUserId == scope.authUserId && item.workspaceId == scope.workspaceId).mergeSort
              fun item other => item.itemIndex ≤ other.itemIndex
        events := (db.events.filter fun event =>
          event.operationId == stored.id && event.tenantId == scope.tenantId &&
            event.authUserId == scope.authUserId &&
            event.workspaceId == scope.workspaceId).mergeSort OperationEventRow.before }

/-! ## The loader -/

/-- From `datetime.min` to `datetime.max`, counted from 1970 on. -/
def isDatetime (t : Instant) : Bool :=
  -62135596800000000 ≤ t && t ≤ 253402300799999999

/-- `_parse_timestamp`.  A `timestamptz` can be later or earlier than every `datetime`, and the
infinite ones are its first and its last. -/
def parseTimestamp (t : Instant) : Except String Instant := do
  require (isDatetime t) "value_error"
  return t

lemma parseTimestamp_eq_ok {t parsed : Instant} :
    parseTimestamp t = .ok parsed ↔ isDatetime t = true ∧ parsed = t := by
  simp only [parseTimestamp, bind_eq_ok, require_eq_ok, pure_eq_ok]
  constructor
  · rintro ⟨_, h, heq⟩
    exact ⟨h, heq.symm⟩
  · rintro ⟨h, heq⟩
    exact ⟨(), h, heq.symm⟩

section

variable (sanitize : String → Option String)

/-- The `OperationItem` of a row. -/
def operationItemFromRpc (row : OperationItemRow) : Except String OperationItem :=
  match OperationItemState.ofValue? row.status with
  | none => .error "value_error"
  | some state => do
      let createdAt ← parseTimestamp row.createdAt
      let updatedAt ← parseTimestamp row.updatedAt
      OperationItem.validate sanitize {
        operationItemId := row.id
        previewItemId := row.previewItemId
        itemIndex := row.itemIndex
        clientItemId := row.clientItemId
        providerCallHash := row.providerCallHash
        previewIntegrityHash := row.previewIntegrityHash
        state := state
        stateVersion := row.stateVersion
        providerResultIdentifier := row.providerResultIdentifier
        createdAt := createdAt
        updatedAt := updatedAt }

/-- The `OperationEvent` of a row. -/
def operationEventFromRpc (row : OperationEventRow) : Except String OperationEvent := do
  let occurredAt ← parseTimestamp row.occurredAt
  OperationEvent.validate sanitize {
    eventId := row.id
    operationId := row.operationId
    operationItemId := row.operationItemId
    fromState := row.fromState
    toState := row.toState
    stateVersion := row.stateVersion
    sanitizedReason := row.sanitizedReason
    occurredAt := occurredAt }

/-- `_operation_from_rpc`. -/
def operationFromRpc (record : OperationRecord) : Except String HostedOperation := do
  let items ← record.items.mapM (operationItemFromRpc sanitize)
  let events ← record.events.mapM (operationEventFromRpc sanitize)
  match ParentOperationState.ofValue? record.operation.status with
  | none => .error "value_error"
  | some state =>
      let createdAt ← parseTimestamp record.operation.createdAt
      let updatedAt ← parseTimestamp record.operation.updatedAt
      let payloadPurgeAfter ← parseTimestamp record.operation.payloadPurgeAfter
      HostedOperation.validate sanitize {
        record.operation.toConfirmationBinding with
        operationId := record.operation.id
        state := state
        stateVersion := record.operation.stateVersion
        items := items
        events := events
        createdAt := createdAt
        updatedAt := updatedAt
        payloadPurgeAfter := payloadPurgeAfter }

end

/-! ## Sorted reads -/

lemma OperationEventRow.before_iff {a b : OperationEventRow} :
    a.before b = true ↔ a.occurredAt < b.occurredAt ∨
      a.occurredAt = b.occurredAt ∧ a.id.toNat ≤ b.id.toNat := by
  simp only [before, Bool.or_eq_true, decide_eq_true_eq, Bool.and_eq_true, beq_iff_eq,
    BitVec.le_def]

lemma OperationEventRow.before_trans (a b c : OperationEventRow) (hab : a.before b = true)
    (hbc : b.before c = true) : a.before c = true := by
  rw [before_iff] at *
  unfold Instant at *
  omega

lemma OperationEventRow.before_total (a b : OperationEventRow) :
    (a.before b || b.before a) = true := by
  rw [Bool.or_eq_true, before_iff, before_iff]
  unfold Instant
  omega

variable {α : Type} {sanitize : String → Option String} {op : HostedOperation}
  {store : InMemoryStore} {db : Database}

/-- Sorting leaves the entries alone that are in order among themselves. -/
lemma filter_mergeSort {le : α → α → Bool}
    (htrans : ∀ a b c, le a b = true → le b c = true → le a c = true)
    (htotal : ∀ a b, (le a b || le b a) = true) {xs : List α} {p : α → Bool}
    (h : (xs.filter p).Pairwise fun a b => le a b = true) :
    (xs.mergeSort le).filter p = xs.filter p := by
  have hsub := (List.sublist_mergeSort htrans htotal h List.filter_sublist).filter p
  rw [List.filter_filter] at hsub
  simp only [Bool.and_self] at hsub
  exact (hsub.eq_of_length ((List.mergeSort_perm xs le).filter p).length_eq.symm).symm

/-! ## Operations whose chains are in order -/

namespace HostedOperation

/-- The events of the parent, or of one item. -/
def chain (op : HostedOperation) (owner : Option UUID) : List OperationEvent :=
  op.events.filter (·.operationItemId == owner)

/-- The events of every chain are in the order of the read, and none is later than the last
change of the operation. -/
structure InOrder (op : HostedOperation) : Prop where
  chains : ∀ owner, (op.chain owner).Pairwise fun event other =>
    (Database.eventRow op event).before (Database.eventRow op other) = true
  times : ∀ event ∈ op.events, event.occurredAt ≤ op.updatedAt

/-- All instants of an operation. -/
def instants (op : HostedOperation) : List Instant :=
  [op.createdAt, op.updatedAt, op.payloadPurgeAfter] ++
    op.items.flatMap (fun item => [item.createdAt, item.updatedAt]) ++ op.events.map (·.occurredAt)

/-- Every instant is one that a `datetime` can be. -/
def HasDatetimes (op : HostedOperation) : Prop :=
  ∀ t ∈ op.instants, isDatetime t = true

/-- The operation with its events in the order of the read. -/
def sorted (op : HostedOperation) : HostedOperation :=
  { op with events := op.events.mergeSort fun event other =>
      (Database.eventRow op event).before (Database.eventRow op other) }

variable {op op' : HostedOperation} {t timestamp : Instant}

lemma instants_of_validate {sanitize : String → Option String}
    (h : op.validate sanitize = .ok op') : op'.instants = op.instants := by
  have hshape : ∀ op : HostedOperation, op.shape.instants = op.instants := by
    intro op
    simp [instants, shape, OperationItem.shape, List.flatMap_map]
  rw [← hshape op', (validate_ok h).1, hshape op]

lemma HasDatetimes.afterTransition (h : op.HasDatetimes) (htime : isDatetime timestamp = true)
    (target : ParentOperationState) (eventId : UUID) (reason : String) :
    (op.afterTransition target eventId timestamp reason).HasDatetimes := by
  intro t ht
  have hmem : t ∈ op.instants ∨ t = timestamp := by
    simp only [instants, HostedOperation.afterTransition, parentEvent, List.map_append,
      List.map_cons, List.map_nil, List.mem_append, List.mem_cons, List.not_mem_nil,
      or_false] at ht ⊢
    tauto
  rcases hmem with hmem | rfl
  · exact h t hmem
  · exact htime

lemma HasDatetimes.afterTransitionItem (h : op.HasDatetimes) (htime : isDatetime timestamp = true)
    {index : ℕ} {item : OperationItem} (hindex : op.items[index]? = some item)
    (hle : op.updatedAt ≤ timestamp) (target : OperationItemState) (eventId : UUID)
    (reason : String) (result : Option String) :
    (op.afterTransitionItem index item target eventId timestamp reason result).HasDatetimes := by
  intro t ht
  have hmem : t ∈ op.instants ∨ t = timestamp := by
    simp only [instants, HostedOperation.afterTransitionItem, itemEvent, Int.max_eq_right hle,
      List.map_append, List.map_cons, List.map_nil, List.mem_append, List.mem_flatMap,
      List.mem_cons, List.not_mem_nil, or_false] at ht ⊢
    rcases ht with ((ht | ht | ht) | ⟨other, hother, ht⟩) | ht | ht
    · exact .inl (.inl (.inl (.inl ht)))
    · exact .inr ht
    · exact .inl (.inl (.inl (.inr (.inr ht))))
    · rcases List.mem_or_eq_of_mem_set hother with hother | rfl
      · exact .inl (.inl (.inr ⟨other, hother, ht⟩))
      · rcases ht with ht | ht
        · exact .inl (.inl (.inr ⟨item, List.mem_of_getElem? hindex, .inl ht⟩))
        · exact .inr ht
    · exact .inl (.inr ht)
    · exact .inr ht
  rcases hmem with hmem | rfl
  · exact h t hmem
  · exact htime

lemma HasDatetimes.item (h : op.HasDatetimes) {item : OperationItem} (hitem : item ∈ op.items) :
    isDatetime item.createdAt = true ∧ isDatetime item.updatedAt = true := by
  have hmem : ∀ t ∈ [item.createdAt, item.updatedAt], t ∈ op.instants := fun t ht =>
    List.mem_append_left _ (List.mem_append_right _ (List.mem_flatMap.2 ⟨item, hitem, ht⟩))
  exact ⟨h _ (hmem _ (by simp)), h _ (hmem _ (by simp))⟩

lemma HasDatetimes.event (h : op.HasDatetimes) {event : OperationEvent}
    (hevent : event ∈ op.events) : isDatetime event.occurredAt = true :=
  h _ (List.mem_append_right _ (List.mem_map_of_mem hevent))

lemma InOrder.chain_sorted (h : op.InOrder) (owner : Option UUID) :
    op.sorted.chain owner = op.chain owner :=
  filter_mergeSort (fun a b c => OperationEventRow.before_trans (Database.eventRow op a)
    (Database.eventRow op b) (Database.eventRow op c))
    (fun a b => OperationEventRow.before_total (Database.eventRow op a) (Database.eventRow op b))
    (h.chains owner)

lemma mem_events_sorted {event : OperationEvent} : event ∈ op.sorted.events ↔ event ∈ op.events :=
  (List.mergeSort_perm _ _).mem_iff

lemma InOrder.invariant_sorted {sanitize : String → Option String} (h : op.InOrder)
    (hinv : op.Invariant sanitize) : op.sorted.Invariant sanitize := by
  have hparent : op.sorted.parentLog = op.parentLog :=
    congrArg (List.map OperationEvent.entry) (h.chain_sorted none)
  have hitem : ∀ itemId, op.sorted.itemLog itemId = op.itemLog itemId := fun itemId =>
    congrArg (List.map OperationEvent.entry) (h.chain_sorted (some itemId))
  refine ⟨hinv.fields, hinv.ids_ne, hinv.version_pos, hinv.created_le, hinv.retention,
    hinv.items_length, hinv.items_ids, hinv.items_index, hinv.items_valid, hinv.items_created,
    ?_, ?_, ?_, hinv.coherent, ?_, ?_⟩
  · exact fun event hevent => hinv.events_valid event (mem_events_sorted.1 hevent)
  · exact fun event hevent => hinv.events_own event (mem_events_sorted.1 hevent)
  · exact fun event hevent => hinv.events_items event (mem_events_sorted.1 hevent)
  · rw [hparent]
    exact hinv.parent_records
  · intro i item hi
    rw [hitem]
    exact hinv.item_records i item hi

end HostedOperation

/-! ## Loading what is stored -/

def OperationRow.owner (row : OperationRow) : Scope :=
  ⟨row.tenantId, row.authUserId, row.workspaceId⟩

/-- Reading an operation and loading what was read gives the operation that is stored: its row,
the rows of its items, and for the parent and each item the rows of its events. -/
def Database.Loads (env : StoreEnvironment) (db : Database) (row : OperationRow) : Prop :=
  ∃ record op, db.loadMercuryOperation env row.owner row.id = .ok record ∧
    operationFromRpc env.sanitize record = .ok op ∧ Database.operationRow op = row ∧
    op.items.map (Database.itemRow op) = db.items.filter (·.operationId == row.id) ∧
    ∀ owner, (op.chain owner).map (Database.eventRow op) =
      db.events.filter fun event => event.operationId == row.id && event.operationItemId == owner

lemma operationItemFromRpc_itemRow (hinv : op.Invariant sanitize)
    (hstable : op.TextsStable sanitize) (hdatetimes : op.HasDatetimes) {item : OperationItem}
    (hitem : item ∈ op.items) :
    operationItemFromRpc sanitize (Database.itemRow op item) = .ok item := by
  obtain ⟨hcreated, hupdated⟩ := hdatetimes.item hitem
  simp only [operationItemFromRpc, Database.itemRow, OperationItemState.ofValue?_value,
    bind_eq_ok, parseTimestamp_eq_ok]
  exact ⟨_, ⟨hcreated, rfl⟩, _, ⟨hupdated, rfl⟩,
    OperationItem.validate_eq_ok.2 ⟨_, hstable item hitem, rfl, hinv.items_valid item hitem⟩⟩

lemma operationEventFromRpc_eventRow (hinv : op.Invariant sanitize) {event : OperationEvent}
    (hevent : event ∈ op.events) (hdatetime : isDatetime event.occurredAt = true) :
    operationEventFromRpc sanitize (Database.eventRow op event) = .ok event := by
  simp only [operationEventFromRpc, Database.eventRow, bind_eq_ok, parseTimestamp_eq_ok]
  exact ⟨_, ⟨hdatetime, rfl⟩, hinv.events_valid event hevent⟩

/-- A condition that the rows of one operation meet does not narrow them. -/
lemma filter_own_and {β : Type} {rows : List α} {p q : α → Bool} {xs : List β} {f : β → α}
    (h : rows.filter p = xs.map f) (hq : ∀ x, q (f x) = true) :
    rows.filter (fun row => p row && q row) = xs.map f := by
  have hfilter : rows.filter (fun row => p row && q row) = (rows.filter p).filter q := by
    simp only [List.filter_filter, Bool.and_comm]
  rw [hfilter, h, List.filter_eq_self]
  intro row hrow
  obtain ⟨x, -, rfl⟩ := List.mem_map.1 hrow
  exact hq x

/-- What the read function returns, where the rows are those of the operations on record. -/
lemma Agrees.loadMercuryOperation (ha : Agrees store db)
    (hids : (store.operations.map (·.operationId)).Nodup) (hop : op ∈ store.operations)
    (hinv : op.Invariant env.sanitize)
    (haccess : env.workspaceAccess op.tenantId op.workspaceId op.authUserId = true) :
    db.loadMercuryOperation env (Database.operationRow op).owner op.operationId = .ok {
      operation := Database.operationRow op
      items := op.items.map (Database.itemRow op)
      events := op.sorted.events.map (Database.eventRow op) } := by
  have hfind : db.findOperation (Database.operationRow op).owner op.operationId =
      some (Database.operationRow op) :=
    (ha.findOperation_eq_some hids).2 ⟨op, hop, rfl, ⟨rfl, rfl, rfl⟩, rfl⟩
  have hitems : (db.items.filter fun row => row.operationId == op.operationId &&
      row.tenantId == op.tenantId && row.authUserId == op.authUserId &&
        row.workspaceId == op.workspaceId) = op.items.map (Database.itemRow op) := by
    simp only [Bool.and_assoc]
    exact filter_own_and (ha.items op hop) fun item => by simp [Database.itemRow]
  have hevents : (db.events.filter fun row => row.operationId == op.operationId &&
      row.tenantId == op.tenantId && row.authUserId == op.authUserId &&
        row.workspaceId == op.workspaceId) = op.events.map (Database.eventRow op) := by
    simp only [Bool.and_assoc]
    exact filter_own_and (ha.events op hop) fun event => by simp [Database.eventRow]
  have hsorted : (op.items.map (Database.itemRow op)).Pairwise fun row other =>
      decide (row.itemIndex ≤ other.itemIndex) = true := pairwise_itemIndex hinv
  have hmap : (op.events.map (Database.eventRow op)).mergeSort OperationEventRow.before =
      op.sorted.events.map (Database.eventRow op) :=
    (List.map_mergeSort (f := Database.eventRow op) fun _ _ _ _ => rfl).symm
  rw [Database.loadMercuryOperation, hfind]
  simp only [bind_eq_ok, require_eq_ok, pure_eq_ok]
  refine ⟨(), haccess, ?_⟩
  simp only [OperationRow.owner, Database.operationRow, hitems, hevents, hmap,
    List.mergeSort_of_pairwise hsorted]

/-- An operation whose chains are in order and whose instants can be parsed is loaded as it is
stored. -/
theorem Agrees.loads_of_inOrder (ha : Agrees store db)
    (hids : (store.operations.map (·.operationId)).Nodup) (hop : op ∈ store.operations)
    (hinv : op.Invariant env.sanitize) (hstable : op.TextsStable env.sanitize) (horder : op.InOrder)
    (hdatetimes : op.HasDatetimes)
    (haccess : env.workspaceAccess op.tenantId op.workspaceId op.authUserId = true) :
    db.Loads env (Database.operationRow op) := by
  have hnext := horder.invariant_sorted hinv
  have hitems : (op.items.map (Database.itemRow op)).mapM (operationItemFromRpc env.sanitize) =
      .ok op.items := by
    rw [mapM_eq_ok, List.forall₂_map_left_iff, List.forall₂_same]
    exact fun item hitem => operationItemFromRpc_itemRow hinv hstable hdatetimes hitem
  have hevents : (op.sorted.events.map (Database.eventRow op)).mapM
      (operationEventFromRpc env.sanitize) = .ok op.sorted.events := by
    rw [mapM_eq_ok, List.forall₂_map_left_iff, List.forall₂_same]
    exact fun event hevent => operationEventFromRpc_eventRow hnext hevent
      (hdatetimes.event (mem_events_sorted.1 hevent))
  refine ⟨_, op.sorted, ha.loadMercuryOperation hids hop hinv haccess, ?_, rfl,
    (ha.items op hop).symm, ?_⟩
  · simp only [operationFromRpc, hitems, hevents, Database.operationRow,
      ParentOperationState.ofValue?_value, bind_eq_ok, parseTimestamp_eq_ok]
    have hown : ∀ t ∈ [op.createdAt, op.updatedAt, op.payloadPurgeAfter], isDatetime t = true :=
      fun t ht => hdatetimes t (List.mem_append_left _ (List.mem_append_left _ ht))
    exact ⟨_, rfl, _, rfl, _, ⟨hown _ (by simp), rfl⟩, _, ⟨hown _ (by simp), rfl⟩, _,
      ⟨hown _ (by simp), rfl⟩, validate_self hnext.wellFormed hstable⟩
  · intro owner
    have hown := congrArg (List.filter (·.operationItemId == owner)) (ha.events op hop)
    rw [List.filter_filter, List.filter_map] at hown
    rw [horder.chain_sorted]
    simp only [Bool.and_comm (_ == owner)] at hown
    exact hown.symm

end Hosted
end MercuryTools
