import MercuryTools.Hosted.OperationTables

/-!
# The relation between the two operation stores

The in-memory store and the database functions are driven by the same calls.  `Agrees` relates
their states: the tables are the rows of the operations on record.  `CallAgrees` is the
condition on a call, judged in the state of the in-memory store, under which both answer it
alike: it excludes, for each method, the calls that only one of the two accepts.
-/

namespace MercuryTools
namespace Hosted

open Checks HostedOperation VersionedLog

variable {env : StoreEnvironment}

/-! ## States -/

/-- Previews that both stores can hold: they pass the model of the service and the constraints
of the table, and no two of them have one key. -/
structure PreviewsAdmitted (env : StoreEnvironment) (previews : List DocumentPreview) : Prop where
  ids : (previews.map (·.previewId)).Nodup
  keys : (previews.map fun p => (p.workspaceId, p.connectionId, p.providerCallHash)).Nodup
  valid : ∀ p ∈ previews, p.validate = .ok p
  checked : ∀ p ∈ previews, previewChecks env p = true ∧ isDocumentCapability p.capabilityId = true

/-- What holds of the in-memory store in every run. -/
structure InMemoryStore.Sound (env : StoreEnvironment) (store : InMemoryStore) : Prop where
  previews : PreviewsAdmitted env store.previews
  operation_ids : (store.operations.map (·.operationId)).Nodup
  operation_previews : (store.operations.map (·.previewId)).Nodup
  by_preview : store.operationByPreview =
    store.operations.map fun op => (op.previewId, op.operationId)
  invariant : ∀ op ∈ store.operations, op.Invariant env.sanitize
  stable : ∀ op ∈ store.operations, op.TextsStable env.sanitize
  bound : ∀ op ∈ store.operations, ∃ p ∈ store.previews,
    p.toConfirmationBinding = op.toConfirmationBinding ∧
      op.items.map (·.clientItemId) = p.items.map (·.clientItemId)

/-- The tables are the rows of the operations on record. -/
structure Agrees (store : InMemoryStore) (db : Database) : Prop where
  previews : db.previews = store.previews
  operations : db.operations = store.operations.map Database.operationRow
  item_ids : (db.items.map (·.id)).Nodup
  items : ∀ op ∈ store.operations,
    db.items.filter (·.operationId == op.operationId) = op.items.map (Database.itemRow op)
  items_owned : ∀ row ∈ db.items, ∃ op ∈ store.operations, row.operationId = op.operationId
  events : ∀ op ∈ store.operations,
    db.events.filter (·.operationId == op.operationId) = op.events.map (Database.eventRow op)
  events_owned : ∀ row ∈ db.events, ∃ op ∈ store.operations, row.operationId = op.operationId

/-! ## Calls -/

def InScope (scope : Scope) (op : HostedOperation) : Prop :=
  op.tenantId = scope.tenantId ∧ op.authUserId = scope.authUserId ∧
    op.workspaceId = scope.workspaceId

/-- Both projections leave the reason alone, or both do not. -/
def ReasonAgrees (env : StoreEnvironment) (reason : String) : Prop :=
  ReasonAccepted env.sanitize reason ↔ publicIdentifierIsSafe env reason = true

/-- The database projects the text to one it can store. -/
def DatabaseAcceptsText (env : StoreEnvironment) (text : String) : Prop :=
  1 ≤ (env.publicText text).length ∧ (env.publicText text).length ≤ 200 ∧
    (env.publicText text).toList.any env.isCntrl = false ∧
    env.publicText text = env.publicText (env.publicText text)

/-- Both projections turn the result text into the same stable text, or both refuse it. -/
def ResultAgrees (env : StoreEnvironment) : Option String → Prop
  | none => True
  | some text =>
      (DatabaseAcceptsText env text ∧ env.sanitize text = some (env.publicText text) ∧
          env.sanitize (env.publicText text) = some (env.publicText text)) ∨
        (¬ DatabaseAcceptsText env text ∧
          ¬ ∃ r, validateProviderResultIdentifier env.sanitize (some text) = .ok r)

def EventFresh (store : InMemoryStore) (eventId : UUID) : Prop :=
  ∀ op ∈ store.operations, ∀ event ∈ op.events, event.eventId ≠ eventId

def ItemFresh (store : InMemoryStore) (itemId : UUID) : Prop :=
  ∀ op ∈ store.operations, ∀ item ∈ op.items, item.operationItemId ≠ itemId

/-- Both stores find the same authority behind a preview. -/
def AuthorityAgrees (env : StoreEnvironment) (store : InMemoryStore) (now : Instant)
    (previewId : UUID) : Prop :=
  ∀ p ∈ store.previews, p.previewId = previewId →
    env.revalidateAuthority p now = env.authorityIsCurrent p now

/-- The calls that both stores answer alike.  The caller is a member of the workspace, the
projections of the texts and the authority checks of the two sides agree on the call, and new
identifiers are new in every operation.  Beyond that:

* an operation is not created from a preview that is only prepared, and where the preview has
  an operation already, the call repeats its confirmation: a first version whose items are
  those on record;
* an item does not move at a time that is before the last change of its operation but not
  before its own. -/
def CallAgrees (env : StoreEnvironment) (store : InMemoryStore) (now : Instant) :
    StoreCall → Prop
  | .createOperation operation _ =>
      env.workspaceAccess operation.tenantId operation.workspaceId operation.authUserId = true ∧
        AuthorityAgrees env store now operation.previewId ∧
        (∀ event ∈ operation.events, ReasonAgrees env event.sanitizedReason) ∧
        (∀ p ∈ store.previews, p.previewId = operation.previewId → p.state ≠ .prepared) ∧
        (∀ existing ∈ store.operations, existing.previewId = operation.previewId →
          operation.state = .awaitingConfirmation ∧ operation.stateVersion = 1 ∧
            operation.updatedAt = operation.createdAt ∧ operation.events.length = 1 ∧
            existing.items.map (·.identity) = operation.items.map (·.identity)) ∧
        ((∀ existing ∈ store.operations, existing.previewId ≠ operation.previewId) →
          (∀ event ∈ operation.events, EventFresh store event.eventId) ∧
            ∀ item ∈ operation.items, ItemFresh store item.operationItemId)
  | .transitionOperation scope operationId _ _ eventId _ reason =>
      env.workspaceAccess scope.tenantId scope.workspaceId scope.authUserId = true ∧
        (∀ op ∈ store.operations, op.operationId = operationId →
          AuthorityAgrees env store now op.previewId) ∧
        ReasonAgrees env reason ∧ EventFresh store eventId
  | .transitionOperationItem scope operationId itemId _ _ eventId occurredAt reason result =>
      env.workspaceAccess scope.tenantId scope.workspaceId scope.authUserId = true ∧
        ReasonAgrees env reason ∧ ResultAgrees env result ∧ EventFresh store eventId ∧
        ∀ op ∈ store.operations, op.operationId = operationId →
          ∀ item ∈ op.items, item.operationItemId = itemId →
            item.updatedAt ≤ occurredAt → op.updatedAt ≤ occurredAt

/-- The answer of the in-memory store to a call made at a given time. -/
def InMemoryStore.answer (env : StoreEnvironment) (store : InMemoryStore)
    (c : Instant × StoreCall) : Bool × InMemoryStore :=
  ((store.call env c.1 c.2).1.isOk, (store.call env c.1 c.2).2)

/-- The answer of the database; what raises changes nothing. -/
def Database.answer (env : StoreEnvironment) (db : Database) (c : Instant × StoreCall) :
    Bool × Database :=
  match db.call env c.1 c.2 with
  | .ok db' => (true, db')
  | .error _ => (false, db)

/-! ## Rows satisfy the constraints -/

variable {op op' : HostedOperation} {event : OperationEvent} {store : InMemoryStore} {scope : Scope}
  {operationId : UUID} {db : Database} {row : OperationEventRow} {rows : List OperationEventRow}

lemma operationRow_checks (h : op.Invariant env.sanitize)
    (hcapability : isDocumentCapability op.capabilityId = true) :
    (Database.operationRow op).checks = true := by
  have hfields := h.fields
  simp only [ConfirmationBinding.fieldsValid, Bool.and_eq_true, decide_eq_true_eq] at hfields
  have hstatus : op.state.value ∈ ParentOperationState.members.map ParentOperationState.value :=
    List.mem_map_of_mem (by cases op.state <;> decide)
  obtain ⟨⟨⟨⟨⟨henvironment, -⟩, hversion⟩, hrevision⟩, hcall⟩, hintegrity⟩ := hfields
  simp only [OperationRow.checks, Database.operationRow, Bool.and_eq_true]
  exact ⟨⟨⟨⟨⟨⟨⟨⟨⟨⟨henvironment, hcapability⟩, hversion⟩, decide_eq_true hrevision⟩, hcall⟩,
    hintegrity⟩, decide_eq_true hstatus⟩, decide_eq_true h.version_pos⟩,
    decide_eq_true h.created_le⟩, decide_eq_true h.retention.1⟩, decide_eq_true h.retention.2⟩

lemma itemRow_checks {item : OperationItem} (h : item.WellFormed)
    (hsafe : publicIdentifierIsSafe env item.clientItemId = true)
    (htext : ∀ text, item.providerResultIdentifier = some text →
      1 ≤ text.length ∧ text.length ≤ 200 ∧ text = env.publicText text ∧
        text.toList.any env.isCntrl = false) : (Database.itemRow op item).checks env = true := by
  have hstatus : item.state.value ∈ OperationItemState.members.map OperationItemState.value :=
    List.mem_map_of_mem (by cases item.state <;> decide)
  have hindex : item.itemIndex ≤ 24 := Nat.le_of_lt_succ h.index_lt
  have hresult : item.providerResultIdentifier.all (fun text =>
      1 ≤ text.length && text.length ≤ 200 && text == env.publicText text &&
        !text.toList.any env.isCntrl) = true := by
    refine (Option.all_eq_true _ _).2 fun text htext' => ?_
    obtain ⟨h1, h2, h3, h4⟩ := htext text htext'
    simp only [h4, ← h3, beq_self_eq_true, Bool.not_false, Bool.and_true, Bool.and_eq_true]
    exact ⟨decide_eq_true h1, decide_eq_true h2⟩
  simp only [OperationItemRow.checks, Database.itemRow, Bool.and_eq_true]
  exact ⟨⟨⟨⟨⟨⟨⟨decide_eq_true hindex, hsafe⟩, h.call_hash⟩, h.integrity_hash⟩,
    decide_eq_true hstatus⟩, decide_eq_true h.version_pos⟩, decide_eq_true h.created_le⟩, hresult⟩

lemma mem_itemValues_of_mem_eventStates {s : String} (h : s ∈ eventStates) :
    s ∈ OperationItemState.members.map OperationItemState.value := by
  have hsub : eventStates ⊆ OperationItemState.members.map OperationItemState.value := by decide
  exact hsub h

lemma eventRow_checks (h : event.validate env.sanitize = .ok event)
    (hsafe : publicIdentifierIsSafe env event.sanitizedReason = true) :
    (Database.eventRow op event).checks env = true := by
  obtain ⟨-, hversion, -, hto, hfrom⟩ := OperationEvent.validate_eq_ok.1 h
  have hfromState : event.fromState.all
      (· ∈ OperationItemState.members.map OperationItemState.value) = true :=
    (Option.all_eq_true _ _).2 fun s hs =>
      decide_eq_true (mem_itemValues_of_mem_eventStates (hfrom s hs))
  simp only [OperationEventRow.checks, Database.eventRow, Bool.and_eq_true]
  exact ⟨⟨⟨decide_eq_true hversion, hsafe⟩, hfromState⟩,
    decide_eq_true (mem_itemValues_of_mem_eventStates hto)⟩

/-! ## Looking up -/

lemma InMemoryStore.Sound.getOperation_eq_ok (h : store.Sound env) :
    store.getOperation env scope operationId = .ok op ↔
      op ∈ store.operations ∧ op.operationId = operationId ∧ InScope scope op := by
  have hfind : ∀ op, store.findOperation operationId = some op ↔
      op ∈ store.operations ∧ op.operationId = operationId := by
    intro op
    rw [InMemoryStore.findOperation,
      KeyedTable.find?_eq_some h.operation_ids (k := operationId) fun y hy => eq_of_beq hy]
    simp
  have hself : ∀ op ∈ store.operations, op.validate env.sanitize = .ok op := fun op hop =>
    validate_self (h.invariant op hop).wellFormed (h.stable op hop)
  rw [InMemoryStore.getOperation]
  constructor
  · intro hget
    cases hfound : store.findOperation operationId with
    | none => simp [hfound] at hget
    | some stored =>
        obtain ⟨hmem, hid⟩ := (hfind stored).1 hfound
        simp only [hfound, bind_eq_ok, require_eq_ok, Bool.and_eq_true, beq_iff_eq,
          hself stored hmem, Except.ok.injEq] at hget
        obtain ⟨-, ⟨⟨htenant, huser⟩, hworkspace⟩, rfl⟩ := hget
        exact ⟨hmem, hid, htenant, huser, hworkspace⟩
  · rintro ⟨hmem, hid, htenant, huser, hworkspace⟩
    simp [(hfind op).2 ⟨hmem, hid⟩, htenant, huser, hworkspace, hself op hmem, bind, Except.bind,
      require]

lemma Agrees.findOperation_eq_some (ha : Agrees store db)
    (h : (store.operations.map (·.operationId)).Nodup) {row : OperationRow} :
    db.findOperation scope operationId = some row ↔
      ∃ op ∈ store.operations, op.operationId = operationId ∧ InScope scope op ∧
        row = Database.operationRow op := by
  have hids : (db.operations.map (·.id)).Nodup := by
    rw [ha.operations, List.map_map]
    exact h
  rw [Database.findOperation, KeyedTable.find?_eq_some hids (k := operationId)]
  · rw [ha.operations, List.mem_map]
    constructor
    · rintro ⟨⟨op, hop, rfl⟩, hscope⟩
      simp only [Database.operationRow, Bool.and_eq_true, beq_iff_eq] at hscope
      obtain ⟨⟨⟨hid, htenant⟩, huser⟩, hworkspace⟩ := hscope
      exact ⟨op, hop, hid, ⟨htenant, huser, hworkspace⟩, rfl⟩
    · rintro ⟨op, hop, hid, ⟨htenant, huser, hworkspace⟩, rfl⟩
      exact ⟨⟨op, hop, rfl⟩, by simp [Database.operationRow, hid, htenant, huser, hworkspace]⟩
  · intro row hrow
    simp only [Bool.and_eq_true, beq_iff_eq] at hrow
    exact hrow.1.1.1

/-- The preview an operation was created from, as both stores find it. -/
lemma InMemoryStore.Sound.findPreview (h : store.Sound env) (hop : op ∈ store.operations) :
    ∃ p ∈ store.previews, p.toConfirmationBinding = op.toConfirmationBinding ∧
      store.findPreview op.previewId = some p := by
  obtain ⟨p, hp, hbinding, -⟩ := h.bound op hop
  refine ⟨p, hp, hbinding, ?_⟩
  rw [InMemoryStore.findPreview, KeyedTable.find?_eq_some h.previews.ids (k := op.previewId)
    fun y hy => eq_of_beq hy]
  exact ⟨hp, by simp [congrArg (·.previewId) hbinding]⟩

lemma Agrees.findSource (ha : Agrees store db) (h : store.Sound env) {p : DocumentPreview}
    (hp : p ∈ store.previews) (hbinding : p.toConfirmationBinding = op.toConfirmationBinding) :
    db.previews.find? (fun stored =>
      stored.previewId == op.previewId && stored.tenantId == op.tenantId &&
        stored.authUserId == op.authUserId && stored.workspaceId == op.workspaceId &&
        stored.connectionId == op.connectionId) = some p := by
  rw [ha.previews, KeyedTable.find?_eq_some h.previews.ids (k := op.previewId)]
  · exact ⟨hp, by simp [hbinding]⟩
  · intro stored hstored
    simp only [Bool.and_eq_true, beq_iff_eq] at hstored
    exact hstored.1.1.1.1

lemma pairwise_itemIndex (h : op.Invariant env.sanitize) :
    (op.items.map (Database.itemRow op)).Pairwise fun row other =>
      decide (row.itemIndex ≤ other.itemIndex) = true := by
  have hrange : (op.items.map (·.itemIndex)).Pairwise (· ≤ ·) := by
    rw [h.items_index]
    exact List.pairwise_le_range
  rw [List.pairwise_map] at hrange ⊢
  exact hrange.imp fun hle => decide_eq_true hle

lemma Agrees.childStates (ha : Agrees store db) (hop : op ∈ store.operations)
    (h : op.Invariant env.sanitize) :
    db.childStates op.operationId = op.childStates.map OperationItemState.value := by
  rw [Database.childStates, ha.items op hop, List.mergeSort_of_pairwise (pairwise_itemIndex h),
    HostedOperation.childStates, List.map_map, List.map_map]
  rfl

/-- The versions of a parent's or of an item's events end with the current one. -/
lemma event_version_le (h : op.Invariant env.sanitize) (hevent : event ∈ op.events) :
    (event.operationItemId = none → event.stateVersion ≤ op.stateVersion) ∧
      ∀ item ∈ op.items, event.operationItemId = some item.operationItemId →
        event.stateVersion ≤ item.stateVersion := by
  constructor
  · intro hparent
    have hmem : event.stateVersion ∈ op.parentEvents.map (·.stateVersion) :=
      List.mem_map_of_mem (List.mem_filter.2 ⟨hevent, by simp [hparent]⟩)
    rw [h.consistent.parent_versions, List.mem_range'_1] at hmem
    omega
  · intro item hitem hid
    have hmem : event.stateVersion ∈ (op.itemEvents item.operationItemId).map (·.stateVersion) :=
      List.mem_map_of_mem (List.mem_filter.2 ⟨hevent, by simp [hid]⟩)
    rw [h.consistent.item_versions item hitem, List.mem_range'_1] at hmem
    have := (h.items_valid item hitem).version_pos
    omega

/-! ## Replacing an operation -/

/-- What a transition leaves alone. -/
structure SameConfirmation (op op' : HostedOperation) : Prop where
  id : op'.operationId = op.operationId
  binding : op'.toConfirmationBinding = op.toConfirmationBinding
  client_ids : op'.items.map (·.clientItemId) = op.items.map (·.clientItemId)

lemma InMemoryStore.Sound.put (h : store.Sound env) (hop : op ∈ store.operations)
    (hsame : SameConfirmation op op') (hinv : op'.Invariant env.sanitize)
    (hstable : op'.TextsStable env.sanitize) : (store.putOperation op').Sound env := by
  have hpreview : op'.previewId = op.previewId := congrArg (·.previewId) hsame.binding
  refine ⟨h.previews, ?_, ?_, ?_, ?_, ?_, ?_⟩
  · simpa [InMemoryStore.putOperation] using h.operation_ids
  · rw [InMemoryStore.putOperation, KeyedTable.map_put_of_eq h.operation_ids hop hsame.id hpreview]
    exact h.operation_previews
  · rw [InMemoryStore.putOperation, KeyedTable.map_put_of_eq h.operation_ids hop hsame.id]
    · exact h.by_preview
    · rw [hpreview, hsame.id]
  · intro stored hstored
    rcases KeyedTable.mem_put hstored with rfl | ⟨hstored, -⟩
    · exact hinv
    · exact h.invariant stored hstored
  · intro stored hstored
    rcases KeyedTable.mem_put hstored with rfl | ⟨hstored, -⟩
    · exact hstable
    · exact h.stable stored hstored
  · intro stored hstored
    rcases KeyedTable.mem_put hstored with rfl | ⟨hstored, -⟩
    · obtain ⟨p, hp, hbinding, hids⟩ := h.bound op hop
      exact ⟨p, hp, hbinding.trans hsame.binding.symm, hsame.client_ids.trans hids⟩
    · exact h.bound stored hstored

lemma itemRow_eq (hsame : SameConfirmation op op') :
    Database.itemRow op' = Database.itemRow op := by
  funext item
  simp [Database.itemRow, hsame.id, hsame.binding]

lemma eventRow_eq (hsame : SameConfirmation op op') :
    Database.eventRow op' = Database.eventRow op := by
  funext event
  simp [Database.eventRow, hsame.binding]

/-- The tables agree after the rows of one operation followed it, and no others changed. -/
lemma Agrees.put {db' : Database} (ha : Agrees store db) (hop : op ∈ store.operations)
    (hsame : SameConfirmation op op') (hpreviews : db'.previews = db.previews)
    (hoperations : db'.operations =
      KeyedTable.put (·.id) db.operations (Database.operationRow op'))
    (hitemIds : db'.items.map (·.id) = db.items.map (·.id))
    (hitems : db'.items.filter (·.operationId == op.operationId) =
      op'.items.map (Database.itemRow op)) (hotherItems : ∀ id, id ≠ op.operationId →
      db'.items.filter (·.operationId == id) = db.items.filter (·.operationId == id))
    (hevents : db'.events.filter (·.operationId == op.operationId) =
      op'.events.map (Database.eventRow op)) (hotherEvents : ∀ id, id ≠ op.operationId →
      db'.events.filter (·.operationId == id) = db.events.filter (·.operationId == id)) :
    Agrees (store.putOperation op') db' := by
  have hmem : op' ∈ (store.putOperation op').operations :=
    KeyedTable.mem_put_self hop hsame.id.symm
  have hkept : ∀ stored ∈ store.operations, stored.operationId ≠ op.operationId →
      stored ∈ (store.putOperation op').operations := fun stored hstored hne =>
    KeyedTable.mem_put_of_ne hstored (by rwa [hsame.id])
  refine ⟨hpreviews.trans ha.previews, ?_, by rw [hitemIds]; exact ha.item_ids, ?_, ?_, ?_, ?_⟩
  · rw [hoperations, ha.operations, InMemoryStore.putOperation]
    exact (KeyedTable.map_put (fun _ => rfl) _ _).symm
  · intro stored hstored
    rcases KeyedTable.mem_put hstored with rfl | ⟨hstored, hne⟩
    · rw [hsame.id, itemRow_eq hsame]
      exact hitems
    · rw [hotherItems _ (by rwa [hsame.id] at hne)]
      exact ha.items stored hstored
  · intro row hrow
    by_cases hid : row.operationId = op.operationId
    · exact ⟨op', hmem, by rw [hid, hsame.id]⟩
    · have hfilter : row ∈ db.items.filter (·.operationId == row.operationId) := by
        rw [← hotherItems _ hid]
        exact List.mem_filter.2 ⟨hrow, by simp⟩
      obtain ⟨stored, hstored, heq⟩ := ha.items_owned row (List.mem_of_mem_filter hfilter)
      exact ⟨stored, hkept stored hstored (heq ▸ hid), heq⟩
  · intro stored hstored
    rcases KeyedTable.mem_put hstored with rfl | ⟨hstored, hne⟩
    · rw [hsame.id, eventRow_eq hsame]
      exact hevents
    · rw [hotherEvents _ (by rwa [hsame.id] at hne)]
      exact ha.events stored hstored
  · intro row hrow
    by_cases hid : row.operationId = op.operationId
    · exact ⟨op', hmem, by rw [hid, hsame.id]⟩
    · have hfilter : row ∈ db.events.filter (·.operationId == row.operationId) := by
        rw [← hotherEvents _ hid]
        exact List.mem_filter.2 ⟨hrow, by simp⟩
      obtain ⟨stored, hstored, heq⟩ := ha.events_owned row (List.mem_of_mem_filter hfilter)
      exact ⟨stored, hkept stored hstored (heq ▸ hid), heq⟩

lemma filter_append_own {k : UUID} (h : row.operationId = k) :
    (rows ++ [row]).filter (·.operationId == k) =
      rows.filter (·.operationId == k) ++ [row] := by
  simp [h]

lemma filter_append_other {id : UUID} (h : id ≠ row.operationId) :
    (rows ++ [row]).filter (·.operationId == id) =
      rows.filter (·.operationId == id) := by
  simp [h.symm]

/-- A new event with the next version is inserted. -/
lemma Agrees.insertEvent (ha : Agrees store db) (hop : op ∈ store.operations)
    (event : OperationEvent) (hown : event.operationId = op.operationId)
    (hfresh : EventFresh store event.eventId)
    (hversion : ∀ e ∈ op.events, e.operationItemId = event.operationItemId →
      e.stateVersion ≠ event.stateVersion)
    (hchecks : (Database.eventRow op event).checks env = true) (db' : Database)
    (hevents : db'.events = db.events) :
    db'.insertEvent env (Database.eventRow op event) =
      .ok { db' with events := db.events ++ [Database.eventRow op event] } := by
  have hconflict : db'.events.any (Database.eventRow op event).conflicts = false := by
    rw [hevents, List.any_eq_false]
    intro row hrow hconflicts
    obtain ⟨stored, hstored, hid⟩ := ha.events_owned row hrow
    have hfilter : row ∈ db.events.filter (·.operationId == stored.operationId) :=
      List.mem_filter.2 ⟨hrow, by simp [hid]⟩
    rw [ha.events stored hstored] at hfilter
    obtain ⟨e, he, rfl⟩ := List.mem_map.1 hfilter
    simp only [OperationEventRow.conflicts, Database.eventRow, Bool.or_eq_true, Bool.and_eq_true,
      beq_iff_eq] at hconflicts
    rcases hconflicts with hsame | ⟨⟨hoperation, hitem⟩, hsameVersion⟩
    · exact hfresh stored hstored e he hsame.symm
    · have hrow' : Database.eventRow stored e ∈
          db.events.filter (·.operationId == op.operationId) :=
        List.mem_filter.2 ⟨hrow, by simp [Database.eventRow, ← hoperation, hown]⟩
      rw [ha.events op hop] at hrow'
      obtain ⟨e', he', heq⟩ := List.mem_map.1 hrow'
      have hitem' : e'.operationItemId = e.operationItemId :=
        congrArg OperationEventRow.operationItemId heq
      have hversion' : e'.stateVersion = e.stateVersion :=
        congrArg OperationEventRow.stateVersion heq
      exact hversion e' he' (hitem'.trans hitem.symm) (hversion'.trans hsameVersion.symm)
  simp only [Database.insertEvent, bind_eq_ok, require_eq_ok, pure_eq_ok]
  exact ⟨(), hchecks, (), by rw [hconflict]; rfl, by rw [hevents]⟩

end Hosted
end MercuryTools
