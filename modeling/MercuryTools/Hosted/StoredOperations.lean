import MercuryTools.Hosted.OperationLoading
import MercuryTools.Hosted.StoreAgreement

/-!
# Every stored operation can be loaded

`Recorded` says that the tables hold the rows of well-formed operations whose instants can be parsed
and whose events are in the order of the read.  Every call that the database functions accept keeps
it, where the call meets `Loadable`: its instants are those of a `datetime`, the texts it stores are
their own projections for the service too, and its event comes last in its chain.  The last
condition concerns equal timestamps only: the functions accept a transition at the time of the one
before, and then the identifiers decide in which order the events are read back
(`earlier_event_last`).
-/

namespace MercuryTools
namespace Hosted

open Checks HostedOperation Lockstep

variable {env : StoreEnvironment} {store : InMemoryStore} {db db' : Database}

/-! ## What is on record -/

/-- The tables hold the rows of operations that can be loaded. -/
structure Recorded (env : StoreEnvironment) (store : InMemoryStore) (db : Database) : Prop where
  agrees : Agrees store db
  operation_ids : (store.operations.map (·.operationId)).Nodup
  invariant : ∀ op ∈ store.operations, op.Invariant env.sanitize
  stable : ∀ op ∈ store.operations, op.TextsStable env.sanitize
  inOrder : ∀ op ∈ store.operations, op.InOrder
  datetimes : ∀ op ∈ store.operations, op.HasDatetimes

variable {row : OperationRow} {op op' checked : HostedOperation} {eventId operationId : UUID}
  {occurredAt now : Instant} {scope : Scope} {expected : Int} {targetState reason : String}
  {sanitize : String → Option String}

theorem Recorded.loads (h : Recorded env store db) (hrow : row ∈ db.operations)
    (haccess : env.workspaceAccess row.tenantId row.workspaceId row.authUserId = true) :
    db.Loads env row := by
  rw [h.agrees.operations] at hrow
  obtain ⟨op, hop, rfl⟩ := List.mem_map.1 hrow
  exact h.agrees.loads_of_inOrder h.operation_ids hop (h.invariant op hop) (h.stable op hop)
    (h.inOrder op hop) (h.datetimes op hop) haccess

/-! ## The condition on a call -/

/-- No event of the chain is at the same time and has a larger identifier. -/
def Database.LastOfChain (db : Database) (operationId : UUID) (owner : Option UUID)
    (eventId : UUID) (occurredAt : Instant) : Prop :=
  ∀ event ∈ db.events, event.operationId = operationId → event.operationItemId = owner →
    event.occurredAt = occurredAt → event.id ≤ eventId

/-- The calls after which an operation can still be loaded; an operation that the service has made
consists of `datetime`s. -/
def Loadable (env : StoreEnvironment) (db : Database) : StoreCall → Prop
  | .createOperation operation _ => operation.HasDatetimes
  | .transitionOperation _ operationId _ _ eventId occurredAt reason =>
      isDatetime occurredAt = true ∧ ReasonAccepted env.sanitize reason ∧
        db.LastOfChain operationId none eventId occurredAt
  | .transitionOperationItem _ operationId itemId _ _ eventId occurredAt reason result =>
      isDatetime occurredAt = true ∧ ReasonAccepted env.sanitize reason ∧
        (∀ text, result = some text →
          env.sanitize (env.publicText text) = some (env.publicText text)) ∧
        db.LastOfChain operationId (some itemId) eventId occurredAt

/-! ## Transitions -/

/-- An event that is not before the last change and comes last in its chain keeps the order. -/
lemma HostedOperation.InOrder.append (h : op.InOrder) {event : OperationEvent}
    (hevents : op'.events = op.events ++ [event]) (htime : op.updatedAt ≤ event.occurredAt)
    (hupdated : op'.updatedAt = event.occurredAt)
    (hlast : ∀ e ∈ op.events, e.operationItemId = event.operationItemId →
      e.occurredAt = event.occurredAt → e.eventId ≤ event.eventId) : op'.InOrder := by
  constructor
  · intro owner
    have hchain : op'.chain owner = op.chain owner ++ [event].filter (·.operationItemId == owner) := by
      rw [chain, hevents, List.filter_append]
      rfl
    rw [hchain, List.pairwise_append]
    refine ⟨h.chains owner, List.Pairwise.filter _ (List.pairwise_singleton _ _), ?_⟩
    intro e he f hf
    obtain ⟨he, howner⟩ := List.mem_filter.1 he
    obtain ⟨hf, hfowner⟩ := List.mem_filter.1 hf
    rw [List.mem_singleton] at hf
    subst hf
    have hsame : e.operationItemId = f.operationItemId :=
      (eq_of_beq howner).trans (eq_of_beq hfowner).symm
    have hle : e.occurredAt ≤ f.occurredAt := Int.le_trans (h.times e he) htime
    rw [OperationEventRow.before_iff]
    rcases Int.lt_or_eq_of_le hle with hlt | heq
    · exact .inl hlt
    · exact .inr ⟨heq, BitVec.le_def.1 (hlast e he hsame heq)⟩
  · intro e he
    rw [hevents] at he
    rw [hupdated]
    rcases List.mem_append.1 he with he | he
    · exact Int.le_trans (h.times e he) htime
    · exact List.mem_singleton.1 he ▸ Int.le_refl _

lemma Agrees.lastOfChain (ha : Agrees store db) (hop : op ∈ store.operations)
    (hinv : op.Invariant env.sanitize) {owner : Option UUID}
    (hlast : db.LastOfChain op.operationId owner eventId occurredAt) :
    ∀ e ∈ op.events, e.operationItemId = owner → e.occurredAt = occurredAt →
      e.eventId ≤ eventId := by
  intro e he howner htime
  have hmem : Database.eventRow op e ∈ db.events.filter (·.operationId == op.operationId) := by
    rw [ha.events op hop]
    exact List.mem_map_of_mem he
  exact hlast (Database.eventRow op e) (List.mem_of_mem_filter hmem) (hinv.events_own e he).1 howner
    htime

/-- One operation is replaced by one that can be loaded. -/
lemma Recorded.put (h : Recorded env store db) (hagrees : Agrees (store.putOperation op') db')
    (hinv : op'.Invariant env.sanitize) (hstable : op'.TextsStable env.sanitize)
    (horder : op'.InOrder) (hdatetimes : op'.HasDatetimes) :
    Recorded env (store.putOperation op') db' := by
  have hall : ∀ {P : HostedOperation → Prop}, P op' → (∀ op ∈ store.operations, P op) →
      ∀ op ∈ (store.putOperation op').operations, P op := by
    intro P hnew hold op hop
    rcases KeyedTable.mem_put hop with rfl | ⟨hop, -⟩
    · exact hnew
    · exact hold op hop
  exact ⟨hagrees, by simpa [InMemoryStore.putOperation] using h.operation_ids,
    hall hinv h.invariant, hall hstable h.stable, hall horder h.inOrder,
    hall hdatetimes h.datetimes⟩

lemma Recorded.transition (h : Recorded env store db) (hloadable : Loadable env db
      (.transitionOperation scope operationId expected targetState eventId occurredAt reason))
    (hok : db.transitionMercuryOperation env now scope operationId expected targetState eventId
      occurredAt reason = .ok db') : ∃ store', Recorded env store' db' := by
  obtain ⟨hdatetime, hreason, hlast⟩ := hloadable
  obtain ⟨op, hop, target, ⟨rfl, -⟩, -, ⟨htime, -, hguard⟩, rfl⟩ :=
    h.agrees.transition_inversion h.operation_ids h.invariant hok
  have hinv := h.invariant op hop
  refine ⟨_, h.put (h.agrees.afterTransition hop target eventId occurredAt reason)
    (hinv.afterTransition eventId hguard htime hreason) (h.stable op hop) ?_
    ((h.datetimes op hop).afterTransition hdatetime target eventId reason)⟩
  exact (h.inOrder op hop).append rfl htime rfl (h.agrees.lastOfChain hop hinv hlast)

lemma Recorded.transitionItem (h : Recorded env store db) {itemId : UUID} {result : Option String}
    (hloadable : Loadable env db (.transitionOperationItem scope operationId itemId expected
      targetState eventId occurredAt reason result))
    (hok : db.transitionMercuryOperationItem env scope operationId itemId expected targetState
      eventId occurredAt reason result = .ok db') : ∃ store', Recorded env store' db' := by
  obtain ⟨hdatetime, hreason, hfixed, hlast⟩ := hloadable
  obtain ⟨op, hop, item, hitem, target, ⟨rfl, -, rfl, -, rfl⟩, ⟨hitemTime, htime, -, hguard⟩,
    ⟨hiff, haccepts⟩, rfl⟩ := h.agrees.itemTransition_inversion h.operation_ids hok
  have hinv := h.invariant op hop
  obtain ⟨index, hindex, hindexOf, -, hnext⟩ :=
    hinv.afterItem hitem hguard hitemTime hreason hiff eventId
  have hitems : (afterItem env op item target eventId occurredAt reason result).items =
      op.items.set index (itemAfter item target occurredAt (result.map env.publicText)) := by
    rw [← hindexOf]
    rfl
  have hid : (itemAfter item target occurredAt (result.map env.publicText)).operationItemId =
      item.operationItemId := rfl
  refine ⟨_, h.put (h.agrees.putItem hop hinv hindex hid (sameConfirmation_afterItem hindex
    hindexOf) hitems rfl rfl) hnext (textsStable_afterItem (h.stable op hop)
      (validateProviderResultIdentifier_publicText haccepts hfixed)) ?_ ?_⟩
  · exact (h.inOrder op hop).append rfl htime (Int.max_eq_right htime)
      (h.agrees.lastOfChain hop hinv hlast)
  · rw [afterItem, hindexOf]
    exact (h.datetimes op hop).afterTransitionItem hdatetime hindex htime target eventId reason _

/-! ## Creation -/

/-- The items of a new operation are inserted as they are, and conflict with none on record. -/
lemma insertItems_inversion {rows : List OperationItemRow}
    (h : rows.foldlM (Database.insertItem env) db = .ok db') :
    db' = { db with items := db.items ++ rows } ∧
      ∀ row ∈ rows, ∀ other ∈ db.items, row.conflicts other = false := by
  induction rows generalizing db with
  | nil =>
      rw [List.foldlM_nil, pure_eq_ok] at h
      simp [← h]
  | cons row rows ih =>
      simp only [List.foldlM_cons, Database.insertItem, bind_eq_ok, require_eq_ok, pure_eq_ok,
        Bool.not_eq_true', List.any_eq_false, Bool.not_eq_true] at h
      obtain ⟨_, ⟨-, -, -, hfree, rfl⟩, h⟩ := h
      obtain ⟨rfl, hrest⟩ := ih h
      refine ⟨by simp, ?_⟩
      rw [List.forall_mem_cons]
      exact ⟨hfree, fun other hother stored hstored =>
        hrest other hother stored (List.mem_append_left _ hstored)⟩

/-- What `save_mercury_operation` checks before it inserts the rows of an operation. -/
structure NewOperation (store : InMemoryStore) (checked : HostedOperation) : Prop where
  initial : checked.Initial
  updated : checked.updatedAt = checked.createdAt
  event_times : ∀ event ∈ checked.events, event.occurredAt = checked.createdAt
  no_results : ∀ item ∈ checked.items, item.providerResultIdentifier = none
  id_fresh : ∀ existing ∈ store.operations, existing.operationId ≠ checked.operationId
  item_fresh : ∀ item ∈ checked.items, ItemFresh store item.operationItemId

lemma NewOperation.inOrder (h : NewOperation store checked) : checked.InOrder := by
  obtain ⟨event, hevent, -, -⟩ := h.initial.events
  constructor
  · intro owner
    have hsub : (checked.chain owner).Sublist [event] := hevent ▸ List.filter_sublist
    exact (List.pairwise_singleton _ event).sublist hsub
  · intro e he
    exact Int.le_of_eq ((h.event_times e he).trans h.updated.symm)

lemma Agrees.save_inversion (ha : Agrees store db)
    (hok : db.saveMercuryOperation env now (Database.operationRow checked)
      (checked.items.map (Database.itemRow checked))
      (checked.events.map (Database.eventRow checked)) expected = .ok db') :
    db' = db ∨ ∃ confirmed, db' = db.afterCreate confirmed checked ∧ NewOperation store checked := by
  simp only [Database.saveMercuryOperation, bind_eq_ok, require_eq_ok] at hok
  obtain ⟨-, -, hok⟩ := hok
  cases hfind : db.findSourcePreview (Database.operationRow checked) with
  | none => simp [hfind] at hok
  | some source =>
      simp only [hfind, bind_eq_ok, require_eq_ok, Bool.and_eq_true, beq_iff_eq] at hok
      obtain ⟨-, ⟨⟨⟨⟨⟨-, hstatus⟩, hversion⟩, hupdated⟩, -⟩, hone⟩, hok⟩ := hok
      split at hok
      · exact .inl (pure_eq_ok.1 hok).symm
      · simp only [bind_eq_ok, require_eq_ok, Database.updatePreview, Database.insertOperation,
          pure_eq_ok, Bool.not_eq_true', List.any_eq_false, List.all_eq_true] at hok
        obtain ⟨-, -, -, -, -, -, -, -, -, hitems, -, hevents, _, ⟨-, -, rfl⟩, _,
          ⟨-, -, -, hfree, rfl⟩, _, hinserted, hok⟩ := hok
        obtain ⟨rfl, hconflicts⟩ := insertItems_inversion hinserted
        obtain ⟨event, hevent⟩ := List.length_eq_one_iff.1 (by simpa using hone)
        simp only [List.forall_mem_map] at hitems hevents
        have heventMatches := hevents event (by simp [hevent])
        simp only [Database.eventMatches, Database.eventRow, Database.operationRow,
          Bool.and_eq_true, beq_iff_eq, Option.isNone_iff_eq_none] at heventMatches
        obtain ⟨⟨⟨⟨⟨⟨⟨⟨⟨⟨-, hparent⟩, -⟩, -⟩, -⟩, -⟩, hfrom⟩, hto⟩, heventVersion⟩, htime⟩, -⟩ :=
          heventMatches
        simp only [hevent, List.map_cons, List.map_nil, List.foldlM_cons, List.foldlM_nil,
          Database.insertEvent, bind_eq_ok, require_eq_ok, pure_eq_ok] at hok
        obtain ⟨_, ⟨-, -, -, -, rfl⟩, rfl⟩ := hok
        have hitemMatches : ∀ item ∈ checked.items, item.state = .awaitingConfirmation ∧
            item.stateVersion = 1 ∧ item.createdAt = checked.createdAt ∧
            item.providerResultIdentifier = none := by
          intro item hitem
          have hmatches := hitems item hitem
          simp only [Database.itemMatches, Database.itemRow, Database.operationRow,
            Bool.and_eq_true, beq_iff_eq, Option.isNone_iff_eq_none] at hmatches
          obtain ⟨⟨⟨⟨⟨⟨-, hstate⟩, hitemVersion⟩, hresult⟩, hcreated⟩, -⟩, -⟩ := hmatches
          exact ⟨OperationItemState.value_injective
            (show _ = OperationItemState.awaitingConfirmation.value from hstate), hitemVersion,
            hcreated, hresult⟩
        refine .inr ⟨{ source with
          state := .confirmed
          stateVersion := source.stateVersion + 1
          confirmedAt := some checked.createdAt
          payloadPurgeAfter := checked.payloadPurgeAfter
          items := source.items.map ({ · with payloadPurgeAfter := checked.payloadPurgeAfter }) },
          ?_, ?_, hupdated, ?_, ?_, ?_, ?_⟩
        · rw [Database.afterCreate, hevent]
          rfl
        · refine ⟨ParentOperationState.value_injective
            (show _ = ParentOperationState.awaitingConfirmation.value from hstatus), hversion,
            ⟨event, hevent, hparent, ?_⟩, ?_⟩
          · rw [OperationEvent.entry, hfrom, hto, heventVersion]
            rfl
          · intro item hitem
            obtain ⟨hstate, hitemVersion, hcreated, -⟩ := hitemMatches item hitem
            exact ⟨hstate, hitemVersion, hcreated⟩
        · intro e he
          rw [hevent, List.mem_singleton] at he
          rw [he]
          exact htime
        · exact fun item hitem => (hitemMatches item hitem).2.2.2
        · intro existing hexisting heq
          have hrow : Database.operationRow existing ∈ db.operations := by
            rw [ha.operations]
            exact List.mem_map_of_mem hexisting
          exact hfree _ hrow (by simp [OperationRow.conflicts, Database.operationRow, heq])
        · intro item hitem existing hexisting other hother heq
          have hrow : Database.itemRow existing other ∈ db.items := by
            have hmem : Database.itemRow existing other ∈
                db.items.filter (·.operationId == existing.operationId) := by
              rw [ha.items existing hexisting]
              exact List.mem_map_of_mem hother
            exact List.mem_of_mem_filter hmem
          have hfree := hconflicts _ (List.mem_map_of_mem hitem) _ hrow
          simp [OperationItemRow.conflicts, Database.itemRow, heq] at hfree

lemma Recorded.create (h : Recorded env store db) {operation : HostedOperation}
    (hdatetimes : operation.HasDatetimes)
    (hok : db.call env now (.createOperation operation expected) = .ok db') :
    ∃ store', Recorded env store' db' := by
  simp only [Database.call, bind_eq_ok] at hok
  obtain ⟨checked, hvalid, hok⟩ := hok
  obtain rfl | ⟨confirmed, rfl, hnew⟩ := h.agrees.save_inversion hok
  · exact ⟨store, h⟩
  · have hinv := hnew.initial.invariant (validate_ok hvalid).2
    refine ⟨store.afterCreate confirmed checked, h.agrees.create hinv.items_ids
      (fun event hevent => (hinv.events_own event hevent).1) hnew.id_fresh hnew.item_fresh, ?_, ?_,
      ?_, ?_, ?_⟩
    · have hids : ((store.operations ++ [checked]).map (·.operationId)).Nodup := by
        rw [List.map_append, List.nodup_append']
        refine ⟨h.operation_ids, List.nodup_singleton _, ?_⟩
        intro id hold hmem
        obtain ⟨existing, hexisting, rfl⟩ := List.mem_map.1 hold
        exact hnew.id_fresh existing hexisting (List.mem_singleton.1 hmem)
      exact hids
    · intro op hop
      rcases List.mem_append.1 hop with hop | hop
      · exact h.invariant op hop
      · rw [List.mem_singleton.1 hop]
        exact hinv
    · intro op hop
      rcases List.mem_append.1 hop with hop | hop
      · exact h.stable op hop
      · rw [List.mem_singleton.1 hop]
        intro item hitem
        rw [hnew.no_results item hitem]
        rfl
    · intro op hop
      rcases List.mem_append.1 hop with hop | hop
      · exact h.inOrder op hop
      · rw [List.mem_singleton.1 hop]
        exact hnew.inOrder
    · intro op hop
      rcases List.mem_append.1 hop with hop | hop
      · exact h.datetimes op hop
      · rw [List.mem_singleton.1 hop, HasDatetimes, instants_of_validate hvalid]
        exact hdatetimes

/-! ## Every run -/

/-- An accepted call that meets the condition leaves every operation loadable. -/
theorem Recorded.call (h : Recorded env store db) {c : StoreCall} (hloadable : Loadable env db c)
    (hok : db.call env now c = .ok db') : ∃ store', Recorded env store' db' := by
  cases c with
  | createOperation operation expected => exact h.create hloadable hok
  | transitionOperation scope operationId expected target eventId occurredAt reason =>
      exact h.transition hloadable hok
  | transitionOperationItem scope operationId itemId expected target eventId occurredAt reason
      result =>
      exact h.transitionItem hloadable hok

lemma recorded_initial (previews : List DocumentPreview) :
    Recorded env (InMemoryStore.initial previews) (Database.initial previews) :=
  ⟨agrees_initial previews, List.nodup_nil, by simp [InMemoryStore.initial],
    by simp [InMemoryStore.initial], by simp [InMemoryStore.initial],
    by simp [InMemoryStore.initial]⟩

/-- Every call of the run that is accepted meets the condition when it is made. -/
def LoadableRun (env : StoreEnvironment) (previews : List DocumentPreview)
    (calls : List (Instant × StoreCall)) : Prop :=
  Meets (Database.answer env)
    (fun db c => (db.call env c.1 c.2).isOk = true → Loadable env db c.2)
    (Database.initial previews) calls

lemma recorded_run {calls : List (Instant × StoreCall)} (h : ∃ store, Recorded env store db)
    (hcalls : Meets (Database.answer env)
      (fun db c => (db.call env c.1 c.2).isOk = true → Loadable env db c.2) db calls) :
    ∃ store, Recorded env store (trace (Database.answer env) db calls).2 := by
  induction calls generalizing db with
  | nil => exact h
  | cons c calls ih =>
      obtain ⟨hc, hcalls⟩ := hcalls
      refine ih ?_ hcalls
      obtain ⟨store, hrecorded⟩ := h
      cases hanswer : db.call env c.1 c.2 with
      | ok db' =>
          have hnext := hrecorded.call (hc (by simp [hanswer, Except.isOk, Except.toBool])) hanswer
          simpa only [Database.answer, hanswer] using hnext
      | error code =>
          simp only [Database.answer, hanswer]
          exact ⟨store, hrecorded⟩

/-- After a run whose accepted calls meet the condition, every operation that its owner may
read is loaded as it is stored. -/
theorem stored_operations_load {previews : List DocumentPreview}
    {calls : List (Instant × StoreCall)} (hcalls : LoadableRun env previews calls)
    {row : OperationRow}
    (hrow : row ∈ (trace (Database.answer env) (Database.initial previews) calls).2.operations)
    (haccess : env.workspaceAccess row.tenantId row.workspaceId row.authUserId = true) :
    (trace (Database.answer env) (Database.initial previews) calls).2.Loads env row := by
  obtain ⟨store, hrecorded⟩ := recorded_run ⟨_, recorded_initial previews⟩ hcalls
  exact hrecorded.loads hrow haccess

/-! ### The order is needed -/

lemma keys_of_validate {rows : List OperationEventRow} {events : List OperationEvent}
    (h : List.Forall₂ (fun row event =>
      operationEventFromRpc sanitize row = .ok event) rows events) :
    events.map (fun event => (event.occurredAt, event.eventId)) =
      rows.map fun row => (row.occurredAt, row.id) := by
  induction h with
  | nil => rfl
  | cons hhead _ ih =>
      simp only [operationEventFromRpc, bind_eq_ok, parseTimestamp_eq_ok] at hhead
      obtain ⟨_, ⟨-, rfl⟩, hvalid⟩ := hhead
      rw [List.map_cons, List.map_cons, ih, OperationEvent.eq_of_validate hvalid]

lemma events_of_operationFromRpc {record : OperationRecord}
    (h : operationFromRpc sanitize record = .ok op) :
    op.events.map (fun event => (event.occurredAt, event.eventId)) =
      record.events.map fun row => (row.occurredAt, row.id) := by
  simp only [operationFromRpc, bind_eq_ok, mapM_eq_ok] at h
  obtain ⟨items, -, events, hevents, h⟩ := h
  split at h
  · simp at h
  · simp only [bind_eq_ok] at h
    obtain ⟨_, -, _, -, _, -, h⟩ := h
    rw [← keys_of_validate hevents]
    have hsame : op.events = events := congrArg (·.events) (validate_ok h).1
    rw [hsame]

/-- What is loaded has its events in the order of the read. -/
lemma Database.Loads.inOrder (h : db.Loads env row) (owner : Option UUID) :
    (db.events.filter fun event => event.operationId == row.id &&
      event.operationItemId == owner).Pairwise fun event other => event.before other = true := by
  obtain ⟨record, op, hread, hload, -, -, hchains⟩ := h
  have hsorted : record.events.Pairwise fun event other => event.before other = true := by
    simp only [Database.loadMercuryOperation, bind_eq_ok] at hread
    obtain ⟨-, -, hread⟩ := hread
    split at hread
    · simp at hread
    · obtain rfl := pure_eq_ok.1 hread
      exact List.pairwise_mergeSort OperationEventRow.before_trans OperationEventRow.before_total _
  have hevents : op.events.Pairwise fun event other =>
      (Database.eventRow op event).before (Database.eventRow op other) = true := by
    have hkeys := events_of_operationFromRpc hload
    have hpairs : (record.events.map fun row => (row.occurredAt, row.id)).Pairwise fun a b =>
        a.1 < b.1 ∨ a.1 = b.1 ∧ a.2.toNat ≤ b.2.toNat := by
      rw [List.pairwise_map]
      exact hsorted.imp fun hle => OperationEventRow.before_iff.1 hle
    rw [← hkeys, List.pairwise_map] at hpairs
    exact hpairs.imp fun hle => OperationEventRow.before_iff.2 hle
  rw [← hchains owner, List.pairwise_map]
  exact hevents.sublist List.filter_sublist

/-! ### A run on one preview -/

/-- The parent moves to dispatching at the instant 60, when it was confirmed. -/
def dispatchCall (eventId : UUID) : Instant × StoreCall :=
  (60, .transitionOperation callerScope 6 1 "dispatching" eventId 60 "dispatch_started")

lemma reasonAccepted_dispatch :
    ReasonAccepted plainEnvironment.sanitize "dispatch_started" := by
  constructor <;> decide +kernel

/-- The operation `twoItemOperation` after it moved to dispatching. -/
def dispatchedAtOnce (eventId : UUID) : HostedOperation :=
  twoItemOperation.afterTransition .dispatching eventId 60 "dispatch_started"

/-- The two calls are accepted by the tables, which then hold the operation after them. -/
lemma run_dispatch (hne : eventId ≠ 21) :
    ∃ db₁ db₂, (Database.initial [twoDocuments]).call plainEnvironment createCall.1 createCall.2 =
        .ok db₁ ∧ Agrees confirmedStore db₁ ∧
      db₁.call plainEnvironment (dispatchCall eventId).1 (dispatchCall eventId).2 = .ok db₂ ∧
      Agrees (confirmedStore.putOperation (dispatchedAtOnce eventId)) db₂ := by
  obtain ⟨db₁, hdb₁, hs₁, ha₁⟩ := accepted_of_call (sound_initial previewsAdmitted_twoDocuments)
    (agrees_initial _) callAgrees_create call_create
  have hcall : CallAgrees plainEnvironment confirmedStore (dispatchCall eventId).1
      (dispatchCall eventId).2 := by
    refine ⟨rfl, fun _ _ _ _ _ _ => rfl, reasonAgrees_plain, ?_⟩
    intro op hop event hevent
    obtain rfl := List.mem_singleton.1 hop
    obtain rfl := List.mem_singleton.1 hevent
    exact hne.symm
  have hacc : TransitionAccepted plainEnvironment confirmedStore 60 callerScope 6 1 "dispatching" 60
      "dispatch_started" twoItemOperation .dispatching :=
    ⟨List.mem_singleton.2 rfl, rfl, ⟨rfl, rfl, rfl⟩, rfl, rfl, fun _ _ _ _ => rfl, by decide,
      by decide, reasonAccepted_dispatch⟩
  obtain ⟨db₂, hdb₂, ha₂⟩ := ha₁.transition_ok hs₁ hcall hacc
  exact ⟨db₁, db₂, hdb₁, ha₁, hdb₂, ha₂⟩

lemma trace_dispatch {db₁ db₂ : Database}
    (h₁ : (Database.initial [twoDocuments]).call plainEnvironment createCall.1 createCall.2 =
      .ok db₁)
    (h₂ : db₁.call plainEnvironment (dispatchCall eventId).1 (dispatchCall eventId).2 = .ok db₂) :
    trace (Database.answer plainEnvironment) (Database.initial [twoDocuments])
      [createCall, dispatchCall eventId] = ([true, true], db₂) := by
  rw [trace_cons (Database.answer_of_ok h₁), trace_cons (Database.answer_of_ok h₂), trace]

/-- With the identifier 20, the second event of the parent is read before its first, whose
identifier is 21: both calls are accepted, and then the operation is not loaded. -/
theorem earlier_event_last :
    let after := trace (Database.answer plainEnvironment) (Database.initial [twoDocuments])
      [createCall, dispatchCall 20]
    after.1 = [true, true] ∧ ∃ row ∈ after.2.operations,
      plainEnvironment.workspaceAccess row.tenantId row.workspaceId row.authUserId = true ∧
        ¬ after.2.Loads plainEnvironment row := by
  obtain ⟨db₁, db₂, h₁, -, h₂, ha₂⟩ := run_dispatch (show (20 : UUID) ≠ 21 by decide)
  have hop : dispatchedAtOnce 20 ∈ (confirmedStore.putOperation (dispatchedAtOnce 20)).operations :=
    KeyedTable.mem_put_self (List.mem_singleton.2 rfl) rfl
  simp only [trace_dispatch h₁ h₂]
  refine ⟨trivial, Database.operationRow (dispatchedAtOnce 20), ?_, rfl, fun hloads => ?_⟩
  · rw [ha₂.operations]
    exact List.mem_map_of_mem hop
  · have horder := hloads.inOrder none
    have hown := congrArg (List.filter (·.operationItemId == none)) (ha₂.events _ hop)
    rw [List.filter_filter] at hown
    simp only [Bool.and_comm (_ == none)] at hown
    have hrows : (((dispatchedAtOnce 20).events.map (Database.eventRow (dispatchedAtOnce 20))).filter
        (·.operationItemId == none)).Pairwise fun event other => event.before other = true := by
      rw [← hown]
      exact horder
    revert hrows
    decide

/-- With the identifier 22 the run meets the condition, and the operation is loaded. -/
theorem stored_operations_load_dispatched :
    let after := trace (Database.answer plainEnvironment) (Database.initial [twoDocuments])
      [createCall, dispatchCall 22]
    after.1 = [true, true] ∧
      after.2.Loads plainEnvironment (Database.operationRow (dispatchedAtOnce 22)) := by
  obtain ⟨db₁, db₂, h₁, ha₁, h₂, ha₂⟩ := run_dispatch (show (22 : UUID) ≠ 21 by decide)
  have hop : dispatchedAtOnce 22 ∈ (confirmedStore.putOperation (dispatchedAtOnce 22)).operations :=
    KeyedTable.mem_put_self (List.mem_singleton.2 rfl) rfl
  have hloadable : Loadable plainEnvironment db₁ (dispatchCall 22).2 := by
    refine ⟨by decide, reasonAccepted_dispatch, fun event hevent hid _ _ => ?_⟩
    have hmem : event ∈ db₁.events.filter (·.operationId == twoItemOperation.operationId) :=
      List.mem_filter.2 ⟨hevent, beq_iff_eq.2 hid⟩
    rw [ha₁.events twoItemOperation (List.mem_singleton.2 rfl)] at hmem
    obtain rfl := List.mem_singleton.1 hmem
    decide
  have hdatetimes : ∀ t ∈ twoItemOperation.instants, isDatetime t = true := by decide
  have hrun : LoadableRun plainEnvironment [twoDocuments] [createCall, dispatchCall 22] :=
    .cons (Database.answer_of_ok h₁) (fun _ => hdatetimes)
      (.cons (Database.answer_of_ok h₂) (fun _ => hloadable) trivial)
  have hrow : Database.operationRow (dispatchedAtOnce 22) ∈
      (trace (Database.answer plainEnvironment) (Database.initial [twoDocuments])
        [createCall, dispatchCall 22]).2.operations := by
    rw [trace_dispatch h₁ h₂, ha₂.operations]
    exact List.mem_map_of_mem hop
  exact ⟨by rw [trace_dispatch h₁ h₂], stored_operations_load hrun hrow rfl⟩

end Hosted
end MercuryTools
