import MercuryTools.Framework.Lockstep
import MercuryTools.Hosted.StoreInsertion
import MercuryTools.Hosted.StoreTransitions

/-!
# The two operation stores agree

Both stores answer a call that satisfies `CallAgrees` alike, and their states still agree after
it (`AnsweredAlike.call`).  By `Lockstep.lockstep` they accept and reject the same calls of a
whole run and end with the same operations, items and events (`stores_agree`).

The condition on item times cannot be dropped: `item_before_operation_accepted` moves an item
at a time before the last change of its operation.
-/

namespace MercuryTools
namespace Hosted

open Checks HostedOperation Lockstep

variable {env : StoreEnvironment} {store : InMemoryStore} {db : Database}

/-! ## One call -/

/-- Both stores accept the call and agree after it, or both reject it. -/
inductive AnsweredAlike (env : StoreEnvironment) (store : InMemoryStore) (db : Database)
    (now : Instant) (c : StoreCall) : Prop where
  | accepted (op : HostedOperation) (store' : InMemoryStore) (db' : Database)
      (hstore : store.call env now c = (.ok op, store')) (hdb : db.call env now c = .ok db')
      (hsound : store'.Sound env) (hagrees : Agrees store' db')
  | rejected (code code' : String) (hstore : store.call env now c = (.error code, store))
      (hdb : db.call env now c = .error code')

variable {α : Type} {now occurredAt : Instant} {scope : Scope} {operationId eventId itemId : UUID}
  {expected : Int} {targetState reason : String} {result : Option String}
  {operation checked op : HostedOperation} {c : StoreCall} {store' : InMemoryStore}

lemma exists_error {ε : Type} {x : Except ε α} (h : ∀ a, x ≠ .ok a) : ∃ e, x = .error e := by
  cases x with
  | ok a => exact absurd rfl (h a)
  | error e => exact ⟨e, rfl⟩

lemma AnsweredAlike.transition (hs : store.Sound env) (ha : Agrees store db)
    (hcall : CallAgrees env store now
      (.transitionOperation scope operationId expected targetState eventId occurredAt reason)) :
    AnsweredAlike env store db now
      (.transitionOperation scope operationId expected targetState eventId occurredAt reason) := by
  cases hprepare : store.prepareTransition env now scope operationId expected targetState eventId
    occurredAt reason with
  | ok op' =>
      obtain ⟨op, target, hacc, rfl⟩ := hs.prepareTransition_eq_ok.1 hprepare
      obtain ⟨db', hdb, hagrees⟩ := ha.transition_ok hs hcall hacc
      have hinv := (hs.invariant op hacc.mem).afterTransition eventId hacc.guard hacc.time
        hacc.reason
      have hstable := hs.stable op hacc.mem
      refine .accepted (op.afterTransition target eventId occurredAt reason)
        (store.putOperation (op.afterTransition target eventId occurredAt reason)) db' ?_ hdb
        (hs.put hacc.mem ⟨rfl, rfl, rfl⟩ hinv hstable) hagrees
      simp only [InMemoryStore.call, InMemoryStore.transitionOperation, hprepare]
      rw [validate_self hinv.wellFormed hstable]
  | error code =>
      obtain ⟨code', hdb⟩ : ∃ e, db.transitionMercuryOperation env now scope operationId expected
          targetState eventId occurredAt reason = .error e := by
        refine exists_error fun db' hok => ?_
        obtain ⟨op, target, hacc⟩ :=
          ha.transitionAccepted_of_ok hs hcall.2.1 hcall.2.2.1 hok
        rw [hs.prepareTransition_eq_ok.2 ⟨op, target, hacc, rfl⟩] at hprepare
        cases hprepare
      exact .rejected code code'
        (by simp only [InMemoryStore.call, InMemoryStore.transitionOperation, hprepare]) hdb

lemma AnsweredAlike.transitionItem (hs : store.Sound env) (ha : Agrees store db)
    (hcall : CallAgrees env store now (.transitionOperationItem scope operationId itemId expected
      targetState eventId occurredAt reason result)) :
    AnsweredAlike env store db now (.transitionOperationItem scope operationId itemId expected
      targetState eventId occurredAt reason result) := by
  have hresult : ResultAgrees env result := hcall.2.2.1
  cases hprepare : store.prepareTransitionItem env scope operationId itemId expected targetState
    eventId occurredAt reason result with
  | ok op' =>
      obtain ⟨op, item, target, hacc, rfl⟩ := (hs.prepareTransitionItem_eq_ok hresult).1 hprepare
      obtain ⟨db', hdb, hagrees⟩ := ha.itemTransition_ok hs hcall hacc
      obtain ⟨index, hindex, hindexOf, -, hinv, hstable⟩ := hacc.next hs eventId hresult
      refine .accepted (afterItem env op item target eventId occurredAt reason result)
        (store.putOperation (afterItem env op item target eventId occurredAt reason result)) db' ?_
        hdb (hs.put hacc.mem (sameConfirmation_afterItem hindex hindexOf) hinv hstable)
        hagrees
      simp only [InMemoryStore.call, InMemoryStore.transitionOperationItem, hprepare]
      rw [validate_self hinv.wellFormed hstable]
  | error code =>
      obtain ⟨code', hdb⟩ : ∃ e, db.transitionMercuryOperationItem env scope operationId itemId
          expected targetState eventId occurredAt reason result = .error e := by
        refine exists_error fun db' hok => ?_
        obtain ⟨op, item, target, hacc⟩ := ha.itemTransitionAccepted_of_ok hs hcall.2.1 hok
        rw [(hs.prepareTransitionItem_eq_ok hresult).2 ⟨op, item, target, hacc, rfl⟩] at hprepare
        cases hprepare
      exact .rejected code code'
        (by simp only [InMemoryStore.call, InMemoryStore.transitionOperationItem, hprepare]) hdb

/-- Validation keeps what a creation is compared by. -/
lemma map_items_of_validate (h : operation.validate env.sanitize = .ok checked)
    {f : OperationItem → α} (hf : ∀ item, f item.shape = f item) :
    checked.items.map f = operation.items.map f := by
  have hitems := congrArg (fun op => op.items.map f) (validate_ok h).1
  simpa [shape, Function.comp_def, hf] using hitems

lemma call_create_of_prepare {confirmed : DocumentPreview}
    (hprepare : store.prepareCreate env now operation expected = .ok (.inr (confirmed, checked)))
    (hself : checked.validate env.sanitize = .ok checked) :
    store.call env now (.createOperation operation expected) =
      (.ok checked, store.afterCreate confirmed checked) := by
  have hcreate : store.createOperation env now operation expected =
      (.ok checked, store.afterCreate confirmed checked) := by
    unfold InMemoryStore.createOperation
    rw [hprepare, ← hself]
    rfl
  exact hcreate

lemma Database.call_createOperation (db : Database) (now : Instant) (expected : Int)
    (hvalid : operation.validate env.sanitize = .ok checked) :
    db.call env now (.createOperation operation expected) =
      db.saveMercuryOperation env now (Database.operationRow checked)
        (checked.items.map (Database.itemRow checked))
        (checked.events.map (Database.eventRow checked)) expected := by
  simp only [Database.call, hvalid]
  rfl

lemma AnsweredAlike.create_new (hs : store.Sound env) (ha : Agrees store db)
    (hcall : CallAgrees env store now (.createOperation operation expected))
    (hvalid : operation.validate env.sanitize = .ok checked)
    (hnone : ∀ existing ∈ store.operations, existing.previewId ≠ checked.previewId) :
    AnsweredAlike env store db now (.createOperation operation expected) := by
  obtain ⟨hshape, hwf⟩ := validate_ok hvalid
  have hbinding : checked.toConfirmationBinding = operation.toConfirmationBinding :=
    congrArg (·.toConfirmationBinding) hshape
  have hevents : checked.events = operation.events := congrArg (·.events) hshape
  obtain ⟨haccess, hauthority, hreasons, hprepared, -, hfresh⟩ := hcall
  rw [← hbinding] at haccess hauthority hprepared hfresh
  rw [← hevents] at hreasons hfresh
  obtain ⟨heventFresh, hitemFresh⟩ := hfresh hnone
  have hitemFresh' : ∀ item ∈ checked.items, ItemFresh store item.operationItemId := by
    intro item hitem
    have hmem : item.operationItemId ∈ operation.items.map (·.operationItemId) := by
      rw [← map_items_of_validate hvalid fun _ => rfl]
      exact List.mem_map_of_mem hitem
    obtain ⟨original, horiginal, heq⟩ := List.mem_map.1 hmem
    rw [← heq]
    exact hitemFresh original horiginal
  have hsave := db.call_createOperation now expected hvalid
  cases hprepare : store.prepareCreate env now operation expected with
  | ok r =>
      obtain ⟨preview, hacc, rfl⟩ := (hs.prepareCreate_new hvalid hnone).1 hprepare
      have hinv := hacc.confirms.initial.invariant hwf
      exact .accepted checked _ _
        (call_create_of_prepare hprepare (validate_self hwf hacc.confirms.stable))
        (hsave.trans (ha.create_ok hs hwf hacc haccess hauthority hreasons heventFresh hitemFresh'))
        (hs.create hwf hacc)
        (ha.create hinv.items_ids hwf.events_own hacc.id_fresh hitemFresh')
  | error code =>
      obtain ⟨code', hdb⟩ : ∃ e, db.call env now (.createOperation operation expected) =
          .error e := by
        refine exists_error fun db' hok => ?_
        rw [hsave] at hok
        obtain ⟨preview, hacc⟩ :=
          ha.createAccepted_of_ok hs hwf hnone hauthority hprepared hok
        rw [(hs.prepareCreate_new hvalid hnone).2 ⟨preview, hacc, rfl⟩] at hprepare
        cases hprepare
      exact .rejected code code'
        (InMemoryStore.createOperation_error env hprepare) hdb

lemma AnsweredAlike.create_existing (hs : store.Sound env) (ha : Agrees store db)
    {existing : HostedOperation}
    (hcall : CallAgrees env store now (.createOperation operation expected))
    (hvalid : operation.validate env.sanitize = .ok checked) (hmem : existing ∈ store.operations)
    (hid : existing.previewId = checked.previewId) :
    AnsweredAlike env store db now (.createOperation operation expected) := by
  obtain ⟨hshape, hwf⟩ := validate_ok hvalid
  have hbinding : checked.toConfirmationBinding = operation.toConfirmationBinding :=
    congrArg (·.toConfirmationBinding) hshape
  have hevents : checked.events = operation.events := congrArg (·.events) hshape
  obtain ⟨haccess, -, -, -, hexisting, -⟩ := hcall
  rw [← hbinding] at haccess hexisting
  obtain ⟨hstate, hversion, hupdated, hone, hitems⟩ := hexisting existing hmem hid
  rw [← hevents] at hone
  rw [← map_items_of_validate hvalid fun _ => rfl] at hitems
  have hsave := db.call_createOperation now expected hvalid
  have hiff : ∀ db', db.call env now (.createOperation operation expected) = .ok db' ↔
      existing.toConfirmationBinding = checked.toConfirmationBinding ∧ db' = db := by
    intro db'
    rw [hsave]
    exact ha.save_existing hs hmem hid haccess ((congrArg (·.state) hshape).trans hstate)
      ((congrArg (·.stateVersion) hshape).trans hversion)
      (((congrArg (·.updatedAt) hshape).trans hupdated).trans (congrArg (·.createdAt) hshape).symm)
      hone hitems
  have hidentity : sameConfirmationIdentity existing checked = true ↔
      existing.toConfirmationBinding = checked.toConfirmationBinding := by
    simp [sameConfirmationIdentity, hitems]
  cases hprepare : store.prepareCreate env now operation expected with
  | ok r =>
      obtain ⟨hsame, rfl⟩ := (hs.prepareCreate_existing hvalid hmem hid).1 hprepare
      refine .accepted existing store db ?_ ((hiff db).2 ⟨hidentity.1 hsame, rfl⟩) hs ha
      simp only [InMemoryStore.call, InMemoryStore.createOperation_existing env hprepare,
        validate_self (hs.invariant existing hmem).wellFormed (hs.stable existing hmem)]
  | error code =>
      obtain ⟨code', hdb⟩ : ∃ e, db.call env now (.createOperation operation expected) =
          .error e := by
        refine exists_error fun db' hok => ?_
        have hsame := hidentity.2 ((hiff db').1 hok).1
        rw [(hs.prepareCreate_existing hvalid hmem hid).2 ⟨hsame, rfl⟩] at hprepare
        cases hprepare
      exact .rejected code code'
        (InMemoryStore.createOperation_error env hprepare) hdb

/-- Every call that satisfies the condition is answered alike. -/
theorem AnsweredAlike.call (hs : store.Sound env) (ha : Agrees store db)
    (hcall : CallAgrees env store now c) : AnsweredAlike env store db now c := by
  cases c with
  | createOperation operation expected =>
      cases hvalid : operation.validate env.sanitize with
      | error code =>
          refine .rejected code code ?_ ?_
          · refine InMemoryStore.createOperation_error env ?_
            simp only [InMemoryStore.prepareCreate, hvalid]
            rfl
          · simp only [Database.call, hvalid]
            rfl
      | ok checked =>
          by_cases hexisting : ∃ existing ∈ store.operations,
              existing.previewId = checked.previewId
          · obtain ⟨existing, hmem, hid⟩ := hexisting
            exact create_existing hs ha hcall hvalid hmem hid
          · exact create_new hs ha hcall hvalid fun existing hmem hid =>
              hexisting ⟨existing, hmem, hid⟩
  | transitionOperation scope operationId expected target eventId occurredAt reason =>
      exact transition hs ha hcall
  | transitionOperationItem scope operationId itemId expected target eventId occurredAt reason
      result =>
      exact transitionItem hs ha hcall

/-! ## Whole runs -/

def InMemoryStore.initial (previews : List DocumentPreview) : InMemoryStore where
  previews := previews
  operations := []
  operationByPreview := []

def Database.initial (previews : List DocumentPreview) : Database where
  previews := previews
  operations := []
  items := []
  events := []

lemma sound_initial {previews : List DocumentPreview} (h : PreviewsAdmitted env previews) :
    (InMemoryStore.initial previews).Sound env where
  previews := h
  operation_ids := List.nodup_nil
  operation_previews := List.nodup_nil
  by_preview := rfl
  invariant := by simp [InMemoryStore.initial]
  stable := by simp [InMemoryStore.initial]
  bound := by simp [InMemoryStore.initial]

lemma agrees_initial (previews : List DocumentPreview) :
    Agrees (InMemoryStore.initial previews) (Database.initial previews) where
  previews := rfl
  operations := rfl
  item_ids := List.nodup_nil
  items := by simp [InMemoryStore.initial]
  items_owned := by simp [Database.initial]
  events := by simp [InMemoryStore.initial]
  events_owned := by simp [Database.initial]

/-- From the same previews, both stores answer the calls of a run alike and end with the same
operations, items and events, where each call satisfies `CallAgrees` when it is made. -/
theorem stores_agree {previews : List DocumentPreview} (h : PreviewsAdmitted env previews)
    {calls : List (Instant × StoreCall)}
    (hcalls : Meets (InMemoryStore.answer env) (fun store c => CallAgrees env store c.1 c.2)
      (InMemoryStore.initial previews) calls) :
    let left := trace (InMemoryStore.answer env) (InMemoryStore.initial previews) calls
    let right := trace (Database.answer env) (Database.initial previews) calls
    left.1 = right.1 ∧ Agrees left.2 right.2 := by
  have hstep : ∀ store db (c : Instant × StoreCall),
      (store.Sound env ∧ Agrees store db) → CallAgrees env store c.1 c.2 →
      (store.answer env c).1 = (db.answer env c).1 ∧
        (store.answer env c).2.Sound env ∧ Agrees (store.answer env c).2 (db.answer env c).2 := by
    rintro store db ⟨now, c⟩ ⟨hs, ha⟩ hcall
    obtain ⟨op, store', db', hstore, hdb, hsound, hagrees⟩ | ⟨code, code', hstore, hdb⟩ :=
      AnsweredAlike.call hs ha hcall
    · simp only [InMemoryStore.answer, Database.answer, hstore, hdb]
      exact ⟨rfl, hsound, hagrees⟩
    · simp only [InMemoryStore.answer, Database.answer, hstore, hdb]
      exact ⟨rfl, hs, ha⟩
  obtain ⟨hanswers, -, hagrees⟩ := lockstep (R := fun store db => store.Sound env ∧ Agrees store db)
    hstep ⟨sound_initial h, agrees_initial previews⟩ hcalls
  exact ⟨hanswers, hagrees⟩

/-! ### A run on one preview -/

/-- Texts are their own projections, every caller is a member and every authority current. -/
def plainEnvironment : StoreEnvironment where
  sanitize := some
  publicText := id
  isCntrl := fun c => c.val < 32
  workspaceAccess := fun _ _ _ => true
  authorityIsCurrent := fun _ _ => true
  revalidateAuthority := fun _ _ => true

def callerScope : Scope := ⟨2, 3, 4⟩

/-- The confirmation of `twoDocuments`, and the expiry of one of its items. -/
def createCall : Instant × StoreCall := (60, .createOperation twoItemOperation 1)

def expireCall (itemId eventId : UUID) (occurredAt : Instant) : Instant × StoreCall :=
  (occurredAt, .transitionOperationItem callerScope 6 itemId 1 "expired" eventId occurredAt
    "item_expired" none)

lemma previewsAdmitted_twoDocuments : PreviewsAdmitted plainEnvironment [twoDocuments] := by
  refine ⟨List.nodup_singleton _, List.nodup_singleton _, ?_, ?_⟩
  · simpa using DocumentPreview.validate_eq_ok.2 ⟨rfl, wellFormed_twoDocuments⟩
  · decide +kernel

/-- The operation `twoItemOperation` after the first item expired at the instant 120. -/
def firstExpired : HostedOperation :=
  afterItem plainEnvironment twoItemOperation firstItem .expired 22 120 "item_expired" none

/-- The in-memory store after `twoDocuments` was confirmed. -/
def confirmedStore : InMemoryStore :=
  (InMemoryStore.initial [twoDocuments]).afterCreate
    (confirmedPreview twoDocuments 60 (60 + confirmedPayloadRetention)) twoItemOperation

lemma reasonAgrees_plain (h : hasRedactionMarker reason = false := by decide +kernel) :
    ReasonAgrees plainEnvironment reason := by
  simp [ReasonAgrees, ReasonAccepted, requireSafePublicIdentifier, sanitizePublicText,
    publicIdentifierIsSafe, plainEnvironment, h, bind, Except.bind, require, pure, Except.pure]

lemma callAgrees_create : CallAgrees plainEnvironment (InMemoryStore.initial [twoDocuments])
    createCall.1 createCall.2 := by
  refine ⟨rfl, fun _ _ _ => rfl, ?_, ?_, ?_, fun _ => ⟨?_, ?_⟩⟩
  · intro event hevent
    obtain rfl := List.mem_singleton.1 hevent
    exact reasonAgrees_plain
  · intro p hp _
    rw [List.mem_singleton.1 hp]
    decide
  · simp [InMemoryStore.initial]
  · simp [InMemoryStore.initial, EventFresh]
  · simp [InMemoryStore.initial, ItemFresh]

lemma createAccepted_twoDocuments : CreateAccepted plainEnvironment
    (InMemoryStore.initial [twoDocuments]) 60 twoItemOperation 1 twoDocuments where
  mem := List.mem_singleton.2 rfl
  no_operation := by simp [InMemoryStore.initial]
  authority := rfl
  confirms := by
    refine ⟨rfl, rfl, rfl, rfl, ⟨_, rfl, rfl, rfl, rfl, rfl, rfl⟩, .cons ?_ (.cons ?_ .nil)⟩
    · exact ⟨rfl, rfl, rfl, rfl, rfl, rfl, rfl, rfl, rfl, rfl⟩
    · exact ⟨rfl, rfl, rfl, rfl, rfl, rfl, rfl, rfl, rfl, rfl⟩
  id_fresh := by simp [InMemoryStore.initial]
  version := rfl
  now_lt := by decide
  confirmable := ⟨rfl, by decide, by decide, by decide, by decide⟩

lemma call_create : (InMemoryStore.initial [twoDocuments]).call plainEnvironment createCall.1
    createCall.2 = (.ok twoItemOperation, confirmedStore) := by
  have hvalid : twoItemOperation.validate plainEnvironment.sanitize = .ok twoItemOperation :=
    validate_self wellFormed_twoItemOperation textsStable_twoItemOperation
  have hprepare := ((sound_initial previewsAdmitted_twoDocuments).prepareCreate_new hvalid
    createAccepted_twoDocuments.no_operation).2 ⟨twoDocuments, createAccepted_twoDocuments, rfl⟩
  exact call_create_of_prepare hprepare hvalid

/-- A call the in-memory store accepts under the condition is accepted by the database, and
both states stay related. -/
lemma accepted_of_call (hs : store.Sound env) (ha : Agrees store db)
    (hcall : CallAgrees env store now c) (hstore : store.call env now c = (.ok op, store')) :
    ∃ db', db.call env now c = .ok db' ∧ store'.Sound env ∧ Agrees store' db' := by
  cases AnsweredAlike.call hs ha hcall with
  | accepted op' store'' db' hstore' hdb hsound hagrees =>
      obtain ⟨-, rfl⟩ := Prod.mk.inj (hstore.symm.trans hstore')
      exact ⟨db', hdb, hsound, hagrees⟩
  | rejected code code' hstore' hdb =>
      cases hstore.symm.trans hstore'

/-- The database accepts no item transition at a time before the last change of the
operation. -/
lemma Agrees.itemTransition_not_before (ha : Agrees store db) (h : store.Sound env)
    (hbefore : ∀ op ∈ store.operations, op.operationId = operationId → occurredAt < op.updatedAt) :
    ∃ code, db.transitionMercuryOperationItem env scope operationId itemId expected targetState
      eventId occurredAt reason result = .error code := by
  refine exists_error fun db' hok => ?_
  simp only [Database.transitionMercuryOperationItem, bind_eq_ok, require_eq_ok] at hok
  obtain ⟨-, -, hok⟩ := hok
  cases hfind : db.findOperation scope operationId with
  | none => simp [hfind] at hok
  | some row =>
      obtain ⟨op, hop, hid, -, rfl⟩ := (ha.findOperation_eq_some h.operation_ids).1 hfind
      simp only [hfind] at hok
      split at hok
      · simp at hok
      · simp only [bind_eq_ok, require_eq_ok, Bool.and_eq_true] at hok
        obtain ⟨-, -, -, ⟨⟨⟨⟨-, hle⟩, -⟩, -⟩, -⟩, -⟩ := hok
        exact absurd (of_decide_eq_true hle) (Int.not_le.2 (hbefore op hop hid))

lemma call_expire (hs : store.Sound plainEnvironment) (eventId : UUID) {item : OperationItem}
    (hacc : ItemTransitionAccepted plainEnvironment store callerScope 6 itemId 1 "expired"
      occurredAt "item_expired" none op item .expired) :
    let op' := afterItem plainEnvironment op item .expired eventId occurredAt "item_expired" none
    store.call plainEnvironment (expireCall itemId eventId occurredAt).1
      (expireCall itemId eventId occurredAt).2 = (.ok op', store.putOperation op') := by
  intro op'
  have hresult : ResultAgrees plainEnvironment none := trivial
  have hprepare : store.prepareTransitionItem plainEnvironment callerScope 6 itemId 1 "expired"
      eventId occurredAt "item_expired" none = .ok op' :=
    (hs.prepareTransitionItem_eq_ok hresult).2 ⟨op, item, .expired, hacc, rfl⟩
  obtain ⟨-, -, -, -, hinv, hstable⟩ := hacc.next hs eventId hresult
  simp only [expireCall, InMemoryStore.call, InMemoryStore.transitionOperationItem, hprepare]
  rw [validate_self hinv.wellFormed hstable]

lemma callAgrees_expire (hfresh : EventFresh store eventId)
    (htime : ∀ op ∈ store.operations, op.operationId = 6 → ∀ item ∈ op.items,
      item.operationItemId = itemId → item.updatedAt ≤ occurredAt → op.updatedAt ≤ occurredAt) :
    CallAgrees plainEnvironment store (expireCall itemId eventId occurredAt).1
      (expireCall itemId eventId occurredAt).2 :=
  ⟨rfl, reasonAgrees_plain, trivial, hfresh, htime⟩

lemma reasonAccepted_plain : ReasonAccepted plainEnvironment.sanitize "item_expired" := by
  constructor <;> decide +kernel

lemma expireAccepted_first : ItemTransitionAccepted plainEnvironment confirmedStore callerScope 6 11
    1 "expired" 120 "item_expired" none twoItemOperation firstItem .expired :=
  ⟨List.mem_singleton.2 rfl, rfl, ⟨rfl, rfl, rfl⟩, by simp [twoItemOperation], rfl, rfl, rfl,
    by decide, by decide, reasonAccepted_plain, by decide, by simp⟩

lemma operations_confirmed : confirmedStore.operations = [twoItemOperation] := rfl

lemma operations_expired :
    (confirmedStore.putOperation firstExpired).operations = [firstExpired] := by
  have hid : twoItemOperation.operationId = firstExpired.operationId := rfl
  rw [InMemoryStore.putOperation, operations_confirmed, KeyedTable.put, List.map_singleton,
    if_pos hid]

lemma expireAccepted_second (h : 60 ≤ occurredAt) :
    ItemTransitionAccepted plainEnvironment (confirmedStore.putOperation firstExpired) callerScope 6
      12 1 "expired" occurredAt "item_expired" none firstExpired secondItem .expired :=
  ⟨by simp [operations_expired], rfl, ⟨rfl, rfl, rfl⟩, by decide, rfl, rfl, rfl,
    by decide, h, reasonAccepted_plain, by decide, by simp⟩

lemma callAgrees_first : CallAgrees plainEnvironment confirmedStore (expireCall 11 22 120).1
    (expireCall 11 22 120).2 := by
  refine callAgrees_expire ?_ ?_
  · intro op hop event hevent
    obtain rfl := List.mem_singleton.1 hop
    obtain rfl := List.mem_singleton.1 hevent
    decide
  · intro op hop _ item _ _ _
    obtain rfl := List.mem_singleton.1 hop
    decide

lemma call_first (hs : confirmedStore.Sound plainEnvironment) :
    confirmedStore.call plainEnvironment (expireCall 11 22 120).1 (expireCall 11 22 120).2 =
      (.ok firstExpired, confirmedStore.putOperation firstExpired) :=
  call_expire hs 22 expireAccepted_first

lemma answer_of_ok (h : store.call env now c = (.ok op, store')) :
    store.answer env (now, c) = (true, store') := by
  simp only [InMemoryStore.answer, h]
  rfl

lemma Database.answer_of_ok {db' : Database} (h : db.call env now c = .ok db') :
    db.answer env (now, c) = (true, db') := by
  simp only [Database.answer, h]

lemma Database.answer_of_error {code : String} (h : db.call env now c = .error code) :
    db.answer env (now, c) = (false, db) := by
  simp only [Database.answer, h]

/-- The second item expires at a time between its own last change and that of the operation:
only the in-memory store accepts it. -/
theorem item_before_operation_accepted :
    PreviewsAdmitted plainEnvironment [twoDocuments] ∧
      (trace (InMemoryStore.answer plainEnvironment) (InMemoryStore.initial [twoDocuments])
        [createCall, expireCall 11 22 120, expireCall 12 23 100]).1 = [true, true, true] ∧
      (trace (Database.answer plainEnvironment) (Database.initial [twoDocuments])
        [createCall, expireCall 11 22 120, expireCall 12 23 100]).1 = [true, true, false] := by
  obtain ⟨db₁, hdb₁, hs₁, ha₁⟩ := accepted_of_call (sound_initial previewsAdmitted_twoDocuments)
    (agrees_initial _) callAgrees_create call_create
  obtain ⟨db₂, hdb₂, hs₂, ha₂⟩ := accepted_of_call hs₁ ha₁ callAgrees_first (call_first hs₁)
  have hthird := call_expire hs₂ 23 (expireAccepted_second (show (60 : Instant) ≤ 100 by decide))
  obtain ⟨code, hdb₃⟩ : ∃ code, db₂.call plainEnvironment (expireCall 12 23 100).1
      (expireCall 12 23 100).2 = .error code := by
    refine ha₂.itemTransition_not_before hs₂ fun op hop _ => ?_
    rw [operations_expired, List.mem_singleton] at hop
    subst hop
    decide
  refine ⟨previewsAdmitted_twoDocuments, ?_, ?_⟩
  · rw [trace_cons (answer_of_ok call_create), trace_cons (answer_of_ok (call_first hs₁)),
      trace_cons (answer_of_ok hthird), trace]
  · rw [trace_cons (Database.answer_of_ok hdb₁), trace_cons (Database.answer_of_ok hdb₂),
      trace_cons (Database.answer_of_error hdb₃), trace]

theorem stores_agree_twoDocuments :
    let calls := [createCall, expireCall 11 22 120, expireCall 12 23 180]
    let left := trace (InMemoryStore.answer plainEnvironment)
      (InMemoryStore.initial [twoDocuments]) calls
    let right := trace (Database.answer plainEnvironment) (Database.initial [twoDocuments]) calls
    left.1 = right.1 ∧ Agrees left.2 right.2 := by
  obtain ⟨db₁, -, hs₁, ha₁⟩ := accepted_of_call (sound_initial previewsAdmitted_twoDocuments)
    (agrees_initial _) callAgrees_create call_create
  have hthird : CallAgrees plainEnvironment (confirmedStore.putOperation firstExpired)
      (expireCall 12 23 180).1 (expireCall 12 23 180).2 := by
    refine callAgrees_expire ?_ ?_
    · intro op hop event hevent
      rw [operations_expired, List.mem_singleton] at hop
      subst hop
      revert event
      decide
    · intro op hop _ item _ _ _
      rw [operations_expired, List.mem_singleton] at hop
      subst hop
      decide
  exact stores_agree previewsAdmitted_twoDocuments
    (.cons (answer_of_ok call_create) callAgrees_create
      (.cons (answer_of_ok (call_first hs₁)) callAgrees_first ⟨hthird, trivial⟩))

end Hosted
end MercuryTools
