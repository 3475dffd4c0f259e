import MercuryTools.Hosted.StoreCreation

/-!
# The insertion of an operation in the tables

`save_mercury_operation` and its agreement with the in-memory store.  For a new operation, what
the function accepts is `CreateAccepted` (`Agrees.createAccepted_of_ok`), and then none of its
rows violates a constraint (`Agrees.create_ok`).  For a preview that has its operation already,
the function only compares the binding (`Agrees.save_existing`).
-/

namespace MercuryTools
namespace Hosted

open Checks HostedOperation VersionedLog

variable {env : StoreEnvironment}

/-! ## What the function compares -/

variable {store : InMemoryStore} {db db' : Database} {op checked existing : HostedOperation}
  {preview : DocumentPreview} {event : OperationEvent} {now : Instant} {expected : Int}
  {α β κ : Type}

lemma Agrees.findSourcePreview_eq_some (ha : Agrees store db) (h : store.Sound env)
    {candidate : OperationRow} {source : DocumentPreview} :
    db.findSourcePreview candidate = some source ↔
      source ∈ store.previews ∧ source.previewId = candidate.previewId ∧
        source.tenantId = candidate.tenantId ∧ source.authUserId = candidate.authUserId ∧
        source.workspaceId = candidate.workspaceId ∧
        source.connectionId = candidate.connectionId := by
  rw [Database.findSourcePreview, ha.previews,
    KeyedTable.find?_eq_some h.previews.ids (k := candidate.previewId)]
  · simp only [Bool.and_eq_true, beq_iff_eq, and_assoc]
  · intro stored hstored
    simp only [Bool.and_eq_true, beq_iff_eq] at hstored
    exact hstored.1.1.1.1

/-- The operation and the preview carry one binding, as the function compares it. -/
lemma binding_eq_iff {left right : ConfirmationBinding} :
    left = right ↔
      (left.previewId = right.previewId ∧ left.tenantId = right.tenantId ∧
        left.authUserId = right.authUserId ∧ left.workspaceId = right.workspaceId ∧
        left.connectionId = right.connectionId) ∧
      left.providerCallHash = right.providerCallHash ∧
        left.previewIntegrityHash = right.previewIntegrityHash ∧
        left.provider = right.provider ∧ left.environment = right.environment ∧
        left.capabilityId = right.capabilityId ∧
        left.capabilityVersion = right.capabilityVersion ∧
        left.connectionRevision = right.connectionRevision := by
  cases left
  cases right
  simp only [ConfirmationBinding.mk.injEq]
  tauto

lemma HostedOperation.WellFormed.index (h : op.WellFormed env.sanitize) :
    op.items.map (·.itemIndex) = List.range op.items.length := by
  have hwhole := h.whole
  simp only [validateOperation, bind_eq_ok, require_eq_ok, Bool.and_eq_true, beq_iff_eq] at hwhole
  obtain ⟨-, -, -, -, -, -, -, ⟨-, hindex⟩, -⟩ := hwhole
  exact hindex

/-- The items the function accepts are those of the preview, in its order. -/
lemma itemConfirms_of_itemMatches (hindex : op.items.map (·.itemIndex) = List.range op.items.length)
    (hpreview : preview.items.map (·.itemIndex) = List.range preview.items.length)
    (hlength : op.items.length = preview.items.length)
    (h : ∀ item ∈ op.items, Database.itemMatches (Database.operationRow op) preview
      (Database.itemRow op item) = true) :
    List.Forall₂ (ItemConfirms op.createdAt) op.items preview.items := by
  refine forall₂_of_index hlength hindex hpreview fun item hitem => ?_
  have hmatches := h item hitem
  simp only [Database.itemMatches, Database.itemRow, Database.operationRow, Bool.and_eq_true,
    beq_iff_eq, List.any_eq_true, Option.isNone_iff_eq_none] at hmatches
  obtain ⟨⟨⟨⟨⟨-, hstate⟩, hversion⟩, hresult⟩, hcreated⟩, hupdated⟩ := hmatches.1
  obtain ⟨previewItem, hmem, ⟨⟨⟨hid, hitemIndex⟩, hclient⟩, hcall⟩, hintegrity⟩ := hmatches.2
  exact ⟨previewItem, hmem, hitemIndex, hid.symm, hitemIndex.symm, hclient.symm, hcall.symm,
    hintegrity.symm, OperationItemState.value_injective
      (show _ = OperationItemState.awaitingConfirmation.value from hstate),
    hversion, hresult, hcreated, hupdated⟩

lemma itemMatches_of_confirms
    (hitems : List.Forall₂ (ItemConfirms op.createdAt) op.items preview.items) :
    ∀ item ∈ op.items, Database.itemMatches (Database.operationRow op) preview
      (Database.itemRow op item) = true := by
  intro item hitem
  obtain ⟨i, hi, rfl⟩ := List.mem_iff_getElem.1 hitem
  have hj : i < preview.items.length := by rwa [← hitems.length_eq]
  obtain ⟨h1, h2, h3, h4, h5, h6, h7, h8, h9, h10⟩ := hitems.get hi hj
  simp only [List.get_eq_getElem] at h1 h2 h3 h4 h5 h6 h7 h8 h9 h10
  simp only [Database.itemMatches, Database.itemRow, Database.operationRow, beq_self_eq_true,
    Bool.true_and, Bool.and_eq_true, List.any_eq_true, h6, h7, h8, h9, h10]
  refine ⟨?_, preview.items[i], List.getElem_mem hj, by simp [h1, h2, h3, h4, h5]⟩
  simp [OperationItemState.value]

lemma eventMatches_iff (hown : event.operationId = op.operationId) :
    Database.eventMatches env (Database.operationRow op) (Database.eventRow op event) = true ↔
      EventConfirms op.createdAt event ∧ publicIdentifierIsSafe env event.sanitizedReason = true := by
  simp only [Database.eventMatches, Database.eventRow, Database.operationRow, hown,
    beq_self_eq_true, Bool.true_and, Bool.and_eq_true, beq_iff_eq, Option.isNone_iff_eq_none,
    and_true]
  constructor
  · rintro ⟨⟨⟨⟨⟨h1, h2⟩, h3⟩, h4⟩, h5⟩, hsafe⟩
    exact ⟨⟨h1, h2, h3, h4, h5⟩, hsafe⟩
  · rintro ⟨⟨h1, h2, h3, h4, h5⟩, hsafe⟩
    exact ⟨⟨⟨⟨⟨h1, h2⟩, h3⟩, h4⟩, h5⟩, hsafe⟩

lemma HostedOperation.WellFormed.events_own (h : op.WellFormed env.sanitize) :
    ∀ event ∈ op.events, event.operationId = op.operationId := by
  have hwhole := h.whole
  simp only [validateOperation, bind_eq_ok, require_eq_ok, Bool.and_eq_true, beq_iff_eq,
    List.all_eq_true] at hwhole
  obtain ⟨-, -, -, -, -, -, -, -, -, hown, -⟩ := hwhole
  exact fun event hevent => (hown event hevent).1

lemma Agrees.createAccepted_of_ok (ha : Agrees store db) (h : store.Sound env)
    (hwf : checked.WellFormed env.sanitize)
    (hnone : ∀ existing ∈ store.operations, existing.previewId ≠ checked.previewId)
    (hauthority : AuthorityAgrees env store now checked.previewId)
    (hprepared : ∀ p ∈ store.previews, p.previewId = checked.previewId → p.state ≠ .prepared)
    (hok : db.saveMercuryOperation env now (Database.operationRow checked)
      (checked.items.map (Database.itemRow checked))
      (checked.events.map (Database.eventRow checked)) expected = .ok db') :
    ∃ preview, CreateAccepted env store now checked expected preview := by
  simp only [Database.saveMercuryOperation, bind_eq_ok, require_eq_ok] at hok
  obtain ⟨-, -, hok⟩ := hok
  cases hfind : db.findSourcePreview (Database.operationRow checked) with
  | none => simp [hfind] at hok
  | some preview =>
      obtain ⟨hmem, hid, hids⟩ := (ha.findSourcePreview_eq_some h).1 hfind
      have hvalid := (DocumentPreview.validate_eq_ok.1 (h.previews.valid preview hmem)).2
      have hnew : (db.operations.any fun stored =>
          stored.previewId == preview.previewId && stored.tenantId == preview.tenantId &&
            stored.authUserId == preview.authUserId &&
            stored.workspaceId == preview.workspaceId) = false := by
        rw [ha.operations, List.any_map, List.any_eq_false]
        intro existing hexisting hsame
        simp only [Function.comp_apply, Database.operationRow, Bool.and_eq_true,
          beq_iff_eq] at hsame
        exact hnone existing hexisting (hsame.1.1.1.trans hid)
      simp only [hfind, hnew, Bool.false_eq_true, if_false, bind_eq_ok, require_eq_ok,
        Bool.and_eq_true, beq_iff_eq, List.length_map, List.all_map] at hok
      obtain ⟨-, ⟨⟨⟨⟨⟨hbinding, hstate⟩, hversion⟩, hupdated⟩, hlength⟩, hone⟩, -, hcurrent, -,
        hexpected, -, hpending, -, htimes, -, hitems, -, hevents, confirmed, hconfirmed, _, hinsert,
        -⟩ := hok
      obtain ⟨⟨⟨⟨⟨⟨hcall, hintegrity⟩, hprovider⟩, henvironment⟩, hcapability⟩, hcapabilityVersion⟩,
        hrevision⟩ := hbinding
      obtain ⟨⟨⟨⟨hnow, hcreated⟩, hexpires⟩, hpurge⟩, hretention⟩ := htimes
      have hconfirms : Confirms checked preview := by
        refine ⟨?_, ParentOperationState.value_injective
          (show _ = ParentOperationState.awaitingConfirmation.value from hstate),
          hversion, hupdated, ?_, ?_⟩
        · exact (binding_eq_iff.2 ⟨⟨hid, hids⟩, hcall, hintegrity, hprovider, henvironment,
            hcapability, hcapabilityVersion, hrevision⟩).symm
        · obtain ⟨event, hevent⟩ := List.length_eq_one_iff.1 hone
          have hmatches : Database.eventMatches env (Database.operationRow checked)
              (Database.eventRow checked event) = true := by
            simpa [hevent] using hevents
          have hown := hwf.events_own event (by simp [hevent])
          exact ⟨event, hevent, ((eventMatches_iff hown).1 hmatches).1⟩
        · exact itemConfirms_of_itemMatches hwf.index hvalid.index hlength
            (List.all_eq_true.1 hitems)
      have hawaiting : preview.state = .awaitingConfirmation := by
        have hne := hprepared preview hmem hid
        revert hpending hne
        cases preview.state <;> decide
      have hfresh : ∀ existing ∈ store.operations, existing.operationId ≠ checked.operationId := by
        intro existing hexisting hsame
        simp only [Database.updatePreview, bind_eq_ok, pure_eq_ok] at hconfirmed
        obtain ⟨-, -, rfl⟩ := hconfirmed
        simp only [Database.insertOperation, bind_eq_ok, require_eq_ok] at hinsert
        obtain ⟨-, -, -, hfree, -⟩ := hinsert
        rw [Bool.not_eq_true', List.any_eq_false] at hfree
        refine hfree (Database.operationRow existing) ?_ ?_
        · simp only [Database.putPreview, ha.operations]
          exact List.mem_map_of_mem hexisting
        · simp [OperationRow.conflicts, Database.operationRow, hsame]
      exact ⟨preview, hmem, hnone, by rw [hauthority preview hmem hid]; exact hcurrent, hconfirms,
        hfresh, hexpected, of_decide_eq_true hnow, hawaiting, of_decide_eq_true hcreated,
        of_decide_eq_true hexpires, of_decide_eq_true hpurge, of_decide_eq_true hretention⟩

/-! ### The rows of a new operation -/

lemma map_eq_of_forall₂ {γ : Type} {r : α → β → Prop} {f : α → γ} {g : β → γ} {xs : List α}
    {ys : List β} (h : List.Forall₂ r xs ys) (hr : ∀ x y, r x y → f x = g y) :
    xs.map f = ys.map g := by
  induction h with
  | nil => rfl
  | cons hhead _ ih => simp [hr _ _ hhead, ih]

lemma Confirms.initial (h : Confirms op preview) : op.Initial := by
  obtain ⟨event, hevents, hevent⟩ := h.events
  refine ⟨h.state, h.version, ⟨event, hevents, hevent.item, ?_⟩, ?_⟩
  · rw [OperationEvent.entry, hevent.from_state, hevent.to_state, hevent.version]
    rfl
  · intro item hitem
    obtain ⟨i, hi, rfl⟩ := List.mem_iff_getElem.1 hitem
    have hconfirms := h.items.get hi (by rwa [← h.items.length_eq])
    exact ⟨hconfirms.state, hconfirms.version, hconfirms.created⟩

lemma Confirms.stable (h : Confirms op preview) : op.TextsStable env.sanitize := by
  intro item hitem
  obtain ⟨i, hi, rfl⟩ := List.mem_iff_getElem.1 hitem
  have hconfirms := h.items.get hi (by rwa [← h.items.length_eq])
  have hnone : op.items[i].providerResultIdentifier = none := hconfirms.result
  rw [hnone]
  rfl

/-- Rows that conflict with none of the table and not among themselves are inserted. -/
lemma insertItems_eq_ok (db : Database) {rows : List OperationItemRow}
    (hchecks : ∀ row ∈ rows, row.checks env = true)
    (hfree : ∀ row ∈ rows, ∀ other ∈ db.items, row.conflicts other = false)
    (hpairwise : rows.Pairwise fun row other => other.conflicts row = false) :
    rows.foldlM (Database.insertItem env) db = .ok { db with items := db.items ++ rows } := by
  induction rows generalizing db with
  | nil => simp [pure, Except.pure]
  | cons row rows ih =>
      rw [List.forall_mem_cons] at hchecks hfree
      obtain ⟨hhead, htail⟩ := List.pairwise_cons.1 hpairwise
      have hinsert : db.insertItem env row = .ok { db with items := db.items ++ [row] } := by
        simp only [Database.insertItem, bind_eq_ok, require_eq_ok, pure_eq_ok]
        refine ⟨(), hchecks.1, (), ?_, trivial⟩
        rw [Bool.not_eq_true', List.any_eq_false]
        exact fun other hother => by simp [hfree.1 other hother]
      rw [List.foldlM_cons, hinsert]
      refine (ih { db with items := db.items ++ [row] } hchecks.2 ?_ htail).trans (by simp)
      intro other hother stored hstored
      rcases List.mem_append.1 hstored with hstored | hstored
      · exact hfree.2 other hother stored hstored
      · rw [List.mem_singleton.1 hstored]
        exact hhead other hother

/-- The items of one operation do not conflict with each other. -/
lemma pairwise_itemRow (hwf : preview.WellFormed)
    (hitems : List.Forall₂ (ItemConfirms op.createdAt) op.items
      preview.items) (hids : (op.items.map (·.operationItemId)).Nodup) :
    (op.items.map (Database.itemRow op)).Pairwise fun row other => other.conflicts row = false := by
  have hindex : (op.items.map (·.itemIndex)).Nodup := by
    rw [map_eq_of_forall₂ hitems fun _ _ h => h.index, hwf.index]
    exact List.nodup_range
  have hpreview : (op.items.map (·.previewItemId)).Nodup := by
    rw [map_eq_of_forall₂ hitems fun _ _ h => h.preview_item_id]
    exact hwf.item_ids
  have hclient : (op.items.map (·.clientItemId)).Nodup := by
    rw [map_eq_of_forall₂ hitems fun _ _ h => h.client_item_id]
    exact hwf.client_ids
  have hcall : (op.items.map (·.providerCallHash)).Nodup := by
    rw [map_eq_of_forall₂ hitems fun _ _ h => h.call_hash]
    exact hwf.call_hashes
  rw [List.Nodup, List.pairwise_map] at hids hindex hpreview hclient hcall
  rw [List.pairwise_map]
  refine (((hids.and hindex).and hpreview).and (hclient.and hcall)).imp ?_
  rintro item other ⟨⟨⟨h1, h2⟩, h3⟩, h4, h5⟩
  simp [OperationItemRow.conflicts, Database.itemRow, Ne.symm h1, Ne.symm h2, Ne.symm h3,
    Ne.symm h4, Ne.symm h5]

/-! ### The new operation is on record -/

/-- The in-memory store after it recorded a new operation. -/
def InMemoryStore.afterCreate (store : InMemoryStore) (confirmed : DocumentPreview)
    (checked : HostedOperation) : InMemoryStore :=
  { store.putPreview confirmed with
    operations := store.operations ++ [checked]
    operationByPreview := store.operationByPreview ++ [(checked.previewId, checked.operationId)] }

/-- The tables after the rows of a new operation were inserted. -/
def Database.afterCreate (db : Database) (confirmed : DocumentPreview)
    (checked : HostedOperation) : Database :=
  { db.putPreview confirmed with
    operations := db.operations ++ [operationRow checked]
    items := db.items ++ checked.items.map (itemRow checked)
    events := db.events ++ checked.events.map (eventRow checked) }

lemma filter_map_of_ne [BEq κ] [LawfulBEq κ] {rows : List α} {f : β → α} {g : α → κ} {xs : List β}
    {k : κ} (h : ∀ x ∈ xs, g (f x) ≠ k) :
    (rows ++ xs.map f).filter (g · == k) = rows.filter (g · == k) := by
  have hnew : (xs.map f).filter (g · == k) = [] := by
    refine List.filter_eq_nil_iff.2 fun y hy => ?_
    obtain ⟨x, hx, rfl⟩ := List.mem_map.1 hy
    simpa using h x hx
  rw [List.filter_append, hnew, List.append_nil]

lemma filter_map_of_eq [BEq κ] [LawfulBEq κ] {rows : List α} {f : β → α} {g : α → κ} {xs : List β}
    {k : κ} (hrows : ∀ row ∈ rows, g row ≠ k) (h : ∀ x ∈ xs, g (f x) = k) :
    (rows ++ xs.map f).filter (g · == k) = xs.map f := by
  have hold : rows.filter (g · == k) = [] :=
    List.filter_eq_nil_iff.2 fun row hrow => by simpa using hrows row hrow
  have hnew : (xs.map f).filter (g · == k) = xs.map f := by
    refine List.filter_eq_self.2 fun y hy => ?_
    obtain ⟨x, hx, rfl⟩ := List.mem_map.1 hy
    simpa using h x hx
  rw [List.filter_append, hold, hnew, List.nil_append]

lemma Agrees.create (ha : Agrees store db) {confirmed : DocumentPreview}
    (hids : (checked.items.map (·.operationItemId)).Nodup)
    (hown : ∀ event ∈ checked.events, event.operationId = checked.operationId)
    (hfresh : ∀ existing ∈ store.operations, existing.operationId ≠ checked.operationId)
    (hitemFresh : ∀ item ∈ checked.items, ItemFresh store item.operationItemId) :
    Agrees (store.afterCreate confirmed checked) (db.afterCreate confirmed checked) := by
  have hitems : ∀ row ∈ db.items, row.operationId ≠ checked.operationId := by
    intro row hrow heq
    obtain ⟨existing, hexisting, hid⟩ := ha.items_owned row hrow
    exact hfresh existing hexisting (hid.symm.trans heq)
  have hevents : ∀ row ∈ db.events, row.operationId ≠ checked.operationId := by
    intro row hrow heq
    obtain ⟨existing, hexisting, hid⟩ := ha.events_owned row hrow
    exact hfresh existing hexisting (hid.symm.trans heq)
  refine ⟨?_, ?_, ?_, ?_, ?_, ?_, ?_⟩
  · simp only [Database.afterCreate, InMemoryStore.afterCreate, Database.putPreview,
      InMemoryStore.putPreview, ha.previews]
  · simp only [Database.afterCreate, InMemoryStore.afterCreate, ha.operations, List.map_append,
      List.map_cons, List.map_nil]
  · simp only [Database.afterCreate, List.map_append, List.map_map]
    refine List.nodup_append'.2 ⟨ha.item_ids, hids, ?_⟩
    intro id hold hnew
    obtain ⟨row, hrow, rfl⟩ := List.mem_map.1 hold
    obtain ⟨item, hitem, heq⟩ := List.mem_map.1 hnew
    obtain ⟨existing, hexisting, hid⟩ := ha.items_owned row hrow
    have hmem : row ∈ db.items.filter (·.operationId == existing.operationId) :=
      List.mem_filter.2 ⟨hrow, by simp [hid]⟩
    rw [ha.items existing hexisting] at hmem
    obtain ⟨stored, hstored, rfl⟩ := List.mem_map.1 hmem
    exact hitemFresh item hitem existing hexisting stored hstored heq.symm
  · intro op hop
    rcases List.mem_append.1 hop with hop | hop
    · rw [← ha.items op hop]
      exact filter_map_of_ne fun _ _ => (hfresh op hop).symm
    · rw [List.mem_singleton.1 hop]
      exact filter_map_of_eq hitems fun _ _ => rfl
  · intro row hrow
    rcases List.mem_append.1 hrow with hrow | hrow
    · obtain ⟨op, hop, hid⟩ := ha.items_owned row hrow
      exact ⟨op, List.mem_append_left _ hop, hid⟩
    · obtain ⟨item, -, rfl⟩ := List.mem_map.1 hrow
      exact ⟨checked, List.mem_append_right _ (List.mem_singleton.2 rfl), rfl⟩
  · intro op hop
    rcases List.mem_append.1 hop with hop | hop
    · rw [← ha.events op hop]
      exact filter_map_of_ne fun event hevent heq =>
        hfresh op hop (heq.symm.trans (hown event hevent))
    · rw [List.mem_singleton.1 hop]
      exact filter_map_of_eq hevents hown
  · intro row hrow
    rcases List.mem_append.1 hrow with hrow | hrow
    · obtain ⟨op, hop, hid⟩ := ha.events_owned row hrow
      exact ⟨op, List.mem_append_left _ hop, hid⟩
    · obtain ⟨event, hevent, rfl⟩ := List.mem_map.1 hrow
      exact ⟨checked, List.mem_append_right _ (List.mem_singleton.2 rfl), hown event hevent⟩

/-- The row of a new operation conflicts with no other. -/
lemma InMemoryStore.Sound.operation_free (h : store.Sound env) (hmem : preview ∈ store.previews)
    (hbinding : checked.toConfirmationBinding = preview.toConfirmationBinding)
    (hnone : ∀ existing ∈ store.operations, existing.previewId ≠ checked.previewId)
    (hfresh : ∀ existing ∈ store.operations, existing.operationId ≠ checked.operationId)
    (hexisting : existing ∈ store.operations) :
    (Database.operationRow checked).conflicts (Database.operationRow existing) = false := by
  rw [Bool.eq_false_iff]
  intro hconflicts
  simp only [OperationRow.conflicts, Database.operationRow, Bool.or_eq_true, Bool.and_eq_true,
    beq_iff_eq] at hconflicts
  rcases hconflicts with (hid | hpreview) | ⟨⟨hworkspace, hconnection⟩, hcall⟩
  · exact hfresh existing hexisting hid.symm
  · exact hnone existing hexisting hpreview.symm
  · obtain ⟨source, hsource, hsourceBinding, -⟩ := h.bound existing hexisting
    have hsame : source = preview := by
      refine KeyedTable.eq_of_key_eq h.previews.keys hsource hmem ?_
      rw [hbinding] at hworkspace hconnection hcall
      simp only [hsourceBinding, hworkspace, hconnection, hcall]
    refine hnone existing hexisting ?_
    rw [← hsourceBinding, hsame, hbinding]

/-- The items of a new operation satisfy the constraints of their table. -/
lemma Confirms.itemRow_checks (h : Confirms op preview) (hwf : op.WellFormed env.sanitize)
    (hchecks : previewChecks env preview = true) :
    ∀ item ∈ op.items, (Database.itemRow op item).checks env = true := by
  intro item hitem
  obtain ⟨i, hi, rfl⟩ := List.mem_iff_getElem.1 hitem
  have hj : i < preview.items.length := by rwa [← h.items.length_eq]
  have hconfirms : ItemConfirms op.createdAt op.items[i] preview.items[i] := h.items.get hi hj
  simp only [previewChecks, Bool.and_eq_true] at hchecks
  have hsafe := List.all_eq_true.1 hchecks.2 preview.items[i] (List.getElem_mem hj)
  simp only [Bool.and_eq_true] at hsafe
  refine Hosted.itemRow_checks (hwf.items _ hitem) ?_ fun text htext => ?_
  · rw [hconfirms.client_item_id]
    exact hsafe.1.1
  · rw [hconfirms.result] at htext
    cases htext

/-- The rows of a new item and of a new event conflict with none on record. -/
lemma Agrees.item_free (ha : Agrees store db) {item : OperationItem}
    (hfresh : ∀ existing ∈ store.operations, existing.operationId ≠ checked.operationId)
    (hitem : ItemFresh store item.operationItemId) :
    ∀ row ∈ db.items, (Database.itemRow checked item).conflicts row = false := by
  intro row hrow
  obtain ⟨existing, hexisting, hid⟩ := ha.items_owned row hrow
  have hmem : row ∈ db.items.filter (·.operationId == existing.operationId) :=
    List.mem_filter.2 ⟨hrow, by simp [hid]⟩
  rw [ha.items existing hexisting] at hmem
  obtain ⟨stored, hstored, rfl⟩ := List.mem_map.1 hmem
  have hidNe := (hitem existing hexisting stored hstored).symm
  have hoperationNe := (hfresh existing hexisting).symm
  simp [OperationItemRow.conflicts, Database.itemRow, hidNe, hoperationNe]

lemma Agrees.event_free (ha : Agrees store db)
    (hfresh : ∀ existing ∈ store.operations, existing.operationId ≠ checked.operationId)
    (hown : event.operationId = checked.operationId) (hevent : EventFresh store event.eventId) :
    db.events.any (Database.eventRow checked event).conflicts = false := by
  rw [List.any_eq_false]
  intro row hrow
  obtain ⟨existing, hexisting, hid⟩ := ha.events_owned row hrow
  have hmem : row ∈ db.events.filter (·.operationId == existing.operationId) :=
    List.mem_filter.2 ⟨hrow, by simp [hid]⟩
  rw [ha.events existing hexisting] at hmem
  obtain ⟨stored, hstored, rfl⟩ := List.mem_map.1 hmem
  have hidNe := (hevent existing hexisting stored hstored).symm
  have hoperationNe : event.operationId ≠ stored.operationId := by
    rw [hown]
    exact fun heq => hfresh existing hexisting (hid.symm.trans heq.symm)
  simp [OperationEventRow.conflicts, Database.eventRow, hidNe, hoperationNe]

lemma Agrees.no_operation (ha : Agrees store db)
    (hacc : CreateAccepted env store now checked expected preview) :
    (db.operations.any fun stored =>
      stored.previewId == preview.previewId && stored.tenantId == preview.tenantId &&
        stored.authUserId == preview.authUserId &&
        stored.workspaceId == preview.workspaceId) = false := by
  rw [ha.operations, List.any_map, List.any_eq_false]
  intro existing hexisting hsame
  simp only [Function.comp_apply, Database.operationRow, Bool.and_eq_true, beq_iff_eq] at hsame
  exact hacc.no_operation existing hexisting
    (hsame.1.1.1.trans (congrArg (·.previewId) hacc.confirms.binding).symm)

/-- None of the rows of an accepted creation violates a constraint. -/
lemma InMemoryStore.Sound.updatePreview_confirmed (h : store.Sound env)
    (hacc : CreateAccepted env store now checked expected preview) :
    db.updatePreview env { preview with
        state := .confirmed
        stateVersion := preview.stateVersion + 1
        confirmedAt := some checked.createdAt
        payloadPurgeAfter := checked.payloadPurgeAfter
        items := preview.items.map ({ · with payloadPurgeAfter := checked.payloadPurgeAfter }) } =
      .ok (db.putPreview
        (confirmedPreview preview checked.createdAt checked.payloadPurgeAfter)) := by
  have hvalid := (DocumentPreview.validate_eq_ok.1 (h.previews.valid preview hacc.mem)).2
  have hrow := hacc.confirmable.checks hvalid (h.previews.checked preview hacc.mem).1
  have hcancelled := (awaiting_of_wellFormed hvalid hacc.confirmable.state).2.1
  simp only [confirmedPreview, ← hcancelled] at hrow ⊢
  simp only [Database.updatePreview, bind_eq_ok, require_eq_ok, pure_eq_ok]
  exact ⟨(), hrow, trivial⟩

lemma Agrees.insertOperation_confirmed (ha : Agrees store db) (h : store.Sound env)
    (hwf : checked.WellFormed env.sanitize)
    (hacc : CreateAccepted env store now checked expected preview)
    (hoperations : db'.operations = db.operations) :
    db'.insertOperation (Database.operationRow checked) =
      .ok { db' with operations := db.operations ++ [Database.operationRow checked] } := by
  have hcapability := (h.previews.checked preview hacc.mem).2
  have hrow := operationRow_checks (hacc.confirms.initial.invariant hwf)
    (by rwa [congrArg (·.capabilityId) hacc.confirms.binding] : isDocumentCapability _ = true)
  have hfree : db.operations.any (Database.operationRow checked).conflicts = false := by
    rw [ha.operations, List.any_map, List.any_eq_false]
    intro existing hexisting
    simp [h.operation_free hacc.mem hacc.confirms.binding hacc.no_operation hacc.id_fresh hexisting]
  simp only [Database.insertOperation, hoperations, bind_eq_ok, require_eq_ok, pure_eq_ok]
  exact ⟨(), hrow, (), by rw [hfree]; rfl, trivial⟩

lemma Agrees.insertItems_confirmed (ha : Agrees store db) (h : store.Sound env)
    (hwf : checked.WellFormed env.sanitize)
    (hacc : CreateAccepted env store now checked expected preview)
    (hitemFresh : ∀ item ∈ checked.items, ItemFresh store item.operationItemId)
    (hitems : db'.items = db.items) :
    (checked.items.map (Database.itemRow checked)).foldlM (Database.insertItem env) db' =
      .ok { db' with items := db.items ++ checked.items.map (Database.itemRow checked) } := by
  have hvalid := (DocumentPreview.validate_eq_ok.1 (h.previews.valid preview hacc.mem)).2
  have hchecks := (h.previews.checked preview hacc.mem).1
  rw [insertItems_eq_ok db'
    (List.forall_mem_map.2 (hacc.confirms.itemRow_checks hwf hchecks)) ?_
    (pairwise_itemRow hvalid hacc.confirms.items (hacc.confirms.initial.invariant hwf).items_ids),
    hitems]
  rw [hitems]
  exact List.forall_mem_map.2 fun item hitem => ha.item_free hacc.id_fresh (hitemFresh item hitem)

lemma Agrees.insertEvents_confirmed (ha : Agrees store db) (hwf : checked.WellFormed env.sanitize)
    (hacc : CreateAccepted env store now checked expected preview)
    (hsafe : ∀ event ∈ checked.events, publicIdentifierIsSafe env event.sanitizedReason = true)
    (heventFresh : ∀ event ∈ checked.events, EventFresh store event.eventId)
    (hdb : db'.events = db.events) :
    (checked.events.map (Database.eventRow checked)).foldlM (Database.insertEvent env) db' =
      .ok { db' with events := db.events ++ checked.events.map (Database.eventRow checked) } := by
  obtain ⟨event, hevents, -⟩ := hacc.confirms.events
  have hmem : event ∈ checked.events := by simp [hevents]
  have hrow : (Database.eventRow checked event).checks env = true :=
    eventRow_checks (hwf.events event hmem) (hsafe event hmem)
  have hfree := ha.event_free hacc.id_fresh (hwf.events_own event hmem) (heventFresh event hmem)
  rw [hevents]
  simp only [List.map_cons, List.map_nil, List.foldlM_cons, List.foldlM_nil, Database.insertEvent,
    hdb, bind_eq_ok, require_eq_ok, pure_eq_ok]
  exact ⟨_, ⟨(), hrow, (), by rw [hfree]; rfl, rfl⟩, rfl⟩

/-- An accepted creation inserts the rows of the new operation. -/
lemma Agrees.create_ok (ha : Agrees store db) (h : store.Sound env)
    (hwf : checked.WellFormed env.sanitize)
    (hacc : CreateAccepted env store now checked expected preview)
    (haccess : env.workspaceAccess checked.tenantId checked.workspaceId checked.authUserId = true)
    (hauthority : AuthorityAgrees env store now checked.previewId)
    (hreasons : ∀ event ∈ checked.events, ReasonAgrees env event.sanitizedReason)
    (heventFresh : ∀ event ∈ checked.events, EventFresh store event.eventId)
    (hitemFresh : ∀ item ∈ checked.items, ItemFresh store item.operationItemId) :
    db.saveMercuryOperation env now (Database.operationRow checked)
        (checked.items.map (Database.itemRow checked))
        (checked.events.map (Database.eventRow checked)) expected =
      .ok (db.afterCreate (confirmedPreview preview checked.createdAt checked.payloadPurgeAfter)
        checked) := by
  have hconfirms := hacc.confirms
  have hconfirmable := hacc.confirmable
  obtain ⟨hkey, hcall, hintegrity, hprovider, henvironment, hcapabilityId, hcapabilityVersion,
    hrevision⟩ := binding_eq_iff.1 hconfirms.binding.symm
  have hfind : db.findSourcePreview (Database.operationRow checked) = some preview :=
    (ha.findSourcePreview_eq_some h).2 ⟨hacc.mem, hkey⟩
  have hsafe : ∀ event ∈ checked.events, publicIdentifierIsSafe env event.sanitizedReason = true :=
    fun event hevent => (hreasons event hevent).1
      (OperationEvent.validate_eq_ok.1 (hwf.events event hevent)).2.2.1
  obtain ⟨event, hevents, hevent⟩ := hconfirms.events
  have heventMem : event ∈ checked.events := by simp [hevents]
  have hmatches : ∀ e ∈ checked.events, Database.eventMatches env (Database.operationRow checked)
      (Database.eventRow checked e) = true := by
    rw [hevents]
    simpa using
      (eventMatches_iff (hwf.events_own event heventMem)).2 ⟨hevent, hsafe event heventMem⟩
  simp only [Database.saveMercuryOperation, bind_eq_ok, require_eq_ok]
  refine ⟨(), haccess, ?_⟩
  simp only [hfind, ha.no_operation hacc, Bool.false_eq_true, if_false, bind_eq_ok, require_eq_ok,
    Bool.and_eq_true, beq_iff_eq, List.length_map, List.all_map]
  refine ⟨(), ⟨⟨⟨⟨⟨⟨⟨⟨⟨⟨⟨hcall, hintegrity⟩, hprovider⟩, henvironment⟩, hcapabilityId⟩,
    hcapabilityVersion⟩, hrevision⟩, ?_⟩, hconfirms.version⟩, hconfirms.updated⟩,
    hconfirms.items.length_eq⟩, by simp [hevents]⟩, (), ?_, (), hacc.version, (), ?_, (), ?_, (),
    List.all_eq_true.2 (itemMatches_of_confirms hconfirms.items), (),
    List.all_eq_true.2 hmatches, _, h.updatePreview_confirmed hacc,
    _, ha.insertOperation_confirmed h hwf hacc rfl, _,
    ha.insertItems_confirmed h hwf hacc hitemFresh rfl,
    ha.insertEvents_confirmed hwf hacc hsafe heventFresh rfl⟩
  · exact congrArg ParentOperationState.value hconfirms.state
  · rw [← hauthority preview hacc.mem hkey.1]
    exact hacc.authority
  · simp [hconfirmable.state]
  · exact ⟨⟨⟨⟨decide_eq_true hacc.now_lt, decide_eq_true hconfirmable.created_le⟩,
      decide_eq_true hconfirmable.lt_expires⟩, decide_eq_true hconfirmable.purge_ge⟩,
      decide_eq_true hconfirmable.purge_le⟩

lemma InMemoryStore.Sound.create (h : store.Sound env) (hwf : checked.WellFormed env.sanitize)
    (hacc : CreateAccepted env store now checked expected preview) :
    (store.afterCreate (confirmedPreview preview checked.createdAt checked.payloadPurgeAfter)
      checked).Sound env := by
  obtain ⟨hmem, hnone, -, hconfirms, hfresh, -, -, hconfirmable⟩ := hacc
  have hvalid := (DocumentPreview.validate_eq_ok.1 (h.previews.valid preview hmem)).2
  obtain ⟨hchecks, hcapability⟩ := h.previews.checked preview hmem
  obtain ⟨confirmed, hconfirmed⟩ : ∃ x, x = confirmedPreview preview checked.createdAt
    checked.payloadPurgeAfter := ⟨_, rfl⟩
  have hbinding : confirmed.toConfirmationBinding = preview.toConfirmationBinding := by
    rw [hconfirmed]
    rfl
  have hid : confirmed.previewId = preview.previewId := congrArg (·.previewId) hbinding
  have hclientIds : confirmed.items.map (·.clientItemId) = preview.items.map (·.clientItemId) := by
    rw [hconfirmed]
    simp [confirmedPreview, Function.comp_def]
  rw [← hconfirmed]
  have hpreviews : ∀ p ∈ (store.afterCreate confirmed checked).previews,
      p = confirmed ∨ p ∈ store.previews := by
    intro p hp
    rcases KeyedTable.mem_put hp with rfl | ⟨hp, -⟩
    · exact .inl rfl
    · exact .inr hp
  refine ⟨⟨?_, ?_, ?_, ?_⟩, ?_, ?_, ?_, ?_, ?_, ?_⟩
  · simpa [InMemoryStore.afterCreate, InMemoryStore.putPreview] using h.previews.ids
  · rw [InMemoryStore.afterCreate, InMemoryStore.putPreview,
      KeyedTable.map_put_of_eq h.previews.ids hmem hid (by simp only [hbinding])]
    exact h.previews.keys
  · intro p hp
    rcases hpreviews p hp with rfl | hp
    · rw [hconfirmed]
      exact DocumentPreview.validate_eq_ok.2 ⟨rfl, hconfirmable.wellFormed hvalid⟩
    · exact h.previews.valid p hp
  · intro p hp
    rcases hpreviews p hp with rfl | hp
    · rw [hconfirmed]
      exact ⟨hconfirmable.checks hvalid hchecks, hcapability⟩
    · exact h.previews.checked p hp
  · simp only [InMemoryStore.afterCreate, List.map_append, List.map_cons, List.map_nil]
    refine List.nodup_append'.2 ⟨h.operation_ids, List.nodup_singleton _, ?_⟩
    intro id hold hnew
    obtain ⟨existing, hexisting, rfl⟩ := List.mem_map.1 hold
    exact hfresh existing hexisting (List.mem_singleton.1 hnew)
  · simp only [InMemoryStore.afterCreate, List.map_append, List.map_cons, List.map_nil]
    refine List.nodup_append'.2 ⟨h.operation_previews, List.nodup_singleton _, ?_⟩
    intro id hold hnew
    obtain ⟨existing, hexisting, rfl⟩ := List.mem_map.1 hold
    exact hnone existing hexisting (List.mem_singleton.1 hnew)
  · simp only [InMemoryStore.afterCreate, h.by_preview, List.map_append, List.map_cons,
      List.map_nil]
  · intro op hop
    rcases List.mem_append.1 hop with hop | hop
    · exact h.invariant op hop
    · rw [List.mem_singleton.1 hop]
      exact hconfirms.initial.invariant hwf
  · intro op hop
    rcases List.mem_append.1 hop with hop | hop
    · exact h.stable op hop
    · rw [List.mem_singleton.1 hop]
      exact hconfirms.stable
  · intro op hop
    rcases List.mem_append.1 hop with hop | hop
    · obtain ⟨source, hsource, hsourceBinding, hids⟩ := h.bound op hop
      refine ⟨source, KeyedTable.mem_put_of_ne hsource fun heq => hnone op hop ?_,
        hsourceBinding, hids⟩
      rw [← hsourceBinding, heq, hid, hconfirms.binding]
    · rw [List.mem_singleton.1 hop]
      refine ⟨confirmed, KeyedTable.mem_put_self hmem hid.symm,
        hbinding.trans hconfirms.binding.symm, ?_⟩
      rw [hclientIds]
      exact map_eq_of_forall₂ hconfirms.items fun _ _ hitem => hitem.client_item_id

/-! ### The preview has its operation already -/

/-- Repeating a confirmation changes nothing, and is answered by its binding alone. -/
lemma Agrees.save_existing (ha : Agrees store db) (h : store.Sound env)
    (hmem : existing ∈ store.operations) (hid : existing.previewId = checked.previewId)
    (haccess : env.workspaceAccess checked.tenantId checked.workspaceId checked.authUserId = true)
    (hstate : checked.state = .awaitingConfirmation) (hversion : checked.stateVersion = 1)
    (hupdated : checked.updatedAt = checked.createdAt) (hone : checked.events.length = 1)
    (hitems : existing.items.map (·.identity) = checked.items.map (·.identity)) :
    db.saveMercuryOperation env now (Database.operationRow checked)
        (checked.items.map (Database.itemRow checked))
        (checked.events.map (Database.eventRow checked)) expected = .ok db' ↔
      existing.toConfirmationBinding = checked.toConfirmationBinding ∧ db' = db := by
  obtain ⟨preview, hpreview, hbinding, hclientIds⟩ := h.bound existing hmem
  have hlength : checked.items.length = preview.items.length := by
    have h1 := congrArg List.length hclientIds
    have h2 := congrArg List.length hitems
    simp only [List.length_map] at h1 h2
    rw [← h2, h1]
  have hfound : (db.operations.any fun stored =>
      stored.previewId == preview.previewId && stored.tenantId == preview.tenantId &&
        stored.authUserId == preview.authUserId &&
        stored.workspaceId == preview.workspaceId) = true := by
    rw [ha.operations, List.any_map]
    refine List.any_eq_true.2 ⟨existing, hmem, ?_⟩
    simp [Database.operationRow, hbinding]
  have hfind : ∀ source, db.findSourcePreview (Database.operationRow checked) = some source ↔
      source = preview ∧ preview.tenantId = checked.tenantId ∧
        preview.authUserId = checked.authUserId ∧ preview.workspaceId = checked.workspaceId ∧
        preview.connectionId = checked.connectionId := by
    intro source
    rw [ha.findSourcePreview_eq_some h]
    constructor
    · rintro ⟨hsource, hsourceId, hrest⟩
      have hsame : source = preview := KeyedTable.eq_of_key_eq h.previews.ids hsource hpreview
        (by rw [hsourceId, congrArg (·.previewId) hbinding, hid]; rfl)
      subst hsame
      exact ⟨rfl, hrest⟩
    · rintro ⟨rfl, hrest⟩
      exact ⟨hpreview, by rw [congrArg (·.previewId) hbinding, hid]; rfl, hrest⟩
  rw [← hbinding, binding_eq_iff]
  simp only [Database.saveMercuryOperation, bind_eq_ok, require_eq_ok]
  constructor
  · rintro ⟨-, -, hok⟩
    cases hcase : db.findSourcePreview (Database.operationRow checked) with
    | none => simp [hcase] at hok
    | some source =>
        obtain ⟨rfl, hkey⟩ := (hfind source).1 hcase
        simp only [hcase, hfound, if_true, bind_eq_ok, require_eq_ok, Bool.and_eq_true, beq_iff_eq,
          pure_eq_ok] at hok
        obtain ⟨-, ⟨⟨⟨⟨⟨⟨⟨⟨⟨⟨⟨hcall, hintegrity⟩, hprovider⟩, henvironment⟩, hcapabilityId⟩,
          hcapabilityVersion⟩, hrevision⟩, -⟩, -⟩, -⟩, -⟩, -⟩, rfl⟩ := hok
        exact ⟨⟨⟨by rw [congrArg (·.previewId) hbinding, hid], hkey⟩, hcall, hintegrity, hprovider,
          henvironment, hcapabilityId, hcapabilityVersion, hrevision⟩, rfl⟩
  · rintro ⟨⟨⟨-, hkey⟩, hcall, hintegrity, hprovider, henvironment, hcapabilityId,
      hcapabilityVersion, hrevision⟩, rfl⟩
    refine ⟨(), haccess, ?_⟩
    rw [(hfind preview).2 ⟨rfl, hkey⟩]
    simp only [hfound, if_true, bind_eq_ok, require_eq_ok, Bool.and_eq_true, beq_iff_eq,
      pure_eq_ok, List.length_map]
    exact ⟨(), ⟨⟨⟨⟨⟨⟨⟨⟨⟨⟨⟨hcall, hintegrity⟩, hprovider⟩, henvironment⟩, hcapabilityId⟩,
      hcapabilityVersion⟩, hrevision⟩, congrArg ParentOperationState.value hstate⟩, hversion⟩,
      hupdated⟩, hlength⟩, hone⟩, trivial⟩

end Hosted
end MercuryTools
