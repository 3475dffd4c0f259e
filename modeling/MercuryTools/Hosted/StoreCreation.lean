import MercuryTools.Hosted.StoreRelation

/-!
# The creation of an operation in the two stores

A creation either repeats the confirmation of a preview that has its operation already, or it
confirms the preview and records the new operation with its items and first event.
`CreateAccepted` states the second kind once, over the state of the in-memory store.
-/

namespace MercuryTools
namespace Hosted

open Checks HostedOperation VersionedLog

variable {env : StoreEnvironment}

/-! ## The confirmed preview -/

/-- A preview after an operation was created from it. -/
def confirmedPreview (preview : DocumentPreview) (confirmedAt payloadPurgeAfter : Instant) :
    DocumentPreview :=
  { preview with
    state := .confirmed
    stateVersion := preview.stateVersion + 1
    confirmedAt := some confirmedAt
    cancelledAt := none
    payloadPurgeAfter := payloadPurgeAfter
    items := preview.items.map ({ · with payloadPurgeAfter := payloadPurgeAfter }) }

/-- What confirmation relies on and what it has to establish. -/
structure Confirmable (preview : DocumentPreview) (confirmedAt payloadPurgeAfter : Instant) :
    Prop where
  state : preview.state = .awaitingConfirmation
  created_le : preview.createdAt ≤ confirmedAt
  lt_expires : confirmedAt < preview.expiresAt
  purge_ge : preview.payloadPurgeAfter ≤ payloadPurgeAfter
  purge_le : payloadPurgeAfter ≤ confirmedAt + confirmedPayloadRetention

variable {preview : DocumentPreview} {confirmedAt purge now : Instant}
  {operation checked : HostedOperation} {store : InMemoryStore} {expected : Int}
  {r : HostedOperation ⊕ DocumentPreview × HostedOperation}

lemma awaiting_of_wellFormed (h : preview.WellFormed)
    (hstate : preview.state = .awaitingConfirmation) :
    preview.stateVersion ∈ [1, 2] ∧ preview.cancelledAt = none ∧
      preview.payloadPurgeAfter = preview.expiresAt + unconfirmedPayloadRetention := by
  have hversion := h.version
  have htimes := h.timestamps
  simp only [DocumentPreview.validStateVersion, DocumentPreview.validStateTimestamps, hstate,
    Bool.and_eq_true, beq_iff_eq, decide_eq_true_eq, Option.isNone_iff_eq_none] at hversion htimes
  exact ⟨hversion, htimes.1.2, htimes.2⟩

lemma Confirmable.wellFormed (hc : Confirmable preview confirmedAt purge) (h : preview.WellFormed) :
    (confirmedPreview preview confirmedAt purge).WellFormed := by
  obtain ⟨hversion, -, hpurge⟩ := awaiting_of_wellFormed h hc.state
  have hge : preview.expiresAt + unconfirmedPayloadRetention ≤ purge := hpurge ▸ hc.purge_ge
  have hle := hc.purge_le
  have hlt := hc.lt_expires
  have httl := h.ttl
  unfold Instant at *
  have hmap : ∀ {α : Type} (f : StoredPreviewItem → α),
      (∀ item, f { item with payloadPurgeAfter := purge } = f item) →
      (confirmedPreview preview confirmedAt purge).items.map f = preview.items.map f := by
    intro α f hf
    simp [confirmedPreview, Function.comp_def, hf]
  refine ⟨h.fields, Nat.le_add_left 1 _, by simpa [confirmedPreview] using h.items_length, ?_,
    h.ids_ne, httl, ?_, ?_, hmap (·.clientItemId) (fun _ => rfl) ▸ h.client_ids,
    hmap (·.previewItemId) (fun _ => rfl) ▸ h.item_ids,
    hmap (·.providerCallHash) (fun _ => rfl) ▸ h.call_hashes,
    hmap (·.previewIntegrityHash) (fun _ => rfl) ▸ h.integrity_hashes, ?_, ?_⟩
  · intro item hitem
    obtain ⟨original, horiginal, rfl⟩ := List.mem_map.1 hitem
    have hvalid := h.items original horiginal
    have hcreated := (h.item_times original horiginal).1
    simp only [StoredPreviewItem.isValid, Bool.and_eq_true, decide_eq_true_eq] at hvalid ⊢
    unfold Instant at *
    exact ⟨⟨hvalid.1.1, by omega⟩, by omega⟩
  · simp only [List.mem_cons, List.not_mem_nil, or_false] at hversion
    simp only [DocumentPreview.validStateVersion, confirmedPreview, List.mem_cons,
      List.not_mem_nil, or_false, decide_eq_true_eq]
    omega
  · simp only [DocumentPreview.validStateTimestamps, confirmedPreview,
      DocumentPreview.unconfirmedPurge, Option.isNone_none, Bool.true_and, Option.any_some,
      Bool.and_eq_true]
    exact ⟨decide_eq_true hge, decide_eq_true hle⟩
  · rw [hmap (·.itemIndex) fun _ => rfl]
    simpa [confirmedPreview] using h.index
  · intro item hitem
    obtain ⟨original, horiginal, rfl⟩ := List.mem_map.1 hitem
    exact ⟨(h.item_times original horiginal).1, rfl⟩

lemma Confirmable.checks (hc : Confirmable preview confirmedAt purge) (h : preview.WellFormed)
    (hchecks : previewChecks env preview = true) :
    previewChecks env (confirmedPreview preview confirmedAt purge) = true := by
  obtain ⟨hversion, -, hpurge⟩ := awaiting_of_wellFormed h hc.state
  have hge : preview.expiresAt + unconfirmedPayloadRetention ≤ purge := hpurge ▸ hc.purge_ge
  have hle := hc.purge_le
  have hlt := hc.lt_expires
  have httl := h.ttl
  simp only [previewChecks, Bool.and_eq_true] at hchecks ⊢
  obtain ⟨⟨⟨⟨hexpires, -⟩, -⟩, -⟩, hitems⟩ := hchecks
  refine ⟨⟨⟨⟨hexpires, ?_⟩, ?_⟩, ?_⟩, ?_⟩
  · simp [confirmedPreview, hge, hle]
  · simp [confirmedPreview]
  · simp only [List.mem_cons, List.not_mem_nil, or_false] at hversion
    simp [confirmedPreview, show preview.stateVersion = 1 ∨ preview.stateVersion = 2 from hversion]
  · refine List.all_eq_true.2 fun item hitem => ?_
    obtain ⟨original, horiginal, rfl⟩ := List.mem_map.1 hitem
    have hvalid := List.all_eq_true.1 hitems original horiginal
    have hcreated := (h.item_times original horiginal).1
    simp only [Bool.and_eq_true] at hvalid ⊢
    unfold Instant at *
    exact ⟨⟨hvalid.1.1, decide_eq_true (by omega)⟩, decide_eq_true (by omega)⟩

/-- The transition to `confirmed` of a preview. -/
lemma transition_confirmed_eq_ok {preview' : DocumentPreview} (h : preview.WellFormed)
    (hge : preview.payloadPurgeAfter ≤ purge)
    (hle : purge ≤ confirmedAt + confirmedPayloadRetention) :
    preview.transition .confirmed (utc confirmedAt) (some (utc purge)) = .ok preview' ↔
      Confirmable preview confirmedAt purge ∧
        preview' = confirmedPreview preview confirmedAt purge := by
  have hutc : ∀ t code, awareUtc (utc t) code = .ok t := fun t code => by simp [awareUtc, utc]
  have hstate : PreviewState.confirmed ∈ previewTransitions preview.state ↔
      preview.state = .awaitingConfirmation := by
    cases preview.state <;> decide
  simp only [DocumentPreview.transition, bind_eq_ok, require_eq_ok, hutc, Except.ok.injEq,
    exists_eq_left', DocumentPreview.validate_eq_ok, if_true, decide_eq_true_eq, hstate]
  constructor
  · rintro ⟨-, hawaiting, -, hcreated, -, hexpires, -, -, rfl, -⟩
    refine ⟨⟨hawaiting, hcreated, by simpa using hexpires, hge, hle⟩, rfl⟩
  · rintro ⟨hc, rfl⟩
    exact ⟨(), hc.state, (), hc.created_le, (), by simpa using hc.lt_expires, (), by simp, rfl,
      hc.wellFormed h⟩

/-! ## Items in the order of their preview -/

/-- Two lists indexed by position agree item by item where every member of the first has a
partner with its index. -/
lemma forall₂_of_index {α β : Type} {f : α → Nat} {g : β → Nat} {r : α → β → Prop} {xs : List α}
    {ys : List β} (hlength : xs.length = ys.length) (hxs : xs.map f = List.range xs.length)
    (hys : ys.map g = List.range ys.length) (h : ∀ x ∈ xs, ∃ y ∈ ys, g y = f x ∧ r x y) :
    List.Forall₂ r xs ys := by
  refine List.forall₂_iff_get.2 ⟨hlength, fun i hi hj => ?_⟩
  obtain ⟨y, hy, hindex, hr⟩ := h (xs.get ⟨i, hi⟩) (List.get_mem ..)
  obtain ⟨j, hjlt, rfl⟩ := List.mem_iff_getElem.1 hy
  have hx : f (xs.get ⟨i, hi⟩) = i := by
    have := congrArg (·[i]?) hxs
    simpa [hi] using this
  have hg : g ys[j] = j := by
    have := congrArg (·[j]?) hys
    simpa [hjlt] using this
  obtain rfl : j = i := by rw [← hg, hindex, hx]
  exact hr

/-- The comparison of `_operation_matches_preview` on one item. -/
structure ItemConfirms (createdAt : Instant) (item : OperationItem)
    (previewItem : StoredPreviewItem) : Prop where
  preview_item_id : item.previewItemId = previewItem.previewItemId
  index : item.itemIndex = previewItem.itemIndex
  client_item_id : item.clientItemId = previewItem.clientItemId
  call_hash : item.providerCallHash = previewItem.providerCallHash
  integrity_hash : item.previewIntegrityHash = previewItem.previewIntegrityHash
  state : item.state = .awaitingConfirmation
  version : item.stateVersion = 1
  result : item.providerResultIdentifier = none
  created : item.createdAt = createdAt
  updated : item.updatedAt = createdAt

/-- The comparison of `_operation_matches_preview` on the event. -/
structure EventConfirms (createdAt : Instant) (event : OperationEvent) : Prop where
  item : event.operationItemId = none
  from_state : event.fromState = none
  to_state : event.toState = "awaiting_confirmation"
  version : event.stateVersion = 1
  occurred : event.occurredAt = createdAt

/-- `_operation_matches_preview`, without the time at which the preview was confirmed. -/
structure Confirms (operation : HostedOperation) (preview : DocumentPreview) : Prop where
  binding : operation.toConfirmationBinding = preview.toConfirmationBinding
  state : operation.state = .awaitingConfirmation
  version : operation.stateVersion = 1
  updated : operation.updatedAt = operation.createdAt
  events : ∃ event, operation.events = [event] ∧ EventConfirms operation.createdAt event
  items : List.Forall₂ (ItemConfirms operation.createdAt) operation.items preview.items

lemma operationMatchesPreview_iff :
    operationMatchesPreview operation preview = true ↔
      Confirms operation preview ∧ preview.createdAt ≤ operation.createdAt ∧
        operation.createdAt < preview.expiresAt ∧
        preview.payloadPurgeAfter ≤ operation.payloadPurgeAfter := by
  simp only [operationMatchesPreview, Bool.and_eq_true, beq_iff_eq]
  constructor
  · rintro ⟨⟨⟨⟨⟨⟨⟨⟨⟨⟨hbinding, hstate⟩, hversion⟩, hcreated⟩, hexpires⟩, hupdated⟩, hpurge⟩, hlength⟩,
      hone⟩, hevents⟩, hitems⟩
    refine ⟨⟨hbinding, hstate, hversion, hupdated, ?_, ?_⟩, of_decide_eq_true hcreated,
      of_decide_eq_true hexpires, of_decide_eq_true hpurge⟩
    · obtain ⟨event, hevent⟩ := List.length_eq_one_iff.1 hone
      refine ⟨event, hevent, ?_⟩
      simp only [hevent, List.all_cons, List.all_nil, Bool.and_true, Bool.and_eq_true, beq_iff_eq,
        Option.isNone_iff_eq_none] at hevents
      obtain ⟨⟨⟨⟨h1, h2⟩, h3⟩, h4⟩, h5⟩ := hevents
      exact ⟨h1, h2, h3, h4, h5⟩
    · refine List.forall₂_iff_zip.2 ⟨hlength, fun {item previewItem} hmem => ?_⟩
      have := List.all_eq_true.1 hitems _ hmem
      simp only [Bool.and_eq_true, beq_iff_eq, Option.isNone_iff_eq_none] at this
      obtain ⟨⟨⟨⟨⟨⟨⟨⟨⟨h1, h2⟩, h3⟩, h4⟩, h5⟩, h6⟩, h7⟩, h8⟩, h9⟩, h10⟩ := this
      exact ⟨h1, h2, h3, h4, h5, h6, h7, h8, h9, h10⟩
  · rintro ⟨⟨hbinding, hstate, hversion, hupdated, ⟨event, hevent, h1, h2, h3, h4, h5⟩, hitems⟩,
      hcreated, hexpires, hpurge⟩
    refine ⟨⟨⟨⟨⟨⟨⟨⟨⟨⟨hbinding, hstate⟩, hversion⟩, decide_eq_true hcreated⟩,
      decide_eq_true hexpires⟩, hupdated⟩, decide_eq_true hpurge⟩, hitems.length_eq⟩, ?_⟩, ?_⟩, ?_⟩
    · simp [hevent]
    · simp [hevent, h1, h2, h3, h4, h5, ParentOperationState.value]
    · rw [List.all_eq_true]
      rintro ⟨item, previewItem⟩ hmem
      obtain ⟨h1, h2, h3, h4, h5, h6, h7, h8, h9, h10⟩ := (List.forall₂_iff_zip.1 hitems).2 hmem
      simp [h1, h2, h3, h4, h5, h6, h7, h8, h9, h10]

/-! ## The in-memory store -/

/-- The calls of `create_operation` that record a new operation. -/
structure CreateAccepted (env : StoreEnvironment) (store : InMemoryStore) (now : Instant)
    (checked : HostedOperation) (expected : Int) (preview : DocumentPreview) : Prop where
  mem : preview ∈ store.previews
  no_operation : ∀ existing ∈ store.operations, existing.previewId ≠ checked.previewId
  authority : env.revalidateAuthority preview now = true
  confirms : Confirms checked preview
  id_fresh : ∀ existing ∈ store.operations, existing.operationId ≠ checked.operationId
  version : (preview.stateVersion : Int) = expected
  now_lt : now < preview.expiresAt
  confirmable : Confirmable preview checked.createdAt checked.payloadPurgeAfter

lemma InMemoryStore.Sound.findPreview_eq_some (h : store.Sound env) {previewId : UUID} :
    store.findPreview previewId = some preview ↔
      preview ∈ store.previews ∧ preview.previewId = previewId := by
  rw [InMemoryStore.findPreview,
    KeyedTable.find?_eq_some h.previews.ids (k := previewId) fun y hy => eq_of_beq hy]
  simp

lemma HostedOperation.WellFormed.retention {op : HostedOperation} (h : op.WellFormed env.sanitize) :
    op.payloadPurgeAfter ≤ op.createdAt + confirmedPayloadRetention := by
  have hwhole := h.whole
  simp only [validateOperation, bind_eq_ok, require_eq_ok, Bool.and_eq_true] at hwhole
  obtain ⟨-, -, -, -, -, ⟨-, hretention⟩, -⟩ := hwhole
  exact of_decide_eq_true hretention

lemma InMemoryStore.Sound.prepareCreate_new (h : store.Sound env)
    (hvalid : operation.validate env.sanitize = .ok checked)
    (hnone : ∀ existing ∈ store.operations, existing.previewId ≠ checked.previewId) :
    store.prepareCreate env now operation expected = .ok r ↔
      ∃ preview, CreateAccepted env store now checked expected preview ∧
        r = .inr (confirmedPreview preview checked.createdAt checked.payloadPurgeAfter,
          checked) := by
  have hretention := (validate_ok hvalid).2.retention
  have hlookup : store.operationByPreview.find? (·.1 == checked.previewId) = none := by
    rw [h.by_preview]
    refine List.find?_eq_none.2 fun pair hpair => ?_
    obtain ⟨op, hop, rfl⟩ := List.mem_map.1 hpair
    simpa using hnone op hop
  simp only [InMemoryStore.prepareCreate, bind_eq_ok, hvalid, Except.ok.injEq, exists_eq_left']
  constructor
  · intro hok
    split at hok
    · simp at hok
    · rename_i preview hpreview
      obtain ⟨hmem, hid⟩ := h.findPreview_eq_some.1 hpreview
      have hwf := (DocumentPreview.validate_eq_ok.1 (h.previews.valid preview hmem)).2
      simp only [hlookup, bind_eq_ok, require_eq_ok, operationMatchesPreview_iff, beq_iff_eq,
        pure_eq_ok] at hok
      obtain ⟨-, hauthority, -, ⟨hconfirms, hcreated, hexpires, hpurge⟩, -, hfresh, -, hversion, -,
        hnow, confirmed, htransition, rfl⟩ := hok
      obtain ⟨hconfirmable, rfl⟩ := (transition_confirmed_eq_ok hwf hpurge hretention).1 htransition
      exact ⟨preview, ⟨hmem, hnone, hauthority, hconfirms, by simpa using hfresh, hversion,
        of_decide_eq_true hnow, hconfirmable⟩, rfl⟩
  · rintro ⟨preview, hacc, rfl⟩
    have hid : preview.previewId = checked.previewId :=
      (congrArg (·.previewId) hacc.confirms.binding).symm
    have hwf := (DocumentPreview.validate_eq_ok.1 (h.previews.valid preview hacc.mem)).2
    have hfind := h.findPreview_eq_some.2 ⟨hacc.mem, hid⟩
    have hc := hacc.confirmable
    simp only [hfind, hlookup, bind_eq_ok, require_eq_ok, operationMatchesPreview_iff, beq_iff_eq,
      pure_eq_ok]
    exact ⟨(), hacc.authority, (), ⟨hacc.confirms, hc.created_le, hc.lt_expires, hc.purge_ge⟩, (),
      by simpa using hacc.id_fresh, (), hacc.version, (), decide_eq_true hacc.now_lt, _,
      (transition_confirmed_eq_ok hwf hc.purge_ge hretention).2 ⟨hc, rfl⟩, rfl⟩

lemma InMemoryStore.Sound.prepareCreate_existing (h : store.Sound env) {existing : HostedOperation}
    (hvalid : operation.validate env.sanitize = .ok checked) (hmem : existing ∈ store.operations)
    (hid : existing.previewId = checked.previewId) :
    store.prepareCreate env now operation expected = .ok r ↔
      sameConfirmationIdentity existing checked = true ∧ r = .inl existing := by
  obtain ⟨p, hp, hbinding, hfind⟩ := h.findPreview hmem
  have hlookup : store.operationByPreview.find? (·.1 == checked.previewId) =
      some (existing.previewId, existing.operationId) := by
    have hkeys : (store.operationByPreview.map (·.1)).Nodup := by
      rw [h.by_preview, List.map_map]
      exact h.operation_previews
    rw [KeyedTable.find?_eq_some hkeys (k := checked.previewId) fun y hy => eq_of_beq hy,
      h.by_preview]
    exact ⟨List.mem_map_of_mem hmem, by simpa using hid⟩
  have hoperation : store.findOperation existing.operationId = some existing := by
    rw [InMemoryStore.findOperation, KeyedTable.find?_eq_some h.operation_ids
      (k := existing.operationId) fun y hy => eq_of_beq hy]
    exact ⟨hmem, by simp⟩
  rw [hid] at hfind
  simp only [InMemoryStore.prepareCreate, bind_eq_ok, hvalid, Except.ok.injEq, exists_eq_left',
    hfind, hlookup, hoperation, require_eq_ok, pure_eq_ok, exists_const]
  exact and_congr_right fun _ => eq_comm

end Hosted
end MercuryTools
