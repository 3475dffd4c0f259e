import MercuryTools.Hosted.PreviewStore
import MercuryTools.Hosted.StoreAgreement

/-!
# A preview is confirmed once

`HostedPreviewStore.Consistent` relates the tables of the in-memory store: one preview for a
provider call, one operation for a preview, and an operation exactly for the confirmed ones.
Every call keeps it, except that `create_preview` also takes a preview that is confirmed already
(`confirmed_preview_saved`).  An operation is only created where its preview is confirmed in
time, from its current version and under a current authority (`CreatedBy`).
-/

namespace MercuryTools
namespace Hosted

open Checks HostedOperation Lockstep

variable {Evidence Payload : Type} {env : PreviewEnvironment Evidence Payload}
  {store : HostedPreviewStore}

/-! ## Values that validate to themselves -/

variable {preview preview' : DocumentPreview} {sanitize : String → Option String}
  {op op' : HostedOperation} {target : PreviewState}

lemma DocumentPreview.validate_self (h : preview.validate = .ok preview') :
    preview'.validate = .ok preview' := by
  obtain ⟨rfl, hwf⟩ := DocumentPreview.validate_eq_ok.1 h
  exact DocumentPreview.validate_eq_ok.2 ⟨rfl, hwf⟩

/-- An operation that validates to itself is well formed and has stable texts. -/
lemma HostedOperation.stable_of_validate (h : op.validate sanitize = .ok op) :
    op.WellFormed sanitize ∧ op.TextsStable sanitize := by
  refine ⟨(validate_ok h).2, ?_⟩
  simp only [validate, bind_eq_ok, require_eq_ok, pure_eq_ok, mapM_eq_ok] at h
  obtain ⟨-, -, -, -, items, hitems, -, -, events, -, -, -, -, -, heq⟩ := h
  have hsame : items = op.items := congrArg (·.items) heq
  rw [hsame] at hitems
  intro item hitem
  obtain ⟨r, hr, hitem', -⟩ := OperationItem.validate_eq_ok.1 (List.forall₂_same.1 hitems item hitem)
  have hsame : r = item.providerResultIdentifier :=
    (congrArg (·.providerResultIdentifier) hitem').symm
  rw [hsame] at hr
  exact hr

/-- An operation whose texts are stable is returned by validation as it is. -/
lemma HostedOperation.eq_of_validate (hstable : op.TextsStable sanitize)
    (h : op.validate sanitize = .ok op') : op' = op ∧ op.validate sanitize = .ok op := by
  obtain ⟨hshape, hwf⟩ := validate_ok h
  have hself := HostedOperation.validate_self (hwf.of_shape_eq hshape.symm) hstable
  exact ⟨by simpa using h.symm.trans hself, hself⟩

lemma HostedOperation.validate_idem (hstable : op'.TextsStable sanitize)
    (h : op.validate sanitize = .ok op') : op'.validate sanitize = .ok op' :=
  HostedOperation.validate_self (validate_ok h).2 hstable

/-! ## Previews -/

/-- What a transition of a preview does. -/
structure PreviewMoved (preview preview' : DocumentPreview) (target : PreviewState) : Prop where
  allowed : target ∈ previewTransitions preview.state
  binding : preview'.toConfirmationBinding = preview.toConfirmationBinding
  state : preview'.state = target
  expires : preview'.expiresAt = preview.expiresAt
  valid : preview'.validate = .ok preview'

lemma DocumentPreview.moved_of_transition {occurredAt : DateTime} {purge : Option DateTime}
    (h : preview.transition target occurredAt purge = .ok preview') :
    PreviewMoved preview preview' target ∧ (target = .confirmed → ∀ timestamp,
      awareUtc occurredAt "preview_timestamp_invalid" = .ok timestamp →
        timestamp < preview.expiresAt) := by
  simp only [transition, bind_eq_ok, require_eq_ok, decide_eq_true_eq] at h
  obtain ⟨-, hallowed, timestamp, htimestamp, -, -, -, hexpired, -, -, h⟩ := h
  obtain ⟨raw, hvalid, hbinding, hstate, hexpires⟩ : ∃ raw : DocumentPreview,
      raw.validate = .ok preview' ∧ raw.toConfirmationBinding = preview.toConfirmationBinding ∧
        raw.state = target ∧ raw.expiresAt = preview.expiresAt := by
    split at h
    · simp only [bind_eq_ok] at h
      obtain ⟨_, -, h⟩ := h
      exact ⟨_, h, rfl, rfl, rfl⟩
    · split at h
      · simp only [bind_eq_ok] at h
        obtain ⟨_, -, h⟩ := h
        exact ⟨_, h, rfl, rfl, rfl⟩
      · simp at h
  have hself := validate_self hvalid
  obtain ⟨rfl, -⟩ := DocumentPreview.validate_eq_ok.1 hvalid
  refine ⟨⟨hallowed, hbinding, hstate, hexpires, hself⟩, ?_⟩
  rintro rfl other hother
  obtain rfl : timestamp = other := by simpa using htimestamp.symm.trans hother
  simpa using hexpired

/-- A confirmed preview has no transition left. -/
lemma PreviewMoved.not_confirmed (h : PreviewMoved preview preview' target) :
    preview.state ≠ .confirmed := by
  intro hstate
  have := h.allowed
  simp [hstate, previewTransitions] at this

/-! ## The invariant -/

namespace HostedPreviewStore

/-- What holds of the tables in every run. -/
structure Consistent (sanitize : String → Option String) (store : HostedPreviewStore) : Prop where
  preview_ids : (store.previews.map (·.previewId)).Nodup
  provider_calls : (store.previews.map (·.providerCall)).Nodup
  call_index : store.previewProviderCalls =
    store.previews.map fun p => (p.providerCall, p.previewId)
  previews_valid : ∀ p ∈ store.previews, p.validate = .ok p
  operation_ids : (store.operations.map (·.operationId)).Nodup
  operation_previews : (store.operations.map (·.previewId)).Nodup
  preview_index : store.operationByPreview =
    store.operations.map fun op => (op.previewId, op.operationId)
  operations_valid : ∀ op ∈ store.operations, op.validate sanitize = .ok op
  confirmed : ∀ p ∈ store.previews, p.state = .confirmed ↔
    ∃ op ∈ store.operations, op.previewId = p.previewId
  bound : ∀ op ∈ store.operations, ∃ p ∈ store.previews, p.previewId = op.previewId

variable {sanitize : String → Option String}

variable {previewId operationId : UUID} {preview : DocumentPreview} {op checked : HostedOperation}
  {scope : Scope} {c : PreviewStoreCall Evidence}
  {calls : List (Instant × PreviewStoreCall Evidence)}

lemma Consistent.findPreview (h : store.Consistent sanitize) :
    store.findPreview previewId = some preview ↔
      preview ∈ store.previews ∧ preview.previewId = previewId := by
  rw [InMemoryStore.findPreview,
    KeyedTable.find?_eq_some h.preview_ids (k := previewId) fun y hy => eq_of_beq hy, beq_iff_eq]

lemma Consistent.findOperation (h : store.Consistent sanitize) :
    store.findOperation operationId = some op ↔
      op ∈ store.operations ∧ op.operationId = operationId := by
  rw [InMemoryStore.findOperation, KeyedTable.find?_eq_some h.operation_ids (k := operationId)
    fun y hy => eq_of_beq hy, beq_iff_eq]

/-- The operation on record for a preview, through the index. -/
lemma Consistent.existing (h : store.Consistent sanitize) {existing : HostedOperation}
    (hmem : existing ∈ store.operations) (hid : existing.previewId = previewId) :
    store.operationByPreview.find? (·.1 == previewId) =
      some (previewId, existing.operationId) := by
  have hkeys : (store.operationByPreview.map (·.1)).Nodup := by
    rw [h.preview_index, List.map_map]
    exact h.operation_previews
  rw [KeyedTable.find?_eq_some hkeys (k := previewId) fun y hy => eq_of_beq hy, h.preview_index]
  exact ⟨List.mem_map.2 ⟨existing, hmem, by rw [hid]⟩, by simp⟩

/-! ### What keeps it -/

/-- A new preview that is not confirmed is added. -/
lemma Consistent.addPreview (h : store.Consistent sanitize)
    (hvalid : preview.validate = .ok preview)
    (hid : ∀ p ∈ store.previews, p.previewId ≠ preview.previewId)
    (hcall : ∀ p ∈ store.previews, p.providerCall ≠ preview.providerCall)
    (hstate : preview.state ≠ .confirmed) (itemCalls : List ProviderCall) :
    Consistent sanitize { store with
      previews := store.previews ++ [preview]
      previewProviderCalls := store.previewProviderCalls ++
        [(preview.providerCall, preview.previewId)]
      itemProviderCalls := itemCalls } := by
  have hnone : ∀ op ∈ store.operations, op.previewId ≠ preview.previewId := by
    intro op hop heq
    obtain ⟨p, hp, hpid⟩ := h.bound op hop
    exact hid p hp (hpid.trans heq)
  refine ⟨?_, ?_, ?_, ?_, h.operation_ids, h.operation_previews, h.preview_index,
    h.operations_valid, ?_, ?_⟩
  · simp only [List.map_append, List.map_cons, List.map_nil]
    refine List.nodup_append'.2 ⟨h.preview_ids, List.nodup_singleton _, ?_⟩
    simpa [List.disjoint_left] using hid
  · simp only [List.map_append, List.map_cons, List.map_nil]
    refine List.nodup_append'.2 ⟨h.provider_calls, List.nodup_singleton _, ?_⟩
    simpa [List.disjoint_left] using hcall
  · simp only [h.call_index, List.map_append, List.map_cons, List.map_nil]
  · intro p hp
    rcases List.mem_append.1 hp with hp | hp
    · exact h.previews_valid p hp
    · rw [List.mem_singleton.1 hp]
      exact hvalid
  · intro p hp
    rcases List.mem_append.1 hp with hp | hp
    · exact h.confirmed p hp
    · rw [List.mem_singleton.1 hp]
      refine ⟨fun heq => absurd heq hstate, ?_⟩
      rintro ⟨op, hop, heq⟩
      exact absurd heq (hnone op hop)
  · intro op hop
    obtain ⟨p, hp, hpid⟩ := h.bound op hop
    exact ⟨p, List.mem_append_left _ hp, hpid⟩

/-- A preview moves on without being confirmed. -/
lemma Consistent.movePreview (h : store.Consistent sanitize) {preview' : DocumentPreview}
    {target : PreviewState} (hmem : preview ∈ store.previews)
    (hmoved : PreviewMoved preview preview' target) (htarget : target ≠ .confirmed) :
    Consistent sanitize { store with
      previews := KeyedTable.put (·.previewId) store.previews preview' } := by
  have hid : preview'.previewId = preview.previewId := congrArg (·.previewId) hmoved.binding
  have hcall : preview'.providerCall = preview.providerCall := by
    rw [DocumentPreview.providerCall, hmoved.binding]
    rfl
  have hnone : ∀ op ∈ store.operations, op.previewId ≠ preview.previewId := fun op hop heq =>
    hmoved.not_confirmed ((h.confirmed preview hmem).2 ⟨op, hop, heq⟩)
  refine ⟨?_, ?_, ?_, ?_, h.operation_ids, h.operation_previews, h.preview_index,
    h.operations_valid, ?_, ?_⟩
  · simpa using h.preview_ids
  · simp only [KeyedTable.map_put_of_eq h.preview_ids hmem hid hcall]
    exact h.provider_calls
  · have hpair : (preview'.providerCall, preview'.previewId) =
        (preview.providerCall, preview.previewId) := by rw [hcall, hid]
    simp only [KeyedTable.map_put_of_eq (f := fun p => (p.providerCall, p.previewId)) h.preview_ids
      hmem hid hpair]
    exact h.call_index
  · intro p hp
    rcases KeyedTable.mem_put hp with rfl | ⟨hp, -⟩
    · exact hmoved.valid
    · exact h.previews_valid p hp
  · intro p hp
    rcases KeyedTable.mem_put hp with rfl | ⟨hp, -⟩
    · rw [hmoved.state, hid]
      refine ⟨fun heq => absurd heq htarget, ?_⟩
      rintro ⟨op, hop, heq⟩
      exact absurd heq (hnone op hop)
    · exact h.confirmed p hp
  · intro op hop
    obtain ⟨p, hp, hpid⟩ := h.bound op hop
    refine ⟨p, KeyedTable.mem_put_of_ne hp ?_, hpid⟩
    rw [hid, hpid]
    exact hnone op hop

/-- A preview is confirmed together with its operation. -/
lemma Consistent.confirm (h : store.Consistent sanitize) {confirmed : DocumentPreview}
    (hmem : preview ∈ store.previews) (hmoved : PreviewMoved preview confirmed .confirmed)
    (hvalid : checked.validate sanitize = .ok checked)
    (hbinding : checked.previewId = preview.previewId)
    (hfresh : ∀ op ∈ store.operations, op.operationId ≠ checked.operationId) :
    Consistent sanitize { store with
      toInMemoryStore := { store.putPreview confirmed with
        operations := store.operations ++ [checked]
        operationByPreview := store.operationByPreview ++
          [(checked.previewId, checked.operationId)] } } := by
  have hid : confirmed.previewId = preview.previewId := congrArg (·.previewId) hmoved.binding
  have hcall : confirmed.providerCall = preview.providerCall := by
    rw [DocumentPreview.providerCall, hmoved.binding]
    rfl
  have hnone : ∀ op ∈ store.operations, op.previewId ≠ preview.previewId := fun op hop heq =>
    hmoved.not_confirmed ((h.confirmed preview hmem).2 ⟨op, hop, heq⟩)
  have hself : confirmed ∈ KeyedTable.put (·.previewId) store.previews confirmed :=
    KeyedTable.mem_put_self hmem hid.symm
  refine ⟨?_, ?_, ?_, ?_, ?_, ?_, ?_, ?_, ?_, ?_⟩
  · simpa [InMemoryStore.putPreview] using h.preview_ids
  · simp only [InMemoryStore.putPreview, KeyedTable.map_put_of_eq h.preview_ids hmem hid hcall]
    exact h.provider_calls
  · have hpair : (confirmed.providerCall, confirmed.previewId) =
        (preview.providerCall, preview.previewId) := by rw [hcall, hid]
    simp only [InMemoryStore.putPreview, KeyedTable.map_put_of_eq
      (f := fun p => (p.providerCall, p.previewId)) h.preview_ids hmem hid hpair]
    exact h.call_index
  · intro p hp
    rcases KeyedTable.mem_put hp with rfl | ⟨hp, -⟩
    · exact hmoved.valid
    · exact h.previews_valid p hp
  · simp only [List.map_append, List.map_cons, List.map_nil]
    refine List.nodup_append'.2 ⟨h.operation_ids, List.nodup_singleton _, ?_⟩
    simpa [List.disjoint_left] using hfresh
  · simp only [List.map_append, List.map_cons, List.map_nil]
    refine List.nodup_append'.2 ⟨h.operation_previews, List.nodup_singleton _, ?_⟩
    simpa [List.disjoint_left, hbinding] using hnone
  · simp only [h.preview_index, List.map_append, List.map_cons, List.map_nil]
  · intro op hop
    rcases List.mem_append.1 hop with hop | hop
    · exact h.operations_valid op hop
    · rw [List.mem_singleton.1 hop]
      exact hvalid
  · intro p hp
    rcases KeyedTable.mem_put hp with rfl | ⟨hp, hne⟩
    · refine ⟨fun _ => ⟨checked, by simp, hbinding.trans hid.symm⟩, fun _ => hmoved.state⟩
    · rw [h.confirmed p hp]
      constructor
      · rintro ⟨op, hop, heq⟩
        exact ⟨op, List.mem_append_left _ hop, heq⟩
      · rintro ⟨op, hop, heq⟩
        rcases List.mem_append.1 hop with hop | hop
        · exact ⟨op, hop, heq⟩
        · rw [List.mem_singleton.1 hop, hbinding, ← hid] at heq
          exact absurd heq.symm hne
  · intro op hop
    rcases List.mem_append.1 hop with hop | hop
    · obtain ⟨p, hp, hpid⟩ := h.bound op hop
      refine ⟨p, KeyedTable.mem_put_of_ne hp ?_, hpid⟩
      rw [hid, hpid]
      exact hnone op hop
    · rw [List.mem_singleton.1 hop]
      exact ⟨confirmed, hself, hid.trans hbinding.symm⟩

/-- An operation is replaced by one for the same preview. -/
lemma Consistent.moveOperation (h : store.Consistent sanitize) {op' : HostedOperation}
    (hmem : op ∈ store.operations) (hid : op'.operationId = op.operationId)
    (hpreview : op'.previewId = op.previewId) (hvalid : op'.validate sanitize = .ok op') :
    Consistent sanitize { store with
      toInMemoryStore := store.toInMemoryStore.putOperation op' } := by
  have hput : ∀ {α : Type} (f : HostedOperation → α), f op' = f op →
      (KeyedTable.put (·.operationId) store.operations op').map f = store.operations.map f :=
    fun f hf => KeyedTable.map_put_of_eq h.operation_ids hmem hid hf
  refine ⟨h.preview_ids, h.provider_calls, h.call_index, h.previews_valid, ?_, ?_, ?_, ?_, ?_, ?_⟩
  · simpa [InMemoryStore.putOperation] using h.operation_ids
  · simp only [InMemoryStore.putOperation, hput (·.previewId) hpreview]
    exact h.operation_previews
  · have hpair : (op'.previewId, op'.operationId) = (op.previewId, op.operationId) := by
      rw [hpreview, hid]
    simp only [InMemoryStore.putOperation, hput (fun op => (op.previewId, op.operationId)) hpair]
    exact h.preview_index
  · intro stored hstored
    rcases KeyedTable.mem_put hstored with rfl | ⟨hstored, -⟩
    · exact hvalid
    · exact h.operations_valid stored hstored
  · intro p hp
    rw [h.confirmed p hp]
    constructor
    · rintro ⟨stored, hstored, heq⟩
      by_cases hsame : stored.operationId = op.operationId
      · obtain rfl := KeyedTable.eq_of_key_eq h.operation_ids hstored hmem hsame
        exact ⟨op', KeyedTable.mem_put_self hmem hid.symm, hpreview.trans heq⟩
      · exact ⟨stored, KeyedTable.mem_put_of_ne hstored (by rwa [hid]), heq⟩
    · rintro ⟨stored, hstored, heq⟩
      rcases KeyedTable.mem_put hstored with rfl | ⟨hstored, -⟩
      · exact ⟨op, hmem, hpreview.symm.trans heq⟩
      · exact ⟨stored, hstored, heq⟩
  · intro stored hstored
    rcases KeyedTable.mem_put hstored with rfl | ⟨hstored, -⟩
    · rw [hpreview]
      exact h.bound op hmem
    · exact h.bound stored hstored

/-! ## One call -/

/-- `create_operation` records `checked` and confirms its preview. -/
structure Creates (env : PreviewEnvironment Evidence Payload) (store : HostedPreviewStore)
    (now : Instant) (operation : HostedOperation) (expected : Int) (checked : HostedOperation)
    (preview confirmed : DocumentPreview) : Prop where
  valid : operation.validate env.sanitize = .ok checked
  mem : preview ∈ store.previews
  authority : env.revalidateAuthority preview now = true
  confirms : Confirms checked preview
  created_lt : checked.createdAt < preview.expiresAt
  version : (preview.stateVersion : Int) = expected
  now_lt : now < preview.expiresAt
  fresh : ∀ op ∈ store.operations, op.operationId ≠ checked.operationId
  moved : PreviewMoved preview confirmed .confirmed

/-- The result text of a call is one that is projected to itself once it was projected. -/
def TextSettled (sanitize : String → Option String) : PreviewStoreCall Evidence → Prop
  | .operation (.transitionOperationItem _ _ _ _ _ _ _ _ result) =>
      ∀ r, validateProviderResultIdentifier sanitize result = .ok r →
        validateProviderResultIdentifier sanitize r = .ok r
  | _ => True

/-- What a call does to the tables. -/
inductive Changes (env : PreviewEnvironment Evidence Payload) (store : HostedPreviewStore)
    (now : Instant) : PreviewStoreCall Evidence → HostedPreviewStore → Prop
  | unchanged (c : PreviewStoreCall Evidence) : Changes env store now c store
  | previewAdded (preview : DocumentPreview) (itemCalls : List ProviderCall)
      (valid : preview.validate = .ok preview)
      (new_id : ∀ p ∈ store.previews, p.previewId ≠ preview.previewId)
      (new_call : ∀ p ∈ store.previews, p.providerCall ≠ preview.providerCall) :
      Changes env store now (.createPreview preview) { store with
        previews := store.previews ++ [preview]
        previewProviderCalls := store.previewProviderCalls ++
          [(preview.providerCall, preview.previewId)]
        itemProviderCalls := itemCalls }
  | previewMoved (c : PreviewStoreCall Evidence) (preview preview' : DocumentPreview)
      (target : PreviewState) (mem : preview ∈ store.previews)
      (moved : PreviewMoved preview preview' target) (not_confirmed : target ≠ .confirmed) :
      Changes env store now c { store with
        previews := KeyedTable.put (·.previewId) store.previews preview' }
  | confirmed (operation checked : HostedOperation) (expected : Int)
      (preview confirmed : DocumentPreview)
      (creates : Creates env store now operation expected checked preview confirmed) :
      Changes env store now (.operation (.createOperation operation expected)) { store with
        toInMemoryStore := { store.putPreview confirmed with
          operations := store.operations ++ [checked]
          operationByPreview := store.operationByPreview ++
            [(checked.previewId, checked.operationId)] } }
  | operationMoved (c : PreviewStoreCall Evidence) (op op' : HostedOperation)
      (mem : op ∈ store.operations) (binding : op'.toConfirmationBinding = op.toConfirmationBinding)
      (id : op'.operationId = op.operationId) (created : op'.createdAt = op.createdAt)
      (valid : TextSettled env.sanitize c → op'.validate env.sanitize = .ok op') :
      Changes env store now c { store with
        toInMemoryStore := store.toInMemoryStore.putOperation op' }

lemma Consistent.getOperation (h : store.Consistent env.sanitize)
    (hget : store.toInMemoryStore.getOperation env.toStoreEnvironment scope operationId = .ok op) :
    op ∈ store.operations ∧ op.operationId = operationId := by
  unfold InMemoryStore.getOperation at hget
  split at hget
  · cases hget
  · rename_i stored hfind
    obtain ⟨hmem, hid⟩ := h.findOperation.1 hfind
    simp only [bind_eq_ok, require_eq_ok] at hget
    obtain ⟨-, -, hvalid⟩ := hget
    obtain rfl : stored = op := by simpa using (h.operations_valid stored hmem).symm.trans hvalid
    exact ⟨hmem, hid⟩

lemma Consistent.getPreview (h : store.Consistent sanitize)
    (hget : store.getPreview scope previewId = .ok preview) : preview ∈ store.previews := by
  unfold HostedPreviewStore.getPreview at hget
  split at hget
  · cases hget
  · rename_i stored hfind
    obtain ⟨hmem, -⟩ := h.findPreview.1 hfind
    simp only [bind_eq_ok, require_eq_ok] at hget
    obtain ⟨-, -, hvalid⟩ := hget
    obtain rfl : stored = preview := by simpa using (h.previews_valid stored hmem).symm.trans hvalid
    exact hmem

lemma Consistent.createPreview (h : store.Consistent env.sanitize) (now : Instant)
    (preview : DocumentPreview) :
    Changes env store now (.createPreview preview) (store.createPreview preview).2 := by
  unfold HostedPreviewStore.createPreview
  split
  · exact .unchanged _
  · exact .unchanged _
  · rename_i checked hprepare
    simp only [prepareCreatePreview, bind_eq_ok, mapError_eq_ok] at hprepare
    obtain ⟨valid, hvalid, hprepare⟩ := hprepare
    split at hprepare
    · split at hprepare
      · cases hprepare
      · simp only [bind_eq_ok, pure_eq_ok] at hprepare
        obtain ⟨-, -, heq⟩ := hprepare
        cases heq
    · rename_i hcall
      simp only [bind_eq_ok, require_eq_ok, pure_eq_ok, Sum.inr.injEq] at hprepare
      obtain ⟨-, hid, -, -, rfl⟩ := hprepare
      have hself := DocumentPreview.validate_self hvalid
      obtain ⟨rfl, -⟩ := DocumentPreview.validate_eq_ok.1 hvalid
      refine .previewAdded _ _ hself (by simpa using hid) ?_
      intro p hp heq
      rw [h.call_index, List.find?_eq_none] at hcall
      simpa [heq] using hcall _ (List.mem_map_of_mem hp)

lemma Consistent.transitionPreview (h : store.Consistent env.sanitize) (now : Instant)
    (c : PreviewStoreCall Evidence) (scope : Scope) (previewId : UUID) (expected : Int)
    (target : PreviewState) (occurredAt : DateTime) :
    Changes env store now c
      (store.transitionPreview scope previewId expected target occurredAt).2 := by
  unfold HostedPreviewStore.transitionPreview
  split
  · exact .unchanged c
  · rename_i transitioned hprepare
    simp only [prepareTransitionPreview, bind_eq_ok, require_eq_ok, bne_iff_ne] at hprepare
    obtain ⟨preview, hget, -, -, -, htarget, htransition⟩ := hprepare
    exact .previewMoved c preview transitioned target (h.getPreview hget)
      (DocumentPreview.moved_of_transition htransition).1 htarget

lemma Consistent.createOperation (h : store.Consistent env.sanitize) (now : Instant)
    (operation : HostedOperation) (expected : Int) :
    Changes env store now (.operation (.createOperation operation expected)) { store with
      toInMemoryStore :=

    (store.toInMemoryStore.createOperation env.toStoreEnvironment now operation expected).2 } := by
  unfold InMemoryStore.createOperation
  split
  · exact .unchanged _
  · exact .unchanged _
  · rename_i confirmed checked hprepare
    simp only [InMemoryStore.prepareCreate, bind_eq_ok] at hprepare
    obtain ⟨valid, hvalid, hprepare⟩ := hprepare
    split at hprepare
    · cases hprepare
    · rename_i preview hfind
      split at hprepare
      · split at hprepare
        · cases hprepare
        · simp only [bind_eq_ok, pure_eq_ok] at hprepare
          obtain ⟨-, -, heq⟩ := hprepare
          cases heq
      · simp only [bind_eq_ok, require_eq_ok, pure_eq_ok, Sum.inr.injEq, Prod.mk.injEq,
          operationMatchesPreview_iff, beq_iff_eq, decide_eq_true_eq] at hprepare
        obtain ⟨-, hauthority, -, ⟨hconfirms, -, hcreated, -⟩, -, hfresh, -, hversion, -, hnow, _,
          htransition, rfl, rfl⟩ := hprepare
        exact .confirmed operation _ expected preview _ ⟨hvalid, (h.findPreview.1 hfind).1, hauthority,
          hconfirms, hcreated, hversion, hnow, by simpa using hfresh,
          (DocumentPreview.moved_of_transition htransition).1⟩

lemma Consistent.transitionOperation (h : store.Consistent env.sanitize) (now : Instant)
    (c : PreviewStoreCall Evidence) (scope : Scope) (operationId : UUID) (expected : Int)
    (targetState : String) (eventId : UUID) (occurredAt : Instant) (reason : String) :
    Changes env store now c { store with
      toInMemoryStore := (store.toInMemoryStore.transitionOperation env.toStoreEnvironment now scope
        operationId expected targetState eventId occurredAt reason).2 } := by
  unfold InMemoryStore.transitionOperation
  split
  · exact .unchanged c
  · rename_i transitioned hprepare
    simp only [InMemoryStore.prepareTransition, bind_eq_ok] at hprepare
    obtain ⟨op, hget, -, -, hprepare⟩ := hprepare
    obtain ⟨hmem, -⟩ := h.getOperation hget
    obtain ⟨-, hstable⟩ := HostedOperation.stable_of_validate (h.operations_valid op hmem)
    split at hprepare
    · cases hprepare
    · rename_i target _
      have htransition : op.transition env.sanitize target eventId (utc occurredAt) reason =
          .ok transitioned := by
        split at hprepare
        · split at hprepare
          · cases hprepare
          · simp only [bind_eq_ok] at hprepare
            obtain ⟨-, -, htransition⟩ := hprepare
            exact htransition
        · exact hprepare
      obtain ⟨-, timestamp, -, -, -, hvalid⟩ := transition_eq_ok.1 htransition
      obtain ⟨rfl, hself⟩ := HostedOperation.eq_of_validate (by exact hstable) hvalid
      exact .operationMoved c op _ hmem rfl rfl rfl fun _ => hself

lemma Consistent.transitionOperationItem (h : store.Consistent env.sanitize) (now : Instant)
    (scope : Scope) (operationId itemId : UUID) (expected : Int) (targetState : String)
    (eventId : UUID) (occurredAt : Instant) (reason : String) (result : Option String) :
    Changes env store now (.operation (.transitionOperationItem scope operationId itemId expected
        targetState eventId occurredAt reason result)) { store with
      toInMemoryStore := (store.toInMemoryStore.transitionOperationItem env.toStoreEnvironment scope
        operationId itemId expected targetState eventId occurredAt reason result).2 } := by
  unfold InMemoryStore.transitionOperationItem
  split
  · exact .unchanged _
  · rename_i transitioned hprepare
    simp only [InMemoryStore.prepareTransitionItem, bind_eq_ok] at hprepare
    obtain ⟨op, hget, hprepare⟩ := hprepare
    obtain ⟨hmem, -⟩ := h.getOperation hget
    obtain ⟨-, hstable⟩ := HostedOperation.stable_of_validate (h.operations_valid op hmem)
    split at hprepare
    · simp only [bind_eq_ok] at hprepare
      obtain ⟨-, -, hprepare⟩ := hprepare
      split at hprepare
      · cases hprepare
      · rename_i target _
        obtain ⟨-, item, -, -, -, timestamp, -, -, -, -, r, hr, -, hvalid⟩ :=
          transitionItem_eq_ok.1 hprepare
        obtain ⟨hshape, -⟩ := validate_ok hvalid
        refine .operationMoved _ op transitioned hmem (congrArg (·.toConfirmationBinding) hshape)
          (congrArg (·.operationId) hshape) (congrArg (·.createdAt) hshape) fun hsettled => ?_
        have hstable' : TextsStable env.sanitize (op.afterTransitionItem (op.itemIndexOf itemId) item
            target eventId timestamp reason r) := by
          intro other hother
          rcases List.mem_or_eq_of_mem_set hother with hother | rfl
          · exact hstable other hother
          · exact hsettled r hr
        obtain ⟨rfl, hself⟩ := HostedOperation.eq_of_validate hstable' hvalid
        exact hself
    · cases hprepare

/-- What any call does to the tables. -/
theorem Consistent.changes (h : store.Consistent env.sanitize) (now : Instant)
    (c : PreviewStoreCall Evidence) : Changes env store now c (store.call env now c).2 := by
  cases c with
  | createPreview preview => exact h.createPreview now preview
  | transitionPreview scope previewId expected target occurredAt =>
      exact h.transitionPreview now _ scope previewId expected target occurredAt
  | operation c =>
      cases c with
      | createOperation operation expected => exact h.createOperation now operation expected
      | transitionOperation scope operationId expected targetState eventId occurredAt reason =>
          exact h.transitionOperation now _ scope operationId expected targetState eventId occurredAt
            reason
      | transitionOperationItem scope operationId itemId expected targetState eventId occurredAt
          reason result =>
          exact h.transitionOperationItem now scope operationId itemId expected targetState eventId
            occurredAt reason result
  | findPreviewByProviderCall scope connectionId providerCallHash => exact .unchanged _
  | getPreview scope previewId => exact .unchanged _
  | loadConfirmable scope previewId expected evidence now => exact .unchanged _
  | getOperation scope operationId => exact .unchanged _

/-! ## Runs -/

/-- A preview that is confirmed already is saved only where its provider call is on record, so
that nothing is stored. -/
def SavesUnconfirmed (store : HostedPreviewStore) : PreviewStoreCall Evidence → Prop
  | .createPreview preview => preview.state = .confirmed →
      ∃ p ∈ store.previews, p.providerCall = preview.providerCall
  | _ => True

/-- Every call of the run meets the condition, in the state it is made in. -/
def RunSettled (env : PreviewEnvironment Evidence Payload)
    (calls : List (Instant × PreviewStoreCall Evidence)) : Prop :=
  Meets (HostedPreviewStore.answer env)
    (fun store c => store.SavesUnconfirmed c.2 ∧ TextSettled env.sanitize c.2) empty calls

/-- The store after a run. -/
def after (env : PreviewEnvironment Evidence Payload)
    (calls : List (Instant × PreviewStoreCall Evidence)) : HostedPreviewStore :=
  (trace (HostedPreviewStore.answer env) empty calls).2

lemma Consistent.call (h : store.Consistent env.sanitize) (now : Instant)
    (hsaves : store.SavesUnconfirmed c) (hsettled : TextSettled env.sanitize c) :
    (store.call env now c).2.Consistent env.sanitize := by
  have hchanges := h.changes now c
  generalize (store.call env now c).2 = store' at hchanges ⊢
  cases hchanges with
  | unchanged => exact h
  | previewAdded preview itemCalls valid new_id new_call =>
      refine h.addPreview valid new_id new_call (fun hstate => ?_) itemCalls
      obtain ⟨p, hp, heq⟩ := hsaves hstate
      exact new_call p hp heq
  | previewMoved _ preview preview' target mem moved not_confirmed =>
      exact h.movePreview mem moved not_confirmed
  | confirmed operation checked expected preview confirmed creates =>
      exact h.confirm creates.mem creates.moved
        (HostedOperation.validate_idem creates.confirms.stable creates.valid)
        (congrArg (·.previewId) creates.confirms.binding) creates.fresh
  | operationMoved _ op op' mem binding id created valid =>
      exact h.moveOperation mem id (congrArg (·.previewId) binding) (valid hsettled)

lemma consistent_empty : (empty : HostedPreviewStore).Consistent sanitize := by
  refine ⟨?_, ?_, rfl, ?_, ?_, ?_, rfl, ?_, ?_, ?_⟩ <;> simp [empty]

/-- The tables of the store after every run that meets the condition. -/
theorem RunSettled.consistent (h : RunSettled env calls) : (after env calls).Consistent env.sanitize :=
  trace_invariant (fun _ c hs hc => hs.call c.1 hc.1 hc.2) consistent_empty h

/-- What confirming `preview` relied on where `op` was created from it at `now`. -/
structure ConfirmedInTime (env : PreviewEnvironment Evidence Payload) (store : HostedPreviewStore)
    (now : Instant) (expected : Int) (op : HostedOperation) (preview : DocumentPreview) : Prop where
  mem : preview ∈ store.previews
  binding : op.toConfirmationBinding = preview.toConfirmationBinding
  state : preview.state = .awaitingConfirmation
  version : (preview.stateVersion : Int) = expected
  now_lt : now < preview.expiresAt
  created_lt : op.createdAt < preview.expiresAt
  authority : env.revalidateAuthority preview now = true

/-- An operation with the identity of `op` is on record. -/
def Holds (store : HostedPreviewStore) (op : HostedOperation) : Prop :=
  ∃ stored ∈ store.operations, stored.operationId = op.operationId ∧
    stored.toConfirmationBinding = op.toConfirmationBinding ∧ stored.createdAt = op.createdAt

/-- Only `create_operation` brings an operation into the store. -/
lemma Consistent.created (h : store.Consistent env.sanitize) (now : Instant)
    (hnew : ¬ store.Holds op) (hholds : (store.call env now c).2.Holds op) :
    ∃ operation expected preview, c = .operation (.createOperation operation expected) ∧
      operation.operationId = op.operationId ∧
      ConfirmedInTime env store now expected op preview := by
  have hchanges := h.changes now c
  generalize (store.call env now c).2 = store' at hchanges hholds
  obtain ⟨stored, hstored, hid, hbinding, hcreated⟩ := hholds
  cases hchanges with
  | unchanged | previewAdded | previewMoved =>
      exact absurd ⟨stored, hstored, hid, hbinding, hcreated⟩ hnew
  | confirmed operation checked expected preview confirmed creates =>
      rcases List.mem_append.1 hstored with hstored | hstored
      · exact absurd ⟨stored, hstored, hid, hbinding, hcreated⟩ hnew
      · obtain rfl := List.mem_singleton.1 hstored
        have hshape := (validate_ok creates.valid).1
        have hstate : preview.state = .awaitingConfirmation := by
          have := creates.moved.allowed
          cases hstate : preview.state <;> simp [hstate, previewTransitions] at this ⊢
        refine ⟨operation, expected, preview, rfl, (congrArg (·.operationId) hshape).symm.trans hid,
          creates.mem, ?_, hstate, creates.version, creates.now_lt, ?_, creates.authority⟩
        · exact hbinding.symm.trans creates.confirms.binding
        · rw [← hcreated]
          exact creates.created_lt
  | operationMoved _ moved op' mem binding id created valid =>
      rcases KeyedTable.mem_put hstored with rfl | ⟨hstored, -⟩
      · exact absurd ⟨moved, mem, id.symm.trans hid, binding.symm.trans hbinding,
          created.symm.trans hcreated⟩ hnew
      · exact absurd ⟨stored, hstored, hid, hbinding, hcreated⟩ hnew

/-- Every operation on record was created from a preview that was confirmed in time, from its
current version and under a current authority. -/
lemma RunSettled.confirmedInTime (h : RunSettled env calls)
    (hop : op ∈ (after env calls).operations) :
    ∃ before now operation expected rest preview,
      calls = before ++ (now, .operation (.createOperation operation expected)) :: rest ∧
        operation.operationId = op.operationId ∧
        ConfirmedInTime env (after env before) now expected op preview := by
  have hholds : (after env calls).Holds op := ⟨op, hop, rfl, rfl, rfl⟩
  rcases exists_call_of_trace (Q := fun store => HostedPreviewStore.Holds store op) hholds with
    ⟨stored, hstored, -⟩ | ⟨before, ⟨now, c⟩, rest, rfl, hbefore, hafter⟩
  · simp [empty] at hstored
  · have hconsistent : (after env before).Consistent env.sanitize :=
      RunSettled.consistent (Meets.of_append h)
    obtain ⟨operation, expected, preview, rfl, hid, hin⟩ := hconsistent.created now hbefore hafter
    exact ⟨before, now, operation, expected, rest, preview, rfl, hid, hin⟩

/-- The operation on record is returned to a repeated confirmation. -/
lemma Consistent.createOperation_again (h : store.Consistent env.sanitize) (now : Instant)
    {operation existing : HostedOperation} (expected : Int)
    (hvalid : operation.validate env.sanitize = .ok checked) (hmem : existing ∈ store.operations)
    (hsame : sameConfirmationIdentity existing checked = true) :
    store.call env now (.operation (.createOperation operation expected)) =
      (.ok (.operation existing), store) := by
  have hbinding : existing.toConfirmationBinding = checked.toConfirmationBinding := by
    simp only [sameConfirmationIdentity, Bool.and_eq_true, beq_iff_eq] at hsame
    exact hsame.1
  have hid : existing.previewId = checked.previewId := congrArg (·.previewId) hbinding
  obtain ⟨preview, hpreview, hpreviewId⟩ := h.bound existing hmem
  have hfindPreview := h.findPreview.2 ⟨hpreview, hpreviewId.trans hid⟩
  have hfindOperation := h.findOperation.2 ⟨hmem, rfl⟩
  have hprepare : store.toInMemoryStore.prepareCreate env.toStoreEnvironment now operation expected =
      .ok (.inl existing) := by
    simp only [InMemoryStore.prepareCreate, bind_eq_ok]
    refine ⟨checked, hvalid, ?_⟩
    simp only [hfindPreview, h.existing hmem hid, hfindOperation, bind_eq_ok, require_eq_ok,
      pure_eq_ok]
    exact ⟨(), hsame, trivial⟩
  simp only [HostedPreviewStore.call, InMemoryStore.call,
    InMemoryStore.createOperation_existing _ hprepare, h.operations_valid existing hmem, Except.map]

/-- A preview is confirmed once. -/
structure ConfirmationUnique (env : PreviewEnvironment Evidence Payload)
    (calls : List (Instant × PreviewStoreCall Evidence)) : Prop where
  provider_call : ((after env calls).previews.map (·.providerCall)).Nodup
  operation : ((after env calls).operations.map (·.previewId)).Nodup
  confirmed_iff : ∀ p ∈ (after env calls).previews, p.state = .confirmed ↔
    ((after env calls).operations.filter (·.previewId == p.previewId)).length = 1
  again : ∀ (now : Instant) (operation checked existing : HostedOperation) (expected : Int),
    operation.validate env.sanitize = .ok checked → existing ∈ (after env calls).operations →
      sameConfirmationIdentity existing checked = true →
        (after env calls).call env now (.operation (.createOperation operation expected)) =
          (.ok (.operation existing), after env calls)
  in_time : ∀ op ∈ (after env calls).operations,
    ∃ before now operation expected rest preview,
      calls = before ++ (now, .operation (.createOperation operation expected)) :: rest ∧
        operation.operationId = op.operationId ∧
        ConfirmedInTime env (after env before) now expected op preview

/-- Every run that saves no confirmed preview. -/
theorem confirmation_unique {calls : List (Instant × PreviewStoreCall Evidence)}
    (h : RunSettled env calls) : ConfirmationUnique env calls := by
  have hc := h.consistent
  refine ⟨hc.provider_calls, hc.operation_previews, fun p hp => ?_, ?_, ?_⟩
  · rw [hc.confirmed p hp]
    constructor
    · rintro ⟨op, hop, heq⟩
      have hone := KeyedTable.filter_key_eq hc.operation_previews hop
      simp only [heq, ← beq_eq_decide] at hone
      rw [hone, List.length_singleton]
    · intro hone
      obtain ⟨op, heq⟩ := List.length_eq_one_iff.1 hone
      have hmem : op ∈ [op] := List.mem_singleton.2 rfl
      rw [← heq, List.mem_filter] at hmem
      exact ⟨op, hmem.1, eq_of_beq hmem.2⟩
  · intro now operation checked existing expected hvalid hmem hsame
    exact hc.createOperation_again now expected hvalid hmem hsame
  · exact fun op hop => h.confirmedInTime hop

/-! ### A run on one preview -/

/-- `plainEnvironment` with every evidence current and nothing to open. -/
def plainPreviewEnvironment : PreviewEnvironment Unit Unit where
  toStoreEnvironment := plainEnvironment
  validateAuthority := fun _ _ _ => true
  openItems := fun _ _ => some []

/-- `twoDocuments` is saved and then confirmed. -/
def saveAndConfirm : List (Instant × PreviewStoreCall Unit) :=
  [(0, .createPreview twoDocuments), (60, .operation (.createOperation twoItemOperation 1))]

lemma createPreview_empty (h : preview.validate = .ok preview) :
    (empty.createPreview preview).2 =
      { empty with
        previews := [preview]
        previewProviderCalls := [(preview.providerCall, preview.previewId)]
        itemProviderCalls := preview.itemCalls } := by
  have hprepare : empty.prepareCreatePreview preview = .ok (.inr preview) := by
    simp [prepareCreatePreview, h, empty, bind, Except.bind, Except.mapError, require, pure,
      Except.pure]
  rw [createPreview_new hprepare]
  rfl

lemma call_createPreview_empty (h : preview.validate = .ok preview) (now : Instant) :
    (empty.call env now (.createPreview preview)).2 =
      { empty with
        previews := [preview]
        previewProviderCalls := [(preview.providerCall, preview.previewId)]
        itemProviderCalls := preview.itemCalls } :=
  createPreview_empty h

/-- The store after `twoDocuments` was saved. -/
def savedStore : HostedPreviewStore :=
  { empty with
    previews := [twoDocuments]
    previewProviderCalls := [(twoDocuments.providerCall, twoDocuments.previewId)]
    itemProviderCalls := twoDocuments.itemCalls }

lemma after_singleton (now : Instant) (c : PreviewStoreCall Evidence) :
    after env [(now, c)] = (empty.call env now c).2 := rfl

lemma after_pair (now now' : Instant) (c c' : PreviewStoreCall Evidence) :
    after env [(now, c), (now', c')] = ((empty.call env now c).2.call env now' c').2 := rfl

lemma operations_call_operation (store : HostedPreviewStore) (now : Instant) (c : StoreCall) :
    (store.call env now (.operation c)).2.operations =
      (store.toInMemoryStore.call env.toStoreEnvironment now c).2.operations := rfl

lemma runSettled_saveAndConfirm : RunSettled plainPreviewEnvironment saveAndConfirm := by
  simp only [RunSettled, saveAndConfirm, Meets, SavesUnconfirmed, TextSettled]
  simp [twoDocuments]

lemma operations_saveAndConfirm :
    (after plainPreviewEnvironment saveAndConfirm).operations = [twoItemOperation] := by
  have hvalid : twoDocuments.validate = .ok twoDocuments :=
    DocumentPreview.validate_eq_ok.2 ⟨rfl, wellFormed_twoDocuments⟩
  have hcreate : (InMemoryStore.initial [twoDocuments]).call plainEnvironment 60
      (.createOperation twoItemOperation 1) = (.ok twoItemOperation, confirmedStore) := call_create
  have hstore : savedStore.toInMemoryStore = .initial [twoDocuments] := rfl
  have henv : plainPreviewEnvironment.toStoreEnvironment = plainEnvironment := rfl
  rw [saveAndConfirm, after_pair, call_createPreview_empty hvalid, ← savedStore,
    operations_call_operation, hstore, henv, hcreate]
  rfl

theorem confirmation_unique_saveAndConfirm :
    ConfirmationUnique plainPreviewEnvironment saveAndConfirm ∧
      (after plainPreviewEnvironment saveAndConfirm).operations = [twoItemOperation] :=
  ⟨confirmation_unique runSettled_saveAndConfirm, operations_saveAndConfirm⟩

/-- A preview that is confirmed already. -/
def savedConfirmed : DocumentPreview :=
  confirmedPreview twoDocuments 60 (60 + confirmedPayloadRetention)

/-- It is saved as it is, with no operation that refers to it. -/
theorem confirmed_preview_saved :
    ∃ p ∈ (after plainPreviewEnvironment [(60, .createPreview savedConfirmed)]).previews,
      p.state = .confirmed ∧
        ((after plainPreviewEnvironment [(60, .createPreview savedConfirmed)]).operations.filter
          (·.previewId == p.previewId)).length ≠ 1 := by
  have hvalid : savedConfirmed.validate = .ok savedConfirmed :=
    DocumentPreview.validate_eq_ok.2
      ⟨rfl, createAccepted_twoDocuments.confirmable.wellFormed wellFormed_twoDocuments⟩
  rw [after_singleton, call_createPreview_empty hvalid]
  exact ⟨savedConfirmed, List.mem_singleton.2 rfl, rfl, by simp [empty]⟩

end HostedPreviewStore

end Hosted
end MercuryTools
