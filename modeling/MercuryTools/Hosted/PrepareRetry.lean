import MercuryTools.Framework.CallSystem
import MercuryTools.Hosted.ConfirmationUniqueness
import MercuryTools.Hosted.PreviewPreparation
import MercuryTools.Hosted.PreviewRoundTrip

/-!
# Repeated preparations

`prepare_document_create` from its first lookup on, with any number of calls interleaved on one
store.  A call looks the provider call up, saves the preview it has built where it found none,
and looks once more where the save has failed with a code that may hide a stored preview.  A
save is answered by the store, fails before it reaches the store, or takes effect and then
reports a failure; previews may be cancelled or expire in between.

The steps of a call are atomic on the store, which holds a lock in every method.  Connections
belong to one user of one workspace, which `_validate_connection` has checked before.
-/

namespace MercuryTools
namespace Hosted

open Checks CallSystem
open HostedPreviewStore (plainPreviewEnvironment)

/-- A preview built for an identity. -/
structure BuiltFor (scope : Scope) (connectionId : UUID)
    (providerCallHash previewIntegrityHash : String) (preview : DocumentPreview) : Prop where
  in_scope : preview.inScope scope = true
  connection : preview.connectionId = connectionId
  call_hash : preview.providerCallHash = providerCallHash
  integrity_hash : preview.previewIntegrityHash = previewIntegrityHash
  state : preview.state = .awaitingConfirmation

/-- What a call has derived when it first reads the store: the identity of its preview, and the
preview it would save.  `owner` gives the tenant, the user and the workspace of a connection. -/
structure PrepareCall (owner : UUID → Scope) where
  connectionId : UUID
  providerCallHash : String
  previewIntegrityHash : String
  built : Except String DocumentPreview
  bound : ∀ preview, built = .ok preview →
    BuiltFor (owner connectionId) connectionId providerCallHash previewIntegrityHash preview

/-- How an exception of the store reaches the service: as a `HostedPreviewError` with its code
or as any other one. -/
inductive StoreFailure where
  | hosted (code : String)
  | other
  deriving DecidableEq, Repr

/-- What becomes of a save. -/
inductive SaveOutcome where
  | answered
  | lost (failure : StoreFailure)
  | unreported (failure : StoreFailure)
  deriving DecidableEq, Repr

/-- Where a call stands: about to save, about to look once more, or done. -/
inductive PreparePhase where
  | saving (preview : DocumentPreview)
  | recovering (code : String)
  | returned (preview : DocumentPreview)
  | raised (code : String)
  deriving DecidableEq, Repr

def PreparePhase.finished : PreparePhase → Bool
  | .saving _ => false
  | .recovering _ => false
  | .returned _ => true
  | .raised _ => true

/-- The codes after which the provider call is looked up again. -/
def recoverableCodes : List String :=
  ["preview_store_unavailable", "preview_conflict", "duplicate_provider_call"]

/-- The handlers around `create_preview`. -/
def StoreFailure.phase : StoreFailure → PreparePhase
  | .hosted code => if code ∈ recoverableCodes then .recovering code else .raised code
  | .other => .raised "preview_store_unavailable"

/-- `_recover_existing`. -/
def recoverExisting (preview : DocumentPreview) (expectedIntegrityHash : String) : PreparePhase :=
  if preview.previewIntegrityHash = expectedIntegrityHash then .returned preview
  else .raised "duplicate_provider_call"

namespace PrepareCall

variable {owner : UUID → Scope} (call : PrepareCall owner) (store : HostedPreviewStore)

/-- The key of the call in the store. -/
def providerCall : ProviderCall :=
  ((owner call.connectionId).workspaceId, call.connectionId, call.providerCallHash)

/-- `_find_existing`. -/
def findExisting : Except String (Option DocumentPreview) :=
  match store.findPreviewByProviderCall (owner call.connectionId) call.connectionId
    call.providerCallHash with
  | .ok found => .ok found
  | .error code => if code = "preview_not_found" then .ok none else .error code

/-- The first lookup. -/
def lookUp : PreparePhase :=
  match call.findExisting store with
  | .error code => .raised code
  | .ok (some existing) => recoverExisting existing call.previewIntegrityHash
  | .ok none =>
      match call.built with
      | .error code => .raised code
      | .ok preview => .saving preview

/-- The lookup after a save that failed with `code`. -/
def lookUpAgain (code : String) : PreparePhase :=
  match call.findExisting store with
  | .error code => .raised code
  | .ok (some existing) => recoverExisting existing call.previewIntegrityHash
  | .ok none => .raised code

end PrepareCall

/-- Where a call stands when the store has answered its save. -/
def answeredPhase : Except String DocumentPreview → PreparePhase
  | .ok persisted => .returned persisted
  | .error code => StoreFailure.phase (.hosted code)

/-- The save of a built preview. -/
def savePreview (store : HostedPreviewStore) (preview : DocumentPreview) :
    SaveOutcome → PreparePhase × HostedPreviewStore
  | .answered => (answeredPhase (store.createPreview preview).1, (store.createPreview preview).2)
  | .lost failure => (failure.phase, store)
  | .unreported failure => (failure.phase, (store.createPreview preview).2)

/-! ## Runs -/

/-- The store and the calls that were made, in the order they began. -/
structure PrepareState (owner : UUID → Scope) where
  store : HostedPreviewStore
  calls : List (PrepareCall owner × PreparePhase)

/-- One step of one call, or a preview that is cancelled or expires. -/
inductive PrepareEvent (owner : UUID → Scope) where
  | begins (call : PrepareCall owner)
  | saves (i : Nat) (outcome : SaveOutcome)
  | recovers (i : Nat)
  | transitions (scope : Scope) (previewId : UUID) (expected : Int) (target : PreviewState)
      (occurredAt : DateTime)

variable {owner : UUID → Scope}

/-- A step is rejected where the call is not at that point. -/
def prepareStep (s : PrepareState owner) :
    PrepareEvent owner → Except Unit (PrepareState owner)
  | .begins call => .ok { s with calls := s.calls ++ [(call, call.lookUp s.store)] }
  | .saves i outcome =>
      match s.calls[i]? with
      | some (call, .saving preview) =>
          .ok { store := (savePreview s.store preview outcome).2
                calls := s.calls.set i (call, (savePreview s.store preview outcome).1) }
      | _ => .error ()
  | .recovers i =>
      match s.calls[i]? with
      | some (call, .recovering code) =>
          .ok { s with calls := s.calls.set i (call, call.lookUpAgain s.store code) }
      | _ => .error ()
  | .transitions scope previewId expected target occurredAt =>
      .ok { s with store := (s.store.transitionPreview scope previewId expected target
        occurredAt).2 }

/-- A new process: an empty store and no call. -/
def PrepareState.initial : PrepareState owner :=
  ⟨.empty, []⟩

/-- The state after the steps of a run. -/
def prepareRun (events : List (PrepareEvent owner)) : PrepareState owner :=
  run prepareStep .initial events

/-! ## The store between the steps -/

/-- Every preview on record stays there, with its binding. -/
def KeepsBindings (store store' : HostedPreviewStore) : Prop :=
  ∀ p ∈ store.previews, ∃ p' ∈ store'.previews,
    p'.toConfirmationBinding = p.toConfirmationBinding

/-- A preview on record belongs to the owner of its connection. -/
def Owned (owner : UUID → Scope) (store : HostedPreviewStore) : Prop :=
  ∀ p ∈ store.previews, p.inScope (owner p.connectionId) = true

section

variable {Evidence Payload : Type} {env : PreviewEnvironment Evidence Payload}
  {store store' : HostedPreviewStore} {now : Instant} {c : PreviewStoreCall Evidence}

lemma owned_of_binding {p p' : DocumentPreview}
    (h : p'.toConfirmationBinding = p.toConfirmationBinding)
    (howned : p.inScope (owner p.connectionId) = true) :
    p'.inScope (owner p'.connectionId) = true := by
  rw [DocumentPreview.inScope, h]
  exact howned

lemma keepsBindings_changes (h : store.Consistent env.sanitize)
    (hchanges : HostedPreviewStore.Changes env store now c store') :
    KeepsBindings store store' := by
  intro p hp
  have hput : ∀ preview preview' : DocumentPreview, preview ∈ store.previews →
      preview'.toConfirmationBinding = preview.toConfirmationBinding →
      ∃ p' ∈ KeyedTable.put (·.previewId) store.previews preview',
        p'.toConfirmationBinding = p.toConfirmationBinding := by
    intro preview preview' hmem hbinding
    have hid : preview'.previewId = preview.previewId := congrArg (·.previewId) hbinding
    by_cases hsame : p.previewId = preview.previewId
    · obtain rfl := KeyedTable.eq_of_key_eq h.preview_ids hp hmem hsame
      exact ⟨preview', KeyedTable.mem_put_self hp hid.symm, hbinding⟩
    · exact ⟨p, KeyedTable.mem_put_of_ne hp (by rwa [hid]), rfl⟩
  cases hchanges with
  | unchanged => exact ⟨p, hp, rfl⟩
  | previewAdded preview => exact ⟨p, List.mem_append_left _ hp, rfl⟩
  | previewMoved _ preview preview' _ mem moved => exact hput preview preview' mem moved.binding
  | confirmed _ _ _ preview confirmed creates =>
      exact hput preview confirmed creates.mem creates.moved.binding
  | operationMoved => exact ⟨p, hp, rfl⟩

/-- A preview comes on record by `create_preview` alone. -/
lemma owned_changes (hchanges : HostedPreviewStore.Changes env store now c store')
    (howned : Owned owner store)
    (hnew : ∀ preview, c = .createPreview preview →
      preview.inScope (owner preview.connectionId) = true) : Owned owner store' := by
  intro p hp
  cases hchanges with
  | unchanged => exact howned p hp
  | previewAdded preview =>
      rcases List.mem_append.1 hp with hp | hp
      · exact howned p hp
      · rw [List.mem_singleton.1 hp]
        exact hnew preview rfl
  | previewMoved _ preview preview' _ mem moved =>
      rcases KeyedTable.mem_put hp with rfl | ⟨hp, -⟩
      · exact owned_of_binding moved.binding (howned preview mem)
      · exact howned p hp
  | confirmed _ _ _ preview confirmed creates =>
      rcases KeyedTable.mem_put hp with rfl | ⟨hp, -⟩
      · exact owned_of_binding creates.moved.binding (howned preview creates.mem)
      · exact howned p hp
  | operationMoved => exact howned p hp

end

variable {sanitize : String → Option String} {store : HostedPreviewStore}

variable {key : ProviderCall} {store' : HostedPreviewStore} {call : PrepareCall owner}
  {p preview : DocumentPreview} {s : PrepareState owner}

/-- The preview that the index has for a provider call. -/
lemma find_providerCall (h : store.Consistent sanitize) {previewId : UUID} {found : ProviderCall}
    (hfind : store.previewProviderCalls.find? (·.1 == key) = some (found, previewId)) :
    ∃ p ∈ store.previews, p.providerCall = key ∧ store.findPreview previewId = some p := by
  have hmem := List.mem_of_find?_eq_some hfind
  have hkey : found = key := by simpa using List.find?_some hfind
  rw [h.call_index, List.mem_map] at hmem
  obtain ⟨p, hp, heq⟩ := hmem
  obtain ⟨hcall, hid⟩ := Prod.mk.inj heq
  exact ⟨p, hp, hcall.trans hkey, h.findPreview.2 ⟨hp, hid⟩⟩

lemma not_find_providerCall (h : store.Consistent sanitize)
    (hfind : store.previewProviderCalls.find? (·.1 == key) = none) :
    ∀ p ∈ store.previews, p.providerCall ≠ key := by
  intro p hp heq
  rw [h.call_index, List.find?_eq_none] at hfind
  simpa [heq] using hfind _ (List.mem_map_of_mem hp)

/-- A lookup finds the preview on record for the provider call, or there is none. -/
lemma findExisting_cases (h : store.Consistent sanitize) (howned : Owned owner store)
    (call : PrepareCall owner) :
    (∃ p ∈ store.previews, p.providerCall = call.providerCall ∧
        call.findExisting store = .ok (some p)) ∨
      (∀ p ∈ store.previews, p.providerCall ≠ call.providerCall) ∧
        call.findExisting store = .ok none := by
  cases hfind : store.previewProviderCalls.find? (·.1 == call.providerCall) with
  | none =>
      refine .inr ⟨not_find_providerCall h hfind, ?_⟩
      rw [PrepareCall.providerCall] at hfind
      simp only [PrepareCall.findExisting, HostedPreviewStore.findPreviewByProviderCall, hfind]
  | some row =>
      obtain ⟨p, hp, hcall, hpreview⟩ := find_providerCall h hfind
      refine .inl ⟨p, hp, hcall, ?_⟩
      have hconnection : p.connectionId = call.connectionId := congrArg (·.2.1) hcall
      have hscope := howned p hp
      rw [hconnection] at hscope
      rw [PrepareCall.providerCall] at hfind
      have hanswer : store.findPreviewByProviderCall (owner call.connectionId) call.connectionId
          call.providerCallHash = .ok (some p) := by
        simp only [HostedPreviewStore.findPreviewByProviderCall, hfind, hpreview, bind_eq_ok,
          require_eq_ok, pure_eq_ok, Option.some.injEq]
        exact ⟨(), hscope, p, h.previews_valid p hp, rfl⟩
      simp only [PrepareCall.findExisting, hanswer]

/-- What `create_preview` answers: the preview on record, the new one, or an error after which
the service looks again. -/
lemma createPreview_cases (h : store.Consistent sanitize) (preview : DocumentPreview) :
    (∃ p ∈ store.previews, store.createPreview preview = (.ok p, store) ∧
        p.providerCall = preview.providerCall ∧
        p.previewIntegrityHash = preview.previewIntegrityHash) ∨
      ((store.createPreview preview).1 = .ok preview ∧
        preview ∈ (store.createPreview preview).2.previews) ∨
      ∃ code ∈ recoverableCodes, store.createPreview preview = (.error code, store) := by
  cases hvalid : preview.validate with
  | error code =>
      refine .inr (.inr ⟨"preview_conflict", by decide,
        HostedPreviewStore.createPreview_error ?_⟩)
      simp [HostedPreviewStore.prepareCreatePreview, hvalid, bind, Except.bind, Except.mapError]
  | ok checked =>
      obtain ⟨rfl, -⟩ := DocumentPreview.validate_eq_ok.1 hvalid
      cases hfind : store.previewProviderCalls.find? (·.1 == checked.providerCall) with
      | some row =>
          obtain ⟨p, hp, hcall, hpreview⟩ := find_providerCall h hfind
          by_cases hhash : p.previewIntegrityHash = checked.previewIntegrityHash
          · have hprepare : store.prepareCreatePreview checked = .ok (.inl p) := by
              simp [HostedPreviewStore.prepareCreatePreview, hvalid, bind, Except.bind,
                Except.mapError, hfind, hpreview, hhash, pure, Except.pure]
            refine .inl ⟨p, hp, ?_, hcall, hhash⟩
            rw [HostedPreviewStore.createPreview_existing hprepare, h.previews_valid p hp]
          · refine .inr (.inr ⟨"duplicate_provider_call", by decide,
              HostedPreviewStore.createPreview_error ?_⟩)
            simp [HostedPreviewStore.prepareCreatePreview, hvalid, bind, Except.bind,
              Except.mapError, hfind, hpreview, hhash, require]
      | none =>
          cases hid : store.previews.any (·.previewId == checked.previewId) with
          | true =>
              refine .inr (.inr ⟨"preview_conflict", by decide,
                HostedPreviewStore.createPreview_error ?_⟩)
              simp [HostedPreviewStore.prepareCreatePreview, hvalid, bind, Except.bind,
                Except.mapError, hfind, hid, require]
          | false =>
              cases hitems : checked.itemCalls.any (· ∈ store.itemProviderCalls) with
              | true =>
                  refine .inr (.inr ⟨"duplicate_provider_call", by decide,
                    HostedPreviewStore.createPreview_error ?_⟩)
                  simp [HostedPreviewStore.prepareCreatePreview, hvalid, bind, Except.bind,
                    Except.mapError, hfind, hid, hitems, require]
              | false =>
                  have hprepare : store.prepareCreatePreview checked = .ok (.inr checked) := by
                    simp [HostedPreviewStore.prepareCreatePreview, hvalid, bind, Except.bind,
                      Except.mapError, hfind, hid, hitems, require, pure, Except.pure]
                  refine .inr (.inl ?_)
                  rw [HostedPreviewStore.createPreview_new hprepare]
                  exact ⟨hvalid, List.mem_append_right _ (List.mem_singleton.2 rfl)⟩

/-! ## What holds of the calls -/

/-- The preview a call saves is the one it built; the one it returns is on record, for the
identity of the call. -/
def PhaseSound (store : HostedPreviewStore) (call : PrepareCall owner) : PreparePhase → Prop
  | .saving preview => call.built = .ok preview
  | .recovering _ => True
  | .returned preview =>
      (∃ p ∈ store.previews, p.toConfirmationBinding = preview.toConfirmationBinding) ∧
        preview.providerCall = call.providerCall ∧
        preview.previewIntegrityHash = call.previewIntegrityHash
  | .raised _ => True

lemma PhaseSound.mono (hkeeps : KeepsBindings store store') {phase : PreparePhase}
    (h : PhaseSound store call phase) : PhaseSound store' call phase := by
  cases phase with
  | saving preview => exact h
  | recovering code => trivial
  | returned preview =>
      obtain ⟨⟨p, hp, hbinding⟩, hidentity⟩ := h
      obtain ⟨p', hp', hbinding'⟩ := hkeeps p hp
      exact ⟨⟨p', hp', hbinding'.trans hbinding⟩, hidentity⟩
  | raised code => trivial

/-- A finished call has raised `duplicate_provider_call` where the preview on record for its
provider call has another integrity hash. -/
def PhaseRefused (store : HostedPreviewStore) (call : PrepareCall owner) (phase : PreparePhase) :
    Prop :=
  phase.finished = true → ∀ p ∈ store.previews, p.providerCall = call.providerCall →
    p.previewIntegrityHash ≠ call.previewIntegrityHash → phase = .raised "duplicate_provider_call"

/-- The answer to a preview that was found. -/
lemma recoverExisting_spec (h : store.Consistent sanitize) (hp : p ∈ store.previews)
    (hcall : p.providerCall = call.providerCall) :
    PhaseSound store call (recoverExisting p call.previewIntegrityHash) ∧
      PhaseRefused store call (recoverExisting p call.previewIntegrityHash) := by
  unfold recoverExisting
  split
  · rename_i hhash
    refine ⟨⟨⟨p, hp, rfl⟩, hcall, hhash⟩, fun _ q hq hqcall hne => ?_⟩
    have hsame := KeyedTable.eq_of_key_eq h.provider_calls hq hp (hqcall.trans hcall.symm)
    exact absurd (hsame ▸ hhash) hne
  · exact ⟨trivial, fun _ _ _ _ _ => rfl⟩

lemma lookUp_spec (h : store.Consistent sanitize) (howned : Owned owner store)
    (call : PrepareCall owner) :
    PhaseSound store call (call.lookUp store) ∧ PhaseRefused store call (call.lookUp store) := by
  unfold PrepareCall.lookUp
  rcases findExisting_cases h howned call with ⟨p, hp, hcall, hfind⟩ | ⟨hnone, hfind⟩
  · rw [hfind]
    exact recoverExisting_spec h hp hcall
  · rw [hfind]
    have hrefused : ∀ phase, PhaseRefused store call phase :=
      fun _ _ p hp hcall => absurd hcall (hnone p hp)
    refine ⟨?_, hrefused _⟩
    cases hbuilt : call.built with
    | error code => trivial
    | ok preview => exact hbuilt

lemma lookUpAgain_spec (h : store.Consistent sanitize) (howned : Owned owner store)
    (call : PrepareCall owner) (code : String) :
    PhaseSound store call (call.lookUpAgain store code) ∧
      PhaseRefused store call (call.lookUpAgain store code) := by
  unfold PrepareCall.lookUpAgain
  rcases findExisting_cases h howned call with ⟨p, hp, hcall, hfind⟩ | ⟨hnone, hfind⟩
  · rw [hfind]
    exact recoverExisting_spec h hp hcall
  · rw [hfind]
    exact ⟨trivial, fun _ p hp hcall => absurd hcall (hnone p hp)⟩

/-- What a failed save reports. -/
def SaveOutcome.failure : SaveOutcome → Option StoreFailure
  | .answered => none
  | .lost failure => some failure
  | .unreported failure => some failure

lemma BuiltFor.providerCall
    (h : BuiltFor (owner call.connectionId) call.connectionId call.providerCallHash
      call.previewIntegrityHash preview) : preview.providerCall = call.providerCall := by
  have hscope := h.in_scope
  simp only [DocumentPreview.inScope, Bool.and_eq_true, beq_iff_eq] at hscope
  rw [DocumentPreview.providerCall, PrepareCall.providerCall, h.connection, h.call_hash, hscope.2]

lemma failure_phase_spec (call : PrepareCall owner) (failure : StoreFailure) :
    PhaseSound store call failure.phase := by
  cases failure with
  | hosted code =>
      by_cases hcode : code ∈ recoverableCodes
      · rw [StoreFailure.phase, if_pos hcode]
        trivial
      · rw [StoreFailure.phase, if_neg hcode]
        trivial
  | other => trivial

/-- A save of a built preview leaves the store in order, whatever is reported of it. -/
lemma createPreview_spec (h : store.Consistent plainPreviewEnvironment.sanitize)
    (howned : Owned owner store) (hbuilt : call.built = .ok preview) :
    (store.createPreview preview).2.Consistent plainPreviewEnvironment.sanitize ∧
      Owned owner (store.createPreview preview).2 ∧
      KeepsBindings store (store.createPreview preview).2 := by
  have hbound := call.bound preview hbuilt
  have hchanges := h.createPreview 0 preview
  refine ⟨h.call 0 (c := .createPreview preview) ?_ trivial, owned_changes hchanges howned ?_,
    keepsBindings_changes h hchanges⟩
  · intro hstate
    rw [hbound.state] at hstate
    cases hstate
  · rintro preview' heq
    obtain rfl := PreviewStoreCall.createPreview.inj heq
    rw [hbound.connection]
    exact hbound.in_scope

/-- A preview that the store has for a save is returned to the call. -/
lemma returned_spec (h : store.Consistent sanitize) (hbuilt : call.built = .ok preview)
    (hp : p ∈ store.previews) (hcall : p.providerCall = preview.providerCall)
    (hhash : p.previewIntegrityHash = preview.previewIntegrityHash) :
    PhaseSound store call (.returned p) ∧ PhaseRefused store call (.returned p) := by
  have hbound := call.bound preview hbuilt
  have hspec : PhaseSound store call (recoverExisting p call.previewIntegrityHash) ∧
      PhaseRefused store call (recoverExisting p call.previewIntegrityHash) :=
    recoverExisting_spec h hp (hcall.trans hbound.providerCall)
  rwa [recoverExisting, if_pos (hhash.trans hbound.integrity_hash)] at hspec

/-- What an answered save does to the call. -/
lemma answeredPhase_spec (h : store.Consistent plainPreviewEnvironment.sanitize)
    (howned : Owned owner store) (hbuilt : call.built = .ok preview) :
    PhaseSound (store.createPreview preview).2 call
        (answeredPhase (store.createPreview preview).1) ∧
      PhaseRefused (store.createPreview preview).2 call
        (answeredPhase (store.createPreview preview).1) := by
  obtain ⟨hsaved, -⟩ := createPreview_spec h howned hbuilt
  rcases createPreview_cases h preview with ⟨p, hp, heq, hcall, hhash⟩ | ⟨hok, hmem⟩ |
    ⟨code, hcode, heq⟩
  · rw [heq]
    exact returned_spec h hbuilt hp hcall hhash
  · rw [hok]
    exact returned_spec hsaved hbuilt hmem rfl rfl
  · rw [heq, answeredPhase, StoreFailure.phase, if_pos hcode]
    exact ⟨trivial, fun hfinished => nomatch hfinished⟩

/-- What a save does: the store stays in order and keeps its previews, and the call goes on
soundly; it is refused unless the save itself failed. -/
lemma savePreview_spec (h : store.Consistent plainPreviewEnvironment.sanitize)
    (howned : Owned owner store) (hbuilt : call.built = .ok preview) (outcome : SaveOutcome) :
    ((savePreview store preview outcome).2.Consistent plainPreviewEnvironment.sanitize ∧
      Owned owner (savePreview store preview outcome).2 ∧
      KeepsBindings store (savePreview store preview outcome).2) ∧
      PhaseSound (savePreview store preview outcome).2 call
        (savePreview store preview outcome).1 ∧
      (PhaseRefused (savePreview store preview outcome).2 call
          (savePreview store preview outcome).1 ∨
        ∃ failure, outcome.failure = some failure ∧
          (savePreview store preview outcome).1 = failure.phase) := by
  have hsaved := createPreview_spec h howned hbuilt
  cases outcome with
  | answered =>
      obtain ⟨hsound, hrefused⟩ := answeredPhase_spec h howned hbuilt
      exact ⟨hsaved, hsound, .inl hrefused⟩
  | lost failure =>
      exact ⟨⟨h, howned, fun p hp => ⟨p, hp, rfl⟩⟩, failure_phase_spec call failure,
        .inr ⟨failure, rfl, rfl⟩⟩
  | unreported failure =>
      exact ⟨hsaved, failure_phase_spec call failure, .inr ⟨failure, rfl, rfl⟩⟩

/-! ## From one step to a run -/

/-- The invariant of a run. -/
structure PrepareState.Safe (s : PrepareState owner) : Prop where
  consistent : s.store.Consistent plainPreviewEnvironment.sanitize
  owned : Owned owner s.store
  calls : ∀ c ∈ s.calls, PhaseSound s.store c.1 c.2

/-- The same calls on a store that has kept its previews. -/
lemma PrepareState.Safe.mono (h : s.Safe) (hkeeps : KeepsBindings s.store store') :
    ∀ c ∈ s.calls, PhaseSound store' c.1 c.2 :=
  fun c hc => (h.calls c hc).mono hkeeps

/-- What one step does: the invariant is kept, and a call that it finishes is refused where it
has to be, unless its own save failed. -/
lemma prepareStep_spec {s' : PrepareState owner} (h : s.Safe) {event : PrepareEvent owner}
    (hstep : prepareStep s event = .ok s') :
    s'.Safe ∧ ∀ i call phase, s'.calls[i]? = some (call, phase) →
      s.calls[i]? = some (call, phase) ∨ PhaseRefused s'.store call phase ∨
        ∃ outcome failure, event = .saves i outcome ∧ outcome.failure = some failure ∧
          phase = failure.phase := by
  cases event with
  | begins call =>
      obtain rfl := Except.ok.inj hstep
      obtain ⟨hsound, hrefused⟩ := lookUp_spec h.consistent h.owned call
      refine ⟨⟨h.consistent, h.owned, ?_⟩, fun i call' phase hi => ?_⟩
      · intro c hc
        rcases List.mem_append.1 hc with hc | hc
        · exact h.calls c hc
        · rw [List.mem_singleton.1 hc]
          exact hsound
      · rcases Nat.lt_trichotomy i s.calls.length with hlt | rfl | hgt
        · rw [List.getElem?_append_left hlt] at hi
          exact .inl hi
        · rw [List.getElem?_concat_length, Option.some.injEq] at hi
          obtain ⟨rfl, rfl⟩ := Prod.mk.inj hi
          exact .inr (.inl hrefused)
        · rw [List.getElem?_eq_none (by simpa using Nat.succ_le_of_lt hgt)] at hi
          cases hi
  | saves j outcome =>
      simp only [prepareStep] at hstep
      split at hstep
      · rename_i call preview hcall
        obtain rfl := Except.ok.inj hstep
        have hbuilt : call.built = .ok preview := h.calls _ (List.mem_of_getElem? hcall)
        obtain ⟨⟨hconsistent, howned, hkeeps⟩, hsound, hrefused⟩ :=
          savePreview_spec h.consistent h.owned hbuilt outcome
        refine ⟨⟨hconsistent, howned, ?_⟩, fun i call' phase hi => ?_⟩
        · intro c hc
          rcases List.mem_or_eq_of_mem_set hc with hc | rfl
          · exact h.mono hkeeps c hc
          · exact hsound
        · by_cases hij : j = i
          · subst hij
            rw [List.getElem?_set_self (List.getElem?_eq_some_iff.1 hcall).1,
              Option.some.injEq] at hi
            obtain ⟨rfl, rfl⟩ := Prod.mk.inj hi
            rcases hrefused with hrefused | ⟨failure, hfailure, hphase⟩
            · exact .inr (.inl hrefused)
            · exact .inr (.inr ⟨outcome, failure, rfl, hfailure, hphase⟩)
          · rw [List.getElem?_set_ne hij] at hi
            exact .inl hi
      · cases hstep
  | recovers j =>
      simp only [prepareStep] at hstep
      split at hstep
      · rename_i call code hcall
        obtain rfl := Except.ok.inj hstep
        obtain ⟨hsound, hrefused⟩ := lookUpAgain_spec h.consistent h.owned call code
        refine ⟨⟨h.consistent, h.owned, ?_⟩, fun i call' phase hi => ?_⟩
        · intro c hc
          rcases List.mem_or_eq_of_mem_set hc with hc | rfl
          · exact h.calls c hc
          · exact hsound
        · by_cases hij : j = i
          · subst hij
            rw [List.getElem?_set_self (List.getElem?_eq_some_iff.1 hcall).1,
              Option.some.injEq] at hi
            obtain ⟨rfl, rfl⟩ := Prod.mk.inj hi
            exact .inr (.inl hrefused)
          · rw [List.getElem?_set_ne hij] at hi
            exact .inl hi
      · cases hstep
  | transitions scope previewId expected target occurredAt =>
      obtain rfl := Except.ok.inj hstep
      have hchanges := h.consistent.transitionPreview 0
        (.transitionPreview scope previewId expected target occurredAt) scope previewId expected
        target occurredAt
      have hconsistent := h.consistent.call 0
        (c := .transitionPreview scope previewId expected target occurredAt) trivial trivial
      refine ⟨⟨hconsistent, owned_changes hchanges h.owned (fun _ heq => nomatch heq),
        h.mono (keepsBindings_changes h.consistent hchanges)⟩, fun i call phase hi => .inl hi⟩

lemma safe_initial : (PrepareState.initial : PrepareState owner).Safe :=
  ⟨HostedPreviewStore.consistent_empty, (fun _ hp => nomatch hp), fun _ hc => nomatch hc⟩

/-- The invariant holds after every run. -/
theorem safe_prepareRun (events : List (PrepareEvent owner)) : (prepareRun events).Safe :=
  run_invariant (fun _ _ _ h hstep => (prepareStep_spec h hstep).1) safe_initial events

/-- A call that finishes while another integrity hash is on record for its provider call has
raised `duplicate_provider_call`, or it is excused. -/
def RefusesOthers (events : List (PrepareEvent owner))
    (excused : PrepareEvent owner → Nat → PreparePhase → Prop) : Prop :=
  ∀ before event rest i call phase, events = before ++ event :: rest →
    (prepareRun before).calls[i]? ≠ some (call, phase) →
    (prepareRun (before ++ [event])).calls[i]? = some (call, phase) → phase.finished = true →
    ∀ p ∈ (prepareRun (before ++ [event])).store.previews, p.providerCall = call.providerCall →
      p.previewIntegrityHash ≠ call.previewIntegrityHash →
        phase = .raised "duplicate_provider_call" ∨ excused event i phase

/-- The step is the save of the call, which failed and reported `phase`. -/
def SaveFailed (event : PrepareEvent owner) (i : Nat) (phase : PreparePhase) : Prop :=
  ∃ outcome failure, event = .saves i outcome ∧ outcome.failure = some failure ∧
    phase = failure.phase

/-- One preview for a document request. -/
structure RetrySafe (events : List (PrepareEvent owner)) : Prop where
  same_preview : ∀ call call' preview preview',
    (call, .returned preview) ∈ (prepareRun events).calls →
    (call', .returned preview') ∈ (prepareRun events).calls →
      call.providerCall = call'.providerCall → preview.previewId = preview'.previewId
  returned_own : ∀ call preview, (call, .returned preview) ∈ (prepareRun events).calls →
    ∃ p ∈ (prepareRun events).store.previews, p.previewId = preview.previewId ∧
      p.providerCall = call.providerCall ∧ p.previewIntegrityHash = call.previewIntegrityHash
  one_stored : ((prepareRun events).store.previews.map (·.providerCall)).Nodup
  refused : RefusesOthers events SaveFailed

theorem retrySafe (events : List (PrepareEvent owner)) : RetrySafe events := by
  have hsafe := safe_prepareRun events
  have hown : ∀ call preview, (call, .returned preview) ∈ (prepareRun events).calls →
      ∃ p ∈ (prepareRun events).store.previews, p.previewId = preview.previewId ∧
        p.providerCall = call.providerCall ∧
        p.previewIntegrityHash = call.previewIntegrityHash := by
    intro call preview hmem
    obtain ⟨⟨p, hp, hbinding⟩, hcall, hhash⟩ := hsafe.calls _ hmem
    refine ⟨p, hp, congrArg (·.previewId) hbinding, ?_,
      (congrArg (·.previewIntegrityHash) hbinding).trans hhash⟩
    rw [← hcall, DocumentPreview.providerCall, hbinding]
    rfl
  refine ⟨?_, hown, hsafe.consistent.provider_calls, ?_⟩
  · intro call call' preview preview' hmem hmem' hcall
    obtain ⟨p, hp, hid, hpcall, -⟩ := hown call preview hmem
    obtain ⟨p', hp', hid', hpcall', -⟩ := hown call' preview' hmem'
    obtain rfl := KeyedTable.eq_of_key_eq hsafe.consistent.provider_calls hp hp'
      (hpcall.trans (hcall.trans hpcall'.symm))
    exact hid.symm.trans hid'
  · rintro before event rest i call phase - hbefore hafter hfinished p hp hcall hhash
    have hrun : prepareRun (before ++ [event]) = attempt prepareStep (prepareRun before) event := by
      rw [prepareRun, run_append]
      rfl
    rw [hrun] at hafter hp
    rcases attempt_cases prepareStep (prepareRun before) event with hok | hsame
    · obtain ⟨-, hspec⟩ := prepareStep_spec (safe_prepareRun before) hok
      rcases hspec i call phase hafter with hold | hrefused | hfailed
      · exact absurd hold hbefore
      · exact .inl (hrefused hfinished p hp hcall hhash)
      · exact .inr hfailed
    · rw [hsame] at hafter
      exact absurd hafter hbefore

/-! ### A save that fails unexpectedly -/

/-- The owner of every connection. -/
def soleOwner : UUID → Scope :=
  fun _ => ⟨2, 3, 4⟩

/-- A call that would save `preview`. -/
def callFor (preview : DocumentPreview) (h : BuiltFor (soleOwner preview.connectionId)
    preview.connectionId preview.providerCallHash preview.previewIntegrityHash preview) :
    PrepareCall soleOwner where
  connectionId := preview.connectionId
  providerCallHash := preview.providerCallHash
  previewIntegrityHash := preview.previewIntegrityHash
  built := .ok preview
  bound := by
    rintro _ heq
    obtain rfl := Except.ok.inj heq
    exact h

/-- `twoDocuments`, prepared again when the company has another name. -/
def renamedDocuments : DocumentPreview :=
  { twoDocuments with previewId := 20, previewIntegrityHash := hashOf '8' }

/-- Two calls, of which the second one loses its save. -/
lemma run_lostSave {q : DocumentPreview}
    {hp : BuiltFor (soleOwner p.connectionId) p.connectionId p.providerCallHash
      p.previewIntegrityHash p}
    {hq : BuiltFor (soleOwner q.connectionId) q.connectionId q.providerCallHash
      q.previewIntegrityHash q} :
    prepareRun [.begins (callFor p hp), .begins (callFor q hq), .saves 0 .answered] =
      ⟨(HostedPreviewStore.empty.createPreview p).2,
        [(callFor p hp, answeredPhase (HostedPreviewStore.empty.createPreview p).1),
          (callFor q hq, .saving q)]⟩ ∧
    prepareRun [.begins (callFor p hp), .begins (callFor q hq), .saves 0 .answered,
        .saves 1 (.lost .other)] =
      ⟨(HostedPreviewStore.empty.createPreview p).2,
        [(callFor p hp, answeredPhase (HostedPreviewStore.empty.createPreview p).1),
          (callFor q hq, .raised "preview_store_unavailable")]⟩ :=
  ⟨rfl, rfl⟩

/-- Both calls find nothing; the save of the second one fails after the first one has saved. -/
def lateFailure : List (PrepareEvent soleOwner) :=
  [.begins (callFor twoDocuments ⟨rfl, rfl, rfl, rfl, rfl⟩),
    .begins (callFor renamedDocuments ⟨rfl, rfl, rfl, rfl, rfl⟩), .saves 0 .answered,
    .saves 1 (.lost .other)]

lemma calls_lateFailure : (prepareRun lateFailure).calls[1]? =
    some (callFor renamedDocuments ⟨rfl, rfl, rfl, rfl, rfl⟩,
      .raised "preview_store_unavailable") := by
  rw [lateFailure, run_lostSave.2]
  rfl

lemma previews_lateFailure : (prepareRun lateFailure).store.previews = [twoDocuments] := by
  have hvalid : twoDocuments.validate = .ok twoDocuments :=
    DocumentPreview.validate_eq_ok.2 ⟨rfl, wellFormed_twoDocuments⟩
  rw [lateFailure, run_lostSave.2, HostedPreviewStore.createPreview_empty hvalid]

/-- The second call raises another code, although the preview on record has another hash. -/
theorem lateFailure_not_refused : ¬ RefusesOthers lateFailure fun _ _ _ => False := by
  intro h
  have hmem : twoDocuments ∈ (prepareRun lateFailure).store.previews := by
    rw [previews_lateFailure]
    exact List.mem_singleton.2 rfl
  have hbefore : (prepareRun (lateFailure.take 3)).calls[1]? ≠
      some (callFor renamedDocuments ⟨rfl, rfl, rfl, rfl, rfl⟩,
        .raised "preview_store_unavailable") := by
    have hsaving : (prepareRun (lateFailure.take 3)).calls = _ := congrArg (·.calls) run_lostSave.1
    simp [hsaving]
  have hhash : twoDocuments.previewIntegrityHash ≠ renamedDocuments.previewIntegrityHash := by
    simp [twoDocuments, renamedDocuments, hashOf]
  have hsplit : lateFailure = lateFailure.take 3 ++ [.saves 1 (.lost .other)] := rfl
  have hcalls := calls_lateFailure
  rw [hsplit] at hmem hcalls
  rcases h (lateFailure.take 3) (.saves 1 (.lost .other)) [] 1 _ _ hsplit hbefore hcalls rfl
    twoDocuments hmem rfl hhash with hcode | hfalse
  · simp at hcode
  · exact hfalse

/-! ## The documents of a request -/

section

open Documents

variable {Evidence Arguments : Type}

/-- The call for the documents of a request, under what the service has resolved. -/
def documentsCall (env : ConfirmationEnvironment Evidence Arguments)
    (authority : PreparationAuthority) (input : PreparationInput Arguments)
    (documents : List (PreparedDocument Arguments)) (identity : PreviewIdentity)
    (h : owner authority.connectionId =
      ⟨authority.tenantId, authority.authUserId, authority.workspaceId⟩) : PrepareCall owner where
  connectionId := authority.connectionId
  providerCallHash := identity.providerCallHash
  previewIntegrityHash := identity.previewIntegrityHash
  built := (buildPreview env authority input documents identity).map (·.summary)
  bound := by
    intro preview hbuilt
    cases hresult : buildPreview env authority input documents identity with
    | error code => simp [hresult, Except.map] at hbuilt
    | ok full =>
        simp only [hresult, Except.map, Except.ok.injEq] at hbuilt
        simp only [buildPreview, bind_eq_ok] at hresult
        obtain ⟨-, -, hvalid⟩ := hresult
        obtain ⟨-, displayName, items, -, -, hfull, -⟩ :=
          Documents.DocumentPreview.validate_eq_ok.1 hvalid
        rw [← hbuilt, hfull]
        refine ⟨?_, rfl, rfl, rfl, rfl⟩
        rw [h]
        simp [DocumentPreview.inScope, Documents.DocumentPreview.summary, assemblePreview]

end

end Hosted
end MercuryTools
