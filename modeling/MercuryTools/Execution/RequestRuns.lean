import MercuryTools.Execution.RequestLifecycle
import Mathlib.Order.Nat

/-!
# Runs of the request store

Whatever calls are made, in whatever order and at whatever times, starting from an empty store:
no two stored requests with the same payload hash block a replay (`replay_blocking_unique`),
and every stored request follows the lifecycle, is sent only after an approval of exactly what is
stored, and keeps what was previewed (`request_lifecycle`).
-/

namespace MercuryTools
namespace Execution

open Checks CallSystem

namespace RequestStore

/-- The stored requests. -/
def requests (store : RequestStore) : List PreparedRequest :=
  store.rows.map (·.request)

/-- The store after a sequence of calls. -/
def after (env : Environment) (repositoryId : String) (cs : List (Instant × StoreCall)) :
    RequestStore :=
  CallSystem.run (call env) (empty repositoryId) cs

end RequestStore

variable {env : Environment}

variable {store store' : RequestStore} {c : Instant × StoreCall} {row row' : RequestRow}
  {r r' : PreparedRequest} {repositoryId : String} {cs : List (Instant × StoreCall)}

/-- What a call leaves of a row that blocks a replay afterwards: it blocked before, or this call
started it while no other row with its hash blocked. -/
lemma RowChange.blocking (h : RowChange env store c row row')
    (hblocks : row'.request.state ∈ replayBlockingStates) :
    row.request.state ∈ replayBlockingStates ∨
      (c.2 = .startExecution row.request.requestId ∧ ∀ other ∈ store.rows,
        other.payloadHash = row.request.payloadHash → other.state ∈ replayBlockingStates →
          other.requestId = row.request.requestId) := by
  cases h.moves with
  | fail hpending hstate hcount =>
      rw [hstate] at hblocks
      simp [replayBlockingStates] at hblocks
  | approve hcall htime hawaiting hstate hcount =>
      rw [hstate] at hblocks
      simp [replayBlockingStates] at hblocks
  | start hcall hready hcount hfree hstate hcount' => exact .inr ⟨hcall, hfree⟩
  | complete hcall hexecuting hstate hcount =>
      rw [hexecuting]
      exact .inl (by decide)
  | resolve hcall hunknown hstate hcount =>
      rw [hunknown]
      exact .inl (by decide)

/-- Rows with the same hash that block a replay are the same row. -/
def ReplaySafe (store : RequestStore) : Prop :=
  ∀ a ∈ store.rows, ∀ b ∈ store.rows, a.request.payloadHash = b.request.payloadHash →
    a.request.state ∈ replayBlockingStates → b.request.state ∈ replayBlockingStates →
      a.request.requestId = b.request.requestId

/-- What a row that blocks after a change was before. -/
lemma StoreChange.blocking (h : StoreChange env store c store') (hrow' : row' ∈ store'.rows)
    (hblocks : row'.request.state ∈ replayBlockingStates) :
    ∃ row ∈ store.rows, row'.request.toPreview = row.request.toPreview ∧
      (row.request.state ∈ replayBlockingStates ∨
        (c.2 = .startExecution row.request.requestId ∧ ∀ other ∈ store.rows,
          other.payloadHash = row.request.payloadHash → other.state ∈ replayBlockingStates →
            other.requestId = row.request.requestId)) := by
  cases h with
  | created request hrows hvalid hfresh hstate hcount =>
      rw [hrows] at hrow'
      rcases List.mem_append.1 hrow' with hrow | hrow
      · exact ⟨row', hrow, rfl, .inl hblocks⟩
      · rw [List.mem_singleton.1 hrow] at hblocks
        change request.state ∈ replayBlockingStates at hblocks
        rw [hstate] at hblocks
        simp [replayBlockingStates] at hblocks
  | changed hrows =>
      obtain ⟨row, hrow, rfl | hchange⟩ := KeyedTable.exists_of_forall₂ hrows hrow'
      · exact ⟨row', hrow, rfl, .inl hblocks⟩
      · exact ⟨row, hrow, hchange.preview, hchange.blocking hblocks⟩

lemma StoreChange.replaySafe (h : StoreChange env store c store') (hsound : store.Sound env)
    (hsafe : ReplaySafe store) : ReplaySafe store' := by
  intro a' ha' b' hb' hhash ha'blocks hb'blocks
  obtain ⟨a, ha, hapre, hacase⟩ := h.blocking ha' ha'blocks
  obtain ⟨b, hb, hbpre, hbcase⟩ := h.blocking hb' hb'blocks
  rw [show a'.request.payloadHash = a.request.payloadHash from congrArg Preview.payloadHash hapre,
    show b'.request.payloadHash = b.request.payloadHash from congrArg Preview.payloadHash hbpre]
    at hhash
  rw [show a'.request.requestId = a.request.requestId from congrArg Preview.requestId hapre,
    show b'.request.requestId = b.request.requestId from congrArg Preview.requestId hbpre]
  rcases hacase with hablocks | ⟨hastart, hafree⟩ <;> rcases hbcase with hbblocks | ⟨hbstart, hbfree⟩
  · exact hsafe a ha b hb hhash hablocks hbblocks
  · rw [← hsound.id_eq ha]
    exact hbfree a ha (by rw [hsound.hash_eq ha, hhash]) (by rwa [hsound.state_eq ha])
  · rw [← hsound.id_eq hb]
    exact (hafree b hb (by rw [hsound.hash_eq hb, hhash]) (by rwa [hsound.state_eq hb])).symm
  · rw [hastart] at hbstart
    exact StoreCall.startExecution.inj hbstart

namespace RequestStore

lemma sound_after (repositoryId : String) (cs : List (Instant × StoreCall)) :
    (after env repositoryId cs).Sound env :=
  (sound_empty repositoryId).run cs

lemma replaySafe_after (repositoryId : String) (cs : List (Instant × StoreCall)) :
    ReplaySafe (after env repositoryId cs) := by
  refine (run_invariant (I := fun store => store.Sound env ∧ ReplaySafe store)
    (fun store c store' hs hcall => ?_) ⟨sound_empty repositoryId, ?_⟩ cs).2
  · have hchange := hs.1.call_change hcall
    exact ⟨hchange.sound hs.1, hchange.replaySafe hs.1 hs.2⟩
  · intro a ha
    simp [empty] at ha

/-- At most one stored request with a given payload hash is being executed, has succeeded or has
an unknown outcome. -/
theorem replay_blocking_unique (env : Environment) (repositoryId : String)
    (cs : List (Instant × StoreCall)) (payloadHash : String) :
    (after env repositoryId cs).requests.countP
      (fun r => r.payloadHash = payloadHash ∧ r.state ∈ replayBlockingStates) ≤ 1 := by
  have hsound : (after env repositoryId cs).Sound env := sound_after repositoryId cs
  have hsafe : ReplaySafe (after env repositoryId cs) := replaySafe_after repositoryId cs
  generalize after env repositoryId cs = store at hsound hsafe
  rw [requests, List.countP_map, List.countP_eq_length_filter]
  refine KeyedTable.length_le_one_of_key_eq
    (hsound.ids.sublist (List.filter_sublist.map (·.requestId))) fun a b ha hb => ?_
  obtain ⟨ha, hablocks⟩ := List.mem_filter.1 ha
  obtain ⟨hb, hbblocks⟩ := List.mem_filter.1 hb
  simp only [Function.comp_apply, decide_eq_true_eq] at hablocks hbblocks
  rw [hsound.id_eq ha, hsound.id_eq hb]
  exact hsafe a ha b hb (hablocks.1.trans hbblocks.1.symm) hablocks.2 hbblocks.2

end RequestStore

/-! ## The lifecycle -/

/-- One step of a stored request. -/
structure Follows (r r' : PreparedRequest) : Prop where
  preview : r'.toPreview = r.toPreview
  state : r'.state = r.state ∨ r'.state ∈ requestTransitions r.state
  approval_count : r.approvalCount ≤ r'.approvalCount
  terminal : r.state ∈ [.succeeded, .failed] → r' = r

/-- What a stored request may be at any later time. -/
structure Becomes (r r' : PreparedRequest) : Prop where
  preview : r'.toPreview = r.toPreview
  state : Relation.ReflTransGen (fun s t => t ∈ requestTransitions s) r.state r'.state
  approval_count : r.approvalCount ≤ r'.approvalCount
  terminal : r.state ∈ [.succeeded, .failed] → r' = r

/-- The statuses of a request that is ready to be sent, or has been. -/
def approvedStates : List RequestState :=
  [.readyToExecute, .executing, .succeeded, .outcomeUnknown]

/-- An accepted approval of exactly what is stored, before the preview expired. -/
def Approved (env : Environment) (repositoryId : String) (cs : List (Instant × StoreCall))
    (r : PreparedRequest) : Prop :=
  ∃ before now later store,
    cs = before ++ (now, .approve r.requestId r.payloadHash r.mutationClass) :: later ∧
      now < r.expiresAt ∧
      (RequestStore.after env repositoryId before).call env
        (now, .approve r.requestId r.payloadHash r.mutationClass) = .ok store

lemma Follows.refl (r : PreparedRequest) : Follows r r :=
  ⟨rfl, .inl rfl, le_rfl, fun _ => rfl⟩

lemma Follows.becomes (h : Follows r r') : Becomes r r' := by
  refine ⟨h.preview, ?_, h.approval_count, h.terminal⟩
  rcases h.state with hstate | hstate
  · rw [hstate]
  · exact .single hstate

lemma Becomes.refl (r : PreparedRequest) : Becomes r r := (Follows.refl r).becomes

lemma Becomes.trans {r'' : PreparedRequest} (h : Becomes r r') (h' : Becomes r' r'') :
    Becomes r r'' := by
  refine ⟨h'.preview.trans h.preview, h.state.trans h'.state,
    le_trans h.approval_count h'.approval_count, fun hterminal => ?_⟩
  have heq := h.terminal hterminal
  rw [← heq] at hterminal
  rw [h'.terminal hterminal, heq]

/-- An approval speaks about what was previewed only. -/
lemma Approved.congr (h : Approved env repositoryId cs r) (hpreview : r'.toPreview = r.toPreview) :
    Approved env repositoryId cs r' := by
  unfold Approved
  rwa [show r'.requestId = r.requestId from congrArg Preview.requestId hpreview,
    show r'.payloadHash = r.payloadHash from congrArg Preview.payloadHash hpreview,
    show r'.expiresAt = r.expiresAt from congrArg Preview.expiresAt hpreview,
    show r'.mutationClass = r.mutationClass from
      congrArg (fun p : Preview => p.mutationClass) hpreview]

lemma Approved.append (h : Approved env repositoryId cs r) (c : Instant × StoreCall) :
    Approved env repositoryId (cs ++ [c]) r := by
  obtain ⟨before, now, later, store, rfl, htime, hcall⟩ := h
  exact ⟨before, now, later ++ [c], store, by simp, htime, hcall⟩

/-- What is known of a stored request after the calls `cs`. -/
structure Vouched (env : Environment) (repositoryId : String) (cs : List (Instant × StoreCall))
    (r : PreparedRequest) : Prop where
  count_le : r.approvalCount ≤ 1
  count_eq : r.state ∈ approvedStates → r.approvalCount = 1
  approved : r.approvalCount = 1 → Approved env repositoryId cs r

lemma Vouched.append (h : Vouched env repositoryId cs r) (c : Instant × StoreCall) :
    Vouched env repositoryId (cs ++ [c]) r :=
  ⟨h.count_le, h.count_eq, fun hcount => (h.approved hcount).append c⟩

lemma RowChange.follows (h : RowChange env store c row row')
    (hcount : row.request.approvalCount ≤ 1) : Follows row.request row'.request := by
  cases h.moves with
  | fail hpending hstate hcount' =>
      refine ⟨h.preview, .inr ?_, hcount'.ge, fun hterminal => ?_⟩
      · rw [hstate]
        revert hpending
        cases row.request.state <;> decide
      · revert hpending hterminal
        cases row.request.state <;> simp [pendingStates]
  | approve hcall htime hawaiting hstate hcount' =>
      refine ⟨h.preview, .inr ?_, hcount'.symm ▸ hcount, fun hterminal => ?_⟩
      · simp [hstate, hawaiting, requestTransitions]
      · simp [hawaiting] at hterminal
  | start hcall hready hone hfree hstate hcount' =>
      refine ⟨h.preview, .inr ?_, hcount'.symm ▸ hcount, fun hterminal => ?_⟩
      · simp [hstate, hready, requestTransitions]
      · simp [hready] at hterminal
  | complete hcall hexecuting hstate hcount' =>
      refine ⟨h.preview, .inr ?_, hcount'.ge, fun hterminal => ?_⟩
      · rw [hexecuting]
        exact hstate
      · simp [hexecuting] at hterminal
  | resolve hcall hunknown hstate hcount' =>
      refine ⟨h.preview, .inr ?_, hcount'.ge, fun hterminal => ?_⟩
      · rw [hunknown]
        exact hstate
      · simp [hunknown] at hterminal

/-- A changed request is vouched for: an approval is the call just made, every other change keeps
the approval count. -/
lemma RowChange.vouched (h : RowChange env (RequestStore.after env repositoryId cs) c row row')
    (hcall : (RequestStore.after env repositoryId cs).call env c = .ok store')
    (hvouched : Vouched env repositoryId cs row.request) :
    Vouched env repositoryId (cs ++ [c]) row'.request := by
  have hkept (hcount : row'.request.approvalCount = row.request.approvalCount)
      (hone : row'.request.state ∈ approvedStates → row.request.approvalCount = 1) :
      Vouched env repositoryId (cs ++ [c]) row'.request := by
    refine ⟨hcount ▸ hvouched.count_le, fun hstate => hcount.trans (hone hstate), fun heq => ?_⟩
    exact ((hvouched.approved (hcount ▸ heq)).congr h.preview).append c
  cases h.moves with
  | fail hpending hstate hcount =>
      refine hkept hcount fun hsent => ?_
      simp [hstate, approvedStates] at hsent
  | approve hcall' htime hawaiting hstate hcount =>
      refine ⟨hcount.le, fun _ => hcount, fun _ => ?_⟩
      refine Approved.congr ?_ h.preview
      obtain ⟨now, call⟩ := c
      cases hcall'
      exact ⟨cs, now, [], store', rfl, htime, hcall⟩
  | start hcall' hready hone hfree hstate hcount => exact hkept (hcount.trans hone.symm) fun _ => hone
  | complete hcall' hexecuting hstate hcount =>
      exact hkept hcount fun _ => hvouched.count_eq (by simp [hexecuting, approvedStates])
  | resolve hcall' hunknown hstate hcount =>
      exact hkept hcount fun _ => hvouched.count_eq (by simp [hunknown, approvedStates])

namespace RequestStore

lemma vouched_after (repositoryId : String) (cs : List (Instant × StoreCall)) :
    ∀ row ∈ (after env repositoryId cs).rows, Vouched env repositoryId cs row.request := by
  let I (cs : List (Instant × StoreCall)) (store : RequestStore) : Prop :=
    ∀ row ∈ store.rows, Vouched env repositoryId cs row.request
  refine run_history (I := I) ?_ (fun cs c store' hs hcall row' hrow' => ?_)
    (fun cs c hs row hrow => (hs row hrow).append c) cs
  · intro row hrow
    simp [empty] at hrow
  · cases (sound_after repositoryId cs).call_change hcall with
    | created request hrows hvalid hfresh hstate hcount =>
        rw [hrows] at hrow'
        rcases List.mem_append.1 hrow' with hrow | hrow
        · exact (hs row' hrow).append c
        · rw [List.mem_singleton.1 hrow]
          change Vouched env repositoryId (cs ++ [c]) request
          refine ⟨by simp [hcount], fun hsent => ?_, fun hone => ?_⟩
          · simp [hstate, approvedStates] at hsent
          · simp [hcount] at hone
    | changed hrows =>
        obtain ⟨row, hrow, rfl | hchange⟩ := KeyedTable.exists_of_forall₂ hrows hrow'
        · exact (hs row' hrow).append c
        · exact hchange.vouched hcall (hs row hrow)

/-- One call: every stored request makes at most one step of the lifecycle, and what is new awaits
confirmation. -/
lemma call_follows (repositoryId : String) (cs : List (Instant × StoreCall))
    (c : Instant × StoreCall) :
    (∀ r ∈ (after env repositoryId cs).requests,
        ∃ r' ∈ (after env repositoryId (cs ++ [c])).requests, Follows r r') ∧
      ∀ r' ∈ (after env repositoryId (cs ++ [c])).requests,
        (∃ r ∈ (after env repositoryId cs).requests, Follows r r') ∨
          (r'.state = .awaitingConfirmation ∧ r'.approvalCount = 0) := by
  have hsound : (after env repositoryId cs).Sound env := sound_after repositoryId cs
  have hvouched : ∀ row ∈ (after env repositoryId cs).rows,
      Vouched env repositoryId cs row.request := vouched_after repositoryId cs
  rw [show after env repositoryId (cs ++ [c]) =
    attempt (call env) (after env repositoryId cs) c by simp [after, run_append]]
  generalize after env repositoryId cs = store at hsound hvouched
  rcases attempt_cases (call env) store c with hcall | hsame
  · generalize attempt (call env) store c = store' at hcall
    cases hsound.call_change hcall with
    | created request hrows hvalid hfresh hstate hcount =>
        simp only [requests, hrows, List.map_append, List.mem_append]
        refine ⟨fun r hr => ⟨r, .inl hr, Follows.refl r⟩, fun r' hr' => ?_⟩
        rcases hr' with hr' | hr'
        · exact .inl ⟨r', hr', Follows.refl r'⟩
        · rw [List.map_singleton, List.mem_singleton] at hr'
          subst hr'
          exact .inr ⟨hstate, hcount⟩
    | changed hrows =>
        have hfollows {row row' : RequestRow} (hrow : row ∈ store.rows)
            (hchange : row' = row ∨ RowChange env store c row row') :
            Follows row.request row'.request := by
          rcases hchange with rfl | hchange
          · exact Follows.refl _
          · exact hchange.follows (hvouched row hrow).count_le
        simp only [requests, List.mem_map, forall_exists_index, and_imp,
          forall_apply_eq_imp_iff₂]
        refine ⟨fun row hrow => ?_, fun row' hrow' => .inl ?_⟩
        · obtain ⟨row', hrow', hchange⟩ := KeyedTable.exists_of_forall₂ hrows.flip hrow
          exact ⟨row'.request, ⟨row', hrow', rfl⟩, hfollows hrow hchange⟩
        · obtain ⟨row, hrow, hchange⟩ := KeyedTable.exists_of_forall₂ hrows hrow'
          exact ⟨row.request, ⟨row, hrow, rfl⟩, hfollows hrow hchange⟩
  · rw [hsame]
    exact ⟨fun r hr => ⟨r, hr, Follows.refl r⟩, fun r hr => .inl ⟨r, hr, Follows.refl r⟩⟩

/-- What a stored request is after further calls. -/
lemma becomes_after (repositoryId : String) (cs later : List (Instant × StoreCall)) :
    ∀ r ∈ (after env repositoryId cs).requests,
      ∃ r' ∈ (after env repositoryId (cs ++ later)).requests, Becomes r r' := by
  induction later using List.reverseRecOn with
  | nil =>
      intro r hr
      rw [List.append_nil]
      exact ⟨r, hr, Becomes.refl r⟩
  | append_singleton later c ih =>
      intro r hr
      obtain ⟨r', hr', hbecomes⟩ := ih r hr
      obtain ⟨r'', hr'', hfollows⟩ := (call_follows repositoryId (cs ++ later) c).1 r' hr'
      rw [List.append_assoc] at hr''
      exact ⟨r'', hr'', hbecomes.trans hfollows.becomes⟩

/-- Stored requests have different identifiers, so that a request of one moment is the same
request at another where the previews are the same. -/
lemma nodup_requestId (repositoryId : String) (cs : List (Instant × StoreCall)) :
    ((after env repositoryId cs).requests.map (·.requestId)).Nodup := by
  have hsound : (after env repositoryId cs).Sound env := sound_after repositoryId cs
  rw [requests, List.map_map]
  have hids : (after env repositoryId cs).rows.map ((fun r => r.requestId) ∘ (·.request)) =
      (after env repositoryId cs).rows.map (·.requestId) :=
    List.map_congr_left fun row hrow => (hsound.id_eq hrow).symm
  rw [hids]
  exact hsound.ids

/-- The lifecycle of the stored requests after any sequence of calls:

* identifiers are unique, a request whose status says that it may be or was sent has approval
  count one, and a request with approval count one was approved with the hash and the mutation
  class stored for it before it expired;
* each call takes every stored request along at most one transition, and what it adds awaits
  confirmation without an approval;
* later a request still has what was previewed, is where transitions lead, keeps its approval,
  and is unchanged once it has succeeded or failed. -/
theorem request_lifecycle (env : Environment) (repositoryId : String)
    (cs : List (Instant × StoreCall)) :
    (((after env repositoryId cs).requests.map (·.requestId)).Nodup ∧
        ∀ r ∈ (after env repositoryId cs).requests, r.approvalCount ≤ 1 ∧
          (r.state ∈ approvedStates → r.approvalCount = 1) ∧
          (r.approvalCount = 1 → Approved env repositoryId cs r)) ∧
      (∀ c, (∀ r ∈ (after env repositoryId cs).requests,
          ∃ r' ∈ (after env repositoryId (cs ++ [c])).requests, Follows r r') ∧
        ∀ r' ∈ (after env repositoryId (cs ++ [c])).requests,
          (∃ r ∈ (after env repositoryId cs).requests, Follows r r') ∨
            (r'.state = .awaitingConfirmation ∧ r'.approvalCount = 0)) ∧
      ∀ later, ∀ r ∈ (after env repositoryId cs).requests,
        ∃ r' ∈ (after env repositoryId (cs ++ later)).requests, Becomes r r' := by
  refine ⟨⟨nodup_requestId repositoryId cs, fun r hr => ?_⟩, call_follows repositoryId cs,
    becomes_after repositoryId cs⟩
  obtain ⟨row, hrow, rfl⟩ := List.mem_map.1 hr
  have h := vouched_after repositoryId cs row hrow
  exact ⟨h.count_le, h.count_eq, h.approved⟩

end RequestStore

end Execution
end MercuryTools
