import MercuryTools.Execution.AuditTrail

/-!
# The ledger and the sends

When is every send preceded in the ledger by the `approval_recorded` and the `dispatch_started`
row of its request?  The second always is, and no request is sent twice.  The first is not: an
approval is committed before its row is recorded, and `confirm_write` records another row.
`audit_precedes_dispatch` says that it is in every run in which no request is started while a
method has committed an approval of it that is not in the ledger (`StartsAudited`).
-/

namespace MercuryTools
namespace Execution

open Checks Programs RequestStore

variable {env : Environment}

/-! ## The approval row -/

/-- No request is started while a method has committed an approval of it that is not in the
ledger. -/
def StartsAudited (p p' : ExecutorPool) : Prop :=
  ∀ requestId, p.shared.store.HasState requestId (· = .readyToExecute) →
    p'.shared.store.HasState requestId (· = .executing) →
      ∀ l ∈ points p, ¬ l.unaudited requestId

variable {store store' : RequestStore} {c : Instant × StoreCall} {l : Progress} {call : StoreCall}
  {requestId repositoryId : String} {row : AuditRow} {trace : List Observation} {i : Nat}
  {p : ExecutorPool} {now : Instant}

/-- Where an approved request comes from. -/
lemma StoreChange.approved (h : StoreChange env store c store') {row' : RequestRow}
    (hrow' : row' ∈ store'.rows) (hcount : row'.request.approvalCount = 1) :
    row'.request.state = .failed ∨
      (∃ payloadHash expectedClass,
        c.2 = .approve row'.request.requestId payloadHash expectedClass) ∨
      ∃ row ∈ store.rows, row.request.requestId = row'.request.requestId ∧
        row.request.approvalCount = 1 ∧ row.request.state ≠ .failed := by
  have hkept (row : RequestRow) (hrow : row ∈ store.rows)
      (h : row' = row ∨ RowChange env store c row row') : row'.request.state = .failed ∨
      (∃ payloadHash expectedClass,
        c.2 = .approve row'.request.requestId payloadHash expectedClass) ∨
      ∃ row ∈ store.rows, row.request.requestId = row'.request.requestId ∧
        row.request.approvalCount = 1 ∧ row.request.state ≠ .failed := by
    rcases h with rfl | hchange
    · by_cases hfailed : row'.request.state = .failed
      · exact .inl hfailed
      · exact .inr (.inr ⟨row', hrow, rfl, hcount, hfailed⟩)
    · have hid : row'.request.requestId = row.request.requestId :=
        congrArg Preview.requestId hchange.preview
      cases hchange.moves with
      | fail _ hstate => exact .inl hstate
      | approve hcall => exact .inr (.inl ⟨_, _, hid ▸ hcall⟩)
      | start _ hready hcount' =>
          exact .inr (.inr ⟨row, hrow, hid.symm, hcount', by simp [hready]⟩)
      | complete _ hexecuting _ hcount' =>
          exact .inr (.inr ⟨row, hrow, hid.symm, hcount' ▸ hcount, by simp [hexecuting]⟩)
      | resolve _ hunknown _ hcount' =>
          exact .inr (.inr ⟨row, hrow, hid.symm, hcount' ▸ hcount, by simp [hunknown]⟩)
  cases h with
  | created request hrows hvalid hfresh hstate hcount' =>
      rw [hrows, List.mem_append, List.mem_singleton] at hrow'
      rcases hrow' with hrow' | rfl
      · exact hkept row' hrow' (.inl rfl)
      · rw [show (rowOf request).request.approvalCount = 0 from hcount'] at hcount
        cases hcount
  | changed hrows =>
      obtain ⟨row, hrow, hchange⟩ := KeyedTable.exists_of_forall₂ hrows hrow'
      exact hkept row hrow hchange

/-- An approval that is not in the ledger stays so over a call of the store, unless the request is
invalidated. -/
lemma Progress.unaudited_store (hallowed : effectAllowed l (.store call))
    (answer : Answer (.store call)) (h : l.unaudited requestId) :
    l.next (.store call) answer = l ∨ ∃ reason, call = .invalidate requestId reason := by
  cases call with
  | approve | startExecution =>
      rw [show l = .idle from hallowed] at h
      rcases h with h | h <;> cases h
  | complete id outcome summary =>
      obtain ⟨-, -, hmay⟩ := hallowed
      rcases h with rfl | rfl <;> exact hmay.elim
  | invalidate id reason =>
      by_cases hid : id = requestId
      · exact .inr ⟨reason, by rw [hid]⟩
      · rcases h with rfl | rfl <;> simp [Progress.next, Progress.withdrawn, hid]
  | _ => exact .inl rfl

lemma Progress.of_unaudited_recorded {recorded : Bool}
    (h : (l.recorded row recorded).unaudited requestId) : l.unaudited requestId := by
  cases l with
  | approved id =>
      simp only [Progress.recorded] at h
      split_ifs at h <;> rcases h with h | h <;> cases h <;> exact .inl rfl
  | started id =>
      simp only [Progress.recorded] at h
      split_ifs at h <;> rcases h with h | h <;> cases h
  | _ => exact h

/-- A method comes to hold an unrecorded approval only by approving. -/
lemma Progress.of_unaudited_store {answer : Answer (.store call)}
    (h : (l.next (.store call) answer).unaudited requestId) : l.unaudited requestId ∨
      ∃ id payloadHash expectedClass, call = .approve id payloadHash expectedClass ∧
        ((∃ request, answer = .ok (some request) ∧ request.requestId = requestId) ∨
          (∃ failure, answer = .error failure) ∧ id = requestId) := by
  cases call with
  | approve id payloadHash expectedClass =>
      match answer with
      | .ok (some request) =>
          rcases h with h | h <;> cases h
          exact .inr ⟨id, payloadHash, expectedClass, rfl, .inl ⟨request, rfl, rfl⟩⟩
      | .error ⟨code, .late⟩ =>
          rcases h with h | h <;> cases h
          exact .inr ⟨_, payloadHash, expectedClass, rfl, .inr ⟨⟨_, rfl⟩, rfl⟩⟩
      | .ok none | .error ⟨_, .refused⟩ | .error ⟨_, .unavailable⟩ => exact .inl h
  | startExecution id =>
      match answer with
      | .ok (some _) | .error ⟨_, .late⟩ => rcases h with h | h <;> cases h
      | .ok none | .error ⟨_, .refused⟩ | .error ⟨_, .unavailable⟩ => exact .inl h
  | complete id outcome summary =>
      simp only [Progress.next] at h
      split_ifs at h <;> rcases h with h | h <;> cases h
  | invalidate id reason =>
      simp only [Progress.next, Progress.withdrawn] at h
      cases l <;> dsimp only at h <;> split_ifs at h <;>
        first | exact .inl h | (rcases h with h | h <;> cases h)
  | _ => exact .inl h

/-- What the store, the trace and the points say about approvals. -/
structure ApprovalAudited (store : RequestStore) (points : List Progress)
    (trace : List Observation) : Prop where
  approved : ∀ row ∈ store.rows, row.request.approvalCount = 1 →
    row.request.state = .failed ∨ (∃ l ∈ points, l.unaudited row.request.requestId) ∨
      Recorded trace "approval_recorded" row.request.requestId
  started : ∀ l ∈ points, ∀ requestId, l.owner = some requestId →
    Recorded trace "approval_recorded" requestId ∧
      ¬ Unrecorded trace "approval_recorded" requestId ∧
      ∀ m ∈ points, ¬ m.unaudited requestId
  unapproved : ∀ requestId, Unrecorded trace "approval_recorded" requestId →
    .unapproved requestId ∈ points ∨ store.HasState requestId (· = .failed)
  precedes : Precedes "approval_recorded" trace

lemma ApprovalAudited.spawned {points : List Progress} (h : ApprovalAudited store points trace) :
    ApprovalAudited store (points ++ [.idle]) trace := by
  have hmem (l : Progress) (hl : l ∈ points ++ [.idle]) : l ∈ points ∨ l = .idle := by
    simpa using hl
  refine ⟨fun row hrow hcount => ?_, fun l hl id howner => ?_, fun id hid => ?_, h.precedes⟩
  · rcases h.approved row hrow hcount with hfailed | ⟨l, hl, hunaudited⟩ | hrecorded
    · exact .inl hfailed
    · exact .inr (.inl ⟨l, List.mem_append_left _ hl, hunaudited⟩)
    · exact .inr (.inr hrecorded)
  · rcases hmem l hl with hl | rfl
    · obtain ⟨hrecorded, hunrecorded, hnone⟩ := h.started l hl id howner
      refine ⟨hrecorded, hunrecorded, fun m hm => ?_⟩
      rcases hmem m hm with hm | rfl
      · exact hnone m hm
      · rintro (hidle | hidle) <;> cases hidle
    · cases howner
  · rcases h.unapproved id hid with hmem | hfailed
    · exact .inl (List.mem_append_left _ hmem)
    · exact .inr hfailed

lemma ApprovalAudited.outside {points : List Progress} (h : ApprovalAudited store points trace)
    (hchange : StoreChange env store c store')
    (hcall : ∀ id payloadHash expectedClass, c.2 ≠ .approve id payloadHash expectedClass) :
    ApprovalAudited store' points trace where
  approved := by
    intro row' hrow' hcount
    rcases hchange.approved hrow' hcount with hfailed | ⟨_, _, heq⟩ | ⟨row, hrow, hid, hcount, hne⟩
    · exact .inl hfailed
    · exact absurd heq (hcall _ _ _)
    · rw [← hid]
      rcases h.approved row hrow hcount with hfailed | hrest
      · exact absurd hfailed hne
      · exact .inr hrest
  started := h.started
  unapproved := fun id hid => (h.unapproved id hid).imp_right hchange.hasState_failed
  precedes := h.precedes

lemma ApprovalAudited.recorded {points : List Progress} (h : ApprovalAudited store points trace)
    (hpoint : points[i]? = some l) {recorded : Bool} (hallowed : effectAllowed l (.record row)) :
    ApprovalAudited store (points.set i (l.recorded row recorded))
      (trace ++ [if recorded then .recorded row else .unrecorded row]) := by
  have hl := List.mem_of_getElem? hpoint
  have hold (m : Progress) (hm : m ∈ points.set i (l.recorded row recorded)) {id : String}
      (hunaudited : m.unaudited id) : ∃ m ∈ points, m.unaudited id := by
    rcases List.mem_or_eq_of_mem_set hm with hm | rfl
    · exact ⟨m, hm, hunaudited⟩
    · exact ⟨l, hl, Progress.of_unaudited_recorded hunaudited⟩
  refine ⟨fun other hother hcount => ?_, fun m hm id howner => ?_, fun id hid => ?_, ?_⟩
  · rcases h.approved other hother hcount with hfailed | hunaudited | hrecorded
    · exact .inl hfailed
    · by_cases hrow : l = .approved other.request.requestId ∧ row.event = "approval_recorded"
      · obtain ⟨rfl, hevent⟩ := hrow
        obtain ⟨id, heq, hid⟩ := hallowed.1 hevent
        cases heq
        cases recorded with
        | true => exact .inr (.inr ⟨row, List.mem_append_right _ List.mem_cons_self, hevent, hid⟩)
        | false =>
            refine .inr (.inl ⟨_, mem_set_self hpoint _, .inr ?_⟩)
            simp [Progress.recorded, hevent]
      · refine .inr (.inl (exists_mem_set hpoint (fun hl => ?_) hunaudited))
        rcases hl with rfl | rfl
        · refine .inl (if_neg fun hevent => hrow ⟨rfl, hevent⟩)
        · exact .inr rfl
    · exact .inr (.inr (hrecorded.append _))
  · obtain ⟨m', hm', howner'⟩ : ∃ m' ∈ points, m'.owner = some id := by
      rcases List.mem_or_eq_of_mem_set hm with hm | rfl
      · exact ⟨m, hm, howner⟩
      · refine ⟨l, hl, ?_⟩
        cases l with
        | approved id' =>
            simp only [Progress.recorded] at howner
            split_ifs at howner <;> cases howner
        | started id' =>
            simp only [Progress.recorded] at howner
            split_ifs at howner <;> exact howner
        | _ => exact howner
    obtain ⟨hrecorded, hunrecorded, hnone⟩ := h.started m' hm' id howner'
    refine ⟨hrecorded.append _, fun hnew => ?_, fun n hn hunaudited => ?_⟩
    · rcases unrecorded_append.1 hnew with hnew | ⟨row', heq, hevent, hid⟩
      · exact hunrecorded hnew
      · cases recorded with
        | true => cases heq
        | false =>
            cases heq
            obtain ⟨id', rfl, hid'⟩ := hallowed.1 hevent
            rw [hid, Option.some.injEq] at hid'
            exact hnone _ hl (.inl (hid' ▸ rfl))
    · obtain ⟨n', hn', hunaudited'⟩ := hold n hn hunaudited
      exact hnone n' hn' hunaudited'
  · rcases unrecorded_append.1 hid with hid | ⟨row', heq, hevent, hrow⟩
    · refine (h.unapproved id hid).imp_left fun hmem => ?_
      obtain ⟨m, hm, rfl⟩ := exists_mem_set (P := (· = .unapproved id))
        (y := l.recorded row recorded) hpoint (fun heq => by rw [heq]; rfl) ⟨_, hmem, rfl⟩
      exact hm
    · cases recorded with
      | true => cases heq
      | false =>
          cases heq
          obtain ⟨id', rfl, hid'⟩ := hallowed.1 hevent
          rw [hrow, Option.some.injEq] at hid'
          left
          have hnext : (Progress.approved id').recorded row false = .unapproved id := by
            simp [Progress.recorded, hevent, hid']
          rw [← hnext]
          exact mem_set_self hpoint _
  · refine h.precedes.append fun id heq => ?_
    cases recorded <;> cases heq

/-- A point that stays with its request. -/
lemma ApprovalAudited.moved {points : List Progress} (h : ApprovalAudited store points trace)
    (hpoint : points[i]? = some l) {l' : Progress} (hl : l.owner = some requestId)
    (hl' : l'.owner = some requestId) : ApprovalAudited store (points.set i l') trace := by
  have hnot {m : Progress} (hm : m.owner = some requestId) (id : String) : ¬ m.unaudited id := by
    rintro (rfl | rfl) <;> cases hm
  refine ⟨fun row hrow hcount => ?_, fun m hm id howner => ?_, fun id hid => ?_, h.precedes⟩
  · refine (h.approved row hrow hcount).imp_right (Or.imp_left fun hunaudited => ?_)
    exact exists_mem_set hpoint (fun hunaudited => absurd hunaudited (hnot hl _)) hunaudited
  · obtain ⟨m', hm', howner'⟩ : ∃ m' ∈ points, m'.owner = some id := by
      rcases List.mem_or_eq_of_mem_set hm with hm | rfl
      · exact ⟨m, hm, howner⟩
      · exact ⟨l, List.mem_of_getElem? hpoint, hl.trans (hl'.symm.trans howner)⟩
    obtain ⟨hrecorded, hunrecorded, hnone⟩ := h.started m' hm' id howner'
    refine ⟨hrecorded, hunrecorded, fun n hn => ?_⟩
    rcases List.mem_or_eq_of_mem_set hn with hn | rfl
    · exact hnone n hn
    · exact hnot hl' id
  · refine (h.unapproved id hid).imp_left fun hmem => ?_
    obtain ⟨m, hm, rfl⟩ := exists_mem_set (P := (· = .unapproved id)) (y := l') hpoint
      (fun heq => by rw [heq] at hl; cases hl) ⟨_, hmem, rfl⟩
    exact hm

/-- A method sends its request. -/
lemma ApprovalAudited.sent {points : List Progress} (h : ApprovalAudited store points trace)
    (hl : l ∈ points) (howner : l.owner = some requestId) :
    ApprovalAudited store points (trace ++ [.sent requestId]) := by
  have hnot (id : String) : Unrecorded (trace ++ [.sent requestId]) "approval_recorded" id →
      Unrecorded trace "approval_recorded" id := by
    intro hid
    rcases unrecorded_append.1 hid with hid | ⟨row, heq, -⟩
    · exact hid
    · cases heq
  refine ⟨fun row hrow hcount => ?_, fun m hm id hid => ?_,
    fun id hid => h.unapproved id (hnot id hid), h.precedes.append fun id heq => ?_⟩
  · exact (h.approved row hrow hcount).imp_right (Or.imp_right fun hrecorded => hrecorded.append _)
  · obtain ⟨hrecorded, hunrecorded, hnone⟩ := h.started m hm id hid
    exact ⟨hrecorded.append _, fun hnew => hunrecorded (hnot id hnew), hnone⟩
  · cases heq
    exact (h.started l hl requestId howner).1

/-- A ready request whose approval is in no method's hands has its row in the ledger. -/
lemma ApprovalAudited.ready {points : List Progress} (h : ApprovalAudited store points trace)
    (hsound : store.Sound env) (hready : store.HasState requestId (· = .readyToExecute))
    (hnone : ∀ m ∈ points, ¬ m.unaudited requestId) :
    Recorded trace "approval_recorded" requestId ∧
      ¬ Unrecorded trace "approval_recorded" requestId := by
  constructor
  · obtain ⟨row, hrow, rfl, hstate⟩ := hready
    have hcount : row.request.approvalCount = 1 := by
      obtain ⟨request, hvalid⟩ := hsound.valid row hrow
      obtain ⟨hsame, hfields, -⟩ := PreparedRequest.validate_ok hvalid
      rw [← hsame.approval_count]
      exact approvalCount_of_validStateFields hfields (by simp [hsame.state, hstate])
    rcases h.approved row hrow hcount with hfailed | ⟨m, hm, hunaudited⟩ | hrecorded
    · simp [hstate] at hfailed
    · exact absurd hunaudited (hnone m hm)
    · exact hrecorded
  · intro hunrecorded
    rcases h.unapproved requestId hunrecorded with hmem | hfailed
    · exact hnone _ hmem (.inr rfl)
    · obtain ⟨state, hstate, rfl⟩ := hsound.hasState_unique hready hfailed
      cases hstate

/-- A call of the store that a method makes and that goes through. -/
structure Called (env : Environment) (p : ExecutorPool) (i : Nat) (l : Progress) (call : StoreCall)
    (answer : Answer (.store call)) (result : Option PreparedRequest) (store : RequestStore) :
    Prop where
  point : (points p)[i]? = some l
  allowed : effectAllowed l (.store call)
  committed : committed answer = true
  result_eq : ∀ r, answer = .ok r → r = result
  perform : p.shared.store.perform env (p.shared.now, call) = .ok (result, store)

section

variable {answer : Answer (.store call)} {result : Option PreparedRequest}

/-- It brings no approval into the hands of a method but of a request that waits for it. -/
lemma Called.not_unaudited (hc : Called env p i l call answer result store)
    (hp : PoolInvariant env p) (hold : ∀ m ∈ points p, ¬ m.unaudited requestId)
    (hstate : ¬ p.shared.store.HasState requestId (· = .awaitingConfirmation)) :
    ∀ m ∈ (points p).set i (l.next (.store call) answer), ¬ m.unaudited requestId := by
  intro m hm hunaudited
  rcases List.mem_or_eq_of_mem_set hm with hm | rfl
  · exact hold m hm hunaudited
  · rcases Progress.of_unaudited_store hunaudited with hunaudited | happroved
    · exact hold l (List.mem_of_getElem? hc.point) hunaudited
    · obtain ⟨id, payloadHash, expectedClass, rfl, happroved⟩ := happroved
      obtain ⟨request', hrequest, hid', hawaiting⟩ := hp.sound.perform_approve hc.perform
      rcases happroved with ⟨request, rfl, hid⟩ | ⟨-, rfl⟩
      · obtain rfl : request = request' :=
          Option.some.inj ((hc.result_eq _ rfl).trans hrequest)
        exact hstate (hid.symm.trans hid' ▸ hawaiting)
      · exact hstate hawaiting

/-- What is approved then. -/
lemma Called.approved (hc : Called env p i l call answer result store) (hp : PoolInvariant env p)
    (h : ApprovalAudited p.shared.store (points p) p.shared.trace) {row' : RequestRow}
    (hrow' : row' ∈ store.rows) (hcount : row'.request.approvalCount = 1) :
    row'.request.state = .failed ∨
      (∃ m ∈ (points p).set i (l.next (.store call) answer),
        m.unaudited row'.request.requestId) ∨
      Recorded p.shared.trace "approval_recorded" row'.request.requestId := by
  have hchange := hp.sound.call_change (call_of_perform hc.perform)
  rcases hchange.approved hrow' hcount with hfailed | ⟨payloadHash, expectedClass, heq⟩ |
    ⟨row, hrow, hid, hcount, hne⟩
  · exact .inl hfailed
  · obtain rfl : call = .approve row'.request.requestId payloadHash expectedClass := heq
    obtain ⟨request, rfl, hid, -⟩ := hp.sound.perform_approve hc.perform
    refine .inr (.inl ⟨_, mem_set_self hc.point _, ?_⟩)
    rcases answer with ⟨code, kind⟩ | r
    · cases kind with
      | late => exact .inr rfl
      | refused | unavailable => cases hc.committed
    · obtain rfl := hc.result_eq r rfl
      exact .inl (congrArg Progress.approved hid)
  · rw [← hid]
    rcases h.approved row hrow hcount with hfailed | ⟨m, hm, hunaudited⟩ | hrecorded
    · exact absurd hfailed hne
    · by_cases hinvalidated : ∃ reason, call = .invalidate row.request.requestId reason
      · obtain ⟨reason, rfl⟩ := hinvalidated
        obtain ⟨state, hstate, rfl⟩ := (hchange.sound hp.sound).hasState_unique
          (hp.sound.perform_invalidate hc.perform) ⟨row', hrow', hid.symm, rfl⟩
        exact .inl hstate
      · refine .inr (.inl (exists_mem_set hc.point (fun hl => ?_) ⟨m, hm, hunaudited⟩))
        rw [(Progress.unaudited_store hc.allowed answer hl).resolve_right hinvalidated]
        exact hl
    · exact .inr (.inr hrecorded)

/-- A request that is started then has the row of its approval. -/
lemma Called.started (hc : Called env p i l call answer result store) (hp : PoolInvariant env p)
    (h : ApprovalAudited p.shared.store (points p) p.shared.trace)
    (haudited : ∀ requestId, p.shared.store.HasState requestId (· = .readyToExecute) →
      store.HasState requestId (· = .executing) → ∀ m ∈ points p, ¬ m.unaudited requestId)
    {m : Progress} (hm : m ∈ (points p).set i (l.next (.store call) answer))
    (howner : m.owner = some requestId) :
    Recorded p.shared.trace "approval_recorded" requestId ∧
      ¬ Unrecorded p.shared.trace "approval_recorded" requestId ∧
      ∀ n ∈ (points p).set i (l.next (.store call) answer), ¬ n.unaudited requestId := by
  have hl := List.mem_of_getElem? hc.point
  have hold {n : Progress} (hn : n ∈ points p) (hn' : n.owner = some requestId) :
      Recorded p.shared.trace "approval_recorded" requestId ∧
        ¬ Unrecorded p.shared.trace "approval_recorded" requestId ∧
        ∀ n ∈ (points p).set i (l.next (.store call) answer), ¬ n.unaudited requestId := by
    obtain ⟨hrecorded, hunrecorded, hfree⟩ := h.started n hn requestId hn'
    refine ⟨hrecorded, hunrecorded, hc.not_unaudited hp hfree fun hawaiting => ?_⟩
    obtain ⟨state, hstate, rfl⟩ :=
      hp.sound.hasState_unique ((hp.points_consistent hn).hasState hn') hawaiting
    simp at hstate
  rcases List.mem_or_eq_of_mem_set hm with hm | rfl
  · exact hold hm howner
  by_cases hordinary : call.ordinary
  · rcases Progress.next_ordinary hordinary l hc.allowed answer with heq | ⟨hnext, -⟩
    · exact hold hl (heq ▸ howner)
    · rw [hnext] at howner
      cases howner
  cases call with
  | startExecution id =>
      obtain ⟨request, rfl, hid, hready, hexecuting⟩ := hp.sound.perform_startExecution hc.perform
      obtain rfl : id = requestId := by
        rcases answer with ⟨code, kind⟩ | r
        · cases kind with
          | late => exact Option.some.inj howner
          | refused | unavailable => cases hc.committed
        · obtain rfl := hc.result_eq r rfl
          exact hid.symm.trans (Option.some.inj howner)
      have hfree := haudited id hready hexecuting
      obtain ⟨hrecorded, hunrecorded⟩ := h.ready hp.sound hready hfree
      refine ⟨hrecorded, hunrecorded, hc.not_unaudited hp hfree fun hawaiting => ?_⟩
      obtain ⟨state, hstate, rfl⟩ := hp.sound.hasState_unique hready hawaiting
      cases hstate
  | complete id outcome summary =>
      have hnext : l.next (.store (.complete id outcome summary)) answer =
        .completed id l.outcome := if_pos hc.committed
      rw [hnext] at howner
      exact hold hl ((Progress.owner_of_mayComplete hc.allowed.2.2).1.trans howner)
  | _ => exact absurd trivial hordinary

lemma ApprovalAudited.called (hp : PoolInvariant env p)
    (h : ApprovalAudited p.shared.store (points p) p.shared.trace)
    (hc : Called env p i l call answer result store)
    (haudited : ∀ requestId, p.shared.store.HasState requestId (· = .readyToExecute) →
      store.HasState requestId (· = .executing) → ∀ m ∈ points p, ¬ m.unaudited requestId) :
    ApprovalAudited store ((points p).set i (l.next (.store call) answer))
      p.shared.trace := by
  refine ⟨fun row' hrow' hcount => hc.approved hp h hrow' hcount,
    fun m hm id howner => hc.started hp h haudited hm howner, fun id hid => ?_, h.precedes⟩
  rcases h.unapproved id hid with hmem | hfailed
  · by_cases hinvalidated : ∃ reason, call = .invalidate id reason
    · obtain ⟨reason, rfl⟩ := hinvalidated
      exact .inr (hp.sound.perform_invalidate hc.perform)
    · obtain ⟨m, hm, rfl⟩ := exists_mem_set (P := (· = .unapproved id))
        (y := l.next (.store call) answer) hc.point
        (fun heq => by
          rw [(Progress.unaudited_store hc.allowed answer (.inr heq)).resolve_right hinvalidated,
            heq]) ⟨_, hmem, rfl⟩
      exact .inl hm
  · exact .inr ((hp.sound.call_change (call_of_perform hc.perform)).hasState_failed hfailed)

end

lemma ApprovalAudited.step {p p' : ExecutorPool} (hp : PoolInvariant env p)
    (h : ApprovalAudited p.shared.store (points p) p.shared.trace)
    (hstep : StepEffect env p p') (haudited : StartsAudited p p') :
    ApprovalAudited p'.shared.store (points p') p'.shared.trace := by
  cases hstep with
  | nothing hpoints hstore htrace =>
      rw [htrace, hstore]
      rcases hpoints with heq | heq <;> rw [heq]
      · exact h
      · exact h.spawned
  | outside connectorId environment reason hpoints htrace hchange =>
      rw [hpoints, htrace]
      exact h.outside hchange fun _ _ _ => by simp
  | store i l call answer result hpoint hallowed hcommitted hresult hpoints htrace hcall =>
      rw [hpoints, htrace]
      exact h.called hp ⟨hpoint, hallowed, hcommitted, hresult, hcall⟩ haudited
  | refused i l requestId hpoint hmay hpoints hstore htrace =>
      rw [hpoints, htrace, hstore]
      exact h.moved hpoint (Progress.owner_of_mayComplete hmay).1 rfl
  | record i l row recorded hpoint hallowed hpoints hstore htrace =>
      rw [hpoints, htrace, hstore]
      exact h.recorded hpoint hallowed
  | send i requestId outcome hpoint hpoints hstore htrace =>
      rw [hpoints, htrace, hstore]
      have hmoved : ApprovalAudited _ ((points p).set i (.sent requestId outcome)) _ :=
        h.moved hpoint rfl rfl
      exact hmoved.sent (mem_set_self hpoint _) rfl

/-! ## Every run -/

/-- The pools that runs reach in which requests are only started with their approvals in the
ledger. -/
def ReachableAudited (env : Environment) (repositoryId : String) (now : Instant)
    (p : ExecutorPool) : Prop :=
  Relation.ReflTransGen (fun p p' => Pool.Step (executorRules env) p p' ∧ StartsAudited p p')
    (ExecutorPool.initial repositoryId now) p

lemma ReachableAudited.reachable (h : ReachableAudited env repositoryId now p) :
    Reachable env repositoryId now p :=
  Relation.ReflTransGen.mono (fun _ _ => And.left) _ _ h

/-- In any run of executors a request is sent after its `dispatch_started` row and once. -/
lemma Reachable.dispatchAudited (h : Reachable env repositoryId now p) :
    DispatchAudited (points p) p.shared.trace := by
  induction h with
  | refl =>
      refine ⟨fun id hsent => ?_, List.nodup_nil, fun id hid => ?_, precedes_nil _,
        fun id hid => ?_⟩
      · cases hsent
      · cases hid
      · obtain ⟨row, hrow, -⟩ := hid
        cases hrow
  | tail hreachable hstep ih =>
      have hp := Reachable.invariant hreachable
      exact ih.step hp (hp.stepEffect hstep)

lemma ReachableAudited.approvalAudited (h : ReachableAudited env repositoryId now p) :
    ApprovalAudited p.shared.store (points p) p.shared.trace := by
  induction h with
  | refl =>
      refine ⟨fun row hrow => ?_, fun l hl => ?_, fun id hid => ?_, precedes_nil _⟩
      · cases hrow
      · cases hl
      · obtain ⟨row, hrow, -⟩ := hid
        cases hrow
  | tail hreachable hstep ih =>
      have hp := (ReachableAudited.reachable hreachable).invariant
      exact ih.step hp (hp.stepEffect hstep.1) hstep.2

/-- Where requests are only started with their approvals in the ledger, every send comes after the
`approval_recorded` and the `dispatch_started` row of its request, nothing is sent for a request of
which either could not be recorded, and every request is sent at most once. -/
theorem audit_precedes_dispatch {repositoryId : String} {now : Instant} {p : ExecutorPool}
    (h : ReachableAudited env repositoryId now p) : AuditPrecedesDispatch p.shared.trace := by
  have hp := h.reachable.invariant
  have hdispatch := h.reachable.dispatchAudited
  have happroval := h.approvalAudited
  refine ⟨happroval.precedes, hdispatch.precedes, fun event hevent requestId hunrecorded => ?_,
    hdispatch.once⟩
  rcases List.mem_cons.1 hevent with rfl | hevent
  · intro hsent
    obtain ⟨l, hl, outcome, hcarries⟩ := hdispatch.carried requestId hsent
    exact (happroval.started l hl requestId (Progress.owner_of_carries hcarries)).2.1 hunrecorded
  · cases List.mem_singleton.1 hevent
    exact hdispatch.not_sent hp hunrecorded

/-! ### A send without its approval -/

/-- One method commits the approval of the request, another one sends it before the first has
recorded the approval. -/
theorem sent_before_approval_recorded : ¬ ∀ p, Reachable sampleEnvironment "repo" 0 p →
    AuditPrecedesDispatch p.shared.trace := by
  intro hclaim
  have happroval : Performs (executorRules sampleEnvironment) previewedWorld sampleExecution _
      { previewedWorld with store := ⟨"repo", [rowOf sampleApproved]⟩ } _ :=
    .one (.returned (.approve sampleRequest.requestId sampleRequest.payloadHash
      sampleRequest.mutationClass) .calm (.request sampleApproved) _ rfl)
  obtain ⟨before, hexecute⟩ := performs_executeWrite previewedWorld.trace .transportError
  have hreached := reachable_previewedWorld.trans (.head (.spawn _ entry_sampleExecution)
    ((happroval.steps (i := 1) rfl).trans (.head (.spawn _ (.executeWrite "session"
      sampleRequest.requestId)) ((hexecute.bind _).steps (i := 2) rfl))))
  obtain ⟨row, hrow, hevent, -⟩ := (hclaim _ hreached).approval
    (previewedWorld.trace ++
      [.recorded (Exec.requestRow "session" sampleExecuting "dispatch_started" (.obj []))])
    sampleRequest.requestId [] rfl
  simp only [previewedWorld, List.cons_append, List.nil_append, List.mem_cons, List.not_mem_nil,
    or_false, Observation.recorded.injEq] at hrow
  rcases hrow with rfl | rfl
  · exact absurd hevent (by decide)
  · exact absurd (show "dispatch_started" = "approval_recorded" from hevent) (by decide)

/-! ### A send with its approval -/

/-- Only `start_execution` moves a request to `executing`. -/
lemma StoreChange.started (h : StoreChange env store c store') (hsound : store.Sound env)
    (hready : store.HasState requestId (· = .readyToExecute))
    (hexecuting : store'.HasState requestId (· = .executing)) :
    c.2 = .startExecution requestId := by
  obtain ⟨row, hrow, rfl, hstate⟩ := hready
  obtain ⟨row', hrow', hchange⟩ := h.exists_row hrow
  have hid : row'.request.requestId = row.request.requestId := by
    rcases hchange with rfl | hchange
    · rfl
    · exact congrArg Preview.requestId hchange.preview
  obtain ⟨state, hstate', rfl⟩ := (h.sound hsound).hasState_unique hexecuting
    ⟨row', hrow', hid, rfl⟩
  rcases hchange with rfl | hchange
  · simp [hstate] at hstate'
  · cases hchange.moves with
    | fail _ hfailed => simp [hfailed] at hstate'
    | approve _ _ hawaiting => simp [hawaiting] at hstate
    | start hcall => exact hcall
    | complete _ hexecuting' => simp [hstate] at hexecuting'
    | resolve _ hunknown => simp [hstate] at hunknown

lemma PoolInvariant.startsAudited_of_store_eq {q : ExecutorPool} (h : PoolInvariant env p)
    (hstore : q.shared.store = p.shared.store) : StartsAudited p q := by
  intro id hready hexecuting
  rw [hstore] at hexecuting
  obtain ⟨state, hstate, rfl⟩ := h.sound.hasState_unique hready hexecuting
  cases hstate

/-- What a method performs while no other method holds an unrecorded approval: where it starts a
request it holds none itself. -/
lemma stepsAudited_of_performs {s s' : World} {q q' : Exec Unit}
    {log : List ((e : Effect) × Answer e)} (h : Performs (executorRules env) s q log s' q')
    {tasks : List (Task Effect Answer Unit)} {done : List ((e : Effect) × Answer e)}
    (htask : tasks[i]? = some ⟨done, q⟩) (hp : PoolInvariant env ⟨s, tasks⟩)
    (hothers : ∀ j task, j ≠ i → tasks[j]? = some task → ∀ id, ¬ (progress task).unaudited id) :
    Relation.ReflTransGen (fun p p' => Pool.Step (executorRules env) p p' ∧ StartsAudited p p')
      ⟨s, tasks⟩ ⟨s', tasks.set i ⟨done ++ log, q'⟩⟩ := by
  induction h generalizing tasks done with
  | nil s q =>
      obtain ⟨hlt, hget⟩ := List.getElem?_eq_some_iff.1 htask
      rw [List.append_nil, ← hget, List.set_getElem_self hlt]
  | @cons s s₁ _ e a next _ _ hhappens _ ih =>
      have hlt := (List.getElem?_eq_some_iff.1 htask).1
      have hstep : Pool.Step (executorRules env) ⟨s, tasks⟩
          ⟨s₁, tasks.set i ⟨done ++ [⟨e, a⟩], next a⟩⟩ :=
        .perform i done e next htask a s₁ hhappens
      have haudited : StartsAudited (⟨s, tasks⟩ : ExecutorPool)
          ⟨s₁, tasks.set i ⟨done ++ [⟨e, a⟩], next a⟩⟩ := by
        intro id hready hexecuting l hl hunaudited
        obtain ⟨task, hmem, rfl⟩ := List.mem_map.1 hl
        obtain ⟨j, hj⟩ := List.mem_iff_getElem?.1 hmem
        by_cases hij : j = i
        · subst hij
          rw [htask, Option.some.injEq] at hj
          subst hj
          have hallowed : effectAllowed (executorProtocol.after done) e :=
            (hp.keeps _ hmem).1
          have hsame (hstore : s₁.store = s.store) : False :=
            hp.startsAudited_of_store_eq (q := ⟨s₁, tasks⟩) hstore id hready hexecuting _ hl
              hunaudited
          cases e with
          | store call =>
              rcases Happens.store_cases hhappens with ⟨-, result, store, -, hcall, rfl⟩ |
                ⟨code, conditions, rfl, -, rfl⟩
              · have hchange := hp.sound.call_change (call_of_perform hcall)
                obtain rfl : call = .startExecution id :=
                  hchange.started hp.sound hready hexecuting
                have hidle : progress ⟨done, .perform (.store (.startExecution id)) next⟩ =
                  .idle := hallowed
                rw [hidle] at hunaudited
                rcases hunaudited with hl | hl <;> cases hl
              · exact hsame rfl
          | _ => cases hhappens <;> exact hsame rfl
        · exact hothers j task hij hj id hunaudited
      refine .head ⟨hstep, haudited⟩ ?_
      have hget : (tasks.set i ⟨done ++ [⟨e, a⟩], next a⟩)[i]? =
        some ⟨done ++ [⟨e, a⟩], next a⟩ := List.getElem?_set_self hlt
      have hrest := ih hget (hp.step hstep) fun j task hne hj => by
        rw [List.getElem?_set_ne (Ne.symm hne)] at hj
        exact hothers j task hne hj
      rwa [List.set_set, List.append_assoc] at hrest

/-- The pool after the preview. -/
lemma reachableAudited_previewedWorld : ReachableAudited sampleEnvironment "repo" 0
    ⟨previewedWorld, [⟨previewLog, .done ()⟩]⟩ := by
  have hinitial : PoolInvariant sampleEnvironment (ExecutorPool.initial "repo" 0) :=
    poolInvariant_initial "repo" 0
  have hspawn := Pool.Step.spawn (R := executorRules sampleEnvironment)
    (p := ExecutorPool.initial "repo" 0) _ entry_samplePreviewing
  have hget : ([⟨[], samplePreviewing⟩] : List (Task Effect Answer Unit))[0]? =
    some ⟨[], samplePreviewing⟩ := rfl
  refine .head ⟨hspawn, hinitial.startsAudited_of_store_eq rfl⟩
    (stepsAudited_of_performs performs_preview hget (hinitial.step hspawn) ?_)
  intro j task hne hj
  obtain ⟨j, rfl⟩ := Nat.exists_eq_succ_of_ne_zero hne
  cases hj

/-- A request is approved, recorded and sent. -/
theorem audit_precedes_dispatch_sample : ∃ p, ReachableAudited sampleEnvironment "repo" 0 p ∧
    .sent "req_00000001" ∈ p.shared.trace ∧ AuditPrecedesDispatch p.shared.trace := by
  obtain ⟨before, hrun⟩ := performs_sampleExecution .transportError
  have hpreviewed := reachableAudited_previewedWorld
  have hinvariant := hpreviewed.reachable.invariant
  have hspawn := Pool.Step.spawn (R := executorRules sampleEnvironment)
    (p := ⟨previewedWorld, [⟨previewLog, .done ()⟩]⟩) _ entry_sampleExecution
  have hget : ([⟨previewLog, .done ()⟩, ⟨[], sampleExecution⟩] :
      List (Task Effect Answer Unit))[1]? = some ⟨[], sampleExecution⟩ := rfl
  have hothers (j : Nat) (task : Task Effect Answer Unit) (hne : j ≠ 1)
      (hj : [⟨previewLog, .done ()⟩, ⟨[], sampleExecution⟩][j]? = some task) (id : String) :
      ¬ (progress task).unaudited id := by
    match j with
    | 0 =>
        cases hj
        rintro (hidle | hidle) <;> cases hidle
    | 1 => exact absurd rfl hne
    | j + 2 => cases hj
  have hsteps := stepsAudited_of_performs hrun hget (hinvariant.step hspawn) hothers
  have hreached : ReachableAudited sampleEnvironment "repo" 0 _ :=
    hpreviewed.trans (.head ⟨hspawn, hinvariant.startsAudited_of_store_eq rfl⟩ hsteps)
  exact ⟨_, hreached, List.mem_append_right _ List.mem_cons_self, audit_precedes_dispatch hreached⟩

end Execution
end MercuryTools
