import MercuryTools.Execution.ExecutorRuns

/-!
# The audit trail

The trace of a pool lists what was recorded in the ledger, what could not be recorded and what was
sent.  This module says when the rows of a request come before its send, what one step of a pool
does to the trace, and that a request is sent after its `dispatch_started` row and once.
-/

namespace MercuryTools
namespace Execution

open Checks Programs RequestStore

variable {env : Environment}

/-! ## What the trace says -/

/-- A row for the request with this event is in the ledger. -/
def Recorded (trace : List Observation) (event requestId : String) : Prop :=
  ∃ row, .recorded row ∈ trace ∧ row.event = event ∧ row.requestId = some requestId

/-- A row for the request with this event could not be recorded. -/
def Unrecorded (trace : List Observation) (event requestId : String) : Prop :=
  ∃ row, .unrecorded row ∈ trace ∧ row.event = event ∧ row.requestId = some requestId

/-- Every send comes after a row with this event for its request. -/
def Precedes (event : String) (trace : List Observation) : Prop :=
  ∀ before requestId after, trace = before ++ .sent requestId :: after →
    Recorded before event requestId

def Observation.sentId : Observation → Option String
  | .sent requestId => some requestId
  | _ => none

/-- Every send is preceded by both rows of its request, what could not be recorded is not sent,
and nothing is sent twice. -/
structure AuditPrecedesDispatch (trace : List Observation) : Prop where
  approval : Precedes "approval_recorded" trace
  dispatch : Precedes "dispatch_started" trace
  withheld : ∀ event ∈ ["approval_recorded", "dispatch_started"], ∀ requestId,
    Unrecorded trace event requestId → .sent requestId ∉ trace
  once : (trace.filterMap Observation.sentId).Nodup

variable {trace : List Observation} {event requestId : String} {o : Observation} {p : ExecutorPool}
  {α : Type} {i : Nat} {l : Progress} {row : AuditRow}

lemma Recorded.append (h : Recorded trace event requestId) (o : Observation) :
    Recorded (trace ++ [o]) event requestId := by
  obtain ⟨row, hrow, hevent, hid⟩ := h
  exact ⟨row, List.mem_append_left _ hrow, hevent, hid⟩

lemma unrecorded_append :
    Unrecorded (trace ++ [o]) event requestId ↔ Unrecorded trace event requestId ∨
      ∃ row, o = .unrecorded row ∧ row.event = event ∧ row.requestId = some requestId := by
  constructor
  · rintro ⟨row, hrow, hevent, hid⟩
    rcases List.mem_append.1 hrow with hrow | hrow
    · exact .inl ⟨row, hrow, hevent, hid⟩
    · exact .inr ⟨row, (List.mem_singleton.1 hrow).symm, hevent, hid⟩
  · rintro (⟨row, hrow, hevent, hid⟩ | ⟨row, rfl, hevent, hid⟩)
    · exact ⟨row, List.mem_append_left _ hrow, hevent, hid⟩
    · exact ⟨row, List.mem_append_right _ List.mem_cons_self, hevent, hid⟩

lemma Precedes.append (h : Precedes event trace)
    (ho : ∀ requestId, o = .sent requestId → Recorded trace event requestId) :
    Precedes event (trace ++ [o]) := by
  intro before requestId after heq
  rcases List.eq_nil_or_concat after with rfl | ⟨after, last, rfl⟩
  · obtain ⟨rfl, hlast⟩ := List.append_inj' heq rfl
    exact ho requestId (List.cons.inj hlast).1
  · rw [List.concat_eq_append, ← List.cons_append, ← List.append_assoc] at heq
    obtain ⟨rfl, -⟩ := List.append_inj' heq rfl
    exact h before requestId after rfl

lemma precedes_nil (event : String) : Precedes event [] := by
  intro before requestId after heq
  simp at heq

/-! ## What a step does -/

/-- How far the tasks are. -/
def points (p : ExecutorPool) : List Progress :=
  p.tasks.map progress

/-- A step of a pool, by what it does to the store, the trace and the points. -/
inductive StepEffect (env : Environment) (p p' : ExecutorPool) : Prop where
  | nothing (hpoints : points p' = points p ∨ points p' = points p ++ [.idle])
      (hstore : p'.shared.store = p.shared.store) (htrace : p'.shared.trace = p.shared.trace)
  | outside (connectorId environment : Option String) (reason : String)
      (hpoints : points p' = points p) (htrace : p'.shared.trace = p.shared.trace)
      (hchange : StoreChange env p.shared.store
        (p.shared.now, .invalidatePending connectorId environment reason) p'.shared.store)
  | store (i : Nat) (l : Progress) (call : StoreCall) (answer : Answer (.store call))
      (result : Option PreparedRequest) (hpoint : (points p)[i]? = some l)
      (hallowed : effectAllowed l (.store call)) (hcommitted : committed answer = true)
      (hresult : ∀ r, answer = .ok r → r = result)
      (hpoints : points p' = (points p).set i (l.next (.store call) answer))
      (htrace : p'.shared.trace = p.shared.trace)
      (hcall : p.shared.store.perform env (p.shared.now, call) = .ok (result, p'.shared.store))
  | refused (i : Nat) (l : Progress) (requestId : String) (hpoint : (points p)[i]? = some l)
      (hmay : l.mayComplete requestId)
      (hpoints : points p' = (points p).set i (.refused requestId l.outcome))
      (hstore : p'.shared.store = p.shared.store) (htrace : p'.shared.trace = p.shared.trace)
  | record (i : Nat) (l : Progress) (row : AuditRow) (recorded : Bool)
      (hpoint : (points p)[i]? = some l) (hallowed : effectAllowed l (.record row))
      (hpoints : points p' = (points p).set i (l.recorded row recorded))
      (hstore : p'.shared.store = p.shared.store)
      (htrace : p'.shared.trace =
        p.shared.trace ++ [if recorded then .recorded row else .unrecorded row])
  | send (i : Nat) (requestId : String) (outcome : SendOutcome)
      (hpoint : (points p)[i]? = some (.announced requestId))
      (hpoints : points p' = (points p).set i (.sent requestId outcome))
      (hstore : p'.shared.store = p.shared.store)
      (htrace : p'.shared.trace = p.shared.trace ++ [.sent requestId])

lemma PoolInvariant.stepEffect {p' : ExecutorPool} (h : PoolInvariant env p)
    (hstep : Pool.Step (executorRules env) p p') : StepEffect env p p' := by
  cases hstep with
  | spawn program hentry =>
      exact .nothing (.inr (by simp [points, progress, executorProtocol])) rfl rfl
  | outside shared houtside =>
      cases houtside with
      | tick now hlater => exact .nothing (.inl rfl) rfl rfl
      | invalidatePending connectorId environment reason conditions result store hcall =>
          rcases eq_or_perform_of_method hcall with rfl | ⟨request, hcall⟩
          · exact .nothing (.inl rfl) rfl rfl
          · exact .outside connectorId environment reason rfl rfl
              (h.sound.call_change (call_of_perform hcall))
  | perform i log e next htask a shared hhappens =>
      have hallowed : effectAllowed (executorProtocol.after log) e :=
        (h.keeps _ (List.mem_of_getElem? htask)).1
      have hpoint : (points p)[i]? = some (executorProtocol.after log) := by
        rw [points, List.getElem?_map, htask]
        rfl
      have hpoints : points ⟨shared, p.tasks.set i ⟨log ++ [⟨e, a⟩], next a⟩⟩ =
          (points p).set i ((executorProtocol.after log).next e a) := by
        rw [points, List.map_set]
        exact congrArg _ (Protocol.after_append log e a)
      have hsame : (points p).set i (executorProtocol.after log) = points p := by
        obtain ⟨hlt, hget⟩ := List.getElem?_eq_some_iff.1 hpoint
        rw [← hget, List.set_getElem_self hlt]
      have hstore {call : StoreCall} {next : Answer (.store call) → Exec Unit}
          {answer : Answer (.store call)} (htask : p.tasks[i]? = some ⟨log, .perform (.store call) next⟩)
          (hallowed : effectAllowed (executorProtocol.after log) (.store call))
          (hpoints : points ⟨shared, p.tasks.set i ⟨log ++ [⟨.store call, answer⟩], next answer⟩⟩ =
            (points p).set i ((executorProtocol.after log).next (.store call) answer))
          (hhappens : Happens env p.shared (.store call) answer shared) : StepEffect env p
            ⟨shared, p.tasks.set i ⟨log ++ [⟨.store call, answer⟩], next answer⟩⟩ := by
        rcases hhappens.store_cases with ⟨hcommitted, result, store, hresult, hcall, rfl⟩ |
          ⟨code, conditions, rfl, hkind, rfl⟩
        · exact .store i _ call answer result hpoint hallowed hcommitted hresult hpoints rfl hcall
        · by_cases hcomplete : ∃ requestId outcome summary,
            call = .complete requestId outcome summary
          · obtain ⟨requestId, outcome, summary, rfl⟩ := hcomplete
            rw [Progress.next_refused hkind] at hpoints
            exact .refused i _ requestId hpoint hallowed.2.2 hpoints rfl rfl
          · rw [Progress.next_failed hkind fun requestId outcome summary heq =>
              hcomplete ⟨requestId, outcome, summary, heq⟩, hsame] at hpoints
            exact .nothing (.inl hpoints) rfl rfl
      cases hhappens with
      | returned call conditions reply store hcall =>
          exact hstore htask hallowed hpoints (.returned call conditions reply store hcall)
      | raised call conditions raised store hcall =>
          exact hstore htask hallowed hpoints (.raised call conditions raised store hcall)
      | recorded row => exact .record i _ row true hpoint hallowed hpoints rfl rfl
      | unrecorded row => exact .record i _ row false hpoint hallowed hpoints rfl rfl
      | sent requestId outcome =>
          refine .send i requestId outcome ?_ hpoints rfl rfl
          rw [hpoint]
          exact congrArg some hallowed
      | asked | required | read | prepared => exact .nothing (.inl (hpoints.trans hsame)) rfl rfl

/-! ## The dispatch row -/

lemma mem_set_self {xs : List α} {x : α} (h : xs[i]? = some x) (y : α) : y ∈ xs.set i y :=
  List.mem_set (List.getElem?_eq_some_iff.1 h).1 y

/-- What holds of some entry still does after one entry is replaced by one of which it holds too. -/
lemma exists_mem_set {P : α → Prop} {xs : List α} {x y : α} (hx : xs[i]? = some x) (hP : P x → P y)
    (h : ∃ z ∈ xs, P z) : ∃ z ∈ xs.set i y, P z := by
  obtain ⟨z, hz, hPz⟩ := h
  obtain ⟨j, hj⟩ := List.mem_iff_getElem?.1 hz
  by_cases hij : i = j
  · subst hij
    rw [hx, Option.some.injEq] at hj
    subst hj
    exact ⟨y, mem_set_self hx y, hP hPz⟩
  · exact ⟨z, List.mem_of_getElem? ((List.getElem?_set_ne hij).trans hj), hPz⟩

lemma PoolInvariant.points_unique (h : PoolInvariant env p) {m : Progress} (hl : l ∈ points p)
    (hm : m ∈ points p) (hlo : l.owner = some requestId) (hmo : m.owner = some requestId) : l = m := by
  obtain ⟨t, ht, rfl⟩ := List.mem_map.1 hl
  obtain ⟨u, hu, rfl⟩ := List.mem_map.1 hm
  obtain ⟨i, hi⟩ := List.mem_iff_getElem?.1 ht
  obtain ⟨j, hj⟩ := List.mem_iff_getElem?.1 hu
  have hij := h.unique i j t u hi hj requestId hlo hmo
  rw [hij, hj, Option.some.injEq] at hi
  rw [hi]

lemma PoolInvariant.points_consistent (h : PoolInvariant env p) (hl : l ∈ points p) :
    l.Consistent p.shared.store := by
  obtain ⟨t, ht, rfl⟩ := List.mem_map.1 hl
  exact h.consistent t ht

/-- The point the method has reached carries the end of the send. -/
def Progress.carries (l : Progress) (requestId : String) (outcome : SendOutcome) : Prop :=
  l = .sent requestId outcome ∨ l = .completed requestId (some outcome) ∨
    l = .refused requestId (some outcome)

lemma Progress.owner_of_carries {outcome : SendOutcome} (h : l.carries requestId outcome) :
    l.owner = some requestId := by
  rcases h with rfl | rfl | rfl <;> rfl

/-- The method has not sent the request, because `dispatch_started` could not be recorded. -/
def Progress.withholds (l : Progress) (requestId : String) : Prop :=
  l = .unannounced requestId ∨ l = .completed requestId none ∨ l = .refused requestId none

lemma Progress.owner_of_withholds (h : l.withholds requestId) : l.owner = some requestId := by
  rcases h with rfl | rfl | rfl <;> rfl

/-- Completing a request, or failing to, keeps what is known of its send. -/
lemma Progress.carries_completed (h : l.mayComplete requestId) {l' : Progress}
    (hl' : l' = .completed requestId l.outcome ∨ l' = .refused requestId l.outcome) (id : String) :
    ((∃ o, l.carries id o) → ∃ o, l'.carries id o) ∧ (l.withholds id → l'.withholds id) ∧
      (l' = .announced id → l = .announced id) := by
  cases l with
  | unannounced requestId' =>
      obtain rfl : requestId = requestId' := h
      rcases hl' with rfl | rfl <;> simp [carries, withholds, outcome]
  | sent requestId' outcome' =>
      obtain ⟨rfl, -⟩ := h
      rcases hl' with rfl | rfl <;> simp [carries, withholds, outcome]
  | _ => exact h.elim

/-- What a method has started it keeps over a call of the store that has gone through, and whether it
has sent it. -/
lemma Progress.next_store {call : StoreCall} (h : effectAllowed l (.store call))
    {answer : Answer (.store call)} (hcommitted : committed answer = true) (id : String) :
    ((∃ o, l.carries id o) → ∃ o, (l.next (.store call) answer).carries id o) ∧
      (l.withholds id → (l.next (.store call) answer).withholds id) ∧
      (l.next (.store call) answer = .announced id → l = .announced id) := by
  by_cases hordinary : call.ordinary
  · rcases next_ordinary hordinary l h answer with heq | ⟨hnext, hl⟩
    · rw [heq]
      exact ⟨fun h => h, fun h => h, fun h => h⟩
    · refine ⟨fun ⟨o, ho⟩ => ?_, fun hw => ?_, fun heq => ?_⟩
      · exact nomatch hl ▸ owner_of_carries ho
      · exact nomatch hl ▸ owner_of_withholds hw
      · exact nomatch hnext ▸ congrArg owner heq
  · cases call with
    | startExecution requestId =>
        rw [show l = .idle from h]
        refine ⟨fun ⟨o, ho⟩ => ?_, fun hw => ?_, fun heq => ?_⟩
        · exact nomatch owner_of_carries ho
        · exact nomatch owner_of_withholds hw
        · match answer with
          | .ok (some _) | .ok none | .error ⟨_, .late⟩ => cases heq
    | complete requestId outcome summary =>
        exact carries_completed h.2.2 (.inl (if_pos hcommitted)) id
    | _ => exact absurd trivial hordinary

lemma Progress.recorded_eq_of_owner (row : AuditRow) (recorded : Bool)
    (h : l.owner = some requestId) : l.recorded row recorded = l ∨ l = .started requestId := by
  cases l with
  | started id =>
      cases h
      exact .inr rfl
  | approved id => cases h
  | _ => exact .inl rfl

/-- A recorded row leads to `announced` only from `started`, where it is the `dispatch_started`
row. -/
lemma Progress.recorded_announced {recorded : Bool} (hallowed : effectAllowed l (.record row))
    (h : l.recorded row recorded = .announced requestId) :
    l = .announced requestId ∨ (recorded = true ∧ row.event = "dispatch_started" ∧
      row.requestId = some requestId) := by
  cases l with
  | approved id =>
      simp only [Progress.recorded] at h
      split_ifs at h
  | started id =>
      simp only [Progress.recorded] at h
      split_ifs at h with hevent hrecorded
      cases h
      obtain ⟨id, heq, hid⟩ := hallowed.2 hevent
      cases heq
      exact .inr ⟨hrecorded, hevent, hid⟩
  | _ => exact .inl h

/-- What the trace and the points say about dispatches. -/
structure DispatchAudited (points : List Progress) (trace : List Observation) : Prop where
  carried : ∀ requestId, .sent requestId ∈ trace →
    ∃ l ∈ points, ∃ outcome, l.carries requestId outcome
  once : (trace.filterMap Observation.sentId).Nodup
  announced : ∀ requestId, .announced requestId ∈ points →
    Recorded trace "dispatch_started" requestId
  precedes : Precedes "dispatch_started" trace
  withheld : ∀ requestId, Unrecorded trace "dispatch_started" requestId →
    ∃ l ∈ points, l.withholds requestId

lemma DispatchAudited.spawned {points : List Progress} (h : DispatchAudited points trace) :
    DispatchAudited (points ++ [.idle]) trace := by
  refine ⟨fun id hsent => ?_, h.once, fun id hid => h.announced id (by simpa using hid), h.precedes,
    fun id hid => ?_⟩
  · obtain ⟨l, hl, hcarries⟩ := h.carried id hsent
    exact ⟨l, List.mem_append_left _ hl, hcarries⟩
  · obtain ⟨l, hl, hwithholds⟩ := h.withheld id hid
    exact ⟨l, List.mem_append_left _ hl, hwithholds⟩

/-- A point that moves on without a word in the trace. -/
lemma DispatchAudited.moved {points : List Progress} (h : DispatchAudited points trace)
    {l' : Progress} (hpoint : points[i]? = some l)
    (hcarries : ∀ id, (∃ o, l.carries id o) → ∃ o, l'.carries id o)
    (hwithholds : ∀ id, l.withholds id → l'.withholds id)
    (hannounced : ∀ id, l' = .announced id → l = .announced id) :
    DispatchAudited (points.set i l') trace where
  carried := fun id hsent => exists_mem_set hpoint (hcarries id) (h.carried id hsent)
  once := h.once
  announced := by
    intro id hid
    rcases List.mem_or_eq_of_mem_set hid with hid | hid
    · exact h.announced id hid
    · exact h.announced id (hannounced id hid.symm ▸ List.mem_of_getElem? hpoint)
  precedes := h.precedes
  withheld := fun id hid => exists_mem_set hpoint (hwithholds id) (h.withheld id hid)

lemma DispatchAudited.recorded {points : List Progress} (h : DispatchAudited points trace)
    (hpoint : points[i]? = some l) {recorded : Bool} (hallowed : effectAllowed l (.record row)) :
    DispatchAudited (points.set i (l.recorded row recorded))
      (trace ++ [if recorded then .recorded row else .unrecorded row]) := by
  have hsent (id : String) :
      (if recorded then .recorded row else .unrecorded row : Observation) ≠ .sent id := by
    cases recorded <;> simp
  refine ⟨fun id hmem => ?_, ?_, fun id hid => ?_, ?_, fun id hid => ?_⟩
  · refine exists_mem_set hpoint (fun ⟨o, ho⟩ => ⟨o, ?_⟩) (h.carried id ?_)
    · rcases Progress.recorded_eq_of_owner row recorded (Progress.owner_of_carries ho)
        with heq | rfl
      · rwa [heq]
      · rcases ho with ho | ho | ho <;> cases ho
    · rcases List.mem_append.1 hmem with hmem | hmem
      · exact hmem
      · exact absurd (List.mem_singleton.1 hmem).symm (hsent id)
  · have hnone : [if recorded then Observation.recorded row else .unrecorded row].filterMap
        Observation.sentId = [] := by
      cases recorded <;> rfl
    rw [List.filterMap_append, hnone, List.append_nil]
    exact h.once
  · rcases List.mem_or_eq_of_mem_set hid with hid | hid
    · exact (h.announced id hid).append _
    · rcases Progress.recorded_announced hallowed hid.symm with heq | ⟨rfl, hevent, hrow⟩
      · exact (h.announced id (heq ▸ List.mem_of_getElem? hpoint)).append _
      · exact ⟨row, List.mem_append_right _ List.mem_cons_self, hevent, hrow⟩
  · exact h.precedes.append fun id heq => absurd heq (hsent id)
  · rcases unrecorded_append.1 hid with hid | ⟨row', heq, hevent, hrow⟩
    · refine exists_mem_set hpoint (fun hwithholds => ?_) (h.withheld id hid)
      rcases Progress.recorded_eq_of_owner row recorded (Progress.owner_of_withholds hwithholds)
        with heq | rfl
      · rwa [heq]
      · rcases hwithholds with hw | hw | hw <;> cases hw
    · cases recorded with
      | true => cases heq
      | false =>
          cases heq
          obtain ⟨id', rfl, hid'⟩ := hallowed.2 hevent
          rw [hrow, Option.some.injEq] at hid'
          refine ⟨_, mem_set_self hpoint _, .inl ?_⟩
          simp [Progress.recorded, hevent, hid']

lemma DispatchAudited.sent {points : List Progress} (h : DispatchAudited points trace)
    (hpoint : points[i]? = some (.announced requestId))
    (hunique : ∀ l ∈ points, l.owner = some requestId → l = .announced requestId)
    (outcome : SendOutcome) :
    DispatchAudited (points.set i (.sent requestId outcome)) (trace ++ [.sent requestId]) := by
  refine ⟨fun id hmem => ?_, ?_, fun id hid => ?_, ?_, fun id hid => ?_⟩
  · rcases List.mem_append.1 hmem with hmem | hmem
    · refine exists_mem_set hpoint (fun ⟨o, ho⟩ => ?_) (h.carried id hmem)
      rcases ho with ho | ho | ho <;> cases ho
    · cases List.mem_singleton.1 hmem
      exact ⟨_, mem_set_self hpoint _, outcome, .inl rfl⟩
  · rw [List.filterMap_append, List.nodup_append]
    refine ⟨h.once, by simp [Observation.sentId], fun a ha b hb heq => ?_⟩
    obtain rfl : b = requestId := by simpa [Observation.sentId] using hb
    obtain ⟨o, ho, hsent⟩ := List.mem_filterMap.1 (heq ▸ ha)
    -- The request would have been sent before, by the method that sends it now.
    obtain rfl : o = .sent b := by
      cases o <;> simp_all [Observation.sentId]
    obtain ⟨l, hl, outcome', hcarries⟩ := h.carried b ho
    rw [hunique l hl (Progress.owner_of_carries hcarries)] at hcarries
    rcases hcarries with hc | hc | hc <;> cases hc
  · rcases List.mem_or_eq_of_mem_set hid with hid | hid
    · exact (h.announced id hid).append _
    · cases hid
  · refine h.precedes.append fun id heq => ?_
    cases heq
    exact h.announced requestId (List.mem_of_getElem? hpoint)
  · rcases unrecorded_append.1 hid with hid | ⟨row, heq, -⟩
    · refine exists_mem_set hpoint (fun hw => ?_) (h.withheld id hid)
      rcases hw with hw | hw | hw <;> cases hw
    · cases heq

lemma DispatchAudited.step {p p' : ExecutorPool} (hp : PoolInvariant env p)
    (h : DispatchAudited (points p) p.shared.trace) (hstep : StepEffect env p p') :
    DispatchAudited (points p') p'.shared.trace := by
  cases hstep with
  | nothing hpoints hstore htrace =>
      rw [htrace]
      rcases hpoints with heq | heq <;> rw [heq]
      · exact h
      · exact h.spawned
  | outside connectorId environment reason hpoints htrace hchange =>
      rw [hpoints, htrace]
      exact h
  | store i l call answer result hpoint hallowed hcommitted hresult hpoints htrace hcall =>
      rw [hpoints, htrace]
      have hnext := Progress.next_store hallowed hcommitted
      exact h.moved hpoint (fun id => (hnext id).1) (fun id => (hnext id).2.1)
        fun id => (hnext id).2.2
  | refused i l requestId hpoint hmay hpoints hstore htrace =>
      rw [hpoints, htrace]
      have hnext := Progress.carries_completed hmay (.inr rfl)
      exact h.moved hpoint (fun id => (hnext id).1) (fun id => (hnext id).2.1)
        fun id => (hnext id).2.2
  | record i l row recorded hpoint hallowed hpoints hstore htrace =>
      rw [hpoints, htrace]
      exact h.recorded hpoint hallowed
  | send i requestId outcome hpoint hpoints hstore htrace =>
      rw [hpoints, htrace]
      exact h.sent hpoint (fun l hl howner =>
        hp.points_unique hl (List.mem_of_getElem? hpoint) howner rfl) outcome

/-- What could not be announced is not sent. -/
lemma DispatchAudited.not_sent (hp : PoolInvariant env p)
    (h : DispatchAudited (points p) p.shared.trace)
    (hunrecorded : Unrecorded p.shared.trace "dispatch_started" requestId) :
    .sent requestId ∉ p.shared.trace := by
  intro hsent
  obtain ⟨l, hl, outcome, hcarries⟩ := h.carried requestId hsent
  obtain ⟨m, hm, hwithholds⟩ := h.withheld requestId hunrecorded
  rw [hp.points_unique hl hm (Progress.owner_of_carries hcarries)
    (Progress.owner_of_withholds hwithholds)] at hcarries
  rcases hcarries with rfl | rfl | rfl <;> rcases hwithholds with hw | hw | hw <;> cases hw

end Execution
end MercuryTools
