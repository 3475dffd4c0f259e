import MercuryTools.Execution.ExecutorPool

/-!
# Runs of the executors

`PoolInvariant` holds in every reachable pool.  From it follows when `execute_write` strands a
request: exactly when the provider client ends in a way that is not caught, when the store fails
after it has started the request, or when it fails to complete it (`no_stranded_execution_iff`).
-/

namespace MercuryTools
namespace Execution

open Checks Programs RequestStore

variable {env : Environment}

/-! ## What a method's progress says about the store -/

/-- The request a method has started. -/
def Progress.owner : Progress → Option String
  | .started id | .abandoned id | .announced id | .unannounced id | .sent id _ | .refused id _
  | .completed id _ => some id
  | _ => none

/-- A started request is being executed until it is completed. -/
def Progress.Consistent (store : RequestStore) : Progress → Prop
  | .started id | .abandoned id | .announced id | .unannounced id | .sent id _ | .refused id _ =>
      store.HasState id (· = .executing)
  | .completed id _ => store.HasState id (· ∈ resolvedStates)
  | _ => True

variable {l l' : Progress} {store : RequestStore} {requestId code : String}
  {c : Instant × StoreCall} {call : StoreCall} {e : Effect} {log : List ((e : Effect) × Answer e)}
  {p : ExecutorPool} {i : Nat} {shared : World}

lemma Progress.consistent_of_owner (h : l.owner = none) (store : RequestStore) :
    l.Consistent store := by
  cases l <;> simp_all [Progress.owner, Progress.Consistent]

/-- A started request is not waiting any more. -/
lemma Progress.Consistent.hasState (h : l.Consistent store) (howner : l.owner = some requestId) :
    store.HasState requestId (· ∈ [.executing, .succeeded, .failed, .outcomeUnknown]) := by
  cases l with
  | started id | abandoned id | announced id | unannounced id | sent id outcome
  | refused id outcome =>
      cases howner
      exact HasState.mono (P := (· = .executing)) h fun state hstate => by simp [hstate]
  | completed id outcome =>
      cases howner
      exact HasState.mono (P := (· ∈ resolvedStates)) h fun state hstate =>
        List.mem_cons_of_mem _ hstate
  | _ => cases howner

lemma Progress.Consistent.change {store' : RequestStore} (h : l.Consistent store)
    (hchange : StoreChange env store c store') (hcall : ∀ requestId, l.owner = some requestId →
      ∀ outcome summary, c.2 ≠ .complete requestId outcome summary) : l.Consistent store' := by
  cases l with
  | started id | abandoned id | announced id | unannounced id | sent id outcome
  | refused id outcome => exact hchange.hasState_executing (hcall id rfl) h
  | completed id outcome => exact hchange.hasState_resolved h
  | _ => exact h

/-! ## One effect -/

/-- The call names neither `start_execution` nor `complete`. -/
def StoreCall.ordinary : StoreCall → Prop
  | .startExecution _ | .complete _ _ _ => False
  | _ => True

/-- An ordinary call leaves a method where it is, or at a point where it has started nothing. -/
lemma Progress.next_ordinary (h : call.ordinary) (l : Progress)
    (hallowed : effectAllowed l (.store call))
    (answer : Except StoreFailure (Option PreparedRequest)) :
    l.next (.store call) answer = l ∨
      ((l.next (.store call) answer).owner = none ∧ l.owner = none) := by
  cases call with
  | startExecution requestId => exact h.elim
  | complete requestId outcome summary => exact h.elim
  | approve requestId payloadHash expectedClass =>
      cases hallowed
      match answer with
      | .ok (some request) => exact .inr ⟨rfl, rfl⟩
      | .ok none => exact .inl rfl
      | .error ⟨_, .refused⟩ => exact .inl rfl
      | .error ⟨_, .unavailable⟩ => exact .inl rfl
      | .error ⟨_, .late⟩ => exact .inr ⟨rfl, rfl⟩
  | invalidate requestId reason =>
      cases l <;> simp only [Progress.next, Progress.withdrawn, ite_self, true_or]
      all_goals split_ifs <;> simp [Progress.owner]
  | _ => exact .inl rfl

lemma Progress.next_refused {outcome : String} {summary : Json} {kind : FailureKind}
    (hkind : kind ≠ .late) : l.next (.store (.complete requestId outcome summary))
      (.error ⟨code, kind⟩) = .refused requestId l.outcome :=
  if_neg (by simpa [committed] using hkind)

lemma Progress.next_failed {kind : FailureKind} (hkind : kind ≠ .late)
    (hcall : ∀ requestId outcome summary, call ≠ .complete requestId outcome summary) :
    l.next (.store call) (.error ⟨code, kind⟩) = l := by
  cases kind with
  | late => exact absurd rfl hkind
  | refused | unavailable =>
      cases call with
      | complete requestId outcome summary => exact absurd rfl (hcall _ _ _)
      | _ => rfl

/-- Recording and sending keep the started request. -/
lemma Progress.recorded_owner (l : Progress) (row : AuditRow) (recorded : Bool)
    (store : RequestStore) (h : l.Consistent store) :
    (l.recorded row recorded).owner = l.owner ∧ (l.recorded row recorded).Consistent store := by
  cases l with
  | approved id =>
      simp only [Progress.recorded]
      split_ifs <;> simp [Progress.owner, Progress.Consistent]
  | started id =>
      simp only [Progress.recorded]
      split_ifs
      · exact ⟨rfl, h⟩
      · exact ⟨rfl, h⟩
      · exact ⟨rfl, h⟩
  | _ => exact ⟨rfl, h⟩

lemma Progress.owner_of_mayComplete (h : l.mayComplete requestId) :
    l.owner = some requestId ∧
      ∀ store : RequestStore, l.Consistent store → store.HasState requestId (· = .executing) := by
  cases l with
  | unannounced id =>
      cases h
      exact ⟨rfl, fun _ hl => hl⟩
  | sent id outcome =>
      obtain ⟨rfl, -⟩ := h
      exact ⟨rfl, fun _ hl => hl⟩
  | _ => exact h.elim

/-! ## Logs -/

/-- The request that an effect moves to `executing`. -/
def startedBy : ((e : Effect) × Answer e) → Option String
  | ⟨.store (.startExecution requestId), .ok (some _)⟩ => some requestId
  | ⟨.store (.startExecution requestId), .error ⟨_, .late⟩⟩ => some requestId
  | _ => none

/-- What may strand a request. -/
inductive Mishap where
  | sent (requestId : String) (outcome : SendOutcome)
  | abandoned (requestId : String)
  | refused (requestId : String)

def mishapOf : ((e : Effect) × Answer e) → Option Mishap
  | ⟨.send requestId, outcome⟩ => some (.sent requestId outcome)
  | ⟨.store (.startExecution requestId), .error ⟨_, .late⟩⟩ => some (.abandoned requestId)
  | ⟨.store (.complete requestId _ _), .error ⟨_, .unavailable⟩⟩ => some (.refused requestId)
  | _ => none

/-- The sends and failures on the way to a point. -/
def Progress.mishaps : Progress → List Mishap
  | .sent id outcome | .completed id (some outcome) => [.sent id outcome]
  | .abandoned id => [.abandoned id]
  | .refused id (some outcome) => [.sent id outcome, .refused id]
  | .refused id none => [.refused id]
  | _ => []

lemma not_started_of_ordinary (h : call.ordinary)
    (answer : Except StoreFailure (Option PreparedRequest)) :
    startedBy ⟨.store call, answer⟩ = none ∧ mishapOf ⟨.store call, answer⟩ = none := by
  cases call with
  | startExecution | complete => exact h.elim
  | _ => exact ⟨rfl, rfl⟩

lemma not_started_of_failed {kind : FailureKind} (hkind : kind ≠ .late)
    (hcall : ∀ requestId outcome summary, call ≠ .complete requestId outcome summary) :
    startedBy ⟨.store call, .error ⟨code, kind⟩⟩ = none ∧
      mishapOf ⟨.store call, .error ⟨code, kind⟩⟩ = none := by
  cases kind with
  | late => exact absurd rfl hkind
  | refused | unavailable =>
      cases call with
      | complete requestId outcome summary => exact absurd rfl (hcall _ _ _)
      | _ => exact ⟨rfl, rfl⟩

/-- What the log of a task says about its progress. -/
structure Logged (log : List ((e : Effect) × Answer e)) (l : Progress) : Prop where
  started : ∀ entry ∈ log, ∀ requestId, startedBy entry = some requestId → l.owner = some requestId
  mishaps : log.filterMap mishapOf = l.mishaps
  handled : ∀ requestId outcome, l = .completed requestId (some outcome) → outcome.handled = true

lemma Progress.mishaps_of_owner (h : l.owner = none) : l.mishaps = [] := by
  cases l <;> first | rfl | cases h

lemma Logged.append {log : List ((e : Effect) × Answer e)} {a : Answer e} (h : Logged log l)
    (hstart : ∀ requestId, startedBy ⟨e, a⟩ = some requestId → l'.owner = some requestId)
    (howner : ∀ requestId, l.owner = some requestId → l'.owner = some requestId)
    (hmishaps : l'.mishaps = l.mishaps ++ (mishapOf ⟨e, a⟩).toList)
    (hhandled : ∀ requestId outcome, l' = .completed requestId (some outcome) →
      outcome.handled = true) : Logged (log ++ [⟨e, a⟩]) l' := by
  refine ⟨fun entry hmem requestId hentry => ?_, ?_, hhandled⟩
  · rcases List.mem_append.1 hmem with hmem | hmem
    · exact howner requestId (h.started entry hmem requestId hentry)
    · exact hstart requestId (List.mem_singleton.1 hmem ▸ hentry)
  · rw [List.filterMap_append, h.mishaps, hmishaps]
    cases hmishap : mishapOf ⟨e, a⟩ <;> simp [hmishap]

/-- An effect that leaves the method where it is, or where it has started nothing. -/
lemma Logged.append_keep {log : List ((e : Effect) × Answer e)} {a : Answer e} (h : Logged log l)
    (hstart : startedBy ⟨e, a⟩ = none) (hmishap : mishapOf ⟨e, a⟩ = none)
    (hkeep : l' = l ∨ (l'.owner = none ∧ l.owner = none)) : Logged (log ++ [⟨e, a⟩]) l' := by
  have hnew : ∀ requestId, startedBy ⟨e, a⟩ = some requestId → l'.owner = some requestId := by
    rw [hstart]
    nofun
  rcases hkeep with rfl | ⟨hl', hl⟩
  · exact h.append hnew (fun _ => id) (by simp [hmishap]) h.handled
  · refine h.append hnew (fun requestId howner => ?_) ?_ fun requestId outcome heq => ?_
    · rw [hl] at howner
      cases howner
    · rw [Progress.mishaps_of_owner hl', Progress.mishaps_of_owner hl, hmishap]
      rfl
    · rw [heq] at hl'
      cases hl'

lemma Logged.append_record (h : Logged log l) (row : AuditRow) (recorded : Bool) :
    Logged (log ++ [⟨.record row, recorded⟩]) (l.recorded row recorded) := by
  cases l with
  | approved id =>
      refine h.append_keep rfl rfl (.inr ⟨?_, rfl⟩)
      simp only [Progress.recorded]
      split_ifs <;> rfl
  | started id =>
      refine h.append (fun _ hid => by cases hid) ?_ ?_ ?_ <;> simp only [Progress.recorded]
      · split_ifs <;> exact fun _ howner => howner
      · split_ifs <;> rfl
      · split_ifs <;> exact fun _ _ hout => by cases hout
  | _ => exact h.append_keep rfl rfl (.inl rfl)

/-- Completing a request, or failing to. -/
lemma Logged.append_complete (h : Logged log l) (hl : l.mayComplete requestId) (outcome : String)
    (summary : Json) {answer : Except StoreFailure (Option PreparedRequest)}
    (hanswer : ∀ failure, answer = .error failure → failure.kind ≠ .refused) :
    Logged (log ++ [⟨.store (.complete requestId outcome summary), answer⟩])
      (l.next (.store (.complete requestId outcome summary)) answer) := by
  have howner := (Progress.owner_of_mayComplete hl).1
  refine h.append (fun _ hid => by cases hid) ?_ ?_ ?_
  · intro id hid
    rw [howner] at hid
    simp only [Progress.next]
    split_ifs <;> exact hid
  · obtain ⟨message, kind⟩ | _ := answer
    · cases l with
      | unannounced id => cases kind <;> first | rfl | exact absurd rfl (hanswer _ rfl)
      | sent id o =>
          obtain ⟨rfl, -⟩ := hl
          cases kind <;> first | rfl | exact absurd rfl (hanswer _ rfl)
      | _ => exact hl.elim
    · cases l with
      | unannounced id => rfl
      | sent id o => obtain ⟨rfl, -⟩ := hl; rfl
      | _ => exact hl.elim
  · intro id o heq
    simp only [Progress.next] at heq
    split_ifs at heq
    cases l with
    | sent id' o' =>
        simp only [Progress.completed.injEq, Progress.outcome, Option.some.injEq] at heq
        exact heq.2 ▸ hl.2
    | unannounced id' => simp [Progress.outcome] at heq
    | _ => exact hl.elim

/-! ## The invariant -/

structure PoolInvariant (env : Environment) (p : ExecutorPool) : Prop where
  sound : p.shared.store.Sound env
  safe : ReplaySafe p.shared.store
  keeps : p.Keeps executorProtocol fun l _ => l.ended
  consistent : ∀ task ∈ p.tasks, (progress task).Consistent p.shared.store
  unique : ∀ (i j : Nat) (t u : Task Effect Answer Unit), p.tasks[i]? = some t →
    p.tasks[j]? = some u → ∀ requestId, (progress t).owner = some requestId →
      (progress u).owner = some requestId → i = j
  logged : ∀ task ∈ p.tasks, Logged task.log (progress task)

lemma poolInvariant_initial (repositoryId : String) (now : Instant) :
    PoolInvariant env (ExecutorPool.initial repositoryId now) where
  sound := sound_empty repositoryId
  safe := fun a ha => by simp [ExecutorPool.initial, empty] at ha
  keeps := fun task htask => by simp [ExecutorPool.initial] at htask
  consistent := fun task htask => by simp [ExecutorPool.initial] at htask
  unique := fun i j t u ht => by simp [ExecutorPool.initial] at ht
  logged := fun task htask => by simp [ExecutorPool.initial] at htask

/-- Every method starts at `idle` and keeps to the protocol. -/
lemma keeps_entry {program : Exec Unit} (h : Entry env program) : Ends program .idle := by
  cases h with
  | previewWrite session action environment inputs =>
      exact Keeps.bind (Exec.ends_previewWrite session action environment inputs)
        (fun _ _ hl => hl) fun _ hl => hl
  | confirmWrite session requestId payloadHash =>
      exact Keeps.bind (Exec.ends_confirmWrite session requestId payloadHash)
        (fun _ _ hl => hl) fun _ hl => hl
  | approveAndExecute session requestId payloadHash expectedClass =>
      exact Keeps.bind (Exec.ends_approveAndExecute session requestId payloadHash expectedClass)
        (fun _ _ hl => hl) fun _ hl => hl
  | executeWrite session requestId =>
      exact Keeps.bind (Exec.ends_executeWrite session requestId) (fun _ _ hl => hl)
        fun _ hl => hl
  | resolveUnknownWithStatus session requestId =>
      exact Keeps.bind (Exec.ends_resolveUnknownWithStatus session requestId)
        (fun _ _ hl => hl) fun _ hl => hl

/-- A store call by one method, or from outside, leaves the others where they are. -/
lemma PoolInvariant.others (h : PoolInvariant env p)
    (hchange : StoreChange env p.shared.store c store) {task : Task Effect Answer Unit}
    (htask : task ∈ p.tasks) (hcall : ∀ requestId, (progress task).owner = some requestId →
      ∀ outcome summary, c.2 ≠ .complete requestId outcome summary) :
    (progress task).Consistent store :=
  (h.consistent task htask).change hchange hcall

/-- The invariant after one effect of the task `i`, put together from what the effect does. -/
lemma PoolInvariant.perform (h : PoolInvariant env p) {log : List ((e : Effect) × Answer e)}
    {next : Answer e → Exec Unit} (htask : p.tasks[i]? = some ⟨log, .perform e next⟩) {a : Answer e}
    (hkeeps : Pool.Keeps executorProtocol (fun l _ => l.ended)
      (⟨shared, p.tasks.set i ⟨log ++ [⟨e, a⟩], next a⟩⟩ : ExecutorPool))
    (hsound : shared.store.Sound env) (hsafe : ReplaySafe shared.store)
    (hothers : ∀ j t, j ≠ i → p.tasks[j]? = some t → (progress t).Consistent shared.store)
    (hself : ((executorProtocol.after log).next e a).Consistent shared.store)
    (howner : ∀ requestId, ((executorProtocol.after log).next e a).owner = some requestId →
      (executorProtocol.after log).owner = some requestId ∨
        ∀ t ∈ p.tasks, (progress t).owner ≠ some requestId)
    (hlogged : Logged (log ++ [⟨e, a⟩]) ((executorProtocol.after log).next e a)) :
    PoolInvariant env ⟨shared, p.tasks.set i ⟨log ++ [⟨e, a⟩], next a⟩⟩ := by
  have hlt : i < p.tasks.length := (List.getElem?_eq_some_iff.1 htask).1
  have hnew : progress ⟨log ++ [⟨e, a⟩], next a⟩ = (executorProtocol.after log).next e a :=
    Protocol.after_append log e a
  have hget (j : Nat) (t : Task Effect Answer Unit)
      (hj : (p.tasks.set i ⟨log ++ [⟨e, a⟩], next a⟩)[j]? = some t) :
      (j = i ∧ t = ⟨log ++ [⟨e, a⟩], next a⟩) ∨ (j ≠ i ∧ p.tasks[j]? = some t) := by
    rcases eq_or_ne j i with rfl | hne
    · rw [List.getElem?_set_self hlt, Option.some.injEq] at hj
      exact .inl ⟨rfl, hj.symm⟩
    · rw [List.getElem?_set_ne (Ne.symm hne)] at hj
      exact .inr ⟨hne, hj⟩
  refine ⟨hsound, hsafe, hkeeps, fun task hmem => ?_, fun j k t u hj hk requestId ht hu => ?_,
    fun task hmem => ?_⟩
  · obtain ⟨j, hj⟩ := List.mem_iff_getElem?.1 hmem
    rcases hget j task hj with ⟨-, rfl⟩ | ⟨hne, hj⟩
    · rw [hnew]
      exact hself
    · exact hothers j task hne hj
  · rcases hget j t hj with ⟨rfl, rfl⟩ | ⟨-, hj'⟩ <;>
      rcases hget k u hk with ⟨rfl, rfl⟩ | ⟨-, hk'⟩
    · rfl
    · rw [hnew] at ht
      rcases howner requestId ht with hold | hfree
      · exact h.unique _ _ _ _ htask hk' requestId hold hu
      · exact absurd hu (hfree u (List.mem_of_getElem? hk'))
    · rw [hnew] at hu
      rcases howner requestId hu with hold | hfree
      · exact h.unique _ _ _ _ hj' htask requestId ht hold
      · exact absurd ht (hfree t (List.mem_of_getElem? hj'))
    · exact h.unique _ _ _ _ hj' hk' requestId ht hu
  · obtain ⟨j, hj⟩ := List.mem_iff_getElem?.1 hmem
    rcases hget j task hj with ⟨-, rfl⟩ | ⟨-, hj⟩
    · rw [hnew]
      exact hlogged
    · exact h.logged task (List.mem_of_getElem? hj)

/-- The invariant after an effect that leaves the store alone. -/
lemma PoolInvariant.perform_quiet (h : PoolInvariant env p) {log : List ((e : Effect) × Answer e)}
    {next : Answer e → Exec Unit} (htask : p.tasks[i]? = some ⟨log, .perform e next⟩) {a : Answer e}
    (hkeeps : Pool.Keeps executorProtocol (fun l _ => l.ended)
      (⟨shared, p.tasks.set i ⟨log ++ [⟨e, a⟩], next a⟩⟩ : ExecutorPool))
    (hstore : shared.store = p.shared.store)
    (hself : ((executorProtocol.after log).next e a).Consistent p.shared.store)
    (howner : ((executorProtocol.after log).next e a).owner = (executorProtocol.after log).owner)
    (hlogged : Logged (log ++ [⟨e, a⟩]) ((executorProtocol.after log).next e a)) :
    PoolInvariant env ⟨shared, p.tasks.set i ⟨log ++ [⟨e, a⟩], next a⟩⟩ := by
  refine h.perform htask hkeeps (hstore ▸ h.sound) (hstore ▸ h.safe) (fun j t _ hj => ?_)
    (hstore ▸ hself) (fun requestId hnew => .inl (howner ▸ hnew)) hlogged
  rw [hstore]
  exact h.consistent t (List.mem_of_getElem? hj)

/-- The invariant after a call of the store that has gone through. -/
lemma PoolInvariant.perform_committed (h : PoolInvariant env p)
    {next : Answer (.store call) → Exec Unit}
    (htask : p.tasks[i]? = some ⟨log, .perform (.store call) next⟩) {answer : Answer (.store call)}
    {result : Option PreparedRequest} (hkeeps : Pool.Keeps executorProtocol (fun l _ => l.ended)
      (⟨{ p.shared with store := store }, p.tasks.set i
        ⟨log ++ [⟨.store call, answer⟩], next answer⟩⟩ : ExecutorPool))
    (hallowed : effectAllowed (executorProtocol.after log) (.store call))
    (hcommitted : committed answer = true) (hresult : ∀ r, answer = .ok r → r = result)
    (hcall : p.shared.store.perform env (p.shared.now, call) = .ok (result, store)) :
    PoolInvariant env ⟨{ p.shared with store := store }, p.tasks.set i
      ⟨log ++ [⟨.store call, answer⟩], next answer⟩⟩ := by
  have hmem := List.mem_of_getElem? htask
  have hself : (executorProtocol.after log).Consistent p.shared.store := h.consistent _ hmem
  have hlogged : Logged log (executorProtocol.after log) := h.logged _ hmem
  have hchange : StoreChange env p.shared.store (p.shared.now, call) store :=
    h.sound.call_change (call_of_perform hcall)
  have hsound := hchange.sound h.sound
  have hsafe := hchange.replaySafe h.sound h.safe
  by_cases hordinary : call.ordinary
  · have hothers {task : Task Effect Answer Unit} (htask : task ∈ p.tasks) :
        (progress task).Consistent store :=
      h.others hchange htask fun requestId _ outcome summary heq => by
        rw [show call = _ from heq] at hordinary
        exact hordinary
    have hkeep := Progress.next_ordinary hordinary _ hallowed answer
    obtain ⟨hstart, hmishap⟩ := not_started_of_ordinary hordinary answer
    refine h.perform htask hkeeps hsound hsafe (fun j t _ hj => hothers (List.mem_of_getElem? hj))
      ?_ ?_ (hlogged.append_keep hstart hmishap hkeep)
    · rcases hkeep with heq | ⟨hnone, -⟩
      · rw [heq]
        exact hothers hmem
      · exact Progress.consistent_of_owner hnone _
    · intro requestId hnew
      rcases hkeep with heq | ⟨hnone, -⟩
      · exact .inl (heq ▸ hnew)
      · rw [hnone] at hnew
        cases hnew
  · cases call with
    | startExecution requestId =>
        obtain ⟨request, rfl, hid, hready, hexecuting⟩ := h.sound.perform_startExecution hcall
        have hidle : executorProtocol.after log = .idle := hallowed
        have hfree (id : String) (heq : some requestId = some id) :
            (executorProtocol.after log).owner = some id ∨
              ∀ t ∈ p.tasks, (progress t).owner ≠ some id := by
          cases heq
          refine .inr fun t ht howner => ?_
          obtain ⟨state, hstate, rfl⟩ := h.sound.hasState_unique
            ((h.consistent t ht).hasState howner) hready
          simp at hstate
        have hothers (j : ℕ) (t : Task Effect Answer Unit) (_ : j ≠ i) (hj : p.tasks[j]? = some t) :
            (progress t).Consistent store :=
          h.others hchange (List.mem_of_getElem? hj) fun _ _ _ _ => by simp
        match answer with
        | .ok result =>
            obtain rfl := hresult result rfl
            have hnext : (executorProtocol.after log).next (.store (.startExecution requestId))
                (.ok (some request)) = .started requestId := by rw [← hid]; rfl
            refine h.perform htask hkeeps hsound hsafe hothers ?_ ?_ ?_ <;> rw [hnext]
            · exact hexecuting
            · exact hfree
            · exact hlogged.append (fun _ => id) (by rw [hidle]; nofun) (by rw [hidle]; rfl) nofun
        | .error ⟨_, .late⟩ =>
            exact h.perform htask hkeeps hsound hsafe hothers hexecuting hfree
              (hlogged.append (fun _ => id) (by rw [hidle]; nofun) (by rw [hidle]; rfl) nofun)
    | complete requestId outcome summary =>
        obtain ⟨-, -, hmay⟩ := hallowed
        have howner := (Progress.owner_of_mayComplete hmay).1
        have hnext : (executorProtocol.after log).next
            (.store (.complete requestId outcome summary)) answer =
              .completed requestId (executorProtocol.after log).outcome := if_pos hcommitted
        refine h.perform htask hkeeps hsound hsafe (fun j t hne hj => ?_) ?_ ?_
          (hlogged.append_complete hmay outcome summary ?_)
        · refine h.others hchange (List.mem_of_getElem? hj) fun id hid outcome' summary' heq => ?_
          cases heq
          exact hne (h.unique _ _ _ _ hj htask requestId hid howner)
        · rw [hnext]
          exact h.sound.perform_complete hcall
        · rw [hnext]
          exact fun id heq => .inl (howner.trans heq)
        · rintro failure rfl hrefused
          simp [committed, hrefused] at hcommitted
    | _ => exact absurd trivial hordinary

/-- The invariant after a call of the store that has failed: it leaves a method where it is, unless
it was to complete a request. -/
lemma PoolInvariant.perform_failed (h : PoolInvariant env p)
    {next : Answer (.store call) → Exec Unit}
    (htask : p.tasks[i]? = some ⟨log, .perform (.store call) next⟩) {conditions : Conditions}
    (hkeeps : Pool.Keeps executorProtocol (fun l _ => l.ended)
      (⟨p.shared, p.tasks.set i ⟨log ++ [⟨.store call, .error ⟨code,
        failureKind env p.shared.now call conditions p.shared.store⟩⟩], next (.error ⟨code,
        failureKind env p.shared.now call conditions p.shared.store⟩)⟩⟩ : ExecutorPool))
    (hallowed : effectAllowed (executorProtocol.after log) (.store call))
    (hkind : failureKind env p.shared.now call conditions p.shared.store ≠ .late) :
    PoolInvariant env ⟨p.shared, p.tasks.set i ⟨log ++ [⟨.store call, .error ⟨code,
      failureKind env p.shared.now call conditions p.shared.store⟩⟩], next (.error ⟨code,
      failureKind env p.shared.now call conditions p.shared.store⟩)⟩⟩ := by
  have hmem := List.mem_of_getElem? htask
  have hself : (executorProtocol.after log).Consistent p.shared.store := h.consistent _ hmem
  have hlogged : Logged log (executorProtocol.after log) := h.logged _ hmem
  by_cases hcomplete : ∃ requestId outcome summary, call = .complete requestId outcome summary
  · obtain ⟨requestId, outcome, summary, rfl⟩ := hcomplete
    obtain ⟨houtcome, hsummary, hmay⟩ := hallowed
    obtain ⟨howner, hexecuting⟩ := Progress.owner_of_mayComplete hmay
    have hnext : (executorProtocol.after log).next (.store (.complete requestId outcome summary))
        (.error ⟨code, _⟩) = .refused requestId _ := Progress.next_refused hkind
    have hrefused : failureKind env p.shared.now _ conditions p.shared.store ≠ .refused :=
      h.sound.failureKind_complete h.safe (hexecuting _ hself) houtcome hsummary conditions
    refine h.perform_quiet htask hkeeps rfl ?_ ?_ (hlogged.append_complete hmay outcome summary ?_)
    · rw [hnext]
      exact hexecuting _ hself
    · rw [hnext, howner]
      rfl
    · rintro _ ⟨⟩
      exact hrefused
  · have hother (requestId outcome : String) (summary : Json) :
        call ≠ .complete requestId outcome summary :=
      fun heq => hcomplete ⟨requestId, outcome, summary, heq⟩
    have hnext : (executorProtocol.after log).next (.store call) (.error ⟨code, _⟩) = _ :=
      Progress.next_failed hkind hother
    obtain ⟨hstart, hmishap⟩ := not_started_of_failed hkind hother
    exact h.perform_quiet htask hkeeps rfl (by rw [hnext]; exact hself) (by rw [hnext])
      (hlogged.append_keep hstart hmishap (.inl hnext))

lemma PoolInvariant.perform_store (h : PoolInvariant env p)
    {next : Answer (.store call) → Exec Unit}
    (htask : p.tasks[i]? = some ⟨log, .perform (.store call) next⟩) {answer : Answer (.store call)}
    (hkeeps : Pool.Keeps executorProtocol (fun l _ => l.ended)
      (⟨shared, p.tasks.set i ⟨log ++ [⟨.store call, answer⟩], next answer⟩⟩ : ExecutorPool))
    (hallowed : effectAllowed (executorProtocol.after log) (.store call))
    (hhappens : Happens env p.shared (.store call) answer shared) :
    PoolInvariant env ⟨shared, p.tasks.set i ⟨log ++ [⟨.store call, answer⟩], next answer⟩⟩ := by
  rcases hhappens.store_cases with ⟨hcommitted, result, store, hresult, hcall, rfl⟩ |
    ⟨code, conditions, rfl, hkind, rfl⟩
  · exact h.perform_committed htask hkeeps hallowed hcommitted hresult hcall
  · exact h.perform_failed htask hkeeps hallowed hkind

/-- One step of the executors keeps the invariant. -/
theorem PoolInvariant.step {p p' : ExecutorPool} (h : PoolInvariant env p)
    (hstep : Pool.Step (executorRules env) p p') : PoolInvariant env p' := by
  have hkeeps : p'.Keeps executorProtocol fun l _ => l.ended :=
    h.keeps.step (fun program hprogram => keeps_entry hprogram) hstep
  cases hstep with
  | spawn program hentry =>
      have hnew (task : Task Effect Answer Unit) (htask : task ∈ p.tasks ++ [⟨[], program⟩]) :
          task ∈ p.tasks ∨ task = ⟨[], program⟩ := by
        simpa using htask
      have hget (i : Nat) (t : Task Effect Answer Unit)
          (ht : (p.tasks ++ [⟨[], program⟩])[i]? = some t) (requestId : String)
          (howner : (progress t).owner = some requestId) : p.tasks[i]? = some t := by
        rcases lt_or_ge i p.tasks.length with hlt | hge
        · rwa [List.getElem?_append_left hlt] at ht
        · rw [List.getElem?_append_right hge] at ht
          rw [List.mem_singleton.1 (List.mem_of_getElem? ht)] at howner
          cases howner
      refine ⟨h.sound, h.safe, hkeeps, fun task htask => ?_,
        fun i j t u ht hu requestId hto huo => ?_, fun task htask => ?_⟩
      · rcases hnew task htask with htask | rfl
        · exact h.consistent task htask
        · trivial
      · exact h.unique i j t u (hget i t ht requestId hto) (hget j u hu requestId huo) requestId
          hto huo
      · rcases hnew task htask with htask | rfl
        · exact h.logged task htask
        · exact ⟨by simp, rfl, nofun⟩
  | outside shared houtside =>
      cases houtside with
      | tick now hlater => exact ⟨h.sound, h.safe, hkeeps, h.consistent, h.unique, h.logged⟩
      | invalidatePending connectorId environment reason conditions result store hcall =>
          rcases eq_or_perform_of_method hcall with rfl | ⟨request, hcall⟩
          · exact ⟨h.sound, h.safe, hkeeps, h.consistent, h.unique, h.logged⟩
          · have hchange := h.sound.call_change (call_of_perform hcall)
            exact ⟨hchange.sound h.sound, hchange.replaySafe h.sound h.safe, hkeeps,
              fun task htask => h.others hchange htask fun _ _ _ _ => by simp, h.unique, h.logged⟩
  | perform i log e next htask a shared hhappens =>
      have hmem := List.mem_of_getElem? htask
      have hallowed : effectAllowed (executorProtocol.after log) e := (h.keeps _ hmem).1
      have hself : (executorProtocol.after log).Consistent p.shared.store := h.consistent _ hmem
      have hlogged : Logged log (executorProtocol.after log) := h.logged _ hmem
      cases hhappens with
      | returned call conditions reply store hcall =>
          exact h.perform_store htask hkeeps hallowed (.returned call conditions reply store hcall)
      | raised call conditions raised store hcall =>
          exact h.perform_store htask hkeeps hallowed (.raised call conditions raised store hcall)
      | recorded row =>
          obtain ⟨howner, hconsistent⟩ := Progress.recorded_owner _ row true _ hself
          exact h.perform_quiet htask hkeeps rfl hconsistent howner (hlogged.append_record row true)
      | unrecorded row =>
          obtain ⟨howner, hconsistent⟩ := Progress.recorded_owner _ row false _ hself
          exact h.perform_quiet htask hkeeps rfl hconsistent howner
            (hlogged.append_record row false)
      | sent requestId outcome =>
          have hannounced : executorProtocol.after log = .announced requestId := hallowed
          rw [hannounced] at hself hlogged
          refine h.perform_quiet htask hkeeps rfl hself ?_ ?_
          · rw [hannounced]
            rfl
          · exact hlogged.append nofun (fun _ => id) rfl nofun
      | asked query verdict =>
          exact h.perform_quiet htask hkeeps rfl hself rfl
            (hlogged.append_keep rfl rfl (.inl rfl))
      | required actionId versionId action =>
          exact h.perform_quiet htask hkeeps rfl hself rfl
            (hlogged.append_keep rfl rfl (.inl rfl))
      | read actionId versionId outcome =>
          exact h.perform_quiet htask hkeeps rfl hself rfl
            (hlogged.append_keep rfl rfl (.inl rfl))
      | prepared action environment inputs request =>
          exact h.perform_quiet htask hkeeps rfl hself rfl
            (hlogged.append_keep rfl rfl (.inl rfl))

/-- The pools that executors of a repository can reach. -/
def Reachable (env : Environment) (repositoryId : String) (now : Instant) (p : ExecutorPool) :
    Prop :=
  Relation.ReflTransGen (Pool.Step (executorRules env)) (ExecutorPool.initial repositoryId now) p

theorem Reachable.invariant {repositoryId : String} {now : Instant}
    (h : Reachable env repositoryId now p) : PoolInvariant env p := by
  induction h with
  | refl => exact poolInvariant_initial repositoryId now
  | tail _ hstep ih => exact ih.step hstep

/-! ## Stranded requests -/

/-- Nothing has happened to the method that strands a request: `client.send` has ended in a way that
it handles, and the store has neither failed after it had started the request nor failed to
complete it. -/
structure Unharmed (log : List ((e : Effect) × Answer e)) (requestId : String) : Prop where
  sent : ∀ outcome, (⟨.send requestId, outcome⟩ : (e : Effect) × Answer e) ∈ log →
    outcome.handled = true
  started : ∀ code, (⟨.store (.startExecution requestId), .error ⟨code, .late⟩⟩ :
    (e : Effect) × Answer e) ∉ log
  completed : ∀ outcome summary code, (⟨.store (.complete requestId outcome summary),
    .error ⟨code, .unavailable⟩⟩ : (e : Effect) × Answer e) ∉ log

/-- The log says what is unharmed by what strands requests. -/
lemma Logged.unharmed_iff (h : Logged log l) : Unharmed log requestId ↔
    (∀ outcome, .sent requestId outcome ∈ l.mishaps → outcome.handled = true) ∧
      .abandoned requestId ∉ l.mishaps ∧ .refused requestId ∉ l.mishaps := by
  rw [← h.mishaps]
  simp only [List.mem_filterMap]
  constructor
  · rintro ⟨hsent, hstarted, hcompleted⟩
    refine ⟨fun outcome hmem => ?_, fun hmem => ?_, fun hmem => ?_⟩
    · obtain ⟨entry, hentry, hmishap⟩ := hmem
      rw [mishapOf.eq_def] at hmishap
      split at hmishap <;> cases hmishap
      exact hsent _ hentry
    · obtain ⟨entry, hentry, hmishap⟩ := hmem
      rw [mishapOf.eq_def] at hmishap
      split at hmishap <;> cases hmishap
      exact hstarted _ hentry
    · obtain ⟨entry, hentry, hmishap⟩ := hmem
      rw [mishapOf.eq_def] at hmishap
      split at hmishap <;> cases hmishap
      exact hcompleted _ _ _ hentry
  · rintro ⟨hsent, hstarted, hcompleted⟩
    exact ⟨fun outcome hentry => hsent outcome ⟨_, hentry, rfl⟩,
      fun code hentry => hstarted ⟨_, hentry, rfl⟩,
      fun outcome summary code hentry => hcompleted ⟨_, hentry, rfl⟩⟩

/-- The methods that have returned or raised after moving a request to `executing` have left it in a
final status, or in `outcome_unknown`, exactly when they are unharmed. -/
theorem no_stranded_execution_iff {repositoryId : String} {now : Instant} {p : ExecutorPool}
    (hreachable : Reachable env repositoryId now p) {task : Task Effect Answer Unit}
    (htask : task ∈ p.tasks) (hfinished : task.rest.Finished) {requestId : String}
    {entry : (e : Effect) × Answer e} (hentry : entry ∈ task.log)
    (hstarted : startedBy entry = some requestId) :
    p.shared.store.HasState requestId (· ∈ resolvedStates) ↔ Unharmed task.log requestId := by
  have h := hreachable.invariant
  have hlogged := h.logged task htask
  have howner := hlogged.started entry hentry requestId hstarted
  have hconsistent := h.consistent task htask
  have hended : (progress task).ended := by
    have hkeeps := h.keeps task htask
    obtain ⟨log, rest⟩ := task
    cases rest with
    | done _ => exact hkeeps
    | fail _ => exact hkeeps
    | perform e next => exact hfinished.elim
  have hexecuting (hstate : p.shared.store.HasState requestId (· = .executing)) :
      ¬ p.shared.store.HasState requestId (· ∈ resolvedStates) := by
    intro hresolved
    obtain ⟨state, hstate, rfl⟩ := h.sound.hasState_unique hresolved hstate
    simp [resolvedStates] at hstate
  rw [hlogged.unharmed_iff]
  generalize progress task = l at hlogged howner hconsistent hended
  cases l with
  | sent id outcome =>
      cases howner
      have hunhandled : outcome.handled = false := hended
      refine iff_of_false (hexecuting hconsistent) fun hunharmed => ?_
      simp [hunharmed.1 outcome List.mem_cons_self] at hunhandled
  | abandoned id =>
      cases howner
      exact iff_of_false (hexecuting hconsistent) fun hunharmed =>
        hunharmed.2.1 List.mem_cons_self
  | refused id outcome =>
      cases howner
      refine iff_of_false (hexecuting hconsistent) fun hunharmed => hunharmed.2.2 ?_
      cases outcome <;> simp [Progress.mishaps]
  | completed id outcome =>
      cases howner
      refine iff_of_true hconsistent ?_
      cases outcome with
      | none => simp [Progress.mishaps]
      | some outcome => simpa [Progress.mishaps] using hlogged.handled requestId outcome rfl
  | started id | announced id | unannounced id => exact hended.elim
  | _ => cases howner

/-! ## A run -/

/-- The sample request, approved. -/
def sampleApproved : PreparedRequest :=
  { samplePreview with state := .readyToExecute, approvalCount := 1 }

def sampleExecuting : PreparedRequest :=
  { sampleApproved with state := .executing }

def sampleAction : CatalogAction where
  actionId := "create-invoice"
  versionId := "v1"
  connectorId := "flowaccount"
  environments := ["sandbox"]
  method := .post
  pathTemplate := "/invoices"
  contentType := "application/json"
  inputSchema := .obj []
  riskTier := 1
  preflightActionIds := []
  idempotency := .obj []

/-- The executors after the preview. -/
def previewedWorld : World :=
  ⟨sampleStore, 0,
    [.recorded (Exec.requestRow "session" samplePreview "preview_created" (.obj []))]⟩

/-- The request is previewed. -/
def samplePreviewing : Exec Unit := do
  let _ ← Exec.previewWrite "session" sampleAction "sandbox" (.obj [])

lemma entry_samplePreviewing : Entry sampleEnvironment samplePreviewing :=
  .previewWrite "session" sampleAction "sandbox" (.obj [])

def previewLog : List ((e : Effect) × Answer e) :=
  [⟨.prepareWrite sampleAction "sandbox" (.obj []), .ok sampleRequest⟩,
    ⟨.store (.assertReplayAllowed sampleRequest.payloadHash), .ok none⟩,
    ⟨.store (.createPreview sampleRequest sampleAction), .ok (some samplePreview)⟩,
    ⟨.record (Exec.requestRow "session" samplePreview "preview_created" (.obj [])), true⟩]

lemma performs_preview :
    Performs (executorRules sampleEnvironment) ⟨RequestStore.empty "repo", 0, []⟩ samplePreviewing
      previewLog previewedWorld (.done ()) :=
  .cons (.prepared _ _ _ _) (.cons (.returned _ .calm .allowed (RequestStore.empty "repo") rfl)
    (.cons (.returned _ .calm (.request samplePreview) sampleStore rfl)
      (.cons (.recorded _) (.nil _ _))))

/-- The pool after the preview. -/
lemma reachable_previewedWorld : Reachable sampleEnvironment "repo" 0
    ⟨previewedWorld, [⟨previewLog, .done ()⟩]⟩ := by
  have hget : ([⟨[], samplePreviewing⟩] : List (Task Effect Answer Unit))[0]? =
    some ⟨[], samplePreviewing⟩ := rfl
  exact .head (.spawn _ entry_samplePreviewing) (performs_preview.steps hget)

section

variable {w : World}

lemma performs_callStore {call : StoreCall} (request : PreparedRequest) {store : RequestStore}
    (h : method env w.now call .calm w.store = (.ok (.request request), store)) :
    Performs (executorRules env) w (Exec.callStore call) [⟨.store call, .ok (some request)⟩]
      { w with store := store } (.done request) :=
  .one (.returned call .calm (.request request) store h)

lemma performs_ask (query : Query) :
    Performs (executorRules env) w (Exec.ask query) [⟨.ask query, Verdict.pass⟩] w (.done none) :=
  .one (.asked query .pass)

lemma performs_askOrInvalidate (query : Query) (requestId reason : String) :
    Performs (executorRules env) w (Exec.askOrInvalidate query requestId reason)
      [⟨.ask query, Verdict.pass⟩] w (.done ()) :=
  (performs_ask query).bind _

lemma performs_activeForPrepared (prepared : PreparedRequest) (action : CatalogAction) :
    Performs (executorRules env) w (Exec.activeForPrepared prepared)
      ([⟨.ask (.activeAction prepared), Verdict.pass⟩] ++
        [⟨.requireVersion prepared.actionId prepared.versionId, action⟩]) w (.done action) :=
  (performs_askOrInvalidate _ _ _).then (.one (.required _ _ action))

end

/-- The effects of a dispatch up to the send. -/
def dispatchLog (outcome : SendOutcome) : List ((e : Effect) × Answer e) :=
  [⟨.store (.startExecution sampleRequest.requestId), .ok (some sampleExecuting)⟩,
    ⟨.record (Exec.requestRow "session" sampleExecuting "dispatch_started" (.obj [])), true⟩,
    ⟨.send sampleRequest.requestId, outcome⟩]

/-- The ledger and the sends after it. -/
def dispatchTrace (trace : List Observation) : List Observation :=
  trace ++ [.recorded (Exec.requestRow "session" sampleExecuting "dispatch_started" (.obj []))] ++
    [.sent sampleRequest.requestId]

/-- The approved request is started and sent. -/
lemma performs_executeWrite (trace : List Observation) (outcome : SendOutcome) :
    ∃ before, Performs (executorRules sampleEnvironment)
      ⟨⟨"repo", [rowOf sampleApproved]⟩, 0, trace⟩
      (Exec.executeWrite sampleEnvironment "session" sampleRequest.requestId)
      (before ++ dispatchLog outcome)
      ⟨⟨"repo", [rowOf sampleExecuting]⟩, 0, dispatchTrace trace⟩
      (Exec.finish "session" sampleExecuting outcome) := by
  have hdispatch : Performs (executorRules sampleEnvironment)
      ⟨⟨"repo", [rowOf sampleApproved]⟩, 0, trace⟩
      (Exec.dispatch "session" sampleRequest.requestId) (dispatchLog outcome)
      ⟨⟨"repo", [rowOf sampleExecuting]⟩, 0, dispatchTrace trace⟩
      (Exec.finish "session" sampleExecuting outcome) :=
    (performs_callStore sampleExecuting rfl).then
      (.cons (.recorded _) (.cons (.sent _ outcome) (.nil _ _)))
  rw [Exec.executeWrite]
  refine (performs_callStore sampleApproved rfl).then_suffix ?_
  refine (performs_activeForPrepared _ sampleAction).then_suffix ?_
  refine (performs_ask _).then_suffix ?_
  refine (performs_askOrInvalidate _ _ _).then_suffix ?_
  refine (performs_ask _).then_suffix ?_
  refine (performs_ask _).then_suffix ?_
  refine (performs_askOrInvalidate _ _ _).then_suffix ?_
  refine (performs_ask _).then_suffix ?_
  refine (performs_ask _).then_suffix ?_
  refine Performs.then_suffix (.nil _ _) ?_
  refine Performs.then_suffix (.nil _ _) ?_
  refine (performs_ask _).then_suffix ?_
  refine (performs_activeForPrepared _ sampleAction).then_suffix ?_
  refine (performs_askOrInvalidate _ _ _).then_suffix ?_
  refine (performs_askOrInvalidate _ _ _).then_suffix ?_
  refine (performs_askOrInvalidate _ _ _).then_suffix ?_
  exact ⟨[], hdispatch⟩

/-- The request is approved and executed. -/
def sampleExecution : Exec Unit := do
  let _ ← Exec.approveAndExecute sampleEnvironment "session" sampleRequest.requestId
    sampleRequest.payloadHash sampleRequest.mutationClass

lemma entry_sampleExecution : Entry sampleEnvironment sampleExecution :=
  .approveAndExecute "session" sampleRequest.requestId sampleRequest.payloadHash
    sampleRequest.mutationClass

/-- The approval and its row. -/
def approvedTrace : List Observation :=
  previewedWorld.trace ++
    [.recorded (Exec.requestRow "session" sampleApproved "approval_recorded" (.obj []))]

/-- The approved request is sent, and the method goes on with the end of the send. -/
lemma performs_sampleExecution (outcome : SendOutcome) : ∃ before,
    Performs (executorRules sampleEnvironment) previewedWorld sampleExecution
      (before ++ dispatchLog outcome)
      ⟨⟨"repo", [rowOf sampleExecuting]⟩, 0, dispatchTrace approvedTrace⟩
      (do let _ ← Exec.finish "session" sampleExecuting outcome) := by
  obtain ⟨before, hexecute⟩ := performs_executeWrite approvedTrace outcome
  have happroval : Performs (executorRules sampleEnvironment) previewedWorld
      (Exec.recordApproval "session" sampleRequest.requestId sampleRequest.payloadHash
        sampleRequest.mutationClass "approval_recorded") _
      ⟨⟨"repo", [rowOf sampleApproved]⟩, 0, approvedTrace⟩ (.done sampleApproved) :=
    (performs_callStore sampleApproved rfl).then (.cons (.recorded _) (.nil _ _))
  have hrun := (happroval.then
    (f := fun approved => Exec.executeWrite sampleEnvironment "session" approved.requestId)
    hexecute).bind fun _ => (pure () : Exec Unit)
  rw [← List.append_assoc] at hrun
  exact ⟨_, hrun⟩

lemma reachable_sent (outcome : SendOutcome) : ∃ before, Reachable sampleEnvironment "repo" 0
    ⟨⟨⟨"repo", [rowOf sampleExecuting]⟩, 0, dispatchTrace approvedTrace⟩,
      [⟨previewLog, .done ()⟩, ⟨before ++ dispatchLog outcome,
        do let _ ← Exec.finish "session" sampleExecuting outcome⟩]⟩ := by
  obtain ⟨before, hrun⟩ := performs_sampleExecution outcome
  have hget : ([⟨previewLog, .done ()⟩, ⟨[], sampleExecution⟩] :
      List (Task Effect Answer Unit))[1]? = some ⟨[], sampleExecution⟩ := rfl
  exact ⟨before, reachable_previewedWorld.trans
    (.head (.spawn _ entry_sampleExecution) (hrun.steps hget))⟩

/-- A request whose response cannot be decoded stays in `executing`. -/
theorem request_stranded : ¬ ∀ p, Reachable sampleEnvironment "repo" 0 p → ∀ task ∈ p.tasks,
    task.rest.Finished → ∀ entry ∈ task.log, ∀ requestId, startedBy entry = some requestId →
      p.shared.store.HasState requestId (· ∈ resolvedStates) := by
  intro hclaim
  obtain ⟨before, hreachable⟩ := reachable_sent (.otherError "decoding_error")
  obtain ⟨row, hrow, -, hresolved⟩ := hclaim _ hreachable _ (List.mem_cons_of_mem _ List.mem_cons_self)
    trivial _ (List.mem_append_right _ List.mem_cons_self) sampleRequest.requestId rfl
  rw [List.mem_singleton.1 hrow] at hresolved
  exact absurd hresolved (by decide)

/-- The request as it is completed where the connection fails while it is sent. -/
def sampleUnknown : PreparedRequest := { sampleExecuting with
  state := .outcomeUnknown
  failureReason := some "outcome_unknown"
  responseSummary := .obj [("status", .str "unknown"), ("outcome", .str "outcome_unknown"),
    ("status_class", .str "timeout")] }

/-- A request whose connection fails while it is sent is completed. -/
theorem execution_unharmed_transportError : ∃ p task,
    Reachable sampleEnvironment "repo" 0 p ∧ task ∈ p.tasks ∧ task.rest.Finished ∧
      p.shared.store.rows = [rowOf sampleUnknown] ∧ Unharmed task.log "req_00000001" := by
  obtain ⟨before, hreachable⟩ := reachable_sent .transportError
  have hfinish : Performs (executorRules sampleEnvironment)
      ⟨⟨"repo", [rowOf sampleExecuting]⟩, 0, dispatchTrace approvedTrace⟩
      (do let _ ← Exec.finish "session" sampleExecuting .transportError) _
      ⟨⟨"repo", [rowOf sampleUnknown]⟩, 0, _⟩ (.done ()) :=
    .cons (.returned _ .calm (.request sampleUnknown) _ rfl) (.cons (.recorded _) (.nil _ _))
  have hget : ([⟨previewLog, .done ()⟩, ⟨before ++ dispatchLog .transportError,
      do let _ ← Exec.finish "session" sampleExecuting .transportError⟩] :
      List (Task Effect Answer Unit))[1]? = some ⟨before ++ dispatchLog .transportError,
        do let _ ← Exec.finish "session" sampleExecuting .transportError⟩ := rfl
  have hreached := hreachable.trans (hfinish.steps hget)
  exact ⟨_, _, hreached, List.mem_cons_of_mem _ List.mem_cons_self, trivial, rfl,
    (no_stranded_execution_iff hreached (List.mem_cons_of_mem _ List.mem_cons_self) trivial
      (List.mem_append_left _ (List.mem_append_right before List.mem_cons_self)) rfl).1
      ⟨rowOf sampleUnknown, List.mem_cons_self, rfl, by decide⟩⟩

end Execution
end MercuryTools
