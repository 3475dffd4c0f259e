import MercuryTools.Hosted.StoreRelation

/-!
# The transitions of the two stores

For each of the two transitions, the calls it accepts are stated once
(`TransitionAccepted`, `ItemTransitionAccepted`), over the state of the in-memory store.  That
store accepts exactly these calls; the database accepts no others, and under `CallAgrees` it
accepts all of them and ends in the tables of the same operations.
-/

namespace MercuryTools
namespace Hosted

open Checks HostedOperation VersionedLog

variable {env : StoreEnvironment}

/-! ## `transition_operation` -/

/-- The calls of `transition_operation` that are accepted. -/
structure TransitionAccepted (env : StoreEnvironment) (store : InMemoryStore) (now : Instant)
    (scope : Scope) (operationId : UUID) (expected : Int) (targetState : String)
    (occurredAt : Instant) (reason : String) (op : HostedOperation)
    (target : ParentOperationState) : Prop where
  mem : op ∈ store.operations
  id : op.operationId = operationId
  scope : InScope scope op
  version : (op.stateVersion : Int) = expected
  target_value : targetState = target.value
  authority : target = .dispatching → ∀ p ∈ store.previews, p.previewId = op.previewId →
    env.revalidateAuthority p now = true
  guard : parentOperationTransitionAllowed op.state target op.childStates = true
  time : op.updatedAt ≤ occurredAt
  reason : ReasonAccepted env.sanitize reason

lemma awareUtc_utc (timestamp : Instant) (code : String) :
    awareUtc (utc timestamp) code = .ok timestamp := by
  simp [awareUtc, utc]

variable {store : InMemoryStore} {now occurredAt : Instant} {scope : Scope}
  {operationId eventId itemId : UUID} {expected : Int} {targetState reason : String}
  {op' op : HostedOperation} {db db' : Database} {target : OperationItemState}
  {item : OperationItem} {index : Nat} {result : Option String}

lemma InMemoryStore.Sound.prepareTransition_eq_ok (h : store.Sound env) :
    store.prepareTransition env now scope operationId expected targetState eventId occurredAt
        reason = .ok op' ↔
      ∃ op target, TransitionAccepted env store now scope operationId expected targetState occurredAt
          reason op target ∧
        op' = op.afterTransition target eventId occurredAt reason := by
  have htransition : ∀ {op op' : HostedOperation} {target}, op ∈ store.operations →
      (op.transition env.sanitize target eventId (utc occurredAt) reason = .ok op' ↔
        parentOperationTransitionAllowed op.state target op.childStates = true ∧
          op.updatedAt ≤ occurredAt ∧ ReasonAccepted env.sanitize reason ∧
          op' = op.afterTransition target eventId occurredAt reason) := by
    intro op op' target hop
    rw [transition_eq_ok]
    simp only [awareUtc_utc, Except.ok.injEq, exists_eq_left']
    constructor
    · rintro ⟨hguard, hle, hreason, hvalid⟩
      have hnext := (h.invariant op hop).afterTransition eventId hguard hle hreason
      rw [validate_self hnext.wellFormed (h.stable op hop)] at hvalid
      cases hvalid
      exact ⟨hguard, hle, hreason, rfl⟩
    · rintro ⟨hguard, hle, hreason, rfl⟩
      have hnext := (h.invariant op hop).afterTransition eventId hguard hle hreason
      exact ⟨hguard, hle, hreason, validate_self hnext.wellFormed (h.stable op hop)⟩
  simp only [InMemoryStore.prepareTransition, bind_eq_ok, require_eq_ok, beq_iff_eq,
    h.getOperation_eq_ok]
  constructor
  · rintro ⟨op, ⟨hmem, hid, hscope⟩, -, hversion, hrest⟩
    cases htarget : ParentOperationState.ofValue? targetState with
    | none => simp [htarget] at hrest
    | some target =>
        obtain ⟨p, hp, hbinding, hfind⟩ := h.findPreview hmem
        simp only [htarget, hfind] at hrest
        have hboth : (target = .dispatching → env.revalidateAuthority p now = true) ∧
            op.transition env.sanitize target eventId (utc occurredAt) reason = .ok op' := by
          split at hrest
          · simp only [bind_eq_ok, require_eq_ok] at hrest
            obtain ⟨-, hauthority, hrest⟩ := hrest
            exact ⟨fun _ => hauthority, hrest⟩
          · rename_i hne
            exact ⟨fun heq => absurd heq hne, hrest⟩
        obtain ⟨hguard, hle, hreason, rfl⟩ := (htransition hmem).1 hboth.2
        refine ⟨op, target, ⟨hmem, hid, hscope, hversion,
          (ParentOperationState.value_of_ofValue? htarget).symm, ?_, hguard, hle, hreason⟩, rfl⟩
        intro hdispatch q hq hqid
        have hpq : q = p := KeyedTable.eq_of_key_eq h.previews.ids hq hp
          (hqid.trans (congrArg (·.previewId) hbinding).symm)
        rw [hpq]
        exact hboth.1 hdispatch
  · rintro ⟨op, target, ⟨hmem, hid, hscope, hversion, rfl, hauthority, hguard, hle, hreason⟩, rfl⟩
    refine ⟨op, ⟨hmem, hid, hscope⟩, (), hversion, ?_⟩
    obtain ⟨p, hp, hbinding, hfind⟩ := h.findPreview hmem
    have hdone := (htransition hmem).2 ⟨hguard, hle, hreason, rfl⟩
    simp only [ParentOperationState.ofValue?_value, hfind]
    split
    · rename_i hdispatch
      simp only [bind_eq_ok, require_eq_ok]
      exact ⟨(), hauthority hdispatch p hp (congrArg (·.previewId) hbinding), hdone⟩
    · exact hdone

/-- The database after an accepted transition of the parent. -/
def Database.afterTransition (db : Database) (op op' : HostedOperation) (event : OperationEvent) :
    Database :=
  { db.putOperation (Database.operationRow op') with
    events := db.events ++ [Database.eventRow op event] }

/-- What `transition_mercury_operation` checks, and the rows it writes. -/
lemma Agrees.transition_inversion (ha : Agrees store db)
    (hids : (store.operations.map (·.operationId)).Nodup)
    (hinv : ∀ op ∈ store.operations, op.Invariant env.sanitize)
    (hok : db.transitionMercuryOperation env now scope operationId expected targetState eventId
      occurredAt reason = .ok db') :
    ∃ op ∈ store.operations, ∃ target : ParentOperationState,
      (op.operationId = operationId ∧ InScope scope op ∧ (op.stateVersion : Int) = expected ∧
        targetState = target.value) ∧
      (targetState = "dispatching" → ∀ source, db.previews.find? (fun stored =>
        stored.previewId == op.previewId && stored.tenantId == op.tenantId &&
          stored.authUserId == op.authUserId && stored.workspaceId == op.workspaceId &&
          stored.connectionId == op.connectionId) = some source →
        env.authorityIsCurrent source now = true) ∧
      (op.updatedAt ≤ occurredAt ∧ publicIdentifierIsSafe env reason = true ∧
        parentOperationTransitionAllowed op.state target op.childStates = true) ∧
      db' = db.afterTransition op (op.afterTransition target eventId occurredAt reason)
        (op.parentEvent target eventId occurredAt reason) := by
  simp only [Database.transitionMercuryOperation, bind_eq_ok, require_eq_ok] at hok
  obtain ⟨-, -, hok⟩ := hok
  cases hfind : db.findOperation scope operationId with
  | none => simp [hfind] at hok
  | some row =>
      obtain ⟨op, hop, rfl, hscope, rfl⟩ := (ha.findOperation_eq_some hids).1 hfind
      simp only [hfind, bind_eq_ok, require_eq_ok, beq_iff_eq, Database.operationRow] at hok
      obtain ⟨-, hversion, hok⟩ := hok
      have hchecks : (targetState = "dispatching" → ∀ source, db.previews.find? (fun stored =>
            stored.previewId == op.previewId && stored.tenantId == op.tenantId &&
              stored.authUserId == op.authUserId && stored.workspaceId == op.workspaceId &&
              stored.connectionId == op.connectionId) = some source →
            env.authorityIsCurrent source now = true) ∧
          ((op.updatedAt ≤ occurredAt ∧ publicIdentifierIsSafe env reason = true) ∧
            parentOperationTransitionIsAllowed op.state.value targetState
              (db.childStates op.operationId) = true) ∧
          ∃ updated, db.updateOperation { Database.operationRow op with
              status := targetState
              stateVersion := op.stateVersion + 1
              updatedAt := occurredAt } = .ok updated ∧
            updated.insertEvent env {
              id := eventId
              operationId := op.operationId
              operationItemId := none
              tenantId := scope.tenantId
              authUserId := scope.authUserId
              workspaceId := scope.workspaceId
              connectionId := op.connectionId
              fromState := some op.state.value
              toState := targetState
              stateVersion := op.stateVersion + 1
              sanitizedReason := reason
              occurredAt := occurredAt } = .ok db' := by
        split at hok
        · split at hok
          · simp at hok
          · rename_i source hsource
            simp only [bind_eq_ok, require_eq_ok, Bool.and_eq_true, decide_eq_true_eq] at hok
            obtain ⟨-, hcurrent, -, hguards, hrest⟩ := hok
            refine ⟨fun _ found hfound => ?_, hguards, hrest⟩
            rw [Option.some.inj (hfound.symm.trans hsource)]
            exact hcurrent
        · rename_i hne
          simp only [bind_eq_ok, require_eq_ok, Bool.and_eq_true, decide_eq_true_eq] at hok
          obtain ⟨-, hguards, hrest⟩ := hok
          exact ⟨fun heq => absurd heq hne, hguards, hrest⟩
      obtain ⟨hcurrent, ⟨⟨hle, hsafe⟩, hguard⟩, updated, hupdated, hinsert⟩ := hchecks
      obtain ⟨target, rfl⟩ := target_of_parentAllowed hguard
      rw [ha.childStates hop (hinv op hop), parentOperationTransitionIsAllowed_value] at hguard
      refine ⟨op, hop, target, ⟨rfl, hscope, hversion, rfl⟩, hcurrent, ⟨hle, hsafe, hguard⟩, ?_⟩
      obtain ⟨htenant, huser, hworkspace⟩ := hscope
      simp only [Database.updateOperation, Database.insertEvent, bind_eq_ok, require_eq_ok,
        pure_eq_ok] at hupdated hinsert
      obtain ⟨-, -, rfl⟩ := hupdated
      obtain ⟨-, -, -, -, rfl⟩ := hinsert
      rw [← htenant, ← huser, ← hworkspace]
      rfl

lemma Agrees.transitionAccepted_of_ok (ha : Agrees store db) (h : store.Sound env)
    (hauthority : ∀ op ∈ store.operations, op.operationId = operationId →
      AuthorityAgrees env store now op.previewId) (hreason : ReasonAgrees env reason)
    (hok : db.transitionMercuryOperation env now scope operationId expected targetState eventId
      occurredAt reason = .ok db') :
    ∃ op target, TransitionAccepted env store now scope operationId expected targetState occurredAt
      reason op target := by
  obtain ⟨op, hop, target, ⟨hid, hscope, hversion, htarget⟩, hcurrent, ⟨hle, hsafe, hguard⟩, -⟩ :=
    ha.transition_inversion h.operation_ids h.invariant hok
  obtain ⟨p, hp, hbinding, -⟩ := h.findPreview hop
  refine ⟨op, target, hop, hid, hscope, hversion, htarget, ?_, hguard, hle, hreason.2 hsafe⟩
  rintro rfl q hq hqid
  have hpq : q = p := KeyedTable.eq_of_key_eq h.previews.ids hq hp
    (hqid.trans (congrArg (·.previewId) hbinding).symm)
  rw [hauthority op hop hid q hq hqid, hpq]
  exact hcurrent htarget p (ha.findSource h hp hbinding)

/-- The rows of a transition are those of the operation after it. -/
lemma Agrees.afterTransition (ha : Agrees store db) (hop : op ∈ store.operations)
    (target : ParentOperationState) (eventId : UUID) (occurredAt : Instant) (reason : String) :
    Agrees (store.putOperation (op.afterTransition target eventId occurredAt reason))
      (db.afterTransition op (op.afterTransition target eventId occurredAt reason)
        (op.parentEvent target eventId occurredAt reason)) := by
  refine ha.put hop ⟨rfl, rfl, rfl⟩ rfl rfl rfl (ha.items op hop) (fun _ _ => rfl) ?_ ?_
  · refine (filter_append_own (k := op.operationId) rfl).trans ?_
    rw [ha.events op hop, HostedOperation.afterTransition, List.map_append]
    rfl
  · exact fun id hne => filter_append_other hne

lemma Agrees.transition_ok (ha : Agrees store db) (h : store.Sound env)
    {target : ParentOperationState} (hcall : CallAgrees env store now
      (.transitionOperation scope operationId expected targetState eventId occurredAt reason))
    (hacc : TransitionAccepted env store now scope operationId expected targetState occurredAt
      reason op target) :
    ∃ db', db.transitionMercuryOperation env now scope operationId expected targetState eventId
        occurredAt reason = .ok db' ∧
      Agrees (store.putOperation (op.afterTransition target eventId occurredAt reason)) db' := by
  obtain ⟨haccess, hauthority, hreason, hfresh⟩ := hcall
  obtain ⟨hop, hid, hscope, hversion, rfl, hcurrent, hguard, hle, haccepted⟩ := hacc
  have hinv := h.invariant op hop
  have hnext := hinv.afterTransition eventId hguard hle haccepted
  have hsafe := hreason.1 haccepted
  obtain ⟨p, hp, hbinding, -⟩ := h.findPreview hop
  have hsource := ha.findSource h hp hbinding
  have hsame : SameConfirmation op (op.afterTransition target eventId occurredAt reason) :=
    ⟨rfl, rfl, rfl⟩
  have hcapability : isDocumentCapability op.capabilityId = true := by
    have := (h.previews.checked p hp).2
    rwa [congrArg (·.capabilityId) hbinding] at this
  have hrow := operationRow_checks hnext hcapability
  have hevent : (op.parentEvent target eventId occurredAt reason).validate env.sanitize =
      .ok (op.parentEvent target eventId occurredAt reason) :=
    hnext.events_valid _ (List.mem_append_right _ (List.mem_singleton.2 rfl))
  have hversions : ∀ e ∈ op.events, e.operationItemId = none →
      e.stateVersion ≠ op.stateVersion + 1 := by
    intro e he hitem
    have := (event_version_le hinv he).1 hitem
    omega
  obtain ⟨db', hdb'⟩ : ∃ x : Database, x = db.afterTransition op
      (op.afterTransition target eventId occurredAt reason)
      (op.parentEvent target eventId occurredAt reason) := ⟨_, rfl⟩
  have hinsert : (db.putOperation (Database.operationRow
      (op.afterTransition target eventId occurredAt reason))).insertEvent env (Database.eventRow op
        (op.parentEvent target eventId occurredAt reason)) = .ok db' := by
    rw [hdb']
    exact ha.insertEvent hop _ rfl hfresh hversions (eventRow_checks hevent hsafe) _ rfl
  refine ⟨db', ?_, ?_⟩
  · have hguard' := parentOperationTransitionIsAllowed_value op.state target op.childStates
    rw [hguard, ← ha.childStates hop (h.invariant op hop)] at hguard'
    have hfind := (ha.findOperation_eq_some h.operation_ids).2 ⟨op, hop, hid, hscope, rfl⟩
    have hlast : ∃ updated, db.updateOperation
          (Database.operationRow (op.afterTransition target eventId occurredAt reason)) =
            .ok updated ∧
        updated.insertEvent env (Database.eventRow op
          (op.parentEvent target eventId occurredAt reason)) = .ok db' := by
      refine ⟨_, ?_, hinsert⟩
      simp only [Database.updateOperation, bind_eq_ok, require_eq_ok, pure_eq_ok]
      exact ⟨(), hrow, trivial⟩
    have hchecks : (decide (op.updatedAt ≤ occurredAt) && publicIdentifierIsSafe env reason &&
        parentOperationTransitionIsAllowed op.state.value target.value
          (db.childStates op.operationId)) = true := by
      simp only [Bool.and_eq_true]
      exact ⟨⟨decide_eq_true hle, hsafe⟩, hguard'⟩
    obtain ⟨htenant, huser, hworkspace⟩ := hscope
    subst hid
    simp only [parentEvent, Database.eventRow, htenant, huser, hworkspace] at hlast
    simp only [Database.transitionMercuryOperation, bind_eq_ok, require_eq_ok]
    refine ⟨(), haccess, ?_⟩
    rw [hfind]
    simp only [bind_eq_ok, require_eq_ok, beq_iff_eq]
    refine ⟨(), hversion, ?_⟩
    simp only [Database.operationRow, hsource]
    split
    · rename_i hdispatch
      have htarget : target = .dispatching :=
        ParentOperationState.value_injective
          (show _ = ParentOperationState.dispatching.value from hdispatch)
      have hpid := congrArg (·.previewId) hbinding
      simp only [bind_eq_ok, require_eq_ok]
      exact ⟨(), by rw [← hauthority op hop rfl p hp hpid]; exact hcurrent htarget p hp hpid, (),
        hchecks, hlast⟩
    · simp only [bind_eq_ok, require_eq_ok]
      exact ⟨(), hchecks, hlast⟩
  · rw [hdb']
    exact ha.afterTransition hop target eventId occurredAt reason

/-! ## `transition_operation_item` -/

/-- The calls of `transition_operation_item` that are accepted. -/
structure ItemTransitionAccepted (env : StoreEnvironment) (store : InMemoryStore) (scope : Scope)
    (operationId itemId : UUID) (expected : Int) (targetState : String) (occurredAt : Instant)
    (reason : String) (result : Option String) (op : HostedOperation) (item : OperationItem)
    (target : OperationItemState) : Prop where
  mem : op ∈ store.operations
  id : op.operationId = operationId
  scope : InScope scope op
  item_mem : item ∈ op.items
  item_id : item.operationItemId = itemId
  version : (item.stateVersion : Int) = expected
  target_value : targetState = target.value
  guard : itemOperationTransitionAllowed item.state target op.state = true
  time : item.updatedAt ≤ occurredAt
  reason : ReasonAccepted env.sanitize reason
  result_iff : target = .succeeded ↔ result.isSome = true
  result : ∀ text, result = some text → DatabaseAcceptsText env text

/-- The operation after an accepted transition of an item. -/
def afterItem (env : StoreEnvironment) (op : HostedOperation) (item : OperationItem)
    (target : OperationItemState) (eventId : UUID) (occurredAt : Instant) (reason : String)
    (result : Option String) : HostedOperation :=
  op.afterTransitionItem (op.itemIndexOf item.operationItemId) item target eventId occurredAt reason
    (result.map env.publicText)

lemma sameConfirmation_afterItem (hindex : op.items[index]? = some item)
    (hindexOf : op.itemIndexOf item.operationItemId = index) :
    SameConfirmation op (afterItem env op item target eventId occurredAt reason result) := by
  refine ⟨rfl, rfl, ?_⟩
  have hclientId : (itemAfter item target occurredAt (result.map env.publicText)).clientItemId =
      item.clientItemId := rfl
  rw [afterItem, hindexOf]
  exact map_set_of_eq (·.clientItemId) hindex hclientId

/-- What the service makes of a result text the two sides agree on. -/
lemma ResultAgrees.validate {r : Option String} (h : ResultAgrees env result)
    (hr : validateProviderResultIdentifier env.sanitize result = .ok r) :
    r = result.map env.publicText ∧ ∀ text, result = some text → DatabaseAcceptsText env text := by
  cases result with
  | none =>
      cases hr
      exact ⟨rfl, by simp⟩
  | some text =>
      rcases h with ⟨haccepts, hsanitize, -⟩ | ⟨-, hrefused⟩
      · simp only [validateProviderResultIdentifier, sanitizePublicText, hsanitize, bind_eq_ok,
          Except.ok.injEq, pure_eq_ok] at hr
        obtain ⟨projected, rfl, -, -, rfl⟩ := hr
        refine ⟨rfl, ?_⟩
        rintro _ ⟨⟩
        exact haccepts
      · exact absurd ⟨r, hr⟩ hrefused

/-- A projected text that the service projects to itself is validated to itself. -/
lemma validateProviderResultIdentifier_publicText
    (haccepts : ∀ text, result = some text → DatabaseAcceptsText env text)
    (hfixed : ∀ text, result = some text →
      env.sanitize (env.publicText text) = some (env.publicText text)) :
    validateProviderResultIdentifier env.sanitize (result.map env.publicText) =
      .ok (result.map env.publicText) := by
  cases result with
  | none => rfl
  | some text =>
      obtain ⟨hmin, hmax, -, -⟩ := haccepts text rfl
      have hlength : (decide (1 ≤ (env.publicText text).length) &&
          decide ((env.publicText text).length ≤ 200)) = true := by
        simp only [Bool.and_eq_true]
        exact ⟨decide_eq_true hmin, decide_eq_true hmax⟩
      simp only [validateProviderResultIdentifier, sanitizePublicText, hfixed text rfl, bind_eq_ok,
        require_eq_ok, pure_eq_ok, Option.map_some]
      exact ⟨_, rfl, (), hlength, rfl⟩

lemma ResultAgrees.stable (h : ResultAgrees env result)
    (haccepts : ∀ text, result = some text → DatabaseAcceptsText env text) :
    validateProviderResultIdentifier env.sanitize result = .ok (result.map env.publicText) ∧
      validateProviderResultIdentifier env.sanitize (result.map env.publicText) =
        .ok (result.map env.publicText) := by
  cases result with
  | none => exact ⟨rfl, rfl⟩
  | some text =>
      rcases h with ⟨⟨hmin, hmax, -, -⟩, hsanitize, hagain⟩ | ⟨hrefused, -⟩
      · have hlength : (decide (1 ≤ (env.publicText text).length) &&
            decide ((env.publicText text).length ≤ 200)) = true := by
          simp only [Bool.and_eq_true]
          exact ⟨decide_eq_true hmin, decide_eq_true hmax⟩
        constructor
        · simp only [validateProviderResultIdentifier, sanitizePublicText, hsanitize, bind_eq_ok,
            require_eq_ok, pure_eq_ok, Option.map_some]
          exact ⟨_, rfl, (), hlength, rfl⟩
        · apply validateProviderResultIdentifier_publicText haccepts
          rintro _ ⟨⟩
          exact hagain
      · exact absurd (haccepts text rfl) hrefused

/-- The item after a transition is well formed, and its operation keeps the invariant. -/
lemma HostedOperation.Invariant.afterItem (h : op.Invariant env.sanitize) (hitem : item ∈ op.items)
    (hguard : itemOperationTransitionAllowed item.state target op.state = true)
    (htime : item.updatedAt ≤ occurredAt) (hreason : ReasonAccepted env.sanitize reason)
    (hiff : target = .succeeded ↔ result.isSome = true) (eventId : UUID) :
    ∃ index, op.items[index]? = some item ∧ op.itemIndexOf item.operationItemId = index ∧
      (itemAfter item target occurredAt (result.map env.publicText)).WellFormed ∧
      (Hosted.afterItem env op item target eventId occurredAt reason result).Invariant
        env.sanitize := by
  obtain ⟨index, hindex⟩ := List.mem_iff_getElem?.1 hitem
  have hindexOf := h.itemIndexOf_eq hindex
  have hwf : (itemAfter item target occurredAt (result.map env.publicText)).WellFormed := by
    obtain ⟨h1, h2, h3, h4, h5, h6, h7, h8, -⟩ := h.items_valid item hitem
    exact ⟨h1, h2, h3, h4, Nat.le_add_left 1 _, h6, h7, Int.le_trans h8 htime,
      by simpa [itemAfter] using hiff⟩
  refine ⟨index, hindex, hindexOf, hwf, ?_⟩
  rw [Hosted.afterItem, hindexOf]
  exact h.afterTransitionItem eventId hindex hguard htime hreason hwf

/-- A new text that is its own projection leaves the texts of the operation stable. -/
lemma textsStable_afterItem (h : op.TextsStable env.sanitize)
    (hresult : validateProviderResultIdentifier env.sanitize (result.map env.publicText) =
      .ok (result.map env.publicText)) :
    (afterItem env op item target eventId occurredAt reason result).TextsStable env.sanitize := by
  intro other hother
  rcases List.mem_or_eq_of_mem_set hother with hother | rfl
  · exact h other hother
  · exact hresult

/-- The item after an accepted transition is well formed, and so is its operation. -/
lemma ItemTransitionAccepted.next (h : store.Sound env)
    (hacc : ItemTransitionAccepted env store scope operationId itemId expected targetState
      occurredAt reason result op item target) (eventId : UUID) (hresult : ResultAgrees env result) :
    ∃ index, op.items[index]? = some item ∧ op.itemIndexOf item.operationItemId = index ∧
      (itemAfter item target occurredAt (result.map env.publicText)).WellFormed ∧
      (afterItem env op item target eventId occurredAt reason result).Invariant env.sanitize ∧
      (afterItem env op item target eventId occurredAt reason result).TextsStable env.sanitize := by
  obtain ⟨index, hindex, hindexOf, hwf, hinv⟩ := (h.invariant op hacc.mem).afterItem hacc.item_mem
    hacc.guard hacc.time hacc.reason hacc.result_iff eventId
  exact ⟨index, hindex, hindexOf, hwf, hinv,
    textsStable_afterItem (h.stable op hacc.mem) (hresult.stable hacc.result).2⟩

lemma InMemoryStore.Sound.prepareTransitionItem_eq_ok (h : store.Sound env)
    (hresult : ResultAgrees env result) :
    store.prepareTransitionItem env scope operationId itemId expected targetState eventId occurredAt
        reason result = .ok op' ↔
      ∃ op item target, ItemTransitionAccepted env store scope operationId itemId expected
          targetState occurredAt reason result op item target ∧
        op' = afterItem env op item target eventId occurredAt reason result := by
  simp only [InMemoryStore.prepareTransitionItem, bind_eq_ok, h.getOperation_eq_ok]
  constructor
  · rintro ⟨op, ⟨hmem, hid, hscope⟩, hrest⟩
    split at hrest
    · rename_i item hfilter
      have hitem : item ∈ op.items.filter (·.operationItemId == itemId) := by simp [hfilter]
      obtain ⟨hitemMem, hitemId⟩ := List.mem_filter.1 hitem
      simp only [bind_eq_ok, require_eq_ok, beq_iff_eq] at hrest hitemId
      obtain ⟨-, hversion, hrest⟩ := hrest
      cases htarget : OperationItemState.ofValue? targetState with
      | none => simp [htarget] at hrest
      | some target =>
          simp only [htarget, transitionItem_eq_ok, awareUtc_utc, Except.ok.injEq,
            exists_eq_left'] at hrest
          obtain ⟨-, found, hfound, hfoundId, hguard, htime, hiff, hreason, r, hr, hwf, hvalid⟩ :=
            hrest
          obtain ⟨index, hindex⟩ := List.mem_iff_getElem?.1 hitemMem
          have hindexOf := (h.invariant op hmem).itemIndexOf_eq hindex
          subst hitemId
          obtain rfl : item = found := by
            rw [hindexOf, hindex] at hfound
            exact Option.some.inj hfound
          obtain ⟨rfl, haccepts⟩ := hresult.validate hr
          have hacc : ItemTransitionAccepted env store scope operationId item.operationItemId
              expected targetState occurredAt reason result op item target :=
            ⟨hmem, hid, hscope, hitemMem, rfl, hversion,
              (OperationItemState.value_of_ofValue? htarget).symm, hguard, htime, hreason, hiff,
              haccepts⟩
          refine ⟨op, item, target, hacc, ?_⟩
          obtain ⟨-, -, -, -, hnext, hstable⟩ := hacc.next h eventId hresult
          have hself := validate_self hnext.wellFormed hstable
          rw [afterItem] at hself ⊢
          rw [hself] at hvalid
          exact (Except.ok.inj hvalid).symm
    · simp at hrest
  · rintro ⟨op, item, target, hacc, rfl⟩
    obtain ⟨index, hindex, hindexOf, hwf, hnext, hstable⟩ := hacc.next h eventId hresult
    obtain ⟨hmem, hid, hscope, hitemMem, rfl, hversion, rfl, hguard, htime, hreason, hiff,
      haccepts⟩ := hacc
    refine ⟨op, ⟨hmem, hid, hscope⟩, ?_⟩
    have hfilter : op.items.filter (·.operationItemId == item.operationItemId) = [item] :=
      KeyedTable.filter_key_eq (h.invariant op hmem).items_ids hitemMem
    simp only [hfilter, bind_eq_ok, require_eq_ok, beq_iff_eq, OperationItemState.ofValue?_value,
      transitionItem_eq_ok, awareUtc_utc, Except.ok.injEq, exists_eq_left']
    exact ⟨(), hversion, (h.invariant op hmem).countP_eq_one hitemMem, item, by rw [hindexOf, hindex],
      rfl, hguard, htime, hiff, hreason, _, (hresult.stable haccepts).1, hwf,
      validate_self hnext.wellFormed hstable⟩

lemma Agrees.findItem_eq_some (ha : Agrees store db) (hop : op ∈ store.operations)
    (hscope : InScope scope op) {row : OperationItemRow} :
    db.items.find? (fun stored =>
        stored.id == itemId && stored.operationId == op.operationId &&
          stored.tenantId == scope.tenantId && stored.authUserId == scope.authUserId &&
          stored.workspaceId == scope.workspaceId) = some row ↔
      ∃ item ∈ op.items, item.operationItemId = itemId ∧ row = Database.itemRow op item := by
  have hmem : ∀ row, row ∈ db.items ∧ row.operationId = op.operationId ↔
      row ∈ op.items.map (Database.itemRow op) := by
    intro row
    rw [← ha.items op hop, List.mem_filter, beq_iff_eq]
  obtain ⟨htenant, huser, hworkspace⟩ := hscope
  rw [KeyedTable.find?_eq_some ha.item_ids (k := itemId)]
  · simp only [Bool.and_eq_true, beq_iff_eq]
    constructor
    · rintro ⟨hrow, ⟨⟨⟨hid, hoperation⟩, -⟩, -⟩, -⟩
      obtain ⟨item, hitem, rfl⟩ := List.mem_map.1 ((hmem row).1 ⟨hrow, hoperation⟩)
      exact ⟨item, hitem, hid, rfl⟩
    · rintro ⟨item, hitem, hid, rfl⟩
      exact ⟨((hmem _).2 (List.mem_map_of_mem hitem)).1,
        ⟨⟨⟨hid, rfl⟩, htenant⟩, huser⟩, hworkspace⟩
  · intro stored hstored
    simp only [Bool.and_eq_true, beq_iff_eq] at hstored
    exact hstored.1.1.1.1

lemma resultIdentifierAllowed_iff :
    Database.resultIdentifierAllowed env target.value result = true ↔
      (target = .succeeded ↔ result.isSome = true) ∧ ∀ text, result = some text →
        1 ≤ (env.publicText text).length ∧ (env.publicText text).length ≤ 200 ∧
          (env.publicText text).toList.any env.isCntrl = false := by
  have hvalue : (target.value == "succeeded") = decide (target = .succeeded) := by
    cases target <;> decide
  cases result with
  | none => simp [Database.resultIdentifierAllowed, hvalue]
  | some text => simp [Database.resultIdentifierAllowed, hvalue, bne, and_assoc]

/-- The database after an accepted transition of an item. -/
def Database.afterItem (db : Database) (op op' : HostedOperation) (item' : OperationItem)
    (event : OperationEvent) : Database :=
  let rows := (db.putItem (Database.itemRow op item')).putOperation (Database.operationRow op')
  { rows with events := db.events ++ [Database.eventRow op event] }

/-- What `transition_mercury_operation_item` checks, and the rows it writes. -/
lemma Agrees.itemTransition_inversion (ha : Agrees store db)
    (hids : (store.operations.map (·.operationId)).Nodup)
    (hok : db.transitionMercuryOperationItem env scope operationId itemId expected targetState
      eventId occurredAt reason result = .ok db') :
    ∃ op ∈ store.operations, ∃ item ∈ op.items, ∃ target : OperationItemState,
      (op.operationId = operationId ∧ InScope scope op ∧ item.operationItemId = itemId ∧
        (item.stateVersion : Int) = expected ∧ targetState = target.value) ∧
      (item.updatedAt ≤ occurredAt ∧ op.updatedAt ≤ occurredAt ∧
        publicIdentifierIsSafe env reason = true ∧
        itemOperationTransitionAllowed item.state target op.state = true) ∧
      ((target = .succeeded ↔ result.isSome = true) ∧
        ∀ text, result = some text → DatabaseAcceptsText env text) ∧
      db' = db.afterItem op (afterItem env op item target eventId occurredAt reason result)
        (itemAfter item target occurredAt (result.map env.publicText))
        (op.itemEvent item target eventId occurredAt reason) := by
  simp only [Database.transitionMercuryOperationItem, bind_eq_ok, require_eq_ok] at hok
  obtain ⟨-, -, hok⟩ := hok
  cases hfind : db.findOperation scope operationId with
  | none => simp [hfind] at hok
  | some row =>
      obtain ⟨op, hop, rfl, hscope, rfl⟩ := (ha.findOperation_eq_some hids).1 hfind
      simp only [hfind] at hok
      split at hok
      · simp at hok
      · rename_i itemRow hitemRow
        obtain ⟨item, hitem, rfl, rfl⟩ := (ha.findItem_eq_some hop hscope).1 hitemRow
        simp only [bind_eq_ok, require_eq_ok, beq_iff_eq, Bool.and_eq_true, Database.updateItem,
          Database.updateOperation, Database.insertEvent, pure_eq_ok] at hok
        obtain ⟨-, hversion, -, ⟨⟨⟨⟨hitemTime, htime⟩, hsafe⟩, hresult⟩, hguard⟩, _,
          ⟨-, hchecks, rfl⟩, _, ⟨-, -, rfl⟩, -, -, -, -, rfl⟩ := hok
        obtain ⟨target, rfl⟩ := target_of_itemAllowed hguard
        simp only [Database.operationRow, Database.itemRow,
          itemOperationTransitionIsAllowed_value] at hguard
        obtain ⟨hiff, htexts⟩ := resultIdentifierAllowed_iff.1 hresult
        refine ⟨op, hop, item, hitem, target, ⟨rfl, hscope, rfl, hversion, rfl⟩,
          ⟨of_decide_eq_true hitemTime, of_decide_eq_true htime, hsafe, hguard⟩, ⟨hiff, ?_⟩, ?_⟩
        · rintro text rfl
          obtain ⟨hmin, hmax, hcntrl⟩ := htexts text rfl
          simp only [OperationItemRow.checks, Bool.and_eq_true, Option.map_some, Option.all_some,
            beq_iff_eq] at hchecks
          obtain ⟨-, ⟨⟨-, hstable⟩, -⟩⟩ := hchecks
          exact ⟨hmin, hmax, hcntrl, hstable⟩
        · have hmax : max op.updatedAt occurredAt = occurredAt :=
            Int.max_eq_right (of_decide_eq_true htime)
          obtain ⟨htenant, huser, hworkspace⟩ := hscope
          rw [← htenant, ← huser, ← hworkspace]
          simp only [Database.afterItem, afterItem, afterTransitionItem, Database.operationRow, hmax]
          rfl

lemma Agrees.itemTransitionAccepted_of_ok (ha : Agrees store db) (h : store.Sound env)
    (hreason : ReasonAgrees env reason)
    (hok : db.transitionMercuryOperationItem env scope operationId itemId expected targetState
      eventId occurredAt reason result = .ok db') :
    ∃ op item target, ItemTransitionAccepted env store scope operationId itemId expected targetState
      occurredAt reason result op item target := by
  obtain ⟨op, hop, item, hitem, target, ⟨hid, hscope, hitemId, hversion, htarget⟩,
    ⟨hle, -, hsafe, hguard⟩, ⟨hiff, haccepts⟩, -⟩ :=
      ha.itemTransition_inversion h.operation_ids hok
  exact ⟨op, item, target, hop, hid, hscope, hitem, hitemId, hversion, htarget, hguard, hle,
    hreason.2 hsafe, hiff, haccepts⟩

lemma Agrees.putItem (ha : Agrees store db) (hop : op ∈ store.operations)
    (h : op.Invariant env.sanitize) {item' : OperationItem} (hitem : op.items[index]? = some item)
    (hid : item'.operationItemId = item.operationItemId) (hsame : SameConfirmation op op')
    (hitems : op'.items = op.items.set index item') {event : OperationEvent}
    (hown : event.operationId = op.operationId) (hevents : op'.events = op.events ++ [event]) :
    Agrees (store.putOperation op') (db.afterItem op op' item' event) := by
  have hrow : Database.itemRow op item ∈ db.items := by
    have : Database.itemRow op item ∈ db.items.filter (·.operationId == op.operationId) := by
      rw [ha.items op hop]
      exact List.mem_map_of_mem (List.mem_of_getElem? hitem)
    exact List.mem_of_mem_filter this
  refine ha.put hop hsame rfl rfl ?_ ?_ ?_ ?_ ?_
  · have hput : (db.putItem (Database.itemRow op item')).items.map (·.id) =
        db.items.map (·.id) := by
      simp only [Database.putItem, KeyedTable.map_key_put]
    exact hput
  · have hkept : ∀ row ∈ db.items, row.id = (Database.itemRow op item').id →
        (row.operationId == op.operationId) =
          ((Database.itemRow op item').operationId == op.operationId) := by
      intro row hrow' heq
      obtain rfl : row = Database.itemRow op item :=
        KeyedTable.eq_of_key_eq ha.item_ids hrow' hrow (heq.trans hid)
      rfl
    refine (KeyedTable.filter_put_of_mem hkept).trans ?_
    rw [ha.items op hop, hitems, ← KeyedTable.put_eq_set h.items_ids hitem hid]
    exact (KeyedTable.map_put (fun _ => rfl) _ _).symm
  · intro id hne
    exact KeyedTable.filter_put_of_not ha.item_ids hrow hid (beq_eq_false_iff_ne.2 (Ne.symm hne))
      (beq_eq_false_iff_ne.2 (Ne.symm hne))
  · refine (filter_append_own (k := op.operationId) hown).trans ?_
    rw [ha.events op hop, hevents, List.map_append]
    rfl
  · intro id hne
    exact filter_append_other (by rwa [← hown] at hne)

lemma Agrees.itemTransition_ok (ha : Agrees store db) (h : store.Sound env)
    (hcall : CallAgrees env store now (.transitionOperationItem scope operationId itemId expected
      targetState eventId occurredAt reason result))
    (hacc : ItemTransitionAccepted env store scope operationId itemId expected targetState
      occurredAt reason result op item target) :
    ∃ db', db.transitionMercuryOperationItem env scope operationId itemId expected targetState
        eventId occurredAt reason result = .ok db' ∧
      Agrees (store.putOperation (afterItem env op item target eventId occurredAt reason result))
        db' := by
  obtain ⟨haccess, hreason, hresult, hfresh, htime⟩ := hcall
  obtain ⟨index, hindex, hindexOf, hwf, hnext, -⟩ := hacc.next h eventId hresult
  obtain ⟨hop, rfl, hscope, hitem, rfl, hversion, rfl, hguard, hle, haccepted, hiff, haccepts⟩ :=
    hacc
  have hinv := h.invariant op hop
  have hopTime := htime op hop rfl item hitem rfl hle
  have hsafe := hreason.1 haccepted
  obtain ⟨p, hp, hbinding, hclients⟩ := h.bound op hop
  have hchecked := h.previews.checked p hp
  have hcapability : isDocumentCapability op.capabilityId = true := by
    rw [← congrArg (·.capabilityId) hbinding]
    exact hchecked.2
  have hclient : publicIdentifierIsSafe env item.clientItemId = true := by
    have hmem : item.clientItemId ∈ p.items.map (·.clientItemId) := by
      rw [← hclients]
      exact List.mem_map_of_mem hitem
    obtain ⟨previewItem, hpreviewItem, hsame⟩ := List.mem_map.1 hmem
    have hall := hchecked.1
    simp only [previewChecks, Bool.and_eq_true] at hall
    have := List.all_eq_true.1 hall.2 previewItem hpreviewItem
    simp only [Bool.and_eq_true] at this
    rw [← hsame]
    exact this.1.1
  have hmax : max op.updatedAt occurredAt = occurredAt := Int.max_eq_right hopTime
  have hoperationRow := operationRow_checks hnext hcapability
  have hitemRow : (Database.itemRow op (itemAfter item target occurredAt
      (result.map env.publicText))).checks env = true := by
    refine itemRow_checks hwf hclient ?_
    intro text htext
    obtain ⟨raw, rfl, rfl⟩ := Option.map_eq_some_iff.1 htext
    obtain ⟨h1, h2, h3, h4⟩ := haccepts raw rfl
    exact ⟨h1, h2, h4, h3⟩
  have hevent := hnext.events_valid (op.itemEvent item target eventId occurredAt reason)
    (List.mem_append_right _ (List.mem_singleton.2 rfl))
  have hversions : ∀ e ∈ op.events, e.operationItemId = some item.operationItemId →
      e.stateVersion ≠ item.stateVersion + 1 := by
    intro e he hid
    have := (event_version_le hinv he).2 item hitem hid
    omega
  have hinsert := ha.insertEvent hop _ rfl hfresh hversions (eventRow_checks hevent hsafe)
    ((db.putItem (Database.itemRow op (itemAfter item target occurredAt
      (result.map env.publicText)))).putOperation (Database.operationRow
        (afterItem env op item target eventId occurredAt reason result))) rfl
  refine ⟨db.afterItem op (afterItem env op item target eventId occurredAt reason result)
    (itemAfter item target occurredAt (result.map env.publicText))
    (op.itemEvent item target eventId occurredAt reason), ?_, ?_⟩
  · have hfind := (ha.findOperation_eq_some h.operation_ids).2 ⟨op, hop, rfl, hscope, rfl⟩
    have hfindItem := (ha.findItem_eq_some hop hscope).2 ⟨item, hitem, rfl, rfl⟩
    have hguard' := itemOperationTransitionIsAllowed_value item.state target op.state
    rw [hguard] at hguard'
    have hallowed := resultIdentifierAllowed_iff.2 ⟨hiff, fun text htext =>
      ⟨(haccepts text htext).1, (haccepts text htext).2.1, (haccepts text htext).2.2.1⟩⟩
    have hupdated : Database.operationRow (afterItem env op item target eventId occurredAt reason
        result) = { Database.operationRow op with updatedAt := occurredAt } := by
      simp only [afterItem, afterTransitionItem, Database.operationRow, hmax]
    rw [hupdated] at hoperationRow hinsert
    obtain ⟨htenant, huser, hworkspace⟩ := hscope
    simp only [Database.transitionMercuryOperationItem, bind_eq_ok, require_eq_ok]
    refine ⟨(), haccess, ?_⟩
    rw [hfind]
    simp only []
    rw [hfindItem]
    simp only [bind_eq_ok, require_eq_ok, beq_iff_eq, Bool.and_eq_true]
    refine ⟨(), hversion, (), ⟨⟨⟨⟨decide_eq_true hle, decide_eq_true hopTime⟩, hsafe⟩, hallowed⟩,
      hguard'⟩, db.putItem (Database.itemRow op (itemAfter item target occurredAt
        (result.map env.publicText))), ?_, (db.putItem (Database.itemRow op (itemAfter item target
          occurredAt (result.map env.publicText)))).putOperation
            { Database.operationRow op with updatedAt := occurredAt }, ?_, ?_⟩
    · simp only [Database.updateItem, bind_eq_ok, require_eq_ok, pure_eq_ok]
      exact ⟨(), hitemRow, rfl⟩
    · simp only [Database.updateOperation, bind_eq_ok, require_eq_ok, pure_eq_ok]
      exact ⟨(), hoperationRow, trivial⟩
    · rw [Database.afterItem, hupdated]
      simp only [Database.eventRow, itemEvent, htenant, huser, hworkspace] at hinsert ⊢
      exact hinsert
  · have hid : (itemAfter item target occurredAt (result.map env.publicText)).operationItemId =
        item.operationItemId := rfl
    have hitems : (afterItem env op item target eventId occurredAt reason result).items =
        op.items.set index (itemAfter item target occurredAt (result.map env.publicText)) := by
      rw [← hindexOf]
      rfl
    exact ha.putItem hop hinv hindex hid (sameConfirmation_afterItem hindex hindexOf) hitems rfl rfl

end Hosted
end MercuryTools
