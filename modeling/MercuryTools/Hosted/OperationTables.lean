import MercuryTools.Hosted.OperationStore

/-!
# The operation tables and their functions

The database side of the operation store, from the migration that creates it: the tables of
operations, operation items and operation events with their constraints, the two transition
guards over status texts, and the functions `save_mercury_operation`,
`transition_mercury_operation` and `transition_mercury_operation_item`.

A function that raises leaves the database as it was.  Tables are lists of rows in insertion
order.  Previews keep the record type of the service, which has the columns these functions
read; `document_count` is the number of its items.
-/

namespace MercuryTools
namespace Hosted

open Checks

/-! ## Rows -/

structure OperationRow extends ConfirmationBinding where
  id : UUID
  status : String
  stateVersion : Nat
  createdAt : Instant
  updatedAt : Instant
  payloadPurgeAfter : Instant
  deriving DecidableEq, Repr

structure OperationItemRow where
  id : UUID
  operationId : UUID
  previewItemId : UUID
  previewId : UUID
  tenantId : UUID
  authUserId : UUID
  workspaceId : UUID
  connectionId : UUID
  itemIndex : Nat
  clientItemId : String
  providerCallHash : String
  previewIntegrityHash : String
  status : String
  stateVersion : Nat
  providerResultIdentifier : Option String
  createdAt : Instant
  updatedAt : Instant
  deriving DecidableEq, Repr

structure OperationEventRow where
  id : UUID
  operationId : UUID
  operationItemId : Option UUID
  tenantId : UUID
  authUserId : UUID
  workspaceId : UUID
  connectionId : UUID
  fromState : Option String
  toState : String
  stateVersion : Nat
  sanitizedReason : String
  occurredAt : Instant
  deriving DecidableEq, Repr

structure Database where
  previews : List DocumentPreview
  operations : List OperationRow
  items : List OperationItemRow
  events : List OperationEventRow
  deriving DecidableEq, Repr

/-! ## Guards -/

/-- The statuses in which an item has ended, as the parent guard lists them. -/
def endedStatuses : List String :=
  ["succeeded", "provider_rejected", "outcome_unknown", "needs_manual_review", "not_dispatched",
    "expired", "cancelled"]

/-- `mercury_parent_operation_transition_is_allowed`. -/
def parentOperationTransitionIsAllowed (current target : String) (children : List String) :
    Bool :=
  let allTerminal := 0 < children.length && !children.any (· ∉ endedStatuses)
  if current = "prepared" then
    if target = "awaiting_confirmation" then !children.any (· != "prepared")
    else if target = "expired" then 0 < children.length && !children.any (· != "expired")
    else if target = "cancelled" then
      0 < children.length && !children.any (· ∉ ["cancelled", "not_dispatched"])
    else false
  else if current = "awaiting_confirmation" then
    if target = "dispatching" then
      !children.any (· ∉ ["awaiting_confirmation", "failed_pre_dispatch"])
    else if target = "failed_pre_dispatch" then
      0 < children.length && !children.any (· ∉ ["failed_pre_dispatch", "not_dispatched"])
    else if target = "expired" then 0 < children.length && !children.any (· != "expired")
    else if target = "cancelled" then
      0 < children.length && !children.any (· ∉ ["cancelled", "not_dispatched"])
    else false
  else if current = "failed_pre_dispatch" then
    if target = "dispatching" then
      !children.any (· ∉ ["awaiting_confirmation", "failed_pre_dispatch"])
    else if target = "cancelled" then
      0 < children.length && !children.any (· ∉ ["cancelled", "not_dispatched"])
    else false
  else if current = "outcome_unknown" then
    if target = "succeeded" then 0 < children.length && !children.any (· != "succeeded")
    else if target = "needs_manual_review" then
      allTerminal &&
        (children.any ("needs_manual_review" == ·) || children.any ("outcome_unknown" == ·))
    else false
  else if current ≠ "dispatching" then false
  else if target = "succeeded" then 0 < children.length && !children.any (· != "succeeded")
  else if target = "provider_rejected" then
    allTerminal && children.any ("provider_rejected" == ·)
  else if target = "outcome_unknown" then allTerminal && children.any ("outcome_unknown" == ·)
  else if target = "needs_manual_review" then
    allTerminal &&
      (children.any ("needs_manual_review" == ·) || children.any ("outcome_unknown" == ·))
  else false

/-- `mercury_item_operation_transition_is_allowed`. -/
def itemOperationTransitionIsAllowed (current target parent : String) : Bool :=
  (current == "prepared" &&
      ((target == "awaiting_confirmation" && parent == "awaiting_confirmation") ||
        (target ∈ ["expired", "cancelled"] && parent == "prepared"))) ||
    (current == "awaiting_confirmation" &&
      ((target == "dispatching" && parent == "dispatching") ||
        (target == "not_dispatched" && parent ∈ ["awaiting_confirmation", "dispatching"]) ||
        (target ∈ ["failed_pre_dispatch", "cancelled", "expired"] &&
          parent == "awaiting_confirmation"))) ||
    (current == "failed_pre_dispatch" &&
      ((target == "dispatching" && parent == "dispatching") ||
        (target == "cancelled" && parent == "failed_pre_dispatch"))) ||
    (current == "dispatching" &&
      target ∈ ["succeeded", "provider_rejected", "outcome_unknown"] &&
      parent == "dispatching") ||
    (current == "outcome_unknown" && target ∈ ["succeeded", "needs_manual_review"] &&
      parent == "outcome_unknown")

/-! ### The two guards are those of the service -/

lemma any_value_ne (cs : List OperationItemState) (s : OperationItemState) :
    (cs.map OperationItemState.value).any (· != s.value) = !cs.all (· == s) := by
  rw [List.any_map, List.not_all_eq_any_not]
  congr 1
  funext c
  simp only [Function.comp_apply, bne, OperationItemState.value_injective.eq_iff, beq_eq_decide]

lemma any_value_eq (cs : List OperationItemState) (s : OperationItemState) :
    (cs.map OperationItemState.value).any (s.value == ·) = cs.any (· == s) := by
  rw [List.any_map]
  congr 1
  funext c
  simp only [Function.comp_apply, beq_eq_decide, OperationItemState.value_injective.eq_iff, eq_comm]

lemma any_value_notMem (cs ss : List OperationItemState) :
    (cs.map OperationItemState.value).any (· ∉ ss.map OperationItemState.value) =
      !cs.all (· ∈ ss) := by
  rw [List.any_map, List.not_all_eq_any_not]
  congr 1
  funext c
  simp only [Function.comp_apply, List.mem_map_of_injective OperationItemState.value_injective,
    decide_not]

/-- The two parent guards accept the same moves. -/
theorem parentOperationTransitionIsAllowed_value (p t : ParentOperationState)
    (cs : List OperationItemState) :
    parentOperationTransitionIsAllowed p.value t.value (cs.map OperationItemState.value) =
      parentOperationTransitionAllowed p t cs := by
  have hprepared : (cs.map OperationItemState.value).any (· != "prepared") = _ :=
    any_value_ne cs .prepared
  have hexpired : (cs.map OperationItemState.value).any (· != "expired") = _ :=
    any_value_ne cs .expired
  have hsucceeded : (cs.map OperationItemState.value).any (· != "succeeded") = _ :=
    any_value_ne cs .succeeded
  have hcancelled : (cs.map OperationItemState.value).any
      (· ∉ ["cancelled", "not_dispatched"]) = _ := any_value_notMem cs [.cancelled, .notDispatched]
  have hopen : (cs.map OperationItemState.value).any
      (· ∉ ["awaiting_confirmation", "failed_pre_dispatch"]) = _ :=
    any_value_notMem cs [.awaitingConfirmation, .failedPreDispatch]
  have hfailed : (cs.map OperationItemState.value).any
      (· ∉ ["failed_pre_dispatch", "not_dispatched"]) = _ :=
    any_value_notMem cs [.failedPreDispatch, .notDispatched]
  have hended : (cs.map OperationItemState.value).any (· ∉ endedStatuses) = _ :=
    any_value_notMem cs itemTerminal
  have hreview : (cs.map OperationItemState.value).any ("needs_manual_review" == ·) = _ :=
    any_value_eq cs .needsManualReview
  have hunknown : (cs.map OperationItemState.value).any ("outcome_unknown" == ·) = _ :=
    any_value_eq cs .outcomeUnknown
  have hrejected : (cs.map OperationItemState.value).any ("provider_rejected" == ·) = _ :=
    any_value_eq cs .providerRejected
  have hlength : decide (0 < (cs.map OperationItemState.value).length) = !cs.isEmpty := by
    cases cs <;> simp
  have hany : cs.any (· ∈ [.needsManualReview, .outcomeUnknown]) =
      (cs.any (· == .needsManualReview) || cs.any (· == .outcomeUnknown)) := by
    rw [Bool.eq_iff_iff]
    simp [and_or_left, exists_or]
  simp only [parentOperationTransitionIsAllowed, parentOperationTransitionAllowed, hlength,
    hended, hprepared, hexpired, hsucceeded, hcancelled, hopen, hfailed, hreview, hunknown,
    hrejected, hany, Bool.not_not]
  cases p <;> cases t <;>
    simp [ParentOperationState.value, parentTransitions]

/-- The two item guards accept the same moves. -/
theorem itemOperationTransitionIsAllowed_value (s t : OperationItemState)
    (p : ParentOperationState) :
    itemOperationTransitionIsAllowed s.value t.value p.value =
      itemOperationTransitionAllowed s t p := by
  cases s <;> cases t <;> cases p <;> decide

lemma ne_of_forall_value {target : String} (hne : ∀ t : ParentOperationState, target ≠ t.value) :
    target ≠ "awaiting_confirmation" ∧ target ≠ "expired" ∧ target ≠ "cancelled" ∧
      target ≠ "dispatching" ∧ target ≠ "failed_pre_dispatch" ∧ target ≠ "succeeded" ∧
      target ≠ "provider_rejected" ∧ target ≠ "outcome_unknown" ∧
      target ≠ "needs_manual_review" :=
  ⟨hne .awaitingConfirmation, hne .expired, hne .cancelled, hne .dispatching,
    hne .failedPreDispatch, hne .succeeded, hne .providerRejected, hne .outcomeUnknown,
    hne .needsManualReview⟩

/-- Only the value of a state is an accepted target. -/
lemma target_of_parentAllowed {current target : String} {children : List String}
    (h : parentOperationTransitionIsAllowed current target children = true) :
    ∃ t : ParentOperationState, target = t.value := by
  by_contra hnone
  have hne := ne_of_forall_value fun t ht => hnone ⟨t, ht⟩
  simp [parentOperationTransitionIsAllowed, hne] at h

lemma target_of_itemAllowed {current target parent : String}
    (h : itemOperationTransitionIsAllowed current target parent = true) :
    ∃ t : OperationItemState, target = t.value := by
  by_contra hnone
  have hne : ∀ t : OperationItemState, target ≠ t.value := fun t ht => hnone ⟨t, ht⟩
  have hparent : ∀ t : ParentOperationState, target ≠ t.value := by
    intro t
    cases t
    exacts [hne .prepared, hne .awaitingConfirmation, hne .dispatching, hne .succeeded,
      hne .failedPreDispatch, hne .providerRejected, hne .outcomeUnknown, hne .needsManualReview,
      hne .expired, hne .cancelled]
  have hnot : target ≠ "not_dispatched" := hne .notDispatched
  have hothers := ne_of_forall_value hparent
  simp [itemOperationTransitionIsAllowed, hnot, hothers] at h

/-! ## Constraints -/

section

variable (env : StoreEnvironment)

/-- `mercury_public_identifier_is_safe`. -/
def publicIdentifierIsSafe (value : String) : Bool :=
  isIdentifier value && env.publicText value == value

/-- The pattern of `capability_id`: `^documents\.[a-z][a-z0-9_]*\.create$`. -/
def isDocumentCapability (s : String) : Bool :=
  match s.toList.splitOn '.' with
  | [first, segment, last] =>
      first == "documents".toList && isCapabilitySegment segment && last == "create".toList
  | _ => false

/-- The `check` constraints of `mercury_document_previews` on the columns kept here, and those of
`mercury_preview_items` on its rows. -/
def previewChecks (preview : DocumentPreview) : Bool :=
  preview.expiresAt == preview.createdAt + previewTtl &&
    ((preview.state != .confirmed &&
        preview.payloadPurgeAfter == preview.expiresAt + unconfirmedPayloadRetention) ||
      (preview.state == .confirmed &&
        preview.expiresAt + unconfirmedPayloadRetention ≤ preview.payloadPurgeAfter &&
        preview.confirmedAt.any (preview.payloadPurgeAfter ≤ · + confirmedPayloadRetention))) &&
    ((preview.state ∈ [.prepared, .awaitingConfirmation, .expired] &&
        preview.confirmedAt.isNone && preview.cancelledAt.isNone) ||
      (preview.state == .confirmed && preview.confirmedAt.isSome && preview.cancelledAt.isNone) ||
      (preview.state == .cancelled && preview.confirmedAt.isNone && preview.cancelledAt.isSome)) &&
    ((preview.state == .prepared && preview.stateVersion == 1) ||
      (preview.state == .awaitingConfirmation && preview.stateVersion ∈ [1, 2]) ||
      (preview.state ∈ [.confirmed, .expired, .cancelled] && preview.stateVersion ∈ [2, 3])) &&
    preview.items.all fun item =>
      publicIdentifierIsSafe env item.clientItemId &&
        item.createdAt + previewTtl + unconfirmedPayloadRetention ≤ item.payloadPurgeAfter &&
        item.payloadPurgeAfter ≤ item.createdAt + previewTtl + confirmedPayloadRetention

/-- The `check` constraints of `mercury_operations`. -/
def OperationRow.checks (row : OperationRow) : Bool :=
  isEnvironment row.environment && isDocumentCapability row.capabilityId &&
    isSha256 row.capabilityVersion && 1 ≤ row.connectionRevision &&
    isSha256 row.providerCallHash && isSha256 row.previewIntegrityHash &&
    row.status ∈ ParentOperationState.members.map ParentOperationState.value &&
    1 ≤ row.stateVersion && row.createdAt ≤ row.updatedAt &&
    row.createdAt < row.payloadPurgeAfter &&
    row.payloadPurgeAfter ≤ row.createdAt + confirmedPayloadRetention

/-- The `check` constraints of `mercury_operation_items`. -/
def OperationItemRow.checks (row : OperationItemRow) : Bool :=
  row.itemIndex ≤ 24 && publicIdentifierIsSafe env row.clientItemId &&
    isSha256 row.providerCallHash && isSha256 row.previewIntegrityHash &&
    row.status ∈ OperationItemState.members.map OperationItemState.value &&
    1 ≤ row.stateVersion && row.createdAt ≤ row.updatedAt &&
    row.providerResultIdentifier.all fun text =>
      1 ≤ text.length && text.length ≤ 200 && text == env.publicText text &&
        !text.toList.any env.isCntrl

/-- The `check` constraints of `mercury_operation_events`. -/
def OperationEventRow.checks (row : OperationEventRow) : Bool :=
  1 ≤ row.stateVersion && publicIdentifierIsSafe env row.sanitizedReason &&
    row.fromState.all (· ∈ OperationItemState.members.map OperationItemState.value) &&
    row.toState ∈ OperationItemState.members.map OperationItemState.value

/-- Two rows that a unique constraint of `mercury_operations` does not allow together. -/
def OperationRow.conflicts (row other : OperationRow) : Bool :=
  row.id == other.id || row.previewId == other.previewId ||
    (row.workspaceId == other.workspaceId && row.connectionId == other.connectionId &&
      row.providerCallHash == other.providerCallHash)

/-- Two rows that a unique constraint of `mercury_operation_items` does not allow together. -/
def OperationItemRow.conflicts (row other : OperationItemRow) : Bool :=
  row.id == other.id ||
    (row.operationId == other.operationId &&
      (row.itemIndex == other.itemIndex || row.previewItemId == other.previewItemId ||
        row.clientItemId == other.clientItemId || row.providerCallHash == other.providerCallHash))

/-- Two rows that a unique index of `mercury_operation_events` does not allow together: the
primary key, and the version of a parent's or of an item's events. -/
def OperationEventRow.conflicts (row other : OperationEventRow) : Bool :=
  row.id == other.id ||
    (row.operationId == other.operationId && row.operationItemId == other.operationItemId &&
      row.stateVersion == other.stateVersion)

/-! ## Functions -/

namespace Database

/-! The row with the primary key of `row` is replaced by it. -/

def putPreview (db : Database) (row : DocumentPreview) : Database :=
  { db with previews := KeyedTable.put (·.previewId) db.previews row }

def putOperation (db : Database) (row : OperationRow) : Database :=
  { db with operations := KeyedTable.put (·.id) db.operations row }

def putItem (db : Database) (row : OperationItemRow) : Database :=
  { db with items := KeyedTable.put (·.id) db.items row }

/-! `update` and `insert`, one row at a time, under the constraints of the table. -/

def updatePreview (db : Database) (row : DocumentPreview) : Except String Database := do
  require (previewChecks env row) "check_violation"
  return db.putPreview row

def updateOperation (db : Database) (row : OperationRow) : Except String Database := do
  require row.checks "check_violation"
  return db.putOperation row

def updateItem (db : Database) (row : OperationItemRow) : Except String Database := do
  require (row.checks env) "check_violation"
  return db.putItem row

def insertOperation (db : Database) (row : OperationRow) : Except String Database := do
  require row.checks "check_violation"
  require (!db.operations.any row.conflicts) "operation_conflict"
  return { db with operations := db.operations ++ [row] }

def insertItem (db : Database) (row : OperationItemRow) : Except String Database := do
  require (row.checks env) "check_violation"
  require (!db.items.any row.conflicts) "operation_conflict"
  return { db with items := db.items ++ [row] }

def insertEvent (db : Database) (row : OperationEventRow) : Except String Database := do
  require (row.checks env) "check_violation"
  require (!db.events.any row.conflicts) "operation_conflict"
  return { db with events := db.events ++ [row] }

/-- An item of `p_items` agrees with the operation and with an item of the preview. -/
def itemMatches (candidate : OperationRow) (source : DocumentPreview) (item : OperationItemRow) :
    Bool :=
  item.operationId == candidate.id && item.previewId == candidate.previewId &&
    item.tenantId == candidate.tenantId && item.authUserId == candidate.authUserId &&
    item.workspaceId == candidate.workspaceId && item.connectionId == candidate.connectionId &&
    item.status == "awaiting_confirmation" && item.stateVersion == 1 &&
    item.providerResultIdentifier.isNone && item.createdAt == candidate.createdAt &&
    item.updatedAt == candidate.createdAt &&
    source.items.any fun sourceItem =>
      sourceItem.previewItemId == item.previewItemId && sourceItem.itemIndex == item.itemIndex &&
        sourceItem.clientItemId == item.clientItemId &&
        sourceItem.providerCallHash == item.providerCallHash &&
        sourceItem.previewIntegrityHash == item.previewIntegrityHash

/-- The event of `p_events` agrees with the operation. -/
def eventMatches (candidate : OperationRow) (event : OperationEventRow) : Bool :=
  event.operationId == candidate.id && event.operationItemId.isNone &&
    event.tenantId == candidate.tenantId && event.authUserId == candidate.authUserId &&
    event.workspaceId == candidate.workspaceId && event.connectionId == candidate.connectionId &&
    event.fromState.isNone && event.toState == "awaiting_confirmation" &&
    event.stateVersion == 1 && event.occurredAt == candidate.createdAt &&
    publicIdentifierIsSafe env event.sanitizedReason

/-- The preview `save_mercury_operation` locks for the candidate. -/
def findSourcePreview (db : Database) (candidate : OperationRow) : Option DocumentPreview :=
  db.previews.find? fun stored =>
    stored.previewId == candidate.previewId && stored.tenantId == candidate.tenantId &&
      stored.authUserId == candidate.authUserId && stored.workspaceId == candidate.workspaceId &&
      stored.connectionId == candidate.connectionId

/-- `save_mercury_operation` on the arguments of `operation_rpc_payload`. -/
def saveMercuryOperation (db : Database) (now : Instant) (candidate : OperationRow)
    (items : List OperationItemRow) (events : List OperationEventRow)
    (expectedPreviewStateVersion : Int) : Except String Database := do
  require (env.workspaceAccess candidate.tenantId candidate.workspaceId candidate.authUserId)
    "workspace_access_denied"
  match db.findSourcePreview candidate with
  | none => .error "operation_conflict"
  | some source => do
      require (source.providerCallHash == candidate.providerCallHash &&
        source.previewIntegrityHash == candidate.previewIntegrityHash &&
        source.provider == candidate.provider && source.environment == candidate.environment &&
        source.capabilityId == candidate.capabilityId &&
        source.capabilityVersion == candidate.capabilityVersion &&
        source.connectionRevision == candidate.connectionRevision &&
        candidate.status == "awaiting_confirmation" && candidate.stateVersion == 1 &&
        candidate.updatedAt == candidate.createdAt && items.length == source.items.length &&
        events.length == 1) "operation_conflict"
      if db.operations.any fun stored =>
          stored.previewId == source.previewId && stored.tenantId == source.tenantId &&
            stored.authUserId == source.authUserId && stored.workspaceId == source.workspaceId then
        return db
      else do
        require (env.authorityIsCurrent source now) "capability_unavailable"
        require ((source.stateVersion : Int) == expectedPreviewStateVersion) "preview_state_stale"
        require (source.state ∈ [.prepared, .awaitingConfirmation]) "preview_state_invalid"
        require (now < source.expiresAt && source.createdAt ≤ candidate.createdAt &&
          candidate.createdAt < source.expiresAt &&
          source.payloadPurgeAfter ≤ candidate.payloadPurgeAfter &&
          candidate.payloadPurgeAfter ≤ candidate.createdAt + confirmedPayloadRetention)
          "preview_expired"
        require (items.all (itemMatches candidate source)) "operation_conflict"
        require (events.all (eventMatches env candidate)) "operation_conflict"
        let confirmed ← db.updatePreview env { source with
          state := .confirmed
          stateVersion := source.stateVersion + 1
          confirmedAt := some candidate.createdAt
          payloadPurgeAfter := candidate.payloadPurgeAfter
          items := source.items.map
            ({ · with payloadPurgeAfter := candidate.payloadPurgeAfter }) }
        let withOperation ← confirmed.insertOperation candidate
        let withItems ← items.foldlM (insertItem env) withOperation
        events.foldlM (insertEvent env) withItems

/-- The operation a transition function locks. -/
def findOperation (db : Database) (scope : Scope) (operationId : UUID) : Option OperationRow :=
  db.operations.find? fun stored =>
    stored.id == operationId && stored.tenantId == scope.tenantId &&
      stored.authUserId == scope.authUserId && stored.workspaceId == scope.workspaceId

/-- The statuses of the items of an operation, ordered by their index. -/
def childStates (db : Database) (operationId : UUID) : List String :=
  ((db.items.filter (·.operationId == operationId)).mergeSort
    (fun row other => row.itemIndex ≤ other.itemIndex)).map (·.status)

/-- `transition_mercury_operation`. -/
def transitionMercuryOperation (db : Database) (now : Instant) (scope : Scope) (operationId : UUID)
    (expectedStateVersion : Int) (targetState : String) (eventId : UUID) (occurredAt : Instant)
    (sanitizedReason : String) : Except String Database := do
  require (env.workspaceAccess scope.tenantId scope.workspaceId scope.authUserId)
    "workspace_access_denied"
  match db.findOperation scope operationId with
  | none => .error "operation_not_found"
  | some current => do
      require ((current.stateVersion : Int) == expectedStateVersion) "operation_state_stale"
      if targetState = "dispatching" then
        match db.previews.find? (fun stored =>
          stored.previewId == current.previewId && stored.tenantId == current.tenantId &&
            stored.authUserId == current.authUserId && stored.workspaceId == current.workspaceId &&
            stored.connectionId == current.connectionId) with
        | none => .error "operation_not_found"
        | some source => require (env.authorityIsCurrent source now) "capability_unavailable"
      require (current.updatedAt ≤ occurredAt && publicIdentifierIsSafe env sanitizedReason &&
        parentOperationTransitionIsAllowed current.status targetState (db.childStates current.id))
        "operation_transition_invalid"
      let updated ← db.updateOperation { current with
        status := targetState
        stateVersion := current.stateVersion + 1
        updatedAt := occurredAt }
      updated.insertEvent env {
        id := eventId
        operationId := operationId
        operationItemId := none
        tenantId := scope.tenantId
        authUserId := scope.authUserId
        workspaceId := scope.workspaceId
        connectionId := current.connectionId
        fromState := some current.status
        toState := targetState
        stateVersion := current.stateVersion + 1
        sanitizedReason := sanitizedReason
        occurredAt := occurredAt }

/-- The checks of `transition_mercury_operation_item` on a provider result identifier: it comes
with a success and only then, and its projection has an allowed length and no control
character. -/
def resultIdentifierAllowed (targetState : String) (providerResultIdentifier : Option String) :
    Bool :=
  !(targetState == "succeeded" && providerResultIdentifier.isNone) &&
    !(targetState != "succeeded" && providerResultIdentifier.isSome) &&
    (providerResultIdentifier.map env.publicText).all fun projected =>
      1 ≤ projected.length && projected.length ≤ 200 && !projected.toList.any env.isCntrl

/-- `transition_mercury_operation_item`. -/
def transitionMercuryOperationItem (db : Database) (scope : Scope)
    (operationId operationItemId : UUID) (expectedStateVersion : Int) (targetState : String)
    (eventId : UUID) (occurredAt : Instant) (sanitizedReason : String)
    (providerResultIdentifier : Option String) : Except String Database := do
  require (env.workspaceAccess scope.tenantId scope.workspaceId scope.authUserId)
    "workspace_access_denied"
  match db.findOperation scope operationId with
  | none => .error "operation_not_found"
  | some current =>
      match db.items.find? (fun stored =>
        stored.id == operationItemId && stored.operationId == operationId &&
          stored.tenantId == scope.tenantId && stored.authUserId == scope.authUserId &&
          stored.workspaceId == scope.workspaceId) with
      | none => .error "operation_not_found"
      | some item => do
          require ((item.stateVersion : Int) == expectedStateVersion) "operation_state_stale"
          require (item.updatedAt ≤ occurredAt && current.updatedAt ≤ occurredAt &&
            publicIdentifierIsSafe env sanitizedReason &&
            resultIdentifierAllowed env targetState providerResultIdentifier &&
            itemOperationTransitionIsAllowed item.status targetState current.status)
            "operation_transition_invalid"
          let withItem ← db.updateItem env { item with
            status := targetState
            stateVersion := item.stateVersion + 1
            providerResultIdentifier := providerResultIdentifier.map env.publicText
            updatedAt := occurredAt }
          let updated ← withItem.updateOperation { current with updatedAt := occurredAt }
          updated.insertEvent env {
            id := eventId
            operationId := operationId
            operationItemId := some operationItemId
            tenantId := scope.tenantId
            authUserId := scope.authUserId
            workspaceId := scope.workspaceId
            connectionId := current.connectionId
            fromState := some item.status
            toState := targetState
            stateVersion := item.stateVersion + 1
            sanitizedReason := sanitizedReason
            occurredAt := occurredAt }

/-! ## Calls -/

/-- `p_operation` of `operation_rpc_payload`. -/
def operationRow (operation : HostedOperation) : OperationRow where
  toConfirmationBinding := operation.toConfirmationBinding
  id := operation.operationId
  status := operation.state.value
  stateVersion := operation.stateVersion
  createdAt := operation.createdAt
  updatedAt := operation.updatedAt
  payloadPurgeAfter := operation.payloadPurgeAfter

/-- One of the `p_items` of `operation_rpc_payload`. -/
def itemRow (operation : HostedOperation) (item : OperationItem) : OperationItemRow where
  id := item.operationItemId
  operationId := operation.operationId
  previewItemId := item.previewItemId
  previewId := operation.previewId
  tenantId := operation.tenantId
  authUserId := operation.authUserId
  workspaceId := operation.workspaceId
  connectionId := operation.connectionId
  itemIndex := item.itemIndex
  clientItemId := item.clientItemId
  providerCallHash := item.providerCallHash
  previewIntegrityHash := item.previewIntegrityHash
  status := item.state.value
  stateVersion := item.stateVersion
  providerResultIdentifier := item.providerResultIdentifier
  createdAt := item.createdAt
  updatedAt := item.updatedAt

/-- One of the `p_events` of `operation_rpc_payload`. -/
def eventRow (operation : HostedOperation) (event : OperationEvent) : OperationEventRow where
  id := event.eventId
  operationId := event.operationId
  operationItemId := event.operationItemId
  tenantId := operation.tenantId
  authUserId := operation.authUserId
  workspaceId := operation.workspaceId
  connectionId := operation.connectionId
  fromState := event.fromState
  toState := event.toState
  stateVersion := event.stateVersion
  sanitizedReason := event.sanitizedReason
  occurredAt := event.occurredAt

/-- One call, made at `now`.  An operation is validated before it is sent. -/
def call (db : Database) (now : Instant) : StoreCall → Except String Database
  | .createOperation operation expected => do
      let checked ← operation.validate env.sanitize
      db.saveMercuryOperation env now (operationRow checked) (checked.items.map (itemRow checked))
        (checked.events.map (eventRow checked)) expected
  | .transitionOperation scope operationId expected target eventId occurredAt reason =>
      db.transitionMercuryOperation env now scope operationId expected target eventId occurredAt
        reason
  | .transitionOperationItem scope operationId itemId expected target eventId occurredAt reason
      result =>
      db.transitionMercuryOperationItem env scope operationId itemId expected target eventId
        occurredAt reason result

end Database

end

end Hosted
end MercuryTools
