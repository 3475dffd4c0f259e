import MercuryTools.Providers.StoreAtomicity

/-!
# What the operations of the connection store do

For every operation that returns: what it has found and checked, and the store that it leaves.  The
invariants of the store are derived from these facts, not from the operations.
-/

namespace MercuryTools.Providers

open Checks Credentials Hosted Operation

variable {crypto : Crypto} {vault : CredentialVault} {s s' : Store}

/-! ## Arguments -/

variable {value : String} {readiness : ConnectionReadiness} {scope : Scope}
  {connectionId attemptId : UUID} {envelopes : List CredentialEnvelope} {attempt : OAuthAttempt}
  {user : User} {current connection : Connection} {args : ConnectionArguments} {now : Instant}
  {required : Bool} {result : DisconnectResult} {clock : Nat → Instant} {e : StoreError}

lemma parseProvider_eq_ok {provider : ProviderId} :
    parseProvider value = .ok provider ↔ ProviderId.ofValue? value = some provider := by
  unfold parseProvider
  cases ProviderId.ofValue? value <;> simp

lemma parseReadiness_eq_ok :
    parseReadiness value = .ok readiness ↔ ConnectionReadiness.ofValue? value = some readiness := by
  unfold parseReadiness
  cases ConnectionReadiness.ofValue? value <;> simp

lemma ConnectionReadiness.value_of_ofValue? (h : ofValue? value = some readiness) :
    readiness.value = value := by
  unfold ofValue? at h
  simpa only [decide_eq_true_eq] using List.find?_some h

/-- What `_validate_envelopes` ensures. -/
structure BoundEnvelopes (scope : Scope) (connectionId : UUID)
    (envelopes : List CredentialEnvelope) : Prop where
  nodup : (envelopes.map (·.id)).Nodup
  scope : ∀ envelope ∈ envelopes, scope.matchesEnvelope envelope = true
  connectionId : ∀ envelope ∈ envelopes, envelope.connectionId = connectionId

lemma boundEnvelopes_of_validateEnvelopes {company : String}
    (h : validateEnvelopes crypto vault scope connectionId company envelopes = .ok ()) :
    BoundEnvelopes scope connectionId envelopes := by
  unfold validateEnvelopes at h
  simp only [Checks.bind_eq_ok, require_eq_ok, Bool.and_eq_true, decide_eq_true_eq,
    List.all_eq_true, exists_const] at h
  obtain ⟨-, ⟨⟨-, hnodup⟩, -⟩, hbound⟩ := h
  have hparts : ∀ envelope ∈ envelopes, scope.matchesEnvelope envelope = true ∧
      envelope.connectionId = connectionId := by
    intro envelope hmem
    have henvelope := hbound envelope hmem
    unfold envelopeIsBound at henvelope
    simp only [Bool.and_eq_true, beq_iff_eq] at henvelope
    exact henvelope.1.1
  exact ⟨hnodup, fun envelope hmem => (hparts envelope hmem).1,
    fun envelope hmem => (hparts envelope hmem).2⟩

lemma requireOauthAttempt_eq_ok :
    s.requireOauthAttempt attemptId scope = .ok attempt ↔
      requireIds (attemptId :: scope.toUser.ids) = .ok () ∧
        s.oauthAttempts.get attemptId = some attempt ∧ attempt.toScope = scope := by
  unfold Store.requireOauthAttempt
  rw [Checks.bind_eq_ok]
  cases hfound : s.oauthAttempts.get attemptId with
  | none =>
      constructor
      · rintro ⟨_, -, h⟩
        cases h
      · rintro ⟨-, h, -⟩
        cases h
  | some found =>
      simp only [Checks.bind_eq_ok, require_eq_ok, beq_iff_eq, pure_eq_ok, exists_const,
        Option.some.injEq]
      constructor
      · rintro ⟨_, hids, hscope, rfl⟩
        exact ⟨hids, rfl, hscope⟩
      · rintro ⟨hids, rfl, hscope⟩
        exact ⟨(), hids, hscope, rfl⟩

lemma requireConnection_eq_ok :
    s.requireConnection user connectionId = .ok current ↔
      s.connections.get connectionId = some current ∧ current.toUser = user := by
  unfold Store.requireConnection
  cases hfound : s.connections.get connectionId with
  | none => simp
  | some found =>
      simp only [Checks.bind_eq_ok, require_eq_ok, beq_iff_eq, pure_eq_ok, exists_const,
        Option.some.injEq]
      constructor
      · rintro ⟨huser, rfl⟩
        exact ⟨rfl, huser⟩
      · rintro ⟨rfl, huser⟩
        exact ⟨huser, rfl⟩

/-- The stored envelopes of a list of identifiers, in its order. -/
lemma storedEnvelopes_eq_ok {stored : Dict UUID CredentialEnvelope} {ids : List UUID} :
    storedEnvelopes stored ids = .ok envelopes ↔
      List.Forall₂ (fun id envelope => stored.get id = some envelope) ids envelopes := by
  rw [storedEnvelopes, mapM_eq_ok]
  apply iff_of_eq
  congr 1
  funext id envelope
  cases stored.get id <;> simp

/-! ## Connections -/

/-- What `save_connection` has checked before it takes the lock. -/
structure Supplies (connectionId : UUID) (args : ConnectionArguments) (connection : Connection) :
    Prop where
  id : connection.id = connectionId
  bound : BoundEnvelopes connection.toScope connectionId args.envelopes
  ids : connection.credentialEnvelopeIds = args.envelopes.map (·.id)
  owes : connection.providerRevocationRequired = false
  revision : connection.revision = args.revision
  scope : ∃ provider, ProviderId.ofValue? args.provider = some provider ∧
    connection.toScope = args.scope provider
  readiness : connection.readiness.value = args.readiness

/-- What `save_connection` has checked of the connection that it saves. -/
structure Saves (s : Store) (connectionId : UUID) (args : ConnectionArguments)
    (connection : Connection) : Prop extends Supplies connectionId args connection where
  own : ∀ envelope ∈ args.envelopes, ∀ stored, s.envelopes.get envelope.id = some stored →
    stored.connectionId = connectionId
  account : (s.connections.get connectionId = none ∧
      ∀ key other, s.connections.get key = some other → other.toAccount ≠ connection.toAccount) ∨
    ∃ current, s.connections.get connectionId = some current ∧
      current.toAccount = connection.toAccount ∧ connection.revision = current.revision + 1

lemma supplies_of_suppliedConnection
    (h : suppliedConnection crypto vault connectionId args now = .ok connection) :
    Supplies connectionId args connection := by
  unfold suppliedConnection at h
  simp only [Checks.bind_eq_ok, Connection.create_eq_ok] at h
  obtain ⟨_, -, provider, hprovider, method, -, readiness, hreadiness, _, -, _, hvalid, validated,
    -, hrecord⟩ := h
  have hscope : connection.toScope = args.scope provider := by
    rw [hrecord]
    rfl
  refine ⟨?_, hscope ▸ boundEnvelopes_of_validateEnvelopes hvalid, ?_, ?_, ?_,
    ⟨provider, parseProvider_eq_ok.1 hprovider, hscope⟩, ?_⟩
  rotate_right
  · rw [hrecord]
    exact ConnectionReadiness.value_of_ofValue? (parseReadiness_eq_ok.1 hreadiness)
  all_goals
    rw [hrecord]
    rfl

lemma saves_of_admitted {supplied : Connection} (hsupplies : Supplies connectionId args supplied)
    (h : s.admit connectionId supplied args.envelopes = .ok connection) :
    Saves s connectionId args connection := by
  unfold Store.admit at h
  rw [Checks.bind_eq_ok] at h
  obtain ⟨_, hown, h⟩ := h
  rw [require_eq_ok, List.all_eq_true] at hown
  have hconnection : ∀ envelope ∈ args.envelopes, ∀ stored,
      s.envelopes.get envelope.id = some stored → stored.connectionId = connectionId := by
    intro envelope hmem stored hstored
    have hall := hown envelope hmem
    rw [hstored, Option.all_some, beq_iff_eq] at hall
    exact hall
  cases hfound : s.connections.get connectionId with
  | none =>
      rw [hfound] at h
      simp only [Checks.bind_eq_ok, require_eq_ok, Bool.and_eq_true, Bool.not_eq_true',
        pure_eq_ok, exists_const] at h
      obtain ⟨⟨-, hunused⟩, rfl⟩ := h
      refine ⟨hsupplies, hconnection, .inl ⟨hfound, fun key other hother haccount => ?_⟩⟩
      rw [List.any_eq_false] at hunused
      apply hunused other (Dict.mem_values_of_get hother)
      exact beq_iff_eq.2 haccount
  | some current =>
      rw [hfound] at h
      simp only [Checks.bind_eq_ok, require_eq_ok, Bool.and_eq_true, beq_iff_eq,
        ConnectionRecord.sameBinding, exists_const, Connection.validate_eq_ok] at h
      obtain ⟨⟨hrevision, haccount⟩, hrecord⟩ := h
      have hscope : connection.toScope = supplied.toScope := by rw [hrecord]
      refine ⟨⟨?_, hscope ▸ hsupplies.bound, ?_, ?_, ?_, ?_, ?_⟩, hconnection, .inr
        ⟨current, hfound, ?_, ?_⟩⟩
      · rw [hrecord]
        exact hsupplies.id
      · rw [hrecord]
        exact hsupplies.ids
      · rw [hrecord]
        exact hsupplies.owes
      · rw [hrecord]
        exact hsupplies.revision
      · rw [hrecord]
        exact hsupplies.scope
      · rw [hrecord]
        exact hsupplies.readiness
      · rw [hrecord]
        exact haccount
      · rw [hrecord]
        exact hrevision

lemma saveConnection_eq_ok
    (h : saveConnection crypto vault connectionId args now s = (.ok connection, s')) :
    Saves s connectionId args connection ∧
      s' = s.save connectionId connection args.envelopes := by
  unfold saveConnection at h
  obtain ⟨supplied, hsupplied, h⟩ := check_bind_eq_ok.1 h
  obtain ⟨admitted, hadmit, h⟩ := check_bind_eq_ok.1 h
  rw [modify_bind, pure_apply] at h
  cases h
  exact ⟨saves_of_admitted (supplies_of_suppliedConnection hsupplied) hadmit, rfl⟩

/-- A connection is disconnected. -/
structure Disconnects (s : Store) (connectionId : UUID) (required : Bool) (now : Instant)
    (current disconnected : Connection) : Prop where
  found : s.connections.get connectionId = some current
  connected : current.readiness ≠ .disconnected
  record : disconnected.toConnectionRecord = current.disconnection required now

/-- The changes of `disconnect`. -/
def Store.release (s : Store) (connectionId : UUID) (current disconnected : Connection) : Store :=
  (s.dropEnvelopes current.credentialEnvelopeIds).setConnection connectionId disconnected

lemma disconnect_eq_ok (h : disconnect user connectionId required now s = (.ok result, s')) :
    ∃ current, s.connections.get connectionId = some current ∧ current.toUser = user ∧
      (current.readiness = .disconnected ∧ s' = s ∨
        ∃ disconnected, Disconnects s connectionId required now current disconnected ∧
          result.revision = disconnected.revision ∧
            s' = s.release connectionId current disconnected) := by
  unfold disconnect at h
  obtain ⟨current, hcurrent, h⟩ := check_bind_eq_ok.1 h
  rw [Checks.bind_eq_ok] at hcurrent
  obtain ⟨_, -, hfound⟩ := hcurrent
  rw [requireConnection_eq_ok] at hfound
  refine ⟨current, hfound.1, hfound.2, ?_⟩
  split at h
  next hdisconnected =>
    cases h
    exact .inl ⟨hdisconnected, rfl⟩
  next hconnected =>
    obtain ⟨before, -, h⟩ := check_bind_eq_ok.1 h
    rw [modify_bind] at h
    obtain ⟨disconnected, hvalid, h⟩ := check_bind_eq_ok.1 h
    rw [modify_bind, pure_apply] at h
    cases h
    exact .inr ⟨disconnected, ⟨hfound.1, hconnected, Connection.validate_eq_ok.1 hvalid⟩, rfl, rfl⟩

lemma completeRevocation_eq_ok (h : completeRevocation user connectionId now s = (.ok result, s')) :
    ∃ current, s.connections.get connectionId = some current ∧
      current.readiness = .disconnected ∧
        (s' = s ∨ ∃ completed : Connection, completed.toConnectionRecord =
            { current.toConnectionRecord with
              providerRevocationRequired := false, updatedAt := now } ∧
          s' = s.setConnection connectionId completed) := by
  unfold completeRevocation at h
  obtain ⟨current, hcurrent, h⟩ := check_bind_eq_ok.1 h
  simp only [Checks.bind_eq_ok, require_eq_ok, Bool.and_eq_true, beq_iff_eq, pure_eq_ok,
    exists_const, requireConnection_eq_ok] at hcurrent
  obtain ⟨_, -, found, ⟨hfound, -⟩, ⟨⟨hdisconnected, -⟩, -⟩, rfl⟩ := hcurrent
  refine ⟨found, hfound, hdisconnected, ?_⟩
  split at h
  · obtain ⟨completed, hvalid, h⟩ := check_bind_eq_ok.1 h
    rw [modify_bind, pure_apply] at h
    cases h
    exact .inr ⟨completed, Connection.validate_eq_ok.1 hvalid, rfl⟩
  · cases h
    exact .inl rfl

lemma stageConnection_eq_ok
    (h : stageConnection crypto vault connectionId args now s = (.ok connection, s')) :
    ∃ saved, Saves s connectionId args saved ∧ s.connections.get connectionId = none ∧
      s' = (s.save connectionId saved args.envelopes).setConnection connectionId
        saved.requiringRevocation := by
  unfold stageConnection at h
  obtain ⟨_, hprovisional, h⟩ := check_bind_eq_ok.1 h
  obtain ⟨saved, t, hsave, h⟩ := Operation.bind_eq_ok.1 h
  rw [modify_bind, pure_apply] at h
  cases h
  obtain ⟨hsaves, rfl⟩ := saveConnection_eq_ok hsave
  refine ⟨saved, hsaves, ?_, rfl⟩
  rcases hsaves.account with ⟨hnone, -⟩ | ⟨current, -, -, hrevision⟩
  · exact hnone
  · -- the revision of what is staged is 1, and no stored one is 0
    rw [require_eq_ok, ConnectionArguments.isProvisional] at hprovisional
    simp only [Bool.and_eq_true, beq_iff_eq] at hprovisional
    have hone := current.one_le_revision
    have hrevision' := hsaves.revision
    omega

lemma recordRevocationObligation_eq_ok {args : AccountArguments}
    (h : recordRevocationObligation connectionId args clock s = (.ok result, s')) :
    disconnect args.user connectionId true (clock 1) s = (.ok result, s') ∨
      ∃ connection : Connection, s.connections.get connectionId = none ∧
        connection.id = connectionId ∧ connection.readiness = .disconnected ∧
          connection.providerRevocationRequired = true ∧
          (∀ key other, s.connections.get key = some other →
            other.toAccount ≠ connection.toAccount) ∧
          s' = s.setConnection connectionId connection := by
  unfold recordRevocationObligation at h
  obtain ⟨connection, hconnection, h⟩ := check_bind_eq_ok.1 h
  obtain ⟨current?, hcurrent, h⟩ := check_bind_eq_ok.1 h
  cases current? with
  | some current =>
      obtain ⟨_, -, h⟩ := check_bind_eq_ok.1 h
      exact .inl h
  | none =>
      obtain ⟨_, hunused, h⟩ := check_bind_eq_ok.1 h
      rw [modify_bind, pure_apply] at h
      cases h
      unfold obligation at hconnection
      simp only [Checks.bind_eq_ok, Connection.create_eq_ok, pure_eq_ok] at hconnection
      obtain ⟨_, -, provider, -, method, -, found, hrecord, _, -, rfl⟩ := hconnection
      refine .inr ⟨found, Except.ok.inj hcurrent, ?_, ?_, ?_, fun key other hother heq => ?_, rfl⟩
      · rw [hrecord]
      · rw [hrecord]
      · rw [hrecord]
      · rw [require_eq_ok, Bool.not_eq_true', List.any_eq_false] at hunused
        exact hunused other (Dict.mem_values_of_get hother) (beq_iff_eq.2 heq)

lemma finalizeConnection_eq_ok {stagedId : UUID}
    (h : finalizeConnection crypto vault stagedId connectionId args clock s =
      (.ok connection, s')) :
    stagedId ≠ connectionId ∧ Saves s connectionId args connection ∧
      (∃ t, saveConnection crypto vault connectionId args (clock 0) s = (.ok connection, t)) ∧
      ∃ disconnected completed t,
        disconnect args.user stagedId true (clock 1) (s.save connectionId connection args.envelopes) =
          (.ok disconnected, t) ∧
        completeRevocation args.user stagedId (clock 2) t = (.ok completed, s') := by
  unfold finalizeConnection at h
  obtain ⟨_, hargs, h⟩ := check_bind_eq_ok.1 h
  obtain ⟨_, -, h⟩ := check_bind_eq_ok.1 h
  rw [restoring_eq_ok] at h
  obtain ⟨finalized, t, hsave, h⟩ := Operation.bind_eq_ok.1 h
  obtain ⟨disconnected, u, hdisconnect, h⟩ := Operation.bind_eq_ok.1 h
  obtain ⟨completed, w, hcomplete, h⟩ := Operation.bind_eq_ok.1 h
  cases h
  obtain ⟨hsaves, rfl⟩ := saveConnection_eq_ok hsave
  simp only [Checks.bind_eq_ok, require_eq_ok, Bool.and_eq_true, bne_iff_ne,
    exists_const] at hargs
  exact ⟨hargs.1.2, hsaves, ⟨_, hsave⟩, disconnected, completed, u, hdisconnect, hcomplete⟩

/-! ## OAuth attempts -/

/-- The attempt that `begin_oauth_attempt` stores. -/
structure Begins (s : Store) (attemptId : UUID) (attempt : OAuthAttempt) : Prop where
  absent : s.oauthAttempts.get attemptId = none
  id : attempt.id = attemptId
  status : attempt.status = .exchangePending
  ids : attempt.credentialEnvelopeIds = []
  target : attempt.targetConnectionId = none
  owes : attempt.providerRevocationRequired = true

lemma beginOauthAttempt_eq_ok {args : AttemptArguments} {permissions : List String}
    {result : OAuthAttempt} (h : beginOauthAttempt args permissions now s = (.ok result, s')) :
    s' = s ∨ Begins s args.attemptId result ∧ s' = s.setAttempt args.attemptId result := by
  unfold beginOauthAttempt at h
  obtain ⟨attempt, hattempt, h⟩ := check_bind_eq_ok.1 h
  obtain ⟨existing?, hexisting, h⟩ := check_bind_eq_ok.1 h
  cases existing? with
  | some existing =>
      obtain ⟨_, -, h⟩ := check_bind_eq_ok.1 h
      cases h
      exact .inl rfl
  | none =>
      obtain ⟨_, -, h⟩ := check_bind_eq_ok.1 h
      rw [modify_bind, pure_apply] at h
      cases h
      unfold newAttempt at hattempt
      simp only [Checks.bind_eq_ok, OAuthAttempt.create_eq_ok] at hattempt
      obtain ⟨_, -, provider, -, _, -, hrecord⟩ := hattempt
      refine .inr ⟨⟨Except.ok.inj hexisting, ?_, ?_, ?_, ?_, ?_⟩, rfl⟩
      all_goals rw [hrecord]

/-- What `attach_oauth_attempt` has checked when it attaches. -/
structure Attaches (s : Store) (attemptId : UUID) (envelopes : List CredentialEnvelope)
    (attempt : OAuthAttempt) (provisional : Connection) : Prop where
  found : s.oauthAttempts.get attemptId = some attempt
  status : attempt.status = .exchangePending
  bound : BoundEnvelopes attempt.toScope attemptId envelopes
  ids : provisional.credentialEnvelopeIds = envelopes.map (·.id)
  fresh : ∀ envelope ∈ envelopes, s.envelopes.get envelope.id = none ∧
    s.oauthAttemptEnvelopes.get envelope.id = none

lemma attachOauthAttempt_eq_ok {result : ConnectionRecord}
    (h : attachOauthAttempt crypto vault attemptId args now s = (.ok result, s')) :
    s' = s ∨ ∃ attempt provisional updated, Attaches s attemptId args.envelopes attempt provisional ∧
      updated.toOAuthAttemptRecord = attempt.attachment provisional now ∧
        s' = (s.addAttemptEnvelopes args.envelopes).setAttempt attemptId updated := by
  unfold attachOauthAttempt at h
  obtain ⟨provisional, hprovisional, h⟩ := check_bind_eq_ok.1 h
  obtain ⟨attempt, hattempt, h⟩ := check_bind_eq_ok.1 h
  split at h
  · obtain ⟨_, -, h⟩ := check_bind_eq_ok.1 h
    cases h
    exact .inl rfl
  · obtain ⟨_, hpending, h⟩ := check_bind_eq_ok.1 h
    rw [modify_bind] at h
    obtain ⟨updated, hupdated, h⟩ := check_bind_eq_ok.1 h
    rw [modify_bind, pure_apply] at h
    cases h
    unfold provisionalConnection at hprovisional
    simp only [Checks.bind_eq_ok, Connection.create_eq_ok] at hprovisional
    obtain ⟨_, -, _, -, provider, -, _, -, method, -, _, hvalid, hrecord⟩ := hprovisional
    unfold Store.requireAttachable at hattempt
    simp only [Checks.bind_eq_ok, requireOauthAttempt_eq_ok, pure_eq_ok] at hattempt
    obtain ⟨found, ⟨-, hfound, hscope⟩, _, -, rfl⟩ := hattempt
    unfold Store.requirePending at hpending
    simp only [Checks.bind_eq_ok, require_eq_ok, beq_iff_eq, Bool.not_eq_true', List.any_eq_false,
      Bool.or_eq_true, not_or, Bool.not_eq_true, Option.isSome_eq_false_iff,
      Option.isNone_iff_eq_none] at hpending
    obtain ⟨_, hstatus, hfresh⟩ := hpending
    have hbound : found.toScope = args.scope provider := by
      rw [hscope, hrecord]
      rfl
    refine .inr ⟨found, provisional, updated, ⟨hfound, hstatus, ?_, ?_, hfresh⟩,
      OAuthAttempt.create_eq_ok.1 hupdated, rfl⟩
    · exact hbound ▸ boundEnvelopes_of_validateEnvelopes hvalid
    · rw [hrecord]
      rfl

/-- What `replace_oauth_attempt_envelopes` has checked when it replaces. -/
structure Replaces (s : Store) (attemptId : UUID) (envelopes : List CredentialEnvelope)
    (attempt : OAuthAttempt) : Prop where
  found : s.oauthAttempts.get attemptId = some attempt
  status : attempt.status = .materialAttached
  bound : BoundEnvelopes attempt.toScope attemptId envelopes
  fresh : ∀ envelope ∈ envelopes, s.envelopes.get envelope.id = none ∧
    (s.oauthAttemptEnvelopes.get envelope.id = none ∨
      envelope.id ∈ attempt.credentialEnvelopeIds)

/-- The changes of `replace_oauth_attempt_envelopes`. -/
def Store.exchange (s : Store) (attempt updated : OAuthAttempt)
    (envelopes : List CredentialEnvelope) : Store :=
  ((s.dropAttemptEnvelopes attempt.credentialEnvelopeIds).addAttemptEnvelopes envelopes).setAttempt
    attempt.id updated

lemma replaceOauthAttemptEnvelopes_eq_ok {connection : ConnectionRecord} {result : ConnectionRecord}
    (h : replaceOauthAttemptEnvelopes crypto vault connection envelopes now s = (.ok result, s')) :
    s' = s ∨ ∃ attempt updated, Replaces s connection.id envelopes attempt ∧
      updated.toOAuthAttemptRecord = attempt.replacement envelopes now ∧
        s' = s.exchange attempt updated envelopes := by
  unfold replaceOauthAttemptEnvelopes at h
  obtain ⟨checked, hchecked, h⟩ := check_bind_eq_ok.1 h
  obtain ⟨⟨attempt, stored⟩, hattempt, h⟩ := check_bind_eq_ok.1 h
  dsimp only at h
  split at h
  · cases h
    exact .inl rfl
  · obtain ⟨_, hcurrent, h⟩ := check_bind_eq_ok.1 h
    rw [modify_bind, modify_bind] at h
    obtain ⟨updated, hupdated, h⟩ := check_bind_eq_ok.1 h
    rw [modify_bind, pure_apply] at h
    cases h
    have hstatus := status_of_requireReplaceable hattempt
    unfold checkedReplacement at hchecked
    simp only [Checks.bind_eq_ok, Connection.create_eq_ok, pure_eq_ok] at hchecked
    obtain ⟨supplied, rfl, _, -, _, hvalid, rfl⟩ := hchecked
    unfold Store.requireReplaceable at hattempt
    simp only [Checks.bind_eq_ok, requireOauthAttempt_eq_ok, pure_eq_ok] at hattempt
    obtain ⟨found, ⟨-, hfound, hscope⟩, _, -, _, -, heq⟩ := hattempt
    obtain ⟨rfl, rfl⟩ := Prod.mk.inj heq
    unfold Store.requireCurrent at hcurrent
    simp only [Checks.bind_eq_ok, require_eq_ok, Bool.not_eq_true', List.any_eq_false,
      Bool.or_eq_true, Bool.and_eq_true, not_or, not_and, Bool.not_eq_true,
      Option.isSome_eq_false_iff, Option.isNone_iff_eq_none] at hcurrent
    obtain ⟨_, -, hfresh⟩ := hcurrent
    refine .inr ⟨found, updated, ⟨hfound, hstatus, ?_, fun envelope hmem => ?_⟩,
      OAuthAttempt.create_eq_ok.1 hupdated, rfl⟩
    · exact hscope ▸ boundEnvelopes_of_validateEnvelopes hvalid
    · refine ⟨(hfresh envelope hmem).1, ?_⟩
      cases hstored : s.oauthAttemptEnvelopes.get envelope.id with
      | none => exact .inl rfl
      | some _ =>
          have hlisted := (hfresh envelope hmem).2 (by rw [hstored]; rfl)
          rw [Bool.not_eq_false, List.contains_iff_mem] at hlisted
          exact .inr hlisted

/-! ### Finalizing and acknowledging -/

/-- What `finalize_oauth_attempt` has checked when it finalizes. -/
structure Finalizes (s : Store) (attemptId connectionId : UUID) (args : ConnectionArguments)
    (attempt : OAuthAttempt) (finalized : Connection) : Prop where
  found : s.oauthAttempts.get attemptId = some attempt
  status : attempt.status = .materialAttached
  ne : attemptId ≠ connectionId
  scope : finalized.toScope = attempt.toScope
  saves : Saves s connectionId args finalized

/-- The changes of `finalize_oauth_attempt`. -/
def Store.finalize (s : Store) (attemptId connectionId : UUID) (finalized : Connection)
    (envelopes : List CredentialEnvelope) (attempt updated : OAuthAttempt) : Store :=
  (((s.save connectionId finalized envelopes).setGeneration connectionId
    attemptId).dropAttemptEnvelopes attempt.credentialEnvelopeIds).setAttempt attemptId updated

lemma finalizeOauthAttempt_eq_ok {result : Connection}
    (h : finalizeOauthAttempt crypto vault attemptId connectionId args clock s =
      (.ok result, s')) :
    s' = s ∨ ∃ attempt method updated, Finalizes s attemptId connectionId args attempt result ∧
      (∃ t, saveConnection crypto vault connectionId args (clock 0) s = (.ok result, t)) ∧
      updated.toOAuthAttemptRecord =
        attempt.finalization connectionId method args result.revision (clock 1) ∧
      s' = s.finalize attemptId connectionId result args.envelopes attempt updated := by
  unfold finalizeOauthAttempt at h
  obtain ⟨⟨scope, method⟩, hargs, h⟩ := check_bind_eq_ok.1 h
  dsimp only at h
  obtain ⟨attempt, hattempt, h⟩ := check_bind_eq_ok.1 h
  split at h
  · rw [check_apply] at h
    exact .inl (Prod.mk.inj h).2.symm
  next hstatus =>
    rw [restoring_eq_ok] at h
    obtain ⟨finalized, t, hsave, h⟩ := Operation.bind_eq_ok.1 h
    rw [modify_bind, modify_bind] at h
    obtain ⟨updated, hupdated, h⟩ := check_bind_eq_ok.1 h
    rw [modify_bind, pure_apply] at h
    cases h
    obtain ⟨hsaves, rfl⟩ := saveConnection_eq_ok hsave
    unfold checkFinalization at hargs
    simp only [Checks.bind_eq_ok, pure_eq_ok, require_eq_ok, Bool.and_eq_true, bne_iff_ne,
      parseProvider_eq_ok] at hargs
    obtain ⟨_, ⟨⟨-, hne⟩, -⟩, _, -, provider, hprovider, _, -, method', -, _, -, heq⟩ := hargs
    obtain ⟨rfl, rfl⟩ := Prod.mk.inj heq
    unfold Store.requireFinalizable at hattempt
    simp only [Checks.bind_eq_ok, requireOauthAttempt_eq_ok, pure_eq_ok, require_eq_ok,
      Bool.and_eq_true, decide_eq_true_eq, List.mem_cons, List.not_mem_nil, or_false] at hattempt
    obtain ⟨found, ⟨-, hfound, hscope⟩, _, ⟨-, hstatuses⟩, rfl⟩ := hattempt
    obtain ⟨provider', hprovider', hsaved⟩ := hsaves.scope
    obtain rfl : provider = provider' := Option.some.inj (hprovider.symm.trans hprovider')
    exact .inr ⟨found, method', updated,
      ⟨hfound, hstatuses.resolve_right hstatus, hne, hsaved.trans hscope.symm, hsaves⟩,
      ⟨_, hsave⟩, OAuthAttempt.create_eq_ok.1 hupdated, rfl⟩

/-- What `acknowledge_oauth_attempt` has found when it acknowledges. -/
structure Acknowledges (s : Store) (attemptId : UUID) (attempt : OAuthAttempt) (targetId : UUID)
    (current : Connection) : Prop where
  found : s.oauthAttempts.get attemptId = some attempt
  target : attempt.targetConnectionId = some targetId
  stored : s.connections.get targetId = some current
  status : attempt.status = .finalized
  generation : s.connectionOauthGenerations.get targetId = some attemptId
  owes : current.providerRevocationRequired = false

lemma acknowledges_of_requireAcknowledgeable {args : AttemptArguments}
    {connection : ConnectionRecord} {targetId : UUID}
    (h : s.requireAcknowledgeable args connection = .ok (attempt, targetId, current)) :
    Acknowledges s args.attemptId attempt targetId current := by
  have htarget := target_of_requireAcknowledgeable h
  unfold Store.requireAcknowledgeable at h
  simp only [Checks.bind_eq_ok, requireOauthAttempt_eq_ok] at h
  obtain ⟨provider, -, supplied, -, found, ⟨-, hfound, -⟩, h⟩ := h
  split at h
  · cases h
  · split at h
    · cases h
    next hcurrent =>
      simp only [Checks.bind_eq_ok, pure_eq_ok, require_eq_ok, Store.isAcknowledgeable,
        Bool.and_eq_true, beq_iff_eq, Bool.not_eq_true'] at h
      obtain ⟨_, hmatches, heq⟩ := h
      obtain ⟨rfl, hrest⟩ := Prod.mk.inj heq
      obtain ⟨rfl, rfl⟩ := Prod.mk.inj hrest
      exact ⟨hfound, htarget, hcurrent, hmatches.1.1.1.1.1.1.1.1.1.1, hmatches.2,
        hmatches.1.1.2⟩

lemma acknowledgeOauthAttempt_eq_ok {args : AttemptArguments} {connection : ConnectionRecord}
    {result : Connection} (h : acknowledgeOauthAttempt args connection now s = (.ok result, s')) :
    s' = s ∨ ∃ attempt targetId current updated,
      Acknowledges s args.attemptId attempt targetId current ∧
        result.toConnectionRecord = current.readiedAt now ∧
          updated.toOAuthAttemptRecord = attempt.acknowledgement result.revision now ∧
            s' = (s.setConnection targetId result).setAttempt args.attemptId updated := by
  unfold acknowledgeOauthAttempt at h
  obtain ⟨⟨attempt, targetId, current⟩, hfound, h⟩ := check_bind_eq_ok.1 h
  dsimp only at h
  split at h
  · obtain ⟨_, -, h⟩ := check_bind_eq_ok.1 h
    cases h
    exact .inl rfl
  · obtain ⟨ready, hready, h⟩ := check_bind_eq_ok.1 h
    rw [modify_bind] at h
    obtain ⟨updated, hupdated, h⟩ := check_bind_eq_ok.1 h
    rw [modify_bind, pure_apply] at h
    cases h
    simp only [Checks.bind_eq_ok, Connection.validate_eq_ok] at hready
    obtain ⟨_, -, hready⟩ := hready
    exact .inr ⟨attempt, targetId, current, updated, acknowledges_of_requireAcknowledgeable hfound,
      hready, OAuthAttempt.create_eq_ok.1 hupdated, rfl⟩

/-! ### Failing and revoking -/

lemma requireDescribed_eq_ok {args : AttemptArguments} (h : s.requireDescribed args = .ok attempt) :
    s.oauthAttempts.get args.attemptId = some attempt ∧ attempt.toUser = args.user := by
  unfold Store.requireDescribed at h
  simp only [Checks.bind_eq_ok, requireOauthAttempt_eq_ok] at h
  obtain ⟨provider, -, -, hfound, hscope⟩ := h
  exact ⟨hfound, congrArg Scope.toUser hscope⟩

/-- The attempt owns the generation of its target. -/
structure OwnsTarget (s : Store) (attempt : OAuthAttempt) (targetId : UUID) : Prop where
  names : attempt.targetConnectionId = some targetId
  generation : s.connectionOauthGenerations.get targetId = some attempt.id

/-- The target's envelopes, which the attempt takes over. -/
structure Recovers (s : Store) (attempt : OAuthAttempt) (targetId : UUID) (target : Connection)
    (envelopes : List CredentialEnvelope) : Prop extends OwnsTarget s attempt targetId where
  found : s.connections.get targetId = some target
  scope : target.toScope = attempt.toScope
  connected : target.readiness ≠ .disconnected
  stored : List.Forall₂ (fun id envelope => s.envelopes.get id = some envelope)
    target.credentialEnvelopeIds envelopes
  same : ∀ envelope ∈ envelopes, ∀ held, s.oauthAttemptEnvelopes.get envelope.id = some held →
    held = envelope

lemma recoverTarget_eq_ok {recovery : Recovery}
    (h : recoverTarget user attempt now s = (.ok recovery, s')) :
    s' = s ∧ recovery.retainedEnvelopeIds = attempt.credentialEnvelopeIds ∨
      ∃ targetId target envelopes disconnected, Recovers s attempt targetId target envelopes ∧
        recovery.retainedEnvelopeIds = target.credentialEnvelopeIds ∧
          Disconnects s targetId true now target disconnected ∧
            s' = (s.addAttemptEnvelopes envelopes).release targetId target disconnected := by
  unfold recoverTarget at h
  cases htarget : attempt.targetConnectionId with
  | none =>
    rw [htarget] at h
    cases h
    exact .inl ⟨rfl, rfl⟩
  | some targetId =>
    rw [htarget] at h
    obtain ⟨generation, hgeneration, h⟩ := check_bind_eq_ok.1 h
    split at h
    next howns =>
      obtain ⟨target, hfound, h⟩ := check_bind_eq_ok.1 h
      split at h
      · cases h
        exact .inl ⟨rfl, rfl⟩
      next hconnected =>
        obtain ⟨envelopes, hrecoverable, h⟩ := check_bind_eq_ok.1 h
        rw [modify_bind] at h
        obtain ⟨result, t, hdisconnect, h⟩ := Operation.bind_eq_ok.1 h
        cases h
        unfold Store.requireTarget at hfound
        split at hfound
        · cases hfound
        next found hget =>
          simp only [Checks.bind_eq_ok, require_eq_ok, beq_iff_eq, pure_eq_ok] at hfound
          obtain ⟨_, hscope, rfl⟩ := hfound
          unfold Store.requireRecoverable at hrecoverable
          simp only [Checks.bind_eq_ok, require_eq_ok, mapError_eq_ok, storedEnvelopes_eq_ok,
            List.all_eq_true, Option.all_eq_true, beq_iff_eq, pure_eq_ok] at hrecoverable
          obtain ⟨_, -, stored, hstored, _, hsame, rfl⟩ := hrecoverable
          obtain ⟨current, hcurrent, -, hcases⟩ := disconnect_eq_ok hdisconnect
          obtain rfl : found = current := Option.some.inj (hget.symm.trans hcurrent)
          have hgen := (Except.ok.inj hgeneration).trans howns
          rcases hcases with ⟨hdisconnected, -⟩ | ⟨disconnected, hdisconnects, -, rfl⟩
          · exact absurd hdisconnected hconnected
          · exact .inr ⟨targetId, found, stored, disconnected,
              ⟨⟨htarget, hgen⟩, hget, hscope, hconnected, hstored, hsame⟩, rfl,
              ⟨hget, hconnected, hdisconnects.record⟩, rfl⟩
    · cases h
      exact .inl ⟨rfl, rfl⟩

lemma failOauthAttempt_eq_ok {args : AttemptArguments} {result : OAuthAttempt}
    (h : failOauthAttempt args clock s = (.ok result, s')) :
    s' = s ∨ ∃ attempt recovery t, s.oauthAttempts.get args.attemptId = some attempt ∧
      attempt.status ≠ .failed ∧ attempt.status ≠ .revoked ∧
        recoverTarget args.user attempt (clock 0) s = (.ok recovery, t) ∧
          result.toOAuthAttemptRecord = attempt.failure recovery (clock 1) ∧
            s' = t.setAttempt args.attemptId result := by
  unfold failOauthAttempt at h
  obtain ⟨attempt, hfound, h⟩ := check_bind_eq_ok.1 h
  split at h
  · cases h
    exact .inl rfl
  next hfailed =>
    obtain ⟨_, hrevoked, h⟩ := check_bind_eq_ok.1 h
    rw [restoring_eq_ok] at h
    obtain ⟨recovery, t, hrecover, h⟩ := Operation.bind_eq_ok.1 h
    obtain ⟨failed, hrecord, h⟩ := check_bind_eq_ok.1 h
    rw [modify_bind, pure_apply] at h
    cases h
    rw [require_eq_ok, bne_iff_ne] at hrevoked
    exact .inr ⟨attempt, recovery, t, (requireDescribed_eq_ok hfound).1, hfailed, hrevoked, hrecover,
      OAuthAttempt.create_eq_ok.1 hrecord, rfl⟩

lemma revokeTarget_eq_ok (h : revokeTarget user attempt now s = (.ok (), s')) :
    s' = s ∨ ∃ targetId result t, OwnsTarget s attempt targetId ∧
      completeRevocation user targetId now s = (.ok result, t) ∧
        s' = t.removeGeneration targetId := by
  unfold revokeTarget at h
  cases htarget : attempt.targetConnectionId with
  | none =>
    rw [htarget] at h
    cases h
    exact .inl rfl
  | some targetId =>
    rw [htarget] at h
    obtain ⟨generation, hgeneration, h⟩ := check_bind_eq_ok.1 h
    split at h
    next howns =>
      obtain ⟨result, t, hcomplete, h⟩ := Operation.bind_eq_ok.1 h
      cases h
      exact .inr ⟨targetId, result, t, ⟨htarget, (Except.ok.inj hgeneration).trans howns⟩, hcomplete,
        rfl⟩
    · cases h
      exact .inl rfl

lemma completeOauthAttemptRevocation_eq_ok {args : AttemptArguments} {result : OAuthAttempt}
    (h : completeOauthAttemptRevocation args clock s = (.ok result, s')) :
    s' = s ∨ ∃ attempt t, s.oauthAttempts.get args.attemptId = some attempt ∧
      attempt.status = .failed ∧ revokeTarget args.user attempt (clock 0) s = (.ok (), t) ∧
        result.toOAuthAttemptRecord = attempt.revocation (clock 1) ∧
          s' = (t.dropAttemptEnvelopes attempt.credentialEnvelopeIds).setAttempt args.attemptId
            result := by
  unfold completeOauthAttemptRevocation at h
  obtain ⟨attempt, hfound, h⟩ := check_bind_eq_ok.1 h
  split at h
  · cases h
    exact .inl rfl
  · obtain ⟨_, hstatus, h⟩ := check_bind_eq_ok.1 h
    rw [restoring_eq_ok] at h
    obtain ⟨_, t, hrevoke, h⟩ := Operation.bind_eq_ok.1 h
    rw [modify_bind] at h
    obtain ⟨completed, hrecord, h⟩ := check_bind_eq_ok.1 h
    rw [modify_bind, pure_apply] at h
    cases h
    rw [require_eq_ok, Bool.and_eq_true, beq_iff_eq] at hstatus
    exact .inr ⟨attempt, t, (requireDescribed_eq_ok hfound).1, hstatus.1, hrevoke,
      OAuthAttempt.create_eq_ok.1 hrecord, rfl⟩

/-! ## Operations that raise -/

/-- The records of connections and attempts and the generations are the same. -/
structure SameRecords (s s' : Store) : Prop where
  connections : s'.connections = s.connections
  oauthAttempts : s'.oauthAttempts = s.oauthAttempts
  generations : s'.connectionOauthGenerations = s.connectionOauthGenerations

lemma SameRecords.refl (s : Store) : SameRecords s s := ⟨rfl, rfl, rfl⟩

lemma SameRecords.of_eq (h : s' = s) : SameRecords s s' := h ▸ .refl s

lemma disconnect_eq_error (h : disconnect user connectionId required now s = (.error e, s')) :
    SameRecords s s' := by
  unfold disconnect at h
  rcases check_bind_eq_error.1 h with ⟨-, rfl⟩ | ⟨current, -, h⟩
  · exact .refl _
  · split at h
    · cases h
    · rcases check_bind_eq_error.1 h with ⟨-, rfl⟩ | ⟨before, -, h⟩
      · exact .refl _
      · rw [modify_bind] at h
        rcases check_bind_eq_error.1 h with ⟨-, rfl⟩ | ⟨disconnected, -, h⟩
        · exact ⟨rfl, rfl, rfl⟩
        · cases h

lemma recordRevocationObligation_eq_error {args : AccountArguments}
    (h : recordRevocationObligation connectionId args clock s = (.error e, s')) :
    SameRecords s s' := by
  unfold recordRevocationObligation at h
  rcases check_bind_eq_error.1 h with ⟨-, rfl⟩ | ⟨connection, -, h⟩
  · exact .refl _
  · rcases check_bind_eq_error.1 h with ⟨-, rfl⟩ | ⟨current?, -, h⟩
    · exact .refl _
    · cases current? with
      | none =>
          rcases check_bind_eq_error.1 h with ⟨-, rfl⟩ | ⟨_, -, h⟩
          · exact .refl _
          · cases h
      | some current =>
          rcases check_bind_eq_error.1 h with ⟨-, rfl⟩ | ⟨_, -, h⟩
          · exact .refl _
          · exact disconnect_eq_error h

lemma attachOauthAttempt_eq_error
    (h : attachOauthAttempt crypto vault attemptId args now s = (.error e, s')) :
    SameRecords s s' := by
  unfold attachOauthAttempt at h
  rcases check_bind_eq_error.1 h with ⟨-, rfl⟩ | ⟨provisional, -, h⟩
  · exact .refl _
  · rcases check_bind_eq_error.1 h with ⟨-, rfl⟩ | ⟨attempt, -, h⟩
    · exact .refl _
    · split at h
      · rcases check_bind_eq_error.1 h with ⟨-, rfl⟩ | ⟨_, -, h⟩
        · exact .refl _
        · cases h
      · rcases check_bind_eq_error.1 h with ⟨-, rfl⟩ | ⟨_, -, h⟩
        · exact .refl _
        · rw [modify_bind] at h
          rcases check_bind_eq_error.1 h with ⟨-, rfl⟩ | ⟨updated, -, h⟩
          · exact ⟨rfl, rfl, rfl⟩
          · cases h

lemma replaceOauthAttemptEnvelopes_eq_error {connection : ConnectionRecord}
    (h : replaceOauthAttemptEnvelopes crypto vault connection envelopes now s = (.error e, s')) :
    SameRecords s s' := by
  unfold replaceOauthAttemptEnvelopes at h
  rcases check_bind_eq_error.1 h with ⟨-, rfl⟩ | ⟨checked, -, h⟩
  · exact .refl _
  · rcases check_bind_eq_error.1 h with ⟨-, rfl⟩ | ⟨⟨attempt, stored⟩, -, h⟩
    · exact .refl _
    · dsimp only at h
      split at h
      · cases h
      · rcases check_bind_eq_error.1 h with ⟨-, rfl⟩ | ⟨_, -, h⟩
        · exact .refl _
        · rw [modify_bind, modify_bind] at h
          rcases check_bind_eq_error.1 h with ⟨-, rfl⟩ | ⟨updated, -, h⟩
          · exact ⟨rfl, rfl, rfl⟩
          · cases h

lemma acknowledgeOauthAttempt_eq_error {args : AttemptArguments} {connection : ConnectionRecord}
    (h : acknowledgeOauthAttempt args connection now s = (.error e, s')) :
    s' = s ∨ ∃ attempt targetId current ready, Acknowledges s args.attemptId attempt targetId current ∧
      ready.toConnectionRecord = current.readiedAt now ∧ s' = s.setConnection targetId ready := by
  unfold acknowledgeOauthAttempt at h
  rcases check_bind_eq_error.1 h with ⟨-, rfl⟩ | ⟨⟨attempt, targetId, current⟩, hfound, h⟩
  · exact .inl rfl
  · dsimp only at h
    split at h
    · rcases check_bind_eq_error.1 h with ⟨-, rfl⟩ | ⟨_, -, h⟩
      · exact .inl rfl
      · cases h
    · rcases check_bind_eq_error.1 h with ⟨-, rfl⟩ | ⟨ready, hready, h⟩
      · exact .inl rfl
      · rw [modify_bind] at h
        rcases check_bind_eq_error.1 h with ⟨-, rfl⟩ | ⟨updated, -, h⟩
        · simp only [Checks.bind_eq_ok, Connection.validate_eq_ok] at hready
          obtain ⟨_, -, hready⟩ := hready
          exact .inr ⟨attempt, targetId, current, ready,
            acknowledges_of_requireAcknowledgeable hfound, hready, rfl⟩
        · cases h

/-- A call that raises leaves the records as they were, but for an acknowledgement that has set the
connection of its own attempt. -/
theorem perform_eq_error {call : Call} (h : perform crypto vault clock call s = (.error e, s')) :
    SameRecords s s' ∨ ∃ args connection attempt targetId current ready,
      call = .acknowledge args connection ∧ Acknowledges s args.attemptId attempt targetId current ∧
        ready.toConnectionRecord = current.readiedAt (clock 0) ∧
          s' = s.setConnection targetId ready := by
  cases call with
  | attach attemptId args => exact .inl (attachOauthAttempt_eq_error (Operation.map_eq_error.1 h))
  | replace connection envelopes =>
      exact .inl (replaceOauthAttemptEnvelopes_eq_error (Operation.map_eq_error.1 h))
  | recordObligation connectionId args =>
      exact .inl (recordRevocationObligation_eq_error (Operation.map_eq_error.1 h))
  | disconnect user connectionId required =>
      exact .inl (disconnect_eq_error (Operation.map_eq_error.1 h))
  | acknowledge args connection =>
      rcases acknowledgeOauthAttempt_eq_error (Operation.map_eq_error.1 h) with
        rfl | ⟨attempt, targetId, current, ready, hacknowledges, hready, rfl⟩
      · exact .inl (.refl _)
      · exact .inr ⟨args, connection, attempt, targetId, current, ready, rfl, hacknowledges, hready,
          rfl⟩
  | _ =>
      -- the other operations are atomic
      exact .inl (.of_eq (atomicAt_perform (by trivial) e s' h))

/-! ## Runs -/

/-- What every call keeps, whether it returns or raises, holds after every run. -/
theorem run_invariant {I : Store → Prop} (hs : I s)
    (hok : ∀ s s' clock call answer, I s →
      perform crypto vault clock call s = (.ok answer, s') → I s')
    (herror : ∀ s s' clock call e, I s → perform crypto vault clock call s = (.error e, s') → I s')
    (calls : List (Call × (Nat → Instant))) : I (run crypto vault s calls) := by
  induction calls using List.reverseRecOn with
  | nil => exact hs
  | append_singleton calls timed ih =>
      rw [run_append]
      rcases hperform : perform crypto vault timed.2 timed.1 (run crypto vault s calls) with
        ⟨e | answer, s'⟩
      · exact herror _ _ _ _ _ ih hperform
      · exact hok _ _ _ _ _ ih hperform

end MercuryTools.Providers
