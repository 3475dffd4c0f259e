import MercuryTools.Providers.ConnectionStore

/-!
# Atomicity of the provider connection store

Most operations change nothing when they raise: they check everything first, or they put back what
they have changed.  Four do not.  `attach_oauth_attempt`, `replace_oauth_attempt_envelopes` and
`acknowledge_oauth_attempt` have changed other maps when they write the attempt, and `disconnect`
(also where `record_revocation_obligation` calls it) has dropped the envelopes when it validates the
connection.  What is written last is refused exactly when the clock reads earlier than the creation
of the record (`Careful`).
-/

namespace MercuryTools.Providers

open Checks Credentials Hosted Operation

/-- Nothing has changed. -/
abbrev Unchanged (s s' : Store) : Prop := s' = s

/-! ## What the last writes need -/

section

variable {attempt : OAuthAttempt} {current : Connection} {now : Instant}

variable {record : ConnectionRecord}

lemma Connection.exists_validate (h : record.isValid = true) :
    ∃ connection, validate record = .ok connection :=
  ⟨⟨record, h⟩, dif_pos h⟩

lemma OAuthAttempt.exists_create {record : OAuthAttemptRecord} (h : record.Checks) :
    ∃ attempt, create record = .ok attempt :=
  ⟨⟨record, OAuthAttemptRecord.isValid_iff.2 h⟩, dif_pos _⟩

lemma OAuthAttempt.checks_attachment (h : attempt.createdAt ≤ now) (provisional : Connection) :
    (attempt.attachment provisional now).Checks :=
  ⟨attempt.checks.ids, attempt.checks.sorted, attempt.checks.nodup, zero_le_one, h,
    attempt.checks.acknowledged, nofun, fun _ => le_refl 1, attempt.checks.target⟩

lemma OAuthAttempt.checks_replacement (h : attempt.createdAt ≤ now)
    (hstatus : attempt.status = .materialAttached) (envelopes : List CredentialEnvelope) :
    (attempt.replacement envelopes now).Checks := by
  have hrevision : 1 ≤ attempt.materialRevision :=
    attempt.checks.material (hstatus ▸ List.mem_cons_self)
  refine ⟨attempt.checks.ids, attempt.checks.sorted, attempt.checks.nodup, ?_, h,
    attempt.checks.acknowledged, fun hpending => ?_, fun _ => ?_, attempt.checks.target⟩
  · change 0 ≤ attempt.materialRevision + 1
    omega
  · exact absurd (hstatus.symm.trans hpending) (by decide)
  · change 1 ≤ attempt.materialRevision + 1
    omega

lemma OAuthAttempt.checks_acknowledgement (h : attempt.createdAt ≤ now) {targetId : UUID}
    (htarget : attempt.targetConnectionId = some targetId) {revision : Int} (hone : 1 ≤ revision) :
    (attempt.acknowledgement revision now).Checks := by
  refine ⟨attempt.checks.ids, attempt.checks.sorted, attempt.checks.nodup, attempt.checks.revision,
    h, fun t ht => ?_, attempt.checks.pending, attempt.checks.material, ?_⟩
  · cases ht
    exact h
  · have hvalid := attempt.checks.target
    unfold OAuthAttemptRecord.targetIsValid at hvalid ⊢
    simp only [acknowledgement, htarget, Bool.and_eq_true, Option.any_some,
      decide_eq_true_eq] at hvalid ⊢
    exact ⟨hvalid.1, hone⟩

/-- The fields of a record that differs in its revision and its envelopes, and in its state. -/
lemma ConnectionRecord.fieldsAreValid_of (other : ConnectionRecord)
    (h : record.fieldsAreValid = true) (haccount : other.toAccount = record.toAccount)
    (hname : other.accountDisplayName = record.accountDisplayName)
    (hpermissions : other.grantedPermissions = record.grantedPermissions)
    (hrevision : 1 ≤ other.revision) (hids : other.credentialEnvelopeIds.length ≤ 16) :
    other.fieldsAreValid = true := by
  unfold fieldsAreValid at h ⊢
  simp only [Bool.and_eq_true, decide_eq_true_eq] at h ⊢
  rw [haccount, hname, hpermissions]
  exact ⟨⟨h.1.1, hrevision⟩, hids⟩

lemma Connection.valid_disconnection (h : current.createdAt ≤ now) (required : Bool) :
    (current.disconnection required now).isValid = true := by
  have hfields : (current.disconnection required now).fieldsAreValid = true := by
    apply ConnectionRecord.fieldsAreValid_of (current.disconnection required now)
      current.validates.1 rfl rfl rfl
    · have hone := current.one_le_revision
      change 1 ≤ current.revision + 1
      omega
    · exact Nat.zero_le _
  have hstate : (current.disconnection required now).Checks :=
    ⟨current.checks.ids, .nil, h, nofun, fun _ => ⟨rfl, rfl⟩, fun hne => absurd rfl hne⟩
  rw [ConnectionRecord.isValid, hfields, ConnectionRecord.stateIsValid_iff.2 hstate]
  rfl

end

section

variable {crypto : Crypto} {vault : CredentialVault} {s : Store}

/-! ## Operations that check first -/

lemma unchanged_refl (s : Store) : Unchanged s s := rfl

lemma atomicAt_saveConnection (connectionId : UUID) (args : ConnectionArguments) (now : Instant) :
    (saveConnection crypto vault connectionId args now).AtomicAt Unchanged s := by
  apply AtomicAt.check_bind unchanged_refl
  intro supplied _
  apply AtomicAt.check_bind unchanged_refl
  intro connection _
  exact atomicAt_modify_pure _ _

lemma atomicAt_stageConnection (connectionId : UUID) (args : ConnectionArguments) (now : Instant) :
    (stageConnection crypto vault connectionId args now).AtomicAt Unchanged s := by
  apply AtomicAt.check_bind unchanged_refl
  intro _ _
  exact (atomicAt_saveConnection connectionId args now).bind_modify _ _

lemma atomicAt_completeRevocation (user : User) (connectionId : UUID) (now : Instant) :
    (completeRevocation user connectionId now).AtomicAt Unchanged s := by
  apply AtomicAt.check_bind unchanged_refl
  intro current _
  split
  · apply AtomicAt.check_bind unchanged_refl
    intro completed _
    exact atomicAt_modify_pure _ _
  · exact atomicAt_pure _

lemma atomicAt_beginOauthAttempt (args : AttemptArguments) (permissions : List String)
    (now : Instant) : (beginOauthAttempt args permissions now).AtomicAt Unchanged s := by
  apply AtomicAt.check_bind unchanged_refl
  intro attempt _
  apply AtomicAt.check_bind unchanged_refl
  intro existing? _
  cases existing? with
  | some existing =>
      apply AtomicAt.check_bind unchanged_refl
      exact fun _ _ => atomicAt_pure _
  | none =>
      apply AtomicAt.check_bind unchanged_refl
      exact fun _ _ => atomicAt_modify_pure _ _

/-! ## Operations that put back what they have changed -/

variable {τ : Type} {connectionId : UUID} {now : Instant} {args : AttemptArguments}
  {clock : Nat → Instant} {attempt : OAuthAttempt} {connection : ConnectionRecord}

lemma keepsField_saveConnection {f : Store → τ} (connectionId : UUID) (args : ConnectionArguments)
    (now : Instant)
    (h : ∀ s connection envelopes, f (s.save connectionId connection envelopes) = f s) :
    (saveConnection crypto vault connectionId args now).KeepsField f := by
  apply KeepsField.check_bind
  intro supplied
  apply KeepsField.check_bind
  intro connection
  exact KeepsField.modify_bind (fun s => h s _ _) (keepsField_pure _)

lemma keepsField_disconnect {f : Store → τ} (user : User) (connectionId : UUID) (required : Bool)
    (now : Instant) (hdrop : ∀ s ids, f (s.dropEnvelopes ids) = f s)
    (hset : ∀ s connection, f (s.setConnection connectionId connection) = f s) :
    (disconnect user connectionId required now).KeepsField f := by
  apply KeepsField.check_bind
  intro current
  split
  · exact keepsField_pure _
  · apply KeepsField.check_bind
    intro before
    refine KeepsField.modify_bind (fun s => hdrop s _) ?_
    apply KeepsField.check_bind
    intro disconnected
    exact KeepsField.modify_bind (fun s => hset s _) (keepsField_pure _)

lemma keepsField_completeRevocation {f : Store → τ} (user : User) (connectionId : UUID)
    (now : Instant) (hset : ∀ s connection, f (s.setConnection connectionId connection) = f s) :
    (completeRevocation user connectionId now).KeepsField f := by
  apply KeepsField.check_bind
  intro current
  split
  · apply KeepsField.check_bind
    intro completed
    exact KeepsField.modify_bind (fun s => hset s _) (keepsField_pure _)
  · exact keepsField_pure _

/-- The maps that no operation on connections changes. -/
def Store.attemptMaps (s : Store) :
    Dict UUID OAuthAttempt × Dict UUID CredentialEnvelope × Dict UUID UUID :=
  (s.oauthAttempts, s.oauthAttemptEnvelopes, s.connectionOauthGenerations)

lemma restoreConnections_eq {s' : Store} (h : s'.attemptMaps = s.attemptMaps) :
    restoreConnections s s' = s := by
  obtain ⟨hattempts, hrest⟩ := Prod.mk.inj h
  obtain ⟨henvelopes, hgenerations⟩ := Prod.mk.inj hrest
  rw [restoreConnections, hattempts, henvelopes, hgenerations]

lemma atomicAt_finalizeConnection (stagedId connectionId : UUID) (args : ConnectionArguments)
    (clock : Nat → Instant) :
    (finalizeConnection crypto vault stagedId connectionId args clock).AtomicAt Unchanged s := by
  apply AtomicAt.check_bind unchanged_refl
  intro _ _
  apply AtomicAt.check_bind unchanged_refl
  intro _ _
  refine Keeps.atomicAt_restoring (K := fun s s' => s'.attemptMaps = s.attemptMaps) ?_
    fun _ _ => restoreConnections_eq
  apply KeepsField.bind
  · exact keepsField_saveConnection _ _ _ fun _ _ _ => rfl
  · intro finalized
    apply KeepsField.bind
    · exact keepsField_disconnect _ _ _ _ (fun _ _ => rfl) fun _ _ => rfl
    · intro _
      apply KeepsField.bind
      · exact keepsField_completeRevocation _ _ _ fun _ _ => rfl
      · exact fun _ => keepsField_pure _

lemma atomicAt_finalizeOauthAttempt (attemptId connectionId : UUID) (args : ConnectionArguments)
    (clock : Nat → Instant) :
    (finalizeOauthAttempt crypto vault attemptId connectionId args clock).AtomicAt Unchanged s := by
  apply AtomicAt.check_bind unchanged_refl
  rintro ⟨scope, method⟩ _
  apply AtomicAt.check_bind unchanged_refl
  intro attempt _
  split
  · exact atomicAt_check unchanged_refl _
  · exact Keeps.atomicAt_restoring (K := fun _ _ => True) (fun _ => trivial) fun _ _ _ => rfl

lemma keepsGenerations_recoverTarget (user : User) (attempt : OAuthAttempt) (now : Instant) :
    (recoverTarget user attempt now).KeepsField (·.connectionOauthGenerations) := by
  unfold recoverTarget
  split
  · exact keepsField_pure _
  · apply KeepsField.check_bind
    intro generation
    split
    · apply KeepsField.check_bind
      intro target
      split
      · exact keepsField_pure _
      · apply KeepsField.check_bind
        intro envelopes
        refine KeepsField.modify_bind ?_ ?_
        · exact fun _ => rfl
        · apply KeepsField.bind
          · exact keepsField_disconnect _ _ _ _ (fun _ _ => rfl) fun _ _ => rfl
          · exact fun _ => keepsField_pure _
    · exact keepsField_pure _

lemma atomicAt_failOauthAttempt (args : AttemptArguments) (clock : Nat → Instant) :
    (failOauthAttempt args clock).AtomicAt Unchanged s := by
  apply AtomicAt.check_bind unchanged_refl
  intro attempt _
  split
  · exact atomicAt_pure _
  · apply AtomicAt.check_bind unchanged_refl
    intro _ _
    refine Keeps.atomicAt_restoring
      (K := fun s s' => s'.connectionOauthGenerations = s.connectionOauthGenerations) ?_ ?_
    · apply KeepsField.bind (keepsGenerations_recoverTarget _ _ _)
      intro recovery
      apply KeepsField.check_bind
      intro failed
      exact KeepsField.modify_bind (fun _ => rfl) (keepsField_pure _)
    · intro s s' h
      change restoreFailed s s' = s
      rw [restoreFailed, h]

lemma keepsField_revokeTarget {f : Store → τ} (user : User) (attempt : OAuthAttempt) (now : Instant)
    (hset : ∀ s connectionId connection, f (s.setConnection connectionId connection) = f s)
    (hremove : ∀ s connectionId, f (s.removeGeneration connectionId) = f s) :
    (revokeTarget user attempt now).KeepsField f := by
  unfold revokeTarget
  split
  · exact keepsField_pure _
  · apply KeepsField.check_bind
    intro generation
    split
    · apply KeepsField.bind
      · exact keepsField_completeRevocation _ _ _ fun s => hset s _
      · exact fun _ => keepsField_modify fun s => hremove s _
    · exact keepsField_pure _

lemma atomicAt_completeOauthAttemptRevocation (args : AttemptArguments) (clock : Nat → Instant) :
    (completeOauthAttemptRevocation args clock).AtomicAt Unchanged s := by
  apply AtomicAt.check_bind unchanged_refl
  intro attempt _
  split
  · exact atomicAt_pure _
  · apply AtomicAt.check_bind unchanged_refl
    intro _ _
    refine Keeps.atomicAt_restoring (K := fun s s' => s'.envelopes = s.envelopes) ?_ ?_
    · apply KeepsField.bind (keepsField_revokeTarget (f := (·.envelopes)) _ _ _
        (fun _ _ _ => rfl) fun _ _ => rfl)
      intro _
      refine KeepsField.modify_bind ?_ ?_
      · exact fun _ => rfl
      · apply KeepsField.check_bind
        intro completed
        exact KeepsField.modify_bind (fun _ => rfl) (keepsField_pure _)
    · intro s s' h
      change restoreRevoked s s' = s
      rw [restoreRevoked, h]

/-! ## Operations that do neither -/

/-- `disconnect` does not disconnect earlier than the creation of the connection. -/
def DisconnectsInTime (s : Store) (user : User) (connectionId : UUID) (now : Instant) : Prop :=
  ∀ current, requireIds (connectionId :: user.ids) = .ok () →
    s.requireConnection user connectionId = .ok current → current.readiness ≠ .disconnected →
      current.createdAt ≤ now

lemma atomicAt_disconnect {user : User} (h : DisconnectsInTime s user connectionId now)
    (required : Bool) : (disconnect user connectionId required now).AtomicAt Unchanged s := by
  apply AtomicAt.check_bind unchanged_refl
  intro current hcurrent
  rw [Checks.bind_eq_ok] at hcurrent
  obtain ⟨_, hids, hfound⟩ := hcurrent
  split
  · exact atomicAt_pure _
  next hconnected =>
    obtain ⟨disconnected, hvalid⟩ := Connection.exists_validate
      (Connection.valid_disconnection (h current hids hfound hconnected) required)
    apply AtomicAt.check_bind unchanged_refl
    intro before _
    apply Returns.atomicAt
    apply Returns.modify_bind
    refine Returns.check_bind (a := disconnected) ?_ ?_
    · exact hvalid
    · apply Returns.modify_bind
      exact returns_pure _

/-- `record_revocation_obligation` does not disconnect earlier than the creation. -/
def RecordsInTime (s : Store) (connectionId : UUID) (args : AccountArguments)
    (clock : Nat → Instant) : Prop :=
  ∀ connection current, obligation connectionId args (clock 0) = .ok connection →
    s.connections.get connectionId = some current →
      current.sameBinding connection.toConnectionRecord = true →
        DisconnectsInTime s args.user connectionId (clock 1)

lemma atomicAt_recordRevocationObligation {args : AccountArguments}
    (h : RecordsInTime s connectionId args clock) :
    (recordRevocationObligation connectionId args clock).AtomicAt Unchanged s := by
  apply AtomicAt.check_bind unchanged_refl
  intro connection hconnection
  apply AtomicAt.check_bind unchanged_refl
  intro current? hcurrent
  cases current? with
  | some current =>
      apply AtomicAt.check_bind unchanged_refl
      intro _ hsame
      rw [require_eq_ok] at hsame
      exact atomicAt_disconnect (h connection current hconnection (Except.ok.inj hcurrent) hsame) _
  | none =>
      apply AtomicAt.check_bind unchanged_refl
      exact fun _ _ => atomicAt_modify_pure _ _

/-- `attach_oauth_attempt` does not attach earlier than the creation of the attempt. -/
def AttachesInTime (crypto : Crypto) (vault : CredentialVault) (s : Store) (attemptId : UUID)
    (args : ConnectionArguments) (now : Instant) : Prop :=
  ∀ provisional attempt, provisionalConnection crypto vault attemptId args now = .ok provisional →
    s.requireAttachable attemptId provisional = .ok attempt → attempt.status ≠ .materialAttached →
      s.requirePending attempt args.envelopes = .ok () → attempt.createdAt ≤ now

lemma atomicAt_attachOauthAttempt {attemptId : UUID} {args : ConnectionArguments}
    (h : AttachesInTime crypto vault s attemptId args now) :
    (attachOauthAttempt crypto vault attemptId args now).AtomicAt Unchanged s := by
  apply AtomicAt.check_bind unchanged_refl
  intro provisional hprovisional
  apply AtomicAt.check_bind unchanged_refl
  intro attempt hattempt
  split
  · apply AtomicAt.check_bind unchanged_refl
    exact fun _ _ => atomicAt_pure _
  next hstatus =>
    apply AtomicAt.check_bind unchanged_refl
    intro _ hpending
    obtain ⟨updated, hupdated⟩ := OAuthAttempt.exists_create (OAuthAttempt.checks_attachment
      (h provisional attempt hprovisional hattempt hstatus hpending) provisional)
    apply Returns.atomicAt
    apply Returns.modify_bind
    refine Returns.check_bind (a := updated) ?_ ?_
    · exact hupdated
    · apply Returns.modify_bind
      exact returns_pure _

/-- `replace_oauth_attempt_envelopes` does not replace earlier than the creation of the attempt. -/
def ReplacesInTime (crypto : Crypto) (vault : CredentialVault) (s : Store)
    (connection : ConnectionRecord) (envelopes : List CredentialEnvelope) (now : Instant) : Prop :=
  ∀ checked attempt stored, checkedReplacement crypto vault connection envelopes = .ok checked →
    s.requireReplaceable checked = .ok (attempt, stored) →
      ¬ (checked.revision + 1 = attempt.materialRevision ∧ stored = envelopes) →
        s.requireCurrent attempt checked envelopes = .ok () → attempt.createdAt ≤ now

lemma status_of_requireReplaceable {checked : Connection} {stored : List CredentialEnvelope}
    (h : s.requireReplaceable checked = .ok (attempt, stored)) :
    attempt.status = .materialAttached := by
  unfold Store.requireReplaceable at h
  simp only [Checks.bind_eq_ok, require_eq_ok, Bool.and_eq_true, beq_iff_eq, pure_eq_ok] at h
  obtain ⟨found, -, _, hmatches, _, -, heq⟩ := h
  obtain ⟨rfl, -⟩ := Prod.mk.inj heq
  exact hmatches.1.1.1.1

lemma atomicAt_replaceOauthAttemptEnvelopes {envelopes : List CredentialEnvelope}
    (h : ReplacesInTime crypto vault s connection envelopes now) :
    (replaceOauthAttemptEnvelopes crypto vault connection envelopes now).AtomicAt Unchanged s := by
  apply AtomicAt.check_bind unchanged_refl
  intro checked hchecked
  apply AtomicAt.check_bind unchanged_refl
  rintro ⟨attempt, stored⟩ hattempt
  dsimp only
  split
  · exact atomicAt_pure _
  next hnew =>
    apply AtomicAt.check_bind unchanged_refl
    intro _ hcurrent
    obtain ⟨updated, hupdated⟩ := OAuthAttempt.exists_create (OAuthAttempt.checks_replacement
      (h checked attempt stored hchecked hattempt hnew hcurrent)
      (status_of_requireReplaceable hattempt) envelopes)
    apply Returns.atomicAt
    apply Returns.modify_bind
    apply Returns.modify_bind
    refine Returns.check_bind (a := updated) ?_ ?_
    · exact hupdated
    · apply Returns.modify_bind
      exact returns_pure _

/-- `acknowledge_oauth_attempt` does not acknowledge earlier than the creation of the attempt. -/
def AcknowledgesInTime (s : Store) (args : AttemptArguments) (connection : ConnectionRecord)
    (now : Instant) : Prop :=
  ∀ attempt targetId current, s.requireAcknowledgeable args connection =
      .ok (attempt, targetId, current) → attempt.acknowledgedAt = none →
    current.readiness = .requiresValidation → attempt.targetRevision.any (· ≤ current.revision) →
      (current.readiedAt now).isValid = true → attempt.createdAt ≤ now

lemma target_of_requireAcknowledgeable {targetId : UUID} {current : Connection}
    (h : s.requireAcknowledgeable args connection = .ok (attempt, targetId, current)) :
    attempt.targetConnectionId = some targetId := by
  unfold Store.requireAcknowledgeable at h
  simp only [Checks.bind_eq_ok] at h
  obtain ⟨provider, -, supplied, -, found, -, h⟩ := h
  split at h
  · cases h
  next htarget =>
    split at h
    · cases h
    · simp only [Checks.bind_eq_ok, pure_eq_ok] at h
      obtain ⟨_, -, heq⟩ := h
      obtain ⟨rfl, hrest⟩ := Prod.mk.inj heq
      obtain ⟨rfl, -⟩ := Prod.mk.inj hrest
      exact htarget

lemma atomicAt_acknowledgeOauthAttempt (h : AcknowledgesInTime s args connection now) :
    (acknowledgeOauthAttempt args connection now).AtomicAt Unchanged s := by
  apply AtomicAt.check_bind unchanged_refl
  rintro ⟨attempt, targetId, current⟩ hfound
  dsimp only
  split
  · apply AtomicAt.check_bind unchanged_refl
    exact fun _ _ => atomicAt_pure _
  next hacknowledged =>
    apply AtomicAt.check_bind unchanged_refl
    intro ready hready
    simp only [Checks.bind_eq_ok, require_eq_ok, Bool.and_eq_true, beq_iff_eq,
      Connection.validate_eq_ok] at hready
    obtain ⟨_, ⟨hreadiness, hrevision⟩, hready⟩ := hready
    have hvalid : (current.readiedAt now).isValid = true := hready ▸ ready.valid
    have htime : attempt.createdAt ≤ now := h attempt targetId current hfound
      (Option.not_isSome_iff_eq_none.1 hacknowledged) hreadiness hrevision hvalid
    obtain ⟨updated, hupdated⟩ := OAuthAttempt.exists_create (OAuthAttempt.checks_acknowledgement
      htime (target_of_requireAcknowledgeable hfound) ready.one_le_revision)
    apply Returns.atomicAt
    apply Returns.modify_bind
    refine Returns.check_bind (a := updated) ?_ ?_
    · exact hupdated
    · apply Returns.modify_bind
      exact returns_pure _

/-! ## Runs -/

/-- What the call writes last is not older than its record. -/
def Careful (crypto : Crypto) (vault : CredentialVault) (s : Store) (clock : Nat → Instant) :
    Call → Prop
  | .attach attemptId args => AttachesInTime crypto vault s attemptId args (clock 0)
  | .replace connection envelopes =>
      ReplacesInTime crypto vault s connection envelopes (clock 0)
  | .acknowledge args connection => AcknowledgesInTime s args connection (clock 0)
  | .recordObligation connectionId args => RecordsInTime s connectionId args clock
  | .disconnect user connectionId _ => DisconnectsInTime s user connectionId (clock 0)
  | _ => True

/-- A careful call that raises has changed nothing. -/
theorem atomicAt_perform {call : Call} (h : Careful crypto vault s clock call) :
    (perform crypto vault clock call).AtomicAt Unchanged s := by
  cases call with
  | begin args permissions => exact (atomicAt_beginOauthAttempt _ _ _).map _
  | attach attemptId args => exact (atomicAt_attachOauthAttempt h).map _
  | replace connection envelopes => exact (atomicAt_replaceOauthAttemptEnvelopes h).map _
  | finalize attemptId connectionId args => exact (atomicAt_finalizeOauthAttempt _ _ _ _).map _
  | acknowledge args connection => exact (atomicAt_acknowledgeOauthAttempt h).map _
  | fail args => exact (atomicAt_failOauthAttempt _ _).map _
  | completeAttemptRevocation args =>
      exact (atomicAt_completeOauthAttemptRevocation _ _).map _
  | save connectionId args => exact (atomicAt_saveConnection _ _ _).map _
  | stage connectionId args => exact (atomicAt_stageConnection _ _ _).map _
  | finalizeConnection stagedId connectionId args =>
      exact (atomicAt_finalizeConnection _ _ _ _).map _
  | recordObligation connectionId args => exact (atomicAt_recordRevocationObligation h).map _
  | disconnect user connectionId required => exact (atomicAt_disconnect h required).map _
  | completeRevocation user connectionId => exact (atomicAt_completeRevocation _ _ _).map _

end

/-- The store after the calls, each with its readings of the clock. -/
def run (crypto : Crypto) (vault : CredentialVault) (s : Store)
    (calls : List (Call × (Nat → Instant))) : Store :=
  calls.foldl (fun s timed => (perform crypto vault timed.2 timed.1 s).2) s

lemma run_append {crypto : Crypto} {vault : CredentialVault} {s : Store}
    (calls : List (Call × (Nat → Instant))) (timed : Call × (Nat → Instant)) :
    run crypto vault s (calls ++ [timed]) =
      (perform crypto vault timed.2 timed.1 (run crypto vault s calls)).2 := by
  unfold run
  rw [List.foldl_append, List.foldl_cons, List.foldl_nil]

/-- A run of one call. -/
lemma run_singleton {crypto : Crypto} {vault : CredentialVault} {s s' : Store}
    {timed : Call × (Nat → Instant)} {result : Except StoreError Answer}
    (h : perform crypto vault timed.2 timed.1 s = (result, s')) :
    run crypto vault s [timed] = s' := by
  rw [run, List.foldl_cons, List.foldl_nil, h]

/-- In a run of careful calls, every call that raises leaves the store as it was before it. -/
theorem run_atomic (crypto : Crypto) (vault : CredentialVault)
    (calls : List (Call × (Nat → Instant)))
    (hcareful : ∀ prior call clock later, calls = prior ++ (call, clock) :: later →
      Careful crypto vault (run crypto vault Store.empty prior) clock call) :
    ∀ prior call clock later, calls = prior ++ (call, clock) :: later →
      ∀ e s', perform crypto vault clock call (run crypto vault Store.empty prior) = (.error e, s') →
        s' = run crypto vault Store.empty prior :=
  fun prior call clock later hsplit =>
    atomicAt_perform (hcareful prior call clock later hsplit)

/-! ### A disconnection that is too early -/

namespace EarlyDisconnect

open CompanyToken

def args : ConnectionArguments where
  user := ⟨1, 2, 3⟩
  provider := "flowaccount"
  environment := "sandbox"
  companyOrMerchantId := "a"
  accountDisplayName := "A"
  authorizationMethod := "oauth2_pkce"
  grantedPermissions := ["r"]
  readiness := "ready"
  revision := 1
  validatedAt := some ⟨10, some 0⟩
  envelopes := [sealed]

/-- The connection, saved at 10. -/
def connection : Connection where
  toConnectionRecord := describedConnection args 4 .flowaccount .oauth2Pkce ["r"] .ready 1 (some 10)
    false 10
  valid := by decide

def saved : Store := Store.empty.save 4 connection [sealed]

lemma isBound_sealed :
    envelopeIsBound crypto oldVault (args.scope .flowaccount) 4 "a" sealed = true := by
  have hbinding : bindingOf (args.scope .flowaccount) 4 "a" sealed.credentialType = some first := by
    rfl
  have hopen : oldVault.openEnvelope crypto first sealed = .ok token :=
    (chain_sealed.carries ideal_crypto).openEnvelope ideal_crypto (by decide)
      ⟨rfl, rfl, rfl, rfl, rfl, rfl, rfl, rfl, rfl, rfl, rfl⟩
      (chain_sealed.carries ideal_crypto).valid rfl
  have hhash : sealed.aadHash = crypto.digest (credentialAad first sealed.keyVersion) := rfl
  unfold envelopeIsBound
  rw [hbinding, Option.any_some, hopen, hhash, beq_self_eq_true]
  rfl

lemma validateEnvelopes_sealed :
    validateEnvelopes crypto oldVault (args.scope .flowaccount) 4 "a" [sealed] = .ok () := by
  have hvalid : sealed.isValid = true := (chain_sealed.carries ideal_crypto).valid
  unfold validateEnvelopes
  simp only [Checks.bind_eq_ok, require_eq_ok, List.all_cons, List.all_nil, Bool.and_true, hvalid,
    isBound_sealed, true_and, and_true, exists_const]
  decide

lemma saveConnection_empty :
    saveConnection crypto oldVault 4 args 10 Store.empty = (.ok connection, saved) := by
  have hsupplied : suppliedConnection crypto oldVault 4 args 10 = .ok connection := by
    unfold suppliedConnection
    simp only [Checks.bind_eq_ok]
    exact ⟨(), rfl, .flowaccount, rfl, .oauth2Pkce, rfl, .ready, rfl, (), rfl, (),
      validateEnvelopes_sealed, some 10, rfl, Connection.create_eq_ok.2 rfl⟩
  exact check_bind_eq_ok.2 ⟨connection, hsupplied, check_bind_eq_ok.2 ⟨connection, rfl, rfl⟩⟩

lemma perform_save {s s' : Store} {now : Instant} {saved : Connection}
    (h : saveConnection crypto oldVault 4 args now s = (.ok saved, s')) :
    perform crypto oldVault (fun _ => now) (.save 4 args) s =
      (.ok (.connection saved.toConnectionRecord), s') := by
  rw [perform, Operation.map_eq_ok]
  exact ⟨saved, h, rfl⟩

lemma run_save : run crypto oldVault Store.empty [(.save 4 args, fun _ => 10)] = saved :=
  run_singleton (perform_save saveConnection_empty)

/-- At 5 the connection that was saved at 10 loses its envelope, and the disconnection raises. -/
theorem disconnect_halfDone :
    ∃ (crypto : Crypto) (vault : CredentialVault) (calls : List (Call × (Nat → Instant)))
      (call : Call) (clock : Nat → Instant) (e : StoreError) (s' : Store),
      perform crypto vault clock call (run crypto vault Store.empty calls) = (.error e, s') ∧
        s'.envelopes ≠ (run crypto vault Store.empty calls).envelopes := by
  refine ⟨crypto, oldVault, [(.save 4 args, fun _ => 10)], .disconnect ⟨1, 2, 3⟩ 4 false, fun _ => 5,
    .validation, saved.dropEnvelopes [5], ?_, ?_⟩
  · rw [run_save]
    rfl
  · rw [run_save]
    decide

/-- The connection, disconnected by its owner at 20. -/
def disconnected : Store :=
  (saved.dropEnvelopes [5]).setConnection 4 ⟨connection.disconnection false 20, by decide⟩

lemma perform_disconnect : ∃ answer, perform crypto oldVault (fun _ => 20)
    (.disconnect ⟨1, 2, 3⟩ 4 false) saved = (.ok answer, disconnected) :=
  ⟨_, rfl⟩

/-- A connection is saved and disconnected. -/
def calls : List (Call × (Nat → Instant)) :=
  [(.save 4 args, fun _ => 10), (.disconnect ⟨1, 2, 3⟩ 4 false, fun _ => 20)]

lemma run_calls : run crypto oldVault Store.empty calls = disconnected := by
  obtain ⟨answer, hdisconnect⟩ := perform_disconnect
  have hrun : run crypto oldVault Store.empty calls = (perform crypto oldVault (fun _ => 20)
      (.disconnect ⟨1, 2, 3⟩ 4 false)
        (run crypto oldVault Store.empty [(.save 4 args, fun _ => 10)])).2 :=
    run_append [(.save 4 args, fun _ => 10)] (.disconnect ⟨1, 2, 3⟩ 4 false, fun _ => 20)
  rw [hrun, run_save, hdisconnect]

/-- A stranger who asks for the disconnection after the owner is refused, and nothing changes. -/
theorem run_atomic_stranger :
    perform crypto oldVault (fun _ => 5) (.disconnect ⟨9, 2, 3⟩ 4 false)
        (run crypto oldVault Store.empty calls) = (.error connectionNotFound, disconnected) ∧
      disconnected = run crypto oldVault Store.empty calls ∧
      disconnected ≠ run crypto oldVault Store.empty [(.save 4 args, fun _ => 10)] := by
  have hperform : perform crypto oldVault (fun _ => 5) (.disconnect ⟨9, 2, 3⟩ 4 false)
      (run crypto oldVault Store.empty calls) = (.error connectionNotFound, disconnected) := by
    rw [run_calls]
    rfl
  have hsplit : calls ++ [(.disconnect ⟨9, 2, 3⟩ 4 false, fun _ => 5)] =
      calls ++ (.disconnect ⟨9, 2, 3⟩ 4 false, fun _ => 5) :: [] := Eq.refl _
  refine ⟨hperform, run_atomic crypto oldVault _ ?_ calls _ _ [] hsplit _ _ hperform, ?_⟩
  · intro prior call clock later hsplit
    rcases prior with _ | ⟨first, _ | ⟨second, _ | ⟨third, rest⟩⟩⟩
    · obtain ⟨hcall, -⟩ := List.cons.inj hsplit
      cases hcall
      trivial
    · obtain ⟨rfl, hrest⟩ := List.cons.inj hsplit
      obtain ⟨hcall, -⟩ := List.cons.inj hrest
      cases hcall
      -- the owner's disconnection passes its checks, later than the connection was saved
      intro current _ hfound _
      rw [run_save] at hfound
      obtain rfl : connection = current := Except.ok.inj hfound
      decide
    · obtain ⟨rfl, htail⟩ := List.cons.inj hsplit
      obtain ⟨rfl, hrest⟩ := List.cons.inj htail
      obtain ⟨hcall, -⟩ := List.cons.inj hrest
      cases hcall
      intro current _ hfound
      rw [show [_, _] = calls from rfl, run_calls] at hfound
      cases hfound
    · simp [calls] at hsplit
  · rw [run_save]
    exact fun h => absurd (congrArg (fun s => s.envelopes.get 5) h) (by decide)

end EarlyDisconnect

end MercuryTools.Providers
