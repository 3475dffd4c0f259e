import MercuryTools.Providers.StoreSteps

/-!
# Isolation of OAuth generations

One connection is reused by successive authorizations, so that old attempts name it as their target.
What an attempt may do to its target is decided by the generation of the connection, not by the
target that the attempt names, and a connection with a generation is shown only once the attempt of
that generation has been finalized for it and acknowledged.

All of this holds in every run, also where calls raise and leave something half done.
-/

namespace MercuryTools.Providers

open Checks Credentials Hosted Operation

variable {crypto : Crypto} {vault : CredentialVault} {s s' : Store}

/-! ## Records and their keys -/

/-- Records are stored under their own identifiers. -/
structure Keyed (s : Store) : Prop where
  connections : ∀ key connection, s.connections.get key = some connection → connection.id = key
  attempts : ∀ key attempt, s.oauthAttempts.get key = some attempt → attempt.id = key

namespace Keyed

lemma empty : Keyed Store.empty where
  connections := by simp [Store.empty]
  attempts := by simp [Store.empty]

lemma of_eq (h : Keyed s) (hconnections : s'.connections = s.connections)
    (hattempts : s'.oauthAttempts = s.oauthAttempts) : Keyed s' :=
  ⟨hconnections ▸ h.connections, hattempts ▸ h.attempts⟩

variable {connectionId : UUID} {connection : Connection} {required : Bool} {now : Instant}
  {user : User} {result : DisconnectResult} {clock : Nat → Instant} {call : Call}

lemma setConnection (h : Keyed s) (hid : connection.id = connectionId) :
    Keyed (s.setConnection connectionId connection) := by
  refine ⟨fun key found hfound => ?_, h.attempts⟩
  change (s.connections.set connectionId connection).get key = some found at hfound
  rw [Dict.get_set] at hfound
  by_cases hk : key = connectionId
  · rw [if_pos hk] at hfound
    cases hfound
    exact hid.trans hk.symm
  · rw [if_neg hk] at hfound
    exact h.connections key found hfound

lemma setAttempt (h : Keyed s) {attemptId : UUID} {attempt : OAuthAttempt}
    (hid : attempt.id = attemptId) : Keyed (s.setAttempt attemptId attempt) := by
  refine ⟨h.connections, fun key found hfound => ?_⟩
  change (s.oauthAttempts.set attemptId attempt).get key = some found at hfound
  rw [Dict.get_set] at hfound
  by_cases hk : key = attemptId
  · rw [if_pos hk] at hfound
    cases hfound
    exact hid.trans hk.symm
  · rw [if_neg hk] at hfound
    exact h.attempts key found hfound

lemma save (h : Keyed s) {args : ConnectionArguments}
    (hsaves : Saves s connectionId args connection) :
    Keyed (s.save connectionId connection args.envelopes) :=
  (h.setConnection hsaves.id).of_eq rfl rfl

lemma release (h : Keyed s) {current disconnected : Connection}
    (hdisconnects : Disconnects s connectionId required now current disconnected) :
    Keyed (s.release connectionId current disconnected) := by
  have hid : disconnected.id = connectionId := by
    rw [hdisconnects.record]
    exact h.connections _ _ hdisconnects.found
  exact (h.setConnection hid).of_eq rfl rfl

lemma disconnect (h : Keyed s)
    (hok : disconnect user connectionId required now s = (.ok result, s')) : Keyed s' := by
  obtain ⟨current, -, -, ⟨-, rfl⟩ | ⟨disconnected, hdisconnects, -, rfl⟩⟩ := disconnect_eq_ok hok
  · exact h
  · exact h.release hdisconnects

lemma completeRevocation (h : Keyed s)
    (hok : completeRevocation user connectionId now s = (.ok result, s')) : Keyed s' := by
  obtain ⟨current, hfound, -, rfl | ⟨completed, hrecord, rfl⟩⟩ := completeRevocation_eq_ok hok
  · exact h
  · apply h.setConnection
    rw [hrecord]
    exact h.connections _ _ hfound

/-- Calls that return. -/
lemma perform (h : Keyed s) {answer : Answer}
    (hok : perform crypto vault clock call s = (.ok answer, s')) : Keyed s' := by
  cases call with
  | begin args permissions =>
      obtain ⟨result, hop, -⟩ := Operation.map_eq_ok.1 hok
      rcases beginOauthAttempt_eq_ok hop with rfl | ⟨hbegins, rfl⟩
      · exact h
      · exact h.setAttempt hbegins.id
  | attach attemptId args =>
      obtain ⟨_, hop, -⟩ := Operation.map_eq_ok.1 hok
      rcases attachOauthAttempt_eq_ok hop with
        rfl | ⟨attempt, provisional, updated, hattaches, hrecord, rfl⟩
      · exact h
      · have hid : updated.id = attemptId := by
          rw [hrecord]
          exact h.attempts _ _ hattaches.found
        exact (h.setAttempt hid).of_eq rfl rfl
  | replace connection envelopes =>
      obtain ⟨_, hop, -⟩ := Operation.map_eq_ok.1 hok
      rcases replaceOauthAttemptEnvelopes_eq_ok hop with
        rfl | ⟨attempt, updated, hreplaces, hrecord, rfl⟩
      · exact h
      · have hid : updated.id = attempt.id := by
          rw [hrecord]
          rfl
        exact (h.setAttempt hid).of_eq rfl rfl
  | finalize attemptId connectionId args =>
      obtain ⟨result, hop, -⟩ := Operation.map_eq_ok.1 hok
      rcases finalizeOauthAttempt_eq_ok hop with
        rfl | ⟨attempt, method, updated, hfinalizes, -, hrecord, rfl⟩
      · exact h
      · have hid : updated.id = attemptId := by
          rw [hrecord]
          exact h.attempts _ _ hfinalizes.found
        exact ((h.save hfinalizes.saves).setAttempt hid).of_eq rfl rfl
  | acknowledge args connection =>
      obtain ⟨result, hop, -⟩ := Operation.map_eq_ok.1 hok
      rcases acknowledgeOauthAttempt_eq_ok hop with
        rfl | ⟨attempt, targetId, current, updated, hacknowledges, hready, hrecord, rfl⟩
      · exact h
      · have hconnection : result.id = targetId := by
          rw [hready]
          exact h.connections _ _ hacknowledges.stored
        have hattempt : updated.id = args.attemptId := by
          rw [hrecord]
          exact h.attempts _ _ hacknowledges.found
        exact (h.setConnection hconnection).setAttempt hattempt
  | fail args =>
      obtain ⟨result, hop, -⟩ := Operation.map_eq_ok.1 hok
      rcases failOauthAttempt_eq_ok hop with
        rfl | ⟨attempt, recovery, t, hfound, -, -, hrecover, hrecord, rfl⟩
      · exact h
      · have hid : result.id = args.attemptId := by
          rw [hrecord]
          exact h.attempts _ _ hfound
        rcases recoverTarget_eq_ok hrecover with
          ⟨rfl, -⟩ | ⟨targetId, target, envelopes, disconnected, -, -, hdisconnects, rfl⟩
        · exact h.setAttempt hid
        · exact ((h.release hdisconnects).setAttempt hid).of_eq rfl rfl
  | completeAttemptRevocation args =>
      obtain ⟨result, hop, -⟩ := Operation.map_eq_ok.1 hok
      rcases completeOauthAttemptRevocation_eq_ok hop with
        rfl | ⟨attempt, t, hfound, -, hrevoke, hrecord, rfl⟩
      · exact h
      · have hid : result.id = args.attemptId := by
          rw [hrecord]
          exact h.attempts _ _ hfound
        have ht : Keyed t := by
          rcases revokeTarget_eq_ok hrevoke with rfl | ⟨targetId, _, u, -, hcomplete, rfl⟩
          · exact h
          · exact (h.completeRevocation hcomplete).of_eq rfl rfl
        exact (ht.setAttempt hid).of_eq rfl rfl
  | save connectionId args =>
      obtain ⟨result, hop, -⟩ := Operation.map_eq_ok.1 hok
      obtain ⟨hsaves, rfl⟩ := saveConnection_eq_ok hop
      exact h.save hsaves
  | stage connectionId args =>
      obtain ⟨result, hop, -⟩ := Operation.map_eq_ok.1 hok
      obtain ⟨saved, hsaves, -, rfl⟩ := stageConnection_eq_ok hop
      exact (h.save hsaves).setConnection hsaves.id
  | finalizeConnection stagedId connectionId args =>
      obtain ⟨result, hop, -⟩ := Operation.map_eq_ok.1 hok
      obtain ⟨-, hsaves, -, _, _, t, hdisconnect, hcomplete⟩ := finalizeConnection_eq_ok hop
      exact ((h.save hsaves).disconnect hdisconnect).completeRevocation hcomplete
  | recordObligation connectionId args =>
      obtain ⟨result, hop, -⟩ := Operation.map_eq_ok.1 hok
      rcases recordRevocationObligation_eq_ok hop with hdisconnect | ⟨connection, -, hid, -, -, -, rfl⟩
      · exact h.disconnect hdisconnect
      · exact h.setConnection hid
  | disconnect user connectionId required =>
      obtain ⟨result, hop, -⟩ := Operation.map_eq_ok.1 hok
      exact h.disconnect hop
  | completeRevocation user connectionId =>
      obtain ⟨result, hop, -⟩ := Operation.map_eq_ok.1 hok
      exact h.completeRevocation hop

/-- Calls that raise. -/
lemma perform_error (h : Keyed s) {e : StoreError}
    (herror : Providers.perform crypto vault clock call s = (.error e, s')) : Keyed s' := by
  rcases perform_eq_error herror with
    hsame | ⟨args, connection, attempt, targetId, current, ready, rfl, hacknowledges, hready, rfl⟩
  · exact h.of_eq hsame.connections hsame.oauthAttempts
  · apply h.setConnection
    rw [hready]
    exact h.connections _ _ hacknowledges.stored

end Keyed

/-- Every run keeps records under their own identifiers. -/
theorem keyed_run (calls : List (Call × (Nat → Instant))) :
    Keyed (run crypto vault Store.empty calls) :=
  run_invariant Keyed.empty (fun _ _ _ _ _ h hok => h.perform hok)
    (fun _ _ _ _ _ h herror => h.perform_error herror) calls

/-! ## What an attempt does to connections -/

/-- The attempt that a call acknowledges, fails or revokes. -/
def Call.concludes : Call → Option UUID
  | .acknowledge args _ | .fail args | .completeAttemptRevocation args => some args.attemptId
  | _ => none

/-- Connections of another generation are untouched. -/
def SparesOthers (attemptId : UUID) (s s' : Store) : Prop :=
  ∀ connectionId generation, s.connectionOauthGenerations.get connectionId = some generation →
    generation ≠ attemptId → s'.connections.get connectionId = s.connections.get connectionId

variable {attemptId : UUID} {connection : ConnectionRecord} {args : AttemptArguments}
  {result : OAuthAttempt} {clock : Nat → Instant} {user : User}

lemma SparesOthers.of_eq (h : s'.connections = s.connections) : SparesOthers attemptId s s' :=
  fun _ _ _ _ => by rw [h]

/-- Only the connection whose generation the attempt is has been set. -/
lemma SparesOthers.of_set {targetId : UUID} {connection : Connection}
    (hgeneration : s.connectionOauthGenerations.get targetId = some attemptId)
    (h : s'.connections = s.connections.set targetId connection) : SparesOthers attemptId s s' := by
  intro connectionId generation hget hne
  rw [h]
  apply Dict.get_set_of_ne
  rintro rfl
  exact hne (Option.some.inj (hget.symm.trans hgeneration))

lemma sparesOthers_acknowledge {now : Instant} {result : Connection}
    (hok : acknowledgeOauthAttempt args connection now s = (.ok result, s')) :
    SparesOthers args.attemptId s s' := by
  rcases acknowledgeOauthAttempt_eq_ok hok with
    rfl | ⟨attempt, targetId, current, updated, hacknowledges, -, -, rfl⟩
  · exact .of_eq rfl
  · exact .of_set hacknowledges.generation rfl

lemma sparesOthers_fail (h : Keyed s) (hok : failOauthAttempt args clock s = (.ok result, s')) :
    SparesOthers args.attemptId s s' := by
  rcases failOauthAttempt_eq_ok hok with
    rfl | ⟨attempt, recovery, t, hfound, -, -, hrecover, -, rfl⟩
  · exact .of_eq rfl
  · rcases recoverTarget_eq_ok hrecover with
      ⟨rfl, -⟩ | ⟨targetId, target, envelopes, disconnected, hrecovers, -, -, rfl⟩
    · exact .of_eq rfl
    · have hgeneration := hrecovers.generation
      rw [h.attempts _ _ hfound] at hgeneration
      exact .of_set hgeneration rfl

lemma sparesOthers_completeRevocation (h : Keyed s)
    (hok : completeOauthAttemptRevocation args clock s = (.ok result, s')) :
    SparesOthers args.attemptId s s' := by
  rcases completeOauthAttemptRevocation_eq_ok hok with
    rfl | ⟨attempt, t, hfound, -, hrevoke, -, rfl⟩
  · exact .of_eq rfl
  · rcases revokeTarget_eq_ok hrevoke with rfl | ⟨targetId, _, u, howns, hcomplete, rfl⟩
    · exact .of_eq rfl
    · obtain ⟨current, -, -, rfl | ⟨completed, -, rfl⟩⟩ := completeRevocation_eq_ok hcomplete
      · exact .of_eq rfl
      · have hgeneration := howns.generation
        rw [h.attempts _ _ hfound] at hgeneration
        exact .of_set hgeneration rfl

/-- Whether the call returns or raises, it spares the connections of other generations. -/
lemma sparesOthers_perform (h : Keyed s) {call : Call}
    (hconcludes : call.concludes = some attemptId) :
    SparesOthers attemptId s (perform crypto vault clock call s).2 := by
  rcases hperform : perform crypto vault clock call s with ⟨e | answer, s'⟩
  · rcases perform_eq_error hperform with
      hsame | ⟨args, connection, attempt, targetId, current, ready, rfl, hacknowledges, -, rfl⟩
    · exact .of_eq hsame.connections
    · cases hconcludes
      exact .of_set hacknowledges.generation rfl
  · cases call with
    | acknowledge args connection =>
        cases hconcludes
        obtain ⟨_, hop, -⟩ := Operation.map_eq_ok.1 hperform
        exact sparesOthers_acknowledge hop
    | fail args =>
        cases hconcludes
        obtain ⟨_, hop, -⟩ := Operation.map_eq_ok.1 hperform
        exact sparesOthers_fail h hop
    | completeAttemptRevocation args =>
        cases hconcludes
        obtain ⟨_, hop, -⟩ := Operation.map_eq_ok.1 hperform
        exact sparesOthers_completeRevocation h hop
    | _ => cases hconcludes

/-! ## What is shown -/

/-- The generation of the connection, if it has one, has been finalized for it and acknowledged. -/
def GenerationIsConcluded (s : Store) (connectionId : UUID) : Prop :=
  ∀ generation, s.connectionOauthGenerations.get connectionId = some generation →
    ∃ attempt, s.oauthAttempts.get generation = some attempt ∧ attempt.status = .finalized ∧
      attempt.acknowledgedAt.isSome = true ∧ attempt.targetConnectionId = some connectionId

lemma generationIsConcluded_of_isShown (h : s.isShown connection = true) :
    GenerationIsConcluded s connection.id := by
  intro generation hgeneration
  unfold Store.isShown Store.generationIsDispatchable at h
  rw [hgeneration, Bool.and_eq_true, Option.any_eq_true] at h
  obtain ⟨-, attempt, hattempt, hconcluded⟩ := h
  simp only [Bool.and_eq_true, beq_iff_eq] at hconcluded
  exact ⟨attempt, hattempt, hconcluded.1.1, hconcluded.2, hconcluded.1.2⟩

lemma shown_of_loadEnvelopes {envelopes : List CredentialEnvelope}
    (h : s.loadEnvelopes connection = .ok envelopes) :
    GenerationIsConcluded s connection.id ∧ ∃ current, s.connections.get connection.id = some current ∧
      current.readiness ≠ .disconnected ∧ storedEnvelopes s.envelopes
        current.credentialEnvelopeIds = .ok envelopes := by
  unfold Store.loadEnvelopes at h
  simp only [Checks.bind_eq_ok, Connection.create_eq_ok, require_eq_ok, Bool.and_eq_true,
    beq_iff_eq, bne_iff_ne, mapError_eq_ok] at h
  obtain ⟨checked, rfl, _, ⟨⟨hfound, hconnected⟩, hshown⟩, hstored⟩ := h
  exact ⟨generationIsConcluded_of_isShown hshown, checked, hfound, hconnected, hstored⟩

lemma shown_of_loadConnection (hkeyed : Keyed s) {connectionId : UUID} {connection : Connection}
    (h : s.loadConnection user connectionId = .ok connection) :
    GenerationIsConcluded s connectionId := by
  unfold Store.loadConnection at h
  simp only [Checks.bind_eq_ok, require_eq_ok, requireConnection_eq_ok, pure_eq_ok] at h
  obtain ⟨_, -, found, ⟨hfound, -⟩, _, hshown, rfl⟩ := h
  have hid := hkeyed.connections _ _ hfound
  exact hid ▸ generationIsConcluded_of_isShown hshown

lemma shown_of_listForWorkspace {summaries : List ConnectionSummary}
    (h : s.listForWorkspace user = .ok summaries) :
    ∀ summary ∈ summaries, GenerationIsConcluded s summary.connectionId := by
  unfold Store.listForWorkspace at h
  simp only [Checks.bind_eq_ok, pure_eq_ok] at h
  obtain ⟨_, -, rfl⟩ := h
  intro summary hmem
  rw [List.mem_insertionSort, List.mem_map] at hmem
  obtain ⟨connection, hmem, rfl⟩ := hmem
  rw [List.mem_filter, Bool.and_eq_true] at hmem
  exact generationIsConcluded_of_isShown hmem.2.2

/-- In every run, attempts spare the connections of other generations, and what is shown of a
connection with a generation is what its acknowledged attempt has finalized. -/
theorem run_isolates (crypto : Crypto) (vault : CredentialVault)
    (calls : List (Call × (Nat → Instant))) :
    (∀ clock call attemptId, call.concludes = some attemptId →
        SparesOthers attemptId (run crypto vault Store.empty calls)
          (perform crypto vault clock call (run crypto vault Store.empty calls)).2) ∧
      (∀ connection envelopes,
        (run crypto vault Store.empty calls).loadEnvelopes connection = .ok envelopes →
          GenerationIsConcluded (run crypto vault Store.empty calls) connection.id ∧
            ∃ current, (run crypto vault Store.empty calls).connections.get connection.id =
                some current ∧ current.readiness ≠ .disconnected ∧
              storedEnvelopes (run crypto vault Store.empty calls).envelopes
                current.credentialEnvelopeIds = .ok envelopes) ∧
      (∀ user connectionId connection,
        (run crypto vault Store.empty calls).loadConnection user connectionId = .ok connection →
          GenerationIsConcluded (run crypto vault Store.empty calls) connectionId) ∧
      ∀ user summaries, (run crypto vault Store.empty calls).listForWorkspace user = .ok summaries →
        ∀ summary ∈ summaries,
          GenerationIsConcluded (run crypto vault Store.empty calls) summary.connectionId :=
  ⟨fun _ _ _ hconcludes => sparesOthers_perform (keyed_run calls) hconcludes,
    fun _ _ h => shown_of_loadEnvelopes h,
    fun _ _ _ h => shown_of_loadConnection (keyed_run calls) h,
    fun _ _ h => shown_of_listForWorkspace h⟩

end MercuryTools.Providers
