import MercuryTools.Providers.GenerationIsolation

/-!
# Obligations to revoke

A connection or an attempt that owes a revocation at the provider keeps owing it until the
revocation is completed or the grant is handed over.  `save_connection` writes
`provider_revocation_required=False` whatever is stored, and only `resolve_connection_target`
refuses a connection that still owes: what a save, by which a user connects again, or a finalization
puts in the place of such a connection does not owe.  Nothing else drops an obligation.
-/

namespace MercuryTools.Providers

open Checks Credentials Hosted Operation

section

variable {crypto : Crypto} {vault : CredentialVault} {s s' : Store}

/-! ## Who owes and what clears it -/

namespace Store

/-- The connection is stored and owes a revocation. -/
def ConnectionOwes (s : Store) (connectionId : UUID) : Prop :=
  ∃ connection, s.connections.get connectionId = some connection ∧
    connection.providerRevocationRequired = true

def AttemptOwes (s : Store) (attemptId : UUID) : Prop :=
  ∃ attempt, s.oauthAttempts.get attemptId = some attempt ∧
    attempt.providerRevocationRequired = true

end Store

namespace Call

/-- The call completes the revocation of the connection: by itself, for the attempt that is its
generation, or for the staged connection whose grant it hands over. -/
def Completes (s : Store) (connectionId : UUID) : Call → Prop
  | .completeRevocation _ completed => connectionId = completed
  | .completeAttemptRevocation args => ∃ attempt,
      s.oauthAttempts.get args.attemptId = some attempt ∧ OwnsTarget s attempt connectionId
  | .finalizeConnection stagedId _ _ => connectionId = stagedId
  | _ => False

/-- The call completes the revocation of the attempt or hands its grant over. -/
def CompletesAttempt (attemptId : UUID) : Call → Prop
  | .completeAttemptRevocation args => attemptId = args.attemptId
  | .finalize finalized _ _ => attemptId = finalized
  | _ => False

/-- The call saves a record of the connection: a save, by which a user connects it again, or a
finalization. -/
def Saves (connectionId : UUID) : Call → Prop
  | .save saved _ | .finalize _ saved _ | .finalizeConnection _ saved _ => connectionId = saved
  | _ => False

end Call

/-- Who owes still owes, unless the call completes the revocation or has saved another record of the
connection. -/
structure KeepsObligations (s : Store) (call : Call) (s' : Store) : Prop where
  connections : ∀ connectionId, s.ConnectionOwes connectionId →
    s'.ConnectionOwes connectionId ∨ call.Completes s connectionId ∨
      (call.Saves connectionId ∧ s'.connections.get connectionId ≠ s.connections.get connectionId)
  attempts : ∀ attemptId, s.AttemptOwes attemptId →
    s'.AttemptOwes attemptId ∨ call.CompletesAttempt attemptId

/-! ## Records that are set -/

namespace Store

variable {connectionId attemptId : UUID} {connection : Connection}

lemma ConnectionOwes.of_eq (h : s.ConnectionOwes connectionId)
    (hconnections : s'.connections = s.connections) : s'.ConnectionOwes connectionId := by
  obtain ⟨connection, hfound, howes⟩ := h
  exact ⟨connection, hconnections ▸ hfound, howes⟩

lemma AttemptOwes.of_eq (h : s.AttemptOwes attemptId)
    (hattempts : s'.oauthAttempts = s.oauthAttempts) : s'.AttemptOwes attemptId := by
  obtain ⟨attempt, hfound, howes⟩ := h
  exact ⟨attempt, hattempts ▸ hfound, howes⟩

/-- A connection that is set keeps the obligations, if it owes where the stored one does. -/
lemma ConnectionOwes.of_set (key : UUID) (connection : Connection)
    (h : s.ConnectionOwes connectionId)
    (hconnections : s'.connections = s.connections.set key connection)
    (howes : s.ConnectionOwes key → connection.providerRevocationRequired = true) :
    s'.ConnectionOwes connectionId := by
  by_cases hk : connectionId = key
  · subst hk
    exact ⟨connection, by rw [hconnections, Dict.get_set_self], howes h⟩
  · obtain ⟨current, hfound, hcurrent⟩ := h
    exact ⟨current, by rw [hconnections, Dict.get_set_of_ne _ _ hk, hfound], hcurrent⟩

lemma AttemptOwes.of_set (key : UUID) (attempt : OAuthAttempt) (h : s.AttemptOwes attemptId)
    (hattempts : s'.oauthAttempts = s.oauthAttempts.set key attempt)
    (howes : s.AttemptOwes key → attempt.providerRevocationRequired = true) :
    s'.AttemptOwes attemptId := by
  by_cases hk : attemptId = key
  · subst hk
    exact ⟨attempt, by rw [hattempts, Dict.get_set_self], howes h⟩
  · obtain ⟨current, hfound, hcurrent⟩ := h
    exact ⟨current, by rw [hattempts, Dict.get_set_of_ne _ _ hk, hfound], hcurrent⟩

lemma not_connectionOwes_of_none (hnone : s.connections.get connectionId = none) :
    ¬ s.ConnectionOwes connectionId := by
  rintro ⟨other, hother, -⟩
  rw [hnone] at hother
  cases hother

/-- The flag of the stored record. -/
lemma ConnectionOwes.flag (h : s.ConnectionOwes connectionId)
    (hfound : s.connections.get connectionId = some connection) :
    connection.providerRevocationRequired = true := by
  obtain ⟨other, hother, howes⟩ := h
  rw [hfound] at hother
  cases hother
  exact howes

lemma AttemptOwes.flag {attempt : OAuthAttempt} (h : s.AttemptOwes attemptId)
    (hfound : s.oauthAttempts.get attemptId = some attempt) :
    attempt.providerRevocationRequired = true := by
  obtain ⟨other, hother, howes⟩ := h
  rw [hfound] at hother
  cases hother
  exact howes

end Store

/-! ## Operations on connections -/

variable {connectionId key : UUID} {user : User} {now : Instant} {result : DisconnectResult}

/-- A save leaves the other connections alone. -/
lemma connectionOwes_save (connection : Connection) (envelopes : List CredentialEnvelope)
    (h : s.ConnectionOwes key) (hne : key ≠ connectionId) :
    (s.save connectionId connection envelopes).ConnectionOwes key := by
  obtain ⟨current, hfound, howes⟩ := h
  exact ⟨current, (Dict.get_set_of_ne _ _ hne).trans hfound, howes⟩

lemma oauthAttempts_disconnect {required : Bool}
    (hok : disconnect user connectionId required now s = (.ok result, s')) :
    s'.oauthAttempts = s.oauthAttempts :=
  (keepsField_disconnect (f := (·.oauthAttempts)) _ _ _ _ (fun _ _ => rfl)
    fun _ _ => rfl).of_eq hok

lemma oauthAttempts_completeRevocation
    (hok : completeRevocation user connectionId now s = (.ok result, s')) :
    s'.oauthAttempts = s.oauthAttempts :=
  (keepsField_completeRevocation (f := (·.oauthAttempts)) _ _ _ fun _ _ => rfl).of_eq hok

lemma connectionOwes_disconnect {required : Bool} (h : s.ConnectionOwes key)
    (hok : disconnect user connectionId required now s = (.ok result, s')) :
    s'.ConnectionOwes key := by
  obtain ⟨current, hfound, -, ⟨-, rfl⟩ | ⟨disconnected, hdisconnects, -, rfl⟩⟩ :=
    disconnect_eq_ok hok
  · exact h
  · refine h.of_set connectionId disconnected rfl fun howes => ?_
    rw [hdisconnects.record]
    change (current.providerRevocationRequired || required) = true
    rw [howes.flag hfound]
    rfl

lemma connectionOwes_completeRevocation (h : s.ConnectionOwes key) (hne : key ≠ connectionId)
    (hok : completeRevocation user connectionId now s = (.ok result, s')) :
    s'.ConnectionOwes key := by
  obtain ⟨current, -, -, rfl | ⟨completed, -, rfl⟩⟩ := completeRevocation_eq_ok hok
  · exact h
  · obtain ⟨connection, hfound, howes⟩ := h
    exact ⟨connection, (Dict.get_set_of_ne _ _ hne).trans hfound, howes⟩

/-! ## Calls -/

namespace KeepsObligations

variable {call : Call} {args : AttemptArguments} {clock : Nat → Instant} {result : OAuthAttempt}

/-- Only connections are set. -/
lemma of_connections (hattempts : s'.oauthAttempts = s.oauthAttempts)
    (h : ∀ connectionId, s.ConnectionOwes connectionId →
      s'.ConnectionOwes connectionId ∨ call.Completes s connectionId ∨ (call.Saves connectionId ∧
        s'.connections.get connectionId ≠ s.connections.get connectionId)) :
    KeepsObligations s call s' :=
  ⟨h, fun _ howes => .inl (howes.of_eq hattempts)⟩

/-- Only attempts are set. -/
lemma of_attempts (hconnections : s'.connections = s.connections)
    (h : ∀ attemptId, s.AttemptOwes attemptId →
      s'.AttemptOwes attemptId ∨ call.CompletesAttempt attemptId) : KeepsObligations s call s' :=
  ⟨fun _ howes => .inl (howes.of_eq hconnections), h⟩

lemma of_eq (hconnections : s'.connections = s.connections)
    (hattempts : s'.oauthAttempts = s.oauthAttempts) : KeepsObligations s call s' :=
  of_connections hattempts fun _ howes => .inl (howes.of_eq hconnections)

/-- A record that has been saved owes, or it is another one. -/
lemma of_saves (hsaves : call.Saves connectionId) (h : s.ConnectionOwes connectionId) :
    s'.ConnectionOwes connectionId ∨ call.Completes s connectionId ∨ (call.Saves connectionId ∧
      s'.connections.get connectionId ≠ s.connections.get connectionId) := by
  by_cases heq : s'.connections.get connectionId = s.connections.get connectionId
  · obtain ⟨current, hfound, howes⟩ := h
    exact .inl ⟨current, heq.trans hfound, howes⟩
  · exact .inr (.inr ⟨hsaves, heq⟩)

lemma fail (hkeyed : Keyed s) (hok : failOauthAttempt args clock s = (.ok result, s')) :
    KeepsObligations s (.fail args) s' := by
  rcases failOauthAttempt_eq_ok hok with
    rfl | ⟨attempt, recovery, t, hfound, -, -, hrecover, hrecord, rfl⟩
  · exact of_eq rfl rfl
  have howes : result.providerRevocationRequired = true := by
    rw [hrecord]
    rfl
  rcases recoverTarget_eq_ok hrecover with
    ⟨rfl, -⟩ | ⟨targetId, target, envelopes, disconnected, -, -, hdisconnects, rfl⟩
  · exact of_attempts rfl fun _ h => .inl (h.of_set args.attemptId result rfl fun _ => howes)
  · refine ⟨fun _ h => .inl (h.of_set targetId disconnected rfl fun _ => ?_),
      fun _ h => .inl (h.of_set args.attemptId result rfl fun _ => howes)⟩
    rw [hdisconnects.record]
    exact Bool.or_true _

lemma completeAttemptRevocation
    (hok : completeOauthAttemptRevocation args clock s = (.ok result, s')) :
    KeepsObligations s (.completeAttemptRevocation args) s' := by
  rcases completeOauthAttemptRevocation_eq_ok hok with
    rfl | ⟨attempt, t, hfound, -, hrevoke, -, rfl⟩
  · exact of_eq rfl rfl
  have hattempts : t.oauthAttempts = s.oauthAttempts :=
    (keepsField_revokeTarget (f := (·.oauthAttempts)) args.user attempt (clock 0)
      (fun _ _ _ => rfl) fun _ _ => rfl).of_eq hrevoke
  refine ⟨fun connectionId howes => ?_, fun attemptId howes => ?_⟩
  · rcases revokeTarget_eq_ok hrevoke with rfl | ⟨targetId, _, u, howns, hcomplete, rfl⟩
    · exact .inl (howes.of_eq rfl)
    · by_cases hk : connectionId = targetId
      · subst hk
        exact .inr (.inl ⟨attempt, hfound, howns⟩)
      · exact .inl ((connectionOwes_completeRevocation howes hk hcomplete).of_eq rfl)
  · by_cases hk : attemptId = args.attemptId
    · exact .inr hk
    · obtain ⟨found, hget, hflag⟩ := howes
      refine .inl ⟨found, ?_, hflag⟩
      change (t.oauthAttempts.set args.attemptId result).get attemptId = some found
      rw [Dict.get_set_of_ne _ _ hk, hattempts, hget]

lemma finalize {attemptId connectionId : UUID} {args : ConnectionArguments} {result : Connection}
    (hok : finalizeOauthAttempt crypto vault attemptId connectionId args clock s =
      (.ok result, s')) :
    KeepsObligations s (.finalize attemptId connectionId args) s' := by
  rcases finalizeOauthAttempt_eq_ok hok with
    rfl | ⟨attempt, method, updated, -, -, -, rfl⟩
  · exact of_eq rfl rfl
  refine ⟨fun key howes => ?_, fun key howes => ?_⟩
  · by_cases hk : key = connectionId
    · exact of_saves hk howes
    · exact .inl ((connectionOwes_save result args.envelopes howes hk).of_eq rfl)
  · by_cases hk : key = attemptId
    · exact .inr hk
    · obtain ⟨found, hget, hflag⟩ := howes
      exact .inl ⟨found, (Dict.get_set_of_ne _ _ hk).trans hget, hflag⟩

lemma acknowledge {connection : ConnectionRecord} {now : Instant} {result : Connection}
    (hok : acknowledgeOauthAttempt args connection now s = (.ok result, s')) :
    KeepsObligations s (.acknowledge args connection) s' := by
  rcases acknowledgeOauthAttempt_eq_ok hok with
    rfl | ⟨attempt, targetId, current, updated, hacknowledges, hready, hrecord, rfl⟩
  · exact of_eq rfl rfl
  refine ⟨fun _ h => .inl (h.of_set targetId result rfl fun howes => ?_),
    fun _ h => .inl (h.of_set args.attemptId updated rfl fun howes => ?_)⟩
  · rw [hready]
    exact howes.flag hacknowledges.stored
  · rw [hrecord]
    exact howes.flag hacknowledges.found

/-- Calls that return. -/
lemma perform (hkeyed : Keyed s) {answer : Answer}
    (hok : perform crypto vault clock call s = (.ok answer, s')) : KeepsObligations s call s' := by
  cases call with
  | begin args permissions =>
      obtain ⟨result, hop, -⟩ := Operation.map_eq_ok.1 hok
      rcases beginOauthAttempt_eq_ok hop with rfl | ⟨hbegins, rfl⟩
      · exact of_eq rfl rfl
      · exact of_attempts rfl fun _ h => .inl (h.of_set _ _ rfl fun _ => hbegins.owes)
  | attach attemptId args =>
      obtain ⟨_, hop, -⟩ := Operation.map_eq_ok.1 hok
      rcases attachOauthAttempt_eq_ok hop with
        rfl | ⟨attempt, provisional, updated, hattaches, hrecord, rfl⟩
      · exact of_eq rfl rfl
      · refine of_attempts rfl fun _ h => .inl (h.of_set _ _ rfl fun howes => ?_)
        rw [hrecord]
        exact howes.flag hattaches.found
  | replace connection envelopes =>
      obtain ⟨_, hop, -⟩ := Operation.map_eq_ok.1 hok
      rcases replaceOauthAttemptEnvelopes_eq_ok hop with
        rfl | ⟨attempt, updated, hreplaces, hrecord, rfl⟩
      · exact of_eq rfl rfl
      · refine of_attempts rfl fun _ h => .inl (h.of_set _ _ rfl fun howes => ?_)
        have hkey := hkeyed.attempts _ _ hreplaces.found
        rw [hrecord]
        exact howes.flag (hkey ▸ hreplaces.found)
  | finalize attemptId connectionId args =>
      obtain ⟨_, hop, -⟩ := Operation.map_eq_ok.1 hok
      exact finalize hop
  | acknowledge args connection =>
      obtain ⟨_, hop, -⟩ := Operation.map_eq_ok.1 hok
      exact acknowledge hop
  | fail args =>
      obtain ⟨_, hop, -⟩ := Operation.map_eq_ok.1 hok
      exact fail hkeyed hop
  | completeAttemptRevocation args =>
      obtain ⟨_, hop, -⟩ := Operation.map_eq_ok.1 hok
      exact completeAttemptRevocation hop
  | save connectionId args =>
      obtain ⟨_, hop, -⟩ := Operation.map_eq_ok.1 hok
      obtain ⟨-, rfl⟩ := saveConnection_eq_ok hop
      refine of_connections rfl fun key howes => ?_
      by_cases hk : key = connectionId
      · exact of_saves hk howes
      · exact .inl (connectionOwes_save _ _ howes hk)
  | stage connectionId args =>
      obtain ⟨_, hop, -⟩ := Operation.map_eq_ok.1 hok
      obtain ⟨saved, hsaves, hnone, rfl⟩ := stageConnection_eq_ok hop
      refine of_connections rfl fun key howes => .inl ?_
      have hne : key ≠ connectionId :=
        fun hk => Store.not_connectionOwes_of_none hnone (hk ▸ howes)
      have hsaved := connectionOwes_save saved args.envelopes howes hne
      exact hsaved.of_set connectionId _ rfl fun _ => rfl
  | finalizeConnection stagedId connectionId args =>
      obtain ⟨result, hop, -⟩ := Operation.map_eq_ok.1 hok
      obtain ⟨-, -, -, _, _, t, hdisconnect, hcomplete⟩ := finalizeConnection_eq_ok hop
      have hdisconnected := oauthAttempts_disconnect hdisconnect
      refine of_connections ((oauthAttempts_completeRevocation hcomplete).trans hdisconnected)
        fun key howes => ?_
      by_cases hk : key = stagedId
      · exact .inr (.inl hk)
      by_cases htarget : key = connectionId
      · exact of_saves htarget howes
      · have hsaved := connectionOwes_save result args.envelopes howes htarget
        exact .inl (connectionOwes_completeRevocation (connectionOwes_disconnect hsaved hdisconnect)
          hk hcomplete)
  | recordObligation connectionId args =>
      obtain ⟨_, hop, -⟩ := Operation.map_eq_ok.1 hok
      rcases recordRevocationObligation_eq_ok hop with
        hdisconnect | ⟨connection, hnone, -, -, howes, -, rfl⟩
      · exact of_connections (oauthAttempts_disconnect hdisconnect)
          fun _ h => .inl (connectionOwes_disconnect h hdisconnect)
      · exact of_connections rfl fun _ h => .inl (h.of_set _ _ rfl fun _ => howes)
  | disconnect user connectionId required =>
      obtain ⟨_, hop, -⟩ := Operation.map_eq_ok.1 hok
      exact of_connections (oauthAttempts_disconnect hop)
        fun _ h => .inl (connectionOwes_disconnect h hop)
  | completeRevocation user connectionId =>
      obtain ⟨_, hop, -⟩ := Operation.map_eq_ok.1 hok
      refine of_connections (oauthAttempts_completeRevocation hop) fun key howes => ?_
      by_cases hk : key = connectionId
      · exact .inr (.inl hk)
      · exact .inl (connectionOwes_completeRevocation howes hk hop)

/-- Calls that raise. -/
lemma perform_error {e : StoreError}
    (herror : Providers.perform crypto vault clock call s = (.error e, s')) :
    KeepsObligations s call s' := by
  rcases perform_eq_error herror with
    hsame | ⟨args, connection, attempt, targetId, current, ready, rfl, hacknowledges, hready, rfl⟩
  · exact of_eq hsame.connections hsame.oauthAttempts
  · refine of_connections rfl fun _ h => .inl (h.of_set _ _ rfl fun howes => ?_)
    rw [hready]
    exact howes.flag hacknowledges.stored

end KeepsObligations

end

/-! ### A connection that is saved while it owes -/

namespace Resaved

open CompanyToken EarlyDisconnect

def resaved : ConnectionArguments := { args with revision := 3 }

def disconnected : Connection where
  toConnectionRecord := connection.disconnection true 10
  valid := by decide

/-- The disconnected connection owes a revocation. -/
def owing : Store := saved.release 4 connection disconnected

def replacement : Connection where
  toConnectionRecord := describedConnection resaved 4 .flowaccount .oauth2Pkce ["r"] .ready 3
    (some 10) false 10
  valid := by decide

/-- The calls that save the connection and disconnect it. -/
def calls : List (Call × (Nat → Instant)) :=
  [(.save 4 args, fun _ => 10), (.disconnect ⟨1, 2, 3⟩ 4 true, fun _ => 10)]

lemma run_calls : run crypto oldVault Store.empty calls = owing := by
  have hcalls : run crypto oldVault Store.empty calls =
      (perform crypto oldVault (fun _ => 10) (.disconnect ⟨1, 2, 3⟩ 4 true)
        (run crypto oldVault Store.empty [(.save 4 args, fun _ => 10)])).2 :=
    run_append [(.save 4 args, fun _ => 10)] (.disconnect ⟨1, 2, 3⟩ 4 true, fun _ => 10)
  rw [run_save] at hcalls
  exact hcalls

end Resaved

end MercuryTools.Providers
