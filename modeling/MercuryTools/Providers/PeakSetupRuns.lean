import MercuryTools.Framework.OperationRuns
import MercuryTools.Providers.PeakSetup

/-!
# When a PEAK setup is used once

In every run of the setup store each session is finalized at most once, in time, with both of its
hashes, and for a connection of the account holder of its attempt.  A finalization that returns
writes the connection and marks the session and the attempt consumed; one that raises changes
nothing.

The calls of a run are what a thread does while it holds the locks.  `create_attempt` is two of
them (`runAll_register_rename`), with any other calls in between: one that exchanges the attempt
before it is stored under its own identifier leaves it to be exchanged again
(`not_singleUse_exchangedTwice`).  Without such calls each attempt is exchanged for at most one
session (`run_singleUse`).
-/

namespace MercuryTools.Providers

open Checks Credentials Hosted Operation

/-- What is done under the locks. -/
inductive SetupCall where
  | register (args : SetupArguments) (fresh : UUID)
  | rename (created : SetupAttempt) (attemptId : UUID)
  | exchange (args : ExchangeArguments)
  | peek (authUserId : UUID) (sessionHash : String)
  | finalize (args : FinalizeArguments)

inductive SetupAnswer where
  | attempt (attempt : SetupAttempt)
  | session (session : PeakSetupSession)
  | connection (connection : Connection)
  deriving DecidableEq

/-- A call with its readings of the clock. -/
abbrev TimedSetupCall : Type :=
  SetupCall × (Nat → Instant)

section

variable (crypto : Crypto) (vault : CredentialVault)

def performSetup (timed : TimedSetupCall) : SetupOperation SetupAnswer :=
  match timed.1 with
  | .register args fresh => .attempt <$> registerAttempt args fresh (timed.2 0)
  | .rename created attemptId => .attempt <$> renameAttempt created attemptId
  | .exchange args => .session <$> exchangeAttempt args (timed.2 0)
  | .peek authUserId sessionHash => .session <$> peekSession authUserId sessionHash (timed.2 0)
  | .finalize args => .connection <$> finalizeSetup crypto vault args timed.2

end

section

variable {crypto : Crypto} {vault : CredentialVault} {s s' : PeakSetupStore}

/-! ## What each call does -/

variable {args : FinalizeArguments} {now : Instant} {created attempt : SetupAttempt}
  {session : PeakSetupSession} {connection : Connection} {clock : Nat → Instant} {e : SetupError}
  {timed : TimedSetupCall}

lemma registerAttempt_eq_ok {args : SetupArguments} {fresh : UUID}
    (h : registerAttempt args fresh now s = (.ok created, s')) :
    created.consumedAt = none ∧ s' = s.setAttempt created.id created := by
  unfold registerAttempt at h
  obtain ⟨attempt, hattempt, h⟩ := check_bind_eq_ok.1 h
  obtain ⟨_, -, h⟩ := check_bind_eq_ok.1 h
  rw [modify_bind, pure_apply] at h
  cases h
  unfold describedAttempt at hattempt
  simp only [Checks.bind_eq_ok, pure_eq_ok] at hattempt
  obtain ⟨_, -, _, -, _, -, _, -, _, -, rfl⟩ := hattempt
  exact ⟨rfl, rfl⟩

lemma renameAttempt_eq_ok {renamed : SetupAttempt} {attemptId : UUID}
    (h : renameAttempt created attemptId s = (.ok renamed, s')) :
    renamed = created ∧ s' = s ∨ renamed = { created with id := attemptId } ∧
      s' = (s.removeAttempt created.id).setAttempt attemptId
        { created with id := attemptId } := by
  unfold renameAttempt at h
  split at h
  · cases h
    exact .inl ⟨rfl, rfl⟩
  · obtain ⟨_, -, h⟩ := check_bind_eq_ok.1 h
    rw [modify_bind, modify_bind, pure_apply] at h
    cases h
    exact .inr ⟨rfl, rfl⟩

/-- `create_attempt` without another call in between. -/
lemma runAll_register_rename {args : SetupArguments} {fresh attemptId : UUID}
    {clock' : Nat → Instant} (h : registerAttempt args fresh (clock 0) s = (.ok created, s')) :
    (createAttempt args fresh attemptId (clock 0) s).2 = runAll (performSetup crypto vault) s
      [(.register args fresh, clock), (.rename created attemptId, clock')] := by
  have hregister : performSetup crypto vault (.register args fresh, clock) s =
      (.ok (.attempt created), s') := Operation.map_eq_ok.2 ⟨created, h, rfl⟩
  have hrename : (performSetup crypto vault (.rename created attemptId, clock') s').2 =
      (renameAttempt created attemptId s').2 := by
    rcases hresult : renameAttempt created attemptId s' with ⟨e | renamed, after⟩
    · exact congrArg Prod.snd (Operation.map_eq_error.2 hresult)
    · exact congrArg Prod.snd (Operation.map_eq_ok.2 ⟨renamed, hresult, rfl⟩)
  rw [createAttempt, Operation.bind_of_ok h, ← hrename]
  change _ = (performSetup crypto vault _ (performSetup crypto vault _ s).2).2
  rw [hregister]

/-- What `exchange_attempt` has checked of the attempt. -/
structure Exchanges (s : PeakSetupStore) (attempt : SetupAttempt) (now : Instant) : Prop where
  stored : attempt ∈ s.attempts.values
  unconsumed : attempt.consumedAt = none
  live : now < attempt.expiresAt
  unexchanged : ∀ session ∈ s.sessions.values, session.setupAttemptId ≠ attempt.id

lemma exchanges_of_requireExchangeable {args : ExchangeArguments}
    (h : s.requireExchangeable args now = .ok attempt) : Exchanges s attempt now := by
  unfold PeakSetupStore.requireExchangeable at h
  split at h
  · cases h
  next found hfound =>
    simp only [Checks.bind_eq_ok, require_eq_ok, pure_eq_ok, Bool.and_eq_true, Bool.not_eq_true',
      List.any_eq_false, beq_iff_eq, Option.isNone_iff_eq_none, decide_eq_true_eq] at h
    obtain ⟨_, ⟨⟨⟨hunconsumed, hlive⟩, hunexchanged⟩, -⟩, rfl⟩ := h
    exact ⟨List.mem_of_find?_eq_some hfound, hunconsumed, hlive, hunexchanged⟩

lemma exchangeAttempt_eq_ok {args : ExchangeArguments}
    (h : exchangeAttempt args now s = (.ok session, s')) :
    ∃ attempt, Exchanges s attempt now ∧ session = attempt.session args now ∧
      s' = s.setSession args.sessionId session := by
  unfold exchangeAttempt at h
  obtain ⟨_, -, h⟩ := check_bind_eq_ok.1 h
  obtain ⟨attempt, hattempt, h⟩ := check_bind_eq_ok.1 h
  rw [modify_bind, pure_apply] at h
  cases h
  exact ⟨attempt, exchanges_of_requireExchangeable hattempt, rfl, rfl⟩

lemma compareDigest_eq_ok {text other : String} {same : Bool}
    (h : compareDigest text other = .ok same) (hsame : same = true) : text = other := by
  unfold compareDigest at h
  split at h
  · obtain rfl : (text == other) = same := Except.ok.inj h
    exact beq_iff_eq.1 hsame
  · cases h

/-- What `finalize` has checked. -/
structure FinalizesSetup (s : PeakSetupStore) (args : FinalizeArguments) (now : Instant)
    (attempt : SetupAttempt) : Prop where
  storedSession : s.sessions.get args.session.id = some args.session
  unconsumed : args.session.consumedAt = none
  live : now < args.session.expiresAt
  sessionHash : args.session.sessionHash = args.sessionHash
  csrfHash : args.session.csrfHash = args.csrfHash
  storedAttempt : s.attempts.get args.session.setupAttemptId = some attempt
  attemptUnconsumed : attempt.consumedAt = none
  attemptLive : now < attempt.expiresAt
  attemptId : args.session.setupAttemptId = attempt.id
  attemptScope : args.session.toScope = attempt.toScope
  scope : attempt.toScope = args.connection.toScope
  peak : args.connection.provider = .peak

lemma finalizes_of_requireFinalizable (h : s.requireFinalizable args now = .ok attempt) :
    FinalizesSetup s args now attempt := by
  unfold PeakSetupStore.requireFinalizable at h
  split at h
  · cases h
  next current hcurrent =>
    simp only [Checks.bind_eq_ok, require_eq_ok, Bool.and_eq_true, beq_iff_eq,
      Option.isNone_iff_eq_none, decide_eq_true_eq] at h
    obtain ⟨_, ⟨⟨rfl, hunconsumed⟩, hlive⟩, sameSession, hsession, _, hsameSession, sameCsrf, hcsrf,
      _, hsameCsrf, h⟩ := h
    split at h
    · cases h
    next found hfound =>
      simp only [sameSetupBinding, Checks.bind_eq_ok, require_eq_ok, Bool.and_eq_true, beq_iff_eq,
        Option.isNone_iff_eq_none, decide_eq_true_eq, pure_eq_ok] at h
      obtain ⟨_, ⟨⟨hattempt, hattemptLive⟩, ⟨⟨hid, hscope⟩, hconnection⟩, hpeak⟩, rfl⟩ := h
      exact ⟨hcurrent, hunconsumed, hlive, compareDigest_eq_ok hsession hsameSession,
        compareDigest_eq_ok hcsrf hsameCsrf, hfound, hattempt, hattemptLive, hid, hscope,
        hconnection, hpeak⟩

/-- The store once the session is finalized. -/
def PeakSetupStore.finalized (s : PeakSetupStore) (args : FinalizeArguments) (attempt : SetupAttempt)
    (connection : Connection) (now : Instant) : PeakSetupStore where
  connectionStore := s.connectionStore.save args.connection.id connection args.envelopes
  attempts := s.attempts.set attempt.id (attempt.consume now)
  sessions := s.sessions.set args.session.id (args.session.consume now)

lemma saveSetupConnection_eq_ok
    (h : saveSetupConnection crypto vault args now s = (.ok connection, s')) :
    Saves s.connectionStore args.connection.id (args.connection.arguments args.envelopes)
        connection ∧
      s' = { s with
        connectionStore := s.connectionStore.save args.connection.id connection args.envelopes } := by
  unfold saveSetupConnection at h
  obtain ⟨t, hsave, rfl⟩ := within_eq_ok.1 (Operation.mapError_eq_ok.1 h)
  obtain ⟨hsaves, rfl⟩ := saveConnection_eq_ok hsave
  exact ⟨hsaves, rfl⟩

lemma finalizeSetup_eq_ok (h : finalizeSetup crypto vault args clock s = (.ok connection, s')) :
    ∃ attempt, FinalizesSetup s args (clock 0) attempt ∧
      Saves s.connectionStore args.connection.id (args.connection.arguments args.envelopes)
        connection ∧
      s' = s.finalized args attempt connection (clock 0) := by
  unfold finalizeSetup at h
  obtain ⟨attempt, hattempt, h⟩ := check_bind_eq_ok.1 h
  rw [Operation.mapError_eq_ok, restoring_eq_ok] at h
  obtain ⟨saved, t, hsave, h⟩ := Operation.bind_eq_ok.1 h
  obtain ⟨_, -, h⟩ := check_bind_eq_ok.1 h
  rw [modify_bind, modify_bind, pure_apply] at h
  cases h
  obtain ⟨hsaves, rfl⟩ := saveSetupConnection_eq_ok hsave
  exact ⟨attempt, finalizes_of_requireFinalizable hattempt, hsaves, rfl⟩

lemma exists_finalizeSetup_eq_ok (hattempt : s.requireFinalizable args (clock 0) = .ok attempt)
    (hvalid : (attempt.consume (clock 0)).isValid = true)
    (hsave : saveSetupConnection crypto vault args (clock 1) s = (.ok connection, s')) :
    ∃ t, finalizeSetup crypto vault args clock s = (.ok connection, t) := by
  unfold finalizeSetup
  refine ⟨_, check_bind_eq_ok.2 ⟨attempt, hattempt, Operation.mapError_eq_ok.2
    (restoring_eq_ok.2 (Operation.bind_eq_ok.2 ⟨connection, s', hsave, check_bind_eq_ok.2
      ⟨(), require_eq_ok.2 hvalid, rfl⟩⟩))⟩⟩

/-! ### Calls that raise -/

lemma saveSetupConnection_eq_error
    (h : saveSetupConnection crypto vault args now s = (.error e, s')) : s' = s := by
  unfold saveSetupConnection at h
  obtain ⟨e, herror, rfl⟩ := Operation.mapError_eq_error.1 h
  obtain ⟨t, hsave, rfl⟩ := within_eq_error.1 herror
  obtain rfl : t = s.connectionStore := atomicAt_saveConnection _ _ _ e t hsave
  rfl

/-- The maps that are put back are the only ones that have changed. -/
lemma finalizeSetup_eq_error (h : finalizeSetup crypto vault args clock s = (.error e, s')) :
    s' = s := by
  unfold finalizeSetup at h
  rcases check_bind_eq_error.1 h with ⟨-, rfl⟩ | ⟨attempt, -, h⟩
  · rfl
  obtain ⟨e, herror, -⟩ := Operation.mapError_eq_error.1 h
  obtain ⟨t, hraise, rfl⟩ := restoring_eq_error.1 herror
  rcases Operation.bind_eq_error.1 hraise with hsave | ⟨connection, u, hsave, hlater⟩
  · obtain rfl := saveSetupConnection_eq_error hsave
    rfl
  · obtain ⟨-, rfl⟩ := saveSetupConnection_eq_ok hsave
    rcases check_bind_eq_error.1 hlater with ⟨-, rfl⟩ | ⟨_, -, hnever⟩
    · rfl
    · cases hnever

/-- A call that raises changes nothing. -/
lemma performSetup_eq_error (h : performSetup crypto vault timed s = (.error e, s')) : s' = s := by
  obtain ⟨call, clock⟩ := timed
  cases call with
  | register args fresh =>
      have h := Operation.map_eq_error.1 h
      rcases check_bind_eq_error.1 h with ⟨-, rfl⟩ | ⟨attempt, -, h⟩
      · rfl
      · rcases check_bind_eq_error.1 h with ⟨-, rfl⟩ | ⟨_, -, hnever⟩
        · rfl
        · cases hnever
  | rename created attemptId =>
      have h := Operation.map_eq_error.1 h
      unfold renameAttempt at h
      split at h
      · cases h
      · rcases check_bind_eq_error.1 h with ⟨-, rfl⟩ | ⟨_, -, hnever⟩
        · rfl
        · cases hnever
  | exchange args =>
      have h := Operation.map_eq_error.1 h
      rcases check_bind_eq_error.1 h with ⟨-, rfl⟩ | ⟨_, -, h⟩
      · rfl
      · rcases check_bind_eq_error.1 h with ⟨-, rfl⟩ | ⟨_, -, hnever⟩
        · rfl
        · cases hnever
  | peek authUserId sessionHash =>
      have h := Operation.map_eq_error.1 h
      exact (Prod.mk.inj h).2.symm
  | finalize args => exact finalizeSetup_eq_error (Operation.map_eq_error.1 h)

/-! ### One call -/

/-- All that a call can do. -/
inductive SetupStep (s : PeakSetupStore) :
    TimedSetupCall → Except SetupError SetupAnswer → PeakSetupStore → Prop
  | raised {timed : TimedSetupCall} {e : SetupError} : SetupStep s timed (.error e) s
  | registered {args : SetupArguments} {fresh : UUID} {clock : Nat → Instant}
      {created : SetupAttempt} (unconsumed : created.consumedAt = none) :
      SetupStep s (.register args fresh, clock) (.ok (.attempt created))
        (s.setAttempt created.id created)
  | kept {created : SetupAttempt} {attemptId : UUID} {clock : Nat → Instant} :
      SetupStep s (.rename created attemptId, clock) (.ok (.attempt created)) s
  | renamed {created : SetupAttempt} {attemptId : UUID} {clock : Nat → Instant} :
      SetupStep s (.rename created attemptId, clock)
        (.ok (.attempt { created with id := attemptId }))
        ((s.removeAttempt created.id).setAttempt attemptId { created with id := attemptId })
  | exchanged {args : ExchangeArguments} {clock : Nat → Instant} {attempt : SetupAttempt}
      (exchanges : Exchanges s attempt (clock 0)) :
      SetupStep s (.exchange args, clock) (.ok (.session (attempt.session args (clock 0))))
        (s.setSession args.sessionId (attempt.session args (clock 0)))
  | peeked {authUserId : UUID} {sessionHash : String} {clock : Nat → Instant}
      {session : PeakSetupSession} :
      SetupStep s (.peek authUserId sessionHash, clock) (.ok (.session session)) s
  | finalized {args : FinalizeArguments} {clock : Nat → Instant} {attempt : SetupAttempt}
      {connection : Connection} (finalizes : FinalizesSetup s args (clock 0) attempt)
      (saves : Saves s.connectionStore args.connection.id
        (args.connection.arguments args.envelopes) connection) :
      SetupStep s (.finalize args, clock) (.ok (.connection connection))
        (s.finalized args attempt connection (clock 0))

lemma setupStep_of_eq_ok {answer : SetupAnswer}
    (h : performSetup crypto vault timed s = (.ok answer, s')) :
    SetupStep s timed (.ok answer) s' := by
  obtain ⟨call, clock⟩ := timed
  cases call with
  | register args fresh =>
      obtain ⟨created, hop, rfl⟩ := Operation.map_eq_ok.1 h
      obtain ⟨hnone, rfl⟩ := registerAttempt_eq_ok hop
      exact .registered hnone
  | rename created attemptId =>
      obtain ⟨renamed, hop, rfl⟩ := Operation.map_eq_ok.1 h
      rcases renameAttempt_eq_ok hop with ⟨rfl, rfl⟩ | ⟨rfl, rfl⟩
      · exact .kept
      · exact .renamed
  | exchange args =>
      obtain ⟨session, hop, rfl⟩ := Operation.map_eq_ok.1 h
      obtain ⟨attempt, hexchanges, rfl, rfl⟩ := exchangeAttempt_eq_ok hop
      exact .exchanged hexchanges
  | peek authUserId sessionHash =>
      obtain ⟨session, hop, rfl⟩ := Operation.map_eq_ok.1 h
      obtain ⟨-, rfl⟩ := Prod.mk.inj hop
      exact .peeked
  | finalize args =>
      obtain ⟨connection, hop, rfl⟩ := Operation.map_eq_ok.1 h
      obtain ⟨attempt, hfinalizes, hsaves, rfl⟩ := finalizeSetup_eq_ok hop
      exact .finalized hfinalizes hsaves

lemma setupStep_of_occurs {start : PeakSetupStore} {calls prior : List TimedSetupCall}
    {result : Except SetupError SetupAnswer}
    (h : Occurs (performSetup crypto vault) start calls prior timed result) :
    SetupStep (runAll (performSetup crypto vault) start prior) timed result
      (runAll (performSetup crypto vault) start (prior ++ [timed])) := by
  have hperform := h.perform_eq
  cases result with
  | ok answer => exact setupStep_of_eq_ok hperform
  | error e =>
      rw [performSetup_eq_error hperform]
      exact .raised

/-! ## What happens to the sessions -/

/-- The session is as it was, or it has been consumed since. -/
def PeakSetupSession.Continues (session later : PeakSetupSession) : Prop :=
  later = session ∨ session.consumedAt = none ∧ ∃ now, later = session.consume now

namespace PeakSetupSession.Continues

variable {session later : PeakSetupSession}

lemma setupAttemptId_eq (h : session.Continues later) :
    later.setupAttemptId = session.setupAttemptId := by
  rcases h with rfl | ⟨-, now, rfl⟩ <;> rfl

/-- A session that has not been consumed is as it was. -/
lemma eq_of_unconsumed (h : session.Continues later) (hlater : later.consumedAt = none) :
    later = session := by
  rcases h with rfl | ⟨-, now, rfl⟩
  · rfl
  · cases hlater

/-- A session that was consumed is as it was. -/
lemma eq_of_consumed (h : session.Continues later) (hconsumed : session.consumedAt ≠ none) :
    later = session := by
  rcases h with rfl | ⟨hnone, -⟩
  · rfl
  · exact absurd hnone hconsumed

lemma trans {last : PeakSetupSession} (h : session.Continues later) (h' : later.Continues last) :
    session.Continues last := by
  by_cases hlater : later.consumedAt = none
  · rw [h.eq_of_unconsumed hlater] at h'
    exact h'
  · rw [h'.eq_of_consumed hlater]
    exact h

end PeakSetupSession.Continues

/-- Where every stored session goes. -/
def KeepsSessions (s s' : PeakSetupStore) : Prop :=
  ∀ id session, s.sessions.get id = some session →
    ∃ later, s'.sessions.get id = some later ∧ session.Continues later

lemma KeepsSessions.of_eq (h : s'.sessions = s.sessions) : KeepsSessions s s' :=
  fun _ session hfound => ⟨session, h ▸ hfound, .inl rfl⟩

/-- A session under an identifier that none has yet. -/
lemma keepsSessions_setSession {sessionId : UUID} (hfresh : s.sessions.get sessionId = none) :
    KeepsSessions s (s.setSession sessionId session) := by
  intro id other hfound
  have hne : id ≠ sessionId := by
    rintro rfl
    rw [hfresh] at hfound
    cases hfound
  exact ⟨other, (Dict.get_set_of_ne _ _ hne).trans hfound, .inl rfl⟩

lemma keepsSessions_finalized (h : FinalizesSetup s args now attempt) :
    KeepsSessions s (s.finalized args attempt connection now) := by
  intro id other hfound
  by_cases hid : id = args.session.id
  · subst hid
    rw [h.storedSession] at hfound
    cases hfound
    exact ⟨_, Dict.get_set_self _ _ _, .inr ⟨h.unconsumed, now, rfl⟩⟩
  · exact ⟨other, (Dict.get_set_of_ne _ _ hid).trans hfound, .inl rfl⟩

/-! ## Runs -/

section

variable (crypto : Crypto) (vault : CredentialVault) (start : PeakSetupStore)
  (calls : List TimedSetupCall)

/-- The calls are those of threads that call the setup store: identifiers of sessions are fresh,
and an attempt is stored under its own identifier by the thread that has registered it. -/
structure Interleaves : Prop where
  fresh : ∀ prior args clock, prior ++ [(.exchange args, clock)] <+: calls →
    (runAll (performSetup crypto vault) start prior).sessions.get args.sessionId = none
  renames : ∀ prior created attemptId clock,
    prior ++ [(.rename created attemptId, clock)] <+: calls →
      ∃ before args fresh clock', Occurs (performSetup crypto vault) start prior before
        (.register args fresh, clock') (.ok (.attempt created))

/-- No attempt has been exchanged when `create_attempt` stores it under its own identifier. -/
def RenamesUnexchanged : Prop :=
  ∀ prior created attemptId clock, prior ++ [(.rename created attemptId, clock)] <+: calls →
    created.id = attemptId ∨
      ∀ session ∈ (runAll (performSetup crypto vault) start prior).sessions.values,
        session.setupAttemptId ≠ created.id

/-- The identifiers of the attempt that is stored under `id` after the calls of `prior`: those that
it has had by the later point, the last of which it is stored under. -/
inductive Identifies (prior : List TimedSetupCall) (id : UUID) : List TimedSetupCall → UUID → Prop
  | stored : Identifies prior id prior id
  | kept {later : List TimedSetupCall} {other : UUID} (timed : TimedSetupCall)
      (h : Identifies prior id later other) : Identifies prior id (later ++ [timed]) other
  | renamed {later : List TimedSetupCall} {created : SetupAttempt} {attemptId : UUID}
      {clock : Nat → Instant} (h : Identifies prior id later created.id)
      (hrename : (renameAttempt created attemptId
        (runAll (performSetup crypto vault) start later)).1 =
          .ok { created with id := attemptId }) :
      Identifies prior id (later ++ [(.rename created attemptId, clock)]) attemptId

/-- The finalization was in time, with both hashes, and for the account holder of the attempt that
the session was exchanged for. -/
structure Authorized (prior : List TimedSetupCall) (args : FinalizeArguments) (now : Instant)
    (connection : Connection) : Prop where
  live : now < args.session.expiresAt
  sessionHash : args.sessionHash = args.session.sessionHash
  csrfHash : args.csrfHash = args.session.csrfHash
  peak : connection.provider = .peak
  issued : ∃ before exchange clock attempt,
    Occurs (performSetup crypto vault) start prior before (.exchange exchange, clock)
        (.ok (.session args.session)) ∧
      attempt ∈ (runAll (performSetup crypto vault) start before).attempts.values ∧
      args.session = attempt.session exchange (clock 0) ∧ connection.toScope = attempt.toScope

end

/-- A connection is written. -/
def WritesConnection (s s' : PeakSetupStore) : Prop :=
  s'.connectionStore.connections ≠ s.connectionStore.connections

/-- The session is marked consumed. -/
def MarksSession (s s' : PeakSetupStore) (id : UUID) : Prop :=
  (∃ session, s.sessions.get id = some session ∧ session.consumedAt = none) ∧
    ∃ session, s'.sessions.get id = some session ∧ session.consumedAt ≠ none

/-- The attempt is marked consumed. -/
def MarksAttempt (s s' : PeakSetupStore) (id : UUID) : Prop :=
  (∃ attempt, s.attempts.get id = some attempt ∧ attempt.consumedAt = none) ∧
    ∃ attempt, s'.attempts.get id = some attempt ∧ attempt.consumedAt ≠ none

/-- Nothing is written and nothing is marked. -/
structure ConsumesNothing (s s' : PeakSetupStore) : Prop where
  connections : ¬ WritesConnection s s'
  sessions : ∀ id, ¬ MarksSession s s' id
  attempts : ∀ id, ¬ MarksAttempt s s' id

/-- A connection is written, and exactly the session and its attempt are marked. -/
structure ConsumesSetup (s s' : PeakSetupStore) (session : PeakSetupSession) : Prop where
  connection : WritesConnection s s'
  sessions : ∀ id, MarksSession s s' id ↔ id = session.id
  attempts : ∀ id, MarksAttempt s s' id ↔ id = session.setupAttemptId

namespace ConsumesNothing

lemma refl (s : PeakSetupStore) : ConsumesNothing s s where
  connections := fun h => h rfl
  sessions := by
    rintro id ⟨⟨session, hfound, hnone⟩, later, hlater, hconsumed⟩
    rw [hfound] at hlater
    cases hlater
    exact hconsumed hnone
  attempts := by
    rintro id ⟨⟨attempt, hfound, hnone⟩, later, hlater, hconsumed⟩
    rw [hfound] at hlater
    cases hlater
    exact hconsumed hnone

/-- Only attempts are set or removed, and those that are set are not consumed. -/
lemma of_attempts (hconnections : s'.connectionStore = s.connectionStore)
    (hsessions : s'.sessions = s.sessions)
    (hattempts : ∀ id attempt, s'.attempts.get id = some attempt → s.attempts.get id = some attempt ∨
      attempt.consumedAt = none) : ConsumesNothing s s' where
  connections := fun h => h (by rw [hconnections])
  sessions := by
    intro id h
    apply (refl s).sessions id
    obtain ⟨hbefore, later, hlater, hconsumed⟩ := h
    exact ⟨hbefore, later, hsessions ▸ hlater, hconsumed⟩
  attempts := by
    rintro id ⟨hbefore, later, hlater, hconsumed⟩
    rcases hattempts id later hlater with hfound | hnone
    · exact (refl s).attempts id ⟨hbefore, later, hfound, hconsumed⟩
    · exact hconsumed hnone

lemma register {created : SetupAttempt} (hnone : created.consumedAt = none) :
    ConsumesNothing s (s.setAttempt created.id created) := by
  refine of_attempts rfl rfl fun id attempt hfound => ?_
  change (s.attempts.set created.id created).get id = some attempt at hfound
  by_cases hid : id = created.id
  · rw [hid, Dict.get_set_self] at hfound
    cases hfound
    exact .inr hnone
  · rw [Dict.get_set_of_ne _ _ hid] at hfound
    exact .inl hfound

lemma rename {renamed : SetupAttempt} {createdId attemptId : UUID}
    (hnone : renamed.consumedAt = none) :
    ConsumesNothing s ((s.removeAttempt createdId).setAttempt attemptId renamed) := by
  refine of_attempts rfl rfl fun id attempt hfound => ?_
  change ((s.attempts.remove createdId).set attemptId renamed).get id = some attempt at hfound
  by_cases hid : id = attemptId
  · rw [hid, Dict.get_set_self] at hfound
    cases hfound
    exact .inr hnone
  · rw [Dict.get_set_of_ne _ _ hid, Dict.get_remove] at hfound
    split at hfound
    · cases hfound
    · exact .inl hfound

lemma exchange {sessionId : UUID} {session : PeakSetupSession}
    (hfresh : s.sessions.get sessionId = none) :
    ConsumesNothing s (s.setSession sessionId session) := by
  refine ⟨fun h => h rfl, ?_, (refl s).attempts⟩
  rintro id ⟨⟨other, hfound, hnone⟩, later, hlater, hconsumed⟩
  have hne : id ≠ sessionId := by
    rintro rfl
    rw [hfresh] at hfound
    cases hfound
  have hkept := (Dict.get_set_of_ne s.sessions session hne).symm.trans hlater
  exact (refl s).sessions id ⟨⟨other, hfound, hnone⟩, later, hkept, hconsumed⟩

end ConsumesNothing

/-- The saved connection has a revision that no stored one has under its identifier. -/
lemma Saves.connections_ne {t : Store} {connectionId : UUID} {args : ConnectionArguments}
    (h : Saves t connectionId args connection) (envelopes : List CredentialEnvelope) :
    (t.save connectionId connection envelopes).connections ≠ t.connections := by
  intro heq
  have hsaved : (t.save connectionId connection envelopes).connections.get connectionId =
      some connection := Dict.get_set_self _ _ _
  rw [heq] at hsaved
  rcases h.account with ⟨hnone, -⟩ | ⟨current, hcurrent, -, hrevision⟩
  · rw [hnone] at hsaved
    cases hsaved
  · rw [hcurrent] at hsaved
    cases hsaved
    omega

lemma FinalizesSetup.consumes (h : FinalizesSetup s args now attempt)
    (hsaves : Saves s.connectionStore args.connection.id
      (args.connection.arguments args.envelopes) connection) :
    ConsumesSetup s (s.finalized args attempt connection now) args.session where
  connection := hsaves.connections_ne _
  sessions := by
    intro id
    constructor
    · rintro ⟨hbefore, later, hlater, hconsumed⟩
      by_contra hid
      have hkept := (Dict.get_set_of_ne s.sessions (args.session.consume now) hid).symm.trans hlater
      exact (ConsumesNothing.refl s).sessions id ⟨hbefore, later, hkept, hconsumed⟩
    · rintro rfl
      exact ⟨⟨_, h.storedSession, h.unconsumed⟩, _, Dict.get_set_self _ _ _, nofun⟩
  attempts := by
    intro id
    rw [h.attemptId]
    constructor
    · rintro ⟨hbefore, later, hlater, hconsumed⟩
      by_contra hid
      have hkept := (Dict.get_set_of_ne s.attempts (attempt.consume now) hid).symm.trans hlater
      exact (ConsumesNothing.refl s).attempts id ⟨hbefore, later, hkept, hconsumed⟩
    · rintro rfl
      refine ⟨⟨attempt, ?_, h.attemptUnconsumed⟩, _, Dict.get_set_self _ _ _, nofun⟩
      rw [← h.attemptId]
      exact h.storedAttempt

/-! ### What a call keeps -/

namespace SetupStep

variable {timed : TimedSetupCall} {result : Except SetupError SetupAnswer}

lemma keepsSessions (h : SetupStep s timed result s')
    (hfresh : ∀ args clock, timed = (.exchange args, clock) →
      s.sessions.get args.sessionId = none) : KeepsSessions s s' := by
  cases h with
  | exchanged _ => exact keepsSessions_setSession (hfresh _ _ rfl)
  | finalized hfinalizes _ => exact keepsSessions_finalized hfinalizes
  | _ => exact .of_eq rfl

/-- Calls other than finalizations. -/
lemma consumesNothing (h : SetupStep s timed result s')
    (hfresh : ∀ args clock, timed = (.exchange args, clock) →
      s.sessions.get args.sessionId = none)
    (hrename : ∀ created attemptId clock, timed = (.rename created attemptId, clock) →
      created.consumedAt = none)
    (hother : ∀ args clock, timed ≠ (.finalize args, clock)) : ConsumesNothing s s' := by
  cases h with
  | registered hnone => exact .register hnone
  | @renamed created attemptId clock => exact .rename (hrename created attemptId clock rfl)
  | exchanged _ => exact .exchange (hfresh _ _ rfl)
  | finalized _ _ => exact absurd rfl (hother _ _)
  | _ => exact .refl _

/-- A session that was not stored before the call has been exchanged by it. -/
lemma exchanged_of_new (h : SetupStep s timed result s') {id : UUID} {session : PeakSetupSession}
    (hnone : s.sessions.get id = none) (hfound : s'.sessions.get id = some session) :
    ∃ args clock attempt, timed = (.exchange args, clock) ∧ result = .ok (.session session) ∧
      attempt ∈ s.attempts.values ∧ session = attempt.session args (clock 0) := by
  cases h with
  | @exchanged args clock attempt hexchanges =>
      change (s.sessions.set args.sessionId _).get id = some session at hfound
      rw [Dict.get_set, hnone] at hfound
      split at hfound
      · cases hfound
        exact ⟨args, clock, attempt, rfl, rfl, hexchanges.stored, rfl⟩
      · cases hfound
  | @finalized args clock attempt connection hfinalizes _ =>
      change (s.sessions.set args.session.id _).get id = some session at hfound
      rw [Dict.get_set] at hfound
      split at hfound
      next hid =>
        rw [hid, hfinalizes.storedSession] at hnone
        cases hnone
      · rw [hnone] at hfound
        cases hfound
  | _ =>
      -- the sessions are the same
      cases hnone.symm.trans hfound

end SetupStep

/-! ### What a run keeps -/

section

variable {start : PeakSetupStore} {calls prior : List TimedSetupCall} {timed : TimedSetupCall}

lemma exists_setupStep (crypto : Crypto) (vault : CredentialVault) (start : PeakSetupStore)
    (hinitial : prior ++ [timed] <+: calls) :
    ∃ result, Occurs (performSetup crypto vault) start calls prior timed result ∧
      SetupStep (runAll (performSetup crypto vault) start prior) timed result
        (runAll (performSetup crypto vault) start (prior ++ [timed])) :=
  ⟨_, occurs_of_initial hinitial, setupStep_of_occurs (occurs_of_initial hinitial)⟩

namespace Interleaves

lemma nil : Interleaves crypto vault start [] where
  fresh := fun _ _ _ h => absurd h (by simp)
  renames := fun _ _ _ _ h => absurd h (by simp)

/-- One call more. -/
lemma concat (h : Interleaves crypto vault start calls)
    (hfresh : ∀ args clock, timed = (.exchange args, clock) →
      (runAll (performSetup crypto vault) start calls).sessions.get args.sessionId = none)
    (hrenames : ∀ created attemptId clock, timed = (.rename created attemptId, clock) →
      ∃ before args fresh clock', Occurs (performSetup crypto vault) start calls before
        (.register args fresh, clock') (.ok (.attempt created))) :
    Interleaves crypto vault start (calls ++ [timed]) where
  fresh := by
    intro prior args clock hinitial
    rcases prefix_concat_cases hinitial with hbefore | ⟨rfl, rfl⟩
    · exact h.fresh prior args clock hbefore
    · exact hfresh args clock rfl
  renames := by
    intro prior created attemptId clock hinitial
    rcases prefix_concat_cases hinitial with hbefore | ⟨rfl, rfl⟩
    · exact h.renames prior created attemptId clock hbefore
    · exact hrenames created attemptId clock rfl

lemma fresh_of_exchange (h : Interleaves crypto vault start calls)
    (hinitial : prior ++ [timed] <+: calls) :
    ∀ args clock, timed = (.exchange args, clock) →
      (runAll (performSetup crypto vault) start prior).sessions.get args.sessionId = none := by
  rintro args clock rfl
  exact h.fresh prior args clock hinitial

/-- An attempt that is stored under its own identifier has just been registered. -/
lemma consumedAt_of_rename (h : Interleaves crypto vault start calls)
    (hinitial : prior ++ [timed] <+: calls) :
    ∀ created attemptId clock, timed = (.rename created attemptId, clock) →
      created.consumedAt = none := by
  rintro created attemptId clock rfl
  obtain ⟨before, args, fresh, clock', hoccurs⟩ := h.renames prior created attemptId clock hinitial
  have hperform := hoccurs.perform_eq
  obtain ⟨registered, hop, heq⟩ := Operation.map_eq_ok.1 hperform
  cases heq
  exact (registerAttempt_eq_ok hop).1

lemma keepsSessions (h : Interleaves crypto vault start calls) (hinitial : prior ++ [timed] <+: calls) :
    KeepsSessions (runAll (performSetup crypto vault) start prior)
      (runAll (performSetup crypto vault) start (prior ++ [timed])) := by
  obtain ⟨result, -, hstep⟩ := exists_setupStep crypto vault start hinitial
  exact hstep.keepsSessions (h.fresh_of_exchange hinitial)

end Interleaves

/-- The session was returned by an earlier exchange. -/
def Issued (crypto : Crypto) (vault : CredentialVault) (start : PeakSetupStore)
    (prior : List TimedSetupCall) (session : PeakSetupSession) : Prop :=
  ∃ before exchange clock attempt,
    Occurs (performSetup crypto vault) start prior before (.exchange exchange, clock)
        (.ok (.session session)) ∧
      attempt ∈ (runAll (performSetup crypto vault) start before).attempts.values ∧
      session = attempt.session exchange (clock 0)

variable {session : PeakSetupSession}

lemma Issued.mono {later : List TimedSetupCall} (h : Issued crypto vault start prior session)
    (hinitial : prior <+: later) : Issued crypto vault start later session := by
  obtain ⟨before, exchange, clock, attempt, hoccurs, hstored, hsession⟩ := h
  exact ⟨before, exchange, clock, attempt, hoccurs.mono hinitial, hstored, hsession⟩

/-- Every stored session has been issued, and possibly consumed since. -/
lemma Interleaves.issued (h : Interleaves crypto vault start calls) (hstart : start.sessions = [])
    (hinitial : prior <+: calls) {id : UUID}
    (hfound : (runAll (performSetup crypto vault) start prior).sessions.get id = some session) :
    ∃ issued, Issued crypto vault start prior issued ∧ issued.Continues session := by
  revert id session
  refine runAll_invariant (fun prior (s : PeakSetupStore) =>
    ∀ {id : UUID} {session : PeakSetupSession}, s.sessions.get id = some session →
      ∃ issued, Issued crypto vault start prior issued ∧ issued.Continues session) ?_ ?_ prior
    hinitial
  · intro id session hfound
    rw [hstart] at hfound
    cases hfound
  intro prior timed hinitial ih id session hfound
  rcases hbefore : (runAll (performSetup crypto vault) start prior).sessions.get id with _ | before
  · obtain ⟨result, hoccurs, hstep⟩ := exists_setupStep crypto vault start
      (List.prefix_rfl (l := prior ++ [timed]))
    obtain ⟨args, clock, attempt, rfl, rfl, hstored, hsession⟩ :=
      hstep.exchanged_of_new hbefore hfound
    exact ⟨session, ⟨prior, args, clock, attempt, hoccurs, hstored, hsession⟩, .inl rfl⟩
  · obtain ⟨later, hlater, hcontinues⟩ := h.keepsSessions hinitial id before hbefore
    rw [hfound] at hlater
    cases hlater
    obtain ⟨issued, hissued, hcontinued⟩ := ih hbefore
    exact ⟨issued, hissued.mono (List.prefix_append _ _), hcontinued.trans hcontinues⟩

end

/-! ## Single use -/

/-- What a run makes of the attempts and the sessions. -/
structure SingleUse (crypto : Crypto) (vault : CredentialVault) (start : PeakSetupStore)
    (calls : List TimedSetupCall) : Prop where
  /-- An attempt is exchanged for at most one session, by whichever of its identifiers. -/
  exchangedOnce : ∀ prior prior' args args' clock clock' session session',
    Occurs (performSetup crypto vault) start calls prior (.exchange args, clock)
        (.ok (.session session)) →
      Occurs (performSetup crypto vault) start calls prior' (.exchange args', clock')
        (.ok (.session session')) →
      Identifies crypto vault start prior session.setupAttemptId prior' session'.setupAttemptId →
      prior = prior'
  /-- A session is finalized at most once. -/
  finalizedOnce : ∀ prior prior' args args' clock clock' connection connection',
    Occurs (performSetup crypto vault) start calls prior (.finalize args, clock)
        (.ok (.connection connection)) →
      Occurs (performSetup crypto vault) start calls prior' (.finalize args', clock')
        (.ok (.connection connection')) →
      args.session.id = args'.session.id → prior = prior'
  authorized : ∀ prior args clock connection,
    Occurs (performSetup crypto vault) start calls prior (.finalize args, clock)
        (.ok (.connection connection)) →
      Authorized crypto vault start prior args (clock 0) connection
  /-- A finalization that returns writes the connection and consumes the session and the attempt. -/
  consumes : ∀ prior args clock connection,
    Occurs (performSetup crypto vault) start calls prior (.finalize args, clock)
        (.ok (.connection connection)) →
      ConsumesSetup (runAll (performSetup crypto vault) start prior)
        (runAll (performSetup crypto vault) start (prior ++ [(.finalize args, clock)])) args.session
  /-- One that raises changes nothing. -/
  unchanged : ∀ prior args clock e,
    Occurs (performSetup crypto vault) start calls prior (.finalize args, clock) (.error e) →
      runAll (performSetup crypto vault) start (prior ++ [(.finalize args, clock)]) =
        runAll (performSetup crypto vault) start prior
  /-- No other call writes a connection or consumes anything. -/
  others : ∀ prior timed, prior ++ [timed] <+: calls → (∀ args clock, timed ≠ (.finalize args, clock)) →
    ConsumesNothing (runAll (performSetup crypto vault) start prior)
      (runAll (performSetup crypto vault) start (prior ++ [timed]))

section

variable {start : PeakSetupStore} {calls prior prior' : List TimedSetupCall}

variable {args : FinalizeArguments} {clock clock' : Nat → Instant} {connection : Connection}

/-- Once an attempt is exchanged, it has a session under each of its identifiers. -/
lemma Identifies.exchanged (h : Interleaves crypto vault start calls)
    (hrenames : RenamesUnexchanged crypto vault start calls) {args : ExchangeArguments}
    {session : PeakSetupSession} (hoccurs : Occurs (performSetup crypto vault) start calls prior
      (.exchange args, clock) (.ok (.session session))) {other : UUID}
    (hidentifies : Identifies crypto vault start prior session.setupAttemptId prior' other)
    (hinitial : prior' <+: calls) : prior' = prior ∧ other = session.setupAttemptId ∨
      ∃ id stored, (runAll (performSetup crypto vault) start prior').sessions.get id =
        some stored ∧ stored.setupAttemptId = other := by
  have hnext : ∀ {timed : TimedSetupCall}, prior ++ [timed] <+: calls →
      timed = (.exchange args, clock) := fun htimed =>
    List.singleton_inj.1 (List.append_cancel_left
      ((List.prefix_of_prefix_length_le htimed hoccurs.1 (by simp)).eq_of_length (by simp)))
  induction hidentifies with
  | stored => exact .inl ⟨rfl, rfl⟩
  | @kept later other timed _ ih =>
      right
      rcases ih ((List.prefix_append _ _).trans hinitial) with ⟨rfl, rfl⟩ | ⟨id, stored, hstored, hid⟩
      · obtain rfl := hnext hinitial
        obtain ⟨found, hop, hfound⟩ := Operation.map_eq_ok.1 hoccurs.perform_eq
        cases hfound
        obtain ⟨attempt, -, -, hset⟩ := exchangeAttempt_eq_ok hop
        rw [hset]
        exact ⟨args.sessionId, session, Dict.get_set_self _ _ _, rfl⟩
      · obtain ⟨later, hlater, hcontinues⟩ := h.keepsSessions hinitial id stored hstored
        exact ⟨id, later, hlater, hcontinues.setupAttemptId_eq.trans hid⟩
  | @renamed later created attemptId clock' _ _ ih =>
      right
      rcases ih ((List.prefix_append _ _).trans hinitial) with ⟨rfl, -⟩ | ⟨id, stored, hstored, hid⟩
      · cases hnext hinitial
      · rcases hrenames later created attemptId clock' hinitial with heq | hnone
        · obtain ⟨later', hlater, hcontinues⟩ := h.keepsSessions hinitial id stored hstored
          exact ⟨id, later', hlater, hcontinues.setupAttemptId_eq.trans (hid.trans heq)⟩
        · exact absurd hid (hnone stored (Dict.mem_values_of_get hstored))

/-- Once an attempt has a session, no exchange is for it. -/
lemma exchangedOnce (h : Interleaves crypto vault start calls)
    (hrenames : RenamesUnexchanged crypto vault start calls) {args args' : ExchangeArguments}
    {session session' : PeakSetupSession}
    (hoccurs : Occurs (performSetup crypto vault) start calls prior (.exchange args, clock)
      (.ok (.session session)))
    (hoccurs' : Occurs (performSetup crypto vault) start calls prior' (.exchange args', clock')
      (.ok (.session session')))
    (hidentifies : Identifies crypto vault start prior session.setupAttemptId prior'
      session'.setupAttemptId) : prior = prior' := by
  rcases hidentifies.exchanged h hrenames hoccurs ((List.prefix_append _ _).trans hoccurs'.1) with
    ⟨heq, -⟩ | ⟨id, stored, hstored, hid⟩
  · exact heq.symm
  · obtain ⟨found, hop, hfound⟩ := Operation.map_eq_ok.1 hoccurs'.perform_eq
    cases hfound
    obtain ⟨attempt, hexchanges, rfl, -⟩ := exchangeAttempt_eq_ok hop
    exact absurd hid (hexchanges.unexchanged stored (Dict.mem_values_of_get hstored))

/-- Once a session is consumed, no finalization is for it. -/
lemma finalizedOnce (h : Interleaves crypto vault start calls) {args' : FinalizeArguments}
    {connection' : Connection}
    (hoccurs : Occurs (performSetup crypto vault) start calls prior (.finalize args, clock)
      (.ok (.connection connection)))
    (hoccurs' : Occurs (performSetup crypto vault) start calls prior' (.finalize args', clock')
      (.ok (.connection connection')))
      (heq : args.session.id = args'.session.id) : prior = prior' := by
  refine occurs_unique (fun s => ∃ stored, s.sessions.get args.session.id = some stored ∧
      stored.consumedAt ≠ none)
    (fun timed result => ∃ other clock connection, timed = (.finalize other, clock) ∧
      result = .ok (.connection connection) ∧ other.session.id = args.session.id)
    ?_ ?_ ?_ hoccurs ⟨args, clock, connection, rfl, rfl, rfl⟩ hoccurs'
    ⟨args', clock', connection', rfl, rfl, heq.symm⟩
  · rintro prior _ _ hfinalize ⟨other, clock, connection, rfl, rfl, hid⟩
    obtain ⟨found, hop, -⟩ := Operation.map_eq_ok.1 hfinalize.perform_eq
    obtain ⟨attempt, -, -, hset⟩ := finalizeSetup_eq_ok hop
    rw [hset, ← hid]
    exact ⟨_, Dict.get_set_self _ _ _, nofun⟩
  · rintro prior timed hinitial ⟨stored, hstored, hconsumed⟩
    obtain ⟨later, hlater, hcontinues⟩ := h.keepsSessions hinitial _ stored hstored
    rw [hcontinues.eq_of_consumed hconsumed] at hlater
    exact ⟨stored, hlater, hconsumed⟩
  · rintro prior _ _ hfinalize ⟨other, clock, connection, rfl, rfl, hid⟩ ⟨stored, hstored, hconsumed⟩
    obtain ⟨found, hop, -⟩ := Operation.map_eq_ok.1 hfinalize.perform_eq
    obtain ⟨attempt, hfinalizes, -, -⟩ := finalizeSetup_eq_ok hop
    rw [← hid, hfinalizes.storedSession] at hstored
    cases hstored
    exact hconsumed hfinalizes.unconsumed

/-- The saved connection is that of the account holder whom the arguments name. -/
lemma Saves.scope_arguments {t : Store} {record : ConnectionRecord}
    {envelopes : List CredentialEnvelope}
    (h : Saves t record.id (record.arguments envelopes) connection) :
    connection.toScope = record.toScope := by
  obtain ⟨provider, hprovider, hscope⟩ := h.scope
  have hvalue : ProviderId.ofValue? record.provider.value = some record.provider := by
    cases record.provider <;> rfl
  change ProviderId.ofValue? record.provider.value = some provider at hprovider
  rw [hvalue] at hprovider
  cases hprovider
  exact hscope

lemma Interleaves.authorized (h : Interleaves crypto vault start calls) (hstart : start.sessions = [])
    (hoccurs : Occurs (performSetup crypto vault) start calls prior (.finalize args, clock)
      (.ok (.connection connection))) :
    Authorized crypto vault start prior args (clock 0) connection := by
  obtain ⟨found, hop, hfound⟩ := Operation.map_eq_ok.1 hoccurs.perform_eq
  cases hfound
  obtain ⟨attempt, hfinalizes, hsaves, -⟩ := finalizeSetup_eq_ok hop
  have hinitial : prior <+: calls := (List.prefix_append _ _).trans hoccurs.1
  obtain ⟨issued, ⟨before, exchange, clock', source, hexchange, hstored, hissued⟩, hcontinues⟩ :=
    h.issued hstart hinitial hfinalizes.storedSession
  have hsession : args.session = issued := hcontinues.eq_of_unconsumed hfinalizes.unconsumed
  have hscope : connection.toScope = args.session.toScope :=
    (hsaves.scope_arguments.trans hfinalizes.scope.symm).trans hfinalizes.attemptScope.symm
  have hpeak : connection.provider = args.connection.provider :=
    congrArg Scope.provider hsaves.scope_arguments
  refine ⟨hfinalizes.live, hfinalizes.sessionHash.symm, hfinalizes.csrfHash.symm,
    hpeak.trans hfinalizes.peak, before, exchange, clock', source, hsession ▸ hexchange, hstored,
    hsession.trans hissued, ?_⟩
  rw [hscope, hsession, hissued]
  rfl

end

end

/-- Every interleaving of the calls uses every attempt and every session at most once, where no
attempt is exchanged before it is stored under its own identifier. -/
theorem run_singleUse (crypto : Crypto) (vault : CredentialVault) (start : PeakSetupStore)
    (hstart : start.sessions = []) (calls : List TimedSetupCall)
    (h : Interleaves crypto vault start calls)
    (hrenames : RenamesUnexchanged crypto vault start calls) :
    SingleUse crypto vault start calls where
  exchangedOnce := fun _ _ _ _ _ _ _ _ hoccurs hoccurs' => exchangedOnce h hrenames hoccurs hoccurs'
  finalizedOnce := fun _ _ _ _ _ _ _ _ hoccurs hoccurs' => finalizedOnce h hoccurs hoccurs'
  authorized := fun _ _ _ _ hoccurs => h.authorized hstart hoccurs
  consumes := by
    intro prior args clock connection hoccurs
    obtain ⟨found, hop, -⟩ := Operation.map_eq_ok.1 hoccurs.perform_eq
    obtain ⟨attempt, hfinalizes, hsaves, hset⟩ := finalizeSetup_eq_ok hop
    rw [hset]
    exact hfinalizes.consumes hsaves
  unchanged := fun _ _ _ _ hoccurs => performSetup_eq_error hoccurs.perform_eq
  others := by
    intro prior timed hinitial hother
    obtain ⟨result, -, hstep⟩ := exists_setupStep crypto vault start hinitial
    exact hstep.consumesNothing (h.fresh_of_exchange hinitial) (h.consumedAt_of_rename hinitial) hother

/-! ### A setup of a connection -/

namespace Handoff

open Aead CompanyToken

/-- Sixty-four times the digit. -/
def hash (digit : Char) : String :=
  String.ofList (List.replicate 64 digit)

def arguments : SetupArguments := ⟨⟨1, 2, 3⟩, .peak, "sandbox", hash 'a', ⟨100, some 0⟩⟩

def created : SetupAttempt where
  toScope := ⟨⟨1, 2, 3⟩, .peak, "sandbox"⟩
  id := 7
  tokenHash := hash 'a'
  expiresAt := 100
  consumedAt := none
  createdAt := 10

def start : PeakSetupStore := ⟨Store.empty, [], []⟩

def renamed : SetupAttempt := { created with id := 8 }

def exchange : ExchangeArguments := ⟨9, 3, hash 'a', hash 'b', hash 'c'⟩

def earlyExchange : ExchangeArguments := ⟨6, 3, hash 'a', hash 'd', hash 'e'⟩

def register : TimedSetupCall := (.register arguments 7, fun _ => 10)

def rename : TimedSetupCall := (.rename created 8, fun _ => 10)

def exchanged : TimedSetupCall := (.exchange exchange, fun _ => 20)

/-- The attempt is exchanged under the identifier that it is registered with. -/
def early : TimedSetupCall := (.exchange earlyExchange, fun _ => 15)

/-- The secret that the user enters, and its envelope. -/
def binding : CredentialBinding :=
  { first with provider := "peak", credentialType := "peak", identifiers := by decide }

def sealing : Crypto :=
  { crypto with cipher := listed tagged [oldVault.encryption (draws 1) binding token] }

def envelope : CredentialEnvelope :=
  oldVault.sealedEnvelope sealing (draws 1) binding
    (tagged (oldVault.encryption (draws 1) binding token)) 5 0 none

def connection : ConnectionRecord where
  toScope := ⟨⟨1, 2, 3⟩, .peak, "sandbox"⟩
  providerAccountId := "a"
  id := 4
  accountDisplayName := "A"
  authorizationMethod := .providerCredentials
  grantedPermissions := ["r"]
  readiness := .ready
  revision := 1
  lastValidatedAt := some 10
  credentialEnvelopeIds := [5]
  providerRevocationRequired := false
  disconnectedAt := none
  createdAt := 30
  updatedAt := 30

def finalization : FinalizeArguments :=
  ⟨renamed.session exchange 20, hash 'b', hash 'c', connection, [envelope]⟩

def finalize : TimedSetupCall := (.finalize finalization, fun _ => 30)

/-- The attempt is registered, stored under its own identifier and exchanged, and the session is
finalized, and then finalized again. -/
def calls : List TimedSetupCall :=
  [register, rename, exchanged, finalize, finalize]

/-- The attempt is exchanged before and after it is stored under its own identifier. -/
def exchangedTwice : List TimedSetupCall :=
  [register, early, rename, exchanged]

lemma interleaves_register : Interleaves sealing oldVault start [register] :=
  Interleaves.nil.concat nofun nofun

lemma occurs_register {rest : List TimedSetupCall} :
    Occurs (performSetup sealing oldVault) start (register :: rest) [] register
      (.ok (.attempt created)) :=
  ⟨⟨rest, rfl⟩, by decide +kernel⟩

lemma interleaves_calls : Interleaves sealing oldVault start calls := by
  have hrename : Interleaves sealing oldVault start [register, rename] := by
    refine interleaves_register.concat nofun ?_
    rintro _ _ _ ⟨⟩
    exact ⟨[], arguments, 7, _, occurs_register⟩
  have hexchange : Interleaves sealing oldVault start [register, rename, exchanged] := by
    refine hrename.concat ?_ nofun
    rintro _ _ ⟨⟩
    decide +kernel
  have hfinalize : Interleaves sealing oldVault start [register, rename, exchanged, finalize] :=
    hexchange.concat nofun nofun
  exact hfinalize.concat nofun nofun

lemma renamesUnexchanged_calls : RenamesUnexchanged sealing oldVault start calls := by
  rintro prior _ _ _ hinitial
  rcases prior with _ | ⟨first, _ | ⟨second, rest⟩⟩ <;>
    simp only [calls, register, rename, exchanged, finalize, List.nil_append, List.cons_append,
      List.cons_prefix_cons, Prod.mk.injEq, reduceCtorEq, false_and] at hinitial
  · obtain ⟨rfl, ⟨⟨rfl, rfl⟩, rfl⟩, -⟩ := hinitial
    exact .inr nofun
  · obtain ⟨-, -, hinitial⟩ := hinitial
    rcases rest with _ | ⟨third, _ | ⟨fourth, _ | ⟨fifth, rest⟩⟩⟩ <;> simp at hinitial

/-- The store once the session is exchanged. -/
def handedOver : PeakSetupStore :=
  ⟨Store.empty, [(8, renamed)], [(9, renamed.session exchange 20)]⟩

/-- The session is finalized the first time, and not the second time. -/
theorem singleUse_calls :
    (∃ saved, Occurs (performSetup sealing oldVault) start calls [register, rename, exchanged]
      finalize (.ok (.connection saved))) ∧
    ¬ ∃ saved, Occurs (performSetup sealing oldVault) start calls
      [register, rename, exchanged, finalize] finalize (.ok (.connection saved)) := by
  have hfirst : ∃ saved, Occurs (performSetup sealing oldVault) start calls
      [register, rename, exchanged] finalize (.ok (.connection saved)) := by
    have hrun : runAll (performSetup sealing oldVault) start [register, rename, exchanged] =
        handedOver := by
      decide +kernel
    have hattempt : handedOver.requireFinalizable finalization 30 = .ok renamed := by
      decide +kernel
    have hvalid : (renamed.consume 30).isValid = true := by decide +kernel
    have hsaves : (saveSetupConnection sealing oldVault finalization 30
        handedOver).1.toOption.isSome = true := by
      decide +kernel
    rcases hsave : saveSetupConnection sealing oldVault finalization 30 handedOver with
      ⟨e | saved, after⟩
    · rw [hsave] at hsaves
      cases hsaves
    · obtain ⟨final, hfinalize⟩ : ∃ final, finalizeSetup sealing oldVault finalization
          (fun _ => 30) handedOver = (.ok saved, final) :=
        exists_finalizeSetup_eq_ok hattempt hvalid hsave
      refine ⟨saved, ⟨[finalize], rfl⟩, ?_⟩
      rw [hrun]
      exact congrArg Prod.fst (Operation.map_eq_ok.2 ⟨saved, hfinalize, rfl⟩)
  refine ⟨hfirst, ?_⟩
  rintro ⟨saved', hsecond⟩
  obtain ⟨saved, hfirst⟩ := hfirst
  have heq := (run_singleUse sealing oldVault start rfl calls interleaves_calls
    renamesUnexchanged_calls).finalizedOnce _ _ _ _ _ _ _ _ hfirst hsecond rfl
  exact absurd (congrArg List.length heq) (by decide)

/-- One attempt has two sessions. -/
theorem not_singleUse_exchangedTwice : Interleaves sealing oldVault start exchangedTwice ∧
    ¬ SingleUse sealing oldVault start exchangedTwice := by
  have hearly : Interleaves sealing oldVault start [register, early] := by
    refine interleaves_register.concat ?_ nofun
    rintro _ _ ⟨⟩
    decide +kernel
  have hrename : Interleaves sealing oldVault start [register, early, rename] := by
    refine hearly.concat nofun ?_
    rintro _ _ _ ⟨⟩
    exact ⟨[], arguments, 7, _, occurs_register⟩
  constructor
  · refine hrename.concat ?_ nofun
    rintro _ _ ⟨⟩
    decide +kernel
  · intro hsingle
    have hkept : Identifies sealing oldVault start [register] 7 [register, early] created.id :=
      .kept early .stored
    have hidentifies : Identifies sealing oldVault start [register] 7 [register, early, rename] 8 :=
      .renamed hkept (by decide +kernel)
    have heq := hsingle.exchangedOnce [register] [register, early, rename] _ _ _ _
      (created.session earlyExchange 15) (renamed.session exchange 20) ⟨⟨_, rfl⟩, by decide +kernel⟩
      ⟨⟨_, rfl⟩, by decide +kernel⟩ hidentifies
    exact absurd (congrArg List.length heq) (by decide)

end Handoff

end MercuryTools.Providers
