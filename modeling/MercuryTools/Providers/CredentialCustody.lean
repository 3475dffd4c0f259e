import MercuryTools.Framework.Custody
import MercuryTools.Providers.StoreSteps

/-!
# Custody of provider credentials

Every envelope that the connection store holds belongs to one connection or to one OAuth attempt, and
every envelope that one of them lists is held.  The two kinds of owners keep their envelopes in maps
of their own; an envelope passes from a connection to the attempt that recovers it
(`fail_oauth_attempt`), and no other way.

The law is about operations that return and about envelopes with fresh identifiers: the identifier of
an envelope that is new to its owner has not been used before.
-/

namespace MercuryTools.Providers

open Checks Credentials Custody Hosted Operation

/-! ## Owners of envelopes -/

namespace Store

variable (s : Store)

/-- The envelopes that connections list. -/
abbrev connectionIds : UUID → List UUID :=
  listedBy (·.credentialEnvelopeIds) s.connections

/-- The envelopes that attempts list. -/
abbrev attemptIds : UUID → List UUID :=
  listedBy (·.credentialEnvelopeIds) s.oauthAttempts

/-- The envelope is the connection's own. -/
def FitsConnection (key id : UUID) (envelope : CredentialEnvelope) : Prop :=
  envelope.id = id ∧ envelope.connectionId = key ∧
    ∃ connection, s.connections.get key = some connection ∧
      connection.toScope.matchesEnvelope envelope = true

/-- The envelope is the attempt's own. -/
def FitsAttempt (key id : UUID) (envelope : CredentialEnvelope) : Prop :=
  envelope.id = id ∧ ∃ attempt, s.oauthAttempts.get key = some attempt ∧
    attempt.toScope.matchesEnvelope envelope = true

end Store

/-- The connections hold the envelopes of their map. -/
structure ConnectionCustody (s : Store) : Prop where
  held : Held s.connectionIds s.envelopes.get s.FitsConnection
  keys : ∀ key connection, s.connections.get key = some connection → connection.id = key
  accounts : ∀ key key' connection connection', s.connections.get key = some connection →
    s.connections.get key' = some connection' → connection.toAccount = connection'.toAccount →
      key = key'

/-- The attempts hold the envelopes of their map; an attempt holds some only with its material or
when it has failed, and it has no target before it is finalized. -/
structure AttemptCustody (s : Store) : Prop where
  held : Held s.attemptIds s.oauthAttemptEnvelopes.get s.FitsAttempt
  keys : ∀ key attempt, s.oauthAttempts.get key = some attempt → attempt.id = key
  idle : ∀ key attempt, s.oauthAttempts.get key = some attempt → attempt.status ≠ .materialAttached →
    attempt.status ≠ .failed → attempt.credentialEnvelopeIds = []
  target : ∀ key attempt targetId, s.oauthAttempts.get key = some attempt →
    attempt.targetConnectionId = some targetId → attempt.status ≠ .exchangePending ∧
      attempt.status ≠ .materialAttached

/-- What holds in the store at all times. -/
structure StoreInvariant (s : Store) : Prop where
  connections : ConnectionCustody s
  attempts : AttemptCustody s
  apart : ∀ id, s.envelopes.get id = none ∨ s.oauthAttemptEnvelopes.get id = none

/-! ### Entries of envelopes -/

section

variable {envelopes : List CredentialEnvelope}

lemma keys_envelopeEntries : (envelopeEntries envelopes).keys = envelopes.map (·.id) := by
  unfold envelopeEntries Dict.keys
  rw [List.map_map]
  rfl

variable {id : UUID}

lemma mem_envelopeEntries {envelope : CredentialEnvelope} :
    (id, envelope) ∈ envelopeEntries envelopes ↔ envelope ∈ envelopes ∧ envelope.id = id := by
  unfold envelopeEntries
  rw [List.mem_map]
  constructor
  · rintro ⟨found, hmem, heq⟩
    obtain ⟨hid, rfl⟩ := Prod.mk.inj heq
    exact ⟨hmem, hid⟩
  · rintro ⟨hmem, rfl⟩
    exact ⟨envelope, hmem, rfl⟩

lemma get_envelopeEntries_of_notMem (h : id ∉ envelopes.map (·.id)) :
    (envelopeEntries envelopes).get id = none :=
  Dict.get_eq_none.2 (keys_envelopeEntries.symm ▸ h)

lemma get_replaced (stored : Dict UUID CredentialEnvelope) (ids : List UUID)
    (h : (envelopes.map (·.id)).Nodup) (id : UUID) :
    ((stored.removeAll ids).setAll (envelopeEntries envelopes)).get id =
      ((envelopeEntries envelopes).get id).or (if id ∈ ids then none else stored.get id) := by
  rw [Dict.get_setAll _ (keys_envelopeEntries.symm ▸ h), Dict.get_removeAll]

end

variable {crypto : Crypto} {vault : CredentialVault} {s s' : Store}

/-! ## Connections -/

variable {key id connectionId attemptId : UUID} {envelope : CredentialEnvelope}
  {connection current : Connection} {attempt : OAuthAttempt}

lemma Store.FitsConnection.of_ne (hne : key ≠ connectionId)
    (hconnections : s'.connections = s.connections.set connectionId connection)
    (h : s.FitsConnection key id envelope) : s'.FitsConnection key id envelope := by
  obtain ⟨hid, hkey, found, hget, hmatches⟩ := h
  refine ⟨hid, hkey, found, ?_, hmatches⟩
  rw [hconnections, Dict.get_set_of_ne _ _ hne]
  exact hget

/-- A connection that is set where there was none of its account keeps the accounts apart. -/
lemma ConnectionCustody.accounts_set (h : ConnectionCustody s)
    (haccount : ∀ key other, key ≠ connectionId → s.connections.get key = some other →
      other.toAccount ≠ connection.toAccount) :
    ∀ key key' c c', (s.connections.set connectionId connection).get key = some c →
      (s.connections.set connectionId connection).get key' = some c' →
        c.toAccount = c'.toAccount → key = key' := by
  intro key key' c c' hc hc' heq
  rw [Dict.get_set] at hc hc'
  by_cases hk : key = connectionId
  · by_cases hk' : key' = connectionId
    · exact hk.trans hk'.symm
    · rw [if_pos hk] at hc
      rw [if_neg hk'] at hc'
      cases hc
      exact absurd heq.symm (haccount key' c' hk' hc')
  · rw [if_neg hk] at hc
    by_cases hk' : key' = connectionId
    · rw [if_pos hk'] at hc'
      cases hc'
      exact absurd heq (haccount key c hk hc)
    · rw [if_neg hk'] at hc'
      exact h.accounts key key' c c' hc hc' heq

lemma ConnectionCustody.keys_set (h : ConnectionCustody s) (hid : connection.id = connectionId) :
    ∀ key c, (s.connections.set connectionId connection).get key = some c → c.id = key := by
  intro key c hc
  rw [Dict.get_set] at hc
  by_cases hk : key = connectionId
  · rw [if_pos hk] at hc
    cases hc
    exact hid.trans hk.symm
  · rw [if_neg hk] at hc
    exact h.keys key c hc

/-- The others of a stored connection's account. -/
lemma ConnectionCustody.account_ne (h : ConnectionCustody s)
    (hfound : s.connections.get connectionId = some current) :
    ∀ key other, key ≠ connectionId → s.connections.get key = some other →
      other.toAccount ≠ current.toAccount :=
  fun key other hne hother heq => hne (h.accounts key connectionId other current hother hfound heq)

/-- The connection gives up its envelopes and takes others. -/
lemma ConnectionCustody.take (h : ConnectionCustody s) (connectionId : UUID)
    (connection : Connection) (envelopes : List CredentialEnvelope)
    (hconnections : s'.connections = s.connections.set connectionId connection)
    (henvelopes : s'.envelopes = (s.envelopes.removeAll (s.connectionIds connectionId)).setAll
      (envelopeEntries envelopes))
    (hid : connection.id = connectionId)
    (hids : connection.credentialEnvelopeIds = envelopes.map (·.id))
    (hbound : BoundEnvelopes connection.toScope connectionId envelopes)
    (hown : ∀ envelope ∈ envelopes, ∀ stored, s.envelopes.get envelope.id = some stored →
      stored.connectionId = connectionId)
    (haccount : ∀ key other, key ≠ connectionId → s.connections.get key = some other →
      other.toAccount ≠ connection.toAccount) :
    ConnectionCustody s' := by
  refine ⟨?_, ?_, ?_⟩
  · have hfresh : ∀ id ∈ (envelopeEntries envelopes).keys,
        id ∈ s.connectionIds connectionId ∨ s.envelopes.get id = none := by
      intro id hmem
      rw [keys_envelopeEntries, List.mem_map] at hmem
      obtain ⟨envelope, hmem, rfl⟩ := hmem
      cases hstored : s.envelopes.get envelope.id with
      | none => exact .inr rfl
      | some stored =>
          -- an envelope of this connection is listed by it
          obtain ⟨owner, hlisted⟩ := h.held.stored _ _ hstored
          obtain ⟨-, hkey, -⟩ := h.held.fits hlisted hstored
          rw [hown envelope hmem stored hstored] at hkey
          exact .inl (hkey ▸ hlisted)
    have hheld : Held (listedBy (·.credentialEnvelopeIds)
        (s.connections.set connectionId connection)) s'.envelopes.get s'.FitsConnection := by
      refine h.held.take (envelopeEntries envelopes) (hids.trans
        keys_envelopeEntries.symm) (keys_envelopeEntries.symm ▸ hbound.nodup) ?_ hfresh ?_ ?_
      · intro id
        rw [henvelopes, get_replaced _ _ hbound.nodup]
      · intro id envelope hentry
        obtain ⟨hmem, rfl⟩ := mem_envelopeEntries.1 hentry
        refine ⟨rfl, hbound.connectionId envelope hmem, connection, ?_, hbound.scope envelope hmem⟩
        rw [hconnections, Dict.get_set_self]
      · exact fun other id item hne hfits => Store.FitsConnection.of_ne hne hconnections hfits
    unfold Store.connectionIds
    rw [hconnections]
    exact hheld
  · rw [hconnections]
    exact h.keys_set hid
  · rw [hconnections]
    exact h.accounts_set haccount

/-- The record of a connection changes, but not its account or what it lists. -/
lemma ConnectionCustody.keep (h : ConnectionCustody s)
    (hfound : s.connections.get connectionId = some current)
    (hconnections : s'.connections = s.connections.set connectionId connection)
    (henvelopes : s'.envelopes = s.envelopes) (hid : connection.id = current.id)
    (haccount : connection.toAccount = current.toAccount)
    (hids : connection.credentialEnvelopeIds = current.credentialEnvelopeIds) :
    ConnectionCustody s' := by
  refine ⟨?_, ?_, ?_⟩
  · have hfits : ∀ key id envelope, s.FitsConnection key id envelope →
        s'.FitsConnection key id envelope := by
      intro key id envelope hfit
      by_cases hne : key = connectionId
      · obtain ⟨hid, hkey, found, hget, hmatches⟩ := hfit
        rw [hne, hfound] at hget
        cases hget
        refine ⟨hid, hkey, connection, ?_, ?_⟩
        · rw [hconnections, hne, Dict.get_set_self]
        · rw [haccount]
          exact hmatches
      · exact Store.FitsConnection.of_ne hne hconnections hfit
    have hlisted : s.connectionIds connectionId = current.credentialEnvelopeIds :=
      listedBy_of_get hfound
    have hheld := h.held.keep (hids.trans hlisted.symm) hfits
    unfold Store.connectionIds
    rw [hconnections, henvelopes]
    exact hheld
  · rw [hconnections]
    exact h.keys_set (hid.trans (h.keys _ _ hfound))
  · rw [hconnections]
    exact h.accounts_set (haccount ▸ h.account_ne hfound)

lemma ConnectionCustody.of_eq (h : ConnectionCustody s) (hconnections : s'.connections = s.connections)
    (henvelopes : s'.envelopes = s.envelopes) : ConnectionCustody s' := by
  have hfits : s'.FitsConnection = s.FitsConnection := by
    funext key id envelope
    rw [Store.FitsConnection, hconnections]
    rfl
  refine ⟨?_, hconnections ▸ h.keys, hconnections ▸ h.accounts⟩
  unfold Store.connectionIds
  rw [hconnections, henvelopes, hfits]
  exact h.held

lemma ConnectionCustody.save (h : ConnectionCustody s) {args : ConnectionArguments}
    (hsaves : Saves s connectionId args connection) :
    ConnectionCustody (s.save connectionId connection args.envelopes) := by
  refine h.take connectionId connection args.envelopes rfl rfl hsaves.id
    hsaves.ids hsaves.bound hsaves.own ?_
  rcases hsaves.account with ⟨-, hunused⟩ | ⟨current, hfound, haccount, -⟩
  · exact fun key other _ hother => hunused key other hother
  · exact haccount ▸ h.account_ne hfound

lemma ConnectionCustody.release (h : ConnectionCustody s) {required : Bool} {now : Instant}
    {disconnected : Connection}
    (hdisconnects : Disconnects s connectionId required now current disconnected) :
    ConnectionCustody (s.release connectionId current disconnected) := by
  have hfound := hdisconnects.found
  have haccount : disconnected.toAccount = current.toAccount := by
    rw [hdisconnects.record]
    rfl
  refine h.take connectionId disconnected [] rfl ?_
    ?_ ?_ ⟨.nil, nofun, nofun⟩ nofun ?_
  · rw [Store.connectionIds, listedBy_of_get hfound]
    rfl
  · rw [hdisconnects.record]
    exact h.keys _ _ hfound
  · rw [hdisconnects.record]
    rfl
  · exact haccount ▸ h.account_ne hfound

/-! ## Attempts -/

lemma Store.FitsAttempt.of_ne (hne : key ≠ attemptId)
    (hattempts : s'.oauthAttempts = s.oauthAttempts.set attemptId attempt)
    (h : s.FitsAttempt key id envelope) : s'.FitsAttempt key id envelope := by
  obtain ⟨hid, found, hget, hmatches⟩ := h
  refine ⟨hid, found, ?_, hmatches⟩
  rw [hattempts, Dict.get_set_of_ne _ _ hne]
  exact hget

/-- What an attempt has to satisfy to be set. -/
structure Settles (attemptId : UUID) (attempt : OAuthAttempt) : Prop where
  id : attempt.id = attemptId
  idle : attempt.status ≠ .materialAttached → attempt.status ≠ .failed →
    attempt.credentialEnvelopeIds = []
  target : ∀ targetId, attempt.targetConnectionId = some targetId →
    attempt.status ≠ .exchangePending ∧ attempt.status ≠ .materialAttached

/-- An attempt is set, whatever the envelopes. -/
lemma AttemptCustody.set (h : AttemptCustody s)
    (hattempts : s'.oauthAttempts = s.oauthAttempts.set attemptId attempt)
    (hsettles : Settles attemptId attempt)
    (hheld : Held (listedBy (·.credentialEnvelopeIds) (s.oauthAttempts.set attemptId attempt))
      s'.oauthAttemptEnvelopes.get s'.FitsAttempt) : AttemptCustody s' := by
  have hcases : ∀ key found, s'.oauthAttempts.get key = some found →
      key = attemptId ∧ found = attempt ∨ s.oauthAttempts.get key = some found := by
    intro key found hfound
    rw [hattempts, Dict.get_set] at hfound
    by_cases hk : key = attemptId
    · rw [if_pos hk] at hfound
      exact .inl ⟨hk, (Option.some.inj hfound).symm⟩
    · rw [if_neg hk] at hfound
      exact .inr hfound
  refine ⟨?_, fun key found hfound => ?_, fun key found hfound => ?_,
    fun key found targetId hfound => ?_⟩
  · unfold Store.attemptIds
    rw [hattempts]
    exact hheld
  · rcases hcases key found hfound with ⟨rfl, rfl⟩ | hold
    · exact hsettles.id
    · exact h.keys key found hold
  · rcases hcases key found hfound with ⟨-, rfl⟩ | hold
    · exact hsettles.idle
    · exact h.idle key found hold
  · rcases hcases key found hfound with ⟨-, rfl⟩ | hold
    · exact hsettles.target targetId
    · exact h.target key found targetId hold

/-- The attempt gives up its envelopes and takes others. -/
lemma AttemptCustody.take (h : AttemptCustody s) {envelopes : List CredentialEnvelope}
    (hattempts : s'.oauthAttempts = s.oauthAttempts.set attemptId attempt)
    (henvelopes : ∀ id, s'.oauthAttemptEnvelopes.get id =
      ((envelopeEntries envelopes).get id).or
        (if id ∈ s.attemptIds attemptId then none else s.oauthAttemptEnvelopes.get id))
    (hsettles : Settles attemptId attempt)
    (hids : attempt.credentialEnvelopeIds = envelopes.map (·.id))
    (hnodup : (envelopes.map (·.id)).Nodup)
    (hscope : ∀ envelope ∈ envelopes, attempt.toScope.matchesEnvelope envelope = true)
    (hfresh : ∀ envelope ∈ envelopes, envelope.id ∈ s.attemptIds attemptId ∨
      s.oauthAttemptEnvelopes.get envelope.id = none) : AttemptCustody s' := by
  apply h.set hattempts hsettles
  refine h.held.take (envelopeEntries envelopes) (hids.trans keys_envelopeEntries.symm)
    (keys_envelopeEntries.symm ▸ hnodup) henvelopes ?_ ?_ ?_
  · intro id hmem
    rw [keys_envelopeEntries, List.mem_map] at hmem
    obtain ⟨envelope, hmem, rfl⟩ := hmem
    exact hfresh envelope hmem
  · intro id envelope hentry
    obtain ⟨hmem, rfl⟩ := mem_envelopeEntries.1 hentry
    refine ⟨rfl, attempt, ?_, hscope envelope hmem⟩
    rw [hattempts, Dict.get_set_self]
  · exact fun other id item hne hfits => Store.FitsAttempt.of_ne hne hattempts hfits

/-- The record of an attempt changes, but not its owner or what it lists. -/
lemma AttemptCustody.keep (h : AttemptCustody s) {current : OAuthAttempt}
    (hfound : s.oauthAttempts.get attemptId = some current)
    (hattempts : s'.oauthAttempts = s.oauthAttempts.set attemptId attempt)
    (henvelopes : s'.oauthAttemptEnvelopes = s.oauthAttemptEnvelopes)
    (hsettles : Settles attemptId attempt) (hscope : attempt.toScope = current.toScope)
    (hids : attempt.credentialEnvelopeIds = current.credentialEnvelopeIds) : AttemptCustody s' := by
  apply h.set hattempts hsettles
  have hlisted : s.attemptIds attemptId = current.credentialEnvelopeIds := listedBy_of_get hfound
  rw [henvelopes]
  refine h.held.keep (hids.trans hlisted.symm) fun key id envelope hfit => ?_
  by_cases hne : key = attemptId
  · obtain ⟨hid, found, hget, hmatches⟩ := hfit
    rw [hne, hfound] at hget
    cases hget
    refine ⟨hid, attempt, ?_, hscope ▸ hmatches⟩
    rw [hattempts, hne, Dict.get_set_self]
  · exact Store.FitsAttempt.of_ne hne hattempts hfit

lemma AttemptCustody.of_eq (h : AttemptCustody s) (hattempts : s'.oauthAttempts = s.oauthAttempts)
    (henvelopes : s'.oauthAttemptEnvelopes = s.oauthAttemptEnvelopes) : AttemptCustody s' := by
  have hfits : s'.FitsAttempt = s.FitsAttempt := by
    funext key id envelope
    rw [Store.FitsAttempt, hattempts]
    rfl
  refine ⟨?_, hattempts ▸ h.keys, hattempts ▸ h.idle, hattempts ▸ h.target⟩
  unfold Store.attemptIds
  rw [hattempts, henvelopes, hfits]
  exact h.held

/-! ## Operations -/

namespace StoreInvariant

lemma empty : StoreInvariant Store.empty := by
  have hconnection : ∀ key connection, Store.empty.connections.get key ≠ some connection := by
    simp [Store.empty]
  have hattempt : ∀ key attempt, Store.empty.oauthAttempts.get key ≠ some attempt := by
    simp [Store.empty]
  refine ⟨⟨Held.empty, ?_, ?_⟩, ⟨Held.empty, ?_, ?_, ?_⟩, fun _ => .inl rfl⟩
  · exact fun key connection h => absurd h (hconnection key connection)
  · exact fun key _ connection _ h => absurd h (hconnection key connection)
  · exact fun key attempt h => absurd h (hattempt key attempt)
  · exact fun key attempt h => absurd h (hattempt key attempt)
  · exact fun key attempt _ h => absurd h (hattempt key attempt)

variable {connectionId attemptId : UUID} {current connection result : Connection}
  {args : ConnectionArguments} {required : Bool} {now : Instant} {user : User}
  {clock : Nat → Instant} {attempt : OAuthAttempt} {envelopes : List CredentialEnvelope}

/-- Only the records of connections change, and the generations. -/
lemma keepConnection (h : StoreInvariant s) (hfound : s.connections.get connectionId = some current)
    (hid : connection.id = current.id) (haccount : connection.toAccount = current.toAccount)
    (hids : connection.credentialEnvelopeIds = current.credentialEnvelopeIds) :
    StoreInvariant (s.setConnection connectionId connection) where
  connections := h.connections.keep hfound rfl rfl hid haccount hids
  attempts := h.attempts.of_eq rfl rfl
  apart := h.apart

/-- The maps that carry the invariant are those of another store. -/
lemma of_eq (h : StoreInvariant s) (hconnections : s'.connections = s.connections)
    (henvelopes : s'.envelopes = s.envelopes) (hattempts : s'.oauthAttempts = s.oauthAttempts)
    (hattemptEnvelopes : s'.oauthAttemptEnvelopes = s.oauthAttemptEnvelopes) :
    StoreInvariant s' where
  connections := h.connections.of_eq hconnections henvelopes
  attempts := h.attempts.of_eq hattempts hattemptEnvelopes
  apart := by
    rw [henvelopes, hattemptEnvelopes]
    exact h.apart

lemma save (h : StoreInvariant s) (hsaves : Saves s connectionId args connection)
    (hfresh : ∀ envelope ∈ args.envelopes, s.oauthAttemptEnvelopes.get envelope.id = none) :
    StoreInvariant (s.save connectionId connection args.envelopes) where
  connections := h.connections.save hsaves
  attempts := h.attempts.of_eq rfl rfl
  apart id := by
    have hget : (s.save connectionId connection args.envelopes).envelopes.get id = _ :=
      get_replaced s.envelopes (s.ownedIds connectionId) hsaves.bound.nodup id
    rw [hget]
    by_cases hmem : id ∈ args.envelopes.map (·.id)
    · obtain ⟨envelope, henvelope, rfl⟩ := List.mem_map.1 hmem
      exact .inr (hfresh envelope henvelope)
    · rw [get_envelopeEntries_of_notMem hmem, Option.none_or]
      rcases h.apart id with hnone | hnone
      · rw [hnone, ite_self]
        exact .inl rfl
      · exact .inr hnone

lemma release (h : StoreInvariant s) {disconnected : Connection}
    (hdisconnects : Disconnects s connectionId required now current disconnected) :
    StoreInvariant (s.release connectionId current disconnected) where
  connections := h.connections.release hdisconnects
  attempts := h.attempts.of_eq rfl rfl
  apart id := by
    change (s.envelopes.removeAll current.credentialEnvelopeIds).get id = none ∨ _
    rw [Dict.get_removeAll]
    rcases h.apart id with hnone | hnone
    · rw [hnone, ite_self]
      exact .inl rfl
    · exact .inr hnone

lemma disconnect (h : StoreInvariant s) {result : DisconnectResult}
    (hok : disconnect user connectionId required now s = (.ok result, s')) : StoreInvariant s' := by
  obtain ⟨current, -, -, ⟨-, rfl⟩ | ⟨disconnected, hdisconnects, -, rfl⟩⟩ := disconnect_eq_ok hok
  · exact h
  · exact h.release hdisconnects

lemma completeRevocation (h : StoreInvariant s) {result : DisconnectResult}
    (hok : completeRevocation user connectionId now s = (.ok result, s')) : StoreInvariant s' := by
  obtain ⟨current, hfound, -, rfl | ⟨completed, hrecord, rfl⟩⟩ := completeRevocation_eq_ok hok
  · exact h
  · apply h.keepConnection hfound
    all_goals rw [hrecord]

lemma saveConnection (h : StoreInvariant s)
    (hok : saveConnection crypto vault connectionId args now s = (.ok result, s'))
    (hfresh : ∀ envelope ∈ args.envelopes, s.oauthAttemptEnvelopes.get envelope.id = none) :
    StoreInvariant s' := by
  obtain ⟨hsaves, rfl⟩ := saveConnection_eq_ok hok
  exact h.save hsaves hfresh

lemma stageConnection (h : StoreInvariant s)
    (hok : stageConnection crypto vault connectionId args now s = (.ok result, s'))
    (hfresh : ∀ envelope ∈ args.envelopes, s.oauthAttemptEnvelopes.get envelope.id = none) :
    StoreInvariant s' := by
  obtain ⟨saved, hsaves, -, rfl⟩ := stageConnection_eq_ok hok
  have hset : (s.save connectionId saved args.envelopes).connections.get connectionId = some saved :=
    Dict.get_set_self _ _ _
  exact (h.save hsaves hfresh).keepConnection hset rfl rfl rfl

lemma finalizeConnection (h : StoreInvariant s) {stagedId : UUID}
    (hok : finalizeConnection crypto vault stagedId connectionId args clock s = (.ok result, s'))
    (hfresh : ∀ envelope ∈ args.envelopes, s.oauthAttemptEnvelopes.get envelope.id = none) :
    StoreInvariant s' := by
  obtain ⟨-, hsaves, -, _, _, t, hdisconnect, hcomplete⟩ := finalizeConnection_eq_ok hok
  exact ((h.save hsaves hfresh).disconnect hdisconnect).completeRevocation hcomplete

lemma recordRevocationObligation (h : StoreInvariant s) {args : AccountArguments}
    {result : DisconnectResult}
    (hok : recordRevocationObligation connectionId args clock s = (.ok result, s')) :
    StoreInvariant s' := by
  rcases recordRevocationObligation_eq_ok hok with hdisconnect |
    ⟨connection, hnone, hid, hdisconnected, -, hunused, rfl⟩
  · exact h.disconnect hdisconnect
  · have hids := connection.credentialEnvelopeIds_eq_nil.2 hdisconnected
    refine ⟨?_, h.attempts.of_eq rfl rfl, h.apart⟩
    refine h.connections.take connectionId connection [] rfl ?_ hid hids ⟨.nil, nofun, nofun⟩ nofun
      fun key other _ => hunused key other
    rw [Store.connectionIds, listedBy_of_none hnone]
    rfl

/-! ### Attempts -/

/-- An attempt takes envelopes that no connection holds. -/
lemma takeAttempt (h : StoreInvariant s) (attemptId : UUID) (attempt : OAuthAttempt)
    (envelopes : List CredentialEnvelope)
    (hconnections : s'.connections = s.connections) (hsame : s'.envelopes = s.envelopes)
    (hattempts : s'.oauthAttempts = s.oauthAttempts.set attemptId attempt)
    (henvelopes : ∀ id, s'.oauthAttemptEnvelopes.get id =
      ((envelopeEntries envelopes).get id).or
        (if id ∈ s.attemptIds attemptId then none else s.oauthAttemptEnvelopes.get id))
    (hsettles : Settles attemptId attempt)
    (hids : attempt.credentialEnvelopeIds = envelopes.map (·.id))
    (hnodup : (envelopes.map (·.id)).Nodup)
    (hscope : ∀ envelope ∈ envelopes, attempt.toScope.matchesEnvelope envelope = true)
    (hfresh : ∀ envelope ∈ envelopes, s.envelopes.get envelope.id = none ∧
      (envelope.id ∈ s.attemptIds attemptId ∨ s.oauthAttemptEnvelopes.get envelope.id = none)) :
    StoreInvariant s' where
  connections := h.connections.of_eq hconnections hsame
  attempts := h.attempts.take hattempts henvelopes hsettles hids hnodup hscope
    fun envelope hmem => (hfresh envelope hmem).2
  apart id := by
    rw [hsame, henvelopes]
    by_cases hmem : id ∈ envelopes.map (·.id)
    · obtain ⟨envelope, henvelope, rfl⟩ := List.mem_map.1 hmem
      exact .inl (hfresh envelope henvelope).1
    · rw [get_envelopeEntries_of_notMem hmem, Option.none_or]
      rcases h.apart id with hnone | hnone
      · exact .inl hnone
      · rw [hnone, ite_self]
        exact .inr rfl

/-- The record of an attempt changes, but not its owner or what it lists. -/
lemma keepAttempt (h : StoreInvariant s) {current : OAuthAttempt}
    (hfound : s.oauthAttempts.get attemptId = some current) (hsettles : Settles attemptId attempt)
    (hscope : attempt.toScope = current.toScope)
    (hids : attempt.credentialEnvelopeIds = current.credentialEnvelopeIds) :
    StoreInvariant (s.setAttempt attemptId attempt) where
  connections := h.connections.of_eq rfl rfl
  attempts := h.attempts.keep hfound rfl rfl hsettles hscope hids
  apart := h.apart

/-- An attempt gives up what it holds. -/
lemma releaseAttempt (h : StoreInvariant s) {current : OAuthAttempt}
    (hfound : s.oauthAttempts.get attemptId = some current) (hsettles : Settles attemptId attempt)
    (hids : attempt.credentialEnvelopeIds = []) :
    StoreInvariant
      ((s.dropAttemptEnvelopes current.credentialEnvelopeIds).setAttempt attemptId attempt) := by
  have hlisted : s.attemptIds attemptId = current.credentialEnvelopeIds := listedBy_of_get hfound
  refine h.takeAttempt attemptId attempt [] rfl rfl rfl ?_ hsettles hids .nil nofun nofun
  intro id
  rw [hlisted]
  exact Dict.get_removeAll _ _ _

lemma begin (h : StoreInvariant s) {args : AttemptArguments} {permissions : List String}
    {result : OAuthAttempt} (hok : beginOauthAttempt args permissions now s = (.ok result, s')) :
    StoreInvariant s' := by
  rcases beginOauthAttempt_eq_ok hok with rfl | ⟨hbegins, rfl⟩
  · exact h
  · have hsettles : Settles args.attemptId result := by
      refine ⟨hbegins.id, fun _ _ => hbegins.ids, fun targetId htarget => ?_⟩
      rw [hbegins.target] at htarget
      cases htarget
    refine h.takeAttempt args.attemptId result [] rfl rfl rfl ?_ hsettles hbegins.ids .nil nofun
      nofun
    intro id
    rw [Store.attemptIds, listedBy_of_none hbegins.absent]
    rfl

lemma attach (h : StoreInvariant s) {result : ConnectionRecord}
    (hok : attachOauthAttempt crypto vault attemptId args now s = (.ok result, s')) :
    StoreInvariant s' := by
  rcases attachOauthAttempt_eq_ok hok with
    rfl | ⟨attempt, provisional, updated, hattaches, hrecord, rfl⟩
  · exact h
  · have hnone : s.attemptIds attemptId = [] :=
      (listedBy_of_get hattaches.found).trans (h.attempts.idle _ _ hattaches.found
        (by rw [hattaches.status]; decide) (by rw [hattaches.status]; decide))
    have hsettles : Settles attemptId updated := by
      refine ⟨?_, fun hmaterial => absurd ?_ hmaterial, fun targetId htarget => ?_⟩
      · rw [hrecord]
        exact h.attempts.keys _ _ hattaches.found
      · rw [hrecord]
        rfl
      · rw [hrecord] at htarget
        exact absurd hattaches.status (h.attempts.target _ _ _ hattaches.found htarget).1
    refine h.takeAttempt attemptId updated args.envelopes rfl rfl rfl ?_ hsettles ?_
      hattaches.bound.nodup ?_ ?_
    · intro id
      rw [hnone, if_neg List.not_mem_nil]
      exact Dict.get_setAll _ (keys_envelopeEntries.symm ▸ hattaches.bound.nodup) id
    · rw [hrecord]
      exact hattaches.ids
    · intro envelope hmem
      rw [hrecord]
      exact hattaches.bound.scope envelope hmem
    · intro envelope hmem
      exact ⟨(hattaches.fresh envelope hmem).1, .inr (hattaches.fresh envelope hmem).2⟩

lemma replace (h : StoreInvariant s) {connection : ConnectionRecord} {result : ConnectionRecord}
    (hok : replaceOauthAttemptEnvelopes crypto vault connection envelopes now s =
      (.ok result, s')) : StoreInvariant s' := by
  rcases replaceOauthAttemptEnvelopes_eq_ok hok with
    rfl | ⟨attempt, updated, hreplaces, hrecord, rfl⟩
  · exact h
  · have hkey := h.attempts.keys _ _ hreplaces.found
    have hlisted : s.attemptIds attempt.id = attempt.credentialEnvelopeIds :=
      listedBy_of_get (hkey ▸ hreplaces.found)
    have hsettles : Settles attempt.id updated := by
      refine ⟨?_, fun hmaterial => absurd ?_ hmaterial, fun targetId htarget => ?_⟩
      · rw [hrecord]
        rfl
      · rw [hrecord]
        exact hreplaces.status
      · rw [hrecord] at htarget
        exact absurd hreplaces.status (h.attempts.target _ _ _ hreplaces.found htarget).2
    refine h.takeAttempt attempt.id updated envelopes rfl rfl rfl ?_ hsettles ?_
      hreplaces.bound.nodup ?_ ?_
    · intro id
      rw [hlisted]
      exact get_replaced _ _ hreplaces.bound.nodup id
    · rw [hrecord]
      rfl
    · intro envelope hmem
      rw [hrecord]
      exact hreplaces.bound.scope envelope hmem
    · intro envelope hmem
      rw [hlisted]
      exact ⟨(hreplaces.fresh envelope hmem).1, (hreplaces.fresh envelope hmem).2.symm⟩

lemma finalize (h : StoreInvariant s)
    (hok : finalizeOauthAttempt crypto vault attemptId connectionId args clock s =
      (.ok result, s'))
    (hfresh : ∀ envelope ∈ args.envelopes, s.oauthAttemptEnvelopes.get envelope.id = none) :
    StoreInvariant s' := by
  rcases finalizeOauthAttempt_eq_ok hok with
    rfl | ⟨attempt, method, updated, hfinalizes, -, hrecord, rfl⟩
  · exact h
  · have hsaved : StoreInvariant
        ((s.save connectionId result args.envelopes).setGeneration connectionId attemptId) :=
      (h.save hfinalizes.saves hfresh).of_eq rfl rfl rfl rfl
    apply hsaved.releaseAttempt hfinalizes.found
    · refine ⟨?_, fun _ _ => ?_, fun targetId htarget => ?_⟩
      · rw [hrecord]
        exact h.attempts.keys _ _ hfinalizes.found
      · rw [hrecord]
        rfl
      · rw [hrecord]
        exact ⟨nofun, nofun⟩
    · rw [hrecord]
      rfl

lemma acknowledge (h : StoreInvariant s) {args : AttemptArguments} {connection : ConnectionRecord}
    (hok : acknowledgeOauthAttempt args connection now s = (.ok result, s')) :
    StoreInvariant s' := by
  rcases acknowledgeOauthAttempt_eq_ok hok with
    rfl | ⟨attempt, targetId, current, updated, hacknowledges, hready, hrecord, rfl⟩
  · exact h
  · have hconnections : StoreInvariant (s.setConnection targetId result) := by
      apply h.keepConnection hacknowledges.stored
      all_goals
        rw [hready]
        rfl
    apply hconnections.keepAttempt hacknowledges.found
    · refine ⟨?_, fun _ _ => ?_, fun _ _ => ?_⟩
      · rw [hrecord]
        exact h.attempts.keys _ _ hacknowledges.found
      · rw [hrecord]
        exact h.attempts.idle _ _ hacknowledges.found (by rw [hacknowledges.status]; decide)
          (by rw [hacknowledges.status]; decide)
      · rw [hrecord]
        exact h.attempts.target _ _ _ hacknowledges.found hacknowledges.target
    · rw [hrecord]
      rfl
    · rw [hrecord]
      rfl

/-- The envelopes that a connection lists, in its order. -/
lemma ids_of_stored (h : StoreInvariant s)
    (hfound : s.connections.get connectionId = some connection)
    (hstored : List.Forall₂ (fun id envelope => s.envelopes.get id = some envelope)
      connection.credentialEnvelopeIds envelopes) :
    envelopes.map (·.id) = connection.credentialEnvelopeIds ∧
      ∀ envelope ∈ envelopes, s.envelopes.get envelope.id = some envelope ∧
        s.FitsConnection connectionId envelope.id envelope := by
  have hlisted : s.connectionIds connectionId = connection.credentialEnvelopeIds :=
    listedBy_of_get hfound
  have hall : ∀ id ∈ connection.credentialEnvelopeIds, ∀ envelope,
      s.envelopes.get id = some envelope → s.FitsConnection connectionId id envelope :=
    fun id hmem envelope hget => h.connections.held.fits (hlisted ▸ hmem) hget
  clear hlisted hfound
  generalize connection.credentialEnvelopeIds = listed at hstored hall ⊢
  induction hstored with
  | nil => exact ⟨rfl, nofun⟩
  | @cons id envelope ids envelopes hget _ ih =>
      obtain ⟨hids, henvelopes⟩ := ih fun id hmem => hall id (List.mem_cons_of_mem _ hmem)
      have hfits := hall id List.mem_cons_self envelope hget
      obtain rfl : envelope.id = id := hfits.1
      refine ⟨by rw [List.map_cons, hids], ?_⟩
      rw [List.forall_mem_cons]
      exact ⟨⟨hget, hfits⟩, henvelopes⟩

lemma fail (h : StoreInvariant s) {args : AttemptArguments} {result : OAuthAttempt}
    (hok : failOauthAttempt args clock s = (.ok result, s')) : StoreInvariant s' := by
  rcases failOauthAttempt_eq_ok hok with
    rfl | ⟨attempt, recovery, t, hfound, hfailed, hrevoked, hrecover, hrecord, rfl⟩
  · exact h
  have hsettles : Settles args.attemptId result := by
    refine ⟨?_, fun _ hne => absurd ?_ hne, fun _ _ => ?_⟩
    · rw [hrecord]
      exact h.attempts.keys _ _ hfound
    · rw [hrecord]
      rfl
    · rw [hrecord]
      exact ⟨nofun, nofun⟩
  have hscope : result.toScope = attempt.toScope := by
    rw [hrecord]
    rfl
  have hids : result.credentialEnvelopeIds = recovery.retainedEnvelopeIds := by
    rw [hrecord]
    rfl
  rcases recoverTarget_eq_ok hrecover with
    ⟨rfl, hretained⟩ | ⟨targetId, target, envelopes, disconnected, hrecovers, hretained,
      hdisconnects, rfl⟩
  · exact h.keepAttempt hfound hsettles hscope (hids.trans hretained)
  · obtain ⟨hmap, henvelopes⟩ := h.ids_of_stored hrecovers.found hrecovers.stored
    -- an attempt with a target has been finalized, and holds nothing itself
    have hnone : s.attemptIds args.attemptId = [] :=
      (listedBy_of_get hfound).trans (h.attempts.idle _ _ hfound
        (h.attempts.target _ _ _ hfound hrecovers.names).2 hfailed)
    have hnodup : (envelopes.map (·.id)).Nodup := by
      rw [hmap]
      exact target.checks.nodup
    refine (h.release hdisconnects).takeAttempt args.attemptId result envelopes rfl rfl rfl ?_
      hsettles ?_ hnodup ?_ ?_
    · intro id
      change _ = Option.or _ (if id ∈ s.attemptIds args.attemptId then none else _)
      rw [hnone, if_neg List.not_mem_nil]
      exact Dict.get_setAll _ (keys_envelopeEntries.symm ▸ hnodup) id
    · rw [hids, hretained, hmap]
    · intro envelope hmem
      obtain ⟨-, -, owner, howner, hmatches⟩ := (henvelopes envelope hmem).2
      obtain rfl : target = owner := Option.some.inj (hrecovers.found.symm.trans howner)
      rw [hscope, ← hrecovers.scope]
      exact hmatches
    · intro envelope hmem
      have hlisted : envelope.id ∈ target.credentialEnvelopeIds :=
        hmap ▸ List.mem_map_of_mem hmem
      refine ⟨?_, .inr ?_⟩
      · change (s.envelopes.removeAll target.credentialEnvelopeIds).get envelope.id = none
        rw [Dict.get_removeAll, if_pos hlisted]
      · rcases h.apart envelope.id with hnone | hnone
        · rw [(henvelopes envelope hmem).1] at hnone
          cases hnone
        · exact hnone

lemma completeAttemptRevocation (h : StoreInvariant s) {args : AttemptArguments}
    {result : OAuthAttempt} (hok : completeOauthAttemptRevocation args clock s = (.ok result, s')) :
    StoreInvariant s' := by
  rcases completeOauthAttemptRevocation_eq_ok hok with
    rfl | ⟨attempt, t, hfound, hstatus, hrevoke, hrecord, rfl⟩
  · exact h
  have ht : StoreInvariant t ∧ t.oauthAttempts = s.oauthAttempts := by
    have hkeeps := keepsField_revokeTarget (f := (·.oauthAttempts)) args.user attempt (clock 0)
      (fun _ _ _ => rfl) fun _ _ => rfl
    refine ⟨?_, hkeeps.of_eq hrevoke⟩
    rcases revokeTarget_eq_ok hrevoke with rfl | ⟨targetId, _, u, -, hcomplete, rfl⟩
    · exact h
    · exact (h.completeRevocation hcomplete).of_eq rfl rfl rfl rfl
  apply ht.1.releaseAttempt (ht.2 ▸ hfound)
  · refine ⟨?_, fun _ _ => ?_, fun _ _ => ?_⟩
    · rw [hrecord]
      exact h.attempts.keys _ _ hfound
    · rw [hrecord]
      rfl
    · rw [hrecord]
      exact ⟨nofun, nofun⟩
  · rw [hrecord]
    rfl

end StoreInvariant

/-! ## Runs -/

namespace Call

/-- The envelopes that the call submits. -/
def submitted : Call → List CredentialEnvelope
  | .attach _ args | .finalize _ _ args | .save _ args | .stage _ args
  | .finalizeConnection _ _ args => args.envelopes
  | .replace _ envelopes => envelopes
  | _ => []

/-- The envelopes of the connection or attempt that the call is about. -/
def owned (s : Store) : Call → List UUID
  | .attach attemptId _ => s.attemptIds attemptId
  | .replace connection _ => s.attemptIds connection.id
  | .finalize _ connectionId _ | .save connectionId _ | .stage connectionId _
  | .finalizeConnection _ connectionId _ => s.connectionIds connectionId
  | _ => []

end Call

/-- A call that returns keeps the invariant, if what it submits for a connection is not an
attempt's. -/
theorem StoreInvariant.perform (h : StoreInvariant s) {clock : Nat → Instant} {call : Call}
    {answer : Answer} (hok : perform crypto vault clock call s = (.ok answer, s'))
    (hfresh : ∀ envelope ∈ call.submitted, envelope.id ∈ call.owned s ∨
      s.envelopes.get envelope.id = none ∧ s.oauthAttemptEnvelopes.get envelope.id = none) :
    StoreInvariant s' := by
  -- what a connection owns is not an attempt's
  have hconnection : ∀ connectionId, call.owned s = s.connectionIds connectionId →
      ∀ envelope ∈ call.submitted, s.oauthAttemptEnvelopes.get envelope.id = none := by
    intro connectionId howned envelope hmem
    rcases hfresh envelope hmem with hown | ⟨-, hnone⟩
    · rw [howned] at hown
      obtain ⟨stored, hstored, -⟩ := h.connections.held.listed _ _ hown
      exact (h.apart envelope.id).resolve_left (by rw [hstored]; nofun)
    · exact hnone
  cases call with
  | begin args permissions =>
      obtain ⟨_, hop, -⟩ := Operation.map_eq_ok.1 hok
      exact h.begin hop
  | attach attemptId args =>
      obtain ⟨_, hop, -⟩ := Operation.map_eq_ok.1 hok
      exact h.attach hop
  | replace connection envelopes =>
      obtain ⟨_, hop, -⟩ := Operation.map_eq_ok.1 hok
      exact h.replace hop
  | finalize attemptId connectionId args =>
      obtain ⟨_, hop, -⟩ := Operation.map_eq_ok.1 hok
      exact h.finalize hop (hconnection connectionId rfl)
  | acknowledge args connection =>
      obtain ⟨_, hop, -⟩ := Operation.map_eq_ok.1 hok
      exact h.acknowledge hop
  | fail args =>
      obtain ⟨_, hop, -⟩ := Operation.map_eq_ok.1 hok
      exact h.fail hop
  | completeAttemptRevocation args =>
      obtain ⟨_, hop, -⟩ := Operation.map_eq_ok.1 hok
      exact h.completeAttemptRevocation hop
  | save connectionId args =>
      obtain ⟨_, hop, -⟩ := Operation.map_eq_ok.1 hok
      exact h.saveConnection hop (hconnection connectionId rfl)
  | stage connectionId args =>
      obtain ⟨_, hop, -⟩ := Operation.map_eq_ok.1 hok
      exact h.stageConnection hop (hconnection connectionId rfl)
  | finalizeConnection stagedId connectionId args =>
      obtain ⟨_, hop, -⟩ := Operation.map_eq_ok.1 hok
      exact h.finalizeConnection hop (hconnection connectionId rfl)
  | recordObligation connectionId args =>
      obtain ⟨_, hop, -⟩ := Operation.map_eq_ok.1 hok
      exact h.recordRevocationObligation hop
  | disconnect user connectionId required =>
      obtain ⟨_, hop, -⟩ := Operation.map_eq_ok.1 hok
      exact h.disconnect hop
  | completeRevocation user connectionId =>
      obtain ⟨_, hop, -⟩ := Operation.map_eq_ok.1 hok
      exact h.completeRevocation hop

/-- Some envelope of the identifier is stored. -/
def Store.Stores (s : Store) (id : UUID) : Prop :=
  (s.envelopes.get id).isSome = true ∨ (s.oauthAttemptEnvelopes.get id).isSome = true

/-- The states that calls which return lead through, the latest one first.  What a call submits that
is new to its connection or attempt has an identifier that no state so far has used; a repeated call
that changes nothing may submit anything. -/
inductive Reached (crypto : Crypto) (vault : CredentialVault) : List Store → Prop
  | empty : Reached crypto vault [Store.empty]
  | step {s s' : Store} {past : List Store} (clock : Nat → Instant) (call : Call) {answer : Answer}
      (h : Reached crypto vault (s :: past))
      (hok : perform crypto vault clock call s = (.ok answer, s'))
      (hfresh : s' = s ∨ ∀ envelope ∈ call.submitted, envelope.id ∈ call.owned s ∨
        ∀ earlier ∈ s :: past, ¬ earlier.Stores envelope.id) :
      Reached crypto vault (s' :: s :: past)

lemma Reached.invariant {states : List Store} (h : Reached crypto vault states) :
    ∀ s ∈ states.head?, StoreInvariant s := by
  induction h with
  | empty =>
      rintro s ⟨⟩
      exact StoreInvariant.empty
  | @step s s' past clock call answer _ hok hfresh ih =>
      rintro _ ⟨⟩
      have hs := ih s rfl
      rcases hfresh with rfl | hfresh
      · exact hs
      · refine hs.perform hok fun envelope hmem => (hfresh envelope hmem).imp_right fun hnew => ?_
        have hstores := hnew s List.mem_cons_self
        unfold Store.Stores at hstores
        rw [not_or, Bool.not_eq_true, Bool.not_eq_true, Option.isSome_eq_false_iff,
          Option.isSome_eq_false_iff, Option.isNone_iff_eq_none, Option.isNone_iff_eq_none] at hstores
        exact hstores

/-- Each envelope has one owner, and every owner has its envelopes. -/
structure InCustody (s : Store) : Prop where
  envelopes : ∀ id, (s.envelopes.get id).isSome = true ↔ ∃ key connection,
    s.connections.get key = some connection ∧ id ∈ connection.credentialEnvelopeIds
  envelopes_once : ∀ key key' connection connection' id,
    s.connections.get key = some connection → s.connections.get key' = some connection' →
      id ∈ connection.credentialEnvelopeIds → id ∈ connection'.credentialEnvelopeIds → key = key'
  envelopes_nodup : ∀ key connection, s.connections.get key = some connection →
    connection.credentialEnvelopeIds.Nodup
  envelopes_bound : ∀ key connection id envelope, s.connections.get key = some connection →
    id ∈ connection.credentialEnvelopeIds → s.envelopes.get id = some envelope →
      envelope.id = id ∧ connection.toScope.matchesEnvelope envelope = true
  attemptEnvelopes : ∀ id, (s.oauthAttemptEnvelopes.get id).isSome = true ↔ ∃ key attempt,
    s.oauthAttempts.get key = some attempt ∧ id ∈ attempt.credentialEnvelopeIds
  attemptEnvelopes_once : ∀ key key' attempt attempt' id,
    s.oauthAttempts.get key = some attempt → s.oauthAttempts.get key' = some attempt' →
      id ∈ attempt.credentialEnvelopeIds → id ∈ attempt'.credentialEnvelopeIds → key = key'
  attemptEnvelopes_nodup : ∀ key attempt, s.oauthAttempts.get key = some attempt →
    attempt.credentialEnvelopeIds.Nodup
  attemptEnvelopes_bound : ∀ key attempt id envelope, s.oauthAttempts.get key = some attempt →
    id ∈ attempt.credentialEnvelopeIds → s.oauthAttemptEnvelopes.get id = some envelope →
      envelope.id = id ∧ attempt.toScope.matchesEnvelope envelope = true
  disconnected : ∀ key connection, s.connections.get key = some connection →
    connection.readiness = .disconnected → connection.credentialEnvelopeIds = []
  accounts : ∀ key key' connection connection', s.connections.get key = some connection →
    s.connections.get key' = some connection' → connection.toAccount = connection'.toAccount →
      key = key'

lemma StoreInvariant.inCustody (h : StoreInvariant s) : InCustody s := by
  have hconnection : ∀ {key connection}, s.connections.get key = some connection →
      s.connectionIds key = connection.credentialEnvelopeIds := fun hget => listedBy_of_get hget
  have hattempt : ∀ {key attempt}, s.oauthAttempts.get key = some attempt →
      s.attemptIds key = attempt.credentialEnvelopeIds := fun hget => listedBy_of_get hget
  refine ⟨fun id => ?_, ?_, ?_, ?_, fun id => ?_, ?_, ?_, ?_, ?_, h.connections.accounts⟩
  · rw [h.connections.held.isSome_iff]
    constructor
    · rintro ⟨key, hmem⟩
      obtain ⟨connection, hget, hlisted⟩ := exists_of_mem_listedBy hmem
      exact ⟨key, connection, hget, hlisted⟩
    · rintro ⟨key, connection, hget, hlisted⟩
      exact ⟨key, (hconnection hget).symm ▸ hlisted⟩
  · intro key key' connection connection' id hget hget' hmem hmem'
    exact h.connections.held.once key key' id ((hconnection hget).symm ▸ hmem)
      ((hconnection hget').symm ▸ hmem')
  · exact fun key connection _ => connection.checks.nodup
  · intro key connection id envelope hget hmem hstored
    obtain ⟨hid, -, owner, howner, hmatches⟩ :=
      h.connections.held.fits ((hconnection hget).symm ▸ hmem) hstored
    obtain rfl : connection = owner := Option.some.inj (hget.symm.trans howner)
    exact ⟨hid, hmatches⟩
  · rw [h.attempts.held.isSome_iff]
    constructor
    · rintro ⟨key, hmem⟩
      obtain ⟨attempt, hget, hlisted⟩ := exists_of_mem_listedBy hmem
      exact ⟨key, attempt, hget, hlisted⟩
    · rintro ⟨key, attempt, hget, hlisted⟩
      exact ⟨key, (hattempt hget).symm ▸ hlisted⟩
  · intro key key' attempt attempt' id hget hget' hmem hmem'
    exact h.attempts.held.once key key' id ((hattempt hget).symm ▸ hmem)
      ((hattempt hget').symm ▸ hmem')
  · intro key attempt hget
    exact hattempt hget ▸ h.attempts.held.nodup key
  · intro key attempt id envelope hget hmem hstored
    obtain ⟨hid, owner, howner, hmatches⟩ :=
      h.attempts.held.fits ((hattempt hget).symm ▸ hmem) hstored
    obtain rfl : attempt = owner := Option.some.inj (hget.symm.trans howner)
    exact ⟨hid, hmatches⟩
  · exact fun key connection _ => connection.credentialEnvelopeIds_eq_nil.2

/-- In every state that is reached, each envelope has one owner. -/
theorem reached_inCustody (crypto : Crypto) (vault : CredentialVault) (s : Store)
    (past : List Store) (h : Reached crypto vault (s :: past)) : InCustody s :=
  (h.invariant s rfl).inCustody

/-- A connection is saved with its envelope, and loses it when it is disconnected. -/
theorem EarlyDisconnect.disconnected_inCustody :
    InCustody EarlyDisconnect.saved ∧ EarlyDisconnect.saved.Stores 5 ∧
      InCustody EarlyDisconnect.disconnected ∧ ¬ EarlyDisconnect.disconnected.Stores 5 := by
  have hsaved : Reached CompanyToken.crypto CompanyToken.oldVault
      [EarlyDisconnect.saved, Store.empty] := by
    refine Reached.step (fun _ => 10) (.save 4 EarlyDisconnect.args) .empty
      (EarlyDisconnect.perform_save EarlyDisconnect.saveConnection_empty)
      (.inr fun envelope _ => .inr ?_)
    rw [List.forall_mem_singleton]
    rintro (⟨⟨⟩⟩ | ⟨⟨⟩⟩)
  obtain ⟨answer, hdisconnect⟩ := EarlyDisconnect.perform_disconnect
  have hdisconnected := Reached.step (fun _ => 20) (.disconnect ⟨1, 2, 3⟩ 4 false) hsaved
    hdisconnect (.inr (List.forall_mem_nil _))
  exact ⟨reached_inCustody _ _ _ _ hsaved, .inl rfl, reached_inCustody _ _ _ _ hdisconnected,
    by rintro (⟨⟨⟩⟩ | ⟨⟨⟩⟩)⟩

end MercuryTools.Providers
