import MercuryTools.Providers.DispatchSteps

/-!
# What a call tells about the tool

The tool is called at most once, and only with a binding that has been verified and agrees with what
was asked for, with arguments that the pinned schema accepts.  What is raised tells whether it has
been called, and a create whose tool has been called ends in a checked result or in the unknown.
All of this holds whatever others answer, raise or cancel.
-/

namespace MercuryTools.Providers

open Programs Checks

namespace StreamableMCPDriver

open Driver

/-! ## A dispatch and what justifies it -/

/-- What a call of the tool is made from. -/
structure Dispatch where
  connection : ConnectionRecord
  binding : QualifiedCapabilityBinding
  arguments : ModelInstance
  resource : ResolvedProviderResource
  verified : VerifiedRuntimeBinding
  requestContract : WireModelContract
  responseContract : WireModelContract
  serialized : Dict String Json
  headers : Dict String String
  sessionId : Option String

namespace Dispatch

variable (rules : DriverRules) (driver : StreamableMCPDriver) (call : CallArguments)
  (d : Dispatch)

/-- The session is open, for a verified binding and valid arguments of the call. -/
structure Opened (log : Log) : Prop where
  requests : driver.Requests call d.connection d.binding d.arguments
  resource_eq : driver.resolveProviderResource rules d.connection.environment = some d.resource
  verified : Answered log (.verifyBinding d.connection d.binding d.resource.uriSha256)
    (Except.ok (some d.verified))
  agrees : driver.agrees d.connection d.binding d.resource d.verified = true
  pinned : Pinned rules log d.verified d.requestContract d.responseContract
  onWire : OnWire rules d.requestContract d.arguments (.obj d.serialized)
  opened : Answered log (.openSession d.resource.uri d.headers) (Except.ok ())

/-- The provider speaks the protocol, too. -/
structure Justified (log : Log) : Prop extends d.Opened rules driver call log where
  initialized : Answered log .handshake (Except.ok (some protocolVersion))
  session : Answered log .getSessionId (Except.ok d.sessionId)

/-- The values that a response must not show. -/
def secrets : List String :=
  d.resource.uri :: d.verified.providerTool ::
    d.headers.flatMap (fun header => [header.1, header.2]) ++ d.sessionId.toList

/-- The result is what the tool answered, normalized, and has passed every check. -/
structure Returned (log : Log) (result : ProviderCallResult) : Prop
    extends d.Justified rules driver call log where
  response : ∃ content normalized,
    Answered log (.callTool d.verified.providerTool d.serialized) (Except.ok ⟨true, some content⟩) ∧
    Answered log (.normalizeResponse d.verified content) (Except.ok (some normalized)) ∧
    OnWire rules d.responseContract normalized (.obj result.normalizedData)
  safe : isProviderData rules result.normalizedData = true
  unseen : ∀ value ∈ d.secrets, value ≠ "" →
    boundaryRejects rules.casefold [rules.casefold value] (.obj result.normalizedData) = false
  result_eq : result = ⟨driver.provider, .success, result.normalizedData, .dispatched⟩

end Dispatch

variable (rules : DriverRules) (driver : StreamableMCPDriver) (call : CallArguments)

/-- The tool may be called once, where a dispatch justifies it. -/
def Allowed (log : Log) (e : Effect) : Prop :=
  ∀ tool arguments, e = .callTool tool arguments → NoCall log ∧ ∃ d : Dispatch,
    d.Justified rules driver call log ∧ d.verified.providerTool = tool ∧ d.serialized = arguments

/-! ## What may be raised -/

/-- Nothing has been dispatched. -/
structure Undispatched (log : Log) (s : Locals) : Prop where
  noCall : NoCall log
  possibleDispatch : s.possibleDispatch = false

/-- The tool has been called, with a binding of the class that was asked for. -/
structure Dispatched (log : Log) (s : Locals) : Prop where
  called : ¬ NoCall log
  possibleDispatch : s.possibleDispatch = true
  class_eq : ∃ verified binding, s.verifiedBinding = some verified ∧ call.binding = some binding ∧
    verified.operationClass = binding.operationClass

/-- What `attemptCall` may raise. -/
def MayRaise (log : Log) (s : Locals) (raised : Raised) : Prop :=
  (Undispatched log s ∧ Certain .notDispatched raised) ∨
    (Dispatched call log s ∧ Certain .dispatched raised)

/-- The call has a result. -/
def Succeeded (log : Log) (s : Locals) : Prop :=
  Dispatched call log s ∧ ∃ (d : Dispatch) (result : ProviderCallResult),
    s.result = some result ∧ d.Returned rules driver call log result

section

variable {rules : DriverRules} {driver : StreamableMCPDriver} {call : CallArguments} {d : Dispatch}
  {log : Log} {s : Locals} {I : Log → Locals → Prop}

variable {e : Effect} {entry : (e : Effect) × Reply e} {boundary boundary' : List String}

lemma noCall_append {a : Reply e} (he : isCall e = false) :
    NoCall (log ++ [⟨e, a⟩]) ↔ NoCall log := by
  unfold NoCall
  simp only [List.mem_append, List.mem_singleton, or_imp, forall_and, forall_eq, he, and_true]

lemma not_noCall_append (a : Reply e) (he : isCall e = true) : ¬ NoCall (log ++ [⟨e, a⟩]) := by
  intro h
  have hentry := h ⟨e, a⟩ (List.mem_append_right _ (List.mem_singleton_self _))
  exact absurd (he.symm.trans hentry) (by decide)

lemma Undispatched.append (h : Undispatched log s) (a : Reply e) (he : isCall e = false) :
    Undispatched (log ++ [⟨e, a⟩]) s :=
  ⟨(noCall_append he).2 h.noCall, h.possibleDispatch⟩

lemma Dispatched.append (h : Dispatched call log s) (a : Reply e) (he : isCall e = false) :
    Dispatched call (log ++ [⟨e, a⟩]) s :=
  ⟨fun hno => h.called ((noCall_append he).1 hno), h.possibleDispatch, h.class_eq⟩

lemma stable_undispatched : Stable rules Undispatched :=
  ⟨fun _ _ _ a he h => h.append a he, fun _ _ _ h => ⟨h.noCall, h.possibleDispatch⟩⟩

lemma stable_dispatched : Stable rules (Dispatched call) :=
  ⟨fun _ _ _ a he h => h.append a he, fun _ _ _ h => ⟨h.called, h.possibleDispatch, h.class_eq⟩⟩

lemma calm_undispatched : Calm rules .notDispatched (MayRaise call) Undispatched :=
  ⟨stable_undispatched, fun _ _ _ hcertain h => .inl ⟨h, hcertain⟩⟩

lemma calm_dispatched : Calm rules .dispatched (MayRaise call) (Dispatched call) :=
  ⟨stable_dispatched, fun _ _ _ hcertain h => .inr ⟨h, hcertain⟩⟩

lemma robust_mayRaise : Robust (MayRaise call) := by
  refine ⟨fun log s e a raised he h => ?_, fun log s raised raised' hforeign h => ?_⟩
  · exact h.imp (fun h => ⟨h.1.append a he, h.2⟩) fun h => ⟨h.1.append a he, h.2⟩
  · exact h.imp (fun h => ⟨h.1, certain_of_foreign hforeign⟩)
      fun h => ⟨h.1, certain_of_foreign hforeign⟩

lemma othersAllowed : OthersAllowed (Allowed rules driver call) := by
  intro log e he tool arguments heq
  rw [heq] at he
  cases he

/-! ### What is known stays known -/

lemma Dispatch.Opened.append (h : d.Opened rules driver call log) :
    d.Opened rules driver call (log ++ [entry]) :=
  ⟨h.requests, h.resource_eq, h.verified.append _, h.agrees, h.pinned.append _, h.onWire,
    h.opened.append _⟩

lemma Dispatch.Justified.append (h : d.Justified rules driver call log) :
    d.Justified rules driver call (log ++ [entry]) :=
  ⟨h.toOpened.append, h.initialized.append _, h.session.append _⟩

lemma Dispatch.Returned.append {result : ProviderCallResult}
    (h : d.Returned rules driver call log result) :
    d.Returned rules driver call (log ++ [entry]) result := by
  obtain ⟨content, normalized, hcall, hnormalize, hwire⟩ := h.response
  exact ⟨h.toJustified.append,
    ⟨content, normalized, hcall.append _, hnormalize.append _, hwire⟩, h.safe, h.unseen,
    h.result_eq⟩

lemma stable_succeeded : Stable rules (Succeeded rules driver call) := by
  refine ⟨fun log s e a he h => ?_, fun log s value h => ?_⟩
  · obtain ⟨hdispatched, d, result, hresult, hreturned⟩ := h
    exact ⟨hdispatched.append a he, d, result, hresult, hreturned.append⟩
  · exact ⟨⟨h.1.called, h.1.possibleDispatch, h.1.class_eq⟩, h.2⟩

lemma calm_succeeded : Calm rules .dispatched (MayRaise call) (Succeeded rules driver call) :=
  ⟨stable_succeeded, fun _ _ _ hcertain h => .inr ⟨h.1, hcertain⟩⟩

lemma settled_succeeded : Settled (MayRaise call) (Succeeded rules driver call) :=
  ⟨stable_succeeded.grows, fun _ _ _ hforeign h => .inr ⟨h.1, certain_of_foreign hforeign⟩⟩

/-! ## Within the session -/

variable {allowed : Log → Effect → Prop} {R : Log → Locals → Raised → Prop}
  {certainty : DispatchCertainty} {Q : Log → Locals → Unit → Prop}

lemma triple_initializeSession (ho : OthersAllowed allowed) (hI : Calm rules certainty R I) :
    Triple allowed I initializeSession
      (fun log s version => I log s ∧ Answered log .handshake (Except.ok version)) R := by
  refine bind_ask ho hI rfl fun answer J hJ hanswer => ?_
  match answer with
  | .ok version => exact Triple.pure fun log s h => hanswer log s h
  | .error .cancelled => exact triple_raise hJ nofun
  | .error (.exception facts) =>
    dsimp only
    split
    · exact triple_raise hJ nofun
    · exact triple_raise hJ nofun

/-- The session id, if there is one, is a value of the boundary. -/
lemma triple_captureSessionId (ho : OthersAllowed allowed) (hI : Calm rules .notDispatched R I) :
    Triple allowed I (driver.captureSessionId rules)
      (fun log s _ => I log s ∧ ∃ sessionId, Answered log .getSessionId (Except.ok sessionId) ∧
        ∀ value, sessionId = some value → Covers rules s.boundary value) R := by
  refine bind_ask ho hI rfl fun answer J hJ hanswer => ?_
  match answer with
  | .ok (some sessionId) =>
    refine (triple_addBoundary hJ sessionId).post fun log s _ h => ?_
    obtain ⟨hI, hanswered⟩ := hanswer log s h.1
    refine ⟨hI, some sessionId, hanswered, fun value heq => ?_⟩
    rw [← Option.some.inj heq]
    exact h.2
  | .ok none =>
    exact Triple.pure fun log s h => ⟨(hanswer log s h).1, none, (hanswer log s h).2, nofun⟩
  | .error .cancelled => exact triple_raise hJ nofun
  | .error (.exception _) => exact triple_fail hJ rfl

lemma triple_validateProtocol (hI : Calm rules .notDispatched R I) (version : Option String) :
    Triple allowed I (driver.validateProtocol version)
      (fun log s _ => I log s ∧ version = some protocolVersion) R := by
  unfold validateProtocol
  split
  next h => exact Triple.pure fun log s hI => ⟨hI, h⟩
  · exact triple_fail hI rfl

lemma rejectsText_mono (hsub : boundary ⊆ boundary') {text : String}
    (h : rejectsText rules.casefold boundary text = true) :
    rejectsText rules.casefold boundary' text = true := by
  unfold rejectsText at h ⊢
  rw [List.any_eq_true] at h ⊢
  obtain ⟨value, hvalue, hrejects⟩ := h
  exact ⟨value, hsub hvalue, hrejects⟩

/-- Fewer values of the boundary reject less. -/
lemma boundaryRejects_anti (hsub : boundary ⊆ boundary') {value : Json}
    (h : boundaryRejects rules.casefold boundary' value = false) :
    boundaryRejects rules.casefold boundary value = false := by
  have htext : ∀ text, rejectsText rules.casefold boundary' text = false →
      rejectsText rules.casefold boundary text = false :=
    fun text htext => Bool.eq_false_iff.2 fun hrejects =>
      Bool.eq_false_iff.1 htext (rejectsText_mono hsub hrejects)
  unfold boundaryRejects at h ⊢
  rw [Bool.not_eq_false'] at h ⊢
  refine Json.all_mono (fun part hpart => ?_) h
  cases part with
  | str text => simpa using htext text (by simpa using hpart)
  | obj fields =>
    rw [List.all_eq_true] at hpart ⊢
    exact fun field hfield => by simpa using htext field.1 (by simpa using hpart field hfield)
  | _ => rfl

/-- What comes back is normalized, on the wire, and shows none of these values. -/
lemma triple_normalizeCall (ho : OthersAllowed allowed) (hI : Calm rules .dispatched R I)
    {values : List String}
    (hvalues : ∀ log s, I log s → ∀ value ∈ values, Covers rules s.boundary value)
    (verified : VerifiedRuntimeBinding) (contract : WireModelContract) (raw : ToolResult) :
    Triple allowed I (driver.normalizeCall rules verified contract raw) (fun log s data =>
      I log s ∧ ((∃ content normalized, raw = ⟨true, some content⟩ ∧
        Answered log (.normalizeResponse verified content) (Except.ok (some normalized)) ∧
        OnWire rules contract normalized (.obj data)) ∧
      ∀ value ∈ values, value ≠ "" →
        boundaryRejects rules.casefold [rules.casefold value] (.obj data) = false)) R := by
  obtain ⟨isNoError, structuredContent⟩ := raw
  unfold normalizeCall
  dsimp only
  split
  next content =>
    have hnormalized : Triple allowed I (driver.normalizedResponse verified contract content)
        (fun log s normalized => I log s ∧
          (Answered log (.normalizeResponse verified content) (Except.ok (some normalized)) ∧
            normalized.model = contract.model)) R := by
      refine triple_guarded rfl hI fun hI => ?_
      refine bind_fact (triple_demand hI _) fun _ _ => ?_
      refine bind_ask ho hI rfl fun answer J hJ hanswer => ?_
      refine bind_fact (triple_orRaise hJ answer) fun value hvalue => ?_
      refine bind_fact (triple_check ho hJ) fun _ _ => ?_
      refine bind_fact (triple_demandSome hJ value) fun normalized hsome => ?_
      refine bind_fact (triple_demand hJ _) fun _ hmodel => Triple.pure fun log s h => ?_
      obtain ⟨hI, hanswered⟩ := hanswer log s h
      rw [hvalue, hsome] at hanswered
      exact ⟨hI, hanswered, of_decide_eq_true hmodel⟩
    refine bind_learn hI (fun normalized => (stable_answered (.normalizeResponse verified content)
      (Except.ok (some normalized))).and (stable_const (normalized.model = contract.model)))
      hnormalized fun normalized J hJ hanswer => ?_
    refine bind_fact (triple_guarded rfl hJ fun hJ => triple_revalidated ho hJ contract normalized)
      fun again hagain => ?_
    refine bind_fact (triple_guarded rfl hJ fun hJ => triple_dumped ho hJ again)
      fun serialized hdump => ?_
    refine bind_fact (triple_guarded rfl hJ fun hJ => triple_accepted ho hJ contract serialized)
      fun _ haccepted => ?_
    have hwithin : Triple allowed J (guarded (driver.failure .responseInvalid .dispatched)
        (withinBoundary rules serialized)) (fun log s _ => J log s ∧ ∀ value ∈ values, value ≠ "" →
          boundaryRejects rules.casefold [rules.casefold value] serialized = false) R := by
      refine triple_guarded rfl hJ fun hJ => ?_
      refine Triple.bind (Q := fun log s t => J log s ∧ t = s)
        (Triple.read fun log s h => ⟨h, rfl⟩) fun t => ?_
      have hunseen : ∀ log s, J log s ∧ t = s →
          boundaryRejects rules.casefold t.boundary serialized = false →
            ∀ value ∈ values, value ≠ "" →
              boundaryRejects rules.casefold [rules.casefold value] serialized = false := by
        rintro log s ⟨h, rfl⟩ hrejects value hvalue hne
        have hmem := (hvalues log t (hanswer log t h).1 value hvalue).resolve_left hne
        exact boundaryRejects_anti (List.cons_subset.2 ⟨hmem, List.nil_subset _⟩) hrejects
      cases hrejects : boundaryRejects rules.casefold t.boundary serialized with
      | true => exact Triple.raise fun log s h => h.1
      | false =>
        refine Triple.bind (Q := fun log s _ => J log s ∧ ∀ value ∈ values, value ≠ "" →
          boundaryRejects rules.casefold [rules.casefold value] serialized = false)
          (Triple.pure fun log s h => ⟨h.1, hunseen log s h hrejects⟩) fun _ => ?_
        exact (triple_check ho (hJ.and (stable_const _))).post fun _ _ _ h => h.1
    refine bind_fact hwithin fun _ hunseen => ?_
    refine (triple_guarded rfl hJ fun hJ => triple_demandMapping hJ serialized).post
      fun log s data h => ?_
    obtain ⟨hI, hanswered, hmodel⟩ := hanswer log s h.1
    rw [h.2] at hdump haccepted hunseen
    exact ⟨hI, ⟨content, normalized, rfl, hanswered, hmodel, ⟨again, hagain.1, hagain.2, hdump⟩,
      haccepted⟩, hunseen⟩
  · exact triple_fail hI rfl

/-- The result is kept, and whatever holds of the log alone still holds. -/
lemma triple_keepResult (ho : OthersAllowed allowed) {F : Log → Prop}
    (hF : ∀ log entry, F log → F (log ++ [entry])) (data : Dict String Json) :
    Triple allowed (fun log s => Dispatched call log s ∧ F log) (driver.keepResult rules data)
      (fun log s _ => (Dispatched call log s ∧ F log) ∧ isProviderData rules data = true ∧
        s.result = some ⟨driver.provider, .success, data, .dispatched⟩) (MayRaise call) := by
  have hI : Calm rules .dispatched (MayRaise call) fun log s => Dispatched call log s ∧ F log :=
    calm_dispatched.and (stable_log hF)
  refine triple_guarded rfl hI fun hI => ?_
  refine bind_fact (triple_demand hI _) fun _ hdata => ?_
  have hresult : Stable rules fun _ s =>
      s.result = some ⟨driver.provider, .success, data, .dispatched⟩ :=
    stable_locals fun _ _ h => h
  refine bind_learn (K := fun _ _ s => s.result =
    some ⟨driver.provider, .success, data, .dispatched⟩) hI (fun _ => hresult)
    (Triple.assign fun log s h =>
      ⟨⟨⟨h.1.called, h.1.possibleDispatch, h.1.class_eq⟩, h.2⟩, rfl⟩) fun _ J hJ hkept => ?_
  exact (triple_check ho hJ).post
    fun log s _ h => ⟨(hkept log s h.1).1, hdata, (hkept log s h.1).2⟩

lemma covers_secrets
    (hcovers : Covers rules boundary d.resource.uri ∧ Covers rules boundary d.verified.providerTool)
    (hheaders : CoversHeaders rules boundary d.headers)
    (hsession : ∀ value, d.sessionId = some value → Covers rules boundary value) :
    ∀ value ∈ d.secrets, Covers rules boundary value := by
  intro value hvalue
  simp only [Dispatch.secrets, List.cons_append, List.mem_cons, List.mem_append, List.mem_flatMap,
    List.not_mem_nil, or_false, Option.mem_toList] at hvalue
  obtain rfl | rfl | ⟨header, hheader, rfl | rfl⟩ | hvalue := hvalue
  · exact hcovers.1
  · exact hcovers.2
  · exact (hheaders header hheader).1
  · exact (hheaders header hheader).2
  · exact hsession value hvalue

lemma Dispatch.Opened.class_eq (h : d.Opened rules driver call log) :
    d.verified.operationClass = d.binding.operationClass := by
  have hagrees := h.agrees
  simp only [StreamableMCPDriver.agrees, Bool.and_eq_true, decide_eq_true_eq] at hagrees
  exact hagrees.1.2

/-- In an open session, the tool is called as a dispatch justifies it, and what comes back is kept
where it passes the checks. -/
lemma triple_dispatch {J : Log → Locals → Prop}
    (hJ : Calm rules .notDispatched (MayRaise call) J)
    (hfacts : ∀ log s, J log s → Undispatched log s ∧ s.verifiedBinding = some d.verified ∧
      d.Opened rules driver call log ∧
      (Covers rules s.boundary d.resource.uri ∧ Covers rules s.boundary d.verified.providerTool) ∧
      CoversHeaders rules s.boundary d.headers) :
    Triple (Allowed rules driver call) J
      (driver.dispatch rules d.verified d.responseContract d.serialized)
      (fun log s _ => Succeeded rules driver call log s) (MayRaise call) := by
  have ho : OthersAllowed (Allowed rules driver call) := othersAllowed
  refine bind_learn hJ (fun version => stable_answered .handshake (Except.ok version))
    (triple_initializeSession ho hJ) fun version K hK hinitialized => ?_
  refine bind_fact (triple_check ho hK) fun _ _ => ?_
  refine Triple.bind (triple_captureSessionId ho hK) fun _ => ?_
  refine Triple.choose (K := fun (sessionId : Option String) log s => K log s ∧
      Answered log .getSessionId (Except.ok sessionId) ∧
        ∀ value, sessionId = some value → Covers rules s.boundary value)
    (fun log s h => h.2.imp fun sessionId hsession => ⟨h.1, hsession⟩) fun sessionId => ?_
  have hL := hK.and ((@stable_answered rules .getSessionId (Except.ok sessionId)).and
    (stable_forall (p := fun value => sessionId = some value) fun value => stable_covers value))
  refine bind_fact (triple_check ho hL) fun _ _ => ?_
  refine bind_fact (triple_validateProtocol hL version) fun _ hversion => ?_
  refine bind_fact (triple_check ho hL) fun _ _ => ?_
  let d' : Dispatch := { d with sessionId := sessionId }
  -- the tool is called right after the flag is set
  refine Triple.bind (Q := fun log s _ => (NoCall log ∧ d'.Justified rules driver call log) ∧
    (s.possibleDispatch = true ∧ s.verifiedBinding = some d.verified) ∧
      ∀ value ∈ d'.secrets, Covers rules s.boundary value) (Triple.assign fun log s h => ?_)
    fun _ => ?_
  · obtain ⟨hJs, hanswered⟩ := hinitialized log s h.1
    obtain ⟨hundispatched, hverified, hopened, hcovers, hheaders⟩ := hfacts log s hJs
    refine ⟨⟨hundispatched.noCall, ⟨?_, hversion ▸ hanswered, h.2.1⟩⟩, ⟨rfl, hverified⟩, ?_⟩
    · exact ⟨hopened.requests, hopened.resource_eq, hopened.verified, hopened.agrees,
        hopened.pinned, hopened.onWire, hopened.opened⟩
    · exact covers_secrets hcovers hheaders h.2.2
  refine Triple.bind (Q := fun log s answer => Dispatched call log s ∧
    (d'.Justified rules driver call log ∧
      Answered log (.callTool d.verified.providerTool d.serialized) answer) ∧
      ∀ value ∈ d'.secrets, Covers rules s.boundary value) (Triple.effect fun log s h => ?_)
    fun answer => ?_
  · obtain ⟨⟨hno, hjustified⟩, ⟨hpossible, hverified⟩, hcovers⟩ := h
    refine ⟨?_, fun answer => ?_⟩
    · rintro tool arguments ⟨rfl, rfl⟩
      exact ⟨hno, d', hjustified, rfl, rfl⟩
    · exact ⟨⟨not_noCall_append answer rfl, hpossible, d.verified, d.binding, hverified,
        hjustified.requests.binding_eq, hjustified.toOpened.class_eq⟩,
        ⟨hjustified.append, answered_append log _ answer⟩, hcovers⟩
  have hcalled : Calm rules .dispatched (MayRaise call) fun log s => Dispatched call log s ∧
      (d'.Justified rules driver call log ∧
        Answered log (.callTool d.verified.providerTool d.serialized) answer) ∧
        ∀ value ∈ d'.secrets, Covers rules s.boundary value := by
    refine calm_dispatched.and (Stable.and
      (Stable.and (stable_log fun _ _ h => h.append) (stable_answered _ answer))
      (stable_locals fun _ _ h value hvalue => (h value hvalue).add _))
  refine bind_fact (triple_orRaise hcalled answer) fun raw hraw => ?_
  refine bind_fact (triple_check ho hcalled) fun _ _ => ?_
  refine Triple.bind (triple_normalizeCall ho hcalled (fun log s h => h.2.2) d.verified
    d.responseContract raw) fun data => ?_
  let F : Log → Prop := fun log => d'.Justified rules driver call log ∧
    (∃ content normalized,
      Answered log (.callTool d.verified.providerTool d.serialized)
        (Except.ok ⟨true, some content⟩) ∧
      Answered log (.normalizeResponse d.verified content) (Except.ok (some normalized)) ∧
      OnWire rules d.responseContract normalized (.obj data)) ∧
    ∀ value ∈ d'.secrets, value ≠ "" →
      boundaryRejects rules.casefold [rules.casefold value] (.obj data) = false
  have hF : ∀ log entry, F log → F (log ++ [entry]) := by
    rintro log entry ⟨hjustified, ⟨content, normalized, hcall, hnormalize, hwire⟩, hunseen⟩
    exact ⟨hjustified.append, ⟨content, normalized, hcall.append _, hnormalize.append _, hwire⟩,
      hunseen⟩
  have hreturned : Calm rules .dispatched (MayRaise call) fun log s =>
      Dispatched call log s ∧ F log :=
    calm_dispatched.and (stable_log hF)
  have hkeep : Triple (Allowed rules driver call) (fun log s => Dispatched call log s ∧ F log)
      (check >>= fun _ => driver.keepResult rules data)
      (fun log s _ => Succeeded rules driver call log s) (MayRaise call) := by
    refine bind_fact (triple_check ho hreturned) fun _ _ => ?_
    refine (triple_keepResult ho hF data).post fun log s _ h => ?_
    obtain ⟨⟨hdispatched, hjustified, hresponse, hunseen⟩, hsafe, hresult⟩ := h
    exact ⟨hdispatched, d', _, hresult, hjustified, hresponse, hsafe, hunseen, rfl⟩
  refine hkeep.pre fun log s h => ?_
  obtain ⟨⟨hdispatched, ⟨hjustified, hanswered⟩, -⟩, hresponse, hunseen⟩ := h
  obtain ⟨content, normalized, rfl, hnormalize, hwire⟩ := hresponse
  exact ⟨hdispatched, hjustified, ⟨content, normalized, hraw ▸ hanswered, hnormalize, hwire⟩,
    hunseen⟩

/-! ## The whole call -/

lemma triple_attemptCall : Triple (Allowed rules driver call) Undispatched
    (driver.attemptCall rules call) (fun log s _ => Succeeded rules driver call log s)
    (MayRaise call) := by
  have ho : OthersAllowed (Allowed rules driver call) := othersAllowed
  have hI : Calm rules .notDispatched (MayRaise call) Undispatched := calm_undispatched
  refine bind_fact (triple_validateCallBinding hI) fun checked hrequests => ?_
  obtain ⟨connection, binding, arguments⟩ := checked
  refine bind_fact (triple_check ho hI) fun _ _ => ?_
  refine bind_fact (triple_resolveResource hI) fun resource hresource => ?_
  refine bind_fact (triple_check ho hI) fun _ _ => ?_
  refine bind_learn hI (fun _ => stable_covers resource.uri) (triple_addBoundary hI resource.uri)
    fun _ J hJ huri => ?_
  refine bind_learn hJ (fun verified => (stable_answered
    (.verifyBinding connection binding resource.uriSha256) (Except.ok (some verified))).and
    (stable_const (driver.agrees connection binding resource verified = true)))
    (triple_verifyRuntimeBinding ho hJ) fun verified K hK hverified => ?_
  have hkept : Stable rules fun _ s => s.verifiedBinding = some verified :=
    stable_locals fun _ _ h => h
  have hL := (hI.and hkept).and ((@stable_covers rules resource.uri).and
    ((stable_answered (.verifyBinding connection binding resource.uriSha256)
      (Except.ok (some verified))).and
      (stable_const (driver.agrees connection binding resource verified = true))))
  refine Triple.bind (Triple.assign fun log s h => ?_) fun _ => (?_ : Triple _ (fun log s =>
    (Undispatched log s ∧ s.verifiedBinding = some verified) ∧
      Covers rules s.boundary resource.uri ∧
      Answered log (.verifyBinding connection binding resource.uriSha256)
        (Except.ok (some verified)) ∧
      driver.agrees connection binding resource verified = true) _ _ _)
  · obtain ⟨hJs, hanswered⟩ := hverified log s h
    obtain ⟨hundispatched, hcovers⟩ := huri log s hJs
    exact ⟨⟨⟨hundispatched.noCall, hundispatched.possibleDispatch⟩, rfl⟩, hcovers, hanswered⟩
  refine bind_fact (triple_check ho hL) fun _ _ => ?_
  refine bind_learn hL (fun _ => stable_covers verified.providerTool)
    (triple_addBoundary hL verified.providerTool) fun _ M hM htool => ?_
  refine bind_fact (triple_check ho hM) fun _ _ => ?_
  refine bind_learn hM (fun contracts => stable_pinned verified contracts)
    (triple_resolveSchemaModels ho hM) fun contracts N hN hpinned => ?_
  obtain ⟨requestContract, responseContract⟩ := contracts
  refine bind_fact (triple_serializeArguments ho hN arguments requestContract)
    fun serialized hwire => ?_
  refine bind_fact (triple_check ho hN) fun _ _ => ?_
  refine Triple.bind (Q := fun log s _ => Succeeded rules driver call log s)
    (triple_session ho hN robust_mayRaise settled_succeeded fun headers P hP hopened => ?_)
    fun _ => (triple_check ho calm_succeeded).post fun _ _ _ h => h.1
  exact triple_dispatch (d := ⟨connection, binding, arguments, resource, verified, requestContract,
    responseContract, serialized, headers, none⟩) hP fun log s h => by
      obtain ⟨⟨hNs, hheaders⟩, hsession⟩ := hopened log s h
      obtain ⟨hMs, hcontracts⟩ := hpinned log s hNs
      obtain ⟨⟨⟨hundispatched, hbinding⟩, hcovers, hanswered, hagrees⟩, htools⟩ := htool log s hMs
      exact ⟨hundispatched, hbinding, ⟨hrequests, hresource, hanswered, hagrees, hcontracts, hwire,
        hsession⟩, ⟨hcovers, htools⟩, hheaders⟩

/-- The timeout turns cancellations into exceptions only. -/
lemma triple_withinTimeout {x : Driving Unit}
    (hx : Triple (Allowed rules driver call) I x Q (MayRaise call)) :
    Triple (Allowed rules driver call) I (withinTimeout x) Q (MayRaise call) := by
  refine Triple.catching hx fun raised => ?_
  cases raised with
  | cancelled =>
    refine Triple.bind (Q := fun log s _ => MayRaise call log s .cancelled)
      (Triple.effect fun log s h => ⟨othersAllowed log _ rfl, fun answer =>
        robust_mayRaise.grows log s _ answer _ rfl h⟩) fun answer => ?_
    match answer with
    | some facts =>
      exact Triple.raise fun log s h => robust_mayRaise.replaced log s _ _ nofun h
    | none => exact Triple.raise fun _ _ h => h
  | expired facts => exact Triple.raise fun _ _ h => h
  | exception facts => exact Triple.raise fun _ _ h => h
  | runtime error => exact Triple.raise fun _ _ h => h

/-- What `call` raises tells whether the tool has been called. -/
structure Honest (driver : StreamableMCPDriver) (call : CallArguments) (log : Log)
    (raised : Raised) : Prop where
  closed : raised = .cancelled ∨ ∃ error, raised = .runtime error
  certain : ∀ error, raised = .runtime error →
    (error.dispatchCertainty = .notDispatched ↔ NoCall log)
  created : ∀ binding, call.binding = some binding → binding.operationClass = .create →
    ¬ NoCall log → raised = .runtime (driver.failure .outcomeUnknown .unknown)
  isRead : ∀ binding, call.binding = some binding → binding.operationClass = .read →
    ¬ NoCall log → raised = .cancelled ∨ ∃ error, raised = .runtime error ∧
      error.dispatchCertainty = .dispatched

lemma Dispatched.mayHaveCreated (h : Dispatched call log s) {binding : QualifiedCapabilityBinding}
    (hbinding : call.binding = some binding) :
    mayHaveCreated s = true ↔ binding.operationClass = .create := by
  obtain ⟨verified, binding', hverified, hbinding', hclass⟩ := h.class_eq
  obtain rfl := Option.some.inj (hbinding.symm.trans hbinding')
  rw [StreamableMCPDriver.mayHaveCreated, h.possibleDispatch, hverified, Bool.true_and,
    Option.any_some, decide_eq_true_eq, hclass]

/-- What is raised where nothing may have been created. -/
lemma MayRaise.honest {raised : Raised} (h : MayRaise call log s raised)
    (hclosed : raised = .cancelled ∨ ∃ error, raised = .runtime error)
    (hnot : mayHaveCreated s = false) : Honest driver call log raised := by
  obtain ⟨hundispatched, hcertain⟩ | ⟨hdispatched, hcertain⟩ := h
  · exact ⟨hclosed, fun error heq => iff_of_true (hcertain error heq) hundispatched.noCall,
      fun _ _ _ hcalled => absurd hundispatched.noCall hcalled,
      fun _ _ _ hcalled => absurd hundispatched.noCall hcalled⟩
  · refine ⟨hclosed, fun error heq => iff_of_false ?_ hdispatched.called,
      fun binding hbinding hcreate _ => ?_, fun _ _ _ _ => ?_⟩
    · rw [hcertain error heq]
      decide
    · rw [(hdispatched.mayHaveCreated hbinding).2 hcreate] at hnot
      cases hnot
    · exact hclosed.imp_right fun herror => herror.imp fun error heq => ⟨heq, hcertain error heq⟩

lemma dispatchCertainty_dispatchedReadError (facts : ExceptionFacts) (observed : Observations) :
    (driver.dispatchedReadError facts observed).dispatchCertainty = .dispatched := by
  unfold dispatchedReadError
  split
  · rfl
  · split <;> rfl

lemma dispatchCertainty_predispatchError (facts : ExceptionFacts) (observed : Observations) :
    (driver.predispatchError facts observed).dispatchCertainty = .notDispatched := by
  unfold predispatchError
  split
  · rfl
  · split
    · rfl
    · split <;> rfl

lemma certain_runtime {error : ProviderRuntimeError} (h : error.dispatchCertainty = certainty) :
    Certain certainty (.runtime error) := by
  intro other heq
  rw [← Raised.runtime.inj heq, h]

variable {α : Type} {Q' : Log → Locals → Unit → Prop}

lemma triple_classified (facts : ExceptionFacts) : Triple (Allowed rules driver call)
    (fun log s => (∃ raised, (∀ error, raised ≠ .runtime error) ∧ MayRaise call log s raised) ∧
      mayHaveCreated s = false) (driver.classified facts) Q'
    (fun log _ raised => Honest driver call log raised) := by
  refine Triple.bind (Q := fun log s _ => (∃ raised, (∀ error, raised ≠ .runtime error) ∧
    MayRaise call log s raised) ∧ mayHaveCreated s = false) (Triple.effect fun log s h =>
    ⟨othersAllowed log _ rfl, fun answer => ?_⟩) fun observed => ?_
  · obtain ⟨⟨raised, hforeign, hraised⟩, hnot⟩ := h
    exact ⟨⟨raised, hforeign, robust_mayRaise.grows log s _ answer raised rfl hraised⟩, hnot⟩
  refine Triple.bind (Q := fun log s t => ((∃ raised, (∀ error, raised ≠ .runtime error) ∧
    MayRaise call log s raised) ∧ mayHaveCreated s = false) ∧ t = s)
    (Triple.read fun log s h => ⟨h, rfl⟩) fun t => ?_
  split
  next hpossible =>
    refine Triple.raise fun log s h => ?_
    obtain ⟨⟨⟨raised, -, hraised⟩, hnot⟩, rfl⟩ := h
    refine MayRaise.honest (s := t) (.inr ⟨?_, certain_runtime
      (dispatchCertainty_dispatchedReadError facts observed)⟩) (.inr ⟨_, rfl⟩) hnot
    obtain ⟨hundispatched, -⟩ | ⟨hdispatched, -⟩ := hraised
    · exact absurd (hundispatched.possibleDispatch.symm.trans hpossible) (by decide)
    · exact hdispatched
  next hpossible =>
    refine Triple.raise fun log s h => ?_
    obtain ⟨⟨⟨raised, -, hraised⟩, hnot⟩, rfl⟩ := h
    refine MayRaise.honest (s := t) (.inl ⟨?_, certain_runtime
      (dispatchCertainty_predispatchError facts observed)⟩) (.inr ⟨_, rfl⟩) hnot
    obtain ⟨hundispatched, -⟩ | ⟨hdispatched, -⟩ := hraised
    · exact hundispatched
    · exact absurd hdispatched.possibleDispatch hpossible

/-- The `except` arms raise, and are honest. -/
lemma triple_settle (raised : Raised) : Triple (Allowed rules driver call)
    (fun log s => MayRaise call log s raised) (driver.settle raised) Q'
    (fun log _ raised => Honest driver call log raised) := by
  refine Triple.bind (Q := fun log s t => MayRaise call log s raised ∧ t = s)
    (Triple.read fun log s h => ⟨h, rfl⟩) fun t => ?_
  split
  next hcreated =>
    refine Triple.raise fun log s h => ?_
    obtain ⟨⟨hundispatched, -⟩ | ⟨hdispatched, -⟩, rfl⟩ := h
    · rw [mayHaveCreated, hundispatched.possibleDispatch] at hcreated
      cases hcreated
    · refine ⟨.inr ⟨_, rfl⟩, fun error heq => iff_of_false ?_ hdispatched.called,
        fun _ _ _ _ => rfl, fun binding hbinding hread _ => ?_⟩
      · rw [← Raised.runtime.inj heq]
        change DispatchCertainty.unknown ≠ .notDispatched
        decide
      · rw [(hdispatched.mayHaveCreated hbinding).1 hcreated] at hread
        cases hread
  next hnot =>
    have hfalse := Bool.eq_false_iff.2 hnot
    have hclassified : (∀ error, raised ≠ .runtime error) → ∀ facts,
        Triple (Allowed rules driver call) (fun log s => MayRaise call log s raised ∧ t = s)
        (driver.classified facts) Q'
        (fun log _ raised => Honest driver call log raised) := by
      intro hforeign facts
      refine (triple_classified facts).pre fun log s h => ?_
      obtain ⟨hraised, rfl⟩ := h
      exact ⟨⟨raised, hforeign, hraised⟩, hfalse⟩
    cases raised with
    | cancelled =>
      refine Triple.raise fun log s h => ?_
      exact h.1.honest (.inl rfl) (h.2 ▸ hfalse)
    | runtime error =>
      refine Triple.raise fun log s h => ?_
      exact h.1.honest (.inr ⟨error, rfl⟩) (h.2 ▸ hfalse)
    | expired facts => exact hclassified nofun _
    | exception facts => exact hclassified nofun _

/-- What a call does, returns and raises. -/
lemma triple_call : Triple (Allowed rules driver call) Undispatched (driver.call rules call)
    (fun log _ result => ¬ NoCall log ∧ ∃ d : Dispatch, d.Returned rules driver call log result)
    (fun log _ raised => Honest driver call log raised) := by
  have hselect : Triple (Allowed rules driver call) Undispatched
      (driver.selectOperationDeadline call) (fun log s _ => Undispatched log s)
      (fun log _ raised => Honest driver call log raised) := by
    unfold selectOperationDeadline
    split
    · exact Triple.pure fun _ _ h => h
    · refine Triple.raise fun log s h => ?_
      refine MayRaise.honest (s := s) (.inl ⟨h, certain_runtime rfl⟩) (.inr ⟨_, rfl⟩) ?_
      rw [mayHaveCreated, h.possibleDispatch, Bool.false_and]
  refine Triple.bind hselect fun _ => ?_
  refine Triple.bind (Triple.catching (triple_withinTimeout triple_attemptCall) triple_settle)
    fun _ => ?_
  refine Triple.bind (Q := fun log s t => Succeeded rules driver call log s ∧ t = s)
    (Triple.read fun log s h => ⟨h, rfl⟩) fun t => ?_
  cases hresult : t.result with
  | none =>
    refine Triple.raise fun log s h => ?_
    obtain ⟨⟨-, d, result, hsome, -⟩, rfl⟩ := h
    cases hresult.symm.trans hsome
  | some result =>
    refine Triple.bind (Q := fun log s _ => ¬ NoCall log ∧
      ∃ d : Dispatch, d.Returned rules driver call log result) ?_
      fun _ => Triple.pure fun _ _ h => h
    refine Triple.catching ?_ triple_settle
    have hkept : Calm rules .dispatched (MayRaise call) fun log s => Dispatched call log s ∧
        ∃ d : Dispatch, d.Returned rules driver call log result :=
      calm_dispatched.and (stable_log fun _ _ h => h.imp fun _ h => h.append)
    refine ((triple_check othersAllowed hkept).post
      fun log s _ h => ⟨h.1.1.called, h.1.2⟩).pre fun log s h => ?_
    obtain ⟨⟨hdispatched, d, result', hsome, hreturned⟩, rfl⟩ := h
    obtain rfl := Option.some.inj (hresult.symm.trans hsome)
    exact ⟨hdispatched, d, hreturned⟩

end

/-! ## A create -/

section

/-- 64 digits. -/
def sampleHash : String :=
  String.ofList (List.replicate 64 'a')

def noteModel : WireModel :=
  ⟨"Note", true, true, true, some (.obj [("type", .str "object"),
    ("additionalProperties", .bool false),
    ("properties", .obj [("note", .obj [("type", .str "string")])])])⟩

def sampleRules : DriverRules where
  validator := ⟨fun _ => true, fun _ _ => true⟩
  formatCheckers := []
  depth := 8
  sha256 := fun _ => sampleHash
  revalidate := fun _ value => some value
  dump := fun value => some (.obj value.fields)
  casefold := id
  isCredentialSafe := fun _ => true
  isCleanHttpsUrl := fun _ => true

def uatConnection : ConnectionRecord where
  tenantId := 1
  workspaceId := 2
  authUserId := 3
  provider := .peak
  environment := "uat"
  providerAccountId := "account"
  id := 4
  accountDisplayName := "Account"
  authorizationMethod := .providerCredentials
  grantedPermissions := []
  readiness := .requiresValidation
  revision := 1
  lastValidatedAt := none
  credentialEnvelopeIds := [5]
  providerRevocationRequired := false
  disconnectedAt := none
  createdAt := 0
  updatedAt := 0

def peakDriver : StreamableMCPDriver :=
  ⟨.peak, fun _ => some "https://mcp.example", true, true, true, true, true⟩

def createCall : CallArguments where
  connection := some uatConnection
  binding := some
    ⟨.peak, "uat", "documents.invoice.create", "create_invoice", .create, sampleHash⟩
  arguments := some ⟨noteModel, [("note", .str "a")]⟩
  operationId := some 7
  deadlineIsValid := true

/-- Everyone does what is asked of them; closing the session may raise. -/
def sampleAnswer (closed : Option Foreign) : (e : Effect) → Reply e
  | .check => (none : Option ExceptionFacts)
  | .verifyBinding .. => Except.ok (some ⟨.enabled, .peak, "uat", sampleHash,
      "documents.invoice.create", "1", "create_invoice", .create, sampleHash, sampleHash,
      sampleHash⟩)
  | .resolveRequestModel _ => Except.ok (some noteModel)
  | .resolveResponseModel _ => Except.ok (some noteModel)
  | .headerFactory _ => Except.ok (some ⟨.peak, .providerCredentials, [⟨"user-token", "s"⟩]⟩)
  | .openSession .. => Except.ok ()
  | .handshake => Except.ok (some protocolVersion)
  | .getSessionId => Except.ok none
  | .callTool .. => Except.ok ⟨true, some []⟩
  | .normalizeResponse .. => Except.ok (some ⟨noteModel, [("note", .str "done")]⟩)
  | .closeSession => closed
  | .leaveTimeout => (none : Option ExceptionFacts)
  | .observe => ⟨false, false⟩

def sampleLog (closed : Option Foreign) : Log :=
  (peakDriver.call sampleRules createCall Locals.initial).trace (sampleAnswer closed)

/-- The result of a call, where everyone answers so. -/
def sampleResult (closed : Option Foreign) : Option (Except Raised ProviderCallResult) :=
  ((peakDriver.call sampleRules createCall Locals.initial).returns (sampleAnswer closed)).map
    Prod.fst

/-- Anything may happen. -/
def anything : Rules Unit Effect Reply Unit :=
  ⟨fun _ _ _ _ => True, fun _ => True, fun _ _ => True⟩

lemma performs_sample (closed : Option Foreign) (result : Except Raised ProviderCallResult)
    (h : sampleResult closed = some result) : ∃ s, Performs anything ()
      (peakDriver.call sampleRules createCall Locals.initial) (sampleLog closed) ()
      (.done (result, s)) := by
  obtain ⟨⟨result', s⟩, hreturns, rfl⟩ := Option.map_eq_some_iff.1 h
  exact ⟨s, Program.performs_trace (fun _ => trivial) hreturns⟩

end

/-! ## Every run -/

section

variable {rules : DriverRules} {driver : StreamableMCPDriver} {call : CallArguments} {log : Log}
  {s : Locals} {ρ τ : Type} {world : Rules ρ Effect Reply τ} {r r' : ρ}
  {rest : Program Effect Reply (Except Raised ProviderCallResult × Locals)}

lemma undispatched_initial : Undispatched [] Locals.initial :=
  ⟨fun _ hentry => absurd hentry List.not_mem_nil, rfl⟩

/-- Whatever others do, the tool is called at most once in a call, and only with a verified, enabled
binding that agrees with the one that was asked for, in a session with the resource of that binding,
and with the arguments as the pinned schema accepts them. -/
theorem call_justified
    (hrun : Performs world r (driver.call rules call Locals.initial) log r' rest)
    {before after : Log} {tool : String} {arguments : Dict String Json}
    {answer : Reply (.callTool tool arguments)}
    (hlog : log = before ++ ⟨.callTool tool arguments, answer⟩ :: after) :
    NoCall before ∧ ∃ d : Dispatch, d.Justified rules driver call before ∧
      d.verified.providerTool = tool ∧ d.serialized = arguments :=
  (triple_call.performs undispatched_initial hrun).1 before _ answer after hlog tool arguments rfl

theorem call_justified_create : ((sampleLog none).any fun entry => isCall entry.1) = true ∧
    ∀ (before after : Log) (tool : String) (arguments : Dict String Json)
      (answer : Reply (.callTool tool arguments)),
      sampleLog none = before ++ ⟨.callTool tool arguments, answer⟩ :: after →
        NoCall before ∧ ∃ d : Dispatch, d.Justified sampleRules peakDriver createCall before ∧
          d.verified.providerTool = tool ∧ d.serialized = arguments := by
  refine ⟨by decide +kernel, fun before after tool arguments answer hlog => ?_⟩
  obtain ⟨s, hrun⟩ := performs_sample none
    (.ok ⟨.peak, .success, [("note", .str "done")], .dispatched⟩) (by decide +kernel)
  exact call_justified hrun hlog

/-- Whatever others do, a call that raises tells whether its tool has been called, and a create
whose tool has been called raises nothing but the unknown outcome. -/
theorem call_honest {raised : Raised}
    (hrun : Performs world r (driver.call rules call Locals.initial) log r'
      (.done (.error raised, s))) : Honest driver call log raised :=
  (triple_call.performs undispatched_initial hrun).2 (.error raised) s rfl

theorem call_honest_create : Honest peakDriver createCall (sampleLog (some .cancelled))
    (.runtime ⟨.outcomeUnknown, .peak, .unknown⟩) := by
  obtain ⟨s, hrun⟩ := performs_sample (some .cancelled)
    (.error (.runtime ⟨.outcomeUnknown, .peak, .unknown⟩)) (by decide +kernel)
  exact call_honest hrun

/-- Whatever others do, what a call returns is the normalized answer of the tool, which has passed
the checks of the pinned schema and shows no value of the request's boundary. -/
theorem call_returned {result : ProviderCallResult}
    (hrun : Performs world r (driver.call rules call Locals.initial) log r'
      (.done (.ok result, s))) :
    ¬ NoCall log ∧ ∃ d : Dispatch, d.Returned rules driver call log result :=
  (triple_call.performs undispatched_initial hrun).2 (.ok result) s rfl

theorem call_returned_create : ¬ NoCall (sampleLog none) ∧ ∃ d : Dispatch,
    d.Returned sampleRules peakDriver createCall (sampleLog none)
      ⟨.peak, .success, [("note", .str "done")], .dispatched⟩ := by
  obtain ⟨s, hrun⟩ := performs_sample none
    (.ok ⟨.peak, .success, [("note", .str "done")], .dispatched⟩) (by decide +kernel)
  exact call_returned hrun

end

end StreamableMCPDriver

end MercuryTools.Providers
