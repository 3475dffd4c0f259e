import MercuryTools.Providers.StreamableDriver

/-!
# The steps of a call

What the steps of `call` learn from the answers of others, whatever these are.  A step starts where
an assertion holds that others cannot make false (`Stable`) and that allows for what the step may
raise (`Calm`); it ends where the assertion still holds and something more is known.
-/

namespace MercuryTools.Providers

open Programs Checks

namespace Driver

abbrev Log : Type :=
  History Effect Reply

/-- The effect has been performed, and this was the answer. -/
def Answered (log : Log) (e : Effect) (a : Reply e) : Prop :=
  (⟨e, a⟩ : (e : Effect) × Reply e) ∈ log

def isCall : Effect → Bool
  | .callTool .. => true
  | _ => false

/-- The tool has not been called. -/
def NoCall (log : Log) : Prop :=
  ∀ entry ∈ log, isCall entry.1 = false

/-- What may be raised while the tool has, or has not, been called. -/
def Certain (certainty : DispatchCertainty) (raised : Raised) : Prop :=
  ∀ error, raised = .runtime error → error.dispatchCertainty = certainty

/-! ## Assertions -/

section

variable (rules : DriverRules)

/-- Effects other than a call of the tool, and more values of the boundary, do no harm. -/
structure Stable (I : Log → Locals → Prop) : Prop where
  grows : ∀ log s e a, isCall e = false → I log s → I (log ++ [⟨e, a⟩]) s
  adds : ∀ log s value, I log s →
    I log { s with boundary := addBoundaryValue rules.casefold s.boundary value }

/-- A stable assertion under which errors of this certainty may be raised. -/
structure Calm (certainty : DispatchCertainty) (R : Log → Locals → Raised → Prop)
    (I : Log → Locals → Prop) : Prop extends Stable rules I where
  raises : ∀ log s raised, Certain certainty raised → I log s → R log s raised

/-- The boundary has the value. -/
def Covers (boundary : List String) (value : String) : Prop :=
  value = "" ∨ rules.casefold value ∈ boundary

end

section

variable {rules : DriverRules} {allowed : Log → Effect → Prop} {certainty : DispatchCertainty}
  {R : Log → Locals → Raised → Prop} {I J : Log → Locals → Prop} {α β : Type}

variable {e : Effect} {raised : Raised} {x : Driving α} {f : α → Driving β}
  {Q : Log → Locals → β → Prop} {error : ProviderRuntimeError}

lemma Answered.append {log : Log} {a : Reply e} (h : Answered log e a)
    (entry : (e : Effect) × Reply e) : Answered (log ++ [entry]) e a :=
  List.mem_append_left _ h

lemma answered_append (log : Log) (e : Effect) (a : Reply e) :
    Answered (log ++ [⟨e, a⟩]) e a :=
  List.mem_append_right _ (List.mem_singleton_self _)

lemma Covers.add {boundary : List String} {value : String} (h : Covers rules boundary value)
    (other : String) : Covers rules (addBoundaryValue rules.casefold boundary other) value := by
  unfold addBoundaryValue
  split
  · exact h
  · exact h.imp_right (List.mem_cons_of_mem _)

lemma covers_add (boundary : List String) (value : String) :
    Covers rules (addBoundaryValue rules.casefold boundary value) value := by
  unfold addBoundaryValue Covers
  split
  next h => exact .inl h
  · exact .inr List.mem_cons_self

/-- What is known of the log alone. -/
lemma stable_log {F : Log → Prop} (hF : ∀ log entry, F log → F (log ++ [entry])) :
    Stable rules fun log _ => F log :=
  ⟨fun log _ _ _ _ h => hF log _ h, fun _ _ _ h => h⟩

/-- What is known of the variables alone. -/
lemma stable_locals {p : Locals → Prop} (hp : ∀ s value, p s →
      p { s with boundary := addBoundaryValue rules.casefold s.boundary value }) :
    Stable rules fun _ s => p s :=
  ⟨fun _ _ _ _ _ h => h, fun _ s value h => hp s value h⟩

lemma stable_answered (e : Effect) (a : Reply e) :
    Stable rules fun log _ => Answered log e a :=
  stable_log fun _ entry h => h.append entry

lemma stable_const (p : Prop) : Stable rules fun _ _ => p :=
  stable_log fun _ _ h => h

lemma stable_covers (value : String) : Stable rules fun _ s => Covers rules s.boundary value :=
  stable_locals fun _ _ h => h.add _

lemma Stable.and (hI : Stable rules I) (hJ : Stable rules J) :
    Stable rules fun log s => I log s ∧ J log s :=
  ⟨fun log s e a hq h => ⟨hI.grows log s e a hq h.1, hJ.grows log s e a hq h.2⟩,
    fun log s value h => ⟨hI.adds log s value h.1, hJ.adds log s value h.2⟩⟩

lemma stable_forall {ι : Type} {p : ι → Prop} {K : ι → Log → Locals → Prop}
    (h : ∀ i, Stable rules (K i)) : Stable rules fun log s => ∀ i, p i → K i log s :=
  ⟨fun log s e a hq hK i hi => (h i).grows log s e a hq (hK i hi),
    fun log s value hK i hi => (h i).adds log s value (hK i hi)⟩

/-- More may be known. -/
lemma Calm.and (hI : Calm rules certainty R I) (hJ : Stable rules J) :
    Calm rules certainty R fun log s => I log s ∧ J log s :=
  ⟨hI.toStable.and hJ, fun log s raised hcertain h => hI.raises log s raised hcertain h.1⟩

lemma certain_of_foreign (h : ∀ error, raised ≠ .runtime error) : Certain certainty raised :=
  fun error heq => absurd heq (h error)

/-- Only calls of the tool need to be allowed. -/
def OthersAllowed (allowed : Log → Effect → Prop) : Prop :=
  ∀ log e, isCall e = false → allowed log e

/-! ## Rules -/

/-- A step that learns something, and what is done with that. -/
lemma bind_learn {K : α → Log → Locals → Prop} (hI : Calm rules certainty R I)
    (hK : ∀ a, Stable rules (K a)) (hx : Triple allowed I x (fun log s a => I log s ∧ K a log s) R)
    (hf : ∀ a J, Calm rules certainty R J → (∀ log s, J log s → I log s ∧ K a log s) →
      Triple allowed J (f a) Q R) : Triple allowed I (x >>= f) Q R :=
  Triple.bind hx fun a => hf a _ (hI.and (hK a)) fun _ _ h => h

/-- A step that learns what holds at all times. -/
lemma bind_fact {p : α → Prop} (hx : Triple allowed I x (fun log s a => I log s ∧ p a) R)
    (hf : ∀ a, p a → Triple allowed I (f a) Q R) : Triple allowed I (x >>= f) Q R :=
  Triple.bind hx fun a log s h => hf a h.2 log s h.1

lemma triple_ask (ho : OthersAllowed allowed) (hI : Calm rules certainty R I)
    (he : isCall e = false) : Triple allowed I (ask e)
      (fun log s a => I log s ∧ Answered log e a) R :=
  Triple.effect fun log s h =>
    ⟨ho log e he, fun a => ⟨hI.grows log s e a he h, answered_append log e a⟩⟩

lemma bind_ask (ho : OthersAllowed allowed) (hI : Calm rules certainty R I) (he : isCall e = false)
    {f : Reply e → Driving β}
    (hf : ∀ a J, Calm rules certainty R J → (∀ log s, J log s → I log s ∧ Answered log e a) →
      Triple allowed J (f a) Q R) : Triple allowed I (ask e >>= f) Q R :=
  bind_learn hI (fun a => stable_answered e a) (triple_ask ho hI he) hf

/-- What is not the driver's own error may be raised. -/
lemma triple_raise (hI : Calm rules certainty R I) {Q : Log → Locals → α → Prop}
    (hraised : ∀ error, raised ≠ .runtime error) : Triple allowed I (Raising.raise raised) Q R :=
  Triple.raise fun log s h => hI.raises log s raised (certain_of_foreign hraised) h

lemma triple_check (ho : OthersAllowed allowed) (hI : Calm rules certainty R I) :
    Triple allowed I check (fun log s _ => I log s ∧ True) R := by
  refine Triple.bind (triple_ask ho hI (e := .check) rfl) fun answer => ?_
  cases answer with
  | none => exact Triple.pure fun log s h => ⟨h.1, trivial⟩
  | some facts =>
    exact Triple.raise fun log s h => hI.raises log s _ (certain_of_foreign nofun) h.1

lemma triple_orRaise (hI : Calm rules certainty R I) (answer : Except Foreign α) :
    Triple allowed I (orRaise answer) (fun log s a => I log s ∧ answer = .ok a) R := by
  cases answer with
  | ok a => exact Triple.pure fun log s h => ⟨h, rfl⟩
  | error raised => exact triple_raise hI (by cases raised <;> exact nofun)

lemma triple_demand (hI : Calm rules certainty R I) (condition : Bool) :
    Triple allowed I (demand condition) (fun log s _ => I log s ∧ condition = true) R := by
  cases condition with
  | true => exact Triple.pure fun log s h => ⟨h, rfl⟩
  | false => exact triple_raise hI nofun

lemma triple_demandSome (hI : Calm rules certainty R I) (value : Option α) :
    Triple allowed I (demandSome value) (fun log s a => I log s ∧ value = some a) R := by
  cases value with
  | some a => exact Triple.pure fun log s h => ⟨h, rfl⟩
  | none => exact triple_raise hI nofun

lemma triple_demandOk (hI : Calm rules certainty R I) (result : Except String α) :
    Triple allowed I (demandOk result) (fun log s a => I log s ∧ result = .ok a) R := by
  refine (triple_demandSome hI result.toOption).post fun log s a h => ⟨h.1, ?_⟩
  cases result with
  | ok b => rw [Except.toOption, Option.some_inj] at h; rw [h.2]
  | error code => cases h.2

lemma triple_fail (hI : Calm rules certainty R I) {Q : Log → Locals → α → Prop}
    (herror : error.dispatchCertainty = certainty) :
    Triple allowed I (Raising.raise (.runtime error)) Q R := by
  refine Triple.raise fun log s h => hI.raises log s _ (fun other heq => ?_) h
  rw [← Raised.runtime.inj heq, herror]

lemma triple_addBoundary (hI : Calm rules certainty R I) (value : String) :
    Triple allowed I (addBoundary rules.casefold value)
      (fun log s _ => I log s ∧ Covers rules s.boundary value) R :=
  Triple.assign fun log s h => ⟨hI.adds log s value h, covers_add s.boundary value⟩

/-- Within a guard, every error of any kind may be raised. -/
lemma triple_guarded {Q : Log → Locals → α → Prop} (herror : error.dispatchCertainty = certainty)
    (hI : Calm rules certainty R I) (hx : Calm rules certainty (fun log s _ => I log s) I →
      Triple allowed I x Q fun log s _ => I log s) : Triple allowed I (guarded error x) Q R := by
  refine Triple.catching (hx ⟨hI.toStable, fun _ _ _ _ h => h⟩) fun raised => ?_
  cases raised with
  | cancelled => exact triple_raise hI nofun
  | expired facts => exact triple_raise hI nofun
  | exception facts => exact triple_fail hI herror
  | runtime other => exact triple_fail hI herror

end

/-! ## What the steps learn -/

section

variable {rules : DriverRules} {allowed : Log → Effect → Prop}
  {R : Log → Locals → Raised → Prop} {I : Log → Locals → Prop}

/-- What an instance is on the wire: validated again by the model of the contract, and accepted by
its schema. -/
structure OnWire (rules : DriverRules) (contract : WireModelContract) (value : ModelInstance)
    (serialized : Json) : Prop where
  model_eq : value.model = contract.model
  dumped : ∃ again, rules.revalidate contract.model value = some again ∧
    again.model = contract.model ∧ rules.dump again = some serialized
  accepted : contract.validate rules serialized = .ok ()

/-- The contracts that a verified binding pins. -/
structure Pinned (rules : DriverRules) (log : Log) (verified : VerifiedRuntimeBinding)
    (requestContract responseContract : WireModelContract) : Prop where
  request : ∃ model, Answered log (.resolveRequestModel verified) (Except.ok model) ∧
    wireModelContract rules model = .ok requestContract
  response : ∃ model, Answered log (.resolveResponseModel verified) (Except.ok model) ∧
    wireModelContract rules model = .ok responseContract
  request_eq : requestContract.schemaSha256 = verified.requestSchemaSha256
  response_eq : responseContract.schemaSha256 = verified.responseSchemaSha256

/-- The boundary has the names and the values of the headers. -/
def CoversHeaders (rules : DriverRules) (boundary : List String) (headers : Dict String String) :
    Prop :=
  ∀ header ∈ headers, Covers rules boundary header.1 ∧ Covers rules boundary header.2

lemma Pinned.append {log : Log} {verified : VerifiedRuntimeBinding}
    {requestContract responseContract : WireModelContract}
    (h : Pinned rules log verified requestContract responseContract)
    (entry : (e : Effect) × Reply e) :
    Pinned rules (log ++ [entry]) verified requestContract responseContract := by
  obtain ⟨⟨model, hmodel, hcontract⟩, ⟨model', hmodel', hcontract'⟩, heq, heq'⟩ := h
  exact ⟨⟨model, hmodel.append _, hcontract⟩, ⟨model', hmodel'.append _, hcontract'⟩, heq, heq'⟩

lemma stable_pinned (verified : VerifiedRuntimeBinding)
    (contracts : WireModelContract × WireModelContract) :
    Stable rules fun log _ => Pinned rules log verified contracts.1 contracts.2 :=
  stable_log fun _ entry h => h.append entry

lemma stable_coversHeaders (headers : Dict String String) :
    Stable rules fun _ s => CoversHeaders rules s.boundary headers :=
  stable_locals fun _ _ h header hheader =>
    ⟨(h header hheader).1.add _, (h header hheader).2.add _⟩

end

end Driver

namespace StreamableMCPDriver

open Driver

variable {rules : DriverRules} {driver : StreamableMCPDriver} {allowed : Log → Effect → Prop}
  {R : Log → Locals → Raised → Prop} {I : Log → Locals → Prop} {call : CallArguments}
  {connection : ConnectionRecord} {untrusted : QualifiedCapabilityBinding}
  {resource : ResolvedProviderResource} {verified : VerifiedRuntimeBinding}
  {certainty : DispatchCertainty}

/-- What a valid call asks for. -/
structure Requests (driver : StreamableMCPDriver) (call : CallArguments)
    (connection : ConnectionRecord) (binding : QualifiedCapabilityBinding)
    (arguments : ModelInstance) : Prop where
  connection_eq : call.connection = some connection
  binding_eq : call.binding = some binding
  arguments_eq : call.arguments = some arguments
  provider_eq : connection.provider = driver.provider ∧ binding.provider = driver.provider
  environment_eq : binding.environment = connection.environment
  method_eq : connection.authorizationMethod = authAdapter driver.provider

lemma triple_validateConnectionBinding (hI : Calm rules .notDispatched R I) :
    Triple allowed I (driver.validateConnectionBinding call.connection)
      (fun log s checked => I log s ∧ (call.connection = some checked ∧
        checked.provider = driver.provider ∧
        checked.authorizationMethod = authAdapter driver.provider)) R := by
  unfold validateConnectionBinding
  cases hconnection : call.connection.filter (·.isValid) with
  | none => exact triple_fail hI rfl
  | some checked =>
    have hsome := (Option.filter_eq_some_iff.1 hconnection).1
    dsimp only
    split
    · exact triple_fail hI rfl
    next hmethod =>
      split
      · exact triple_fail hI rfl
      next hprovider =>
        exact Triple.pure fun log s h =>
          ⟨h, hsome, not_not.1 (not_or.1 hprovider).1, not_not.1 hmethod⟩

lemma triple_validateCallBinding (hI : Calm rules .notDispatched R I) :
    Triple allowed I (driver.validateCallBinding call)
      (fun log s checked => I log s ∧ driver.Requests call checked.1 checked.2.1 checked.2.2)
      R := by
  refine bind_fact (triple_validateConnectionBinding hI) fun connection hconnection => ?_
  obtain ⟨hsome, hprovider, hmethod⟩ := hconnection
  split
  next binding arguments _ hbinding harguments _ =>
    split
    next hbind =>
      exact Triple.pure fun log s h => ⟨h, hsome, (Option.filter_eq_some_iff.1 hbinding).1,
        harguments, ⟨hprovider, hbind.1⟩, hbind.2, hmethod⟩
    · exact triple_fail hI rfl
  · exact triple_fail hI rfl

lemma triple_resolveResource (hI : Calm rules .notDispatched R I) :
    Triple allowed I (driver.resolveResource rules connection) (fun log s resource =>
      I log s ∧ driver.resolveProviderResource rules connection.environment = some resource) R := by
  unfold resolveResource
  split
  next resource hresource => exact Triple.pure fun log s h => ⟨h, hresource⟩
  · exact triple_fail hI rfl

/-- The verified binding is what the verifier answered, and agrees with what was asked for. -/
lemma triple_verifyRuntimeBinding (ho : OthersAllowed allowed)
    (hI : Calm rules .notDispatched R I) :
    Triple allowed I (driver.verifyRuntimeBinding connection untrusted resource)
      (fun log s verified => I log s ∧
        (Answered log (.verifyBinding connection untrusted resource.uriSha256)
          (Except.ok (some verified)) ∧
        driver.agrees connection untrusted resource verified = true)) R := by
  have hinner : Triple allowed I (guarded (driver.failure .responseInvalid .notDispatched) do
      demand driver.hasBindingVerifier
      let answer : Except Foreign (Option VerifiedRuntimeBinding) ←
        ask (.verifyBinding connection untrusted resource.uriSha256)
      let value ← orRaise answer
      check
      let verified ← demandSome (value.filter (·.isValid))
      check
      return verified)
      (fun log s verified => I log s ∧
        Answered log (.verifyBinding connection untrusted resource.uriSha256)
          (Except.ok (some verified))) R := by
    refine triple_guarded rfl hI fun hI => ?_
    refine bind_fact (triple_demand hI _) fun _ _ => ?_
    refine bind_ask ho hI rfl fun answer J hJ hanswer => ?_
    refine bind_fact (triple_orRaise hJ answer) fun value hvalue => ?_
    refine bind_fact (triple_check ho hJ) fun _ _ => ?_
    refine bind_fact (triple_demandSome hJ _) fun verified hverified => ?_
    refine bind_fact (triple_check ho hJ) fun _ _ => Triple.pure fun log s h => ?_
    obtain ⟨hI, hanswered⟩ := hanswer log s h
    rw [hvalue, (Option.filter_eq_some_iff.1 hverified).1] at hanswered
    exact ⟨hI, hanswered⟩
  refine bind_learn hI (fun verified => stable_answered
    (.verifyBinding connection untrusted resource.uriSha256) (Except.ok (some verified))) hinner
    fun verified J hJ hanswered => ?_
  split
  next hagrees =>
    exact Triple.pure fun log s h => ⟨(hanswered log s h).1, (hanswered log s h).2, hagrees⟩
  · exact triple_fail hJ rfl

lemma triple_resolveSchemaModels (ho : OthersAllowed allowed)
    (hI : Calm rules .notDispatched R I) :
    Triple allowed I (driver.resolveSchemaModels rules verified) (fun log s contracts =>
      I log s ∧ Pinned rules log verified contracts.1 contracts.2) R := by
  refine triple_guarded rfl hI fun hI => ?_
  refine bind_fact (triple_demand hI _) fun _ _ => ?_
  refine bind_ask ho hI rfl fun answer J hJ hrequest => ?_
  refine bind_fact (triple_orRaise hJ answer) fun requestModel hmodel => ?_
  refine bind_fact (triple_check ho hJ) fun _ _ => ?_
  refine bind_ask ho hJ rfl fun answer' K hK hresponse => ?_
  refine bind_fact (triple_orRaise hK answer') fun responseModel hmodel' => ?_
  refine bind_fact (triple_check ho hK) fun _ _ => ?_
  refine bind_fact (triple_demandOk hK _) fun requestContract hcontract => ?_
  refine bind_fact (triple_check ho hK) fun _ _ => ?_
  refine bind_fact (triple_demandOk hK _) fun responseContract hcontract' => ?_
  refine bind_fact (triple_check ho hK) fun _ _ => ?_
  refine bind_fact (triple_demand hK _) fun _ hhash => Triple.pure fun log s h => ?_
  obtain ⟨hJ, hanswered'⟩ := hresponse log s h
  obtain ⟨hI, hanswered⟩ := hrequest log s hJ
  rw [Bool.and_eq_true, decide_eq_true_eq, decide_eq_true_eq] at hhash
  exact ⟨hI, ⟨requestModel, hmodel ▸ hanswered, hcontract⟩,
    ⟨responseModel, hmodel' ▸ hanswered', hcontract'⟩, hhash.1, hhash.2⟩

/-! ### Instances and their JSON -/

lemma triple_revalidated (ho : OthersAllowed allowed) (hI : Calm rules certainty R I)
    (contract : WireModelContract) (value : ModelInstance) :
    Triple allowed I (revalidated rules contract value) (fun log s again => I log s ∧
      (rules.revalidate contract.model value = some again ∧ again.model = contract.model)) R := by
  refine bind_fact (triple_demandSome hI _) fun again hagain => ?_
  refine bind_fact (triple_check ho hI) fun _ _ => ?_
  refine bind_fact (triple_demand hI _) fun _ hmodel => Triple.pure fun log s h => ?_
  exact ⟨h, hagain, of_decide_eq_true hmodel⟩

lemma triple_dumped (ho : OthersAllowed allowed) (hI : Calm rules certainty R I)
    (value : ModelInstance) : Triple allowed I (dumped rules value)
      (fun log s serialized => I log s ∧ rules.dump value = some serialized) R := by
  refine bind_fact (triple_demandSome hI _) fun serialized hserialized => ?_
  exact bind_fact (triple_check ho hI) fun _ _ => Triple.pure fun log s h => ⟨h, hserialized⟩

lemma triple_accepted (ho : OthersAllowed allowed) (hI : Calm rules certainty R I)
    (contract : WireModelContract) (value : Json) : Triple allowed I (accepted rules contract value)
      (fun log s _ => I log s ∧ contract.validate rules value = .ok ()) R := by
  refine bind_fact (triple_demandOk hI _) fun _ haccepted => ?_
  exact (triple_check ho hI).post fun log s _ h => ⟨h.1, haccepted⟩

lemma triple_demandMapping (hI : Calm rules certainty R I) (value : Json) :
    Triple allowed I (demandMapping value)
      (fun log s fields => I log s ∧ value = .obj fields) R := by
  cases value with
  | obj fields => exact Triple.pure fun log s h => ⟨h, rfl⟩
  | _ => exact triple_raise hI nofun

lemma triple_serializeArguments (ho : OthersAllowed allowed) (hI : Calm rules .notDispatched R I)
    (arguments : ModelInstance) (contract : WireModelContract) :
    Triple allowed I (driver.serializeArguments rules arguments contract)
      (fun log s serialized => I log s ∧ OnWire rules contract arguments (.obj serialized)) R := by
  refine triple_guarded rfl hI fun hI => ?_
  refine bind_fact (triple_demand hI _) fun _ hmodel => ?_
  refine bind_fact (triple_revalidated ho hI contract arguments) fun again hagain => ?_
  refine bind_fact (triple_dumped ho hI again) fun value hdump => ?_
  refine bind_fact (triple_demandMapping hI value) fun serialized hserialized => ?_
  refine bind_fact (triple_accepted ho hI contract _) fun _ haccepted =>
    Triple.pure fun log s h => ?_
  exact ⟨h, of_decide_eq_true hmodel, ⟨again, hagain.1, hagain.2, hserialized ▸ hdump⟩, haccepted⟩

/-! ### The session -/

variable {headers : Dict String String}

lemma mem_set {name value : String} {entry : String × String} (h : entry ∈ headers.set name value) :
    entry ∈ headers ∨ entry = (name, value) := by
  unfold Dict.set at h
  split at h
  · obtain ⟨other, hother, heq⟩ := List.mem_map.1 h
    split at heq
    · exact .inr heq.symm
    · exact .inl (heq ▸ hother)
  · exact (List.mem_append.1 h).imp_right List.mem_singleton.1

lemma triple_addHeader (hI : Calm rules certainty R I)
    (hheaders : ∀ log s, I log s → CoversHeaders rules s.boundary headers)
    (header : ProviderAuthHeader) : Triple allowed I (addHeader rules headers header)
      (fun log s headers => I log s ∧ CoversHeaders rules s.boundary headers) R := by
  refine bind_fact (triple_demand hI _) fun _ _ => ?_
  refine bind_learn hI (fun _ => stable_covers header.name) (triple_addBoundary hI header.name)
    fun _ J hJ hname => ?_
  refine bind_learn hJ (fun _ => stable_covers header.value) (triple_addBoundary hJ header.value)
    fun _ K hK hvalue => Triple.pure fun log s h => ?_
  obtain ⟨hJ, hcovers'⟩ := hvalue log s h
  obtain ⟨hI, hcovers⟩ := hname log s hJ
  refine ⟨hI, fun entry hentry => ?_⟩
  rcases mem_set hentry with hentry | rfl
  · exact hheaders log s hI entry hentry
  · exact ⟨hcovers, hcovers'⟩

lemma triple_addHeaders (hI : Calm rules certainty R I) (added : List ProviderAuthHeader)
    (hheaders : ∀ log s, I log s → CoversHeaders rules s.boundary headers) :
    Triple allowed I (added.foldlM (addHeader rules) headers)
      (fun log s headers => I log s ∧ CoversHeaders rules s.boundary headers) R := by
  induction added generalizing headers I with
  | nil => exact Triple.pure fun log s h => ⟨h, hheaders log s h⟩
  | cons header added ih =>
    rw [List.foldlM_cons]
    refine bind_learn hI (fun headers => stable_coversHeaders headers)
      (triple_addHeader hI hheaders header) fun headers' J hJ hnext => ?_
    exact (ih hJ fun log s h => (hnext log s h).2).post
      fun log s _ h => ⟨(hnext log s h.1).1, h.2⟩

/-- The boundary has every header that is sent. -/
lemma triple_requestHeaders (ho : OthersAllowed allowed) (hI : Calm rules .notDispatched R I) :
    Triple allowed I (driver.requestHeaders rules connection)
      (fun log s headers => I log s ∧ CoversHeaders rules s.boundary headers) R := by
  refine triple_guarded rfl hI fun hI => ?_
  refine bind_fact (triple_demand hI _) fun _ _ => ?_
  refine bind_ask ho hI rfl fun answer J hJ hanswer => ?_
  have hI' : ∀ log s, J log s → I log s := fun log s h => (hanswer log s h).1
  refine bind_fact (triple_orRaise hJ answer) fun value _ => ?_
  refine bind_fact (triple_check ho hJ) fun _ _ => ?_
  refine bind_fact (triple_demandSome hJ _) fun value _ => ?_
  refine bind_fact (triple_check ho hJ) fun _ _ => ?_
  refine bind_fact (triple_demand hJ _) fun _ _ => ?_
  refine bind_learn hJ (fun headers => stable_coversHeaders headers)
    (triple_addHeaders hJ value.headers fun _ _ _ => nofun) fun headers K hK hheaders => ?_
  refine bind_fact (triple_check ho hK) fun _ _ => Triple.pure fun log s h => ?_
  exact ⟨hI' log s (hheaders log s h).1, (hheaders log s h).2⟩

/-- What is raised may be replaced by what others raise, and others may act before it is. -/
structure Robust (R : Log → Locals → Raised → Prop) : Prop where
  grows : ∀ log s e a raised, isCall e = false → R log s raised → R (log ++ [⟨e, a⟩]) s raised
  replaced : ∀ log s raised raised', (∀ error, raised' ≠ .runtime error) → R log s raised →
    R log s raised'

/-- What holds where a block returns, and allows for whatever is raised after it. -/
structure Settled (R : Log → Locals → Raised → Prop) (Q : Log → Locals → Prop) : Prop where
  grows : ∀ log s e a, isCall e = false → Q log s → Q (log ++ [⟨e, a⟩]) s
  raises : ∀ log s raised, (∀ error, raised ≠ .runtime error) → Q log s → R log s raised

variable {Q : Log → Locals → Prop} {block : Driving Unit}

/-- Others act after the block, however it ends. -/
lemma triple_ask_ends (ho : OthersAllowed allowed) (hR : Robust R) (hQ : Settled R Q)
    {e : Effect} (he : isCall e = false) (result : Except Raised Unit) :
    Triple allowed (fun log s => Ends (fun log s _ => Q log s) R log s result) (ask e)
      (fun log s _ => Ends (fun log s _ => Q log s) R log s result) R := by
  refine Triple.effect fun log s h => ⟨ho log e he, fun answer => ?_⟩
  cases result with
  | ok _ => exact hQ.grows log s e answer he h
  | error raised => exact hR.grows log s e answer raised he h

/-- What others raise after the block takes the place of how it ends. -/
lemma triple_raise_ends (hR : Robust R) (hQ : Settled R Q) {raised : Raised}
    (hraised : ∀ error, raised ≠ .runtime error) (result : Except Raised Unit)
    {Q' : Log → Locals → Unit → Prop} :
    Triple allowed (fun log s => Ends (fun log s _ => Q log s) R log s result)
      (Raising.raise raised) Q' R := by
  refine Triple.raise fun log s h => ?_
  cases result with
  | ok _ => exact hQ.raises log s raised hraised h
  | error raised' => exact hR.replaced log s raised' raised hraised h

lemma triple_closing (ho : OthersAllowed allowed) (hR : Robust R) (hQ : Settled R Q)
    (hblock : Triple allowed I block (fun log s _ => Q log s) R) :
    Triple allowed I (closing block) (fun log s _ => Q log s) R := by
  refine Triple.bind hblock.attempt fun result => ?_
  refine Triple.bind (triple_ask_ends ho hR hQ rfl result) fun answer => ?_
  cases answer with
  | none => exact Triple.ofExcept fun _ _ h => h
  | some foreign => exact triple_raise_ends hR hQ (by cases foreign <;> exact nofun) result

/-- A last look at the deadline. -/
lemma triple_ensuring_check (ho : OthersAllowed allowed) (hR : Robust R) (hQ : Settled R Q)
    (hblock : Triple allowed I block (fun log s _ => Q log s) R) :
    Triple allowed I (block.ensuring check) (fun log s _ => Q log s) R := by
  refine Triple.ensuring hblock fun result => ?_
  refine Triple.bind (triple_ask_ends ho hR hQ rfl result) fun answer => ?_
  cases answer with
  | none => exact Triple.pure fun _ _ h => h
  | some facts =>
    refine triple_raise_ends hR hQ ?_ result
    exact nofun

/-- The block runs in an open session with the resource, whose headers the boundary has. -/
lemma triple_session (ho : OthersAllowed allowed) (hI : Calm rules .notDispatched R I)
    (hR : Robust R) (hQ : Settled R Q)
    (hblock : ∀ headers J, Calm rules .notDispatched R J → (∀ log s, J log s →
      (I log s ∧ CoversHeaders rules s.boundary headers) ∧
        Answered log (.openSession resource.uri headers) (Except.ok ())) →
      Triple allowed J block (fun log s _ => Q log s) R) :
    Triple allowed I (driver.session rules connection resource block) (fun log s _ => Q log s)
      R := by
  refine bind_learn hI (fun headers => stable_coversHeaders headers)
    (triple_requestHeaders ho hI) fun headers J hJ hheaders => ?_
  refine bind_fact (triple_check ho hJ) fun _ _ => ?_
  refine triple_ensuring_check ho hR hQ ?_
  refine bind_fact (triple_check ho hJ) fun _ _ => ?_
  refine bind_ask ho hJ rfl fun answer K hK hanswer => ?_
  refine bind_fact (triple_orRaise hK answer) fun _ hopened => ?_
  refine triple_closing ho hR hQ (bind_fact (triple_check ho hK) fun _ _ => ?_)
  refine hblock headers K hK fun log s h => ?_
  exact ⟨hheaders log s (hanswer log s h).1, hopened ▸ (hanswer log s h).2⟩

end StreamableMCPDriver

end MercuryTools.Providers
