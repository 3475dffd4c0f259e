import Mathlib.Data.List.Dedup
import Mathlib.Data.List.Lex
import Mathlib.Data.String.Basic
import MercuryTools.Framework.StableSorting
import MercuryTools.Skills.ConnectorCatalog

/-!
# Routes of a Skill

`resolve_skill_route` of `skills/routing.py`: which of the connector profiles of a workspace a Skill
runs with.  A requested connector or connection mode is normalised before profiles are compared with
it, and a request that is not safe text is normalised to `None`, which means that nothing was
requested.  Profiles are sorted by what is public of them, so that profiles with the same connector,
connection mode and environment stay in the order in which they are given.
-/

namespace MercuryTools.Skills

open StableSorting
open Local (strip)

/-- What a route depends on besides the Skill and the profiles: the connectors, `str.lower`, and
`safe_external_server_name`. -/
structure RoutingEnv where
  catalog : List ConnectorManifest
  lower : String → String
  safeExternalServerName : Option Json → Option String

/-- `AccountingSkillDefinition`, with the fields that a route depends on. -/
structure AccountingSkillDefinition where
  skillId : String
  requiredCapabilities : List String
  optionalCapabilities : List String
  requiredConnectors : List String

/-! ## Profile values -/

/-- `_SAFE_PROFILE_VALUE_RE` -/
def isSafeProfileValue (text : List Char) : Bool :=
  text ≠ [] && text.length ≤ 200 && text.all fun c =>
    ('A' ≤ c && c ≤ 'Z') || ('a' ≤ c && c ≤ 'z') || ('0' ≤ c && c ≤ '9') ||
      c ∈ ['.', '_', ' ', '-']

/-- `_sanitize_profile_value` -/
def sanitizeProfileValue : Option Json → Option String
  | some (.str value) =>
      let clean := strip value.toList
      if isSafeProfileValue clean then some (String.ofList clean) else none
  | _ => none

variable (env : RoutingEnv)

/-- `_clean_profile_value` -/
def cleanProfileValue (value : Option Json) : Option String :=
  (sanitizeProfileValue value).map env.lower

structure PublicProfile where
  connectorId : String
  connectionMode : String
  environment : String
  deriving DecidableEq, Repr

/-- `_public_profile` -/
def publicProfile (profile : Json) : Option PublicProfile := do
  let connectorId := cleanProfileValue env (profile.get? "connector_id")
  let connectionMode := cleanProfileValue env (profile.get? "connection_mode")
  let connector ← connectorById env.catalog env.lower (connectorId.getD "")
  let _ ← connector.connectionMode env.lower (connectionMode.getD "")
  let environment ← cleanProfileValue env (profile.get? "environment")
  return ⟨connector.connectorId, connectionMode.getD "", environment⟩

/-- `_capability_states` -/
def capabilityStates (profile : Json) : Dict String String :=
  match profile.get? "capability_states" with
  | some (.obj raw) =>
      raw.foldl (fun states (key, value) =>
        match cleanProfileValue env (some (.str key)), cleanProfileValue env (some value) with
        | some capability, some state =>
            if capability ≠ "" ∧ state ≠ "" then states.set capability state else states
        | _, _ => states) []
  | _ => []

/-! ## Capabilities -/

structure CapabilityResolution where
  capability : String
  providerCapabilities : List String
  required : Bool
  state : String
  deriving DecidableEq, Repr

/-- What the states of the provider capabilities come to. -/
def resolvedState (manifest : ConnectorModeManifest) (observedStates : Dict String String)
    (providerCapabilities : List String) : String :=
  if providerCapabilities = [] || providerCapabilities.any (fun action =>
      manifest.providerCapabilityStatus.get action == some .providerUnavailable) then
    "provider_capability_unavailable"
  else
    let actionStates := providerCapabilities.map observedStates.get
    if actionStates.all (· ∈ [some "observed", some "enabled"]) then "observed"
    else if actionStates.contains (some "provider_unavailable") then
      "provider_capability_unavailable"
    else
      ((actionStates.find? (· ∈ [some "not_authorized", some "validation_failed",
        some "environment_mismatch", some "policy_confirmation_required"])).bind id).getD
          "not_validated"

/-- `_capability_resolution`.  The connector and the mode of a public profile are in the catalog,
as the code asserts. -/
def capabilityResolution (profile : Json) (capability : String) (required : Bool) :
    CapabilityResolution :=
  let manifest? := do
    let pub ← publicProfile env profile
    let connector ← connectorById env.catalog env.lower pub.connectorId
    let manifest ← connector.connectionMode env.lower pub.connectionMode
    return (connector, manifest)
  match manifest? with
  | none => ⟨capability, [], required, "not_validated"⟩
  | some (connector, manifest) =>
      let declared := connector.providerCapabilities env.lower manifest.mode.value capability
      let observedStates := capabilityStates env profile
      let providerCapabilities :=
        if declared = [] ∧ manifest.capabilitySource = "discovered_tools" ∧
            (observedStates.get capability).isSome then [capability]
        else declared
      ⟨capability, providerCapabilities, required,
        resolvedState manifest observedStates providerCapabilities⟩

structure Assessment where
  profile : Json
  publicProfile : PublicProfile
  ready : Bool
  reason : Option String
  capabilityResolution : List CapabilityResolution

/-- `_assess_profile` -/
def assessProfile (skill : AccountingSkillDefinition) (profile : Json) : Option Assessment := do
  let pub ← publicProfile env profile
  if skill.requiredConnectors ≠ [] ∧ pub.connectorId ∉ skill.requiredConnectors then
    return ⟨profile, pub, false, some "connector_not_supported", []⟩
  if pub.connectionMode = "local_bridge" then
    return ⟨profile, pub, false, some "local_bridge_required", []⟩
  let resolution :=
    skill.requiredCapabilities.map (capabilityResolution env profile · true) ++
      skill.optionalCapabilities.map (capabilityResolution env profile · false)
  let requiredFailure := resolution.find? fun item => item.required && item.state != "observed"
  let status := cleanProfileValue env (profile.get? "status")
  let reason :=
    match requiredFailure with
    | some item => some item.state
    | none =>
        if pub.connectionMode = "native_mcp" ∧
            env.safeExternalServerName (profile.get? "external_server_name") = none then
          some "not_validated"
        else if status ∉ [some "ready_read_only", some "ready_read_write"] then
          if status = some "requires_authorization" then some "not_authorized"
          else some "not_validated"
        else none
  return ⟨profile, pub, reason.isNone, reason, resolution⟩

/-! ## Routes -/

inductive RouteStatus where
  | ready
  | localBridgeRequired
  | connectorSelectionRequired
  | unavailable
  deriving DecidableEq, Repr

inductive OrderedStep where
  | invoke (step : Nat) (capability : String) (providerCapabilities : List String)
      (required : Bool)
  | configureLocalBridge (step : Nat) (connectorId environment : String)
  deriving DecidableEq, Repr

structure HostToolRequirement where
  publicProfile : PublicProfile
  externalServerName : Option String
  providerCapabilities : List String
  deriving DecidableEq, Repr

structure Route where
  status : RouteStatus
  reason : Option String
  skillId : String
  choices : List PublicProfile
  selectedProfile : Option PublicProfile
  capabilityResolution : List CapabilityResolution
  orderedSteps : List OrderedStep
  hostToolRequirements : List HostToolRequirement
  deriving DecidableEq, Repr

/-- `_host_execution_plan` -/
def hostExecutionPlan (assessment : Assessment) : List OrderedStep × List HostToolRequirement :=
  let actionable :=
    assessment.capabilityResolution.filter fun item => item.required || item.state == "observed"
  (actionable.mapIdx fun index item =>
      .invoke (index + 1) item.capability item.providerCapabilities item.required,
    [⟨assessment.publicProfile,
      env.safeExternalServerName (assessment.profile.get? "external_server_name"),
      sortBy id (actionable.flatMap (·.providerCapabilities)).dedup⟩])

/-- `_ready_route` -/
def readyRoute (skill : AccountingSkillDefinition) (assessment : Assessment) : Route :=
  let (orderedSteps, hostToolRequirements) := hostExecutionPlan env assessment
  ⟨.ready, none, skill.skillId, [], some assessment.publicProfile, assessment.capabilityResolution,
    orderedSteps, hostToolRequirements⟩

/-- `_local_bridge_route` -/
def localBridgeRoute (skill : AccountingSkillDefinition) (assessment : Assessment) : Route :=
  let pub := assessment.publicProfile
  ⟨.localBridgeRequired, some "local_bridge_required", skill.skillId, [], some pub,
    assessment.capabilityResolution, [.configureLocalBridge 1 pub.connectorId pub.environment], []⟩

/-- `_connector_selection_route` -/
def connectorSelectionRoute (skill : AccountingSkillDefinition) (assessments : List Assessment) :
    Route :=
  ⟨.connectorSelectionRequired, none, skill.skillId, assessments.map (·.publicProfile), none, [],
    [], []⟩

def unavailableRoute (skill : AccountingSkillDefinition) (reason : Option String)
    (selectedProfile : Option PublicProfile) (resolution : List CapabilityResolution) : Route :=
  ⟨.unavailable, reason, skill.skillId, [], selectedProfile, resolution, [], []⟩

/-- The key of the sort. -/
def PublicProfile.sortKey (pub : PublicProfile) : List String :=
  [pub.connectorId, pub.connectionMode, pub.environment]

/-- The assessment of a profile, where the profile has what is selected. -/
def selectProfile (skill : AccountingSkillDefinition) (selectedConnector selectedMode : Option String)
    (profile : Json) : Option Assessment :=
  if profile.isObj then
    (assessProfile env skill profile).filter fun assessment =>
      (selectedConnector = none || some assessment.publicProfile.connectorId = selectedConnector) &&
        (selectedMode = none || some assessment.publicProfile.connectionMode = selectedMode)
  else none

/-- What follows from the sorted assessments. -/
def routeOf (skill : AccountingSkillDefinition) (selectedConnector : Option String)
    (assessments : List Assessment) : Route :=
  match assessments.filter (·.ready) with
  | item :: other :: rest => connectorSelectionRoute skill (item :: other :: rest)
  | [item] => readyRoute env skill item
  | [] =>
      match assessments.filter (·.reason = some "local_bridge_required") with
      | item :: other :: rest => connectorSelectionRoute skill (item :: other :: rest)
      | [item] => localBridgeRoute skill item
      | [] =>
          match assessments with
          | [] =>
              unavailableRoute skill
                (some (if selectedConnector ∉ [none, some ""] then "connector_profile_unavailable"
                  else "connector_profile_required")) none []
          | first :: rest =>
              let failed := ((first :: rest).find?
                (·.reason = some "provider_capability_unavailable")).getD first
              unavailableRoute skill failed.reason (some failed.publicProfile)
                failed.capabilityResolution

/-- `resolve_skill_route` -/
def resolveSkillRoute (skill : AccountingSkillDefinition) (profiles : List Json)
    (requestedConnectorId requestedConnectionMode : Option String) : Route :=
  let selectedConnector := cleanProfileValue env (requestedConnectorId.map .str)
  let selectedMode := cleanProfileValue env (requestedConnectionMode.map .str)
  let assessments := profiles.filterMap (selectProfile env skill selectedConnector selectedMode)
  routeOf env skill selectedConnector (sortBy (·.publicProfile.sortKey) assessments)

/-! ## What a route should be -/

/-- The profile has the connector, or the connection mode, that is requested. -/
def HasRequested (request : Option String) (value : String) : Prop :=
  ∀ text, request = some text → cleanProfileValue env (some (.str text)) = some value

instance (request : Option String) (value : String) : Decidable (HasRequested env request value) :=
  match request with
  | none => isTrue nofun
  | some text => decidable_of_iff (cleanProfileValue env (some (.str text)) = some value)
      ⟨fun h _ heq => Option.some_inj.1 heq ▸ h, fun h => h text rfl⟩

variable (skill : AccountingSkillDefinition) (requestedConnectorId requestedConnectionMode : Option String)

/-- The profile can be used, has what is requested, and is ready. -/
def isReadyFor (profile : Json) : Bool :=
  profile.isObj && (assessProfile env skill profile).any fun assessment =>
    assessment.ready && HasRequested env requestedConnectorId assessment.publicProfile.connectorId &&
      HasRequested env requestedConnectionMode assessment.publicProfile.connectionMode

/-- What the route is for, in terms of the request and the profiles. -/
structure RespectsRequest (profiles : List Json) (route : Route) : Prop where
  requested : ∀ pub ∈ route.selectedProfile.toList ++ route.choices,
    HasRequested env requestedConnectorId pub.connectorId ∧
      HasRequested env requestedConnectionMode pub.connectionMode
  ready : route.status = .ready ↔
    (profiles.filter (isReadyFor env skill requestedConnectorId requestedConnectionMode)).length = 1
  selected : ∀ profile,
    profiles.filter (isReadyFor env skill requestedConnectorId requestedConnectionMode) = [profile] →
      route.selectedProfile = publicProfile env profile
  unready : ∀ profile ∈ profiles, ∀ assessment, assessProfile env skill profile = some assessment →
    assessment.publicProfile.connectionMode = "local_bridge" ∨ skill.requiredConnectors ≠ [] ∧
      assessment.publicProfile.connectorId ∉ skill.requiredConnectors → assessment.ready = false

/-- The route respects the request, and is the same for every order of the profiles. -/
structure LawfulRouting (profiles : List Json) : Prop where
  respects : RespectsRequest env skill requestedConnectorId requestedConnectionMode profiles
    (resolveSkillRoute env skill profiles requestedConnectorId requestedConnectionMode)
  perm : ∀ profiles' : List Json, profiles'.Perm profiles →
    resolveSkillRoute env skill profiles' requestedConnectorId requestedConnectionMode =
      resolveSkillRoute env skill profiles requestedConnectorId requestedConnectionMode

/-- The assessments that are compared. -/
def candidates (profiles : List Json) : List Assessment :=
  profiles.filterMap (selectProfile env skill
    (cleanProfileValue env (requestedConnectorId.map .str))
    (cleanProfileValue env (requestedConnectionMode.map .str)))

/-- A request is safe text, if there is one. -/
def SafeRequest (request : Option String) : Prop :=
  ∀ text, request = some text → (cleanProfileValue env (some (.str text))).isSome

/-- The failure that is reported: where some provider lacks a capability, only such a failure. -/
def isPreferred (assessments : List Assessment) (assessment : Assessment) : Bool :=
  assessments.all (·.reason ≠ some "provider_capability_unavailable") ||
    assessment.reason = some "provider_capability_unavailable"

/-- Among the assessments with the least key that could be reported, all say the same. -/
def Unambiguous (assessments : List Assessment) : Prop :=
  (∀ item ∈ assessments, item.ready = false ∧ item.reason ≠ some "local_bridge_required") →
    ∀ x y, IsLeast (·.publicProfile.sortKey) (isPreferred assessments) assessments x →
      IsLeast (·.publicProfile.sortKey) (isPreferred assessments) assessments y →
        x.reason = y.reason ∧ x.capabilityResolution = y.capabilityResolution

section

variable {env skill} {assessments assessments' : List Assessment} {selectedConnector : Option String}

/-! ## Order of the assessments -/

lemma PublicProfile.sortKey_injective : Function.Injective PublicProfile.sortKey := by
  rintro ⟨a, b, c⟩ ⟨d, e, f⟩ h
  simp only [sortKey, List.cons.injEq, and_true] at h
  simp [h]

lemma isPreferred_perm (h : assessments.Perm assessments') :
    isPreferred assessments = isPreferred assessments' := by
  funext item
  rw [isPreferred, isPreferred, h.all_eq]

lemma find?_isPreferred (first : Assessment) (rest : List Assessment) :
    (first :: rest).find? (isPreferred (first :: rest)) =
      some (((first :: rest).find?
        (·.reason = some "provider_capability_unavailable")).getD first) := by
  cases hfind : (first :: rest).find? (·.reason = some "provider_capability_unavailable") with
  | none =>
      have hall : (first :: rest).all (·.reason ≠ some "provider_capability_unavailable") = true := by
        rw [List.all_eq_true]
        intro item hitem
        simpa using List.find?_eq_none.1 hfind item hitem
      rw [List.find?_cons_of_pos (by rw [isPreferred, hall, Bool.true_or])]
      rfl
  | some failed =>
      have hall : (first :: rest).all (·.reason ≠ some "provider_capability_unavailable") = false := by
        rw [List.all_eq_false]
        refine ⟨failed, List.mem_of_find?_eq_some hfind, ?_⟩
        simpa using List.find?_some hfind
      have hpreferred : isPreferred (first :: rest) =
          fun item => decide (item.reason = some "provider_capability_unavailable") := by
        funext item
        rw [isPreferred, hall, Bool.false_or]
      rw [hpreferred, hfind]
      rfl

/-- Where nothing is ready and there is no local bridge, the failure that is reported is the first
that is preferred. -/
lemma routeOf_of_failed {failed : Assessment}
    (hready : assessments.filter (·.ready) = [])
    (hbridge : assessments.filter (·.reason = some "local_bridge_required") = [])
    (hfailed : (sortBy (·.publicProfile.sortKey) assessments).find? (isPreferred assessments) =
      some failed) :
    routeOf env skill selectedConnector (sortBy (·.publicProfile.sortKey) assessments) =
      unavailableRoute skill failed.reason (some failed.publicProfile)
        failed.capabilityResolution := by
  have hperm := perm_sortBy (fun item : Assessment => item.publicProfile.sortKey) assessments
  have hready' := (hperm.filter (·.ready)).trans (.of_eq hready)
  have hbridge' :=
    (hperm.filter (·.reason = some "local_bridge_required")).trans (.of_eq hbridge)
  rw [← isPreferred_perm hperm] at hfailed
  unfold routeOf
  rw [hready'.eq_nil, hbridge'.eq_nil]
  dsimp only
  cases hsorted : sortBy (fun item : Assessment => item.publicProfile.sortKey) assessments with
  | nil =>
      rw [hsorted] at hfailed
      cases hfailed
  | cons first rest =>
      rw [hsorted, find?_isPreferred, Option.some_inj] at hfailed
      subst hfailed
      rfl

/-- What is public of the profiles that are ready, or of those with a local bridge, does not depend
on the order. -/
lemma map_publicProfile_filter_sortBy (p : Assessment → Bool)
    (h : assessments.Perm assessments') :
    ((sortBy (·.publicProfile.sortKey) assessments).filter p).map (·.publicProfile) =
      ((sortBy (·.publicProfile.sortKey) assessments').filter p).map (·.publicProfile) := by
  refine List.map_injective_iff.2 PublicProfile.sortKey_injective ?_
  rw [List.map_map, List.map_map]
  exact map_key_filter_sortBy h

/-- What is selected in different orders: nothing, one assessment, or more that offer the same. -/
lemma filter_sortBy_cases (p : Assessment → Bool) (h : assessments.Perm assessments')
    {items items' : List Assessment}
    (hitems : (sortBy (·.publicProfile.sortKey) assessments).filter p = items)
    (hitems' : (sortBy (·.publicProfile.sortKey) assessments').filter p = items') :
    (items = [] ∧ items' = []) ∨ (∃ item, items = [item] ∧ items' = [item]) ∨
      ∃ x y rest x' y' rest', items = x :: y :: rest ∧ items' = x' :: y' :: rest' ∧
        items.map (·.publicProfile) = items'.map (·.publicProfile) := by
  have hmap := map_publicProfile_filter_sortBy p h
  have hperm : ((sortBy (·.publicProfile.sortKey) assessments).filter p).Perm
      ((sortBy (·.publicProfile.sortKey) assessments').filter p) :=
    (((perm_sortBy _ _).trans h).trans (perm_sortBy _ _).symm).filter p
  rw [hitems, hitems'] at hmap hperm
  match items, items' with
  | [], items' => exact .inl ⟨rfl, hperm.nil_eq.symm⟩
  | [item], items' => exact .inr (.inl ⟨item, rfl, (List.singleton_perm.1 hperm).symm⟩)
  | x :: y :: rest, [] => exact absurd hperm.length_eq (by simp)
  | x :: y :: rest, [item] => exact absurd hperm.length_eq (by simp)
  | x :: y :: rest, x' :: y' :: rest' =>
      exact .inr (.inr ⟨x, y, rest, x', y', rest', rfl, rfl, hmap⟩)

lemma exists_find?_isPreferred (h : assessments ≠ []) : ∃ failed,
    (sortBy (·.publicProfile.sortKey) assessments).find? (isPreferred assessments) =
      some failed := by
  have hperm := perm_sortBy (fun item : Assessment => item.publicProfile.sortKey) assessments
  rw [← isPreferred_perm hperm]
  cases hsorted : sortBy (fun item : Assessment => item.publicProfile.sortKey) assessments with
  | nil => exact absurd (hperm.symm.trans (.of_eq hsorted)).eq_nil h
  | cons first rest => exact ⟨_, find?_isPreferred first rest⟩

/-- An unambiguous route is the same for every order of the assessments. -/
lemma routeOf_perm (h : assessments.Perm assessments') (hunambiguous : Unambiguous assessments) :
    routeOf env skill selectedConnector (sortBy (·.publicProfile.sortKey) assessments) =
      routeOf env skill selectedConnector (sortBy (·.publicProfile.sortKey) assessments') := by
  by_cases hfails : assessments.filter (·.ready) = [] ∧
      assessments.filter (·.reason = some "local_bridge_required") = [] ∧ assessments ≠ []
  · -- a failure is reported
    obtain ⟨hready, hbridge, hne⟩ := hfails
    have hne' : assessments' ≠ [] := fun hnil => hne (h.trans (.of_eq hnil)).eq_nil
    obtain ⟨x, hx⟩ := exists_find?_isPreferred hne
    obtain ⟨y, hy⟩ := exists_find?_isPreferred hne'
    have hleast := isLeast_of_find? hx
    have hleast' := (isLeast_of_find? hy).perm h.symm
    rw [← isPreferred_perm h] at hleast'
    have hnone : ∀ item ∈ assessments,
        item.ready = false ∧ item.reason ≠ some "local_bridge_required" := by
      intro item hitem
      refine ⟨?_, ?_⟩
      · simpa using List.filter_eq_nil_iff.1 hready item hitem
      · simpa using List.filter_eq_nil_iff.1 hbridge item hitem
    obtain ⟨hreason, hresolution⟩ := hunambiguous hnone x y hleast hleast'
    have hkey : x.publicProfile = y.publicProfile := PublicProfile.sortKey_injective
      (le_antisymm (hleast.le y hleast'.mem hleast'.holds) (hleast'.le x hleast.mem hleast.holds))
    have hready' : assessments'.filter (·.ready) = [] :=
      (((h.filter _).symm).trans (.of_eq hready)).eq_nil
    have hbridge' : assessments'.filter (·.reason = some "local_bridge_required") = [] :=
      (((h.filter _).symm).trans (.of_eq hbridge)).eq_nil
    rw [routeOf_of_failed hready hbridge hx, routeOf_of_failed hready' hbridge' hy, hreason,
      hresolution, hkey]
  · unfold routeOf
    have hoffered : ∀ {items items' : List Assessment},
        items.map (·.publicProfile) = items'.map (·.publicProfile) →
          connectorSelectionRoute skill items = connectorSelectionRoute skill items' := by
      intro items items' hmap
      rw [connectorSelectionRoute, hmap]
      rfl
    have hnil : ∀ p : Assessment → Bool,
        (sortBy (·.publicProfile.sortKey) assessments).filter p = [] →
          assessments.filter p = [] := fun p hp =>
      (((perm_sortBy (fun item : Assessment => item.publicProfile.sortKey) assessments).filter
        p).symm.trans (.of_eq hp)).eq_nil
    obtain ⟨hready, hready'⟩ | ⟨item, hready, hready'⟩ |
        ⟨x, y, rest, x', y', rest', hready, hready', hmap⟩ :=
      filter_sortBy_cases (·.ready) h rfl rfl
    · obtain ⟨hbridge, hbridge'⟩ | ⟨item, hbridge, hbridge'⟩ |
          ⟨x, y, rest, x', y', rest', hbridge, hbridge', hmap⟩ :=
        filter_sortBy_cases (·.reason = some "local_bridge_required") h rfl rfl
      · have hempty : assessments = [] :=
          Decidable.not_not.1 fun hne => hfails ⟨hnil _ hready, hnil _ hbridge, hne⟩
        subst hempty
        rw [List.nil_perm.1 h]
      · rw [hready, hready', hbridge, hbridge']
      · rw [hbridge, hbridge'] at hmap
        rw [hready, hready', hbridge, hbridge']
        exact hoffered hmap
    · rw [hready, hready']
    · rw [hready, hready'] at hmap
      rw [hready, hready']
      exact hoffered hmap

/-! ## What a route names -/

lemma status_routeOf : (routeOf env skill selectedConnector assessments).status = .ready ↔
    (assessments.filter (·.ready)).length = 1 := by
  unfold routeOf
  split
  next h => simp [h, connectorSelectionRoute]
  next item h => simp [h, readyRoute]
  next h =>
      rw [h]
      constructor
      · intro hstatus
        split at hstatus
        · cases hstatus
        · cases hstatus
        · split at hstatus <;> cases hstatus
      · nofun

/-- A route selects or offers what is public of some assessments, if there are any. -/
lemma selected_routeOf :
    (∀ pub ∈ (routeOf env skill selectedConnector assessments).selectedProfile.toList ++
      (routeOf env skill selectedConnector assessments).choices,
        ∃ item ∈ assessments, item.publicProfile = pub) ∧
    (assessments ≠ [] → (routeOf env skill selectedConnector assessments).selectedProfile.toList ++
      (routeOf env skill selectedConnector assessments).choices ≠ []) := by
  have hchoices : ∀ (p : Assessment → Bool) (items : List Assessment),
      assessments.filter p = items → ∀ pub ∈ items.map (·.publicProfile),
        ∃ item ∈ assessments, item.publicProfile = pub := by
    rintro p items rfl pub hpub
    obtain ⟨item, hitem, rfl⟩ := List.mem_map.1 hpub
    exact ⟨item, (List.mem_filter.1 hitem).1, rfl⟩
  unfold routeOf
  split
  next h => exact ⟨hchoices _ _ h, fun _ => by simp [connectorSelectionRoute]⟩
  next item h => exact ⟨hchoices _ _ h, fun _ => by simp [readyRoute]⟩
  next =>
      split
      next h => exact ⟨hchoices _ _ h, fun _ => by simp [connectorSelectionRoute]⟩
      next item h => exact ⟨hchoices _ _ h, fun _ => by simp [localBridgeRoute]⟩
      next =>
          cases assessments with
          | nil => exact ⟨nofun, fun h => absurd rfl h⟩
          | cons first rest =>
              refine ⟨fun pub hpub => ?_, fun _ => by simp [unavailableRoute]⟩
              rw [show pub = _ from List.mem_singleton.1 hpub]
              refine ⟨_, ?_, rfl⟩
              cases hfind : (first :: rest).find?
                  (·.reason = some "provider_capability_unavailable") with
              | none => exact List.mem_cons_self
              | some failed => exact List.mem_of_find?_eq_some hfind

/-! ## Assessments -/

variable {profile : Json} {assessment : Assessment} {request : Option String} {value : String}

lemma assessProfile_spec (h : assessProfile env skill profile = some assessment) :
    publicProfile env profile = some assessment.publicProfile ∧
      (assessment.publicProfile.connectionMode = "local_bridge" ∨ skill.requiredConnectors ≠ [] ∧
        assessment.publicProfile.connectorId ∉ skill.requiredConnectors →
          assessment.ready = false) := by
  unfold assessProfile at h
  obtain ⟨pub, hpub, h⟩ := Option.bind_eq_some_iff.1 h
  split at h
  next =>
      cases h
      exact ⟨hpub, fun _ => rfl⟩
  next hsupported =>
      split at h
      next =>
          cases h
          exact ⟨hpub, fun _ => rfl⟩
      next hmode =>
          cases h
          refine ⟨hpub, fun hunready => ?_⟩
          rcases hunready with hbridge | hconnector
          · exact absurd hbridge hmode
          · exact absurd hconnector hsupported

variable {requestedConnectorId requestedConnectionMode : Option String} {profiles : List Json}

lemma hasRequested_of_safe (hsafe : SafeRequest env request)
    (h : cleanProfileValue env (request.map .str) = none ∨
      some value = cleanProfileValue env (request.map .str)) : HasRequested env request value := by
  rintro text rfl
  rcases h with h | h
  · have hsome := hsafe text rfl
    rw [show cleanProfileValue env (some (.str text)) = none from h] at hsome
    cases hsome
  · exact h.symm

lemma HasRequested.selected (h : HasRequested env request value) :
    cleanProfileValue env (request.map .str) = none ∨
      some value = cleanProfileValue env (request.map .str) := by
  cases request with
  | none => exact .inl rfl
  | some text => exact .inr (h text rfl).symm

/-- Which profiles are compared. -/
lemma selectProfile_eq_some {selectedMode : Option String} :
    selectProfile env skill selectedConnector selectedMode profile = some assessment ↔
      profile.isObj = true ∧ assessProfile env skill profile = some assessment ∧
        (selectedConnector = none ∨ some assessment.publicProfile.connectorId = selectedConnector) ∧
        (selectedMode = none ∨ some assessment.publicProfile.connectionMode = selectedMode) := by
  unfold selectProfile
  split
  next h =>
      rw [Option.filter_eq_some_iff]
      simp [h]
  next h => simp [h]

/-- A profile that is ready for the request is compared. -/
lemma selectProfile_of_isReadyFor
    (h : isReadyFor env skill requestedConnectorId requestedConnectionMode profile = true) :
    ∃ assessment, assessment.ready = true ∧
      selectProfile env skill (cleanProfileValue env (requestedConnectorId.map .str))
        (cleanProfileValue env (requestedConnectionMode.map .str)) profile = some assessment := by
  obtain ⟨hobj, h⟩ := Bool.and_eq_true_iff.1 h
  obtain ⟨assessment, hassess, h⟩ := (Option.any_eq_true _ _).1 h
  simp only [Bool.and_eq_true, decide_eq_true_eq] at h
  obtain ⟨⟨hready, hconnector⟩, hmode⟩ := h
  exact ⟨assessment, hready,
    selectProfile_eq_some.2 ⟨hobj, hassess, hconnector.selected, hmode.selected⟩⟩

/-- Where the requests are safe, the compared profiles have what is requested. -/
lemma hasRequested_of_selectProfile (hconnector : SafeRequest env requestedConnectorId)
    (hmode : SafeRequest env requestedConnectionMode)
    (h : selectProfile env skill (cleanProfileValue env (requestedConnectorId.map .str))
      (cleanProfileValue env (requestedConnectionMode.map .str)) profile = some assessment) :
    HasRequested env requestedConnectorId assessment.publicProfile.connectorId ∧
      HasRequested env requestedConnectionMode assessment.publicProfile.connectionMode := by
  obtain ⟨-, -, hid, hvalue⟩ := selectProfile_eq_some.1 h
  exact ⟨hasRequested_of_safe hconnector hid, hasRequested_of_safe hmode hvalue⟩

/-- Where the requests are safe, the compared profiles that are ready are those that are ready for
the request. -/
lemma filter_candidates (hconnector : SafeRequest env requestedConnectorId)
    (hmode : SafeRequest env requestedConnectionMode) :
    (candidates env skill requestedConnectorId requestedConnectionMode profiles).filter (·.ready) =

    (profiles.filter (isReadyFor env skill requestedConnectorId requestedConnectionMode)).filterMap
        (selectProfile env skill (cleanProfileValue env (requestedConnectorId.map .str))
          (cleanProfileValue env (requestedConnectionMode.map .str))) := by
  rw [candidates]
  induction profiles with
  | nil => rfl
  | cons profile profiles ih =>
      rw [List.filterMap_cons]
      cases hselect : selectProfile env skill (cleanProfileValue env (requestedConnectorId.map .str))
          (cleanProfileValue env (requestedConnectionMode.map .str)) profile with
      | none =>
          have hnot : ¬ isReadyFor env skill requestedConnectorId requestedConnectionMode profile =
              true := by
            intro h
            obtain ⟨assessment, -, h⟩ := selectProfile_of_isReadyFor h
            rw [hselect] at h
            cases h
          rw [List.filter_cons_of_neg hnot]
          exact ih
      | some assessment =>
          cases hready : assessment.ready with
          | true =>
              obtain ⟨hid, hvalue⟩ := hasRequested_of_selectProfile hconnector hmode hselect
              obtain ⟨hobj, hassess, -⟩ := selectProfile_eq_some.1 hselect
              have his : isReadyFor env skill requestedConnectorId requestedConnectionMode profile =
                  true := by
                rw [isReadyFor, hobj, hassess]
                simp [hready, hid, hvalue]
              rw [List.filter_cons_of_pos his, List.filterMap_cons, hselect]
              dsimp only
              rw [List.filter_cons_of_pos hready, ih]
          | false =>
              have hnot : ¬ isReadyFor env skill requestedConnectorId requestedConnectionMode profile =
                  true := by
                intro h
                obtain ⟨other, hother, h⟩ := selectProfile_of_isReadyFor h
                rw [hselect, Option.some_inj] at h
                rw [h, hother] at hready
                cases hready
              rw [List.filter_cons_of_neg hnot]
              dsimp only
              rw [List.filter_cons_of_neg (by simp [hready]), ih]

lemma resolveSkillRoute_eq :
    resolveSkillRoute env skill profiles requestedConnectorId requestedConnectionMode =
      routeOf env skill (cleanProfileValue env (requestedConnectorId.map .str))
        (sortBy (·.publicProfile.sortKey)
          (candidates env skill requestedConnectorId requestedConnectionMode profiles)) :=
  rfl

/-- With safe requests, or without any profile to compare, the route respects the request. -/
lemma respectsRequest_resolveSkillRoute
    (h : SafeRequest env requestedConnectorId ∧ SafeRequest env requestedConnectionMode ∨
      candidates env skill requestedConnectorId requestedConnectionMode profiles = []) :
    RespectsRequest env skill requestedConnectorId requestedConnectionMode profiles
      (resolveSkillRoute env skill profiles requestedConnectorId requestedConnectionMode) := by
  have hperm := perm_sortBy (fun item : Assessment => item.publicProfile.sortKey)
    (candidates env skill requestedConnectorId requestedConnectionMode profiles)
  have hsome : ∀ profile ∈
      profiles.filter (isReadyFor env skill requestedConnectorId requestedConnectionMode),
      ∃ assessment, assessment.ready = true ∧
        selectProfile env skill (cleanProfileValue env (requestedConnectorId.map .str))
          (cleanProfileValue env (requestedConnectionMode.map .str)) profile = some assessment :=
    fun profile hprofile => selectProfile_of_isReadyFor (List.mem_filter.1 hprofile).2
  have hready : (candidates env skill requestedConnectorId requestedConnectionMode profiles).filter
      (·.ready) =
        (profiles.filter (isReadyFor env skill requestedConnectorId
          requestedConnectionMode)).filterMap
          (selectProfile env skill (cleanProfileValue env (requestedConnectorId.map .str))
            (cleanProfileValue env (requestedConnectionMode.map .str))) := by
    rcases h with ⟨hconnector, hmode⟩ | hempty
    · exact filter_candidates hconnector hmode
    · rw [hempty, List.filter_nil, eq_comm, List.filterMap_eq_nil_iff]
      intro profile hprofile
      exact List.filterMap_eq_nil_iff.1 hempty profile (List.mem_filter.1 hprofile).1
  constructor
  · intro pub hpub
    obtain ⟨assessment, hmem, rfl⟩ := selected_routeOf.1 pub hpub
    have hmem := hperm.mem_iff.1 hmem
    rcases h with ⟨hconnector, hmode⟩ | hempty
    · obtain ⟨profile, -, hselect⟩ := List.mem_filterMap.1 hmem
      exact hasRequested_of_selectProfile hconnector hmode hselect
    · rw [hempty] at hmem
      cases hmem
  · rw [resolveSkillRoute_eq, status_routeOf, (hperm.filter _).length_eq, hready,
      List.length_filterMap_eq_countP, List.countP_eq_length.2]
    intro profile hprofile
    obtain ⟨assessment, -, hselect⟩ := hsome profile hprofile
    rw [hselect]
    rfl
  · intro profile hprofile
    obtain ⟨assessment, -, hselect⟩ := hsome profile (hprofile ▸ List.mem_singleton_self _)
    rw [hprofile, List.filterMap_cons_some hselect, List.filterMap_nil] at hready
    have hsorted := ((hperm.filter (·.ready)).trans (.of_eq hready)).eq_singleton
    have hroute : resolveSkillRoute env skill profiles requestedConnectorId
        requestedConnectionMode = readyRoute env skill assessment := by
      rw [resolveSkillRoute_eq]
      unfold routeOf
      rw [hsorted]
    rw [hroute, (assessProfile_spec (selectProfile_eq_some.1 hselect).2.1).1]
    rfl
  · exact fun profile _ assessment hassess => (assessProfile_spec hassess).2

end

/-- The routing is lawful exactly if each request is safe text or no profile is compared, and the
assessments that could be reported do not differ. -/
theorem lawfulRouting_iff {env : RoutingEnv} {skill : AccountingSkillDefinition}
    {requestedConnectorId requestedConnectionMode : Option String} {profiles : List Json} :
    LawfulRouting env skill requestedConnectorId requestedConnectionMode profiles ↔
      (SafeRequest env requestedConnectorId ∧ SafeRequest env requestedConnectionMode ∨
        candidates env skill requestedConnectorId requestedConnectionMode profiles = []) ∧
      Unambiguous (candidates env skill requestedConnectorId requestedConnectionMode profiles) := by
  constructor
  · intro h
    refine ⟨?_, fun hnone x y hx hy => ?_⟩
    · by_contra hrejected
      obtain ⟨hrejected, hne⟩ := not_or.1 hrejected
      -- what is selected or offered would have the connector and the mode of an unsafe request
      obtain ⟨pub, hpub⟩ := List.exists_mem_of_ne_nil _ (selected_routeOf.2
        fun hnil => hne ((perm_sortBy (fun item : Assessment => item.publicProfile.sortKey)
          _).symm.trans (.of_eq hnil)).eq_nil)
      obtain ⟨hid, hvalue⟩ := h.respects.requested pub hpub
      refine hrejected ⟨fun text htext => ?_, fun text htext => ?_⟩
      · rw [hid text htext]
        rfl
      · rw [hvalue text htext]
        rfl
    · -- each of them is reported for some order of the profiles
      have hreported : ∀ z, IsLeast (·.publicProfile.sortKey)
          (isPreferred (candidates env skill requestedConnectorId requestedConnectionMode profiles))
          (candidates env skill requestedConnectorId requestedConnectionMode profiles) z →
          resolveSkillRoute env skill profiles requestedConnectorId requestedConnectionMode =
            unavailableRoute skill z.reason (some z.publicProfile) z.capabilityResolution := by
        intro z hz
        obtain ⟨profile, hprofile, hselect⟩ := List.mem_filterMap.1 hz.mem
        have hfirst : (profile :: profiles.erase profile).Perm profiles :=
          (List.perm_cons_erase hprofile).symm
        have hcandidates : (candidates env skill requestedConnectorId requestedConnectionMode
            (profile :: profiles.erase profile)).Perm
              (candidates env skill requestedConnectorId requestedConnectionMode profiles) :=
          hfirst.filterMap _
        have hleast := (isPreferred_perm hcandidates ▸ hz).perm hcandidates.symm
        rw [← h.perm _ hfirst]
        refine routeOf_of_failed ?_ ?_ ?_
        · refine List.filter_eq_nil_iff.2 fun item hitem => ?_
          simp [(hnone item (hcandidates.mem_iff.1 hitem)).1]
        · refine List.filter_eq_nil_iff.2 fun item hitem => ?_
          simp [(hnone item (hcandidates.mem_iff.1 hitem)).2]
        · have hcons : candidates env skill requestedConnectorId requestedConnectionMode
              (profile :: profiles.erase profile) =
                z :: candidates env skill requestedConnectorId requestedConnectionMode
                  (profiles.erase profile) := List.filterMap_cons_some hselect
          rw [hcons] at hleast
          change (sortBy _ (candidates env skill requestedConnectorId requestedConnectionMode
            (profile :: profiles.erase profile))).find? (isPreferred (candidates env skill
              requestedConnectorId requestedConnectionMode (profile :: profiles.erase profile))) = _
          rw [hcons]
          exact find?_sortBy_cons hleast
      have heq := (hreported x hx).symm.trans (hreported y hy)
      exact ⟨congrArg Route.reason heq, congrArg Route.capabilityResolution heq⟩
  · rintro ⟨hsafe, hunambiguous⟩
    refine ⟨respectsRequest_resolveSkillRoute hsafe, fun profiles' hperm => ?_⟩
    exact (routeOf_perm (hperm.symm.filterMap _) hunambiguous).symm

/-- The connectors of the catalog. -/
def catalogEnv : RoutingEnv where
  catalog := connectorCatalog
  lower text := String.ofList (text.toList.map Char.toLower)
  safeExternalServerName _ := none

def companySkill : AccountingSkillDefinition :=
  ⟨"company-health-check-th", ["company.read"], [], []⟩

def flowaccountProfile : Json :=
  .obj [("connector_id", .str "FlowAccount"), ("connection_mode", .str "api_driver"),
    ("environment", .str "production"), ("status", .str "ready_read_only"),
    ("capability_states", .obj [("company.info.read", .str "observed")])]

example : (resolveSkillRoute catalogEnv companySkill [flowaccountProfile] (some " FLOWACCOUNT ")
    none).status = .ready := by
  decide

/-- A requested connector that is not safe text selects a profile of another connector. -/
theorem not_lawfulRouting_unsafeRequest :
    ¬ LawfulRouting catalogEnv companySkill (some "peak/uat") none [flowaccountProfile] := by
  intro h
  have hrequested := (h.respects.requested ⟨"flowaccount", "api_driver", "production"⟩
    (by decide)).1 "peak/uat" rfl
  exact absurd hrequested (by decide)

end MercuryTools.Skills
