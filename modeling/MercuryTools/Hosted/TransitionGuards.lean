import MercuryTools.Framework.ThreeValued
import MercuryTools.Hosted.OperationTables
import MercuryTools.Hosted.StatusSystem

/-!
# The transition guards of the database

`mercury_parent_operation_transition_is_allowed` and `mercury_item_operation_transition_is_allowed`
of the operations migration with their `NULL`s: the states are texts, the children an array of
texts, and the logic is three-valued.  On texts they agree with the guards of
`execution/hosted/transitions.py`, which coerce their arguments first, and what they accept keeps
the children compatible with their parent (`transition_predicates_agree`).
-/

namespace MercuryTools
namespace Hosted

/-! ## The guards of the service, on texts -/

/-- `parent_operation_transition_allowed`, with its coercions. -/
def parentOperationTransitionAllowedText (current target : String) (children : List String) :
    Bool :=
  match ParentOperationState.ofValue? current, ParentOperationState.ofValue? target,
    children.mapM OperationItemState.ofValue? with
  | some source, some destination, some checked =>
      parentOperationTransitionAllowed source destination checked
  | _, _, _ => false

/-- `parent_operation_children_compatible`, with its coercions. -/
def parentOperationChildrenCompatibleText (parent : String) (children : List String) : Bool :=
  match ParentOperationState.ofValue? parent, children.mapM OperationItemState.ofValue? with
  | some parent, some checked => parentOperationChildrenCompatible parent checked
  | _, _ => false

/-- `item_operation_transition_allowed`, with its coercions. -/
def itemOperationTransitionAllowedText (current target parent : String) : Bool :=
  match OperationItemState.ofValue? current, OperationItemState.ofValue? target,
    ParentOperationState.ofValue? parent with
  | some source, some destination, some parent =>
      itemOperationTransitionAllowed source destination parent
  | _, _, _ => false

/-! ## The guards of the database -/

/-- `not exists (select 1 from unnest(children) as state(value) where ...)`. -/
def noneIs (children : Option (List (Option String))) (condition : Option String → Truth) : Truth :=
  some (!(children.getD []).any fun value => (condition value).isTrue)

/-- `not exists (... where state.value not in (...))`. -/
def allIn (children : Option (List (Option String))) (values : List String) : Truth :=
  noneIs children fun value => (Truth.isIn value values).not

/-- `not exists (... where state.value <> ...)`. -/
def allAre (children : Option (List (Option String))) (state : String) : Truth :=
  noneIs children fun value => Truth.ne value (some state)

/-- `coalesce(array_length(children, 1), 0) > 0`. -/
def hasChildren (children : Option (List (Option String))) : Truth :=
  some (0 < (children.getD []).length)

/-- `mercury_parent_operation_transition_is_allowed`. -/
def mercuryParentOperationTransitionIsAllowed (current target : Option String)
    (children : Option (List (Option String))) : Truth :=
  let is (state : Option String) (value : String) : Bool := (Truth.eq state (some value)).isTrue
  let allTerminal := (hasChildren children).and (allIn children endedStatuses)
  if is current "prepared" then
    if is target "awaiting_confirmation" then allAre children "prepared"
    else if is target "expired" then (hasChildren children).and (allAre children "expired")
    else if is target "cancelled" then
      (hasChildren children).and (allIn children ["cancelled", "not_dispatched"])
    else some false
  else if is current "awaiting_confirmation" then
    if is target "dispatching" then allIn children ["awaiting_confirmation", "failed_pre_dispatch"]
    else if is target "failed_pre_dispatch" then
      (hasChildren children).and (allIn children ["failed_pre_dispatch", "not_dispatched"])
    else if is target "expired" then (hasChildren children).and (allAre children "expired")
    else if is target "cancelled" then
      (hasChildren children).and (allIn children ["cancelled", "not_dispatched"])
    else some false
  else if is current "failed_pre_dispatch" then
    if is target "dispatching" then allIn children ["awaiting_confirmation", "failed_pre_dispatch"]
    else if is target "cancelled" then
      (hasChildren children).and (allIn children ["cancelled", "not_dispatched"])
    else some false
  else if is current "outcome_unknown" then
    if is target "succeeded" then (hasChildren children).and (allAre children "succeeded")
    else if is target "needs_manual_review" then
      allTerminal.and ((Truth.eqAny "needs_manual_review" children).or
        (Truth.eqAny "outcome_unknown" children))
    else some false
  else if (Truth.ne current (some "dispatching")).isTrue then some false
  else if is target "succeeded" then (hasChildren children).and (allAre children "succeeded")
  else if is target "provider_rejected" then
    allTerminal.and (Truth.eqAny "provider_rejected" children)
  else if is target "outcome_unknown" then allTerminal.and (Truth.eqAny "outcome_unknown" children)
  else if is target "needs_manual_review" then
    allTerminal.and ((Truth.eqAny "needs_manual_review" children).or
      (Truth.eqAny "outcome_unknown" children))
  else some false

/-- `mercury_item_operation_transition_is_allowed`. -/
def mercuryItemOperationTransitionIsAllowed (current target parent : Option String) : Truth :=
  let is (state : Option String) (value : String) : Truth := Truth.eq state (some value)
  ((is current "prepared").and
      (((is target "awaiting_confirmation").and (is parent "awaiting_confirmation")).or
        ((Truth.isIn target ["expired", "cancelled"]).and (is parent "prepared")))).or
    (((is current "awaiting_confirmation").and
      ((((is target "dispatching").and (is parent "dispatching")).or
        ((is target "not_dispatched").and
          (Truth.isIn parent ["awaiting_confirmation", "dispatching"]))).or
        ((Truth.isIn target ["failed_pre_dispatch", "cancelled", "expired"]).and
          (is parent "awaiting_confirmation")))).or
    (((is current "failed_pre_dispatch").and
      (((is target "dispatching").and (is parent "dispatching")).or
        ((is target "cancelled").and (is parent "failed_pre_dispatch")))).or
    ((((is current "dispatching").and
        (Truth.isIn target ["succeeded", "provider_rejected", "outcome_unknown"])).and
        (is parent "dispatching")).or
      (((is current "outcome_unknown").and
        (Truth.isIn target ["succeeded", "needs_manual_review"])).and
        (is parent "outcome_unknown")))))

/-! ## No state is `NULL` -/

lemma noneIs_some (children : List String) (condition : Option String → Truth) :
    noneIs (some (children.map some)) condition =
      some (!children.any fun value => (condition (some value)).isTrue) := by
  simp [noneIs, List.any_map, Function.comp_def]

lemma allIn_some (children values : List String) :
    allIn (some (children.map some)) values = some (!children.any (· ∉ values)) := by
  simp [allIn, noneIs_some]

lemma allAre_some (children : List String) (state : String) :
    allAre (some (children.map some)) state = some (!children.any (· != state)) := by
  simp [allAre, noneIs_some]

lemma allIn_none (values : List String) : allIn none values = some true := rfl

lemma allAre_none (state : String) : allAre none state = some true := rfl

lemma hasChildren_some (children : List String) :
    hasChildren (some (children.map some)) = some (decide (0 < children.length)) := by
  simp [hasChildren]

lemma hasChildren_none : hasChildren none = some false := rfl

variable {p : OperationItemState → Bool} {a b : Bool} {current target : String}
  {children : List OperationItemState} {parent : ParentOperationState}
  {source destination : OperationItemState} {index : Nat}

/-- A branch that is known where its condition and its arms are. -/
lemma branch_some {c : Bool} {p : Prop} [Decidable p] {s t : Truth} (hc : c = p) (hs : s = some a)
    (ht : t = some b) : (if c then s else t) = some (if p then a else b) := by
  by_cases hp : p
  · rw [if_pos hp, if_pos (by rw [hc]; exact hp), hs]
  · rw [if_neg hp, if_neg (by rw [hc]; exact hp), ht]

lemma isTrue_eq_some (state value : String) :
    ((Truth.eq (some state) (some value)).isTrue = true) = (state = value) := by
  simp

lemma isTrue_ne_some (state value : String) :
    ((Truth.ne (some state) (some value)).isTrue = true) = (state ≠ value) := by
  simp

/-- On texts the parent guard is the two-valued one. -/
lemma mercuryParent_some (current target : String) (children : Option (List String)) :
    mercuryParentOperationTransitionIsAllowed (some current) (some target)
        (children.map fun cs => cs.map some) =
      some (parentOperationTransitionIsAllowed current target (children.getD [])) := by
  unfold mercuryParentOperationTransitionIsAllowed parentOperationTransitionIsAllowed
  repeat' apply branch_some
  all_goals first | exact isTrue_eq_some _ _ | exact isTrue_ne_some _ _ | rfl | skip
  all_goals
    cases children with
    | none => simp [hasChildren_none, allIn_none, allAre_none]
    | some cs => simp [hasChildren_some, allIn_some, allAre_some]

lemma mercuryItem_some (current target parent : String) :
    mercuryItemOperationTransitionIsAllowed (some current) (some target) (some parent) =
      some (itemOperationTransitionIsAllowed current target parent) := by
  simp only [mercuryItemOperationTransitionIsAllowed, itemOperationTransitionIsAllowed,
    Truth.eq_some, Truth.isIn_some, Truth.and_some, Truth.or_some, Bool.or_assoc, Bool.and_assoc]

/-! ## Only states are accepted -/

namespace OperationItemState

lemma mapM_ofValue?_value (states : List OperationItemState) :
    (states.map value).mapM ofValue? = some states := by
  induction states with
  | nil => rfl
  | cons s states ih => simp [ih]

variable {texts : List String}

lemma map_value_of_mapM {states : List OperationItemState} (h : texts.mapM ofValue? = some states) :
    texts = states.map value := by
  induction texts generalizing states with
  | nil =>
      cases h
      rfl
  | cons text texts ih =>
      simp only [List.mapM_cons, Option.bind_eq_bind, Option.bind_eq_some_iff, Option.pure_def,
        Option.some.injEq] at h
      obtain ⟨s, hs, rest, hrest, rfl⟩ := h
      rw [List.map_cons, ← ih hrest, value_of_ofValue? hs]

lemma exists_map_value (h : ∀ text ∈ texts, text ∈ members.map value) :
    ∃ states : List OperationItemState, texts = states.map value := by
  induction texts with
  | nil => exact ⟨[], rfl⟩
  | cons text texts ih =>
      obtain ⟨s, -, hs⟩ := List.mem_map.1 (h text List.mem_cons_self)
      obtain ⟨states, rfl⟩ := ih fun t ht => h t (List.mem_cons_of_mem _ ht)
      exact ⟨s :: states, by rw [List.map_cons, hs]⟩

end OperationItemState

lemma current_of_parentAllowed {children : List String}
    (h : parentOperationTransitionIsAllowed current target children = true) :
    ∃ s : ParentOperationState, current = s.value := by
  by_contra hnone
  have hne : ∀ s : ParentOperationState, current ≠ s.value := fun s hs => hnone ⟨s, hs⟩
  have h1 : current ≠ "prepared" := hne .prepared
  have h2 : current ≠ "awaiting_confirmation" := hne .awaitingConfirmation
  have h3 : current ≠ "failed_pre_dispatch" := hne .failedPreDispatch
  have h4 : current ≠ "outcome_unknown" := hne .outcomeUnknown
  have h5 : current ≠ "dispatching" := hne .dispatching
  simp [parentOperationTransitionIsAllowed, h1, h2, h3, h4, h5] at h

lemma imp_of_ite {c P : Prop} [Decidable c] (ha : a = true → P) (hb : b = true → P) :
    (if c then a else b) = true → P := by
  split
  · exact ha
  · exact hb

/-- Every test of the parent guard lists the states it lets pass. -/
lemma children_of_parentAllowed {children : List String}
    (h : parentOperationTransitionIsAllowed current target children = true) {child : String}
    (hchild : child ∈ children) :
    child ∈ OperationItemState.members.map OperationItemState.value := by
  have hin (values : List String) (h : (!children.any (· ∉ values)) = true)
      (hvalues : ∀ v ∈ values, v ∈ OperationItemState.members.map OperationItemState.value) :
      child ∈ OperationItemState.members.map OperationItemState.value := by
    simp only [decide_not, Bool.not_eq_true', List.any_eq_false, decide_eq_false_iff_not,
      not_not] at h
    exact hvalues child (h child hchild)
  have heq (value : String) (h : (!children.any (· != value)) = true)
      (hvalue : value ∈ OperationItemState.members.map OperationItemState.value) :
      child ∈ OperationItemState.members.map OperationItemState.value := by
    simp only [Bool.not_eq_true', List.any_eq_false, bne_iff_ne, not_not] at h
    rw [h child hchild]
    exact hvalue
  -- A test is one for membership or for equality, alone or after another one.
  revert h
  unfold parentOperationTransitionIsAllowed
  dsimp only [endedStatuses]
  repeat' with_reducible apply imp_of_ite
  all_goals
    intro h
    try simp only [Bool.and_eq_true, Bool.false_eq_true] at h
  all_goals
    first
    | exact hin _ h.1.2 (by decide)
    | exact hin _ h.2 (by decide)
    | exact heq _ h.2 (by decide)
    | exact hin _ h (by decide)
    | exact heq _ h (by decide)

/-- The parent guards accept the same moves on all texts. -/
lemma parentOperationTransitionIsAllowed_text (current target : String) (children : List String) :
    parentOperationTransitionIsAllowed current target children =
      parentOperationTransitionAllowedText current target children := by
  unfold parentOperationTransitionAllowedText
  split
  · rename_i source destination checked hsource hdestination hchecked
    rw [← ParentOperationState.value_of_ofValue? hsource,
      ← ParentOperationState.value_of_ofValue? hdestination,
      OperationItemState.map_value_of_mapM hchecked]
    exact parentOperationTransitionIsAllowed_value source destination checked
  · rename_i hnone
    by_contra h
    rw [Bool.not_eq_false] at h
    obtain ⟨source, rfl⟩ := current_of_parentAllowed h
    obtain ⟨destination, rfl⟩ := target_of_parentAllowed h
    obtain ⟨checked, rfl⟩ := OperationItemState.exists_map_value fun _ => children_of_parentAllowed h
    exact hnone source destination checked (ParentOperationState.ofValue?_value _)
      (ParentOperationState.ofValue?_value _) (OperationItemState.mapM_ofValue?_value _)

lemma states_of_itemAllowed {parent : String}
    (h : itemOperationTransitionIsAllowed current target parent = true) :
    (∃ s : OperationItemState, current = s.value) ∧
      ∃ p : ParentOperationState, parent = p.value := by
  simp only [itemOperationTransitionIsAllowed, Bool.or_eq_true, Bool.and_eq_true, beq_iff_eq,
    decide_eq_true_eq, List.mem_cons, List.not_mem_nil, or_false] at h
  rcases h with (((⟨hc, h⟩ | ⟨hc, h⟩) | ⟨hc, h⟩) | ⟨⟨hc, -⟩, hp⟩) | ⟨⟨hc, -⟩, hp⟩
  · refine ⟨⟨.prepared, hc⟩, ?_⟩
    rcases h with ⟨-, hp⟩ | ⟨-, hp⟩
    · exact ⟨.awaitingConfirmation, hp⟩
    · exact ⟨.prepared, hp⟩
  · refine ⟨⟨.awaitingConfirmation, hc⟩, ?_⟩
    rcases h with (⟨-, hp⟩ | ⟨-, hp | hp⟩) | ⟨-, hp⟩
    · exact ⟨.dispatching, hp⟩
    · exact ⟨.awaitingConfirmation, hp⟩
    · exact ⟨.dispatching, hp⟩
    · exact ⟨.awaitingConfirmation, hp⟩
  · refine ⟨⟨.failedPreDispatch, hc⟩, ?_⟩
    rcases h with ⟨-, hp⟩ | ⟨-, hp⟩
    · exact ⟨.dispatching, hp⟩
    · exact ⟨.failedPreDispatch, hp⟩
  · exact ⟨⟨.dispatching, hc⟩, .dispatching, hp⟩
  · exact ⟨⟨.outcomeUnknown, hc⟩, .outcomeUnknown, hp⟩

lemma itemOperationTransitionIsAllowed_text (current target parent : String) :
    itemOperationTransitionIsAllowed current target parent =
      itemOperationTransitionAllowedText current target parent := by
  unfold itemOperationTransitionAllowedText
  split
  · rename_i source destination p hsource hdestination hparent
    rw [← OperationItemState.value_of_ofValue? hsource,
      ← OperationItemState.value_of_ofValue? hdestination,
      ← ParentOperationState.value_of_ofValue? hparent]
    exact itemOperationTransitionIsAllowed_value source destination p
  · rename_i hnone
    by_contra h
    rw [Bool.not_eq_false] at h
    obtain ⟨⟨source, rfl⟩, ⟨p, rfl⟩⟩ := states_of_itemAllowed h
    obtain ⟨destination, rfl⟩ := target_of_itemAllowed h
    exact hnone source destination p (OperationItemState.ofValue?_value _)
      (OperationItemState.ofValue?_value _) (ParentOperationState.ofValue?_value _)

/-! ## Accepted moves keep the children compatible -/

lemma all_mono {q : OperationItemState → Bool} (h : children.all p = true)
    (himp : ∀ c, p c = true → q c = true) : children.all q = true := by
  rw [List.all_eq_true] at h ⊢
  exact fun c hc => himp c (h c hc)

lemma nonempty_of_compatible (h : parentOperationChildrenCompatible parent children = true) :
    ¬ children.isEmpty = true := by
  intro hempty
  unfold parentOperationChildrenCompatible at h
  rw [if_pos hempty] at h
  cases h

lemma compatible_of_parentAllowed {source destination : ParentOperationState}
    (hcompatible : parentOperationChildrenCompatible source children = true)
    (h : parentOperationTransitionAllowed source destination children = true) :
    parentOperationChildrenCompatible destination children = true := by
  have hmem := Statuses.mem_parentTransitions h
  unfold parentOperationTransitionAllowed at h
  unfold parentOperationChildrenCompatible
  rw [if_neg (not_not.2 hmem)] at h
  rw [if_neg (nonempty_of_compatible hcompatible)]
  cases destination with
  | prepared => cases source <;> simp [parentTransitions] at hmem
  | awaitingConfirmation => exact all_mono h fun c hc => by cases c <;> first | rfl | cases hc
  | dispatching => exact all_mono h fun c hc => by cases c <;> first | rfl | cases hc
  | failedPreDispatch =>
      rw [Bool.and_eq_true] at h
      exact all_mono h.2 fun c hc => by cases c <;> first | rfl | cases hc
  | outcomeUnknown =>
      simp only [Bool.and_eq_true, Bool.not_eq_true'] at h
      obtain ⟨⟨-, hall⟩, hany⟩ := h
      rw [Bool.and_eq_true, hall, List.any_eq_true]
      obtain ⟨c, hc, hcc⟩ := List.any_eq_true.1 hany
      exact ⟨rfl, c, hc, by rw [beq_iff_eq] at hcc; simp [hcc]⟩
  | providerRejected | needsManualReview =>
      simp only [Bool.and_eq_true] at h ⊢
      exact ⟨h.1.2, h.2⟩
  | succeeded | expired | cancelled =>
      rw [Bool.and_eq_true] at h
      exact h.2

lemma all_set {state : OperationItemState} (h : children.all p = true) (hstate : p state = true) :
    (children.set index state).all p = true := by
  rw [List.all_eq_true] at h ⊢
  intro c hc
  rcases List.mem_or_eq_of_mem_set hc with hc | rfl
  · exact h c hc
  · exact hstate

/-- The states an item may move to under a parent. -/
def itemTargetsUnder : ParentOperationState → List OperationItemState
  | .prepared => [.expired, .cancelled]
  | .awaitingConfirmation =>
      [.awaitingConfirmation, .failedPreDispatch, .notDispatched, .expired, .cancelled]
  | .failedPreDispatch => [.cancelled]
  | .dispatching => [.dispatching, .notDispatched, .succeeded, .providerRejected, .outcomeUnknown]
  | .outcomeUnknown => [.succeeded, .needsManualReview]
  | _ => []

lemma mem_itemTargetsUnder (h : itemOperationTransitionAllowed source destination parent = true) :
    destination ∈ itemTargetsUnder parent := by
  have hall : ∀ t ∈ itemTransitions source,
      itemOperationTransitionAllowed source t parent = true → t ∈ itemTargetsUnder parent := by
    cases source <;> cases parent <;> decide
  exact hall destination (mem_itemTransitions h) h

lemma compatible_of_itemAllowed
    (hcompatible : parentOperationChildrenCompatible parent children = true)
    (hchild : children[index]? = some source)
    (h : itemOperationTransitionAllowed source destination parent = true) :
    parentOperationChildrenCompatible parent (children.set index destination) = true := by
  have htarget := mem_itemTargetsUnder h
  have hempty := nonempty_of_compatible hcompatible
  have hlt := (List.getElem?_eq_some_iff.1 hchild).1
  unfold parentOperationChildrenCompatible at hcompatible ⊢
  rw [if_neg hempty] at hcompatible
  rw [if_neg (by simpa [List.isEmpty_iff] using hempty)]
  cases parent with
  | prepared | awaitingConfirmation | failedPreDispatch | dispatching =>
      refine all_set hcompatible ?_
      revert htarget
      cases destination <;> decide
  | outcomeUnknown =>
      rw [Bool.and_eq_true] at hcompatible ⊢
      refine ⟨all_set hcompatible.1 ?_, List.any_eq_true.2 ⟨destination, List.mem_set hlt _, ?_⟩⟩
      · revert htarget
        cases destination <;> decide
      · revert htarget
        cases destination <;> decide
  | _ => cases htarget

/-- The guards of the database and of the service accept the same transitions: of a parent with any
children, and of an item under any parent.  The database has no compatibility predicate of its
own; from children that the service takes for compatible with their parent, what its guards accept
leads to compatible ones again. -/
theorem transition_predicates_agree :
    (∀ (current target : String) (children : Option (List String)),
      mercuryParentOperationTransitionIsAllowed (some current) (some target)
          (children.map fun cs => cs.map some) =
        some (parentOperationTransitionAllowedText current target (children.getD []))) ∧
    (∀ current target parent : String,
      mercuryItemOperationTransitionIsAllowed (some current) (some target) (some parent) =
        some (itemOperationTransitionAllowedText current target parent)) ∧
    (∀ (current target : String) (children : List String),
      parentOperationChildrenCompatibleText current children = true →
      mercuryParentOperationTransitionIsAllowed (some current) (some target)
          (some (children.map some)) = some true →
      parentOperationChildrenCompatibleText target children = true) ∧
    (∀ (parent current target : String) (children : List String) (index : Nat),
      parentOperationChildrenCompatibleText parent children = true →
      children[index]? = some current →
      mercuryItemOperationTransitionIsAllowed (some current) (some target) (some parent) =
        some true →
      parentOperationChildrenCompatibleText parent (children.set index target) = true) := by
  refine ⟨fun current target children => ?_, fun current target parent => ?_,
    fun current target children hcompatible h => ?_,
    fun parent current target children index hcompatible hchild h => ?_⟩
  · rw [mercuryParent_some, parentOperationTransitionIsAllowed_text]
  · rw [mercuryItem_some, itemOperationTransitionIsAllowed_text]
  · have hguard := mercuryParent_some current target (some children)
    rw [show (some children).map (fun cs => cs.map some) = some (children.map some) from rfl, h,
      Option.some.injEq] at hguard
    obtain ⟨source, rfl⟩ := current_of_parentAllowed hguard.symm
    obtain ⟨destination, rfl⟩ := target_of_parentAllowed hguard.symm
    obtain ⟨checked, rfl⟩ :=
      OperationItemState.exists_map_value fun _ => children_of_parentAllowed hguard.symm
    rw [Option.getD_some, parentOperationTransitionIsAllowed_value] at hguard
    simp only [parentOperationChildrenCompatibleText, ParentOperationState.ofValue?_value,
      OperationItemState.mapM_ofValue?_value] at hcompatible ⊢
    exact compatible_of_parentAllowed hcompatible hguard.symm
  · rw [mercuryItem_some, Option.some.injEq] at h
    obtain ⟨⟨source, rfl⟩, ⟨p, rfl⟩⟩ := states_of_itemAllowed h
    obtain ⟨destination, rfl⟩ := target_of_itemAllowed h
    rw [itemOperationTransitionIsAllowed_value] at h
    unfold parentOperationChildrenCompatibleText at hcompatible ⊢
    split at hcompatible
    · rename_i p' checked hp hchecked
      rw [ParentOperationState.ofValue?_value, Option.some.injEq] at hp
      subst hp
      rw [OperationItemState.map_value_of_mapM hchecked] at hchild ⊢
      rw [List.getElem?_map, Option.map_eq_some_iff] at hchild
      obtain ⟨source', hsource, heq⟩ := hchild
      obtain rfl := OperationItemState.value_injective heq
      rw [← List.map_set, OperationItemState.mapM_ofValue?_value,
        ParentOperationState.ofValue?_value]
      exact compatible_of_itemAllowed hcompatible hsource h
    · cases hcompatible

theorem transition_predicates_agree_dispatching :
    parentOperationChildrenCompatibleText "dispatching" ["awaiting_confirmation"] = true ∧
      parentOperationChildrenCompatibleText "dispatching" ["dispatching"] = true :=
  ⟨transition_predicates_agree.2.2.1 "awaiting_confirmation" "dispatching"
      ["awaiting_confirmation"] (by decide) (by decide),
    transition_predicates_agree.2.2.2 "dispatching" "awaiting_confirmation" "dispatching"
      ["awaiting_confirmation"] 0 (by decide) (by decide) (by decide)⟩

end Hosted
end MercuryTools
