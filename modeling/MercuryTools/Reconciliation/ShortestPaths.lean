import MercuryTools.Reconciliation.FlowGraph
import Mathlib.Algebra.Order.BigOperators.Group.Finset
import Mathlib.Data.Prod.Lex

/-!
# The search for a shortest path

The inner loop of `_optimal_one_to_one_match` in `reconciliation/matcher.py`: distances are labels
that only go down, and a node whose label went down is in the queue until its edges are scanned.
Where the reduced costs are not negative, the search ends (`SearchInvariant.search_ends`), and the
pointers lead from every labelled node back to the source (`SearchInvariant.traced`).

With the potentials that follow from the labels no edge of a reachable node has a negative reduced
cost (`SearchInvariant.reducedCost_nonneg`), and the pointers follow edges that have none
(`SearchInvariant.exists_tight`).
-/

namespace MercuryTools
namespace Reconciliation

open FlowGraph

/-! ## The loop -/

/-- The lists `distances` and `previous`, and the heap as a sorted list. -/
structure Search where
  distances : ℕ → Option ℤ
  previous : ℕ → Option (ℕ × ℕ)
  queue : List (ℤ × ℕ)

/-- `heappush`. -/
def heappush (entry : ℤ × ℕ) : List (ℤ × ℕ) → List (ℤ × ℕ)
  | [] => [entry]
  | other :: queue =>
      if entry.1 < other.1 ∨ entry.1 = other.1 ∧ entry.2 ≤ other.2 then entry :: other :: queue
      else other :: heappush entry queue

/-- The cost of an edge under the potentials. -/
def reducedCost (potentials : ℕ → ℤ) (node : ℕ) (edge : FlowEdge) : ℤ :=
  edge.cost + potentials node - potentials edge.target

namespace Search

/-- The search before its loop. -/
def initial (source : ℕ) : Search where
  distances := Function.update (fun _ => none) source (some 0)
  previous := fun _ => none
  queue := [(0, source)]

/-- An edge of the node that was taken from the heap. -/
def relax (potentials : ℕ → ℤ) (distance : ℤ) (node : ℕ) (s : Search) (edge : FlowEdge)
    (index : ℕ) : Search :=
  if edge.capacity = 0 then s
  else
    let nextDistance := distance + edge.cost + potentials node - potentials edge.target
    if (s.distances edge.target).any (· ≤ nextDistance) then s
    else {
      distances := Function.update s.distances edge.target (some nextDistance)
      previous := Function.update s.previous edge.target (some (node, index))
      queue := heappush (nextDistance, edge.target) s.queue }

/-- The edges of the node, in their order. -/
def relaxAll (potentials : ℕ → ℤ) (distance : ℤ) (node : ℕ) (s : Search)
    (edges : List (FlowEdge × ℕ)) : Search :=
  edges.foldl (fun s edge => s.relax potentials distance node edge.1 edge.2) s

/-- A round of `while queue`; there is none where the queue is empty. -/
def step (graph : FlowGraph) (potentials : ℕ → ℤ) (s : Search) : Option Search :=
  match s.queue with
  | [] => none
  | (distance, node) :: queue =>
      let popped := { s with queue := queue }
      if s.distances node = some distance then
        some (popped.relaxAll potentials distance node (graph node).zipIdx)
      else some popped

end Search

/-- The loop, for at most this many rounds. -/
def search (graph : FlowGraph) (potentials : ℕ → ℤ) : ℕ → Search → Option Search
  | 0, _ => none
  | fuel + 1, s =>
      match s.step graph potentials with
      | none => some s
      | some next => search graph potentials fuel next

/-! ## What the loop keeps -/

/-- There is an edge with capacity. -/
def Residual (graph : FlowGraph) (node node' : ℕ) : Prop :=
  ∃ edge ∈ graph node, edge.capacity ≠ 0 ∧ edge.target = node'

/-- There is a path of edges with capacity. -/
def Reachable (graph : FlowGraph) (source node : ℕ) : Prop :=
  Relation.ReflTransGen (Residual graph) source node

/-- The edges with capacity that leave a reachable node have no negative reduced costs. -/
def NonnegCosts (graph : FlowGraph) (potentials : ℕ → ℤ) (source : ℕ) : Prop :=
  ∀ node, Reachable graph source node → ∀ edge ∈ graph node, edge.capacity ≠ 0 →
    0 ≤ reducedCost potentials node edge

/-- The pointers lead from the node to the source. -/
inductive Traced (previous : ℕ → Option (ℕ × ℕ)) (source : ℕ) : ℕ → Prop
  | source : Traced previous source source
  | step {node before index : ℕ} : node ≠ source → previous node = some (before, index) →
      Traced previous source before → Traced previous source node

/-- The invariant of the loop; the edges that are `pending` need not be scanned yet. -/
structure SearchInvariant (graph : FlowGraph) (potentials : ℕ → ℤ) (source : ℕ)
    (pending : ℕ → FlowEdge → Prop) (s : Search) : Prop where
  source_label : s.distances source = some 0
  nonneg : ∀ node d, s.distances node = some d → 0 ≤ d
  reachable : ∀ node d, s.distances node = some d → Reachable graph source node
  parent : ∀ node d, s.distances node = some d → node ≠ source →
    ∃ before index edge d', s.previous node = some (before, index) ∧
      (graph before)[index]? = some edge ∧ edge.target = node ∧ edge.capacity ≠ 0 ∧
      s.distances before = some d' ∧ d' + reducedCost potentials before edge ≤ d
  traced : ∀ node d, s.distances node = some d → Traced s.previous source node
  scanned : ∀ node d, s.distances node = some d → ∀ edge ∈ graph node, edge.capacity ≠ 0 →
    (d, node) ∈ s.queue ∨ pending node edge ∨
      ∃ d', s.distances edge.target = some d' ∧ d' ≤ d + reducedCost potentials node edge

section

variable {graph : FlowGraph} {potentials : ℕ → ℤ} {source node : ℕ}
  {pending pending' : ℕ → FlowEdge → Prop} {s : Search}

variable {queue : List (ℤ × ℕ)} {distance : ℤ}

lemma mem_heappush {entry other : ℤ × ℕ} :
    other ∈ heappush entry queue ↔ other = entry ∨ other ∈ queue := by
  induction queue with
  | nil => simp [heappush]
  | cons first queue ih =>
    rw [heappush]
    split
    · exact List.mem_cons
    · rw [List.mem_cons, ih, List.mem_cons]
      exact or_left_comm

lemma searchInvariant_initial (graph : FlowGraph) (potentials : ℕ → ℤ) (source : ℕ) :
    SearchInvariant graph potentials source (fun _ _ => False) (.initial source) := by
  have hdistances : (Search.initial source).distances =
      Function.update (fun _ => none) source (some 0) := rfl
  have hlabel : ∀ {v d}, (Search.initial source).distances v = some d → v = source ∧ d = 0 := by
    intro v d h
    rw [hdistances] at h
    by_cases hv : v = source
    · subst hv
      rw [Function.update_self] at h
      exact ⟨rfl, (Option.some.inj h).symm⟩
    · rw [Function.update_of_ne hv] at h
      cases h
  constructor
  · rw [hdistances, Function.update_self]
  · intro v d h
    exact (hlabel h).2.ge
  · intro v d h
    rw [(hlabel h).1]
    exact .refl
  · intro v d h hne
    exact absurd (hlabel h).1 hne
  · intro v d h
    rw [(hlabel h).1]
    exact .source
  · intro v d h edge _ _
    obtain ⟨rfl, rfl⟩ := hlabel h
    exact .inl List.mem_cons_self

lemma SearchInvariant.mono (h : SearchInvariant graph potentials source pending s)
    (hpending : ∀ node edge, pending node edge → pending' node edge) :
    SearchInvariant graph potentials source pending' s :=
  { h with
    scanned := fun node d hd edge hedge hcapacity =>
      (h.scanned node d hd edge hedge hcapacity).imp_right (Or.imp_left (hpending node edge)) }

/-! ### One edge -/

section

variable {distance : ℤ} {edge : FlowEdge} {index : ℕ} {previous : ℕ → Option (ℕ × ℕ)}

variable {changed : ℕ} {pointer : Option (ℕ × ℕ)} {edges : List (FlowEdge × ℕ)}

/-- A node stays traced when the pointer of a node with a larger label changes. -/
lemma SearchInvariant.traced_update_of_le (h : SearchInvariant graph potentials source pending s)
    (hcosts : NonnegCosts graph potentials source) {bound : ℤ}
    (hchanged : ∀ d, s.distances changed = some d → bound < d)
    (htraced : Traced s.previous source node) :
    ∀ d, s.distances node = some d → d ≤ bound →
      Traced (Function.update s.previous changed pointer) source node := by
  induction htraced with
  | source => exact fun _ _ _ => .source
  | @step node before index hne hprevious _ ih =>
    intro d hd hle
    obtain ⟨before', index', edge, d', hparent, hedge, -, hcapacity, hd', hsum⟩ :=
      h.parent node d hd hne
    obtain ⟨rfl, rfl⟩ := Prod.mk.inj (Option.some.inj (hprevious.symm.trans hparent))
    have hcost := hcosts before (h.reachable before d' hd') edge (List.mem_of_getElem? hedge)
      hcapacity
    have hnode : node ≠ changed := by
      rintro rfl
      exact absurd (hchanged d hd) (not_lt.2 hle)
    exact .step hne (by rw [Function.update_of_ne hnode, hprevious]) (ih d' hd' (by omega))

/-- The other nodes stay traced, if the node whose pointer changes does. -/
lemma Traced.update (hchanged : Traced (Function.update previous changed pointer) source changed)
    (htraced : Traced previous source node) :
    Traced (Function.update previous changed pointer) source node := by
  induction htraced with
  | source => exact .source
  | @step node before index hne hprevious _ ih =>
    by_cases hnode : node = changed
    · exact hnode ▸ hchanged
    · exact .step hne (by rw [Function.update_of_ne hnode, hprevious]) ih

/-- A label goes down. -/
lemma SearchInvariant.lower
    (h : SearchInvariant graph potentials source
      (fun x f => pending x f ∨ x = node ∧ f = edge) s)
    (hcosts : NonnegCosts graph potentials source) (hnode : s.distances node = some distance)
    (hedge : (graph node)[index]? = some edge) (hcapacity : edge.capacity ≠ 0)
    (hlower : ∀ d, s.distances edge.target = some d →
      distance + reducedCost potentials node edge < d) :
    edge.target ≠ node ∧ SearchInvariant graph potentials source pending {
      distances := Function.update s.distances edge.target
        (some (distance + reducedCost potentials node edge))
      previous := Function.update s.previous edge.target (some (node, index))
      queue := heappush (distance + reducedCost potentials node edge, edge.target) s.queue } := by
  set next := distance + reducedCost potentials node edge with hnext
  have hmem := List.mem_of_getElem? hedge
  have hreachable := h.reachable node distance hnode
  have hcost := hcosts node hreachable edge hmem hcapacity
  have hdistance := h.nonneg node distance hnode
  have hne_node : edge.target ≠ node := by
    intro heq
    have := hlower distance (heq ▸ hnode)
    omega
  have hne_source : edge.target ≠ source := by
    intro heq
    have := hlower 0 (heq ▸ h.source_label)
    omega
  -- the labels of the other nodes
  have hother : ∀ {v d}, Function.update s.distances edge.target (some next) v = some d →
      v = edge.target ∧ d = next ∨ v ≠ edge.target ∧ s.distances v = some d := by
    intro v d hd
    by_cases hv : v = edge.target
    · subst hv
      rw [Function.update_self] at hd
      exact .inl ⟨rfl, (Option.some.inj hd).symm⟩
    · rw [Function.update_of_ne hv] at hd
      exact .inr ⟨hv, hd⟩
  -- no label goes up
  have hdown : ∀ {v d}, s.distances v = some d →
      ∃ d', Function.update s.distances edge.target (some next) v = some d' ∧ d' ≤ d := by
    intro v d hd
    by_cases hv : v = edge.target
    · subst hv
      exact ⟨next, Function.update_self .., (hlower d hd).le⟩
    · exact ⟨d, by rw [Function.update_of_ne hv, hd], le_rfl⟩
  have htarget : Traced (Function.update s.previous edge.target (some (node, index))) source
      edge.target :=
    .step hne_source (Function.update_self ..)
      (h.traced_update_of_le hcosts hlower (h.traced node distance hnode) distance hnode
        (by omega))
  refine ⟨hne_node, ?_, ?_, ?_, ?_, ?_, ?_⟩
  · exact (Function.update_of_ne hne_source.symm ..).trans h.source_label
  · intro v d hd
    rcases hother hd with ⟨-, rfl⟩ | ⟨-, hd⟩
    · omega
    · exact h.nonneg v d hd
  · intro v d hd
    rcases hother hd with ⟨rfl, -⟩ | ⟨-, hd⟩
    · exact hreachable.tail ⟨edge, hmem, hcapacity, rfl⟩
    · exact h.reachable v d hd
  · intro v d hd hv
    rcases hother hd with ⟨rfl, rfl⟩ | ⟨hne, hd⟩
    · exact ⟨node, index, edge, distance, Function.update_self .., hedge, rfl, hcapacity,
        (Function.update_of_ne hne_node.symm ..).trans hnode, le_rfl⟩
    · obtain ⟨before, i, e, d', hprevious, he, hto, hcap, hd', hsum⟩ := h.parent v d hd hv
      obtain ⟨d'', hd'', hle⟩ := hdown hd'
      exact ⟨before, i, e, d'', (Function.update_of_ne hne ..).trans hprevious, he, hto, hcap, hd'',
        by omega⟩
  · intro v d hd
    rcases hother hd with ⟨rfl, -⟩ | ⟨-, hd⟩
    · exact htarget
    · exact htarget.update (h.traced v d hd)
  · intro v d hd e he hcap
    rcases hother hd with ⟨rfl, rfl⟩ | ⟨-, hlabel⟩
    · exact .inl (mem_heappush.2 (.inl rfl))
    · rcases h.scanned v d hlabel e he hcap with hqueue | (hpending | ⟨rfl, rfl⟩) | ⟨d', hd', hle⟩
      · exact .inl (mem_heappush.2 (.inr hqueue))
      · exact .inr (.inl hpending)
      · obtain rfl := Option.some.inj (hlabel.symm.trans hnode)
        exact .inr (.inr ⟨next, Function.update_self .., le_rfl⟩)
      · obtain ⟨d'', hd'', hle'⟩ := hdown hd'
        exact .inr (.inr ⟨d'', hd'', by omega⟩)

/-- Scanning an edge. -/
lemma SearchInvariant.relax
    (h : SearchInvariant graph potentials source
      (fun x f => pending x f ∨ x = node ∧ f = edge) s)
    (hcosts : NonnegCosts graph potentials source) (hnode : s.distances node = some distance)
    (hedge : (graph node)[index]? = some edge) :
    (s.relax potentials distance node edge index).distances node = some distance ∧
      SearchInvariant graph potentials source pending
        (s.relax potentials distance node edge index) := by
  have hcost : distance + edge.cost + potentials node - potentials edge.target =
      distance + reducedCost potentials node edge := by
    rw [reducedCost]
    ring
  rw [Search.relax]
  split
  · next hzero =>
    refine ⟨hnode, { h with scanned := ?_ }⟩
    intro v d hd e he hcapacity
    rcases h.scanned v d hd e he hcapacity with hqueue | (hpending | ⟨-, rfl⟩) | hlabel
    · exact .inl hqueue
    · exact .inr (.inl hpending)
    · exact absurd hzero hcapacity
    · exact .inr (.inr hlabel)
  · next hcapacity =>
    simp only [hcost]
    split
    · next hany =>
      refine ⟨hnode, { h with scanned := ?_ }⟩
      intro v d hd e he hcap
      rcases h.scanned v d hd e he hcap with hqueue | (hpending | ⟨rfl, rfl⟩) | hlabel
      · exact .inl hqueue
      · exact .inr (.inl hpending)
      · obtain rfl := Option.some.inj (hd.symm.trans hnode)
        obtain ⟨d', hd', hle⟩ := (Option.any_eq_true ..).1 hany
        exact .inr (.inr ⟨d', hd', of_decide_eq_true hle⟩)
      · exact .inr (.inr hlabel)
    · next hlower =>
      obtain ⟨hne, hinvariant⟩ := h.lower hcosts hnode hedge hcapacity fun d hd => by
        simpa [hd] using hlower
      exact ⟨(Function.update_of_ne hne.symm ..).trans hnode, hinvariant⟩

/-- The first edge that is left, and the others. -/
lemma SearchInvariant.pending_cons {first : FlowEdge × ℕ}
    (h : SearchInvariant graph potentials source
      (fun x f => x = node ∧ ∃ index, (f, index) ∈ first :: edges) s) :
    SearchInvariant graph potentials source
      (fun x f => (x = node ∧ ∃ index, (f, index) ∈ edges) ∨ x = node ∧ f = first.1) s := by
  refine h.mono ?_
  rintro x f ⟨rfl, i, hmem⟩
  rcases List.mem_cons.1 hmem with rfl | hmem
  · exact .inr ⟨rfl, rfl⟩
  · exact .inl ⟨rfl, i, hmem⟩

/-- Scanning the edges of a node. -/
lemma SearchInvariant.relaxAll (h : SearchInvariant graph potentials source
      (fun x f => x = node ∧ ∃ index, (f, index) ∈ edges) s)
    (hcosts : NonnegCosts graph potentials source) (hnode : s.distances node = some distance)
    (hedges : ∀ f index, (f, index) ∈ edges → (graph node)[index]? = some f) :
    SearchInvariant graph potentials source (fun _ _ => False)
      (s.relaxAll potentials distance node edges) := by
  induction edges generalizing s with
  | nil => exact h.mono fun x f hpending => by simp at hpending
  | cons first edges ih =>
    obtain ⟨hlabel, hinvariant⟩ :=
      h.pending_cons.relax hcosts hnode (hedges first.1 first.2 List.mem_cons_self)
    exact ih hinvariant hlabel fun f i hmem => hedges f i (List.mem_cons_of_mem _ hmem)

end

/-- An edge of a labelled node, where an entry was taken from the queue. -/
lemma SearchInvariant.scanned_or_popped
    (h : SearchInvariant graph potentials source (fun _ _ => False) s)
    (hqueue : s.queue = (distance, node) :: queue) {v : ℕ} {d : ℤ} (hd : s.distances v = some d)
    {edge : FlowEdge} (hedge : edge ∈ graph v) (hcapacity : edge.capacity ≠ 0) :
    (d, v) ∈ queue ∨ (d = distance ∧ v = node) ∨
      ∃ d', s.distances edge.target = some d' ∧ d' ≤ d + reducedCost potentials v edge := by
  rcases h.scanned v d hd edge hedge hcapacity with hmem | hpending | hlabel
  · rw [hqueue, List.mem_cons, Prod.mk.injEq] at hmem
    exact hmem.symm.imp_right .inl
  · exact hpending.elim
  · exact .inr (.inr hlabel)

/-- The edges of the node that was taken from the queue are to be scanned. -/
lemma SearchInvariant.popped (h : SearchInvariant graph potentials source (fun _ _ => False) s)
    (hqueue : s.queue = (distance, node) :: queue) :
    SearchInvariant graph potentials source
      (fun x f => x = node ∧ ∃ index, (f, index) ∈ (graph node).zipIdx)
      { s with queue := queue } :=
  { h with
    scanned := by
      intro v d hd edge hedge hcapacity
      rcases h.scanned_or_popped hqueue hd hedge hcapacity with hmem | ⟨-, rfl⟩ | hlower
      · exact .inl hmem
      · obtain ⟨index, hindex⟩ := List.mem_iff_getElem?.1 hedge
        exact .inr (.inl ⟨rfl, index, List.mk_mem_zipIdx_iff_getElem?.2 hindex⟩)
      · exact .inr (.inr hlower) }

/-- A round of the loop keeps the invariant. -/
theorem SearchInvariant.step (h : SearchInvariant graph potentials source (fun _ _ => False) s)
    (hcosts : NonnegCosts graph potentials source) {s' : Search}
    (hstep : s.step graph potentials = some s') :
    SearchInvariant graph potentials source (fun _ _ => False) s' := by
  rw [Search.step] at hstep
  split at hstep
  · cases hstep
  · next distance node queue hqueue =>
    split at hstep
    · next hlabel =>
      obtain rfl := Option.some.inj hstep
      exact (h.popped hqueue).relaxAll hcosts hlabel fun f index hmem =>
        List.mk_mem_zipIdx_iff_getElem?.1 hmem
    · next hlabel =>
      obtain rfl := Option.some.inj hstep
      refine { h with scanned := ?_ }
      intro v d hd edge hedge hcapacity
      rcases h.scanned_or_popped hqueue hd hedge hcapacity with hmem | ⟨rfl, rfl⟩ | hlower
      · exact .inl hmem
      · exact absurd hd hlabel
      · exact .inr (.inr hlower)

/-- The search keeps the invariant. -/
theorem SearchInvariant.search {fuel : ℕ} {s' : Search}
    (h : SearchInvariant graph potentials source (fun _ _ => False) s)
    (hcosts : NonnegCosts graph potentials source)
    (hsearch : search graph potentials fuel s = some s') :
    SearchInvariant graph potentials source (fun _ _ => False) s' ∧ s'.queue = [] := by
  induction fuel generalizing s with
  | zero => cases hsearch
  | succ fuel ih =>
    rw [Reconciliation.search] at hsearch
    split at hsearch
    · next hnone =>
      obtain rfl := Option.some.inj hsearch
      refine ⟨h, ?_⟩
      rw [Search.step] at hnone
      split at hnone
      · assumption
      · split at hnone <;> cases hnone
    · next next hnext => exact ih (h.step hcosts hnext) hsearch

end

/-! ## The loop ends

A node without a label gets one, or a label goes down, or the queue becomes shorter.
-/

/-- The nodes without a label. -/
def unlabelled (size : ℕ) (distances : ℕ → Option ℤ) : Finset ℕ :=
  (Finset.range size).filter fun node => distances node = none

/-- The sum of the labels. -/
def labelSum (size : ℕ) (distances : ℕ → Option ℤ) : ℕ :=
  ∑ node ∈ Finset.range size, ((distances node).getD 0).toNat

/-- The measure of the labels. -/
def labelMeasure (size : ℕ) (distances : ℕ → Option ℤ) : ℕ ×ₗ ℕ :=
  toLex ((unlabelled size distances).card, labelSum size distances)

section

variable {size node : ℕ} {distances : ℕ → Option ℤ} {d : ℤ}

lemma unlabelled_update_ssubset (hnode : node < size) (hlabel : distances node = none) :
    unlabelled size (Function.update distances node (some d)) ⊂ unlabelled size distances := by
  refine (Finset.ssubset_iff_of_subset ?_).2 ⟨node, ?_, ?_⟩
  · intro v hv
    simp only [unlabelled, Finset.mem_filter] at hv ⊢
    by_cases hne : v = node
    · exact ⟨hv.1, hne ▸ hlabel⟩
    · exact ⟨hv.1, (Function.update_of_ne hne ..).symm.trans hv.2⟩
  · exact Finset.mem_filter.2 ⟨Finset.mem_range.2 hnode, hlabel⟩
  · rw [unlabelled, Finset.mem_filter, Function.update_self]
    rintro ⟨-, h⟩
    cases h

variable {d' : ℤ}

lemma unlabelled_update (hlabel : distances node = some d') :
    unlabelled size (Function.update distances node (some d)) = unlabelled size distances := by
  refine Finset.filter_congr fun v _ => ?_
  by_cases hne : v = node
  · subst hne
    simp [hlabel]
  · rw [Function.update_of_ne hne]

lemma labelSum_update_lt (hnode : node < size) (hd : 0 ≤ d) (hlabel : distances node = some d')
    (hlt : d < d') :
    labelSum size (Function.update distances node (some d)) < labelSum size distances := by
  refine Finset.sum_lt_sum ?_ ⟨node, Finset.mem_range.2 hnode, ?_⟩
  · intro v _
    by_cases hne : v = node
    · subst hne
      rw [Function.update_self, hlabel]
      simp only [Option.getD_some]
      omega
    · rw [Function.update_of_ne hne]
  · rw [Function.update_self, hlabel]
    simp only [Option.getD_some]
    omega

lemma labelMeasure_update_lt (hnode : node < size) (hd : 0 ≤ d)
    (hlower : ∀ d', distances node = some d' → d < d') :
    labelMeasure size (Function.update distances node (some d)) < labelMeasure size distances := by
  rw [labelMeasure, labelMeasure, Prod.Lex.toLex_lt_toLex]
  cases hlabel : distances node with
  | none => exact .inl (Finset.card_lt_card (unlabelled_update_ssubset hnode hlabel))
  | some d' =>
    exact .inr ⟨congrArg Finset.card (unlabelled_update hlabel),
      labelSum_update_lt hnode hd hlabel (hlower d' hlabel)⟩

end

section

variable {graph : FlowGraph} {potentials : ℕ → ℤ} {source node size : ℕ} {distance : ℤ}
  {s : Search}

/-- An edge changes nothing, or a label is new or goes down. -/
lemma SearchInvariant.relax_eq_or_lt {pending : ℕ → FlowEdge → Prop} {edge : FlowEdge} {index : ℕ}
    (h : SearchInvariant graph potentials source
      (fun x f => pending x f ∨ x = node ∧ f = edge) s)
    (hcosts : NonnegCosts graph potentials source)
    (hsize : ∀ v, Reachable graph source v → v < size)
    (hnode : s.distances node = some distance) (hedge : (graph node)[index]? = some edge) :
    s.relax potentials distance node edge index = s ∨
      labelMeasure size (s.relax potentials distance node edge index).distances <
        labelMeasure size s.distances := by
  obtain ⟨-, hinvariant⟩ := h.relax hcosts hnode hedge
  rw [Search.relax] at hinvariant ⊢
  split at hinvariant
  · next hzero => exact .inl (if_pos hzero)
  · next hcapacity =>
    rw [if_neg hcapacity]
    simp only at hinvariant ⊢
    split at hinvariant
    · next hle => exact .inl (if_pos hle)
    · next hlower =>
      rw [if_neg hlower]
      have htarget : (Function.update s.distances edge.target (some
          (distance + edge.cost + potentials node - potentials edge.target))) edge.target =
            some (distance + edge.cost + potentials node - potentials edge.target) :=
        Function.update_self ..
      exact .inr <| labelMeasure_update_lt (hsize _ (hinvariant.reachable _ _ htarget))
        (hinvariant.nonneg _ _ htarget) fun d hd => by
          rw [hd] at hlower
          simpa using hlower

/-- So do all edges of a node. -/
lemma SearchInvariant.relaxAll_eq_or_lt {edges : List (FlowEdge × ℕ)}
    (h : SearchInvariant graph potentials source
      (fun x f => x = node ∧ ∃ index, (f, index) ∈ edges) s)
    (hcosts : NonnegCosts graph potentials source)
    (hsize : ∀ v, Reachable graph source v → v < size)
    (hnode : s.distances node = some distance)
    (hedges : ∀ f index, (f, index) ∈ edges → (graph node)[index]? = some f) :
    s.relaxAll potentials distance node edges = s ∨
      labelMeasure size (s.relaxAll potentials distance node edges).distances <
        labelMeasure size s.distances := by
  induction edges generalizing s with
  | nil => exact .inl rfl
  | cons first edges ih =>
    have hfirst := h.pending_cons
    have hedge := hedges first.1 first.2 List.mem_cons_self
    obtain ⟨hlabel, hinvariant⟩ := hfirst.relax hcosts hnode hedge
    have hrest := ih hinvariant hlabel fun f i hmem => hedges f i (List.mem_cons_of_mem _ hmem)
    change Search.relaxAll potentials distance node
        (s.relax potentials distance node first.1 first.2) edges = s ∨
      labelMeasure size (Search.relaxAll potentials distance node
        (s.relax potentials distance node first.1 first.2) edges).distances < _
    rcases hfirst.relax_eq_or_lt hcosts hsize hnode hedge with heq | hlt
    · rw [heq] at hrest ⊢
      exact hrest
    · rcases hrest with heq | hlt'
      · rw [heq]
        exact .inr hlt
      · exact .inr (hlt'.trans hlt)

/-- The measure of the loop. -/
def searchMeasure (size : ℕ) (s : Search) : (ℕ ×ₗ ℕ) ×ₗ ℕ :=
  toLex (labelMeasure size s.distances, s.queue.length)

/-- Every round lowers the measure. -/
lemma SearchInvariant.step_lt
    (h : SearchInvariant graph potentials source (fun _ _ => False) s)
    (hcosts : NonnegCosts graph potentials source)
    (hsize : ∀ v, Reachable graph source v → v < size) {s' : Search}
    (hstep : s.step graph potentials = some s') : searchMeasure size s' < searchMeasure size s := by
  rw [searchMeasure, searchMeasure, Prod.Lex.toLex_lt_toLex]
  rw [Search.step] at hstep
  split at hstep
  · cases hstep
  · next distance node queue hqueue =>
    have hlength : queue.length < s.queue.length := by
      rw [hqueue, List.length_cons]
      exact Nat.lt_succ_self _
    split at hstep
    · next hlabel =>
      obtain rfl := Option.some.inj hstep
      rcases (h.popped hqueue).relaxAll_eq_or_lt hcosts hsize hlabel fun f index hmem =>
        List.mk_mem_zipIdx_iff_getElem?.1 hmem with heq | hlt
      · rw [heq]
        exact .inr ⟨rfl, hlength⟩
      · exact .inl hlt
    · obtain rfl := Option.some.inj hstep
      exact .inr ⟨rfl, hlength⟩

/-- The search ends. -/
theorem SearchInvariant.search_ends
    (h : SearchInvariant graph potentials source (fun _ _ => False) s)
    (hcosts : NonnegCosts graph potentials source)
    (hsize : ∀ v, Reachable graph source v → v < size) :
    ∃ fuel s', Reconciliation.search graph potentials fuel s = some s' := by
  induction hmeasure : searchMeasure size s using WellFoundedLT.induction generalizing s with
  | ind m ih =>
    cases hstep : s.step graph potentials with
    | none => exact ⟨1, s, by rw [Reconciliation.search, hstep]⟩
    | some next =>
      obtain ⟨fuel, s', hs'⟩ := ih _ (hmeasure ▸ h.step_lt hcosts hsize hstep)
        (h.step hcosts hstep) rfl
      exact ⟨fuel + 1, s', by rw [Reconciliation.search, hstep]; exact hs'⟩

end

/-! ## The potentials after the search

The labels are added to the potentials.  The edges that leave a labelled node keep nonnegative
reduced costs, and the edges that the pointers follow have none.
-/

/-- The potentials of the nodes that have a label go up by it. -/
def updatePotentials (potentials : ℕ → ℤ) (distances : ℕ → Option ℤ) : ℕ → ℤ :=
  fun node => match distances node with
    | some distance => potentials node + distance
    | none => potentials node

section

variable {graph : FlowGraph} {potentials : ℕ → ℤ} {source node : ℕ} {s : Search} {d : ℤ}

lemma updatePotentials_of_eq_some (hd : s.distances node = some d) :
    updatePotentials potentials s.distances node = potentials node + d := by
  rw [updatePotentials, hd]

variable {edge : FlowEdge}

/-- An edge with capacity leads from a labelled node to a labelled node. -/
lemma SearchInvariant.label_le (h : SearchInvariant graph potentials source (fun _ _ => False) s)
    (hqueue : s.queue = []) (hd : s.distances node = some d) (hedge : edge ∈ graph node)
    (hcapacity : edge.capacity ≠ 0) :
    ∃ d', s.distances edge.target = some d' ∧ d' ≤ d + reducedCost potentials node edge := by
  rcases h.scanned node d hd edge hedge hcapacity with hmem | hpending | hlabel
  · rw [hqueue] at hmem
    cases hmem
  · exact hpending.elim
  · exact hlabel

/-- The labelled nodes are those with a path. -/
theorem SearchInvariant.reachable_iff
    (h : SearchInvariant graph potentials source (fun _ _ => False) s) (hqueue : s.queue = []) :
    Reachable graph source node ↔ ∃ d, s.distances node = some d := by
  constructor
  · intro hreachable
    induction hreachable with
    | refl => exact ⟨0, h.source_label⟩
    | tail _ hresidual ih =>
      obtain ⟨d, hd⟩ := ih
      obtain ⟨edge, hedge, hcapacity, rfl⟩ := hresidual
      obtain ⟨d', hd', -⟩ := h.label_le hqueue hd hedge hcapacity
      exact ⟨d', hd'⟩
  · rintro ⟨d, hd⟩
    exact h.reachable node d hd

/-- Every edge with capacity that leaves a reachable node. -/
theorem SearchInvariant.reducedCost_nonneg
    (h : SearchInvariant graph potentials source (fun _ _ => False) s) (hqueue : s.queue = [])
    (hnode : Reachable graph source node) (hedge : edge ∈ graph node)
    (hcapacity : edge.capacity ≠ 0) :
    0 ≤ reducedCost (updatePotentials potentials s.distances) node edge := by
  obtain ⟨d, hd⟩ := (h.reachable_iff hqueue).1 hnode
  obtain ⟨d', hd', hle⟩ := h.label_le hqueue hd hedge hcapacity
  rw [reducedCost] at hle ⊢
  rw [updatePotentials_of_eq_some hd, updatePotentials_of_eq_some hd']
  omega

/-- An edge that a pointer follows. -/
theorem SearchInvariant.exists_tight
    (h : SearchInvariant graph potentials source (fun _ _ => False) s) (hqueue : s.queue = [])
    (hnode : Reachable graph source node) (hne : node ≠ source) :
    ∃ before index edge, s.previous node = some (before, index) ∧
      (graph before)[index]? = some edge ∧ edge.target = node ∧ edge.capacity ≠ 0 ∧
      Reachable graph source before ∧
      reducedCost (updatePotentials potentials s.distances) before edge = 0 := by
  obtain ⟨d, hd⟩ := (h.reachable_iff hqueue).1 hnode
  obtain ⟨before, index, edge, d', hprevious, hedge, rfl, hcapacity, hd', hle⟩ :=
    h.parent node d hd hne
  refine ⟨before, index, edge, hprevious, hedge, rfl, hcapacity, h.reachable before d' hd', ?_⟩
  obtain ⟨d'', hd'', hle'⟩ := h.label_le hqueue hd' (List.mem_of_getElem? hedge) hcapacity
  obtain rfl := Option.some.inj (hd.symm.trans hd'')
  rw [reducedCost] at hle hle' ⊢
  rw [updatePotentials_of_eq_some hd', updatePotentials_of_eq_some hd]
  omega

end

end Reconciliation
end MercuryTools
