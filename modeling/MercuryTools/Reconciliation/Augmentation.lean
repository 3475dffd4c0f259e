import MercuryTools.Reconciliation.ShortestPaths

/-!
# Pushing a unit along a shortest path

The inner loop of `_optimal_one_to_one_match` in `reconciliation/matcher.py` that follows the
pointers from the sink to the source.  The nodes that the pointers visit are distinct
(`TracedBy.notMem`), so that an edge is as the search saw it when its unit is pushed, and the loop
meets no error (`augment_ok`).
-/

namespace MercuryTools
namespace Reconciliation

open FlowGraph

/-! ## The loop -/

/-- `RuntimeError("reconciliation_assignment_path_invalid")`, and an index outside a list. -/
inductive PathError
  | pathInvalid
  | indexError
  deriving DecidableEq, Repr

/-- `while node != source`, for at most this many rounds. -/
def augment (previous : ℕ → Option (ℕ × ℕ)) (source : ℕ) :
    ℕ → ℕ → FlowGraph → Option (Except PathError FlowGraph)
  | 0, _, _ => none
  | fuel + 1, node, graph =>
      if node = source then some (.ok graph)
      else match previous node with
        | none => some (.error .pathInvalid)
        | some (previousNode, edgeIndex) =>
            match (graph previousNode)[edgeIndex]? with
            | none => some (.error .indexError)
            | some edge =>
                let taken := graph.addCapacity previousNode edgeIndex (-1)
                if edge.reverse < (taken node).length then
                  augment previous source fuel previousNode (taken.addCapacity node edge.reverse 1)
                else some (.error .indexError)

/-! ## The nodes that the pointers visit -/

/-- The pointers lead from the node to the source, by these nodes. -/
inductive TracedBy (previous : ℕ → Option (ℕ × ℕ)) (source : ℕ) : ℕ → List ℕ → Prop
  | source : TracedBy previous source source []
  | step {node before index : ℕ} {nodes : List ℕ} : node ≠ source →
      previous node = some (before, index) → TracedBy previous source before nodes →
      TracedBy previous source node (before :: nodes)

section

variable {previous : ℕ → Option (ℕ × ℕ)} {source node : ℕ} {nodes nodes' : List ℕ}

lemma Traced.exists_nodes (h : Traced previous source node) :
    ∃ nodes, TracedBy previous source node nodes := by
  induction h with
  | source => exact ⟨[], .source⟩
  | step hne hprevious _ ih =>
    obtain ⟨nodes, hnodes⟩ := ih
    exact ⟨_, .step hne hprevious hnodes⟩

lemma TracedBy.unique (h : TracedBy previous source node nodes)
    (h' : TracedBy previous source node nodes') : nodes = nodes' := by
  induction h generalizing nodes' with
  | source =>
    cases h' with
    | source => rfl
    | step hne => exact absurd rfl hne
  | step hne hprevious _ ih =>
    cases h' with
    | source => exact absurd rfl hne
    | step _ hprevious' hrest' =>
      obtain ⟨rfl, rfl⟩ := Prod.mk.inj (Option.some.inj (hprevious.symm.trans hprevious'))
      rw [ih hrest']

/-- From a visited node there are fewer nodes to visit. -/
lemma TracedBy.exists_shorter (h : TracedBy previous source node nodes) {other : ℕ}
    (hother : other ∈ nodes) :
    ∃ nodes', TracedBy previous source other nodes' ∧ nodes'.length < nodes.length := by
  induction h with
  | source => cases hother
  | step _ _ hrest ih =>
    rcases List.mem_cons.1 hother with rfl | hother
    · exact ⟨_, hrest, Nat.lt_succ_self _⟩
    · obtain ⟨nodes', hnodes', hlt⟩ := ih hother
      exact ⟨nodes', hnodes', Nat.lt_succ_of_lt hlt⟩

/-- The pointers do not come back to the node. -/
lemma TracedBy.notMem (h : TracedBy previous source node nodes) : node ∉ nodes := by
  intro hmem
  obtain ⟨nodes', hnodes', hlt⟩ := h.exists_shorter hmem
  exact absurd (congrArg List.length (h.unique hnodes')) hlt.ne'

end

/-! ## The graph after a push -/

/-- Every edge with capacity of the new graph is one of the old graph, or a tight edge between the
nodes of a set. -/
def Grows (graph graph' : FlowGraph) (potentials : ℕ → ℤ) (nodes : ℕ → Prop) : Prop :=
  ∀ node, ∀ edge' ∈ graph' node, edge'.capacity ≠ 0 →
    (∃ edge ∈ graph node, edge.capacity ≠ 0 ∧ edge.target = edge'.target ∧
      edge.cost = edge'.cost) ∨
    nodes node ∧ nodes edge'.target ∧ reducedCost potentials node edge' = 0

/-- What the loop changes between a node and the source. -/
structure Augmented (graph graph' : FlowGraph) (potentials : ℕ → ℤ) (nodes : ℕ → Prop)
    (source node : ℕ) : Prop where
  paired : graph'.Paired
  sameEdges : SameEdges graph graph'
  grows : Grows graph graph' potentials nodes
  outCapacity : ∀ m, graph'.outCapacity m =
    graph.outCapacity m + (if m = node then 1 else 0) - if m = source then 1 else 0

section

variable {graph graph' graph'' : FlowGraph} {potentials : ℕ → ℤ} {nodes : ℕ → Prop}
  {source node index : ℕ} {edge partner : FlowEdge}

lemma Grows.refl (graph : FlowGraph) : Grows graph graph potentials nodes :=
  fun _ edge hedge hcapacity => .inl ⟨edge, hedge, hcapacity, rfl, rfl⟩

lemma Grows.trans (h : Grows graph graph' potentials nodes)
    (h' : Grows graph' graph'' potentials nodes) : Grows graph graph'' potentials nodes := by
  intro m edge'' hedge'' hcapacity''
  rcases h' m edge'' hedge'' hcapacity'' with ⟨edge', hedge', hcapacity', htarget', hcost'⟩ | hnew
  · rcases h m edge' hedge' hcapacity' with ⟨edge, hedge, hcapacity, htarget, hcost⟩ | hnew
    · exact .inl ⟨edge, hedge, hcapacity, htarget.trans htarget', hcost.trans hcost'⟩
    · rw [reducedCost, htarget', hcost'] at hnew
      exact .inr hnew
  · exact .inr hnew

/-- Pushing a unit along a tight edge. -/
lemma FlowGraph.Pushable.grows (h : Pushable graph node index edge partner) (hnode : nodes node)
    (htarget : nodes edge.target) (htight : reducedCost potentials node edge = 0) :
    Grows graph (graph.push node index edge) potentials nodes := by
  intro m e he hcapacity
  obtain ⟨i, hi⟩ := List.mem_iff_getElem?.1 he
  rw [h.getElem?_push] at hi
  split at hi
  · obtain rfl := Option.some.inj hi
    exact absurd rfl hcapacity
  · split at hi
    · next heq =>
      obtain rfl := Option.some.inj hi
      refine .inr ⟨heq.1 ▸ htarget, h.target ▸ hnode, ?_⟩
      have hcost := h.cost
      rw [reducedCost] at htight ⊢
      simp only [heq.1, h.target, hcost]
      omega
    · exact .inl ⟨e, List.mem_of_getElem? hi, hcapacity, rfl, rfl⟩

/-- The loop at the source. -/
lemma Augmented.refl (hpaired : graph.Paired) :
    Augmented graph graph potentials nodes source source where
  paired := hpaired
  sameEdges := .refl graph
  grows := .refl graph
  outCapacity := fun m => by ring

/-- A push, and the rest of the loop. -/
lemma Augmented.cons (h : Pushable graph node index edge partner)
    (hnode : nodes node) (htarget : nodes edge.target)
    (htight : reducedCost potentials node edge = 0)
    (hrest : Augmented (graph.push node index edge) graph' potentials nodes source node) :
    Augmented graph graph' potentials nodes source edge.target where
  paired := hrest.paired
  sameEdges := h.sameEdges.trans hrest.sameEdges
  grows := (h.grows hnode htarget htight).trans hrest.grows
  outCapacity := fun m => by
    rw [hrest.outCapacity, outCapacity_push h]
    ring

/-! ## The loop meets no error -/

/-- The pointers of the nodes follow tight edges with capacity. -/
def TightPointers (graph : FlowGraph) (potentials : ℕ → ℤ) (previous : ℕ → Option (ℕ × ℕ))
    (source : ℕ) (nodes : ℕ → Prop) : Prop :=
  ∀ node, nodes node → node ≠ source → ∃ before index edge, previous node = some (before, index) ∧
    (graph before)[index]? = some edge ∧ edge.target = node ∧ edge.capacity ≠ 0 ∧ nodes before ∧
    reducedCost potentials before edge = 0

lemma FlowGraph.push_of_ne {m : ℕ} (hnode : m ≠ node) (htarget : m ≠ edge.target) :
    graph.push node index edge m = graph m := by
  rw [push, addCapacity, Function.update_of_ne htarget, addCapacity, Function.update_of_ne hnode]

/-- A round of the loop is a push. -/
lemma augment_succ {previous : ℕ → Option (ℕ × ℕ)} (h : Pushable graph node index edge partner)
    (hne : edge.target ≠ source) (hprevious : previous edge.target = some (node, index))
    (fuel : ℕ) :
    augment previous source (fuel + 1) edge.target graph =
      augment previous source fuel node (graph.push node index edge) := by
  have hreverse : edge.reverse < (graph.addCapacity node index (-1) edge.target).length :=
    (List.getElem?_eq_some_iff.1 (h.getElem?_addCapacity (-1))).1
  rw [augment, if_neg hne, hprevious]
  simp only [h.edge_eq]
  rw [if_pos hreverse]
  rfl

/-- The loop pushes a unit from the node back to the source. -/
theorem augment_ok {previous : ℕ → Option (ℕ × ℕ)} {visited : List ℕ}
    (hpointers : TightPointers graph potentials previous source nodes) (hnode : nodes node)
    (htraced : TracedBy previous source node visited) {current : FlowGraph}
    (hpaired : current.Paired) (hcurrent : ∀ m ∈ visited, current m = graph m) :
    ∃ graph', augment previous source (visited.length + 1) node current = some (.ok graph') ∧
      Augmented current graph' potentials nodes source node := by
  induction htraced generalizing current with
  | source => exact ⟨current, if_pos rfl, .refl hpaired⟩
  | @step node before index visited hne hprevious hrest ih =>
    obtain ⟨before', index', edge, hprevious', hedge, rfl, hcapacity, hbefore, htight⟩ :=
      hpointers node hnode hne
    obtain ⟨rfl, rfl⟩ := Prod.mk.inj (Option.some.inj (hprevious.symm.trans hprevious'))
    rw [← hcurrent before List.mem_cons_self] at hedge
    obtain ⟨partner, hpush⟩ :=
      hpaired.pushable hedge ((hpaired.capacity_eq hedge).resolve_left hcapacity)
    have hvisited := (TracedBy.step hne hprevious hrest).notMem
    obtain ⟨graph', hgraph', haugmented⟩ := ih hbefore (hpaired.push hpush) fun m hm => by
      rw [push_of_ne, hcurrent m (List.mem_cons_of_mem _ hm)]
      · rintro rfl
        exact hrest.notMem hm
      · rintro rfl
        exact hvisited (List.mem_cons_of_mem _ hm)
    refine ⟨graph', ?_, .cons hpush hbefore hnode htight haugmented⟩
    rw [List.length_cons, augment_succ hpush hne hprevious]
    exact hgraph'

end

end Reconciliation
end MercuryTools
