import MercuryTools.Reconciliation.AssignmentLoop
import Mathlib.Data.Finset.Order

/-!
# Prices of the nodes

The potentials of the loop say nothing about the nodes that its searches do not reach.  Still there
are prices of all nodes under which no edge with capacity has a negative reduced cost
(`AfterRounds.feasible`): the nodes that cannot be reached are priced so high that no edge from them
matters.

An arc whose unit is not used has its edge left, and an arc whose unit is used has the reverse
(`ArcEdges`), so that prices say what every arc may cost.
-/

namespace MercuryTools
namespace Reconciliation

open FlowGraph

/-- Under the prices no edge with capacity has a negative reduced cost. -/
def Feasible (graph : FlowGraph) (prices : ℕ → ℤ) : Prop :=
  ∀ node, ∀ edge ∈ graph node, edge.capacity ≠ 0 → 0 ≤ reducedCost prices node edge

section

variable {graph : FlowGraph} {source sink size rounds : ℕ} {s next : AssignmentState}

/-- The values of the edges are bounded. -/
lemma exists_edge_bound (hsize : ∀ node, size ≤ node → graph node = [])
    (value : ℕ → FlowEdge → ℤ) : ∃ bound, ∀ node, ∀ edge ∈ graph node, value node edge ≤ bound := by
  obtain ⟨bound, hbound⟩ := Finset.exists_le
    ((Finset.range size).biUnion fun node => ((graph node).map (value node)).toFinset)
  refine ⟨bound, fun node edge hedge => hbound _ (Finset.mem_biUnion.2 ⟨node, ?_, ?_⟩)⟩
  · rw [Finset.mem_range]
    by_contra hle
    rw [hsize node (not_lt.1 hle)] at hedge
    cases hedge
  · exact List.mem_toFinset.2 (List.mem_map_of_mem hedge)

/-- A round that pushes a unit: the reachable nodes take the new potentials, and the others a price
that is high enough. -/
lemma Pushes.feasible (h : Pushes source sink s next)
    (hsize : ∀ node, size ≤ node → s.graph node = []) {prices : ℕ → ℤ}
    (hprices : Feasible s.graph prices) : ∃ prices', Feasible next.graph prices' := by
  classical
  obtain ⟨bound, hbound⟩ := exists_edge_bound hsize fun node edge =>
    next.potentials edge.target - edge.cost - prices node
  set prices' : ℕ → ℤ := fun node =>
    if Reachable s.graph source node then next.potentials node
    else prices node + bound with hprices'
  have hreached : ∀ {node}, Reachable s.graph source node → prices' node = next.potentials node :=
    fun hnode => if_pos hnode
  have hunreached : ∀ {node}, ¬ Reachable s.graph source node →
      prices' node = prices node + bound := fun hnode => if_neg hnode
  refine ⟨prices', fun node edge' hedge' hcapacity' => ?_⟩
  rcases h.augmented.grows node edge' hedge' hcapacity' with
    ⟨edge, hedge, hcapacity, htarget, hcost⟩ | ⟨hnode, htarget, htight⟩
  · rw [reducedCost, ← htarget, ← hcost]
    by_cases hnode : Reachable s.graph source node
    · have hnext := h.reducedCost_nonneg node hnode edge hedge hcapacity
      rw [hreached hnode, hreached (hnode.tail ⟨edge, hedge, hcapacity, rfl⟩)]
      exact hnext
    · by_cases hedgeTarget : Reachable s.graph source edge.target
      · have hle := hbound node edge hedge
        rw [hunreached hnode, hreached hedgeTarget]
        omega
      · have hold := hprices node edge hedge hcapacity
        rw [reducedCost] at hold
        rw [hunreached hnode, hunreached hedgeTarget]
        omega
  · rw [reducedCost, hreached hnode, hreached htarget]
    exact htight.ge

/-- After any number of rounds there are prices. -/
theorem AfterRounds.feasible {initial : AssignmentState}
    (h : AfterRounds source sink initial rounds s)
    (hinitial : RoundInvariant initial.graph source sink 0 initial)
    (hwithin : WithinSize initial.graph source size)
    (hsize : ∀ node, size ≤ node → initial.graph node = [])
    (hprices : ∃ prices, Feasible initial.graph prices) : ∃ prices, Feasible s.graph prices := by
  induction h with
  | start => exact hprices
  | round hrounds hround ih =>
    obtain ⟨prices, hfeasible⟩ := ih
    have hinvariant := hrounds.invariant hinitial hwithin
    have hempty : ∀ node, size ≤ node → _ := fun node hnode =>
      List.eq_nil_of_length_eq_zero <| (hinvariant.sameEdges.length_eq node).trans
        (congrArg List.length (hsize node hnode))
    exact (hinvariant.pushes_of_round hwithin hround).feasible hempty hfeasible

end

/-! ## Arcs -/

/-- The edge of an arc and its reverse, in a graph whose units were pushed. -/
structure ArcEdges (graph : FlowGraph) (place : Arc × ℕ) (edge partner : FlowEdge) : Prop where
  edge_mem : edge ∈ graph place.1.source
  edge_target : edge.target = place.1.destination
  edge_cost : edge.cost = place.1.cost
  edge_capacity : edge.capacity = 1 - graph.flow place
  partner_mem : partner ∈ graph place.1.destination
  partner_target : partner.target = place.1.source
  partner_cost : partner.cost = -place.1.cost
  partner_capacity : partner.capacity = graph.flow place

section

variable {graph : FlowGraph} {arcs : List Arc} {place : Arc × ℕ} {edge partner : FlowEdge}
  {prices : ℕ → ℤ} {source : ℕ}

lemma exists_arcEdges (hne : ∀ arc ∈ arcs, arc.source ≠ arc.destination) (hpaired : graph.Paired)
    (hsame : SameEdges (FlowGraph.empty.addArcs arcs) graph)
    (hplace : place ∈ FlowGraph.empty.arcPlaces arcs) :
    ∃ edge partner, ArcEdges graph place edge partner := by
  obtain ⟨reverse, hinitial⟩ := exists_of_mem_arcPlaces hne hplace
  have hends := hsame place.1.source place.2
  rw [hinitial, Option.map_some, Option.map_eq_some_iff] at hends
  obtain ⟨edge, hedge, heq⟩ := hends
  simp only [FlowEdge.ends, Prod.mk.injEq] at heq
  obtain ⟨htarget, -, hcost⟩ := heq
  obtain ⟨-, partner, hpartner, htarget', -, hcost', hsum⟩ := hpaired _ _ _ hedge
  have hflow : graph.flow place = 1 - edge.capacity := by
    rw [flow, hedge]
    rfl
  exact ⟨edge, partner, List.mem_of_getElem? hedge, htarget, hcost, by omega,
    htarget ▸ List.mem_of_getElem? hpartner, htarget', by rw [hcost', hcost], by omega⟩

lemma ArcEdges.flow_eq (h : ArcEdges graph place edge partner) (hpaired : graph.Paired) :
    graph.flow place = 0 ∨ graph.flow place = 1 := by
  obtain ⟨index, hindex⟩ := List.mem_iff_getElem?.1 h.partner_mem
  rw [← h.partner_capacity]
  exact hpaired.capacity_eq hindex

/-- An arc without a unit. -/
lemma ArcEdges.le_of_flow_eq_zero (h : ArcEdges graph place edge partner)
    (hprices : Feasible graph prices) (hflow : graph.flow place = 0) :
    prices place.1.destination ≤ place.1.cost + prices place.1.source := by
  have hcost := hprices _ edge h.edge_mem (by rw [h.edge_capacity, hflow]; exact one_ne_zero)
  rw [reducedCost, h.edge_cost, h.edge_target] at hcost
  omega

/-- An arc with a unit. -/
lemma ArcEdges.le_of_flow_eq_one (h : ArcEdges graph place edge partner)
    (hprices : Feasible graph prices) (hflow : graph.flow place = 1) :
    place.1.cost + prices place.1.source ≤ prices place.1.destination := by
  have hcost := hprices _ partner h.partner_mem
    (by rw [h.partner_capacity, hflow]; exact one_ne_zero)
  rw [reducedCost, h.partner_cost, h.partner_target] at hcost
  omega

/-- An arc without a unit leads from a reachable node to a reachable node. -/
lemma ArcEdges.reachable_of_flow_eq_zero (h : ArcEdges graph place edge partner)
    (hflow : graph.flow place = 0) (hnode : Reachable graph source place.1.source) :
    Reachable graph source place.1.destination :=
  hnode.tail ⟨edge, h.edge_mem, by rw [h.edge_capacity, hflow]; exact one_ne_zero, h.edge_target⟩

/-- An arc with a unit leads back. -/
lemma ArcEdges.reachable_of_flow_eq_one (h : ArcEdges graph place edge partner)
    (hflow : graph.flow place = 1) (hnode : Reachable graph source place.1.destination) :
    Reachable graph source place.1.source :=
  hnode.tail ⟨partner, h.partner_mem, by rw [h.partner_capacity, hflow]; exact one_ne_zero,
    h.partner_target⟩

end

end Reconciliation
end MercuryTools
