import MercuryTools.Reconciliation.FlowGraph
import Mathlib.Data.List.Induction

/-!
# The network of the matcher

A graph that calls of `_add_flow_edge` build, one for each arc, and the flow in it: an arc carries a
unit if its edge has no capacity left.  What flows into a node and out of it is read off the
capacities of the edges that leave it (`outCapacity_eq`), so that pushing units conserves the flow
(`netInflow_eq`).
-/

namespace MercuryTools
namespace Reconciliation

/-- The arguments of `_add_flow_edge`, whose capacity is always one. -/
structure Arc where
  source : ℕ
  destination : ℕ
  cost : ℤ
  deriving DecidableEq, Repr

namespace FlowGraph

/-- A call of `_add_flow_edge`. -/
def addArc (graph : FlowGraph) (arc : Arc) : FlowGraph :=
  graph.addEdge arc.source arc.destination 1 arc.cost

/-- A loop of such calls. -/
def addArcs (graph : FlowGraph) (arcs : List Arc) : FlowGraph :=
  arcs.foldl addArc graph

/-- The edges that the calls return: each is in the list of its source, at this index. -/
def arcPlaces (graph : FlowGraph) : List Arc → List (Arc × ℕ)
  | [] => []
  | arc :: arcs => (arc, (graph arc.source).length) :: (graph.addArc arc).arcPlaces arcs

/-- The units that an arc carries. -/
def flow (graph : FlowGraph) (place : Arc × ℕ) : ℤ :=
  1 - ((graph place.1.source)[place.2]?.map (·.capacity)).getD 1

/-- What flows into a node, less what flows out of it. -/
def netInflow (graph : FlowGraph) (places : List (Arc × ℕ)) (node : ℕ) : ℤ :=
  (places.map fun place =>
    (if place.1.destination = node then graph.flow place else 0) -
      if place.1.source = node then graph.flow place else 0).sum

/-! ## The edges of the arcs -/

section

variable {graph graph' : FlowGraph} {arcs : List Arc} {arc : Arc} {node index : ℕ} {edge : FlowEdge}

@[simp] lemma addArcs_concat (graph : FlowGraph) (arcs : List Arc) (arc : Arc) :
    graph.addArcs (arcs ++ [arc]) = (graph.addArcs arcs).addArc arc := by
  rw [addArcs, List.foldl_append]
  rfl

lemma map_fst_arcPlaces (graph : FlowGraph) (arcs : List Arc) :
    (graph.arcPlaces arcs).map Prod.fst = arcs := by
  induction arcs generalizing graph with
  | nil => rfl
  | cons first arcs ih => rw [arcPlaces, List.map_cons, ih]

lemma arcPlaces_append (graph : FlowGraph) (arcs arcs' : List Arc) :
    graph.arcPlaces (arcs ++ arcs') =
      graph.arcPlaces arcs ++ (graph.addArcs arcs).arcPlaces arcs' := by
  induction arcs generalizing graph with
  | nil => rfl
  | cons first arcs ih =>
    rw [List.cons_append, arcPlaces, ih]
    rfl

lemma length_arcPlaces (graph : FlowGraph) (arcs : List Arc) :
    (graph.arcPlaces arcs).length = arcs.length := by
  conv_rhs => rw [← map_fst_arcPlaces graph arcs, List.length_map]

lemma arcPlaces_concat (graph : FlowGraph) (arcs : List Arc) (arc : Arc) :
    graph.arcPlaces (arcs ++ [arc]) =
      graph.arcPlaces arcs ++ [(arc, (graph.addArcs arcs arc.source).length)] :=
  arcPlaces_append graph arcs [arc]

/-- Every edge of the one graph has its counterpart in the other, which may have more edges. -/
def Extends (graph graph' : FlowGraph) : Prop :=
  ∀ (node index : ℕ) (edge : FlowEdge), (graph node)[index]? = some edge →
    (graph' node)[index]?.map FlowEdge.ends = some edge.ends

lemma SameEdges.extends (h : SameEdges graph graph') : Extends graph graph' := by
  intro m i e he
  rw [h m i, he]
  rfl

lemma Extends.of_addArc (h : Extends (graph.addArc arc) graph')
    (hne : arc.source ≠ arc.destination) : Extends graph graph' :=
  fun m i e he => h m i e ((getElem?_addEdge_eq_some hne).2 (.inl he))

lemma length_addArc (hne : arc.source ≠ arc.destination) (graph : FlowGraph) (node : ℕ) :
    (graph.addArc arc node).length = (graph node).length +
      (if arc.source = node then 1 else 0) + if arc.destination = node then 1 else 0 := by
  rw [addArc, addEdge, append, append]
  by_cases hdestination : node = arc.destination
  · subst hdestination
    rw [Function.update_self, List.length_append, Function.update_of_ne hne.symm, if_neg hne,
      if_pos rfl]
    rfl
  · rw [Function.update_of_ne hdestination, if_neg (Ne.symm hdestination)]
    by_cases hsource : node = arc.source
    · subst hsource
      rw [Function.update_self, List.length_append, if_pos rfl]
      rfl
    · rw [Function.update_of_ne hsource, if_neg (Ne.symm hsource), add_zero, add_zero]

/-- The edge of a new arc. -/
lemma Extends.exists_forward (h : Extends (graph.addArc arc) graph')
    (hne : arc.source ≠ arc.destination) :
    ∃ edge, (graph' arc.source)[(graph arc.source).length]? = some edge ∧
      graph'.flow (arc, (graph arc.source).length) = 1 - edge.capacity := by
  have hforward := h arc.source (graph arc.source).length _
    ((getElem?_addEdge_eq_some hne).2 (.inr (.inl ⟨rfl, rfl, rfl⟩)))
  obtain ⟨edge, hedge, -⟩ := Option.map_eq_some_iff.1 hforward
  exact ⟨edge, hedge, by rw [flow]; simp [hedge]⟩

/-- The reverse of the edge of a new arc. -/
lemma Extends.exists_reverse (h : Extends (graph.addArc arc) graph')
    (hne : arc.source ≠ arc.destination) (hpaired : graph'.Paired) :
    ∃ edge, (graph' arc.destination)[(graph arc.destination).length]? = some edge ∧
      graph'.flow (arc, (graph arc.source).length) = edge.capacity := by
  have hreverse := h arc.destination (graph arc.destination).length _
    ((getElem?_addEdge_eq_some hne).2 (.inr (.inr ⟨rfl, rfl, rfl⟩)))
  obtain ⟨edge, hedge, hends⟩ := Option.map_eq_some_iff.1 hreverse
  simp only [FlowEdge.ends, Prod.mk.injEq] at hends
  obtain ⟨-, partner, hpartner, -, -, -, hsum⟩ := hpaired _ _ _ hedge
  rw [hends.1, hends.2.1] at hpartner
  refine ⟨edge, hedge, ?_⟩
  rw [flow]
  simp only [hpartner, Option.map_some, Option.getD_some]
  omega

/-! ## What leaves a node -/

lemma sum_take_succ {edges : List FlowEdge} (h : edges[index]? = some edge) :
    ((edges.take (index + 1)).map (·.capacity)).sum =
      ((edges.take index).map (·.capacity)).sum + edge.capacity := by
  rw [List.take_add_one, h]
  simp

/-- The edges of the arcs that are there, in a graph with more edges. -/
lemma Extends.sum_take (h : Extends (empty.addArcs arcs) graph') (hpaired : graph'.Paired)
    (hne : ∀ arc ∈ arcs, arc.source ≠ arc.destination) (node : ℕ) :
    (((graph' node).take (empty.addArcs arcs node).length).map (·.capacity)).sum =
      ((empty.arcPlaces arcs).map fun place =>
        (if place.1.source = node then 1 - graph'.flow place else 0) +
          if place.1.destination = node then graph'.flow place else 0).sum := by
  induction arcs using List.reverseRecOn with
  | nil => rfl
  | append_singleton arcs arc ih =>
    rw [addArcs_concat] at h ⊢
    have harc := hne arc (by simp)
    have hrest := ih (h.of_addArc harc) fun arc harc => hne arc (by simp [harc])
    rw [arcPlaces_concat, List.map_append, List.sum_append, ← hrest, length_addArc harc,
      List.map_singleton, List.sum_singleton]
    obtain ⟨forward, hforward, hflow⟩ := h.exists_forward harc
    obtain ⟨reverse, hreverse, hflow'⟩ := h.exists_reverse harc hpaired
    by_cases hsource : arc.source = node
    · subst hsource
      rw [if_pos rfl, if_pos rfl, if_neg harc.symm, if_neg harc.symm, add_zero, add_zero,
        sum_take_succ hforward, hflow]
      ring
    · rw [if_neg hsource, if_neg hsource, add_zero, zero_add]
      by_cases hdestination : arc.destination = node
      · subst hdestination
        rw [if_pos rfl, if_pos rfl, sum_take_succ hreverse, hflow']
      · rw [if_neg hdestination, if_neg hdestination, add_zero, add_zero]

lemma SameEdges.map_ends_eq (h : SameEdges graph graph') (node : ℕ) :
    (graph' node).map FlowEdge.ends = (graph node).map FlowEdge.ends := by
  refine List.ext_getElem? fun index => ?_
  rw [List.getElem?_map, List.getElem?_map, h node index]

lemma SameEdges.length_eq (h : SameEdges graph graph') (node : ℕ) :
    (graph' node).length = (graph node).length := by
  have hlength := congrArg List.length (h.map_ends_eq node)
  rwa [List.length_map, List.length_map] at hlength

/-- The capacities of the edges that leave a node: one for each arc that leaves it, and what flows
into it. -/
theorem outCapacity_eq (h : SameEdges (empty.addArcs arcs) graph') (hpaired : graph'.Paired)
    (hne : ∀ arc ∈ arcs, arc.source ≠ arc.destination) (node : ℕ) :
    graph'.outCapacity node = (arcs.map fun arc => if arc.source = node then (1 : ℤ) else 0).sum +
      graph'.netInflow (empty.arcPlaces arcs) node := by
  have hsum := h.extends.sum_take hpaired hne node
  rw [← h.length_eq node, List.take_length] at hsum
  have hcount : (arcs.map fun arc => if arc.source = node then (1 : ℤ) else 0).sum =
      ((empty.arcPlaces arcs).map fun place =>
        if place.1.source = node then (1 : ℤ) else 0).sum := by
    conv_lhs => rw [← map_fst_arcPlaces empty arcs, List.map_map]
    rfl
  rw [outCapacity, hsum, netInflow, hcount, ← List.sum_map_add]
  refine congrArg List.sum (List.map_congr_left fun place _ => ?_)
  split <;> split <;> ring

/-! ## The graph before the first push -/

/-- The edge of an arc that was just added. -/
lemma exists_of_mem_arcPlaces (hne : ∀ arc ∈ arcs, arc.source ≠ arc.destination)
    {place : Arc × ℕ} (hplace : place ∈ empty.arcPlaces arcs) :
    ∃ reverse, (empty.addArcs arcs place.1.source)[place.2]? =
      some ⟨place.1.destination, reverse, 1, place.1.cost⟩ := by
  induction arcs using List.reverseRecOn with
  | nil => cases hplace
  | append_singleton arcs arc ih =>
    have harc := hne arc (by simp)
    rw [arcPlaces_concat, List.mem_append, List.mem_singleton] at hplace
    rw [addArcs_concat, addArc]
    simp only [getElem?_addEdge_eq_some harc]
    rcases hplace with hplace | rfl
    · obtain ⟨reverse, hedge⟩ := ih (fun arc harc => hne arc (by simp [harc])) hplace
      exact ⟨reverse, .inl hedge⟩
    · exact ⟨_, .inr (.inl ⟨rfl, rfl, rfl⟩)⟩

/-- An edge is the edge of an arc, or its reverse. -/
lemma exists_arc_of_edge (hne : ∀ arc ∈ arcs, arc.source ≠ arc.destination)
    (hedge : (empty.addArcs arcs node)[index]? = some edge) :
    ∃ arc ∈ arcs, (arc.source = node ∧ edge.target = arc.destination ∧ edge.capacity = 1 ∧
        edge.cost = arc.cost) ∨
      (arc.destination = node ∧ edge.target = arc.source ∧ edge.capacity = 0 ∧
        edge.cost = -arc.cost) := by
  induction arcs using List.reverseRecOn with
  | nil => cases hedge
  | append_singleton arcs arc ih =>
    have harc := hne arc (by simp)
    rw [addArcs_concat, addArc, getElem?_addEdge_eq_some harc] at hedge
    rcases hedge with hedge | ⟨rfl, -, rfl⟩ | ⟨rfl, -, rfl⟩
    · obtain ⟨arc', harc', hcases⟩ := ih (fun arc harc => hne arc (by simp [harc])) hedge
      exact ⟨arc', by simp [harc'], hcases⟩
    · exact ⟨arc, by simp, .inl ⟨rfl, rfl, rfl, rfl⟩⟩
    · exact ⟨arc, by simp, .inr ⟨rfl, rfl, rfl, rfl⟩⟩

lemma paired_addArcs (hne : ∀ arc ∈ arcs, arc.source ≠ arc.destination) :
    (empty.addArcs arcs).Paired := by
  induction arcs using List.reverseRecOn with
  | nil => exact paired_empty
  | append_singleton arcs arc ih =>
    rw [addArcs_concat]
    exact (ih fun arc harc => hne arc (by simp [harc])).addEdge (hne arc (by simp)) arc.cost

lemma flow_addArcs (hne : ∀ arc ∈ arcs, arc.source ≠ arc.destination) {place : Arc × ℕ}
    (hplace : place ∈ empty.arcPlaces arcs) : (empty.addArcs arcs).flow place = 0 := by
  obtain ⟨reverse, hedge⟩ := exists_of_mem_arcPlaces hne hplace
  rw [flow, hedge]
  rfl

lemma netInflow_addArcs (hne : ∀ arc ∈ arcs, arc.source ≠ arc.destination) (node : ℕ) :
    (empty.addArcs arcs).netInflow (empty.arcPlaces arcs) node = 0 := by
  refine List.sum_eq_zero fun value hvalue => ?_
  obtain ⟨place, hplace, rfl⟩ := List.mem_map.1 hvalue
  simp [flow_addArcs hne hplace]

/-- The flow into a node is what the edges that leave it have more than before. -/
theorem netInflow_eq (h : SameEdges (empty.addArcs arcs) graph') (hpaired : graph'.Paired)
    (hne : ∀ arc ∈ arcs, arc.source ≠ arc.destination) (node : ℕ) :
    graph'.netInflow (empty.arcPlaces arcs) node =
      graph'.outCapacity node - (empty.addArcs arcs).outCapacity node := by
  rw [outCapacity_eq h hpaired hne, outCapacity_eq (.refl _) (paired_addArcs hne) hne,
    netInflow_addArcs hne]
  ring

/-! ## What flows into a node -/

/-- The units of the arcs with a property. -/
def unitsOf (graph : FlowGraph) (places : List (Arc × ℕ)) (p : Arc → Prop) [DecidablePred p] : ℤ :=
  (places.map fun place => if p place.1 then graph.flow place else 0).sum

lemma unitsOf_append (graph : FlowGraph) (places places' : List (Arc × ℕ)) (p : Arc → Prop)
    [DecidablePred p] : graph.unitsOf (places ++ places') p =
      graph.unitsOf places p + graph.unitsOf places' p := by
  rw [unitsOf, List.map_append, List.sum_append, unitsOf, unitsOf]

lemma unitsOf_eq_zero {places : List (Arc × ℕ)} {p : Arc → Prop} [DecidablePred p]
    (h : ∀ place ∈ places, ¬ p place.1) : graph.unitsOf places p = 0 := by
  refine List.sum_eq_zero fun value hvalue => ?_
  obtain ⟨place, hplace, rfl⟩ := List.mem_map.1 hvalue
  exact if_neg (h place hplace)

lemma netInflow_add_units (graph : FlowGraph) (places : List (Arc × ℕ)) (node : ℕ) :
    graph.netInflow places node + graph.unitsOf places (·.source = node) =
      graph.unitsOf places (·.destination = node) := by
  rw [netInflow, unitsOf, unitsOf, ← List.sum_map_add]
  exact congrArg List.sum (List.map_congr_left fun place _ => sub_add_cancel _ _)

end

end FlowGraph

end Reconciliation
end MercuryTools
