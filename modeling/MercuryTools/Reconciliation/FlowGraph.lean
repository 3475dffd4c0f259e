import Mathlib.Algebra.BigOperators.Group.List.Basic
import Mathlib.Data.List.Basic
import Mathlib.Logic.Function.Basic
import Mathlib.Logic.Relation
import Mathlib.Tactic.Common
import Mathlib.Tactic.Ring

/-!
# The flow graph of the matcher

`_FlowEdge` and `_add_flow_edge` of `reconciliation/matcher.py`.  Every edge is stored together with
its reverse, in the list of the node it leaves, and both know where the other one is.  The two
capacities add up to one (`Paired`), so that pushing a unit along an edge with capacity moves it to
the reverse edge (`Paired.push`).

The capacities that leave a node count the flow: pushing a unit lowers the sum at one end and raises
it at the other (`outCapacity_push`).
-/

namespace MercuryTools
namespace Reconciliation

/-- `_FlowEdge`; its field `to` is `target` here. -/
structure FlowEdge where
  target : ℕ
  reverse : ℕ
  capacity : ℤ
  cost : ℤ
  deriving DecidableEq, Repr

/-- The edge without its capacity. -/
def FlowEdge.ends (edge : FlowEdge) : ℕ × ℕ × ℤ :=
  (edge.target, edge.reverse, edge.cost)

/-- The edges that leave each node. -/
abbrev FlowGraph := ℕ → List FlowEdge

namespace FlowGraph

/-- A graph without edges. -/
def empty : FlowGraph := fun _ => []

/-- `graph[node].append(edge)`. -/
def append (graph : FlowGraph) (node : ℕ) (edge : FlowEdge) : FlowGraph :=
  Function.update graph node (graph node ++ [edge])

/-- `_add_flow_edge`. -/
def addEdge (graph : FlowGraph) (source destination : ℕ) (capacity cost : ℤ) : FlowGraph :=
  let forward : FlowEdge := ⟨destination, (graph destination).length, capacity, cost⟩
  let reverse : FlowEdge := ⟨source, (graph source).length, 0, -cost⟩
  (graph.append source forward).append destination reverse

/-- `graph[node][index].capacity += amount`. -/
def addCapacity (graph : FlowGraph) (node index : ℕ) (amount : ℤ) : FlowGraph :=
  Function.update graph node ((graph node).modify index fun edge =>
    { edge with capacity := edge.capacity + amount })

/-- A unit moves from an edge to its reverse. -/
def push (graph : FlowGraph) (node index : ℕ) (edge : FlowEdge) : FlowGraph :=
  (graph.addCapacity node index (-1)).addCapacity edge.target edge.reverse 1

/-- The sum of the capacities of the edges that leave a node. -/
def outCapacity (graph : FlowGraph) (node : ℕ) : ℤ :=
  ((graph node).map (·.capacity)).sum

/-! ## Looking up edges -/

variable {graph : FlowGraph} {node index : ℕ} {edge : FlowEdge}

lemma getElem?_append_eq_some {m i : ℕ} {e : FlowEdge} :
    (graph.append node edge m)[i]? = some e ↔
      (graph m)[i]? = some e ∨ (m = node ∧ i = (graph node).length ∧ e = edge) := by
  by_cases hm : m = node
  · subst hm
    rw [append, Function.update_self, List.getElem?_append]
    split
    · next hlt =>
      simp only [true_and, iff_self_or]
      rintro ⟨rfl, -⟩
      omega
    · next hge =>
      rw [List.getElem?_eq_none (not_lt.1 hge)]
      simp only [reduceCtorEq, false_or, true_and]
      rw [List.getElem?_singleton]
      split
      · next hzero =>
        simp only [Option.some.injEq]
        constructor
        · rintro rfl
          exact ⟨by omega, rfl⟩
        · rintro ⟨-, rfl⟩
          rfl
      · next hpos =>
        simp only [reduceCtorEq, false_iff, not_and]
        intro hlength
        omega
  · rw [append, Function.update_of_ne hm]
    simp [hm]

lemma getElem?_addEdge_eq_some {source destination : ℕ} (hne : source ≠ destination)
    {capacity cost : ℤ} {m i : ℕ} {e : FlowEdge} :
    (graph.addEdge source destination capacity cost m)[i]? = some e ↔
      (graph m)[i]? = some e ∨
      (m = source ∧ i = (graph source).length ∧
        e = ⟨destination, (graph destination).length, capacity, cost⟩) ∨
      (m = destination ∧ i = (graph destination).length ∧
        e = ⟨source, (graph source).length, 0, -cost⟩) := by
  have hlength : (graph.append source
      ⟨destination, (graph destination).length, capacity, cost⟩ destination) =
        graph destination := by
    rw [append, Function.update_of_ne hne.symm]
  rw [addEdge, getElem?_append_eq_some, getElem?_append_eq_some, hlength, or_assoc]

lemma getElem?_addCapacity (amount : ℤ) (m i : ℕ) :
    (graph.addCapacity node index amount m)[i]? =
      if m = node ∧ i = index then
        (graph m)[i]?.map fun edge => { edge with capacity := edge.capacity + amount }
      else (graph m)[i]? := by
  by_cases hm : m = node
  · subst hm
    rw [addCapacity, Function.update_self, List.getElem?_modify]
    by_cases hi : i = index
    · subst hi
      simp
    · simp [hi, Ne.symm hi]
  · rw [addCapacity, Function.update_of_ne hm, if_neg fun h => hm h.1]

/-! ## Edges and their reverses -/

/-- Every edge has its reverse, with the opposite cost, and together they have a capacity of one. -/
def Paired (graph : FlowGraph) : Prop :=
  ∀ (node index : ℕ) (edge : FlowEdge), (graph node)[index]? = some edge → 0 ≤ edge.capacity ∧
    ∃ partner : FlowEdge, (graph edge.target)[edge.reverse]? = some partner ∧
      partner.target = node ∧ partner.reverse = index ∧ partner.cost = -edge.cost ∧
        edge.capacity + partner.capacity = 1

lemma paired_empty : Paired empty := by
  intro node index edge h
  cases h

/-- A new edge, which does not lead back to its node. -/
lemma Paired.addEdge (h : graph.Paired) {source destination : ℕ} (hne : source ≠ destination)
    (cost : ℤ) : (graph.addEdge source destination 1 cost).Paired := by
  intro m i e he
  simp only [getElem?_addEdge_eq_some hne] at he ⊢
  rcases he with he | ⟨rfl, rfl, rfl⟩ | ⟨rfl, rfl, rfl⟩
  · obtain ⟨hcapacity, partner, hpartner, hrest⟩ := h m i e he
    exact ⟨hcapacity, partner, .inl hpartner, hrest⟩
  · exact ⟨zero_le_one, _, .inr (.inr ⟨rfl, rfl, rfl⟩), rfl, rfl, rfl, rfl⟩
  · exact ⟨le_rfl, _, .inr (.inl ⟨rfl, rfl, rfl⟩), rfl, rfl, (neg_neg cost).symm, rfl⟩

lemma Paired.capacity_eq (h : graph.Paired) (hedge : (graph node)[index]? = some edge) :
    edge.capacity = 0 ∨ edge.capacity = 1 := by
  obtain ⟨hcapacity, partner, hpartner, -, -, -, hsum⟩ := h node index edge hedge
  have hpartner_nonneg := (h _ _ _ hpartner).1
  omega

/-! ## Pushing a unit -/

section

variable {partner : FlowEdge}

/-- An edge and its reverse, with a unit to push. -/
structure Pushable (graph : FlowGraph) (node index : ℕ) (edge partner : FlowEdge) : Prop where
  edge_eq : (graph node)[index]? = some edge
  partner_eq : (graph edge.target)[edge.reverse]? = some partner
  target : partner.target = node
  reverse : partner.reverse = index
  cost : partner.cost = -edge.cost
  edge_capacity : edge.capacity = 1
  partner_capacity : partner.capacity = 0

lemma Paired.pushable (h : graph.Paired) (hedge : (graph node)[index]? = some edge)
    (hcapacity : edge.capacity = 1) : ∃ partner, Pushable graph node index edge partner := by
  obtain ⟨-, partner, hpartner, htarget, hreverse, hcost, hsum⟩ := h node index edge hedge
  exact ⟨partner, hedge, hpartner, htarget, hreverse, hcost, hcapacity, by omega⟩

lemma Pushable.ne (h : Pushable graph node index edge partner) :
    ¬ (edge.target = node ∧ edge.reverse = index) := by
  rintro ⟨htarget, hreverse⟩
  have hpartner := h.partner_eq
  rw [htarget, hreverse, h.edge_eq] at hpartner
  have hcapacity := h.edge_capacity
  rw [Option.some.inj hpartner, h.partner_capacity] at hcapacity
  cases hcapacity

/-- The reverse of an edge does not change with it. -/
lemma Pushable.getElem?_addCapacity (h : Pushable graph node index edge partner) (amount : ℤ) :
    (graph.addCapacity node index amount edge.target)[edge.reverse]? = some partner := by
  rw [FlowGraph.getElem?_addCapacity, if_neg h.ne, h.partner_eq]

/-- Only the two edges change. -/
lemma Pushable.getElem?_push (h : Pushable graph node index edge partner) (m i : ℕ) :
    (graph.push node index edge m)[i]? =
      if m = node ∧ i = index then some { edge with capacity := 0 }
      else if m = edge.target ∧ i = edge.reverse then some { partner with capacity := 1 }
      else (graph m)[i]? := by
  rw [push, FlowGraph.getElem?_addCapacity, FlowGraph.getElem?_addCapacity]
  by_cases hnode : m = node ∧ i = index
  · obtain ⟨rfl, rfl⟩ := hnode
    rw [if_neg fun hpartner => h.ne ⟨hpartner.1.symm, hpartner.2.symm⟩, if_pos ⟨rfl, rfl⟩,
      if_pos ⟨rfl, rfl⟩, h.edge_eq, Option.map_some, h.edge_capacity]
    rfl
  · rw [if_neg hnode, if_neg hnode]
    by_cases hpartner : m = edge.target ∧ i = edge.reverse
    · rw [if_pos hpartner, if_pos hpartner, hpartner.1, hpartner.2, h.partner_eq, Option.map_some,
        h.partner_capacity]
      rfl
    · rw [if_neg hpartner, if_neg hpartner]

/-- What the graph keeps when units are pushed: the ends of the edges and their costs. -/
def SameEdges (graph graph' : FlowGraph) : Prop :=
  ∀ node index : ℕ, (graph' node)[index]?.map FlowEdge.ends = (graph node)[index]?.map FlowEdge.ends

lemma SameEdges.refl (graph : FlowGraph) : SameEdges graph graph :=
  fun _ _ => rfl

lemma SameEdges.trans {graph' graph'' : FlowGraph} (h : SameEdges graph graph')
    (h' : SameEdges graph' graph'') : SameEdges graph graph'' :=
  fun node index => (h' node index).trans (h node index)

/-- An edge of the one graph has its counterpart in the other. -/
lemma SameEdges.exists_of_eq_some {graph' : FlowGraph} (h : SameEdges graph graph')
    (hedge : (graph' node)[index]? = some edge) : ∃ edge', (graph node)[index]? = some edge' ∧
      edge'.target = edge.target ∧ edge'.reverse = edge.reverse ∧ edge'.cost = edge.cost := by
  have hsame := h node index
  rw [hedge, Option.map_some, eq_comm, Option.map_eq_some_iff] at hsame
  obtain ⟨edge', hedge', heq⟩ := hsame
  simp only [FlowEdge.ends, Prod.mk.injEq] at heq
  exact ⟨edge', hedge', heq⟩

lemma Pushable.sameEdges (h : Pushable graph node index edge partner) :
    SameEdges graph (graph.push node index edge) := by
  intro m i
  rw [h.getElem?_push]
  split
  · next heq => rw [heq.1, heq.2, h.edge_eq]; rfl
  · split
    · next heq => rw [heq.1, heq.2, h.partner_eq]; rfl
    · rfl

/-- A pushed unit keeps the edges paired. -/
theorem Paired.push (hpaired : graph.Paired) (h : Pushable graph node index edge partner) :
    (graph.push node index edge).Paired := by
  intro m i e he
  rw [h.getElem?_push] at he
  split at he
  · next heq =>
    obtain rfl := Option.some.inj he
    refine ⟨le_rfl, { partner with capacity := 1 }, ?_, h.target.trans heq.1.symm,
      h.reverse.trans heq.2.symm, h.cost, rfl⟩
    rw [h.getElem?_push, if_neg h.ne, if_pos ⟨rfl, rfl⟩]
  · next hnode =>
    split at he
    · next heq =>
      obtain rfl := Option.some.inj he
      refine ⟨zero_le_one, { edge with capacity := 0 }, ?_, heq.1.symm, heq.2.symm,
        by rw [h.cost, neg_neg], rfl⟩
      rw [h.getElem?_push, if_pos ⟨h.target, h.reverse⟩]
    · next hreverse =>
      obtain ⟨hcapacity, other, hother, htarget, hback, hrest⟩ := hpaired m i e he
      refine ⟨hcapacity, other, ?_, htarget, hback, hrest⟩
      rw [h.getElem?_push, if_neg, if_neg, hother]
      · rintro ⟨hm, hi⟩
        rw [hm, hi, h.partner_eq] at hother
        obtain rfl := Option.some.inj hother
        exact hnode ⟨htarget.symm.trans h.target, hback.symm.trans h.reverse⟩
      · rintro ⟨hm, hi⟩
        rw [hm, hi, h.edge_eq] at hother
        obtain rfl := Option.some.inj hother
        exact hreverse ⟨htarget.symm, hback.symm⟩

end

/-! ### What leaves a node -/

lemma sum_modify {edges : List FlowEdge} (h : edges[index]? = some edge) (amount : ℤ) :
    ((edges.modify index fun edge => { edge with capacity := edge.capacity + amount }).map
      (·.capacity)).sum = (edges.map (·.capacity)).sum + amount := by
  induction edges generalizing index with
  | nil => cases h
  | cons first edges ih =>
    cases index with
    | zero =>
      simp only [List.modify_zero_cons, List.map_cons, List.sum_cons]
      ring
    | succ index =>
      simp only [List.modify_succ_cons, List.map_cons, List.sum_cons]
      rw [ih (by simpa using h), add_assoc]

lemma outCapacity_addCapacity (h : (graph node)[index]? = some edge) (amount : ℤ) (m : ℕ) :
    (graph.addCapacity node index amount).outCapacity m =
      graph.outCapacity m + if m = node then amount else 0 := by
  by_cases hm : m = node
  · subst hm
    rw [outCapacity, addCapacity, Function.update_self, sum_modify h, if_pos rfl, outCapacity]
  · rw [outCapacity, addCapacity, Function.update_of_ne hm, if_neg hm, add_zero, outCapacity]

/-- A pushed unit leaves the one node less, and the other node more. -/
theorem outCapacity_push {partner : FlowEdge} (h : Pushable graph node index edge partner) (m : ℕ) :
    (graph.push node index edge).outCapacity m = graph.outCapacity m +
      (if m = edge.target then 1 else 0) - if m = node then 1 else 0 := by
  rw [push, outCapacity_addCapacity (h.getElem?_addCapacity (-1)),
    outCapacity_addCapacity h.edge_eq]
  split <;> split <;> ring

end FlowGraph

end Reconciliation
end MercuryTools
