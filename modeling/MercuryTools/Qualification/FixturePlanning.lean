import Mathlib.Data.Prod.Lex
import Mathlib.Data.String.Basic
import Mathlib.Order.Bounds.Basic
import MercuryTools.Framework.Checks
import MercuryTools.Framework.TopologicalOrder

/-!
# The order in which fixtures are planned

`stable_topological_sort` of `qualification/planner.py`: the edges are added to a graph one by one,
then the least node that waits for no prerequisite is listed, and its dependents wait for one
prerequisite less.  The heap of the ready nodes is kept as a sorted list.

The sort raises exactly where the dependencies have a cycle, and returns the least order of the
nodes otherwise (`stableTopologicalSort_spec`).
-/

namespace MercuryTools.Qualification

open Checks TopologicalOrder

/-- An action with its version, ordered as a tuple. -/
abbrev ActionIdentity : Type :=
  String ×ₗ String

/-- A prerequisite with its dependent. -/
abbrev DependencyIdentity : Type :=
  ActionIdentity × ActionIdentity

/-- `_node_identity`. -/
def nodeIdentity (node : ActionIdentity) : Except String ActionIdentity := do
  require ((ofLex node).1 != "" && (ofLex node).2 != "") "fixture_plan_node_missing"
  return node

/-- `successors` and `indegree`. -/
structure DependencyGraph where
  successors : ActionIdentity → List ActionIdentity
  indegree : ActionIdentity → Nat

namespace DependencyGraph

def empty : DependencyGraph :=
  ⟨fun _ => [], fun _ => 0⟩

/-- The loop body over the edges. -/
def addEdge (nodes : List ActionIdentity) (graph : DependencyGraph) (edge : DependencyIdentity) :
    Except String DependencyGraph := do
  let prerequisite ← nodeIdentity edge.1
  let dependent ← nodeIdentity edge.2
  require (nodes.contains prerequisite && nodes.contains dependent) "fixture_plan_node_missing"
  if (graph.successors prerequisite).contains dependent then return graph
  else return {
    successors :=
      Function.update graph.successors prerequisite (graph.successors prerequisite ++ [dependent])
    indegree := Function.update graph.indegree dependent (graph.indegree dependent + 1) }

variable (graph : DependencyGraph)

/-- The nodes that wait for no prerequisite, before any is listed. -/
def start (nodes : List ActionIdentity) : Loop ActionIdentity where
  indegree := graph.indegree
  ready := (nodes.filter fun node => graph.indegree node = 0).insertionSort (· ≤ ·)
  ordered := []

/-- A round of the loop, for the node on top of the heap. -/
def visit (s : Loop ActionIdentity) (node : ActionIdentity) (rest : List ActionIdentity) :
    Loop ActionIdentity :=
  ((graph.successors node).insertionSort (· ≤ ·)).foldl Loop.relax
    { s with ready := rest, ordered := s.ordered ++ [node] }

/-- `while ready`, for a number of rounds. -/
def sort : Nat → Loop ActionIdentity → Loop ActionIdentity
  | 0, s => s
  | n + 1, s =>
      match s.ready with
      | [] => s
      | node :: rest => sort n (graph.visit s node rest)

end DependencyGraph

/-- `stable_topological_sort`.  No node is listed twice, so there are at most as many rounds as
nodes. -/
def stableTopologicalSort (nodes : List ActionIdentity) (edges : List DependencyIdentity) :
    Except String (List ActionIdentity) := do
  let nodes ← nodes.mapM nodeIdentity
  require (decide nodes.Nodup) "fixture_plan_node_duplicate"
  let graph ← edges.foldlM (DependencyGraph.addEdge nodes) .empty
  let ordered := (graph.sort nodes.length (graph.start nodes)).ordered
  require (ordered.length == nodes.length) "fixture_plan_cycle"
  return ordered

/-! ## Orders of the nodes -/

/-- A prerequisite comes directly before its dependent. -/
def Precedes (edges : List DependencyIdentity) (prerequisite dependent : ActionIdentity) : Prop :=
  (prerequisite, dependent) ∈ edges

instance (edges : List DependencyIdentity) (prerequisite dependent : ActionIdentity) :
    Decidable (Precedes edges prerequisite dependent) :=
  inferInstanceAs (Decidable (_ ∈ _))

def Cyclic (edges : List DependencyIdentity) : Prop :=
  ∃ node, Relation.TransGen (Precedes edges) node node

/-- The orders of the nodes in which every prerequisite precedes its dependents. -/
def Orders (nodes : List ActionIdentity) (edges : List DependencyIdentity) :
    Set (List ActionIdentity) :=
  {ordered | ordered.Perm nodes ∧
    ∀ edge ∈ edges, ordered.idxOf edge.1 < ordered.idxOf edge.2}

/-- The identities are not empty, and the edges are between nodes. -/
structure Plannable (nodes : List ActionIdentity) (edges : List DependencyIdentity) : Prop where
  nodup : nodes.Nodup
  identified : ∀ node ∈ nodes, (ofLex node).1 ≠ "" ∧ (ofLex node).2 ≠ ""
  edges : ∀ edge ∈ edges, edge.1 ∈ nodes ∧ edge.2 ∈ nodes

/-- What a node waits for. -/
def prerequisites (edges : List DependencyIdentity) (node : ActionIdentity) :
    List ActionIdentity :=
  (edges.filter fun edge => edge.2 = node).map (·.1)

section

variable {nodes ordered : List ActionIdentity} {edges : List DependencyIdentity}
  {graph : DependencyGraph} {node : ActionIdentity}

@[simp] lemma mem_prerequisites {prerequisite : ActionIdentity} :
    prerequisite ∈ prerequisites edges node ↔ Precedes edges prerequisite node := by
  unfold prerequisites Precedes
  simp

lemma Plannable.nodeIdentity (h : Plannable nodes edges) (hnode : node ∈ nodes) :
    nodeIdentity node = .ok node := by
  obtain ⟨hfirst, hsecond⟩ := h.identified node hnode
  have hvalid : ((ofLex node).1 != "" && (ofLex node).2 != "") = true := by simp [hfirst, hsecond]
  unfold Qualification.nodeIdentity
  rw [hvalid]
  rfl

lemma Plannable.mapM_nodeIdentity (h : Plannable nodes edges) :
    nodes.mapM Qualification.nodeIdentity = .ok nodes := by
  have hmapM : ∀ xs ⊆ nodes, xs.mapM Qualification.nodeIdentity = .ok xs := by
    intro xs
    induction xs with
    | nil => exact fun _ => rfl
    | cons x xs ih =>
        intro hsub
        obtain ⟨hx, hxs⟩ := List.cons_subset.1 hsub
        rw [List.mapM_cons, h.nodeIdentity hx, ih hxs]
        rfl
  exact hmapM nodes (List.Subset.refl _)

/-! ## The graph of the edges -/

/-- The graph has counted every edge once. -/
structure Counts (edges : List DependencyIdentity) (graph : DependencyGraph) : Prop where
  nodup : ∀ node, (graph.successors node).Nodup
  mem : ∀ prerequisite dependent,
    dependent ∈ graph.successors prerequisite ↔ Precedes edges prerequisite dependent
  indegree : ∀ node, graph.indegree node = (prerequisites edges node).dedup.length

lemma length_dedup_concat {α : Type*} [DecidableEq α] (xs : List α) (x : α) :
    (xs ++ [x]).dedup.length = if x ∈ xs then xs.dedup.length else xs.dedup.length + 1 := by
  rw [← List.card_toFinset, ← List.card_toFinset, List.toFinset_append, List.toFinset_cons,
    List.toFinset_nil, insert_empty_eq, Finset.union_comm, ← Finset.insert_eq]
  split
  next hmem => rw [Finset.insert_eq_of_mem (List.mem_toFinset.2 hmem)]
  next hnew => rw [Finset.card_insert_of_notMem fun hmem => hnew (List.mem_toFinset.1 hmem)]

lemma addEdge_eq {edge : DependencyIdentity} (hedge : edge.1 ∈ nodes ∧ edge.2 ∈ nodes)
    (hfirst : nodeIdentity edge.1 = .ok edge.1) (hsecond : nodeIdentity edge.2 = .ok edge.2) :
    graph.addEdge nodes edge = .ok (if edge.2 ∈ graph.successors edge.1 then graph else
      ⟨Function.update graph.successors edge.1 (graph.successors edge.1 ++ [edge.2]),
        Function.update graph.indegree edge.2 (graph.indegree edge.2 + 1)⟩) := by
  have hnodes : (nodes.contains edge.1 && nodes.contains edge.2) = true := by simp [hedge]
  unfold DependencyGraph.addEdge
  rw [hfirst, hsecond]
  change (require (nodes.contains edge.1 && nodes.contains edge.2) "fixture_plan_node_missing"
    >>= fun _ => _) = _
  rw [hnodes]
  by_cases hold : edge.2 ∈ graph.successors edge.1
  · rw [if_pos hold]
    exact if_pos (List.contains_iff_mem.2 hold)
  · rw [if_neg hold]
    exact if_neg fun hmem => hold (List.contains_iff_mem.1 hmem)

/-- One more edge. -/
lemma Counts.addEdge (h : Counts edges graph) {edge : DependencyIdentity}
    (hedge : edge.1 ∈ nodes ∧ edge.2 ∈ nodes) (hfirst : nodeIdentity edge.1 = .ok edge.1)
    (hsecond : nodeIdentity edge.2 = .ok edge.2) :
    ∃ graph', graph.addEdge nodes edge = .ok graph' ∧ Counts (edges ++ [edge]) graph' := by
  have hprerequisites : ∀ node, prerequisites (edges ++ [edge]) node =
      prerequisites edges node ++ if edge.2 = node then [edge.1] else [] := by
    intro node
    unfold prerequisites
    rw [List.filter_append, List.map_append, List.filter_singleton]
    by_cases hnode : edge.2 = node
    · simp [hnode]
    · simp [hnode]
  have hprecedes : ∀ prerequisite dependent, Precedes (edges ++ [edge]) prerequisite dependent ↔
      Precedes edges prerequisite dependent ∨ prerequisite = edge.1 ∧ dependent = edge.2 := by
    intro prerequisite dependent
    unfold Precedes
    rw [List.mem_append, List.mem_singleton, Prod.ext_iff]
  have hindegree : ∀ node, (prerequisites (edges ++ [edge]) node).dedup.length =
      if node = edge.2 ∧ ¬ Precedes edges edge.1 edge.2 then graph.indegree node + 1
      else graph.indegree node := by
    intro node
    rw [hprerequisites, h.indegree]
    by_cases hnode : edge.2 = node
    · subst hnode
      rw [if_pos rfl, length_dedup_concat]
      by_cases hold : Precedes edges edge.1 edge.2
      · rw [if_pos (mem_prerequisites.2 hold), if_neg fun hnew => hnew.2 hold]
      · rw [if_neg fun hmem => hold (mem_prerequisites.1 hmem), if_pos ⟨rfl, hold⟩]
    · rw [if_neg hnode, List.append_nil, if_neg fun hnew => hnode hnew.1.symm]
  refine ⟨_, addEdge_eq hedge hfirst hsecond, ?_⟩
  by_cases hold : edge.2 ∈ graph.successors edge.1
  · rw [if_pos hold]
    refine ⟨h.nodup, ?_, ?_⟩
    · intro prerequisite dependent
      rw [hprecedes, h.mem]
      refine ⟨.inl, ?_⟩
      rintro (hmem | ⟨rfl, rfl⟩)
      · exact hmem
      · exact (h.mem _ _).1 hold
    · intro node
      rw [hindegree, if_neg fun hnew => hnew.2 ((h.mem _ _).1 hold)]
  · rw [if_neg hold]
    refine ⟨?_, ?_, ?_⟩
    · intro node
      dsimp only
      by_cases hnode : node = edge.1
      · subst hnode
        rw [Function.update_self]
        refine List.nodup_append.2 ⟨h.nodup _, List.nodup_singleton _, ?_⟩
        rintro a ha b hb rfl
        exact hold (List.mem_singleton.1 hb ▸ ha)
      · rw [Function.update_of_ne hnode]
        exact h.nodup node
    · intro prerequisite dependent
      rw [hprecedes, ← h.mem]
      dsimp only
      by_cases hnode : prerequisite = edge.1
      · subst hnode
        rw [Function.update_self, List.mem_append, List.mem_singleton]
        exact or_congr_right ⟨fun heq => ⟨rfl, heq⟩, fun heq => heq.2⟩
      · rw [Function.update_of_ne hnode]
        exact ⟨.inl, fun hmem => hmem.resolve_right fun heq => hnode heq.1⟩
    · intro node
      have hnew : ¬ Precedes edges edge.1 edge.2 := fun hmem => hold ((h.mem _ _).2 hmem)
      rw [hindegree]
      dsimp only
      by_cases hnode : node = edge.2
      · subst hnode
        rw [Function.update_self, if_pos ⟨rfl, hnew⟩]
      · rw [Function.update_of_ne hnode, if_neg fun heq => hnode heq.1]

/-- All edges. -/
lemma exists_counts (h : Plannable nodes edges) :
    ∃ graph, edges.foldlM (DependencyGraph.addEdge nodes) .empty = .ok graph ∧
      Counts edges graph := by
  refine exists_foldlM_eq_ok _ _ Counts (fun before edge after heq graph hcounts => ?_) ?_
  · have hedge := h.edges edge (heq ▸ List.mem_append_right _ List.mem_cons_self)
    exact hcounts.addEdge hedge (h.nodeIdentity hedge.1) (h.nodeIdentity hedge.2)
  · exact ⟨fun _ => List.nodup_nil, fun _ _ => by simp [DependencyGraph.empty, Precedes],
      fun _ => rfl⟩

/-! ## The loop -/

lemma Counts.insertionSort_successors (h : Counts edges graph) (hplannable : Plannable nodes edges)
    (node : ActionIdentity) : (graph.successors node).insertionSort (· ≤ ·) =
      successors (prerequisites edges) nodes node := by
  have hperm : (graph.successors node).Perm (successors (prerequisites edges) nodes node) := by
    refine (List.perm_ext_iff_of_nodup (h.nodup node)
      (nodup_successors hplannable.nodup node)).2 fun a => ?_
    rw [h.mem, mem_successors, mem_prerequisites]
    exact ⟨fun hmem => ⟨(hplannable.edges _ hmem).2, hmem⟩, fun hmem => hmem.2⟩
  exact ((List.perm_insertionSort _ _).trans hperm).eq_of_pairwise'
    (List.pairwise_insertionSort _ _) (pairwise_successors node)

/-- The loop over the graph is the loop over the prerequisites. -/
lemma Counts.sort_eq (h : Counts edges graph) (hplannable : Plannable nodes edges) (n : Nat)
    (s : Loop ActionIdentity) :
    graph.sort n s = run (prerequisites edges) nodes n s := by
  induction n generalizing s with
  | zero => rfl
  | succ n ih =>
      unfold DependencyGraph.sort run
      cases s.ready with
      | nil => rfl
      | cons node rest =>
          dsimp only
          rw [ih, DependencyGraph.visit, h.insertionSort_successors hplannable]
          rfl

lemma Counts.start_eq (h : Counts edges graph) :
    graph.start nodes = TopologicalOrder.start (prerequisites edges) nodes := by
  have hindegree : graph.indegree = fun a => (prerequisites edges a).dedup.length :=
    funext h.indegree
  unfold DependencyGraph.start TopologicalOrder.start
  rw [hindegree]

/-- What the sort computes: the order, if it has all nodes. -/
lemma stableTopologicalSort_eq (h : Plannable nodes edges) :
    stableTopologicalSort nodes edges =
      if (order (prerequisites edges) nodes).length = nodes.length then
        .ok (order (prerequisites edges) nodes)
      else .error "fixture_plan_cycle" := by
  obtain ⟨graph, hgraph, hcounts⟩ := exists_counts h
  have hnodup : decide nodes.Nodup = true := decide_eq_true h.nodup
  have hsort : graph.sort nodes.length (graph.start nodes) =
      run (prerequisites edges) nodes nodes.length
        (TopologicalOrder.start (prerequisites edges) nodes) := by
    rw [hcounts.sort_eq h, hcounts.start_eq]
  have hrun : stableTopologicalSort nodes edges =
      (do
        require ((order (prerequisites edges) nodes).length == nodes.length) "fixture_plan_cycle"
        return order (prerequisites edges) nodes) := by
    unfold stableTopologicalSort
    rw [h.mapM_nodeIdentity]
    change (do
      require (decide nodes.Nodup) "fixture_plan_node_duplicate"
      let graph ← edges.foldlM (DependencyGraph.addEdge nodes) .empty
      let ordered := (graph.sort nodes.length (graph.start nodes)).ordered
      require (ordered.length == nodes.length) "fixture_plan_cycle"
      return ordered) = _
    rw [hnodup, hgraph]
    change (do
      let ordered := (graph.sort nodes.length (graph.start nodes)).ordered
      require (ordered.length == nodes.length) "fixture_plan_cycle"
      return ordered) = _
    rw [hsort]
    rfl
  rw [hrun]
  by_cases hlength : (order (prerequisites edges) nodes).length = nodes.length
  · rw [if_pos hlength, hlength, beq_self_eq_true]
    rfl
  · rw [if_neg hlength, beq_false_of_ne hlength]
    rfl

/-! ## The least order -/

lemma isSorted_of_mem_orders (h : Plannable nodes edges) (hordered : ordered ∈ Orders nodes edges) :
    IsSorted (prerequisites edges) ordered := by
  intro before a after heq b hb
  have hlt := hordered.2 _ (mem_prerequisites.1 hb)
  have hnodup := hordered.1.nodup_iff.2 h.nodup
  have hmem : b ∈ ordered := hordered.1.mem_iff.2 (h.edges _ (mem_prerequisites.1 hb)).1
  rw [heq] at hlt hnodup hmem
  have hnew : a ∉ before := fun hmem =>
    List.disjoint_of_nodup_append hnodup hmem List.mem_cons_self
  by_contra hbefore
  rw [List.idxOf_append_of_notMem hbefore, List.idxOf_append_of_notMem hnew,
    List.idxOf_cons_self] at hlt
  omega

lemma mem_orders_of_isSorted (h : Plannable nodes edges) (hperm : ordered.Perm nodes)
    (hsorted : IsSorted (prerequisites edges) ordered) : ordered ∈ Orders nodes edges := by
  refine ⟨hperm, fun edge hedge => ?_⟩
  exact hsorted.idxOf_lt (hperm.nodup_iff.2 h.nodup) (hperm.mem_iff.2 (h.edges edge hedge).2)
    (mem_prerequisites.2 hedge)

/-- A full order is the least of all orders. -/
lemma isLeast_order (h : Plannable nodes edges)
    (hlength : (order (prerequisites edges) nodes).length = nodes.length) :
    IsLeast (Orders nodes edges) (order (prerequisites edges) nodes) := by
  have hnodup : (order (prerequisites edges) nodes).Nodup := nodup_order h.nodup
  have hsubset : order (prerequisites edges) nodes ⊆ nodes := fun _ => mem_of_mem_order h.nodup
  have hperm : (order (prerequisites edges) nodes).Perm nodes :=
    (List.subperm_of_subset hnodup hsubset).perm_of_length_le hlength.ge
  refine ⟨mem_orders_of_isSorted h hperm (isSorted_order h.nodup), fun other hother => ?_⟩
  refine le_of_isGreedy (isGreedy_order h.nodup) ?_ (isSorted_of_mem_orders h hother)
    (hother.1.nodup_iff.2 h.nodup) fun a ha => hother.1.mem_iff.1 ha
  rw [hother.1.length_eq, hlength]

/-- All nodes are listed exactly where there is no cycle. -/
lemma length_order_iff (h : Plannable nodes edges) :
    (order (prerequisites edges) nodes).length = nodes.length ↔ ¬ Cyclic edges := by
  have hrelation : (fun b a => b ∈ prerequisites edges a) = Precedes edges :=
    funext fun b => funext fun a => propext mem_prerequisites
  constructor
  · intro hlength
    have hperm := (isLeast_order h hlength).1.1
    have hsorted : IsSorted (prerequisites edges) (order (prerequisites edges) nodes) :=
      isSorted_order h.nodup
    have hacyclic := hsorted.acyclic
      (hperm.nodup_iff.2 h.nodup)
      fun a b hb => hperm.mem_iff.2 (h.edges _ (mem_prerequisites.1 hb)).2
    rw [hrelation] at hacyclic
    exact fun ⟨node, hcycle⟩ => hacyclic node hcycle
  · intro hacyclic
    have hall : ∀ a ∈ nodes, a ∈ order (prerequisites edges) nodes := fun a ha => by
      refine mem_order_of_acyclic h.nodup
        (fun a _ b hb => (h.edges _ (mem_prerequisites.1 hb)).1) ?_ ha
      rw [hrelation]
      exact fun node hcycle => hacyclic ⟨node, hcycle⟩
    exact le_antisymm
      (List.subperm_of_subset (nodup_order h.nodup) fun _ => mem_of_mem_order h.nodup).length_le
      (List.subperm_of_subset h.nodup hall).length_le

/-- The sort raises where there is a cycle, and returns the least order where there is none. -/
lemma stableTopologicalSort_cases (h : Plannable nodes edges) :
    (Cyclic edges ∧ stableTopologicalSort nodes edges = .error "fixture_plan_cycle") ∨
      (¬ Cyclic edges ∧ ∃ ordered, stableTopologicalSort nodes edges = .ok ordered ∧
        IsLeast (Orders nodes edges) ordered) := by
  rw [stableTopologicalSort_eq h]
  by_cases hlength : (order (prerequisites edges) nodes).length = nodes.length
  · rw [if_pos hlength]
    exact .inr ⟨(length_order_iff h).1 hlength, _, rfl, isLeast_order h hlength⟩
  · rw [if_neg hlength]
    exact .inl ⟨not_not.1 fun hacyclic => hlength ((length_order_iff h).2 hacyclic), rfl⟩

end

/-- The sort raises exactly where the dependencies have a cycle; where they have none it returns
the least order of the nodes in which every prerequisite precedes its dependents; and the order in
which nodes and edges are given, and how often an edge is given, makes no difference. -/
theorem stableTopologicalSort_spec {nodes : List ActionIdentity} {edges : List DependencyIdentity}
    (h : Plannable nodes edges) :
    (stableTopologicalSort nodes edges = .error "fixture_plan_cycle" ↔ Cyclic edges) ∧
      (¬ Cyclic edges → ∃ ordered, stableTopologicalSort nodes edges = .ok ordered ∧
        IsLeast (Orders nodes edges) ordered) ∧
      ∀ nodes' edges', nodes'.Perm nodes → (∀ edge, edge ∈ edges' ↔ edge ∈ edges) →
        stableTopologicalSort nodes' edges' = stableTopologicalSort nodes edges := by
  refine ⟨?_, ?_, ?_⟩
  · obtain ⟨hcyclic, hraises⟩ | ⟨hacyclic, ordered, hreturns, -⟩ := stableTopologicalSort_cases h
    · exact ⟨fun _ => hcyclic, fun _ => hraises⟩
    · rw [hreturns]
      exact ⟨nofun, fun hcyclic => absurd hcyclic hacyclic⟩
  · intro hacyclic
    obtain ⟨hcyclic, -⟩ | ⟨-, hreturns⟩ := stableTopologicalSort_cases h
    · exact absurd hcyclic hacyclic
    · exact hreturns
  · intro nodes' edges' hperm hedges
    have h' : Plannable nodes' edges' :=
      ⟨hperm.nodup_iff.2 h.nodup, fun node hnode => h.identified node (hperm.mem_iff.1 hnode),
        fun edge hedge => (h.edges edge ((hedges edge).1 hedge)).imp hperm.mem_iff.2
          hperm.mem_iff.2⟩
    have hprecedes : Precedes edges' = Precedes edges :=
      funext fun a => funext fun b => propext (hedges (a, b))
    have hcycles : Cyclic edges' ↔ Cyclic edges := by
      unfold Cyclic
      rw [hprecedes]
    have horders : Orders nodes' edges' = Orders nodes edges := by
      ext ordered
      unfold Orders
      simp only [Set.mem_ofPred_eq, hedges]
      exact and_congr_left fun _ => ⟨fun h => h.trans hperm, fun h => h.trans hperm.symm⟩
    obtain ⟨hcyclic, hraises⟩ | ⟨hacyclic, ordered, hreturns, hleast⟩ :=
      stableTopologicalSort_cases h
    · obtain ⟨-, hraises'⟩ | ⟨hacyclic', -⟩ := stableTopologicalSort_cases h'
      · rw [hraises, hraises']
      · exact absurd (hcycles.2 hcyclic) hacyclic'
    · obtain ⟨hcyclic', -⟩ | ⟨-, ordered', hreturns', hleast'⟩ := stableTopologicalSort_cases h'
      · exact absurd (hcycles.1 hcyclic') hacyclic
      · rw [horders] at hleast'
        rw [hreturns, hreturns', hleast'.unique hleast]

/-- Two actions, where each is the other's prerequisite, and where the contacts come first: the order
in which they are given and a repeated edge make no difference. -/
theorem stableTopologicalSort_spec_twoActions :
    let contacts : ActionIdentity := toLex ("act_contacts", "av_1")
    let invoices : ActionIdentity := toLex ("act_invoices", "av_1")
    stableTopologicalSort [contacts, invoices] [(contacts, invoices), (invoices, contacts)] =
        .error "fixture_plan_cycle" ∧
      IsLeast (Orders [contacts, invoices] [(contacts, invoices)]) [contacts, invoices] ∧
      stableTopologicalSort [invoices, contacts] [(contacts, invoices), (contacts, invoices)] =
        .ok [contacts, invoices] := by
  intro contacts invoices
  have hplannable {edges : List DependencyIdentity}
      (hedges : ∀ edge ∈ edges, edge = (contacts, invoices) ∨ edge = (invoices, contacts)) :
      Plannable [contacts, invoices] edges := by
    have hne : contacts ≠ invoices := by decide
    refine ⟨by simp [hne], ?_, fun edge hedge => ?_⟩
    · simp only [List.forall_mem_cons]
      exact ⟨by decide, by decide, nofun⟩
    · rcases hedges edge hedge with rfl | rfl <;> simp
  have hforth : Precedes [(contacts, invoices), (invoices, contacts)] contacts invoices :=
    List.mem_cons_self
  have hback : Precedes [(contacts, invoices), (invoices, contacts)] invoices contacts :=
    List.mem_cons_of_mem _ List.mem_cons_self
  have hsort : stableTopologicalSort [contacts, invoices] [(contacts, invoices)] =
      .ok [contacts, invoices] := by
    decide +kernel
  obtain ⟨hraises, hreturns, hsame⟩ := stableTopologicalSort_spec
    (hplannable (List.forall_mem_singleton.2 (.inl rfl)))
  have hacyclic : ¬ Cyclic [(contacts, invoices)] := fun hcyclic => by
    cases hsort.symm.trans (hraises.2 hcyclic)
  obtain ⟨ordered, hordered, hleast⟩ := hreturns hacyclic
  obtain rfl := Except.ok.inj (hsort.symm.trans hordered)
  refine ⟨(stableTopologicalSort_spec (hplannable (by simp))).1.2
    ⟨contacts, .tail (.single hforth) hback⟩, hleast, ?_⟩
  exact (hsame _ _ (.swap contacts invoices []) (by simp)).trans hsort

end MercuryTools.Qualification
