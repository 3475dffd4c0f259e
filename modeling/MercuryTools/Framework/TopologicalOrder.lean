import Mathlib.Data.List.Dedup
import Mathlib.Data.List.Lex
import Mathlib.Data.List.Perm.Subperm
import Mathlib.Data.List.Sort
import Mathlib.Order.WellFoundedSet
import Mathlib.Tactic.Common

/-!
# Topological order

Kahn's algorithm over a list of nodes, the smallest node first among those that wait for nothing.
The loop keeps how many dependencies of each node are not listed yet, the nodes that wait for none
of theirs, and the nodes that are listed.

`Inv` says what the loop maintains.  What it lists has every dependency before it
(`isSorted_order`), and it lists every node exactly if there is no cycle (`mem_order_of_acyclic`,
`IsSorted.acyclic`).  It lists the least node that waits for nothing (`isGreedy_order`), so that
what it lists is the least of all orders (`le_of_isGreedy`).
-/

namespace TopologicalOrder

section

variable {α : Type*} {deps : α → List α}

/-- Every dependency stands before the node. -/
def IsSorted (deps : α → List α) (ordered : List α) : Prop :=
  ∀ before a after, ordered = before ++ a :: after → ∀ b ∈ deps a, b ∈ before

variable {ordered : List α} {a b : α}

lemma IsSorted.mem (h : IsSorted deps ordered) (ha : a ∈ ordered) (hb : b ∈ deps a) :
    b ∈ ordered := by
  obtain ⟨before, after, rfl⟩ := List.append_of_mem ha
  exact List.mem_append_left _ (h before a after rfl b hb)

/-- What depends on a node stands after it. -/
lemma IsSorted.mem_after {before after : List α} (h : IsSorted deps (before ++ a :: after))
    (hnodup : (before ++ a :: after).Nodup) (hb : b ∈ before ++ a :: after) (ha : a ∈ deps b) :
    b ∈ after := by
  have hdisjoint := (List.nodup_append.1 hnodup).2.2
  obtain hb | hb := List.mem_append.1 hb
  · obtain ⟨first, second, rfl⟩ := List.append_of_mem hb
    have hfirst := h first b (second ++ a :: after) (by simp) a ha
    exact absurd rfl (hdisjoint a (List.mem_append_left _ hfirst) a List.mem_cons_self)
  obtain rfl | hb := List.mem_cons.1 hb
  · exact absurd rfl (hdisjoint b (h before b after rfl b ha) b List.mem_cons_self)
  · exact hb

/-- A dependency stands at a smaller index. -/
lemma IsSorted.idxOf_lt [BEq α] [LawfulBEq α] (h : IsSorted deps ordered) (hnodup : ordered.Nodup)
    (ha : a ∈ ordered) (hb : b ∈ deps a) : ordered.idxOf b < ordered.idxOf a := by
  obtain ⟨before, after, rfl⟩ := List.append_of_mem ha
  have hbefore := h before a after rfl b hb
  have hnew : a ∉ before := fun hmem =>
    List.disjoint_of_nodup_append hnodup hmem List.mem_cons_self
  rw [List.idxOf_append_of_mem hbefore, List.idxOf_append_of_notMem hnew, List.idxOf_cons_self]
  exact Nat.lt_of_lt_of_le (List.idxOf_lt_length_of_mem hbefore) (Nat.le_add_right _ _)

lemma IsSorted.concat {ordered : List α} {a : α} (h : IsSorted deps ordered)
    (ha : ∀ b ∈ deps a, b ∈ ordered) : IsSorted deps (ordered ++ [a]) := by
  intro before x after heq
  obtain rfl | ⟨after', z, rfl⟩ := List.eq_nil_or_concat after
  · obtain ⟨rfl, hx⟩ := List.append_inj' heq rfl
    obtain rfl : a = x := by simpa using hx
    exact ha
  · have heq' : ordered ++ [a] = (before ++ x :: after') ++ [z] := by simpa using heq
    obtain ⟨rfl, -⟩ := List.append_inj' heq' rfl
    exact h before x after' rfl

end

variable {α : Type*} [LinearOrder α]

structure Loop (α : Type*) where
  indegree : α → Nat
  ready : List α
  ordered : List α

/-- One dependency of a node has been listed. -/
def Loop.relax (s : Loop α) (dependent : α) : Loop α where
  indegree := Function.update s.indegree dependent (s.indegree dependent - 1)
  ready :=
    if s.indegree dependent - 1 = 0 then s.ready.orderedInsert (· ≤ ·) dependent else s.ready
  ordered := s.ordered

section

variable (deps : α → List α) (nodes : List α)

def successors (node : α) : List α :=
  (nodes.filter fun dependent => node ∈ deps dependent).insertionSort (· ≤ ·)

def start : Loop α where
  indegree a := (deps a).dedup.length
  ready := (nodes.filter fun a => (deps a).dedup.length = 0).insertionSort (· ≤ ·)
  ordered := []

/-- The node is listed. -/
def visit (s : Loop α) (node : α) (rest : List α) : Loop α :=
  (successors deps nodes node).foldl Loop.relax
    { s with ready := rest, ordered := s.ordered ++ [node] }

def run : Nat → Loop α → Loop α
  | 0, s => s
  | n + 1, s =>
      match s.ready with
      | [] => s
      | node :: rest => run n (visit deps nodes s node rest)

/-- The nodes in the order in which they are listed. -/
def order : List α :=
  (run deps nodes nodes.length (start deps nodes)).ordered

end

/-! ## The loop -/

variable {deps : α → List α} {nodes : List α}

/-- What the loop maintains. -/
structure Inv (deps : α → List α) (nodes : List α) (s : Loop α) : Prop where
  nodup : (s.ordered ++ s.ready).Nodup
  subset : ∀ a ∈ s.ordered ++ s.ready, a ∈ nodes
  counts : ∀ a ∈ nodes, s.indegree a = ((deps a).dedup.filter (· ∉ s.ordered)).length
  ready : ∀ a ∈ s.ready, ∀ b ∈ deps a, b ∈ s.ordered
  sorted : IsSorted deps s.ordered
  complete : ∀ a ∈ nodes, s.indegree a = 0 → a ∈ s.ordered ++ s.ready

lemma inv_start (hnodes : nodes.Nodup) : Inv deps nodes (start deps nodes) where
  nodup := by
    show (List.insertionSort _ _).Nodup
    exact (List.perm_insertionSort _ _).nodup_iff.2 (hnodes.filter _)
  subset a ha := by
    have hmem := (List.mem_insertionSort _).1 ha
    exact (List.mem_filter.1 hmem).1
  counts a _ := by simp [start]
  ready a ha b hb := by
    have hmem := (List.mem_filter.1 ((List.mem_insertionSort _).1 ha)).2
    have hnil := List.length_eq_zero_iff.1 (of_decide_eq_true hmem)
    have hdedup := List.mem_dedup.2 hb
    rw [hnil] at hdedup
    cases hdedup
  sorted before a after h := by simp [start] at h
  complete a ha hzero := by
    refine (List.mem_insertionSort _).2 (List.mem_filter.2 ⟨ha, ?_⟩)
    exact decide_eq_true hzero

/-- What a round makes of the counts and of the nodes that wait for nothing. -/
lemma foldl_relax (dependents : List α) (hnodup : dependents.Nodup) (s : Loop α) :
    (dependents.foldl Loop.relax s).ordered = s.ordered ∧
      (∀ a, (dependents.foldl Loop.relax s).indegree a =
        if a ∈ dependents then s.indegree a - 1 else s.indegree a) ∧
      (dependents.foldl Loop.relax s).ready.Perm
        (s.ready ++ dependents.filter fun a => s.indegree a - 1 = 0) := by
  induction dependents generalizing s with
  | nil => simp
  | cons d dependents ih =>
      obtain ⟨hd, hrest⟩ := List.nodup_cons.1 hnodup
      obtain ⟨hordered, hindegree, hready⟩ := ih hrest (s.relax d)
      refine ⟨hordered, fun a => ?_, ?_⟩
      · rw [List.foldl_cons, hindegree]
        by_cases ha : a = d
        · subst ha
          simp [hd, Loop.relax]
        · simp [Loop.relax, ha]
      · have hfilter : dependents.filter (fun a => decide ((s.relax d).indegree a - 1 = 0)) =
            dependents.filter fun a => decide (s.indegree a - 1 = 0) := by
          refine List.filter_congr fun a ha => ?_
          have hne : a ≠ d := fun h => hd (h ▸ ha)
          simp [Loop.relax, hne]
        rw [List.foldl_cons]
        refine hready.trans ?_
        rw [hfilter, List.filter_cons]
        by_cases hzero : s.indegree d - 1 = 0
        · simp only [Loop.relax, hzero, if_true, decide_true]
          exact ((List.perm_orderedInsert _ _ _).append_right _).trans List.perm_middle.symm
        · simp only [Loop.relax, hzero, if_false, decide_false]
          exact List.Perm.refl _

variable {ordered rest : List α} {node a : α} {s : Loop α}

/-- What is counted when a node is listed. -/
lemma length_filter_concat (hnode : node ∉ ordered) (a : α) :
    ((deps a).dedup.filter (· ∉ ordered ++ [node])).length =
      if node ∈ deps a then ((deps a).dedup.filter (· ∉ ordered)).length - 1
      else ((deps a).dedup.filter (· ∉ ordered)).length := by
  have herase : (deps a).dedup.filter (· ∉ ordered ++ [node]) =
      ((deps a).dedup.filter (· ∉ ordered)).erase node := by
    rw [((List.nodup_dedup _).filter _).erase_eq_filter, List.filter_filter]
    refine List.filter_congr fun b _ => ?_
    by_cases hb : b = node <;> simp [hb]
  rw [herase, List.length_erase]
  have hmem : node ∈ (deps a).dedup.filter (· ∉ ordered) ↔ node ∈ deps a := by
    simp [hnode]
  simp only [hmem]

lemma nodup_successors (hnodes : nodes.Nodup) (node : α) : (successors deps nodes node).Nodup :=
  (List.perm_insertionSort _ _).nodup_iff.2 (hnodes.filter _)

lemma pairwise_successors (node : α) : (successors deps nodes node).Pairwise (· ≤ ·) :=
  List.pairwise_insertionSort _ _

lemma mem_successors : a ∈ successors deps nodes node ↔ a ∈ nodes ∧ node ∈ deps a := by
  simp [successors]

lemma Inv.visit (hnodes : nodes.Nodup) (h : Inv deps nodes s) (hready : s.ready = node :: rest) :
    Inv deps nodes (visit deps nodes s node rest) := by
  have hnodup := h.nodup
  rw [hready] at hnodup
  have hnode : node ∉ s.ordered := fun hmem =>
    (List.disjoint_of_nodup_append hnodup) hmem List.mem_cons_self
  have hready_node : ∀ b ∈ deps node, b ∈ s.ordered :=
    h.ready node (hready ▸ List.mem_cons_self)
  obtain ⟨hordered, hindegree, hperm⟩ := foldl_relax (successors deps nodes node)
    (nodup_successors hnodes node) { s with ready := rest, ordered := s.ordered ++ [node] }
  -- A dependent of the node is neither listed nor ready: its dependency was not listed.
  have hfresh : ∀ a, node ∈ deps a → a ∉ s.ordered ++ node :: rest := by
    intro a ha hmem
    obtain hmem | hmem := List.mem_append.1 hmem
    · exact hnode (h.sorted.mem hmem ha)
    · exact hnode (h.ready a (hready ▸ hmem) node ha)
  have hcounts : ∀ a ∈ nodes, (TopologicalOrder.visit deps nodes s node rest).indegree a =
      ((deps a).dedup.filter (· ∉ s.ordered ++ [node])).length := by
    intro a ha
    rw [length_filter_concat hnode, ← h.counts a ha]
    refine (hindegree a).trans ?_
    simp only [mem_successors, ha, true_and]
  have hmem_ready : ∀ a, a ∈ (TopologicalOrder.visit deps nodes s node rest).ready ↔
      a ∈ rest ∨ ((a ∈ nodes ∧ node ∈ deps a) ∧ s.indegree a - 1 = 0) := by
    intro a
    rw [TopologicalOrder.visit, hperm.mem_iff]
    simp [mem_successors]
  refine ⟨?_, ?_, ?_, ?_, ?_, ?_⟩
  · rw [TopologicalOrder.visit, hordered]
    refine (hperm.append_left _).nodup_iff.2 ?_
    rw [← List.append_assoc, List.append_assoc s.ordered]
    refine List.nodup_append.2 ⟨by simpa using hnodup, (nodup_successors hnodes node).filter _, ?_⟩
    rintro a ha b hb rfl
    have hdep := (mem_successors.1 (List.mem_filter.1 hb).1).2
    exact hfresh a hdep (by simpa using ha)
  · intro a ha
    rw [List.mem_append, hmem_ready] at ha
    obtain ha | ha | ha := ha
    · rw [TopologicalOrder.visit, hordered] at ha
      refine h.subset a ?_
      rw [hready]
      simp at ha ⊢
      tauto
    · exact h.subset a (hready ▸ List.mem_append_right _ (List.mem_cons_of_mem _ ha))
    · exact ha.1.1
  · intro a ha
    rw [hcounts a ha, TopologicalOrder.visit, hordered]
  · intro a ha b hb
    rw [TopologicalOrder.visit, hordered]
    obtain ha | ⟨⟨hmem, hdep⟩, hzero⟩ := (hmem_ready a).1 ha
    · exact List.mem_append_left _ (h.ready a (hready ▸ List.mem_cons_of_mem _ ha) b hb)
    · have hnil : (deps a).dedup.filter (· ∉ s.ordered ++ [node]) = [] := by
        rw [← List.length_eq_zero_iff, length_filter_concat hnode, if_pos hdep, ← h.counts a hmem]
        exact hzero
      by_contra hout
      exact List.filter_eq_nil_iff.1 hnil b (List.mem_dedup.2 hb) (decide_eq_true hout)
  · rw [TopologicalOrder.visit, hordered]
    exact h.sorted.concat hready_node
  · intro a ha hzero
    rw [List.mem_append, hmem_ready, TopologicalOrder.visit, hordered]
    rw [TopologicalOrder.visit, hindegree] at hzero
    simp only [mem_successors, ha, true_and] at hzero
    split at hzero
    · rename_i hdep
      exact .inr (.inr ⟨⟨ha, hdep⟩, hzero⟩)
    · have hmem := h.complete a ha hzero
      rw [hready] at hmem
      simp at hmem ⊢
      tauto

lemma Inv.run (hnodes : nodes.Nodup) (n : Nat) (h : Inv deps nodes s) :
    Inv deps nodes (run deps nodes n s) := by
  induction n generalizing s with
  | zero => exact h
  | succ n ih =>
      unfold TopologicalOrder.run
      split
      · exact h
      · rename_i hready
        exact ih (h.visit hnodes hready)

lemma Inv.length_le (h : Inv deps nodes s) : s.ordered.length + s.ready.length ≤ nodes.length := by
  rw [← List.length_append]
  exact (List.subperm_of_subset h.nodup h.subset).length_le

/-- There are enough rounds: the loop ends with no node that waits for nothing. -/
lemma Inv.ready_run (hnodes : nodes.Nodup) (n : Nat) (h : Inv deps nodes s)
    (hn : nodes.length ≤ s.ordered.length + n) :
    (TopologicalOrder.run deps nodes n s).ready = [] := by
  induction n generalizing s with
  | zero =>
      have hle := h.length_le
      rw [TopologicalOrder.run, ← List.length_eq_zero_iff]
      omega
  | succ n ih =>
      unfold TopologicalOrder.run
      split
      · assumption
      · rename_i node rest hready
        refine ih (h.visit hnodes hready) ?_
        have hordered := (foldl_relax (successors deps nodes node) (nodup_successors hnodes node)
          { s with ready := rest, ordered := s.ordered ++ [node] }).1
        rw [TopologicalOrder.visit, hordered, List.length_append, List.length_singleton]
        omega

/-! ## The order -/

lemma inv_order (hnodes : nodes.Nodup) :
    Inv deps nodes (run deps nodes nodes.length (start deps nodes)) :=
  (inv_start hnodes).run hnodes _

lemma nodup_order (hnodes : nodes.Nodup) : (order deps nodes).Nodup :=
  (List.nodup_append.1 (inv_order hnodes).nodup).1

lemma mem_of_mem_order (hnodes : nodes.Nodup) (h : a ∈ order deps nodes) : a ∈ nodes :=
  (inv_order hnodes).subset a (List.mem_append_left _ h)

/-- Every node that is listed has its dependencies before it. -/
theorem isSorted_order (hnodes : nodes.Nodup) : IsSorted deps (order deps nodes) :=
  (inv_order hnodes).sorted

/-! ## Cycles -/

/-- A node has an unlisted dependency as long as it is not listed. -/
lemma exists_dep_not_mem_order (hnodes : nodes.Nodup) (ha : a ∈ nodes)
    (hlisted : a ∉ order deps nodes) : ∃ b ∈ deps a, b ∉ order deps nodes := by
  have hinv := @inv_order _ _ deps _ hnodes
  have hready := (@inv_start _ _ deps _ hnodes).ready_run hnodes nodes.length
    (Nat.le_add_left _ _)
  by_contra hnone
  push Not at hnone
  have hnil : (deps a).dedup.filter (· ∉ order deps nodes) = [] := by
    refine List.filter_eq_nil_iff.2 fun b hb => ?_
    simpa using hnone b (List.mem_dedup.1 hb)
  have hzero := (hinv.counts a ha).trans (congrArg List.length hnil)
  have hmem := hinv.complete a ha hzero
  rw [hready, List.append_nil] at hmem
  exact hlisted hmem

/-- Every node is listed if no node depends on itself through others. -/
theorem mem_order_of_acyclic (hnodes : nodes.Nodup) (hdeps : ∀ a ∈ nodes, ∀ b ∈ deps a, b ∈ nodes)
    (hacyclic : ∀ a, ¬ Relation.TransGen (fun b a => b ∈ deps a) a a) (ha : a ∈ nodes) :
    a ∈ order deps nodes := by
  by_contra hlisted
  have : IsStrictOrder α (Relation.TransGen fun b a => b ∈ deps a) :=
    { irrefl := hacyclic, trans := fun _ _ _ => Relation.TransGen.trans }
  have hfinite : {a | a ∈ nodes ∧ a ∉ order deps nodes}.Finite :=
    (List.finite_toSet nodes).subset fun _ h => h.1
  have hwf : {a | a ∈ nodes ∧ a ∉ order deps nodes}.WellFoundedOn
      (Relation.TransGen fun b a => b ∈ deps a) := hfinite.wellFoundedOn
  -- a minimal unlisted node would have an unlisted dependency below it
  obtain ⟨⟨m, hm, hmlisted⟩, -, hmin⟩ :=
    WellFounded.has_min hwf Set.univ ⟨⟨a, ha, hlisted⟩, trivial⟩
  obtain ⟨b, hb, hblisted⟩ := exists_dep_not_mem_order hnodes hm hmlisted
  exact hmin ⟨b, hdeps m hm b hb, hblisted⟩ trivial (.single hb)

/-- An order of all nodes leaves no room for a cycle. -/
lemma IsSorted.acyclic (h : IsSorted deps ordered) (hnodup : ordered.Nodup)
    (hmem : ∀ a b, b ∈ deps a → a ∈ ordered) (a : α) :
    ¬ Relation.TransGen (fun b a => b ∈ deps a) a a := by
  have hlt : ∀ a b, Relation.TransGen (fun b a => b ∈ deps a) b a →
      ordered.idxOf b < ordered.idxOf a := by
    intro a b hgen
    induction hgen with
    | single hdep => exact h.idxOf_lt hnodup (hmem _ _ hdep) hdep
    | tail _ hdep ih => exact ih.trans (h.idxOf_lt hnodup (hmem _ _ hdep) hdep)
  exact fun hgen => lt_irrefl _ (hlt a a hgen)

/-! ## The least order -/

/-- The node that is listed next is the least of those that wait for nothing. -/
def IsGreedy (deps : α → List α) (nodes ordered : List α) : Prop :=
  ∀ before a after, ordered = before ++ a :: after → ∀ b ∈ nodes, b ∉ before →
    (∀ c ∈ deps b, c ∈ before) → a ≤ b

lemma pairwise_foldl_relax (dependents : List α) (h : s.ready.Pairwise (· ≤ ·)) :
    (dependents.foldl Loop.relax s).ready.Pairwise (· ≤ ·) := by
  induction dependents generalizing s with
  | nil => exact h
  | cons d dependents ih =>
      refine ih ?_
      unfold Loop.relax
      dsimp only
      split
      · exact h.orderedInsert d _
      · exact h

/-- The round lists the least node. -/
lemma Inv.isGreedy_visit (h : Inv deps nodes s) (hsorted : s.ready.Pairwise (· ≤ ·))
    (hgreedy : IsGreedy deps nodes s.ordered) (hready : s.ready = node :: rest) :
    IsGreedy deps nodes (s.ordered ++ [node]) := by
  intro before a after heq b hb hnew hdeps
  obtain rfl | ⟨after', z, rfl⟩ := List.eq_nil_or_concat after
  · obtain ⟨rfl, hx⟩ := List.append_inj' heq rfl
    obtain rfl : node = a := by simpa using hx
    have hnil : (deps b).dedup.filter (· ∉ s.ordered) = [] := by
      refine List.filter_eq_nil_iff.2 fun c hc => ?_
      simpa using hdeps c (List.mem_dedup.1 hc)
    have hzero := (h.counts b hb).trans (congrArg List.length hnil)
    obtain hmem | hmem := List.mem_append.1 (h.complete b hb hzero)
    · exact absurd hmem hnew
    rw [hready] at hmem hsorted
    obtain rfl | hmem := List.mem_cons.1 hmem
    · exact le_rfl
    · exact (List.pairwise_cons.1 hsorted).1 b hmem
  · have heq' : s.ordered ++ [node] = (before ++ a :: after') ++ [z] := by simpa using heq
    obtain ⟨hordered, -⟩ := List.append_inj' heq' rfl
    exact hgreedy before a after' hordered b hb hnew hdeps

lemma Inv.isGreedy_run (hnodes : nodes.Nodup) (n : Nat) (h : Inv deps nodes s)
    (hsorted : s.ready.Pairwise (· ≤ ·)) (hgreedy : IsGreedy deps nodes s.ordered) :
    IsGreedy deps nodes (TopologicalOrder.run deps nodes n s).ordered := by
  induction n generalizing s with
  | zero => exact hgreedy
  | succ n ih =>
      unfold TopologicalOrder.run
      split
      · exact hgreedy
      · rename_i node rest hready
        have hrest : rest.Pairwise (· ≤ ·) := by
          rw [hready] at hsorted
          exact (List.pairwise_cons.1 hsorted).2
        refine ih (h.visit hnodes hready) (pairwise_foldl_relax _ hrest) ?_
        have hordered := (foldl_relax (successors deps nodes node) (nodup_successors hnodes node)
          { s with ready := rest, ordered := s.ordered ++ [node] }).1
        rw [TopologicalOrder.visit, hordered]
        exact h.isGreedy_visit hsorted hgreedy hready

theorem isGreedy_order (hnodes : nodes.Nodup) : IsGreedy deps nodes (order deps nodes) :=
  (inv_start hnodes).isGreedy_run hnodes _ (List.pairwise_insertionSort _ _)
    fun _ _ _ heq => by cases List.nil_eq_append_iff.1 heq |>.2

/-- A greedy order comes before every other order of the nodes. -/
theorem le_of_isGreedy {other : List α} (hgreedy : IsGreedy deps nodes ordered)
    (hlength : ordered.length ≤ other.length) (hother : IsSorted deps other) (hnodup : other.Nodup)
    (hmem : ∀ a ∈ other, a ∈ nodes) : ordered ≤ other := by
  have hrest : ∀ rest before rest', ordered = before ++ rest → other = before ++ rest' →
      rest ≤ rest' := by
    intro rest
    induction rest with
    | nil =>
        intro _ rest' _ _
        cases rest' with
        | nil => exact le_rfl
        | cons b rest' => exact le_of_lt .nil
    | cons a rest ih =>
        intro before rest' hordered heq
        cases rest' with
        | nil =>
            rw [hordered, heq, List.length_append, List.length_append, List.length_cons,
              List.length_nil] at hlength
            omega
        | cons b rest' =>
            have hb : b ∉ before := by
              rw [heq] at hnodup
              exact fun hb => List.disjoint_of_nodup_append hnodup hb List.mem_cons_self
            have hle : a ≤ b := hgreedy before a rest hordered b
              (hmem b (heq ▸ List.mem_append_right _ List.mem_cons_self)) hb
              (hother before b rest' heq)
            obtain hlt | rfl := hle.lt_or_eq
            · exact le_of_lt (.rel hlt)
            · refine List.cons_le_cons a (ih (before ++ [a]) rest' ?_ ?_)
              · rw [hordered, List.append_assoc, List.singleton_append]
              · rw [heq, List.append_assoc, List.singleton_append]
  exact hrest ordered [] other rfl rfl

end TopologicalOrder
