import MercuryTools.Framework.MatchingPrices
import MercuryTools.Reconciliation.FlowPrices
import MercuryTools.Reconciliation.Matching
import Mathlib.Algebra.BigOperators.Ring.Finset

/-!
# The assignment of a flow

When the loop of `_optimal_one_to_one_match` has ended, the candidates whose arcs carry a unit are
one-to-one, since what flows through the node of a row is at most one.  Prices of the nodes are
prices of the rows, so that no one-to-one set of candidates is larger (`card_le_of_assignment`) and
none of the same size is cheaper (`sum_candidateCosts_le`).
-/

namespace MercuryTools
namespace Reconciliation

open FlowGraph Matchings

/-! ## Entries with distinct keys -/

section

variable {κ ν : Type*} [DecidableEq κ] {entries : List (κ × ν)}

lemma sum_map_ite_key (hnodup : (entries.map Prod.fst).Nodup) {key : κ} {value : ν}
    (h : (key, value) ∈ entries) (f : ν → ℤ) :
    (entries.map fun entry => if entry.1 = key then f entry.2 else 0).sum = f value := by
  induction entries with
  | nil => cases h
  | cons first entries ih =>
    obtain ⟨hfirst, hnodup⟩ := List.nodup_cons.1 hnodup
    rw [List.map_cons, List.sum_cons]
    rcases List.mem_cons.1 h with rfl | h
    · have hrest : (entries.map fun entry => if entry.1 = key then f entry.2 else 0).sum = 0 := by
        refine List.sum_eq_zero fun x hx => ?_
        obtain ⟨entry, hentry, rfl⟩ := List.mem_map.1 hx
        exact if_neg fun hkey => hfirst (List.mem_map.2 ⟨entry, hentry, hkey⟩)
      rw [if_pos rfl, hrest, add_zero]
    · have hne : first.1 ≠ key := by
        rintro rfl
        exact hfirst (List.mem_map.2 ⟨_, h, rfl⟩)
      rw [if_neg hne, zero_add, ih hnodup h]

end

/-- A zip with the images of its first elements. -/
lemma mem_zip_of_map_eq {κ ν τ : Type*} {keys : List κ} {values : List ν} {f : ν → τ} {g : κ → τ}
    (h : values.map f = keys.map g) {entry : κ × ν} (hentry : entry ∈ keys.zip values) :
    f entry.2 = g entry.1 := by
  obtain ⟨index, hindex⟩ := List.mem_iff_getElem?.1 hentry
  obtain ⟨hkey, hvalue⟩ := List.getElem?_zip_eq_some.1 hindex
  have hmap := congrArg (·[index]?) h
  simp only [List.getElem?_map, hkey, hvalue, Option.map_some, Option.some.injEq] at hmap
  exact hmap

/-! ## The places of the network -/

section

variable (candidates : List Candidate)

def sourceEntries : List (String × Arc × ℕ) :=
  (leftIds candidates).zip (FlowGraph.empty.arcPlaces (sourceArcs candidates))

def sinkEntries : List (String × Arc × ℕ) :=
  (rightIds candidates).zip
    ((FlowGraph.empty.addArcs (sourceArcs candidates)).arcPlaces (sinkArcs candidates))

lemma networkPlaces_eq : networkPlaces candidates =
    (sourceEntries candidates).map Prod.snd ++ (sinkEntries candidates).map Prod.snd ++
      (candidateEdges candidates).map Prod.snd := by
  rw [networkPlaces, networkArcs, arcPlaces_append, arcPlaces_append, sourceEntries, sinkEntries,
    candidateEdges, List.map_snd_zip, List.map_snd_zip, List.map_snd_zip]
  all_goals rw [length_arcPlaces]
  · rw [List.length_map]
  · rw [sinkArcs, List.length_map]
  · rw [sourceArcs, List.length_map]

lemma map_fst_sourceEntries : (sourceEntries candidates).map Prod.fst = leftIds candidates := by
  rw [sourceEntries, List.map_fst_zip]
  rw [length_arcPlaces, sourceArcs, List.length_map]

lemma map_fst_sinkEntries : (sinkEntries candidates).map Prod.fst = rightIds candidates := by
  rw [sinkEntries, List.map_fst_zip]
  rw [length_arcPlaces, sinkArcs, List.length_map]

lemma map_fst_candidateEdges : (candidateEdges candidates).map Prod.fst = pairOrder candidates := by
  rw [candidateEdges, List.map_fst_zip]
  rw [length_arcPlaces, List.length_map]

end

section

variable {candidates : List Candidate}

variable {entry : String × Arc × ℕ}

lemma arc_of_mem_sourceEntries (h : entry ∈ sourceEntries candidates) :
    entry.2.1 = ⟨source, leftNode candidates entry.1, 0⟩ :=
  mem_zip_of_map_eq (map_fst_arcPlaces ..) h

lemma arc_of_mem_sinkEntries (h : entry ∈ sinkEntries candidates) :
    entry.2.1 = ⟨rightNode candidates entry.1, sink candidates, 0⟩ :=
  mem_zip_of_map_eq (map_fst_arcPlaces ..) h

lemma arc_of_mem_candidateEdges {entry : Candidate × Arc × ℕ}
    (h : entry ∈ candidateEdges candidates) : entry.2.1 = candidateArc candidates entry.1 :=
  mem_zip_of_map_eq (map_fst_arcPlaces ..) h

/-! ## The candidates that are used -/

/-- The candidates whose edges have no capacity left. -/
def usedCandidates (candidates : List Candidate) (graph : FlowGraph) : List Candidate :=
  ((candidateEdges candidates).filter fun entry =>
    (graph entry.2.1.source)[entry.2.2]?.any (·.capacity = 0)).map (·.1)

section

variable {graph : FlowGraph} {entry : Candidate × Arc × ℕ}

lemma any_capacity_iff (graph : FlowGraph) (place : Arc × ℕ) :
    (graph place.1.source)[place.2]?.any (·.capacity = 0) = true ↔ graph.flow place = 1 := by
  rw [flow]
  cases (graph place.1.source)[place.2]? with
  | none => simp
  | some edge =>
    simp only [Option.any_some, decide_eq_true_eq, Option.map_some, Option.getD_some]
    omega

lemma nodup_pairOrder (h : candidates.Nodup) : (pairOrder candidates).Nodup :=
  (StableSorting.perm_sortBy ..).nodup_iff.2 h

lemma usedCandidates_sublist (candidates : List Candidate) (graph : FlowGraph) :
    (usedCandidates candidates graph).Sublist (pairOrder candidates) := by
  rw [← map_fst_candidateEdges]
  exact List.filter_sublist.map _

/-- The unit of a candidate. -/
lemma flow_eq_ite (hnodup : candidates.Nodup) (hentry : entry ∈ candidateEdges candidates)
    (hflow : graph.flow entry.2 = 0 ∨ graph.flow entry.2 = 1) :
    graph.flow entry.2 = if entry.1 ∈ usedCandidates candidates graph then 1 else 0 := by
  split
  · next hused =>
    obtain ⟨entry', hentry', hfst⟩ := List.mem_map.1 hused
    obtain ⟨hmem, hany⟩ := List.mem_filter.1 hentry'
    have hkeys : ((candidateEdges candidates).map Prod.fst).Nodup := by
      rw [map_fst_candidateEdges]
      exact nodup_pairOrder hnodup
    rw [← List.inj_on_of_nodup_map hkeys hmem hentry hfst]
    exact (any_capacity_iff graph entry'.2).1 hany
  · next hunused =>
    refine hflow.resolve_right fun hone => hunused ?_
    have hany := (any_capacity_iff graph entry.2).2 hone
    exact List.mem_map_of_mem (List.mem_filter.2 ⟨hentry, hany⟩)

/-- The units of the candidates with a property. -/
lemma sum_candidateEdges (hnodup : candidates.Nodup)
    (hflow : ∀ entry ∈ candidateEdges candidates,
      graph.flow entry.2 = 0 ∨ graph.flow entry.2 = 1) (p : Candidate → Prop) [DecidablePred p] :
    ((candidateEdges candidates).map fun entry => if p entry.1 then graph.flow entry.2 else 0).sum =
      ((usedCandidates candidates graph).toFinset.filter p).card := by
  have hmap : ((candidateEdges candidates).map fun entry =>
      if p entry.1 then graph.flow entry.2 else 0) =
        (pairOrder candidates).map fun candidate =>
          if p candidate ∧ candidate ∈ usedCandidates candidates graph then (1 : ℤ) else 0 := by
    rw [← map_fst_candidateEdges, List.map_map]
    refine List.map_congr_left fun entry hentry => ?_
    rw [Function.comp_apply, flow_eq_ite hnodup hentry (hflow entry hentry), ite_and]
  have hsub := usedCandidates_sublist candidates graph
  rw [hmap, ← List.sum_toFinset _ (nodup_pairOrder hnodup),
    Finset.sum_boole]
  congr 2
  ext candidate
  simp only [Finset.mem_filter, List.mem_toFinset]
  exact ⟨fun h => h.2.symm, fun h => ⟨hsub.subset h.1, h.symm⟩⟩

end

/-! ### What flows through the node of a row -/

section

variable {graph : FlowGraph}

variable {transactionId other : String} {place : Arc × ℕ} {p : Arc → Prop}
  {entry : String × Arc × ℕ}

lemma leftNode_inj (h : transactionId ∈ leftIds candidates) :
    leftNode candidates other = leftNode candidates transactionId ↔ other = transactionId := by
  rw [leftNode, leftNode, Nat.add_left_cancel_iff, eq_comm, List.idxOf_inj h, eq_comm]

lemma rightNode_inj (h : transactionId ∈ rightIds candidates) :
    rightNode candidates other = rightNode candidates transactionId ↔ other = transactionId := by
  rw [rightNode, rightNode, Nat.add_left_cancel_iff, eq_comm, List.idxOf_inj h, eq_comm]

/-- The unit of the entry with this key. -/
lemma unitsOf_entries {entries : List (String × Arc × ℕ)} (hnodup : (entries.map Prod.fst).Nodup)
    (hplace : (transactionId, place) ∈ entries) [DecidablePred p]
    (hp : ∀ entry ∈ entries, p entry.2.1 ↔ entry.1 = transactionId) :
    graph.unitsOf (entries.map Prod.snd) p = graph.flow place := by
  rw [unitsOf, List.map_map, ← sum_map_ite_key hnodup hplace graph.flow]
  refine congrArg List.sum (List.map_congr_left fun entry hentry => ?_)
  simp only [Function.comp_apply, hp entry hentry]

/-- The units of the candidates with a property of their arcs. -/
lemma unitsOf_candidateEdges (hnodup : candidates.Nodup)
    (hflow : ∀ entry ∈ candidateEdges candidates,
      graph.flow entry.2 = 0 ∨ graph.flow entry.2 = 1) [DecidablePred p] (q : Candidate → Prop)
    [DecidablePred q] (hq : ∀ entry ∈ candidateEdges candidates, p entry.2.1 ↔ q entry.1) :
    graph.unitsOf ((candidateEdges candidates).map Prod.snd) p =
      ((usedCandidates candidates graph).toFinset.filter q).card := by
  rw [unitsOf, List.map_map, ← sum_candidateEdges hnodup hflow]
  refine congrArg List.sum (List.map_congr_left fun entry hentry => ?_)
  simp only [Function.comp_apply, hq entry hentry]

/-- The arcs of a list do not have the property. -/
lemma unitsOf_map_eq_zero {κ : Type*} {entries : List (κ × Arc × ℕ)} [DecidablePred p]
    (h : ∀ entry ∈ entries, ¬ p entry.2.1) : graph.unitsOf (entries.map Prod.snd) p = 0 := by
  refine unitsOf_eq_zero fun place hplace => ?_
  obtain ⟨entry, hentry, rfl⟩ := List.mem_map.1 hplace
  exact h entry hentry

lemma fst_mem_leftIds (h : entry ∈ sourceEntries candidates) : entry.1 ∈ leftIds candidates := by
  rw [← map_fst_sourceEntries]
  exact List.mem_map_of_mem h

lemma fst_mem_rightIds (h : entry ∈ sinkEntries candidates) : entry.1 ∈ rightIds candidates := by
  rw [← map_fst_sinkEntries]
  exact List.mem_map_of_mem h

lemma fst_mem_candidates {entry : Candidate × Arc × ℕ} (h : entry ∈ candidateEdges candidates) :
    entry.1 ∈ candidates := by
  rw [← mem_pairOrder, ← map_fst_candidateEdges]
  exact List.mem_map_of_mem h

lemma unitsOf_networkPlaces (graph : FlowGraph) (p : Arc → Prop) [DecidablePred p] :
    graph.unitsOf (networkPlaces candidates) p =
      graph.unitsOf ((sourceEntries candidates).map Prod.snd) p +
        graph.unitsOf ((sinkEntries candidates).map Prod.snd) p +
          graph.unitsOf ((candidateEdges candidates).map Prod.snd) p := by
  rw [networkPlaces_eq, unitsOf_append, unitsOf_append]

/-- The node of a left row: one arc leads to it, and those of its candidates lead from it. -/
lemma flow_sourceEntry (hnodup : candidates.Nodup) (hflow : ∀ entry ∈ candidateEdges candidates,
      graph.flow entry.2 = 0 ∨ graph.flow entry.2 = 1)
    (hplace : (transactionId, place) ∈ sourceEntries candidates)
    (hnet : graph.netInflow (networkPlaces candidates) (leftNode candidates transactionId) = 0) :
    graph.flow place = ((usedCandidates candidates graph).toFinset.filter
      (·.left.transactionId = transactionId)).card := by
  have hid : transactionId ∈ leftIds candidates := fst_mem_leftIds hplace
  have hkeys : ((sourceEntries candidates).map Prod.fst).Nodup := by
    rw [map_fst_sourceEntries]
    exact nodup_leftIds candidates
  have hlt := leftNode_lt hid
  have hsinkLe : rightOffset candidates ≤ sink candidates := Nat.le_add_right ..
  set node := leftNode candidates transactionId with hnode
  have hinto : graph.unitsOf (networkPlaces candidates) (·.destination = node) =
      graph.flow place := by
    rw [unitsOf_networkPlaces, unitsOf_entries hkeys hplace, unitsOf_map_eq_zero,
      unitsOf_map_eq_zero, add_zero, add_zero]
    · intro entry hentry
      rw [arc_of_mem_candidateEdges hentry]
      exact (hlt.trans_le (rightOffset_le_rightNode _)).ne'
    · intro entry hentry
      rw [arc_of_mem_sinkEntries hentry]
      exact (hlt.trans_le hsinkLe).ne'
    · intro entry hentry
      rw [arc_of_mem_sourceEntries hentry]
      exact leftNode_inj hid
  have hfrom : graph.unitsOf (networkPlaces candidates) (·.source = node) =
      ((usedCandidates candidates graph).toFinset.filter
        (·.left.transactionId = transactionId)).card := by
    rw [unitsOf_networkPlaces, unitsOf_candidateEdges hnodup hflow
      (·.left.transactionId = transactionId), unitsOf_map_eq_zero, unitsOf_map_eq_zero, zero_add,
      zero_add]
    · intro entry hentry
      rw [arc_of_mem_sinkEntries hentry]
      exact (hlt.trans_le (rightOffset_le_rightNode _)).ne'
    · intro entry hentry
      rw [arc_of_mem_sourceEntries hentry]
      exact (source_lt_leftNode transactionId).ne
    · intro entry hentry
      rw [arc_of_mem_candidateEdges hentry]
      exact leftNode_inj hid
  rw [← hinto, ← hfrom, ← netInflow_add_units, hnet, zero_add]

/-- The node of a right row: the arcs of its candidates lead to it, and one leads from it. -/
lemma flow_sinkEntry (hnodup : candidates.Nodup) (hflow : ∀ entry ∈ candidateEdges candidates,
      graph.flow entry.2 = 0 ∨ graph.flow entry.2 = 1)
    (hplace : (transactionId, place) ∈ sinkEntries candidates)
    (hnet : graph.netInflow (networkPlaces candidates) (rightNode candidates transactionId) = 0) :
    graph.flow place = ((usedCandidates candidates graph).toFinset.filter
      (·.right.transactionId = transactionId)).card := by
  have hid : transactionId ∈ rightIds candidates := fst_mem_rightIds hplace
  have hkeys : ((sinkEntries candidates).map Prod.fst).Nodup := by
    rw [map_fst_sinkEntries]
    exact nodup_rightIds candidates
  have hlt := rightNode_lt hid
  have hge : rightOffset candidates ≤ rightNode candidates transactionId :=
    rightOffset_le_rightNode transactionId
  set node := rightNode candidates transactionId with hnode
  have hinto : graph.unitsOf (networkPlaces candidates) (·.destination = node) =
      ((usedCandidates candidates graph).toFinset.filter
        (·.right.transactionId = transactionId)).card := by
    rw [unitsOf_networkPlaces, unitsOf_candidateEdges hnodup hflow
      (·.right.transactionId = transactionId), unitsOf_map_eq_zero, unitsOf_map_eq_zero, zero_add,
      zero_add]
    · intro entry hentry
      rw [arc_of_mem_sinkEntries hentry]
      exact hlt.ne'
    · intro entry hentry
      rw [arc_of_mem_sourceEntries hentry]
      exact ((leftNode_lt (fst_mem_leftIds hentry)).trans_le hge).ne
    · intro entry hentry
      rw [arc_of_mem_candidateEdges hentry]
      exact rightNode_inj hid
  have hfrom : graph.unitsOf (networkPlaces candidates) (·.source = node) = graph.flow place := by
    rw [unitsOf_networkPlaces, unitsOf_entries hkeys hplace, unitsOf_map_eq_zero,
      unitsOf_map_eq_zero, add_zero, zero_add]
    · intro entry hentry
      rw [arc_of_mem_candidateEdges hentry]
      exact ((leftNode_lt (mem_leftIds (fst_mem_candidates hentry))).trans_le hge).ne
    · intro entry hentry
      rw [arc_of_mem_sourceEntries hentry]
      exact ((Nat.zero_lt_one.trans_le (Nat.le_add_right _ _)).trans_le hge).ne
    · intro entry hentry
      rw [arc_of_mem_sinkEntries hentry]
      exact rightNode_inj hid
  rw [← hinto, ← hfrom, ← netInflow_add_units, hnet, zero_add]

end

end

/-! ## Prices before the loop -/

section

variable {candidates : List Candidate}

lemma graph_eq_nil_of_sink_lt {node : ℕ} (h : sink candidates + 1 ≤ node) :
    (initialState candidates).graph node = [] := by
  refine List.eq_nil_iff_forall_not_mem.2 fun edge hedge => ?_
  obtain ⟨index, hindex⟩ := List.mem_iff_getElem?.1 hedge
  obtain ⟨arc, harc, hcases⟩ := exists_arc_of_edge networkArcs_ne hindex
  have hlt := networkArcs_lt arc harc
  rcases hcases with ⟨hnode, -⟩ | ⟨hnode, -⟩ <;> omega

lemma feasible_initialState :
    Feasible (initialState candidates).graph (initialState candidates).potentials :=
  fun _ _ => reducedCost_initialState_nonneg

end

/-! ## The assignment is one-to-one -/

/-- The row of the left side, and that of the right side. -/
def Candidate.leftId (candidate : Candidate) : String :=
  candidate.left.transactionId

def Candidate.rightId (candidate : Candidate) : String :=
  candidate.right.transactionId

/-- The units of the arcs, in terms of the candidates that are used. -/
structure AssignmentFlow (candidates : List Candidate) (graph : FlowGraph)
    (used : Finset Candidate) : Prop where
  paired : graph.Paired
  subset : ∀ candidate ∈ used, candidate ∈ candidates
  left : ∀ transactionId ∈ leftIds candidates, ∃ place edge partner,
    ArcEdges graph place edge partner ∧
      place.1 = ⟨source, leftNode candidates transactionId, 0⟩ ∧
      graph.flow place = (used.filter (·.leftId = transactionId)).card
  right : ∀ transactionId ∈ rightIds candidates, ∃ place edge partner,
    ArcEdges graph place edge partner ∧
      place.1 = ⟨rightNode candidates transactionId, sink candidates, 0⟩ ∧
      graph.flow place = (used.filter (·.rightId = transactionId)).card
  candidate : ∀ candidate ∈ candidates, ∃ place edge partner,
    ArcEdges graph place edge partner ∧ place.1 = candidateArc candidates candidate ∧
      graph.flow place = if candidate ∈ used then 1 else 0

section

variable {candidates : List Candidate} {graph : FlowGraph} {used : Finset Candidate}

lemma exists_entry {κ ν : Type*} {entries : List (κ × ν)} {keys : List κ}
    (h : entries.map Prod.fst = keys) {key : κ} (hkey : key ∈ keys) :
    ∃ value, (key, value) ∈ entries := by
  rw [← h] at hkey
  obtain ⟨entry, hentry, rfl⟩ := List.mem_map.1 hkey
  exact ⟨entry.2, hentry⟩

/-- A state of the loop. -/
lemma RoundInvariant.assignmentFlow {rounds : ℕ} {s : AssignmentState}
    (h : RoundInvariant (initialState candidates).graph source (sink candidates) rounds s)
    (hnodup : candidates.Nodup) :
    AssignmentFlow candidates s.graph (usedCandidates candidates s.graph).toFinset := by
  have harc : ∀ place ∈ networkPlaces candidates, ∃ edge partner,
      ArcEdges s.graph place edge partner := fun place hplace =>
    exists_arcEdges networkArcs_ne h.paired h.sameEdges hplace
  have hplaces := networkPlaces_eq candidates
  have hmem : ∀ entry ∈ candidateEdges candidates, entry.2 ∈ networkPlaces candidates := by
    intro entry hentry
    rw [hplaces]
    exact List.mem_append_right _ (List.mem_map_of_mem hentry)
  have hflow : ∀ entry ∈ candidateEdges candidates,
      s.graph.flow entry.2 = 0 ∨ s.graph.flow entry.2 = 1 := by
    intro entry hentry
    obtain ⟨edge, partner, hedges⟩ := harc _ (hmem entry hentry)
    exact hedges.flow_eq h.paired
  constructor
  · exact h.paired
  · intro candidate hcandidate
    exact mem_pairOrder.1
      ((usedCandidates_sublist candidates s.graph).subset (List.mem_toFinset.1 hcandidate))
  · intro transactionId hid
    obtain ⟨place, hplace⟩ := exists_entry (map_fst_sourceEntries candidates) hid
    have hin : place ∈ networkPlaces candidates := by
      rw [hplaces]
      exact List.mem_append_left _ (List.mem_append_left _ (List.mem_map_of_mem hplace))
    obtain ⟨edge, partner, hedges⟩ := harc place hin
    have hnet := h.flowState.conservation (leftNode candidates transactionId)
      (source_lt_leftNode transactionId).ne'
      ((leftNode_lt hid).trans_le (Nat.le_add_right _ _)).ne
    exact ⟨place, edge, partner, hedges, arc_of_mem_sourceEntries hplace,
      flow_sourceEntry hnodup hflow hplace hnet⟩
  · intro transactionId hid
    obtain ⟨place, hplace⟩ := exists_entry (map_fst_sinkEntries candidates) hid
    have hin : place ∈ networkPlaces candidates := by
      rw [hplaces]
      exact List.mem_append_left _ (List.mem_append_right _ (List.mem_map_of_mem hplace))
    obtain ⟨edge, partner, hedges⟩ := harc place hin
    have hnet := h.flowState.conservation (rightNode candidates transactionId)
      (source_lt_rightNode transactionId).ne' (rightNode_lt hid).ne
    exact ⟨place, edge, partner, hedges, arc_of_mem_sinkEntries hplace,
      flow_sinkEntry hnodup hflow hplace hnet⟩
  · intro candidate hcandidate
    obtain ⟨place, hplace⟩ :=
      exists_entry (map_fst_candidateEdges candidates) (mem_pairOrder.2 hcandidate)
    obtain ⟨edge, partner, hedges⟩ := harc place (hmem _ hplace)
    refine ⟨place, edge, partner, hedges, arc_of_mem_candidateEdges hplace, ?_⟩
    simp only [List.mem_toFinset]
    exact flow_eq_ite hnodup hplace (hflow _ hplace)

/-- A row is used at most once. -/
lemma AssignmentFlow.isOneToOne (h : AssignmentFlow candidates graph used) :
    IsOneToOne Candidate.leftId Candidate.rightId (used : Finset Candidate) := by
  have hcard : ∀ {flow : ℤ} {count : ℕ}, flow = 0 ∨ flow = 1 → flow = count → count ≤ 1 := by
    intro flow count hflow hcount
    omega
  constructor
  · intro candidate hcandidate other hother heq
    obtain ⟨place, edge, partner, hedges, -, hflow⟩ :=
      h.left _ (mem_leftIds (h.subset candidate hcandidate))
    refine Finset.card_le_one.1 (hcard (hedges.flow_eq h.paired) hflow) candidate ?_ other ?_
    · exact Finset.mem_filter.2 ⟨hcandidate, rfl⟩
    · exact Finset.mem_filter.2 ⟨hother, heq.symm⟩
  · intro candidate hcandidate other hother heq
    obtain ⟨place, edge, partner, hedges, -, hflow⟩ :=
      h.right _ (mem_rightIds (h.subset candidate hcandidate))
    refine Finset.card_le_one.1 (hcard (hedges.flow_eq h.paired) hflow) candidate ?_ other ?_
    · exact Finset.mem_filter.2 ⟨hcandidate, rfl⟩
    · exact Finset.mem_filter.2 ⟨hother, heq.symm⟩

/-! ## The prices of the rows -/

/-- Prices of the nodes that say what every arc may cost. -/
def PricesArcs (graph : FlowGraph) (prices : ℕ → ℤ) (cost : Arc → ℤ) : Prop :=
  ∀ place edge partner, ArcEdges graph place edge partner →
    (graph.flow place = 0 →
      prices place.1.destination ≤ cost place.1 + prices place.1.source) ∧
    (graph.flow place = 1 → cost place.1 + prices place.1.source ≤ prices place.1.destination)

lemma Feasible.pricesArcs {prices : ℕ → ℤ} (h : Feasible graph prices) :
    PricesArcs graph prices Arc.cost :=
  fun _ _ _ hedges => ⟨hedges.le_of_flow_eq_zero h, hedges.le_of_flow_eq_one h⟩

open Classical in
/-- The nodes that can be reached cost nothing, and the others cost one. -/
noncomputable def reachPrice (graph : FlowGraph) (node : ℕ) : ℤ :=
  if Reachable graph source node then 0 else 1

variable {node : ℕ}

lemma reachPrice_of_reachable (h : Reachable graph source node) : reachPrice graph node = 0 :=
  if_pos h

lemma reachPrice_of_not_reachable (h : ¬ Reachable graph source node) : reachPrice graph node = 1 :=
  if_neg h

lemma reachPrice_le_reachPrice {node' : ℕ}
    (h : Reachable graph source node → Reachable graph source node') :
    reachPrice graph node' ≤ reachPrice graph node := by
  rw [reachPrice, reachPrice]
  split
  · split <;> decide
  · next hnode' => rw [if_neg fun hnode => hnode' (h hnode)]

lemma pricesArcs_reachPrice (graph : FlowGraph) :
    PricesArcs graph (reachPrice graph) fun _ => 0 := by
  intro place edge partner hedges
  simp only [zero_add]
  exact ⟨fun hflow => reachPrice_le_reachPrice (hedges.reachable_of_flow_eq_zero hflow),
    fun hflow => reachPrice_le_reachPrice (hedges.reachable_of_flow_eq_one hflow)⟩

/-- The units that flow through the node of a row. -/
lemma card_filter_eq {key : Candidate → String} (hinj : Set.InjOn key used)
    (transactionId : String) :
    (used.filter (key · = transactionId)).card =
      if transactionId ∈ used.image key then 1 else 0 := by
  split
  · next hmem =>
    obtain ⟨candidate, hcandidate, rfl⟩ := Finset.mem_image.1 hmem
    refine Finset.card_eq_one.2 ⟨candidate, Finset.eq_singleton_iff_unique_mem.2 ⟨?_, ?_⟩⟩
    · exact Finset.mem_filter.2 ⟨hcandidate, rfl⟩
    · intro other hother
      obtain ⟨hother, hkey⟩ := Finset.mem_filter.1 hother
      exact hinj hother hcandidate hkey
  · next hmem =>
    refine Finset.card_eq_zero.2 (Finset.filter_eq_empty_iff.2 fun candidate hcandidate hkey => ?_)
    exact hmem (Finset.mem_image.2 ⟨candidate, hcandidate, hkey⟩)

section

variable {prices : ℕ → ℤ} {cost : Arc → ℤ}

variable {candidate : Candidate}

/-- The price of a left row: the source is priced higher if the row is not used, and lower if it
is. -/
lemma AssignmentFlow.leftPrice (h : AssignmentFlow candidates graph used)
    (hprices : PricesArcs graph prices cost) (hcost : ∀ node node', cost ⟨node, node', 0⟩ = 0)
    (hcandidate : candidate ∈ candidates) :
    (candidate.leftId ∉ used.image Candidate.leftId →
      prices (leftNode candidates candidate.leftId) ≤ prices source) ∧
    (candidate.leftId ∈ used.image Candidate.leftId →
      prices source ≤ prices (leftNode candidates candidate.leftId)) := by
  obtain ⟨place, edge, partner, hedges, hplace, hflow⟩ := h.left _ (mem_leftIds hcandidate)
  obtain ⟨hfree, hmatched⟩ := hprices place edge partner hedges
  rw [hplace, hcost, zero_add] at hfree hmatched
  have hcard := card_filter_eq h.isOneToOne.left candidate.leftId
  rw [Candidate.leftId] at hcard ⊢
  refine ⟨fun hnot => hfree ?_, fun hmem => hmatched ?_⟩
  · rw [hflow, hcard, if_neg hnot]
    rfl
  · rw [hflow, hcard, if_pos hmem]
    rfl

/-- The price of a right row. -/
lemma AssignmentFlow.rightPrice (h : AssignmentFlow candidates graph used)
    (hprices : PricesArcs graph prices cost) (hcost : ∀ node node', cost ⟨node, node', 0⟩ = 0)
    (hcandidate : candidate ∈ candidates) :
    (candidate.rightId ∉ used.image Candidate.rightId →
      prices (sink candidates) ≤ prices (rightNode candidates candidate.rightId)) ∧
    (candidate.rightId ∈ used.image Candidate.rightId →
      prices (rightNode candidates candidate.rightId) ≤ prices (sink candidates)) := by
  obtain ⟨place, edge, partner, hedges, hplace, hflow⟩ := h.right _ (mem_rightIds hcandidate)
  obtain ⟨hfree, hmatched⟩ := hprices place edge partner hedges
  rw [hplace, hcost, zero_add] at hfree hmatched
  have hcard := card_filter_eq h.isOneToOne.right candidate.rightId
  rw [Candidate.rightId] at hcard ⊢
  refine ⟨fun hnot => hfree ?_, fun hmem => hmatched ?_⟩
  · rw [hflow, hcard, if_neg hnot]
    rfl
  · rw [hflow, hcard, if_pos hmem]
    rfl

/-- Prices of the nodes are prices of the rows. -/
theorem AssignmentFlow.rowPrices (h : AssignmentFlow candidates graph used)
    (hprices : PricesArcs graph prices cost) (hcost : ∀ node node', cost ⟨node, node', 0⟩ = 0) :
    Prices Candidate.leftId Candidate.rightId
      (fun candidate => cost (candidateArc candidates candidate)) candidates.toFinset used
      (fun transactionId => prices (leftNode candidates transactionId))
      (fun transactionId => prices (rightNode candidates transactionId))
      (prices source) (prices (sink candidates)) := by
  have hcandidate : ∀ candidate ∈ candidates,
      (candidate ∉ used → 0 ≤ cost (candidateArc candidates candidate) +
        prices (leftNode candidates candidate.leftId) -
          prices (rightNode candidates candidate.rightId)) ∧
      (candidate ∈ used → cost (candidateArc candidates candidate) +
        prices (leftNode candidates candidate.leftId) -
          prices (rightNode candidates candidate.rightId) ≤ 0) := by
    intro candidate hcandidate
    obtain ⟨place, edge, partner, hedges, hplace, hflow⟩ := h.candidate candidate hcandidate
    obtain ⟨hfree, hused⟩ := hprices place edge partner hedges
    rw [hplace] at hfree hused
    constructor
    · intro hnot
      rw [if_neg hnot] at hflow
      exact sub_nonneg.2 (hfree hflow)
    · intro hmem
      rw [if_pos hmem] at hflow
      exact sub_nonpos.2 (hused hflow)
  constructor
  · intro candidate hmem hnot
    exact (hcandidate candidate (List.mem_toFinset.1 hmem)).1 hnot
  · intro candidate hmem
    exact (hcandidate candidate (h.subset candidate hmem)).2 hmem
  · intro candidate hmem hfree
    exact (h.leftPrice hprices hcost (List.mem_toFinset.1 hmem)).1 hfree
  · intro candidate hmem
    exact (h.leftPrice hprices hcost (h.subset candidate hmem)).2 (Finset.mem_image_of_mem _ hmem)
  · intro candidate hmem hfree
    exact (h.rightPrice hprices hcost (List.mem_toFinset.1 hmem)).1 hfree
  · intro candidate hmem
    exact (h.rightPrice hprices hcost (h.subset candidate hmem)).2 (Finset.mem_image_of_mem _ hmem)

end

variable {other : Finset Candidate}

/-- No one-to-one set of candidates is larger. -/
theorem AssignmentFlow.card_le (h : AssignmentFlow candidates graph used)
    (hend : ¬ Reachable graph source (sink candidates))
    (hother : IsOneToOne Candidate.leftId Candidate.rightId other)
    (hsubset : other ⊆ candidates.toFinset) : other.card ≤ used.card := by
  have hprices := h.rowPrices (pricesArcs_reachPrice graph) fun _ _ => rfl
  refine hprices.card_le ?_ h.isOneToOne hother hsubset
  rw [reachPrice_of_reachable .refl, reachPrice_of_not_reachable hend]
  exact zero_lt_one

/-- No one-to-one set of candidates of the same size costs less. -/
theorem AssignmentFlow.sum_le (h : AssignmentFlow candidates graph used)
    (hprices : ∃ prices, Feasible graph prices)
    (hother : IsOneToOne Candidate.leftId Candidate.rightId other)
    (hsubset : other ⊆ candidates.toFinset) (hcard : other.card = used.card) :
    ∑ candidate ∈ used, candidateCosts candidates candidate.pair ≤
      ∑ candidate ∈ other, candidateCosts candidates candidate.pair := by
  obtain ⟨prices, hfeasible⟩ := hprices
  exact (h.rowPrices hfeasible.pricesArcs fun _ _ => rfl).sum_le h.isOneToOne hother hsubset hcard

end

end Reconciliation
end MercuryTools
