import MercuryTools.Reconciliation.AssignmentLoop
import MercuryTools.Reconciliation.Transactions

/-!
# The one-to-one matching

`_candidate_costs` and `_optimal_one_to_one_match` of `reconciliation/matcher.py`.  The criteria of
a candidate are the digits of its cost, to weights that are large enough for all candidates
together, and a flow of least cost is sought in the network of the rows.

In every state of the loop the reduced costs are not negative, the flow is conserved and has grown
by one in every round (`optimalOneToOneMatch_loop`).
-/

namespace MercuryTools
namespace Reconciliation

open FlowGraph
open StableSorting (sortBy perm_sortBy)

/-! ## The costs -/

/-- The ids of a candidate. -/
def Candidate.pair (candidate : Candidate) : String × String :=
  (candidate.left.transactionId, candidate.right.transactionId)

/-- The candidates by their ids. -/
def pairOrder (candidates : List Candidate) : List Candidate :=
  sortBy (fun candidate => toLex candidate.pair) candidates

/-- `sorted` on a set. -/
def sortedIds (ids : List String) : List String :=
  sortBy id ids.dedup

/-- The largest value of a list. -/
def maxOf (values : List ℕ) : ℕ :=
  values.foldr max 0

section

variable (candidates : List Candidate)

def leftIds : List String :=
  sortedIds (candidates.map (·.left.transactionId))

def rightIds : List String :=
  sortedIds (candidates.map (·.right.transactionId))

def maxFlow : ℕ :=
  min (leftIds candidates).length (rightIds candidates).length

def stableBase : ℕ :=
  (rightIds candidates).length + 1

/-- `left_stable_weights` -/
def leftStableWeight (transactionId : String) : ℕ :=
  stableBase candidates ^
    ((leftIds candidates).length - (leftIds candidates).idxOf transactionId - 1)

def stableShift : ℕ :=
  (rightIds candidates).length * leftStableWeight candidates ((leftIds candidates).headD "")

def maxStableSum : ℕ :=
  maxFlow candidates * stableShift candidates

def maxDateSum : ℕ :=
  maxFlow candidates * maxOf (candidates.map (·.dateDifferenceDays))

/-- An amount is a whole number of hundredths already. -/
def maxAmountSum : ℕ :=
  maxFlow candidates * maxOf (candidates.map (·.amountDifference))

def dateWeight : ℕ :=
  maxStableSum candidates + 1

def amountWeight : ℕ :=
  (maxDateSum candidates + 1) * dateWeight candidates

def counterpartyWeight : ℕ :=
  (maxAmountSum candidates + 1) * amountWeight candidates

def referenceWeight : ℕ :=
  (maxFlow candidates + 1) * counterpartyWeight candidates

def classificationWeight : ℕ :=
  (maxFlow candidates + 1) * referenceWeight candidates

def stableCost (candidate : Candidate) : ℤ :=
  stableShift candidates +
    ((rightIds candidates).idxOf candidate.right.transactionId - (rightIds candidates).length : ℤ) *
      leftStableWeight candidates candidate.left.transactionId

/-- The cost of a candidate. -/
def candidateCost (candidate : Candidate) : ℤ :=
  candidate.quality.classification * classificationWeight candidates +
    candidate.quality.reference * referenceWeight candidates +
    candidate.quality.counterparty * counterpartyWeight candidates +
    candidate.amountDifference * amountWeight candidates +
    candidate.quality.dateDifference * dateWeight candidates +
    stableCost candidates candidate

/-- `_candidate_costs`; the pairs are the keys of a dictionary. -/
def candidateCosts : String × String → ℤ :=
  (pairOrder candidates).foldl
    (fun costs candidate =>
      Function.update costs candidate.pair (candidateCost candidates candidate))
    fun _ => 0

/-! ## The network -/

def source : ℕ := 0

def leftOffset : ℕ := 1

def rightOffset : ℕ :=
  leftOffset + (leftIds candidates).length

def sink : ℕ :=
  rightOffset candidates + (rightIds candidates).length

/-- `left_nodes` -/
def leftNode (transactionId : String) : ℕ :=
  leftOffset + (leftIds candidates).idxOf transactionId

/-- `right_nodes` -/
def rightNode (transactionId : String) : ℕ :=
  rightOffset candidates + (rightIds candidates).idxOf transactionId

def sourceArcs : List Arc :=
  (leftIds candidates).map fun transactionId => ⟨source, leftNode candidates transactionId, 0⟩

def sinkArcs : List Arc :=
  (rightIds candidates).map fun transactionId =>
    ⟨rightNode candidates transactionId, sink candidates, 0⟩

/-- The arc of a candidate. -/
def candidateArc (candidate : Candidate) : Arc :=
  ⟨leftNode candidates candidate.left.transactionId,
    rightNode candidates candidate.right.transactionId,
    candidateCosts candidates candidate.pair⟩

/-- The calls of `_add_flow_edge`. -/
def networkArcs : List Arc :=
  sourceArcs candidates ++ sinkArcs candidates ++
    (pairOrder candidates).map (candidateArc candidates)

/-- The graph before the loop. -/
def initialState : AssignmentState where
  graph := FlowGraph.empty.addArcs (networkArcs candidates)
  potentials := fun _ => 0

/-- `candidate_edges` -/
def candidateEdges : List (Candidate × Arc × ℕ) :=
  (pairOrder candidates).zip <|
    (FlowGraph.empty.addArcs (sourceArcs candidates ++ sinkArcs candidates)).arcPlaces
      ((pairOrder candidates).map (candidateArc candidates))

/-- `_optimal_one_to_one_match`, with at most this many rounds for each loop. -/
def optimalOneToOneMatch (fuel : ℕ) : Option (Except PathError (List Candidate)) :=
  if candidates.isEmpty then some (.ok [])
  else
    (assignmentLoop source (sink candidates) fuel (initialState candidates)).map fun result =>
      result.map fun s =>
        pairOrder <| ((candidateEdges candidates).filter fun entry =>
          (s.graph entry.2.1.source)[entry.2.2]?.any (·.capacity = 0)).map (·.1)

end

/-! ## The nodes -/

section

variable {candidates : List Candidate} {candidate : Candidate}

lemma mem_sortedIds {ids : List String} {transactionId : String} :
    transactionId ∈ sortedIds ids ↔ transactionId ∈ ids := by
  rw [sortedIds, (perm_sortBy ..).mem_iff, List.mem_dedup]

lemma nodup_sortedIds (ids : List String) : (sortedIds ids).Nodup :=
  (perm_sortBy ..).nodup_iff.2 ids.nodup_dedup

lemma nodup_leftIds (candidates : List Candidate) : (leftIds candidates).Nodup :=
  nodup_sortedIds _

lemma nodup_rightIds (candidates : List Candidate) : (rightIds candidates).Nodup :=
  nodup_sortedIds _

lemma mem_pairOrder : candidate ∈ pairOrder candidates ↔ candidate ∈ candidates :=
  (perm_sortBy ..).mem_iff

lemma mem_leftIds (h : candidate ∈ candidates) :
    candidate.left.transactionId ∈ leftIds candidates :=
  mem_sortedIds.2 (List.mem_map_of_mem h)

lemma mem_rightIds (h : candidate ∈ candidates) :
    candidate.right.transactionId ∈ rightIds candidates :=
  mem_sortedIds.2 (List.mem_map_of_mem h)

lemma leftNode_lt {transactionId : String} (h : transactionId ∈ leftIds candidates) :
    leftNode candidates transactionId < rightOffset candidates :=
  Nat.add_lt_add_left (List.idxOf_lt_length_of_mem h) _

lemma rightNode_lt {transactionId : String} (h : transactionId ∈ rightIds candidates) :
    rightNode candidates transactionId < sink candidates :=
  Nat.add_lt_add_left (List.idxOf_lt_length_of_mem h) _

lemma source_lt_leftNode (transactionId : String) : source < leftNode candidates transactionId :=
  Nat.lt_add_right _ Nat.zero_lt_one

lemma rightOffset_le_rightNode (transactionId : String) :
    rightOffset candidates ≤ rightNode candidates transactionId :=
  Nat.le_add_right ..

lemma source_lt_rightNode (transactionId : String) : source < rightNode candidates transactionId :=
  (Nat.lt_add_right _ Nat.zero_lt_one).trans_le (rightOffset_le_rightNode transactionId)

/-! ## The costs are not negative -/

lemma leftStableWeight_le (transactionId : String) :
    leftStableWeight candidates transactionId ≤
      leftStableWeight candidates ((leftIds candidates).headD "") := by
  have hindex : (leftIds candidates).idxOf ((leftIds candidates).headD "") = 0 := by
    cases leftIds candidates with
    | nil => rfl
    | cons first ids => exact List.idxOf_cons_self
  refine Nat.pow_le_pow_right (Nat.succ_pos _) ?_
  rw [hindex]
  omega

/-- The stable cost is between zero and the shift. -/
lemma stableCost_nonneg (candidate : Candidate) : 0 ≤ stableCost candidates candidate := by
  have hshift : ((rightIds candidates).length : ℤ) *
      leftStableWeight candidates candidate.left.transactionId ≤ stableShift candidates := by
    rw [stableShift]
    exact_mod_cast Nat.mul_le_mul_left _ (leftStableWeight_le candidate.left.transactionId)
  have hrank : (0 : ℤ) ≤ (rightIds candidates).idxOf candidate.right.transactionId *
      leftStableWeight candidates candidate.left.transactionId := by positivity
  rw [stableCost, sub_mul]
  omega

lemma candidateCost_nonneg (candidate : Candidate) : 0 ≤ candidateCost candidates candidate :=
  add_nonneg (by positivity) (stableCost_nonneg candidate)

/-- What is in a dictionary that was filled in a loop. -/
lemma foldl_update_cases (cost : Candidate → ℤ) (order : List Candidate)
    (costs : String × String → ℤ) (pair : String × String) :
    (∃ candidate ∈ order, candidate.pair = pair ∧
        order.foldl (fun costs candidate => Function.update costs candidate.pair (cost candidate))
          costs pair = cost candidate) ∨
      (∀ candidate ∈ order, candidate.pair ≠ pair) ∧
        order.foldl (fun costs candidate => Function.update costs candidate.pair (cost candidate))
          costs pair = costs pair := by
  induction order generalizing costs with
  | nil => exact .inr ⟨by simp, rfl⟩
  | cons first order ih =>
    rcases ih (Function.update costs first.pair (cost first)) with
      ⟨candidate, hcandidate, hpair, hcost⟩ | ⟨hnone, hcost⟩
    · exact .inl ⟨candidate, List.mem_cons_of_mem _ hcandidate, hpair, hcost⟩
    · by_cases hfirst : first.pair = pair
      · refine .inl ⟨first, List.mem_cons_self, hfirst, hcost.trans ?_⟩
        rw [← hfirst, Function.update_self]
      · refine .inr ⟨List.forall_mem_cons.2 ⟨hfirst, hnone⟩, hcost.trans ?_⟩
        rw [Function.update_of_ne (Ne.symm hfirst)]

lemma candidateCosts_nonneg (pair : String × String) : 0 ≤ candidateCosts candidates pair := by
  rcases foldl_update_cases (candidateCost candidates) (pairOrder candidates) (fun _ => 0) pair with
    ⟨candidate, -, -, hcost⟩ | ⟨-, hcost⟩
  · exact (candidateCost_nonneg candidate).trans_eq hcost.symm
  · exact hcost.ge

/-! ## The network -/

/-- What the arcs of the network are. -/
lemma forall_networkArcs {p : Arc → Prop}
    (hsource : ∀ transactionId ∈ leftIds candidates,
      p ⟨source, leftNode candidates transactionId, 0⟩)
    (hsink : ∀ transactionId ∈ rightIds candidates,
      p ⟨rightNode candidates transactionId, sink candidates, 0⟩)
    (hcandidate : ∀ candidate ∈ candidates, p (candidateArc candidates candidate)) :
    ∀ arc ∈ networkArcs candidates, p arc := by
  intro arc harc
  rw [networkArcs, List.mem_append, List.mem_append] at harc
  rcases harc with (harc | harc) | harc <;> obtain ⟨item, hitem, rfl⟩ := List.mem_map.1 harc
  · exact hsource item hitem
  · exact hsink item hitem
  · exact hcandidate item (mem_pairOrder.1 hitem)

lemma networkArcs_lt : ∀ arc ∈ networkArcs candidates,
    arc.source < arc.destination ∧ arc.destination ≤ sink candidates := by
  refine forall_networkArcs ?_ ?_ ?_
  · intro transactionId hid
    exact ⟨source_lt_leftNode transactionId,
      (leftNode_lt hid).le.trans (Nat.le_add_right _ _)⟩
  · intro transactionId hid
    exact ⟨rightNode_lt hid, le_rfl⟩
  · intro candidate hcandidate
    exact ⟨(leftNode_lt (mem_leftIds hcandidate)).trans_le (rightOffset_le_rightNode _),
      (rightNode_lt (mem_rightIds hcandidate)).le⟩

lemma networkArcs_ne : ∀ arc ∈ networkArcs candidates, arc.source ≠ arc.destination :=
  fun arc harc => (networkArcs_lt arc harc).1.ne

lemma networkArcs_cost : ∀ arc ∈ networkArcs candidates, 0 ≤ arc.cost :=
  forall_networkArcs (fun _ _ => le_rfl) (fun _ _ => le_rfl) fun _ _ => candidateCosts_nonneg _

lemma sink_ne_source : sink candidates ≠ source := by
  rw [sink, rightOffset, leftOffset, source]
  omega

lemma withinSize_initialState :
    WithinSize (initialState candidates).graph source (sink candidates + 1) where
  source := Nat.succ_pos _
  target := by
    intro node edge hedge
    obtain ⟨index, hindex⟩ := List.mem_iff_getElem?.1 hedge
    obtain ⟨arc, harc, hcases⟩ := exists_arc_of_edge networkArcs_ne hindex
    have hlt := networkArcs_lt arc harc
    rcases hcases with ⟨-, htarget, -⟩ | ⟨-, htarget, -⟩ <;> rw [htarget] <;> omega

lemma reducedCost_initialState_nonneg {node : ℕ} {edge : FlowEdge}
    (hedge : edge ∈ (initialState candidates).graph node) (hcapacity : edge.capacity ≠ 0) :
    0 ≤ reducedCost (initialState candidates).potentials node edge := by
  obtain ⟨index, hindex⟩ := List.mem_iff_getElem?.1 hedge
  obtain ⟨arc, harc, hcases⟩ := exists_arc_of_edge networkArcs_ne hindex
  rcases hcases with ⟨-, -, -, hcost⟩ | ⟨-, -, hzero, -⟩
  · rw [reducedCost, hcost]
    exact (networkArcs_cost arc harc).trans_eq (by simp [initialState])
  · exact absurd hzero hcapacity

lemma roundInvariant_initialState :
    RoundInvariant (initialState candidates).graph source (sink candidates) 0
      (initialState candidates) where
  paired := paired_addArcs networkArcs_ne
  sameEdges := .refl _
  outCapacity := fun node => by simp
  nonnegCosts := fun _ _ _ => reducedCost_initialState_nonneg

/-! ## The loop -/

/-- The edges of the arcs. -/
def networkPlaces (candidates : List Candidate) : List (Arc × ℕ) :=
  FlowGraph.empty.arcPlaces (networkArcs candidates)

/-- A state of the loop after this many rounds. -/
structure FlowState (candidates : List Candidate) (rounds : ℕ) (s : AssignmentState) : Prop where
  reducedCost_nonneg : ∀ node, Reachable s.graph source node → ∀ edge ∈ s.graph node,
    edge.capacity ≠ 0 → 0 ≤ reducedCost s.potentials node edge
  capacity_bounds : ∀ node, ∀ edge ∈ s.graph node, 0 ≤ edge.capacity ∧ edge.capacity ≤ 1
  flow_bounds : ∀ place ∈ networkPlaces candidates,
    0 ≤ s.graph.flow place ∧ s.graph.flow place ≤ 1
  conservation : ∀ node, node ≠ source → node ≠ sink candidates →
    s.graph.netInflow (networkPlaces candidates) node = 0
  value_source : s.graph.netInflow (networkPlaces candidates) source = -rounds
  value_sink : s.graph.netInflow (networkPlaces candidates) (sink candidates) = rounds

lemma RoundInvariant.flowState {rounds : ℕ} {s : AssignmentState}
    (h : RoundInvariant (initialState candidates).graph source (sink candidates) rounds s) :
    FlowState candidates rounds s := by
  have hnet : ∀ node, s.graph.netInflow (networkPlaces candidates) node =
      (if node = sink candidates then (rounds : ℤ) else 0) -
        if node = source then (rounds : ℤ) else 0 := by
    intro node
    have hflow := netInflow_eq h.sameEdges h.paired networkArcs_ne node
    rw [h.outCapacity] at hflow
    rw [networkPlaces, hflow]
    simp only [initialState]
    ring
  have hcapacity : ∀ {node index : ℕ} {edge : FlowEdge}, (s.graph node)[index]? = some edge →
      0 ≤ edge.capacity ∧ edge.capacity ≤ 1 := by
    intro node index edge hedge
    rcases h.paired.capacity_eq hedge with hzero | hone <;> omega
  constructor
  · exact h.nonnegCosts
  · intro node edge hedge
    obtain ⟨index, hindex⟩ := List.mem_iff_getElem?.1 hedge
    exact hcapacity hindex
  · intro place _
    rw [flow]
    cases hedge : (s.graph place.1.source)[place.2]? with
    | none => exact ⟨by simp, by simp⟩
    | some edge =>
      have hbounds := hcapacity hedge
      simp only [Option.map_some, Option.getD_some]
      omega
  · intro node hsource hsink
    rw [hnet, if_neg hsink, if_neg hsource, sub_zero]
  · rw [hnet, if_neg sink_ne_source.symm, if_pos rfl, zero_sub]
  · rw [hnet, if_pos rfl, if_neg sink_ne_source, sub_zero]

/-- The loop ends without an error, in a state in which the sink cannot be reached. -/
lemma exists_assignmentLoop (candidates : List Candidate) :
    ∃ fuel rounds s,
      assignmentLoop source (sink candidates) fuel (initialState candidates) = some (.ok s) ∧
      AfterRounds source (sink candidates) (initialState candidates) rounds s ∧
      ¬ Reachable s.graph source (sink candidates) :=
  roundInvariant_initialState.loop_ok withinSize_initialState sink_ne_source

/-- The match is found, in enough rounds. -/
lemma optimalOneToOneMatch_ok (candidates : List Candidate) :
    ∃ fuel assignments, optimalOneToOneMatch candidates fuel = some (.ok assignments) := by
  obtain ⟨fuel, rounds, s, hloop, -⟩ := exists_assignmentLoop candidates
  rw [exists_comm]
  by_cases hempty : candidates.isEmpty
  · exact ⟨[], fuel, if_pos hempty⟩
  · exact ⟨_, fuel, by rw [optimalOneToOneMatch, if_neg hempty, hloop]; rfl⟩

/-- There is no error, however many rounds there are. -/
lemma optimalOneToOneMatch_ne_error (candidates : List Candidate) (fuel : ℕ) (error : PathError) :
    optimalOneToOneMatch candidates fuel ≠ some (.error error) := by
  obtain ⟨fuel', rounds, s, hloop, -⟩ := exists_assignmentLoop candidates
  intro herror
  rw [optimalOneToOneMatch] at herror
  split at herror
  · cases herror
  · obtain ⟨result, hresult, hmap⟩ := Option.map_eq_some_iff.1 herror
    have hmax := assignmentLoop_mono hresult (le_max_left fuel fuel')
    rw [assignmentLoop_mono hloop (le_max_right fuel fuel')] at hmax
    obtain rfl := Option.some.inj hmax
    cases hmap

/-- In every state of the loop the reduced costs of the edges that leave a reachable node are not
negative, the capacities are within their bounds, and the flow is conserved and has grown by one in
every round; the next round has no error, and ends the loop if and only if the sink cannot be
reached.  The loop ends. -/
theorem optimalOneToOneMatch_loop (candidates : List Candidate) :
    (∀ rounds s,
      AfterRounds source (sink candidates) (initialState candidates) rounds s →
        FlowState candidates rounds s ∧
        (∀ fuel error, assignmentRound source (sink candidates) fuel s ≠ some (.error error)) ∧
        ∃ fuel, (¬ Reachable s.graph source (sink candidates) ∧
            assignmentRound source (sink candidates) fuel s = some (.ok none)) ∨
          Reachable s.graph source (sink candidates) ∧
            ∃ next, assignmentRound source (sink candidates) fuel s = some (.ok (some next))) ∧
    (∃ fuel assignments, optimalOneToOneMatch candidates fuel = some (.ok assignments)) ∧
    ∀ fuel error, optimalOneToOneMatch candidates fuel ≠ some (.error error) := by
  refine ⟨?_, optimalOneToOneMatch_ok candidates, optimalOneToOneMatch_ne_error candidates⟩
  intro rounds s hrounds
  have hinvariant := hrounds.invariant roundInvariant_initialState withinSize_initialState
  refine ⟨hinvariant.flowState, hinvariant.round_ne_error withinSize_initialState, ?_⟩
  obtain ⟨fuel, hend | ⟨next, hpushes, hnext⟩⟩ :=
    hinvariant.round_cases withinSize_initialState
  · exact ⟨fuel, .inl hend⟩
  · exact ⟨fuel, .inr ⟨hpushes.reachable, next, hnext⟩⟩

end

end Reconciliation
end MercuryTools
