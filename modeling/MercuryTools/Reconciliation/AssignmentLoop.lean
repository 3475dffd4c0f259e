import MercuryTools.Reconciliation.Augmentation
import MercuryTools.Reconciliation.Network

/-!
# The augmentation loop of the matcher

The outer loop of `_optimal_one_to_one_match` in `reconciliation/matcher.py`.  A round either finds
no path to the sink and ends the loop, or pushes a unit to the sink (`assignmentRound_cases`).  The
potentials of the nodes that the search does not reach stay behind; after the round these nodes
cannot be reached either, so that the reduced costs of the edges that leave a reachable node are
never negative (`RoundInvariant`).
-/

namespace MercuryTools
namespace Reconciliation

open FlowGraph

/-! ## The loop -/

/-- What the loop changes. -/
structure AssignmentState where
  graph : FlowGraph
  potentials : ℕ → ℤ

/-- A round of `while True`; it ends the loop if it has no next state. -/
def assignmentRound (source sink fuel : ℕ) (s : AssignmentState) :
    Option (Except PathError (Option AssignmentState)) :=
  match search s.graph s.potentials fuel (.initial source) with
  | none => none
  | some found =>
      match found.distances sink with
      | none => some (.ok none)
      | some _ =>
          let potentials := updatePotentials s.potentials found.distances
          (augment found.previous source fuel sink s.graph).map fun result =>
            result.map fun graph => some ⟨graph, potentials⟩

/-- The loop, for at most this many rounds. -/
def assignmentLoop (source sink : ℕ) :
    ℕ → AssignmentState → Option (Except PathError AssignmentState)
  | 0, _ => none
  | fuel + 1, s =>
      match assignmentRound source sink fuel s with
      | none => none
      | some (.error error) => some (.error error)
      | some (.ok none) => some (.ok s)
      | some (.ok (some next)) => assignmentLoop source sink fuel next

/-! ## More rounds than are needed -/

section

variable {graph : FlowGraph} {potentials : ℕ → ℤ} {source sink fuel fuel' : ℕ}

lemma search_mono {s s' : Search} (h : search graph potentials fuel s = some s')
    (hle : fuel ≤ fuel') : search graph potentials fuel' s = some s' := by
  induction fuel generalizing s fuel' with
  | zero => cases h
  | succ fuel ih =>
    obtain ⟨fuel', rfl⟩ := Nat.exists_eq_add_of_le' (Nat.one_le_of_lt hle)
    rw [search] at h ⊢
    split at h
    · exact h
    · exact ih h (Nat.le_of_succ_le_succ hle)

lemma augment_mono {previous : ℕ → Option (ℕ × ℕ)} {node : ℕ} {result : Except PathError FlowGraph}
    (h : augment previous source fuel node graph = some result) (hle : fuel ≤ fuel') :
    augment previous source fuel' node graph = some result := by
  induction fuel generalizing node graph fuel' with
  | zero => cases h
  | succ fuel ih =>
    obtain ⟨fuel', rfl⟩ := Nat.exists_eq_add_of_le' (Nat.one_le_of_lt hle)
    rw [augment] at h ⊢
    split at h
    · next hnode => rw [if_pos hnode, h]
    · next hnode =>
      rw [if_neg hnode]
      split at h
      · exact h
      · split at h
        · exact h
        · dsimp only at h ⊢
          split at h
          · next hreverse =>
            rw [if_pos hreverse]
            exact ih h (Nat.le_of_succ_le_succ hle)
          · next hreverse => rw [if_neg hreverse, h]

lemma assignmentRound_mono {s : AssignmentState}
    {result : Except PathError (Option AssignmentState)}
    (h : assignmentRound source sink fuel s = some result) (hle : fuel ≤ fuel') :
    assignmentRound source sink fuel' s = some result := by
  rw [assignmentRound] at h ⊢
  split at h
  · cases h
  · next found hfound =>
    rw [search_mono hfound hle]
    split at h
    · next hsink =>
      simp only [hsink]
      exact h
    · next hsink =>
      obtain ⟨pushed, hpushed, rfl⟩ := Option.map_eq_some_iff.1 h
      simp only [hsink, augment_mono hpushed hle, Option.map_some]

lemma assignmentLoop_mono {s : AssignmentState} {result : Except PathError AssignmentState}
    (h : assignmentLoop source sink fuel s = some result) (hle : fuel ≤ fuel') :
    assignmentLoop source sink fuel' s = some result := by
  induction fuel generalizing s fuel' with
  | zero => cases h
  | succ fuel ih =>
    obtain ⟨fuel', rfl⟩ := Nat.exists_eq_add_of_le' (Nat.one_le_of_lt hle)
    have hle' := Nat.le_of_succ_le_succ hle
    rw [assignmentLoop] at h ⊢
    split at h
    · cases h
    · next error herror =>
      rw [assignmentRound_mono herror hle']
      exact h
    · next hend =>
      rw [assignmentRound_mono hend hle']
      exact h
    · next next hnext =>
      rw [assignmentRound_mono hnext hle']
      exact ih h hle'

end

/-! ## A round -/

/-- A round that pushes a unit. -/
structure Pushes (source sink : ℕ) (s next : AssignmentState) : Prop where
  reachable : Reachable s.graph source sink
  augmented : Augmented s.graph next.graph next.potentials (Reachable s.graph source) source sink
  reducedCost_nonneg : ∀ node, Reachable s.graph source node → ∀ edge ∈ s.graph node,
    edge.capacity ≠ 0 → 0 ≤ reducedCost next.potentials node edge

section

variable {source sink size : ℕ} {s next : AssignmentState}

/-- A round ends the loop where the sink cannot be reached, and pushes a unit where it can. -/
theorem assignmentRound_cases (hpaired : s.graph.Paired)
    (hcosts : NonnegCosts s.graph s.potentials source)
    (hsize : ∀ node, Reachable s.graph source node → node < size) :
    ∃ fuel, (¬ Reachable s.graph source sink ∧
        assignmentRound source sink fuel s = some (.ok none)) ∨
      ∃ next, Pushes source sink s next ∧
        assignmentRound source sink fuel s = some (.ok (some next)) := by
  have hinitial := searchInvariant_initial s.graph s.potentials source
  obtain ⟨fuel, found, hfound⟩ := hinitial.search_ends hcosts hsize
  obtain ⟨hinvariant, hqueue⟩ := hinitial.search hcosts hfound
  cases hsink : found.distances sink with
  | none =>
    refine ⟨fuel, .inl ⟨fun hreachable => ?_, ?_⟩⟩
    · obtain ⟨d, hd⟩ := (hinvariant.reachable_iff hqueue).1 hreachable
      rw [hsink] at hd
      cases hd
    · rw [assignmentRound, hfound]
      simp only [hsink]
  | some d =>
    have hreachable := hinvariant.reachable sink d hsink
    obtain ⟨visited, hvisited⟩ := (hinvariant.traced sink d hsink).exists_nodes
    obtain ⟨graph, hgraph, haugmented⟩ := augment_ok
      (fun node hnode hne => hinvariant.exists_tight hqueue hnode hne) hreachable hvisited hpaired
      fun _ _ => rfl
    refine ⟨max fuel (visited.length + 1),
      .inr ⟨⟨graph, updatePotentials s.potentials found.distances⟩, ⟨hreachable, haugmented,
        fun node hnode edge => hinvariant.reducedCost_nonneg hqueue hnode⟩, ?_⟩⟩
    rw [assignmentRound, search_mono hfound (le_max_left ..)]
    simp only [hsink, augment_mono hgraph (le_max_right ..), Option.map_some]
    rfl

/-- After the round no other nodes can be reached. -/
lemma Pushes.reachable_of_reachable (h : Pushes source sink s next) {node : ℕ}
    (hnode : Reachable next.graph source node) : Reachable s.graph source node := by
  induction hnode with
  | refl => exact .refl
  | tail _ hresidual ih =>
    obtain ⟨edge', hedge', hcapacity', rfl⟩ := hresidual
    rcases h.augmented.grows _ edge' hedge' hcapacity' with
      ⟨edge, hedge, hcapacity, htarget, -⟩ | hnew
    · exact ih.tail ⟨edge, hedge, hcapacity, htarget⟩
    · exact hnew.2.1

/-- The reduced costs after the round. -/
lemma Pushes.nonnegCosts (h : Pushes source sink s next) :
    NonnegCosts next.graph next.potentials source := by
  intro node hnode edge' hedge' hcapacity'
  rcases h.augmented.grows node edge' hedge' hcapacity' with
    ⟨edge, hedge, hcapacity, htarget, hcost⟩ | hnew
  · have hnonneg := h.reducedCost_nonneg node (h.reachable_of_reachable hnode) edge hedge hcapacity
    rwa [reducedCost, htarget, hcost] at hnonneg
  · exact hnew.2.2.ge

end

/-! ## The rounds of a run -/

/-- The state after this many rounds. -/
inductive AfterRounds (source sink : ℕ) (initial : AssignmentState) : ℕ → AssignmentState → Prop
  | start : AfterRounds source sink initial 0 initial
  | round {rounds fuel : ℕ} {s next : AssignmentState} : AfterRounds source sink initial rounds s →
      assignmentRound source sink fuel s = some (.ok (some next)) →
      AfterRounds source sink initial (rounds + 1) next

/-- The invariant of the rounds: the edges stay paired and keep their ends, the capacities that
leave the sink have gone up by the rounds and those that leave the source down, and the reduced
costs of the edges that leave a reachable node are not negative. -/
structure RoundInvariant (initial : FlowGraph) (source sink rounds : ℕ) (s : AssignmentState) :
    Prop where
  paired : s.graph.Paired
  sameEdges : SameEdges initial s.graph
  outCapacity : ∀ node, s.graph.outCapacity node = initial.outCapacity node +
    (if node = sink then (rounds : ℤ) else 0) - if node = source then (rounds : ℤ) else 0
  nonnegCosts : NonnegCosts s.graph s.potentials source

/-- The nodes of the graph. -/
structure WithinSize (graph : FlowGraph) (source size : ℕ) : Prop where
  source : source < size
  target : ∀ node, ∀ edge ∈ graph node, edge.target < size

section

variable {initial : FlowGraph} {source sink rounds size : ℕ} {s next : AssignmentState}

lemma WithinSize.of_reachable {graph : FlowGraph} (h : WithinSize initial source size)
    (hsame : SameEdges initial graph) {node : ℕ} (hnode : Reachable graph source node) :
    node < size := by
  cases hnode with
  | refl => exact h.source
  | tail _ hresidual =>
    obtain ⟨edge, hedge, -, rfl⟩ := hresidual
    obtain ⟨index, hindex⟩ := List.mem_iff_getElem?.1 hedge
    obtain ⟨edge', hedge', htarget, -⟩ := hsame.exists_of_eq_some hindex
    exact htarget ▸ h.target _ edge' (List.mem_of_getElem? hedge')

/-- A push keeps the invariant. -/
lemma RoundInvariant.pushes (h : RoundInvariant initial source sink rounds s)
    (hpushes : Pushes source sink s next) :
    RoundInvariant initial source sink (rounds + 1) next where
  paired := hpushes.augmented.paired
  sameEdges := h.sameEdges.trans hpushes.augmented.sameEdges
  outCapacity := fun node => by
    rw [hpushes.augmented.outCapacity, h.outCapacity]
    push_cast
    split <;> split <;> ring
  nonnegCosts := hpushes.nonnegCosts

/-- What a round does in a state of a run. -/
lemma RoundInvariant.round_cases (h : RoundInvariant initial source sink rounds s)
    (hsize : WithinSize initial source size) :
    ∃ fuel, (¬ Reachable s.graph source sink ∧
        assignmentRound source sink fuel s = some (.ok none)) ∨
      ∃ next, Pushes source sink s next ∧
        assignmentRound source sink fuel s = some (.ok (some next)) :=
  assignmentRound_cases h.paired h.nonnegCosts fun _ => hsize.of_reachable h.sameEdges

/-- The outcome of a round does not depend on how many rounds its searches may take. -/
lemma assignmentRound_unique {fuel fuel' : ℕ}
    {result result' : Except PathError (Option AssignmentState)}
    (h : assignmentRound source sink fuel s = some result)
    (h' : assignmentRound source sink fuel' s = some result') : result = result' := by
  have hmax := assignmentRound_mono h (le_max_left fuel fuel')
  rw [assignmentRound_mono h' (le_max_right fuel fuel')] at hmax
  exact (Option.some.inj hmax).symm

/-- A round with a next state pushes a unit. -/
theorem RoundInvariant.pushes_of_round (h : RoundInvariant initial source sink rounds s)
    (hsize : WithinSize initial source size) {fuel : ℕ}
    (hround : assignmentRound source sink fuel s = some (.ok (some next))) :
    Pushes source sink s next := by
  obtain ⟨fuel', ⟨-, hend⟩ | ⟨next', hpushes, hnext⟩⟩ := h.round_cases hsize
  · cases assignmentRound_unique hround hend
  · cases assignmentRound_unique hround hnext
    exact hpushes

/-- A round has no error. -/
theorem RoundInvariant.round_ne_error (h : RoundInvariant initial source sink rounds s)
    (hsize : WithinSize initial source size) (fuel : ℕ) (error : PathError) :
    assignmentRound source sink fuel s ≠ some (.error error) := by
  intro herror
  obtain ⟨fuel', ⟨-, hend⟩ | ⟨next, -, hnext⟩⟩ := h.round_cases hsize
  · cases assignmentRound_unique herror hend
  · cases assignmentRound_unique herror hnext

/-- The invariant holds after any number of rounds. -/
theorem AfterRounds.invariant {initialState : AssignmentState}
    (h : AfterRounds source sink initialState rounds s)
    (hinitial : RoundInvariant initialState.graph source sink 0 initialState)
    (hsize : WithinSize initialState.graph source size) :
    RoundInvariant initialState.graph source sink rounds s := by
  induction h with
  | start => exact hinitial
  | round _ hround ih => exact ih.pushes (ih.pushes_of_round hsize hround)

/-! ## The loop ends -/

lemma FlowGraph.Paired.outCapacity_nonneg {graph : FlowGraph} (h : graph.Paired) (node : ℕ) :
    0 ≤ graph.outCapacity node := by
  refine List.sum_nonneg fun capacity hcapacity => ?_
  obtain ⟨edge, hedge, rfl⟩ := List.mem_map.1 hcapacity
  obtain ⟨index, hindex⟩ := List.mem_iff_getElem?.1 hedge
  exact (h node index edge hindex).1

/-- Every round takes one of the units that can leave the source. -/
lemma RoundInvariant.rounds_le (h : RoundInvariant initial source sink rounds s)
    (hne : sink ≠ source) : (rounds : ℤ) ≤ initial.outCapacity source := by
  have hsource := h.outCapacity source
  rw [if_neg hne.symm, if_pos rfl] at hsource
  have hnonneg := h.paired.outCapacity_nonneg source
  omega

/-- A first round, and others after it. -/
lemma AfterRounds.head {fuel : ℕ} {s' : AssignmentState}
    (hround : assignmentRound source sink fuel s = some (.ok (some next)))
    (h : AfterRounds source sink next rounds s') : AfterRounds source sink s (rounds + 1) s' := by
  induction h with
  | start => exact .round .start hround
  | round _ hlast ih => exact .round ih hlast

/-- The loop ends in a state in which the sink cannot be reached. -/
theorem RoundInvariant.loop_ok (h : RoundInvariant initial source sink rounds s)
    (hsize : WithinSize initial source size) (hne : sink ≠ source) :
    ∃ fuel rounds' s', assignmentLoop source sink fuel s = some (.ok s') ∧
      AfterRounds source sink s rounds' s' ∧ ¬ Reachable s'.graph source sink := by
  induction hleft : (initial.outCapacity source - rounds).toNat using Nat.strong_induction_on
    generalizing rounds s with
  | _ left ih =>
    obtain ⟨fuel, ⟨hunreachable, hend⟩ | ⟨next, hpushes, hnext⟩⟩ :=
      h.round_cases hsize
    · exact ⟨fuel + 1, 0, s, by rw [assignmentLoop, hend], .start, hunreachable⟩
    · have hinvariant := h.pushes hpushes
      have hle := hinvariant.rounds_le hne
      obtain ⟨fuel', rounds', s', hloop, hrounds, hend⟩ := ih _ (by omega) hinvariant rfl
      refine ⟨max fuel fuel' + 1, rounds' + 1, s', ?_, .head hnext hrounds, hend⟩
      rw [assignmentLoop, assignmentRound_mono hnext (le_max_left ..)]
      exact assignmentLoop_mono hloop (le_max_right ..)

end

end Reconciliation
end MercuryTools
