import MercuryTools.Framework.DigitWeights
import MercuryTools.Reconciliation.FlowAssignment

/-!
# What the costs of the candidates express

The criteria by which `reconciliation/matcher.py` prefers one assignment to another of the same size
(`preference`), and the proof that the costs of `_candidate_costs` are in that order
(`preference_le`): no weight is too small for the criteria below it, and the stable costs are digits
to a base that is larger than every rank.
-/

namespace MercuryTools
namespace Reconciliation

open DigitWeights Matchings

/-! ## The order of assignments -/

/-- What `_candidate_for` promises of the quality. -/
structure Candidate.WellFormed (candidate : Candidate) : Prop where
  amountDifference : candidate.quality.amountDifference = candidate.amountDifference
  dateDifference : candidate.quality.dateDifference = candidate.dateDifferenceDays
  classification : candidate.quality.classification ≤ 1
  reference : candidate.quality.reference ≤ 1
  counterparty : candidate.quality.counterparty ≤ 1

/-- The right row that is assigned to a left row; a row without one comes last. -/
def matchedRight (pairs : Finset Candidate) (leftId : String) : WithTop String :=
  ((pairs.filter (·.leftId = leftId)).image Candidate.rightId).min

/-- The assigned right rows, in the order of the left rows. -/
def matchedSequence (ids : List String) (pairs : Finset Candidate) : List (WithTop String) :=
  ids.map (matchedRight pairs)

/-- The totals of the criteria, and then the assigned rows, in lexicographic order. -/
abbrev Preference := ℕ ×ₗ ℕ ×ₗ ℕ ×ₗ ℕ ×ₗ ℕ ×ₗ List (WithTop String)

/-- The preference for an assignment; the least one is preferred. -/
def preference (ids : List String) (pairs : Finset Candidate) : Preference :=
  toLex (∑ candidate ∈ pairs, candidate.quality.classification,
    toLex (∑ candidate ∈ pairs, candidate.quality.reference,
      toLex (∑ candidate ∈ pairs, candidate.quality.counterparty,
        toLex (∑ candidate ∈ pairs, candidate.quality.amountDifference,
          toLex (∑ candidate ∈ pairs, candidate.quality.dateDifference,
            matchedSequence ids pairs)))))

section

variable {candidates : List Candidate} {pairs pairs' : Finset Candidate} {candidate : Candidate}

lemma matchedRight_of_mem (h : Set.InjOn Candidate.leftId pairs) (hmem : candidate ∈ pairs) :
    matchedRight pairs candidate.leftId = candidate.rightId := by
  have hfilter : pairs.filter (·.leftId = candidate.leftId) = {candidate} := by
    refine Finset.eq_singleton_iff_unique_mem.2 ⟨Finset.mem_filter.2 ⟨hmem, rfl⟩, ?_⟩
    intro other hother
    obtain ⟨hother, hkey⟩ := Finset.mem_filter.1 hother
    exact h hother hmem hkey
  rw [matchedRight, hfilter, Finset.image_singleton, Finset.min_singleton]

lemma matchedRight_of_notMem {leftId : String} (h : leftId ∉ pairs.image Candidate.leftId) :
    matchedRight pairs leftId = ⊤ := by
  have hfilter : pairs.filter (·.leftId = leftId) = ∅ :=
    Finset.filter_eq_empty_iff.2 fun candidate hmem hkey =>
      h (Finset.mem_image.2 ⟨candidate, hmem, hkey⟩)
  rw [matchedRight, hfilter, Finset.image_empty, Finset.min_empty]

/-- The rows of an assignment. -/
lemma matchedRight_cases (h : Set.InjOn Candidate.leftId pairs) (leftId : String) :
    (matchedRight pairs leftId = ⊤ ∧ leftId ∉ pairs.image Candidate.leftId) ∨
      ∃ candidate ∈ pairs, candidate.leftId = leftId ∧
        matchedRight pairs leftId = candidate.rightId := by
  by_cases hmem : leftId ∈ pairs.image Candidate.leftId
  · obtain ⟨candidate, hcandidate, rfl⟩ := Finset.mem_image.1 hmem
    exact .inr ⟨candidate, hcandidate, rfl, matchedRight_of_mem h hcandidate⟩
  · exact .inl ⟨matchedRight_of_notMem hmem, hmem⟩

/-! ## The stable costs are digits -/

/-- The digit of an assigned row. -/
def rightRank (candidates : List Candidate) : WithTop String → ℕ
  | none => (rightIds candidates).length
  | some rightId => (rightIds candidates).idxOf rightId

lemma sum_leftIds (f : String → ℤ) :
    ((leftIds candidates).map f).sum = ∑ leftId ∈ (leftIds candidates).toFinset, f leftId :=
  (List.sum_toFinset f (nodup_leftIds candidates)).symm

/-- The ranks of the assigned rows, as one number. -/
lemma digitValue_matchedSequence (hpairs : Set.InjOn Candidate.leftId pairs)
    (hsubset : ∀ candidate ∈ pairs, candidate ∈ candidates) :
    (digitValue (stableBase candidates)
        ((matchedSequence (leftIds candidates) pairs).map (rightRank candidates)) : ℤ) =
      ∑ candidate ∈ pairs, stableCost candidates candidate -
        pairs.card * stableShift candidates +
          ((leftIds candidates).map fun leftId =>
            ((rightIds candidates).length : ℤ) * leftStableWeight candidates leftId).sum := by
  have hzero : ∀ leftId ∈ (leftIds candidates).toFinset, leftId ∉ pairs.image Candidate.leftId →
      ((rightRank candidates (matchedRight pairs leftId) : ℤ) - (rightIds candidates).length) *
        leftStableWeight candidates leftId = 0 := by
    intro leftId _ hnot
    rw [matchedRight_of_notMem hnot]
    exact mul_eq_zero_of_left (sub_self _) _
  have himage : pairs.image Candidate.leftId ⊆ (leftIds candidates).toFinset := by
    intro leftId hmem
    obtain ⟨candidate, hcandidate, rfl⟩ := Finset.mem_image.1 hmem
    exact List.mem_toFinset.2 (mem_leftIds (hsubset candidate hcandidate))
  have hranks : ∑ leftId ∈ (leftIds candidates).toFinset,
      ((rightRank candidates (matchedRight pairs leftId) : ℤ) - (rightIds candidates).length) *
        leftStableWeight candidates leftId =
      ∑ candidate ∈ pairs, stableCost candidates candidate -
        pairs.card * stableShift candidates := by
    rw [← Finset.sum_subset himage hzero, Finset.sum_image hpairs, ← nsmul_eq_mul,
      ← Finset.sum_const, ← Finset.sum_sub_distrib]
    refine Finset.sum_congr rfl fun candidate hcandidate => ?_
    rw [matchedRight_of_mem hpairs hcandidate, stableCost, add_sub_cancel_left]
    rfl
  rw [← hranks, ← sum_leftIds, ← List.sum_map_add, matchedSequence, List.map_map,
    digitValue_map (nodup_leftIds candidates), Nat.cast_list_sum, List.map_map]
  refine congrArg List.sum (List.map_congr_left fun leftId _ => ?_)
  simp only [Function.comp_apply, leftStableWeight]
  push_cast
  ring

lemma pairwise_sortedIds (ids : List String) : (sortedIds ids).Pairwise (· < ·) :=
  ((StableSorting.pairwise_sortBy id ids.dedup).and (nodup_sortedIds ids)).imp
    fun h => lt_of_le_of_ne h.1 h.2

/-- The ranks of the ids are in their order. -/
lemma lt_of_idxOf_lt {ids : List String} {rightId rightId' : String}
    (hmem : rightId' ∈ sortedIds ids)
    (h : (sortedIds ids).idxOf rightId < (sortedIds ids).idxOf rightId') : rightId < rightId' := by
  have hlt' := List.idxOf_lt_length_of_mem hmem
  have hlt := h.trans hlt'
  have hpairwise := List.pairwise_iff_getElem.1 (pairwise_sortedIds ids) _ _ hlt hlt' h
  rwa [List.getElem_idxOf, List.getElem_idxOf] at hpairwise

/-- The right rows that can be assigned. -/
lemma mem_matchedSequence {ids : List String} {right : WithTop String}
    (hpairs : Set.InjOn Candidate.leftId pairs)
    (hsubset : ∀ candidate ∈ pairs, candidate ∈ candidates)
    (h : right ∈ matchedSequence ids pairs) :
    right = ⊤ ∨ ∃ rightId ∈ rightIds candidates, right = (rightId : WithTop String) := by
  obtain ⟨leftId, -, rfl⟩ := List.mem_map.1 h
  rcases matchedRight_cases hpairs leftId with ⟨htop, -⟩ | ⟨candidate, hcandidate, -, hright⟩
  · exact .inl htop
  · exact .inr ⟨candidate.rightId, mem_rightIds (hsubset candidate hcandidate), hright⟩

/-- Assignments of one size are in the order of their stable costs. -/
theorem matchedSequence_le (hpairs : Set.InjOn Candidate.leftId pairs)
    (hsubset : ∀ candidate ∈ pairs, candidate ∈ candidates)
    (hpairs' : Set.InjOn Candidate.leftId pairs')
    (hsubset' : ∀ candidate ∈ pairs', candidate ∈ candidates) (hcard : pairs'.card = pairs.card)
    (h : ∑ candidate ∈ pairs, stableCost candidates candidate ≤
      ∑ candidate ∈ pairs', stableCost candidates candidate) :
    matchedSequence (leftIds candidates) pairs ≤ matchedSequence (leftIds candidates) pairs' := by
  refine @le_of_digitValue_le (stableBase candidates) _ _ (rightRank candidates) _ _
    (by rw [matchedSequence, matchedSequence, List.length_map, List.length_map]) ?_ ?_ ?_ ?_
  · intro right hright
    rcases mem_matchedSequence hpairs' hsubset' hright with rfl | ⟨rightId, hid, rfl⟩
    · exact Nat.lt_succ_self _
    · exact (List.idxOf_lt_length_of_mem hid).trans (Nat.lt_succ_self _)
  · intro right hright right' hright' hlt
    rcases mem_matchedSequence hpairs hsubset hright with rfl | ⟨rightId, hid, rfl⟩ <;>
      rcases mem_matchedSequence hpairs' hsubset' hright' with rfl | ⟨rightId', hid', rfl⟩
    · exact absurd hlt (lt_irrefl _)
    · exact absurd hlt (List.idxOf_lt_length_of_mem hid').le.not_gt
    · exact WithTop.coe_lt_top rightId
    · exact WithTop.coe_lt_coe.2 (lt_of_idxOf_lt hid' hlt)
  · intro right hright right' hright' heq
    rcases mem_matchedSequence hpairs hsubset hright with rfl | ⟨rightId, hid, rfl⟩ <;>
      rcases mem_matchedSequence hpairs' hsubset' hright' with rfl | ⟨rightId', hid', rfl⟩
    · rfl
    · exact absurd heq (List.idxOf_lt_length_of_mem hid').ne'
    · exact absurd heq (List.idxOf_lt_length_of_mem hid).ne
    · rw [(List.idxOf_inj hid).1 heq]
  · have hvalue := digitValue_matchedSequence hpairs hsubset
    have hvalue' := digitValue_matchedSequence hpairs' hsubset'
    rw [hcard] at hvalue'
    have hle : ((digitValue (stableBase candidates)
        ((matchedSequence (leftIds candidates) pairs).map (rightRank candidates)) : ℕ) : ℤ) ≤
          (digitValue (stableBase candidates)
            ((matchedSequence (leftIds candidates) pairs').map (rightRank candidates)) : ℕ) := by
      linarith
    exact_mod_cast hle

/-! ## The weights are large enough -/

lemma le_maxOf {values : List ℕ} {value : ℕ} (h : value ∈ values) : value ≤ maxOf values := by
  induction values with
  | nil => cases h
  | cons first values ih =>
    rcases List.mem_cons.1 h with rfl | h
    · exact le_max_left _ _
    · exact (ih h).trans (le_max_right _ _)

lemma card_le_maxFlow (h : IsOneToOne Candidate.leftId Candidate.rightId (pairs : Finset Candidate))
    (hsubset : ∀ candidate ∈ pairs, candidate ∈ candidates) :
    pairs.card ≤ maxFlow candidates := by
  have hcard : ∀ {key : Candidate → String} {ids : List String}, Set.InjOn key pairs →
      (∀ candidate ∈ pairs, key candidate ∈ ids) → pairs.card ≤ ids.length := by
    intro key ids hinj hmem
    rw [← Finset.card_image_of_injOn hinj]
    refine (Finset.card_le_card fun id hid => ?_).trans ids.toFinset_card_le
    obtain ⟨candidate, hcandidate, rfl⟩ := Finset.mem_image.1 hid
    exact List.mem_toFinset.2 (hmem candidate hcandidate)
  exact le_min (hcard h.left fun candidate hcandidate => mem_leftIds (hsubset candidate hcandidate))
    (hcard h.right fun candidate hcandidate => mem_rightIds (hsubset candidate hcandidate))

/-- A total is at most what all the candidates of a flow can come to. -/
lemma sum_le_maxFlow_mul (hcard : pairs.card ≤ maxFlow candidates) {value : Candidate → ℕ}
    {bound : ℕ} (h : ∀ candidate ∈ pairs, value candidate ≤ bound) :
    ∑ candidate ∈ pairs, value candidate ≤ maxFlow candidates * bound :=
  (Finset.sum_le_card_nsmul pairs value bound h).trans (Nat.mul_le_mul_right _ hcard)

lemma stableCost_le (h : candidate ∈ candidates) :
    stableCost candidates candidate ≤ stableShift candidates := by
  have hrank := List.idxOf_lt_length_of_mem (mem_rightIds h)
  have hweight : (0 : ℤ) ≤ leftStableWeight candidates candidate.left.transactionId := by positivity
  have hproduct := mul_nonpos_of_nonpos_of_nonneg
    (show ((rightIds candidates).idxOf candidate.right.transactionId : ℤ) -
      (rightIds candidates).length ≤ 0 by omega) hweight
  rw [stableCost]
  omega

/-- The cost of an assignment, by its totals. -/
lemma sum_candidateCost (candidates : List Candidate) (pairs : Finset Candidate) :
    ∑ candidate ∈ pairs, candidateCost candidates candidate =
      ((∑ candidate ∈ pairs, candidate.quality.classification) * classificationWeight candidates +
        ((∑ candidate ∈ pairs, candidate.quality.reference) * referenceWeight candidates +
          ((∑ candidate ∈ pairs, candidate.quality.counterparty) * counterpartyWeight candidates +
            ((∑ candidate ∈ pairs, candidate.amountDifference) * amountWeight candidates +
              ((∑ candidate ∈ pairs, candidate.quality.dateDifference) * dateWeight candidates +
                ∑ candidate ∈ pairs, (stableCost candidates candidate).toNat)))) : ℕ) := by
  push_cast
  simp only [Finset.sum_mul, ← Finset.sum_add_distrib]
  refine Finset.sum_congr rfl fun candidate _ => ?_
  rw [Int.toNat_of_nonneg (stableCost_nonneg candidate), candidateCost]
  ring

/-- **The costs are in the order of the preferences.**  Of two assignments of the same size the one
that does not cost more is the preferred one. -/
theorem preference_le (hwf : ∀ candidate ∈ candidates, candidate.WellFormed)
    (hpairs : IsOneToOne Candidate.leftId Candidate.rightId (pairs : Finset Candidate))
    (hsubset : ∀ candidate ∈ pairs, candidate ∈ candidates)
    (hpairs' : IsOneToOne Candidate.leftId Candidate.rightId (pairs' : Finset Candidate))
    (hsubset' : ∀ candidate ∈ pairs', candidate ∈ candidates) (hcard : pairs'.card = pairs.card)
    (h : ∑ candidate ∈ pairs, candidateCost candidates candidate ≤
      ∑ candidate ∈ pairs', candidateCost candidates candidate) :
    preference (leftIds candidates) pairs ≤ preference (leftIds candidates) pairs' := by
  have hflow := card_le_maxFlow hpairs' hsubset'
  have hstable : ∑ candidate ∈ pairs', (stableCost candidates candidate).toNat <
      dateWeight candidates :=
    Nat.lt_succ_of_le <| sum_le_maxFlow_mul hflow fun candidate hcandidate =>
      Int.toNat_le.2 (stableCost_le (hsubset' candidate hcandidate))
  have hdate : ∑ candidate ∈ pairs', candidate.quality.dateDifference ≤ maxDateSum candidates := by
    refine sum_le_maxFlow_mul hflow fun candidate hcandidate => ?_
    rw [(hwf candidate (hsubset' candidate hcandidate)).dateDifference]
    exact le_maxOf (List.mem_map_of_mem (hsubset' candidate hcandidate))
  have hamount : ∑ candidate ∈ pairs', candidate.amountDifference ≤ maxAmountSum candidates :=
    sum_le_maxFlow_mul hflow fun candidate hcandidate =>
      le_maxOf (List.mem_map_of_mem (hsubset' candidate hcandidate))
  have hflag : ∀ {value : Candidate → ℕ}, (∀ candidate ∈ pairs', value candidate ≤ 1) →
      ∑ candidate ∈ pairs', value candidate ≤ maxFlow candidates := by
    intro value hvalue
    have hle := sum_le_maxFlow_mul hflow hvalue
    rwa [mul_one] at hle
  have hreference := hflag fun candidate hcandidate =>
    (hwf candidate (hsubset' candidate hcandidate)).reference
  have hcounterparty := hflag fun candidate hcandidate =>
    (hwf candidate (hsubset' candidate hcandidate)).counterparty
  -- what the less important criteria come to
  have hdates := weight_lt hdate hstable
  have hamounts := weight_lt hamount hdates
  have hcounterparties := weight_lt hcounterparty hamounts
  have hreferences := weight_lt hreference hcounterparties
  have hamountEq : ∀ {set : Finset Candidate}, (∀ candidate ∈ set, candidate ∈ candidates) →
      ∑ candidate ∈ set, candidate.quality.amountDifference =
        ∑ candidate ∈ set, candidate.amountDifference := fun hset =>
    Finset.sum_congr rfl fun candidate hcandidate =>
      (hwf candidate (hset candidate hcandidate)).amountDifference
  rw [sum_candidateCost, sum_candidateCost, Nat.cast_le] at h
  rw [preference, preference, hamountEq hsubset, hamountEq hsubset']
  refine toLex_le_of_weight hreferences (fun h => ?_) h
  refine toLex_le_of_weight hcounterparties (fun h => ?_) h
  refine toLex_le_of_weight hamounts (fun h => ?_) h
  refine toLex_le_of_weight hdates (fun h => ?_) h
  refine toLex_le_of_weight hstable (fun h => ?_) h
  refine matchedSequence_le hpairs.left hsubset hpairs'.left hsubset' hcard ?_
  have hcast : ∀ set : Finset Candidate, ((∑ candidate ∈ set,
      (stableCost candidates candidate).toNat : ℕ) : ℤ) =
        ∑ candidate ∈ set, stableCost candidates candidate := by
    intro set
    rw [Nat.cast_sum]
    exact Finset.sum_congr rfl fun candidate _ => Int.toNat_of_nonneg (stableCost_nonneg candidate)
  rw [← hcast, ← hcast]
  exact_mod_cast h

/-! ## The match -/

/-- A candidate of one assignment with the same assigned rows. -/
lemma subset_of_matchedSequence_eq (hnodup : (candidates.map Candidate.pair).Nodup)
    (hpairs : Set.InjOn Candidate.leftId pairs)
    (hsubset : ∀ candidate ∈ pairs, candidate ∈ candidates)
    (hpairs' : Set.InjOn Candidate.leftId pairs')
    (hsubset' : ∀ candidate ∈ pairs', candidate ∈ candidates)
    (h : matchedSequence (leftIds candidates) pairs =
      matchedSequence (leftIds candidates) pairs') : pairs ⊆ pairs' := by
  intro candidate hcandidate
  have hrow := List.map_inj_left.1 h candidate.leftId (mem_leftIds (hsubset candidate hcandidate))
  rw [matchedRight_of_mem hpairs hcandidate] at hrow
  rcases matchedRight_cases hpairs' candidate.leftId with
    ⟨htop, -⟩ | ⟨other, hother, hleft, hright⟩
  · rw [htop] at hrow
    exact absurd hrow (WithTop.coe_ne_top)
  · have hpair : other.pair = candidate.pair :=
      Prod.ext hleft (WithTop.coe_inj.1 (hright.symm.trans hrow.symm))
    rwa [← List.inj_on_of_nodup_map hnodup (hsubset' other hother) (hsubset candidate hcandidate)
      hpair]

/-- Different assignments have different assigned rows. -/
lemma eq_of_preference_eq (hnodup : (candidates.map Candidate.pair).Nodup)
    (hpairs : Set.InjOn Candidate.leftId pairs)
    (hsubset : ∀ candidate ∈ pairs, candidate ∈ candidates)
    (hpairs' : Set.InjOn Candidate.leftId pairs')
    (hsubset' : ∀ candidate ∈ pairs', candidate ∈ candidates)
    (h : preference (leftIds candidates) pairs = preference (leftIds candidates) pairs') :
    pairs = pairs' := by
  simp only [preference, EmbeddingLike.apply_eq_iff_eq, Prod.mk.injEq] at h
  obtain ⟨-, -, -, -, -, hsequence⟩ := h
  exact (subset_of_matchedSequence_eq hnodup hpairs hsubset hpairs' hsubset' hsequence).antisymm
    (subset_of_matchedSequence_eq hnodup hpairs' hsubset' hpairs hsubset hsequence.symm)

/-- The cost that the dictionary has for a candidate. -/
lemma candidateCosts_pair (hnodup : (candidates.map Candidate.pair).Nodup)
    (h : candidate ∈ candidates) :
    candidateCosts candidates candidate.pair = candidateCost candidates candidate := by
  rcases foldl_update_cases (candidateCost candidates) (pairOrder candidates) (fun _ => 0)
    candidate.pair with ⟨other, hother, hpair, hcost⟩ | ⟨hnone, -⟩
  · rw [List.inj_on_of_nodup_map hnodup (mem_pairOrder.1 hother) h hpair] at hcost
    exact hcost
  · exact absurd rfl (hnone candidate (mem_pairOrder.2 h))

/-- An assignment that is one-to-one, as large as any, and preferred to all others of its size. -/
structure IsOptimal (candidates : List Candidate) (pairs : Finset Candidate) : Prop where
  subset : ∀ candidate ∈ pairs, candidate ∈ candidates
  isOneToOne : IsOneToOne Candidate.leftId Candidate.rightId (pairs : Finset Candidate)
  card_le : ∀ other : Finset Candidate, IsOneToOne Candidate.leftId Candidate.rightId other →
    (∀ candidate ∈ other, candidate ∈ candidates) → other.card ≤ pairs.card
  preference_lt : ∀ other : Finset Candidate,
    IsOneToOne Candidate.leftId Candidate.rightId other →
    (∀ candidate ∈ other, candidate ∈ candidates) → other.card = pairs.card → other ≠ pairs →
    preference (leftIds candidates) pairs < preference (leftIds candidates) other

lemma isOptimal_nil : IsOptimal [] ∅ where
  subset := by simp
  isOneToOne := ⟨by simp, by simp⟩
  card_le := fun other _ hsubset => by
    rw [Finset.eq_empty_of_forall_notMem fun candidate hmem => List.not_mem_nil (hsubset _ hmem)]
  preference_lt := fun other _ hsubset _ hne =>
    absurd (Finset.eq_empty_of_forall_notMem fun candidate hmem =>
      List.not_mem_nil (hsubset _ hmem)) hne

/-- The candidates that are used when the loop has ended. -/
theorem isOptimal_usedCandidates {rounds : ℕ} {s : AssignmentState}
    (hnodup : (candidates.map Candidate.pair).Nodup)
    (hwf : ∀ candidate ∈ candidates, candidate.WellFormed)
    (hrounds : AfterRounds source (sink candidates) (initialState candidates) rounds s)
    (hend : ¬ Reachable s.graph source (sink candidates)) :
    IsOptimal candidates (usedCandidates candidates s.graph).toFinset := by
  have hflow := (hrounds.invariant roundInvariant_initialState
    withinSize_initialState).assignmentFlow hnodup.of_map
  have hprices := hrounds.feasible roundInvariant_initialState withinSize_initialState
    (fun node hnode => graph_eq_nil_of_sink_lt hnode) ⟨_, feasible_initialState⟩
  have hcost : ∀ {set : Finset Candidate}, (∀ candidate ∈ set, candidate ∈ candidates) →
      ∑ candidate ∈ set, candidateCosts candidates candidate.pair =
        ∑ candidate ∈ set, candidateCost candidates candidate := fun hset =>
    Finset.sum_congr rfl fun candidate hmem => candidateCosts_pair hnodup (hset candidate hmem)
  refine ⟨hflow.subset, hflow.isOneToOne, ?_, ?_⟩
  · intro other hother hsubset
    exact hflow.card_le hend hother fun candidate hmem =>
      List.mem_toFinset.2 (hsubset candidate hmem)
  · intro other hother hsubset hcard hne
    have hle := hflow.sum_le hprices hother
      (fun candidate hmem => List.mem_toFinset.2 (hsubset candidate hmem)) hcard
    rw [hcost hflow.subset, hcost hsubset] at hle
    refine lt_of_le_of_ne
      (preference_le hwf hflow.isOneToOne hflow.subset hother hsubset hcard hle) fun heq => hne ?_
    exact (eq_of_preference_eq hnodup hflow.isOneToOne.left hflow.subset hother.left hsubset
      heq).symm

/-- Whatever the match returns is optimal. -/
theorem optimalOneToOneMatch_optimal (hnodup : (candidates.map Candidate.pair).Nodup)
    (hwf : ∀ candidate ∈ candidates, candidate.WellFormed) {fuel : ℕ}
    {assignments : List Candidate}
    (h : optimalOneToOneMatch candidates fuel = some (.ok assignments)) :
    assignments.Nodup ∧ IsOptimal candidates assignments.toFinset := by
  rw [optimalOneToOneMatch] at h
  split at h
  · next hempty =>
    obtain rfl := Except.ok.inj (Option.some.inj h)
    rw [List.isEmpty_iff.1 hempty]
    exact ⟨List.nodup_nil, isOptimal_nil⟩
  · obtain ⟨fuel', rounds, s, hloop, hrounds, hend⟩ := exists_assignmentLoop candidates
    obtain ⟨result, hresult, hmap⟩ := Option.map_eq_some_iff.1 h
    have hmax := assignmentLoop_mono hresult (le_max_left fuel fuel')
    rw [assignmentLoop_mono hloop (le_max_right fuel fuel')] at hmax
    obtain rfl := Option.some.inj hmax
    obtain rfl := Except.ok.inj hmap
    have hperm : (pairOrder (usedCandidates candidates s.graph)).Perm
        (usedCandidates candidates s.graph) := StableSorting.perm_sortBy ..
    refine ⟨hperm.nodup_iff.2 ?_, ?_⟩
    · exact (usedCandidates_sublist candidates s.graph).nodup (nodup_pairOrder hnodup.of_map)
    · have hoptimal := isOptimal_usedCandidates hnodup hwf hrounds hend
      rw [← List.toFinset_eq_of_perm _ _ hperm] at hoptimal
      exact hoptimal

end

end Reconciliation
end MercuryTools
