import Mathlib.Algebra.BigOperators.Group.Finset.Piecewise
import Mathlib.Algebra.Order.BigOperators.Group.Finset
import Mathlib.Tactic.Linarith
import Mathlib.Tactic.Ring

/-!
# One-to-one sets of pairs and prices of their members

Pairs have a left and a right member, and a set of pairs is one-to-one if no two of them share a
member.  Prices of the members under which every pair outside of a one-to-one set costs at least the
difference of the prices, and every pair of the set at most, show that the set is large and cheap
(`Prices.le`): prices without costs bound the size of the others (`Prices.card_le`), and where the
sizes are equal they bound the costs (`Prices.sum_le`).
-/

namespace Matchings

variable {ι α β κ : Type*}

/-- No two pairs share a member. -/
structure IsOneToOne (left : ι → α) (right : ι → β) (pairs : Finset ι) : Prop where
  left : Set.InjOn left pairs
  right : Set.InjOn right pairs

namespace IsOneToOne

variable {left : ι → α} {right : ι → β} {pairs other third : Finset ι}

lemma mono (h : IsOneToOne left right pairs) (hsubset : other ⊆ pairs) :
    IsOneToOne left right other :=
  ⟨h.left.mono (Finset.coe_subset.2 hsubset), h.right.mono (Finset.coe_subset.2 hsubset)⟩

variable [DecidableEq ι]

end IsOneToOne

/-- Prices of the members for a set of eligible pairs.  The members of its pairs are priced beyond
`start` and `finish`, and the other members are not. -/
structure Prices [DecidableEq α] [DecidableEq β] (left : ι → α) (right : ι → β) (cost : ι → ℤ)
    (eligible pairs : Finset ι) (leftPrice : α → ℤ) (rightPrice : β → ℤ) (start finish : ℤ) : Prop where
  outside : ∀ e ∈ eligible, e ∉ pairs → 0 ≤ cost e + leftPrice (left e) - rightPrice (right e)
  inside : ∀ e ∈ pairs, cost e + leftPrice (left e) - rightPrice (right e) ≤ 0
  leftFree : ∀ e ∈ eligible, left e ∉ pairs.image left → leftPrice (left e) ≤ start
  leftMatched : ∀ e ∈ pairs, start ≤ leftPrice (left e)
  rightFree : ∀ e ∈ eligible, right e ∉ pairs.image right → finish ≤ rightPrice (right e)
  rightMatched : ∀ e ∈ pairs, rightPrice (right e) ≤ finish

/-- A sum over a set without positive terms, and one whose other terms are not negative. -/
lemma sum_le_sum_of_signs [DecidableEq κ] {f : κ → ℤ} {s t : Finset κ} (hs : ∀ x ∈ s, f x ≤ 0)
    (ht : ∀ x ∈ t, x ∉ s → 0 ≤ f x) : ∑ x ∈ s, f x ≤ ∑ x ∈ t, f x := by
  have hleft : ∑ x ∈ s \ t, f x ≤ 0 :=
    Finset.sum_nonpos fun x hx => hs x (Finset.mem_sdiff.1 hx).1
  have hright : 0 ≤ ∑ x ∈ t \ s, f x := by
    refine Finset.sum_nonneg fun x hx => ?_
    obtain ⟨hxt, hxs⟩ := Finset.mem_sdiff.1 hx
    exact ht x hxt hxs
  have hsplit := Finset.sum_inter_add_sum_sdiff s t f
  have hsplit' := Finset.sum_inter_add_sum_sdiff t s f
  rw [Finset.inter_comm] at hsplit'
  linarith

section

variable {left : ι → α} {right : ι → β} {cost : ι → ℤ} {eligible pairs other : Finset ι}
  {leftPrice : α → ℤ} {rightPrice : β → ℤ} {start finish : ℤ}

/-- The cost of a set, by the prices. -/
lemma sum_cost_eq (left : ι → α) (right : ι → β) (leftPrice : α → ℤ) (rightPrice : β → ℤ)
    (start finish : ℤ)
    (other : Finset ι) :
    ∑ e ∈ other, cost e =
      ∑ e ∈ other, (cost e + leftPrice (left e) - rightPrice (right e)) +
        ∑ e ∈ other, (start - leftPrice (left e)) + ∑ e ∈ other, (rightPrice (right e) - finish) +
          other.card * (finish - start) := by
  rw [← nsmul_eq_mul, ← Finset.sum_const, ← Finset.sum_add_distrib, ← Finset.sum_add_distrib,
    ← Finset.sum_add_distrib]
  exact Finset.sum_congr rfl fun e _ => by ring

lemma IsOneToOne.sum_left [DecidableEq α] (h : IsOneToOne left right other) (f : α → ℤ) :
    ∑ e ∈ other, f (left e) = ∑ x ∈ other.image left, f x :=
  (Finset.sum_image h.left).symm

lemma IsOneToOne.sum_right [DecidableEq β] (h : IsOneToOne left right other) (f : β → ℤ) :
    ∑ e ∈ other, f (right e) = ∑ x ∈ other.image right, f x :=
  (Finset.sum_image h.right).symm

section

variable [DecidableEq α] [DecidableEq β]

/-- How the costs of two one-to-one sets compare. -/
theorem Prices.le (h : Prices left right cost eligible pairs leftPrice rightPrice start finish)
    (hpairs : IsOneToOne left right pairs) (hother : IsOneToOne left right other)
    (heligible : other ⊆ eligible) :
    ((other.card : ℤ) - pairs.card) * (finish - start) ≤
      ∑ e ∈ other, cost e - ∑ e ∈ pairs, cost e := by
  classical
  have hcost : ∑ e ∈ pairs, (cost e + leftPrice (left e) - rightPrice (right e)) ≤
      ∑ e ∈ other, (cost e + leftPrice (left e) - rightPrice (right e)) :=
    sum_le_sum_of_signs h.inside fun e he hnot => h.outside e (heligible he) hnot
  have hleft : ∑ e ∈ pairs, (start - leftPrice (left e)) ≤
      ∑ e ∈ other, (start - leftPrice (left e)) := by
    rw [hpairs.sum_left (start - leftPrice ·), hother.sum_left (start - leftPrice ·)]
    refine sum_le_sum_of_signs ?_ ?_ <;> simp only [Finset.forall_mem_image]
    · intro e he
      have hmatched := h.leftMatched e he
      omega
    · intro e he hnot
      have hfree := h.leftFree e (heligible he) hnot
      omega
  have hright : ∑ e ∈ pairs, (rightPrice (right e) - finish) ≤
      ∑ e ∈ other, (rightPrice (right e) - finish) := by
    rw [hpairs.sum_right (rightPrice · - finish), hother.sum_right (rightPrice · - finish)]
    refine sum_le_sum_of_signs ?_ ?_ <;> simp only [Finset.forall_mem_image]
    · intro e he
      have hmatched := h.rightMatched e he
      omega
    · intro e he hnot
      have hfree := h.rightFree e (heligible he) hnot
      omega
  rw [sum_cost_eq left right leftPrice rightPrice start finish other,
    sum_cost_eq left right leftPrice rightPrice start finish pairs]
  linarith

/-- Prices without costs: no one-to-one set is larger. -/
theorem Prices.card_le
    (h : Prices left right (fun _ => 0) eligible pairs leftPrice rightPrice start finish)
    (hlt : start < finish) (hpairs : IsOneToOne left right pairs)
    (hother : IsOneToOne left right other) (heligible : other ⊆ eligible) :
    other.card ≤ pairs.card := by
  have hle := h.le hpairs hother heligible
  rw [Finset.sum_const_zero, Finset.sum_const_zero, sub_zero] at hle
  by_contra hcard
  have hpos : 0 < ((other.card : ℤ) - pairs.card) * (finish - start) :=
    mul_pos (by omega) (by omega)
  omega

/-- No one-to-one set of the same size is cheaper. -/
theorem Prices.sum_le
    (h : Prices left right cost eligible pairs leftPrice rightPrice start finish)
    (hpairs : IsOneToOne left right pairs) (hother : IsOneToOne left right other)
    (heligible : other ⊆ eligible) (hcard : other.card = pairs.card) :
    ∑ e ∈ pairs, cost e ≤ ∑ e ∈ other, cost e := by
  have hle := h.le hpairs hother heligible
  rw [hcard, sub_self, zero_mul] at hle
  exact sub_nonneg.1 hle

end

end

end Matchings
