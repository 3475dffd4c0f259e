import MercuryTools.Reconciliation.ValidEvidence
import Mathlib.Data.List.Perm.Basic

/-!
# Rows and their duplicates

`_partition_duplicates` of `reconciliation/matcher.py` keeps one row of each group and reports the
others as its duplicates: the rows of a side are the canonical rows and the other rows of the groups
(`canonicalRows_append_perm`), and the evidence for the groups passes its validators
(`partitionDuplicates_eq_ok`).
-/

namespace MercuryTools
namespace Reconciliation

open Checks
open StableSorting (sortBy perm_sortBy)

/-! ## Groups -/

/-- The groups of a list, by the keys of its elements. -/
lemma flatMap_filter_perm {α κ : Type} [DecidableEq κ] (f : α → κ) {keys : List κ}
    (hkeys : keys.Nodup) {xs : List α} (hxs : ∀ x ∈ xs, f x ∈ keys) :
    (keys.flatMap fun key => xs.filter (f · = key)).Perm xs := by
  induction keys generalizing xs with
  | nil =>
    rw [List.eq_nil_iff_forall_not_mem.2 fun x hx => List.not_mem_nil (hxs x hx)]
    exact .nil
  | cons key keys ih =>
    obtain ⟨hkey, hnodup⟩ := List.nodup_cons.1 hkeys
    have hothers : (keys.flatMap fun key => xs.filter (f · = key)) =
        keys.flatMap fun other =>
          (xs.filter fun x => !decide (f x = key)).filter (f · = other) := by
      refine List.flatMap_congr fun other hother => ?_
      rw [List.filter_filter]
      refine List.filter_congr fun x _ => ?_
      by_cases hx : f x = other
      · have hne : other ≠ key := by
          rintro rfl
          exact hkey hother
        simp [hx, hne]
      · simp [hx]
    rw [List.flatMap_cons, hothers]
    refine (List.Perm.append_left _ (ih hnodup fun x hx => ?_)).trans
      (List.filter_append_perm (fun x => decide (f x = key)) xs)
    obtain ⟨hmem, hne⟩ := List.mem_filter.1 hx
    exact (List.mem_cons.1 (hxs x hmem)).resolve_left (by simpa using hne)

/-- Elements that contribute nothing may be left out. -/
lemma flatMap_filter_of_nil {α β : Type} {p : α → Bool} {f : α → List β} {xs : List α}
    (h : ∀ x ∈ xs, p x = false → f x = []) : (xs.filter p).flatMap f = xs.flatMap f := by
  induction xs with
  | nil => rfl
  | cons x xs ih =>
    obtain ⟨hx, hxs⟩ := List.forall_mem_cons.1 h
    rw [List.filter_cons, List.flatMap_cons, ← ih hxs]
    cases hp : p x with
    | true => rfl
    | false =>
      rw [hx hp]
      rfl

/-- The first elements of the groups, and the others. -/
lemma heads_append_tails_perm {α : Type} (groups : List (List α)) :
    (groups.filterMap List.head? ++ groups.flatMap List.tail).Perm groups.flatten := by
  induction groups with
  | nil => exact .nil
  | cons group groups ih =>
    cases group with
    | nil => exact ih
    | cons first group =>
      refine List.Perm.cons first ?_
      exact (List.perm_append_comm_assoc _ _ _).trans (List.Perm.append_left group ih)

variable {rules : TextRules} {rows : List CanonicalTransaction} {group : List CanonicalTransaction}
  {row : CanonicalTransaction} {side : Side}

lemma exists_key_of_mem_groupedRows (h : group ∈ groupedRows rules rows) :
    ∃ key, group.Perm (rows.filter fun row => duplicateKey rules.casefold row = key) ∧
      key ∈ rows.map (duplicateKey rules.casefold) := by
  obtain ⟨key, hkey, rfl⟩ := List.mem_map.1 h
  exact ⟨key, perm_sortBy .., mem_orderedUnique.1 hkey⟩

lemma groupedRows_ne_nil (h : group ∈ groupedRows rules rows) : group ≠ [] := by
  obtain ⟨key, hperm, hkey⟩ := exists_key_of_mem_groupedRows h
  obtain ⟨row, hrow, rfl⟩ := List.mem_map.1 hkey
  have hmem : row ∈ group := hperm.mem_iff.2 (List.mem_filter.2 ⟨hrow, decide_eq_true rfl⟩)
  exact List.ne_nil_of_mem hmem

lemma mem_of_mem_groupedRows (h : group ∈ groupedRows rules rows) (hrow : row ∈ group) :
    row ∈ rows := by
  obtain ⟨key, hperm, -⟩ := exists_key_of_mem_groupedRows h
  exact (List.mem_filter.1 (hperm.mem_iff.1 hrow)).1

lemma nodup_ids_of_mem_groupedRows (hnodup : (rows.map (·.transactionId)).Nodup)
    (h : group ∈ groupedRows rules rows) : (group.map (·.transactionId)).Nodup := by
  obtain ⟨key, hperm, -⟩ := exists_key_of_mem_groupedRows h
  exact ((hperm.map _).nodup_iff).2 (hnodup.sublist (List.filter_sublist.map _))

/-- Every row is in one group. -/
lemma flatten_groupedRows_perm (rules : TextRules) (rows : List CanonicalTransaction) :
    (groupedRows rules rows).flatten.Perm rows := by
  refine List.Perm.trans ?_ (flatMap_filter_perm (duplicateKey rules.casefold)
    (nodup_orderedUnique (rows.map (duplicateKey rules.casefold))) fun row hrow =>
      mem_orderedUnique.2 (List.mem_map_of_mem hrow))
  exact List.Perm.flatMap_left _ fun key _ => perm_sortBy ..

/-! ## Canonical rows -/

/-- The rows of the groups after the first. -/
def otherRows (rules : TextRules) (rows : List CanonicalTransaction) :
    List CanonicalTransaction :=
  (groupedRows rules rows).flatMap List.tail

/-- The rows are the canonical rows and their duplicates. -/
theorem canonicalRows_append_perm (rules : TextRules) (rows : List CanonicalTransaction) :
    (canonicalRows rules rows ++ otherRows rules rows).Perm rows :=
  ((perm_sortBy ..).append_right _).trans
    ((heads_append_tails_perm _).trans (flatten_groupedRows_perm rules rows))

lemma mem_canonicalRows : row ∈ canonicalRows rules rows ↔
    ∃ group ∈ groupedRows rules rows, group.head? = some row := by
  rw [canonicalRows, (perm_sortBy ..).mem_iff, List.mem_filterMap]

lemma canonicalRows_subset (h : row ∈ canonicalRows rules rows) : row ∈ rows :=
  (canonicalRows_append_perm rules rows).mem_iff.1 (List.mem_append_left _ h)

lemma nodup_ids_canonicalRows (hnodup : (rows.map (·.transactionId)).Nodup) :
    ((canonicalRows rules rows).map (·.transactionId)).Nodup := by
  have hperm := (canonicalRows_append_perm rules rows).map (·.transactionId)
  rw [List.map_append] at hperm
  exact (List.nodup_append.1 (hperm.nodup_iff.2 hnodup)).1

/-! ## Duplicates -/

/-- The groups with more than one row. -/
def duplicateGroups (rules : TextRules) (rows : List CanonicalTransaction) :
    List (List CanonicalTransaction) :=
  (groupedRows rules rows).filter (1 < ·.length)

lemma duplicateEvidence_valid (hvalid : ∀ row ∈ rows, row.Valid rules)
    (hnodup : (rows.map (·.transactionId)).Nodup) (h : group ∈ duplicateGroups rules rows) :
    (duplicateEvidence side group).Valid rules := by
  obtain ⟨hgroup, hlength⟩ := List.mem_filter.1 h
  have hrows : ∀ row ∈ group, row.Valid rules := fun row hrow =>
    hvalid row (mem_of_mem_groupedRows hgroup hrow)
  have hne := groupedRows_ne_nil hgroup
  constructor
  · intro transactionId hid
    obtain ⟨row, hrow, rfl⟩ := List.mem_map.1 hid
    exact (hrows row hrow).validId
  · obtain ⟨first, others, rfl⟩ := List.exists_cons_of_ne_nil hne
    exact List.mem_cons_self
  · exact (List.length_map ..).symm ▸ of_decide_eq_true hlength
  · exact nodup_ids_of_mem_groupedRows hnodup hgroup
  · exact validRefs_orderedUnique hrows hne

/-- The evidence of a side. -/
def sideDuplicates (rules : TextRules) (side : Side) (rows : List CanonicalTransaction) :
    List DuplicateEvidence :=
  sortBy (·.transactionIds) ((duplicateGroups rules rows).map (duplicateEvidence side))

/-- Valid rows are partitioned. -/
theorem partitionDuplicates_eq_ok (hvalid : ∀ row ∈ rows, row.Valid rules)
    (hnodup : (rows.map (·.transactionId)).Nodup) (side : Side) :
    partitionDuplicates rules rows side =
      .ok (canonicalRows rules rows, sideDuplicates rules side rows) := by
  have hevidence : (duplicateGroups rules rows).mapM
      (fun ordered => (duplicateEvidence side ordered).validated rules) =
        .ok ((duplicateGroups rules rows).map (duplicateEvidence side)) := by
    rw [mapM_eq_ok, List.forall₂_map_right_iff, List.forall₂_same]
    exact fun group hgroup => (duplicateEvidence_valid hvalid hnodup hgroup).validated
  simp only [partitionDuplicates, bind_eq_ok, pure_eq_ok]
  exact ⟨_, hevidence, rfl⟩

/-- The ids of the rows that are only reported as duplicates. -/
def DuplicateEvidence.otherIds (item : DuplicateEvidence) : List String :=
  item.transactionIds.filter (· ≠ item.canonicalTransactionId)

lemma otherIds_duplicateEvidence (hnodup : (group.map (·.transactionId)).Nodup) :
    (duplicateEvidence side group).otherIds = group.tail.map (·.transactionId) := by
  cases group with
  | nil => rfl
  | cons first group =>
    obtain ⟨hfirst, -⟩ := List.nodup_cons.1 hnodup
    have hrest : ∀ transactionId ∈ group.map (·.transactionId),
        transactionId ≠ first.transactionId := by
      rintro transactionId hid rfl
      exact hfirst hid
    simp only [DuplicateEvidence.otherIds, duplicateEvidence, List.map_cons, List.headD_cons,
      List.tail_cons]
    rw [List.filter_cons_of_neg (by simp), List.filter_eq_self.2 fun x hx => by
      simpa using hrest x hx]

/-- The rows after the first of each group are reported as duplicates. -/
theorem otherIds_sideDuplicates_perm (hnodup : (rows.map (·.transactionId)).Nodup) :
    ((sideDuplicates rules side rows).flatMap (·.otherIds)).Perm
      ((otherRows rules rows).map (·.transactionId)) := by
  have hgroups : ((duplicateGroups rules rows).map (duplicateEvidence side)).flatMap (·.otherIds) =
      (groupedRows rules rows).flatMap fun group => group.tail.map (·.transactionId) := by
    have hshort : ∀ group ∈ groupedRows rules rows, decide (1 < group.length) = false →
        group.tail.map (·.transactionId) = [] := by
      intro group _ hlength
      have hlength : group.length - 1 = 0 := by
        have := of_decide_eq_false hlength
        omega
      rw [List.eq_nil_of_length_eq_zero ((List.length_tail).trans hlength)]
      rfl
    rw [← flatMap_filter_of_nil hshort, List.flatMap_map]
    refine List.flatMap_congr fun group hgroup => ?_
    exact otherIds_duplicateEvidence
      (nodup_ids_of_mem_groupedRows hnodup (List.mem_filter.1 hgroup).1)
  refine ((perm_sortBy ..).flatMap_right _).trans ?_
  rw [hgroups, otherRows, List.map_flatMap]

end Reconciliation
end MercuryTools
