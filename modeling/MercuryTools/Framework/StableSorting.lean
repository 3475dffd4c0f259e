import Mathlib.Data.List.Sort
import Mathlib.Order.Defs.LinearOrder

/-!
# Sorting by a key

A sort by a key that keeps the order of elements with the same key.  The first element of the sorted
list with a property is the first of those with the least key, so which one it is depends on the
order of the list only among elements with that key.
-/

namespace StableSorting

variable {α κ : Type*} [LinearOrder κ] {key : α → κ} {p : α → Bool} {x : α} {xs ys : List α}

/-- `sort(key=key)` -/
def sortBy (key : α → κ) (xs : List α) : List α :=
  xs.insertionSort fun x y => key x ≤ key y

/-- An element with the property whose key is the least of all such elements. -/
structure IsLeast (key : α → κ) (p : α → Bool) (xs : List α) (x : α) : Prop where
  mem : x ∈ xs
  holds : p x = true
  le : ∀ y ∈ xs, p y = true → key x ≤ key y

lemma perm_sortBy (key : α → κ) (xs : List α) : (sortBy key xs).Perm xs :=
  List.perm_insertionSort _ xs

lemma pairwise_sortBy (key : α → κ) (xs : List α) :
    (sortBy key xs).Pairwise fun x y => key x ≤ key y := by
  have : Std.Total fun x y : α => key x ≤ key y := ⟨fun x y => le_total (key x) (key y)⟩
  have : IsTrans α fun x y => key x ≤ key y := ⟨fun _ _ _ => le_trans⟩
  exact List.pairwise_insertionSort _ xs

lemma IsLeast.perm (h : IsLeast key p xs x) (hperm : xs.Perm ys) : IsLeast key p ys x where
  mem := hperm.mem_iff.1 h.mem
  holds := h.holds
  le y hy := h.le y (hperm.mem_iff.2 hy)

lemma find?_orderedInsert (hx : p x = true) (hle : ∀ y ∈ xs, p y = true → key x ≤ key y) :
    (xs.orderedInsert (fun x y => key x ≤ key y) x).find? p = some x := by
  induction xs with
  | nil => rw [List.orderedInsert, List.find?_cons_of_pos hx]
  | cons y ys ih =>
      obtain ⟨hy, hys⟩ := List.forall_mem_cons.1 hle
      rw [List.orderedInsert]
      split
      · rw [List.find?_cons_of_pos hx]
      next hlt => rw [List.find?_cons_of_neg fun hpy => hlt (hy hpy), ih hys]

/-- Where the first element is a least one, it is found. -/
theorem find?_sortBy_cons (h : IsLeast key p (x :: xs) x) :
    (sortBy key (x :: xs)).find? p = some x :=
  find?_orderedInsert h.holds fun y hy =>
    h.le y (List.mem_cons_of_mem x ((perm_sortBy key xs).mem_iff.1 hy))

/-- What is found is a least one. -/
theorem isLeast_of_find? (h : (sortBy key xs).find? p = some x) : IsLeast key p xs x := by
  obtain ⟨hx, before, after, heq, hbefore⟩ := List.find?_eq_some_iff_append.1 h
  have hmem : ∀ y, y ∈ xs ↔ y ∈ before ++ x :: after := fun y =>
    heq ▸ (perm_sortBy key xs).mem_iff.symm
  refine ⟨(hmem x).2 (List.mem_append_right _ List.mem_cons_self), hx, fun y hy hpy => ?_⟩
  have hsorted := pairwise_sortBy key xs
  rw [heq] at hsorted
  rcases List.mem_append.1 ((hmem y).1 hy) with hy | hy
  · exact absurd hpy (by simpa using hbefore y hy)
  · rcases List.mem_cons.1 hy with rfl | hy
    · exact le_refl _
    · exact (List.pairwise_cons.1 (List.pairwise_append.1 hsorted).2.1).1 y hy

/-- The keys of the sorted elements do not depend on the order of the list. -/
theorem map_key_filter_sortBy (hperm : xs.Perm ys) :
    ((sortBy key xs).filter p).map key = ((sortBy key ys).filter p).map key := by
  have hsorted : ∀ zs, (((sortBy key zs).filter p).map key).Pairwise (· ≤ ·) := fun zs =>
    List.pairwise_map.2 ((pairwise_sortBy key zs).filter p)
  have hsort : (sortBy key xs).Perm (sortBy key ys) :=
    ((perm_sortBy key xs).trans hperm).trans (perm_sortBy key ys).symm
  exact ((hsort.filter p).map key).eq_of_pairwise (fun x y _ _ => le_antisymm) (hsorted xs)
    (hsorted ys)

/-- Where the keys tell the elements apart, the order of the elements before does not matter. -/
theorem sortBy_eq_of_perm (hperm : xs.Perm ys) (hinj : ∀ x ∈ xs, ∀ y ∈ xs, key x = key y → x = y) :
    sortBy key xs = sortBy key ys := by
  have hsort : (sortBy key xs).Perm (sortBy key ys) :=
    ((perm_sortBy key xs).trans hperm).trans (perm_sortBy key ys).symm
  refine hsort.eq_of_pairwise (fun x y hx hy hxy hyx => ?_) (pairwise_sortBy key xs)
    (pairwise_sortBy key ys)
  exact hinj x ((perm_sortBy key xs).mem_iff.1 hx) y
    (hperm.mem_iff.2 ((perm_sortBy key ys).mem_iff.1 hy)) (le_antisymm hxy hyx)

end StableSorting
