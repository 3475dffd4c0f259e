import Mathlib.Data.List.Nodup
import Mathlib.Tactic.Common

/-!
# Tables with a key

A table is a list of rows no two of which share a key: a dictionary whose values name their
keys, or a database table with a primary key.  `put` replaces the row with a given key.  The
lemmas say what looking up and replacing do in terms of membership.
-/

namespace KeyedTable

variable {α β κ : Type*} {key : α → κ}

variable {xs : List α} {x y : α} {p : α → Bool} {R : α → β → Prop} {ys : List β} {key' : β → κ}
  {f : α → β}

lemma eq_of_key_eq (h : (xs.map key).Nodup) (hx : x ∈ xs) (hy : y ∈ xs) (heq : key x = key y) :
    x = y :=
  List.inj_on_of_nodup_map h hx hy heq

/-- A table all of whose rows have the same key has at most one. -/
lemma length_le_one_of_key_eq (h : (xs.map key).Nodup)
    (heq : ∀ x y, x ∈ xs → y ∈ xs → key x = key y) : xs.length ≤ 1 := by
  match xs with
  | [] => simp
  | [_] => simp
  | x :: y :: rest =>
      have hxy := heq x y (by simp) (by simp)
      simp [hxy] at h

/-- Looking a row up by its key and a further condition. -/
lemma find?_eq_some (h : (xs.map key).Nodup) {k : κ} (hp : ∀ y, p y = true → key y = k) :
    xs.find? p = some x ↔ x ∈ xs ∧ p x = true := by
  constructor
  · intro hfind
    exact ⟨List.mem_of_find?_eq_some hfind, List.find?_some hfind⟩
  · rintro ⟨hx, hpx⟩
    have hsome : (xs.find? p).isSome = true := List.find?_isSome.2 ⟨x, hx, hpx⟩
    obtain ⟨y, hy⟩ := Option.isSome_iff_exists.1 hsome
    have hpy := List.find?_some hy
    rw [hy, eq_of_key_eq h (List.mem_of_find?_eq_some hy) hx ((hp y hpy).trans (hp x hpx).symm)]

/-! ## Tables related row by row -/

lemma exists_of_forall₂ (h : List.Forall₂ R xs ys) {y : β} (hy : y ∈ ys) : ∃ x ∈ xs, R x y := by
  induction h with
  | nil => simp at hy
  | cons hxy _ ih =>
      rcases List.mem_cons.1 hy with rfl | hy
      · exact ⟨_, List.mem_cons_self, hxy⟩
      · obtain ⟨x, hx, hR⟩ := ih hy
        exact ⟨x, List.mem_cons_of_mem _ hx, hR⟩

/-- Two lists with the same keys in the same order are related row by row where every row of the
one is related to a row of the other that has its key. -/
lemma forall₂_of_map_eq (h : (ys.map key').Nodup) (heq : xs.map key = ys.map key')
    (hR : ∀ x ∈ xs, ∃ y ∈ ys, key' y = key x ∧ R x y) : List.Forall₂ R xs ys := by
  have hrow : List.Forall₂ (fun x y => key x = key' y) xs ys := by
    have hkeys := List.forall₂_eq_eq_eq ▸ heq
    rwa [List.forall₂_map_left_iff, List.forall₂_map_right_iff] at hkeys
  rw [List.forall₂_iff_get] at hrow ⊢
  refine ⟨hrow.1, fun i hx hy => ?_⟩
  obtain ⟨y, hmem, hkey, hxy⟩ := hR _ (List.get_mem xs ⟨i, hx⟩)
  have hsame := eq_of_key_eq h hmem (List.get_mem ys ⟨i, hy⟩) (hkey.trans (hrow.2 i hx hy))
  exact hsame ▸ hxy

lemma map_eq_of_forall₂ {R : α → α → Prop} {ys : List α} (h : List.Forall₂ R xs ys)
    (hkey : ∀ x y, x ∈ xs → R x y → key y = key x) : ys.map key = xs.map key := by
  induction h with
  | nil => rfl
  | cons hxy _ ih =>
      rw [List.map_cons, List.map_cons, hkey _ _ List.mem_cons_self hxy,
        ih fun x y hx => hkey x y (List.mem_cons_of_mem _ hx)]

lemma forall₂_comp {γ : Type*} {S : β → γ → Prop} {T : α → γ → Prop}
    (hcomp : ∀ x y z, R x y → S y z → T x z) {zs : List γ} (h : List.Forall₂ R xs ys)
    (h' : List.Forall₂ S ys zs) : List.Forall₂ T xs zs := by
  induction h generalizing zs with
  | nil =>
      cases h'
      exact .nil
  | cons hxy _ ih =>
      cases h' with
      | cons hyz h' => exact .cons (hcomp _ _ _ hxy hyz) (ih h')

/-! ## Replacing a row -/

variable [DecidableEq κ]

/-- Replace the row with the key of `x` by `x`. -/
def put (key : α → κ) (xs : List α) (x : α) : List α :=
  xs.map fun y => if key y = key x then x else y

@[simp] lemma map_key_put (xs : List α) (x : α) : (put key xs x).map key = xs.map key := by
  rw [put, List.map_map]
  refine List.map_congr_left fun y _ => ?_
  by_cases h : key y = key x <;> simp [h]

lemma mem_put (h : y ∈ put key xs x) : y = x ∨ y ∈ xs ∧ key y ≠ key x := by
  obtain ⟨z, hz, rfl⟩ := List.mem_map.1 h
  by_cases heq : key z = key x
  · exact .inl (by simp [heq])
  · exact .inr (by simpa [heq] using hz)

lemma mem_put_self (hy : y ∈ xs) (heq : key y = key x) : x ∈ put key xs x :=
  List.mem_map.2 ⟨y, hy, by simp [heq]⟩

lemma mem_put_of_ne (hy : y ∈ xs) (hne : key y ≠ key x) : y ∈ put key xs x :=
  List.mem_map.2 ⟨y, hy, by simp [hne]⟩

/-- Replacing the last row where no other has its key. -/
lemma put_concat (hnew : ∀ z ∈ xs, key z ≠ key y) (hkey : key x = key y) :
    put key (xs ++ [x]) y = xs ++ [y] := by
  have hkept : put key xs y = xs := by
    rw [put, List.map_congr_left fun z hz => if_neg (hnew z hz)]
    exact List.map_id' xs
  rw [put, List.map_append, ← put, hkept, List.map_singleton, if_pos hkey]

/-- Two tables related row by row stay so when a row is replaced by one that its counterpart is
related to. -/
lemma forall₂_put {R : α → α → Prop} {ys : List α} (hkey : ∀ x y, x ∈ xs → R x y → key y = key x)
    (h : List.Forall₂ R xs ys) (hnodup : (xs.map key).Nodup) {z : α} (hx : x ∈ xs) (hz : R x z) :
    List.Forall₂ R xs (put key ys z) := by
  rw [put, List.forall₂_map_right_iff]
  refine List.forall₂_iff_zip.2 ⟨h.length_eq, fun {a b} hab => ?_⟩
  have hR : R a b := (List.forall₂_iff_zip.1 h).2 hab
  by_cases heq : key b = key z
  · have ha : a ∈ xs := (List.of_mem_zip hab).1
    have hax : a = x := eq_of_key_eq hnodup ha hx
      (by rw [← hkey a b ha hR, heq, hkey x z hx hz])
    rw [if_pos heq, hax]
    exact hz
  · rw [if_neg heq]
    exact hR

/-- Replacing rows commutes with a translation of rows that keeps the key. -/
lemma map_put (hf : ∀ y, key' (f y) = key y) (xs : List α) (x : α) :
    (put key xs x).map f = put key' (xs.map f) (f x) := by
  simp only [put, List.map_map]
  refine List.map_congr_left fun y _ => ?_
  by_cases h : key y = key x <;> simp [hf, h]

/-- Replacing a row by one that agrees with it under `f` keeps the image under `f`. -/
lemma map_put_of_eq (h : (xs.map key).Nodup) (hy : y ∈ xs) (hkey : key x = key y) (hf : f x = f y) :
    (put key xs x).map f = xs.map f := by
  rw [put, List.map_map]
  refine List.map_congr_left fun z hz => ?_
  by_cases heq : key z = key x
  · obtain rfl := eq_of_key_eq h hz hy (heq.trans hkey)
    simp [heq, hf]
  · simp [heq]

/-- Replacing a row outside a filtered part does not change that part. -/
lemma filter_put_of_not (h : (xs.map key).Nodup) (hy : y ∈ xs) (hkey : key x = key y)
    (hpx : p x = false) (hpy : p y = false) : (put key xs x).filter p = xs.filter p := by
  induction xs with
  | nil => rfl
  | cons z zs ih =>
      rw [List.map_cons, List.nodup_cons] at h
      simp only [put, List.map_cons]
      by_cases heq : key z = key x
      · have hz : z = y := by
          rcases List.mem_cons.1 hy with rfl | hy
          · rfl
          · exact absurd (by rw [heq, hkey]; exact List.mem_map_of_mem hy) h.1
        have hrest : zs.map (fun w => if key w = key x then x else w) = zs := by
          conv_rhs => rw [← List.map_id zs]
          refine List.map_congr_left fun w hw => ?_
          have hne : key w ≠ key x := fun hw' =>
            h.1 (by rw [heq, ← hw']; exact List.mem_map_of_mem hw)
          simp [hne]
        rw [if_pos heq, hrest, List.filter_cons_of_neg (by simpa using hpx),
          List.filter_cons_of_neg (by rw [hz]; simpa using hpy)]
      · have hy' : y ∈ zs := by
          rcases List.mem_cons.1 hy with rfl | hy
          · exact absurd hkey.symm heq
          · exact hy
        rw [if_neg heq, List.filter_cons, List.filter_cons]
        rw [show zs.map (fun w => if key w = key x then x else w) = put key zs x from rfl,
          ih h.2 hy']

/-- Replacing a row inside a filtered part replaces it there. -/
lemma filter_put_of_mem (hp : ∀ y ∈ xs, key y = key x → p y = p x) :
    (put key xs x).filter p = put key (xs.filter p) x := by
  induction xs with
  | nil => rfl
  | cons z zs ih =>
      rw [List.forall_mem_cons] at hp
      have ih' := ih hp.2
      simp only [put, List.map_cons] at ih' ⊢
      by_cases heq : key z = key x
      · rw [if_pos heq, List.filter_cons, List.filter_cons, hp.1 heq]
        by_cases hpx : p x = true
        · simp [hpx, ih', heq]
        · simp [hpx, ih']
      · rw [if_neg heq, List.filter_cons, List.filter_cons]
        by_cases hpz : p z = true
        · simp [hpz, ih', heq]
        · simp [hpz, ih']

/-- The rows with the key of a member are that member alone. -/
lemma filter_key_eq (h : (xs.map key).Nodup) (hx : x ∈ xs) :
    xs.filter (fun y => decide (key y = key x)) = [x] := by
  induction xs with
  | nil => simp at hx
  | cons z zs ih =>
      rw [List.map_cons, List.nodup_cons] at h
      rcases List.mem_cons.1 hx with rfl | hx
      · have hrest : zs.filter (fun y => decide (key y = key x)) = [] := by
          refine List.filter_eq_nil_iff.2 fun y hy heq => h.1 ?_
          rw [← of_decide_eq_true heq]
          exact List.mem_map_of_mem hy
        simp [hrest]
      · have hne : key z ≠ key x := fun heq => h.1 (by rw [heq]; exact List.mem_map_of_mem hx)
        rw [List.filter_cons_of_neg (by simpa using hne), ih h.2 hx]

/-- Replacing the row at a position replaces it by its key. -/
lemma put_eq_set (h : (xs.map key).Nodup) {i : Nat} (hy : xs[i]? = some y) (hkey : key x = key y) :
    put key xs x = xs.set i x := by
  refine List.ext_getElem? fun j => ?_
  rw [put, List.getElem?_map]
  rcases eq_or_ne i j with rfl | hne
  · obtain ⟨hlt, rfl⟩ := List.getElem?_eq_some_iff.1 hy
    simp [hkey, hlt]
  · rw [List.getElem?_set_ne hne]
    cases hz : xs[j]? with
    | none => rfl
    | some z =>
        have hzne : key z ≠ key x := by
          intro heq
          have hlt : i < (xs.map key).length := by
            simpa using (List.getElem?_eq_some_iff.1 hy).1
          exact hne ((List.getElem?_inj hlt h).1 (by simp [hy, hz, heq, hkey]))
        simp [hzne]

end KeyedTable
