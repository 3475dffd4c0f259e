import Mathlib.Data.List.Basic
import Mathlib.Data.List.Nodup
import Mathlib.Data.List.Perm.Basic

/-!
# Dictionaries

A dictionary is the list of its entries in the order in which their keys were first set.  Setting a
key replaces its entry where there is one.  Everything is said in terms of what a key is looked up
to, so that the order of the entries never matters.
-/

/-- The entries of a dictionary. -/
abbrev Dict (K V : Type*) : Type _ :=
  List (K × V)

namespace Dict

variable {K V W : Type*} [DecidableEq K]

/-- The value of a key. -/
def get (d : Dict K V) (k : K) : Option V :=
  d.lookup k

def keys (d : Dict K V) : List K :=
  d.map Prod.fst

def values (d : Dict K V) : List V :=
  d.map Prod.snd

/-- `del d[k]`, for a key that may be missing. -/
def remove (d : Dict K V) (k : K) : Dict K V :=
  d.filter fun entry => entry.1 ≠ k

/-- `d[k] = v`. -/
def set (d : Dict K V) (k : K) (v : V) : Dict K V :=
  if k ∈ d.keys then d.map fun entry => if entry.1 = k then (k, v) else entry else d ++ [(k, v)]

/-- The entries set one after the other. -/
def setAll (d entries : Dict K V) : Dict K V :=
  entries.foldl (fun d entry => d.set entry.1 entry.2) d

def removeAll (d : Dict K V) (ks : List K) : Dict K V :=
  ks.foldl remove d

/-- Whether the dictionaries have the same keys with the same values. -/
def same [DecidableEq V] (d e : Dict K V) : Bool :=
  (d.keys ++ e.keys).all fun k => d.get k == e.get k

@[simp] lemma get_nil (k : K) : get ([] : Dict K V) k = none := rfl

lemma get_cons (entry : K × V) (d : Dict K V) (k : K) :
    get (entry :: d) k = if entry.1 = k then some entry.2 else d.get k := by
  obtain ⟨k', v⟩ := entry
  unfold get
  by_cases h : k' = k
  · rw [if_pos h, h, List.lookup_cons_self]
  · rw [if_neg h, List.lookup_cons, beq_eq_false_iff_ne.2 (Ne.symm h)]

variable {d entries e : Dict K V} {k : K} {v : V}

lemma get_eq_none : d.get k = none ↔ k ∉ d.keys := by
  induction d with
  | nil => simp [keys]
  | cons entry d ih =>
      rw [get_cons, keys, List.map_cons, List.mem_cons, not_or]
      by_cases h : entry.1 = k
      · simp [h]
      · rw [if_neg h, ih]
        exact ⟨fun hd => ⟨Ne.symm h, hd⟩, And.right⟩

lemma isSome_get : (d.get k).isSome = true ↔ k ∈ d.keys := by
  rw [Option.isSome_iff_ne_none, Ne, get_eq_none, not_not]

lemma get_append (d e : Dict K V) (k : K) : get (d ++ e) k = (d.get k).or (e.get k) := by
  induction d with
  | nil => rfl
  | cons entry d ih =>
      rw [List.cons_append, get_cons, get_cons, ih]
      by_cases h : entry.1 = k
      · rw [if_pos h, if_pos h]
        rfl
      · rw [if_neg h, if_neg h]

/-! ## Changing entries -/

lemma get_remove (d : Dict K V) (k k' : K) :
    (d.remove k).get k' = if k' = k then none else d.get k' := by
  induction d with
  | nil => simp [remove]
  | cons entry d ih =>
      unfold remove at ih ⊢
      rw [List.filter_cons]
      by_cases h : entry.1 = k
      · rw [if_neg (by simpa using h), ih, get_cons]
        by_cases hk : k' = k
        · rw [if_pos hk, if_pos hk]
        · rw [if_neg hk, if_neg hk, if_neg (fun heq => hk (heq.symm.trans h))]
      · rw [if_pos (by simpa using h), get_cons, get_cons, ih]
        by_cases hk : k' = k
        · rw [if_pos hk, if_pos hk, if_neg (fun heq => h (heq.trans hk))]
        · rw [if_neg hk, if_neg hk]

lemma get_replace (d : Dict K V) (k k' : K) (v : V) :
    get (d.map fun entry => if entry.1 = k then (k, v) else entry) k' =
      if k' = k ∧ k ∈ d.keys then some v else d.get k' := by
  induction d with
  | nil => simp [keys]
  | cons entry d ih =>
      have hkeys : k ∈ keys (entry :: d) ↔ k = entry.1 ∨ k ∈ keys d := List.mem_cons
      rw [List.map_cons, get_cons, ih, get_cons]
      simp only [hkeys]
      by_cases h : entry.1 = k
      · by_cases hk : k' = k
        · simp [h, hk]
        · have hne : ¬ k = k' := fun heq => hk heq.symm
          simp [h, hk, hne]
      · by_cases hk : k' = k
        · have hne : ¬ k = entry.1 := fun heq => h heq.symm
          simp [h, hk, hne]
        · simp [h, hk]

lemma get_set (d : Dict K V) (k k' : K) (v : V) :
    (d.set k v).get k' = if k' = k then some v else d.get k' := by
  unfold set
  by_cases hmem : k ∈ d.keys
  · rw [if_pos hmem, get_replace]
    simp [hmem]
  · rw [if_neg hmem, get_append]
    by_cases hk : k' = k
    · rw [hk, get_eq_none.2 hmem, if_pos rfl, get_cons, if_pos rfl]
      rfl
    · rw [if_neg hk, get_cons, if_neg (Ne.symm hk), get_nil, Option.or_none]

lemma get_set_self (d : Dict K V) (k : K) (v : V) : (d.set k v).get k = some v := by
  rw [get_set, if_pos rfl]

lemma get_set_of_ne (d : Dict K V) {k' : K} (v : V) (h : k' ≠ k) :
    (d.set k v).get k' = d.get k' := by
  rw [get_set, if_neg h]

lemma get_removeAll (d : Dict K V) (ks : List K) (k : K) :
    (d.removeAll ks).get k = if k ∈ ks then none else d.get k := by
  induction ks generalizing d with
  | nil => rfl
  | cons k' ks ih =>
      rw [removeAll, List.foldl_cons]
      refine (ih (d.remove k')).trans ?_
      rw [get_remove]
      by_cases hmem : k ∈ ks
      · rw [if_pos hmem, if_pos (List.mem_cons_of_mem _ hmem)]
      · simp only [List.mem_cons, hmem, or_false, if_false]

lemma get_setAll (d : Dict K V) (h : entries.keys.Nodup) (k : K) :
    (d.setAll entries).get k = (entries.get k).or (d.get k) := by
  induction entries generalizing d with
  | nil => rfl
  | cons entry entries ih =>
      rw [keys, List.map_cons, List.nodup_cons] at h
      rw [setAll, List.foldl_cons]
      refine (ih (d.set entry.1 entry.2) h.2).trans ?_
      rw [get_set, get_cons]
      by_cases hk : entry.1 = k
      · rw [if_pos hk.symm, if_pos hk, get_eq_none.2 (hk ▸ h.1)]
        rfl
      · rw [if_neg (Ne.symm hk), if_neg hk]

lemma get_setAll_of_notMem (d : Dict K V) (h : k ∉ entries.keys) :
    (d.setAll entries).get k = d.get k := by
  induction entries generalizing d with
  | nil => rfl
  | cons entry entries ih =>
      rw [keys, List.map_cons, List.mem_cons, not_or] at h
      rw [setAll, List.foldl_cons]
      exact (ih (d.set entry.1 entry.2) h.2).trans (get_set_of_ne d entry.2 h.1)

/-! ## Values -/

lemma mem_values_of_get (h : d.get k = some v) : v ∈ d.values := by
  induction d with
  | nil => cases h
  | cons entry d ih =>
      rw [get_cons] at h
      rw [values, List.map_cons, List.mem_cons]
      by_cases hk : entry.1 = k
      · rw [if_pos hk] at h
        exact .inl (Option.some.inj h).symm
      · rw [if_neg hk] at h
        exact .inr (ih h)

lemma get_mapValues (d : Dict K V) (f : V → W) (k : K) :
    get (d.map fun entry => (entry.1, f entry.2)) k = (d.get k).map f := by
  induction d with
  | nil => rfl
  | cons entry d ih =>
      rw [List.map_cons, get_cons, get_cons, ih]
      by_cases h : entry.1 = k
      · rw [if_pos h, if_pos h]
        rfl
      · rw [if_neg h, if_neg h]

lemma same_iff [DecidableEq V] : d.same e = true ↔ ∀ k, d.get k = e.get k := by
  unfold same
  rw [List.all_eq_true]
  constructor
  · intro h k
    by_cases hmem : k ∈ d.keys ++ e.keys
    · exact beq_iff_eq.1 (h k hmem)
    · rw [List.mem_append, not_or] at hmem
      rw [get_eq_none.2 hmem.1, get_eq_none.2 hmem.2]
  · exact fun h k _ => beq_iff_eq.2 (h k)

lemma get_eq_some_iff (h : d.keys.Nodup) : d.get k = some v ↔ (k, v) ∈ d := by
  induction d with
  | nil => simp
  | cons entry d ih =>
      obtain ⟨k', v'⟩ := entry
      rw [keys, List.map_cons, List.nodup_cons] at h
      rw [get_cons, List.mem_cons]
      by_cases hk : k' = k
      · subst hk
        rw [if_pos rfl, Option.some.injEq, Prod.mk.injEq]
        constructor
        · exact fun hv => .inl ⟨rfl, hv.symm⟩
        · rintro (⟨-, rfl⟩ | hmem)
          · rfl
          · exact absurd (List.mem_map.2 ⟨_, hmem, rfl⟩) h.1
      · rw [if_neg hk, ih h.2, Prod.mk.injEq]
        exact ⟨.inr, fun hmem => hmem.resolve_left fun heq => hk heq.1.symm⟩

/-- The order of the entries does not matter. -/
lemma get_eq_of_perm (hperm : d.Perm e) (h : d.keys.Nodup) (k : K) : d.get k = e.get k := by
  have he : e.keys.Nodup := (hperm.map Prod.fst).nodup_iff.1 h
  refine Option.ext fun v => ?_
  rw [get_eq_some_iff h, get_eq_some_iff he, hperm.mem_iff]

/-! ## Keys -/

lemma set_of_not_mem (h : k ∉ d.keys) (v : V) : d.set k v = d ++ [(k, v)] := by
  rw [set, if_neg h]

omit [DecidableEq K] in
lemma mem_keys_of_mem {entry : K × V} (h : entry ∈ d) : entry.1 ∈ d.keys :=
  List.mem_map_of_mem h

omit [DecidableEq K] in
lemma keys_append (d e : Dict K V) : keys (d ++ e) = d.keys ++ e.keys :=
  List.map_append

lemma nodup_keys_set (h : d.keys.Nodup) (k : K) (v : V) : (d.set k v).keys.Nodup := by
  by_cases hmem : k ∈ d.keys
  · have hkeys : (d.set k v).keys = d.keys := by
      rw [set, if_pos hmem, keys, List.map_map]
      apply List.map_congr_left
      intro entry _
      by_cases hk : entry.1 = k
      · rw [Function.comp_apply, if_pos hk, hk]
      · rw [Function.comp_apply, if_neg hk]
    rw [hkeys]
    exact h
  · rw [set_of_not_mem hmem, keys_append]
    refine List.nodup_append.2 ⟨h, List.nodup_singleton k, ?_⟩
    rintro x hx y hy rfl
    rw [keys, List.map_singleton, List.mem_singleton] at hy
    subst hy
    exact hmem hx

omit [DecidableEq K] in
lemma nodup_keys_of_sublist (hsub : d.Sublist e) (h : e.keys.Nodup) : d.keys.Nodup :=
  h.sublist (hsub.map Prod.fst)

lemma nodup_keys_remove (h : d.keys.Nodup) (k : K) : (d.remove k).keys.Nodup :=
  nodup_keys_of_sublist List.filter_sublist h

lemma nodup_keys_removeAll (h : d.keys.Nodup) (ks : List K) : (d.removeAll ks).keys.Nodup := by
  induction ks generalizing d with
  | nil => exact h
  | cons k ks ih => exact ih (nodup_keys_remove h k)

/-- Entries with new keys are added at the end. -/
lemma setAll_of_nodup (h : (keys (d ++ entries)).Nodup) : d.setAll entries = d ++ entries := by
  induction entries generalizing d with
  | nil => exact (List.append_nil d).symm
  | cons entry entries ih =>
      have hsplit : d ++ entry :: entries = (d ++ [entry]) ++ entries := by
        rw [List.append_assoc, List.singleton_append]
      rw [hsplit] at h ⊢
      have hnew : entry.1 ∉ d.keys := by
        intro hmem
        rw [keys_append, keys_append] at h
        exact List.disjoint_of_nodup_append h.of_append_left hmem List.mem_cons_self
      rw [← ih h, setAll, List.foldl_cons, set_of_not_mem hnew]
      rfl

/-- The entries in another order of the keys. -/
lemma perm_map_get (h : d.keys.Nodup) {ks : List K} (hperm : ks.Perm d.keys) (v : V) :
    (ks.map fun k => (k, (d.get k).getD v)).Perm d := by
  have hentries : d.keys.map (fun k => (k, (d.get k).getD v)) = d := by
    rw [keys, List.map_map]
    refine (List.map_congr_left fun entry hentry => ?_).trans (List.map_id d)
    rw [Function.comp_apply, (get_eq_some_iff h).2 hentry]
    rfl
  have hmap := hperm.map fun k => (k, (d.get k).getD v)
  rwa [hentries] at hmap

lemma get_filter (h : d.keys.Nodup) (p : K × V → Bool) (k : K) :
    get (d.filter p) k = (d.get k).filter fun v => p (k, v) := by
  refine Option.ext fun v => ?_
  rw [get_eq_some_iff (nodup_keys_of_sublist List.filter_sublist h), List.mem_filter,
    Option.filter_eq_some_iff, get_eq_some_iff h]

end Dict
