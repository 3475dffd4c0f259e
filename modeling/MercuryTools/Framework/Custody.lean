import MercuryTools.Framework.Dictionaries
import Mathlib.Tactic.Common

/-!
# Items that are held by owners

Owners list the identifiers of the items that they hold, and a store maps the identifiers to the
items.  `Held` says that the store contains exactly the items that are listed, each of them listed
once, and that an item fits its owner.  One owner's list may be replaced at a time
(`Held.replace`): the items that it lists no longer leave the store, and those that are new to it
must not be in the store.  `Held.take` and `Held.keep` are for owners and items in dictionaries.

Nothing here refers to a particular system.
-/

namespace Custody

variable {Owner Item Id : Type*}

/-- The store contains exactly the items that some owner lists; `Fits` is what an item has to be
for its owner. -/
structure Held (ids : Owner → List Id) (items : Id → Option Item)
    (Fits : Owner → Id → Item → Prop) : Prop where
  listed : ∀ owner, ∀ id ∈ ids owner, ∃ item, items id = some item ∧ Fits owner id item
  stored : ∀ id item, items id = some item → ∃ owner, id ∈ ids owner
  once : ∀ owner owner' id, id ∈ ids owner → id ∈ ids owner' → owner = owner'
  nodup : ∀ owner, (ids owner).Nodup

namespace Held

variable {ids ids' : Owner → List Id} {items items' : Id → Option Item}
  {Fits Fits' : Owner → Id → Item → Prop}

lemma empty : Held (fun _ : Owner => []) (fun _ : Id => (none : Option Item)) Fits where
  listed := nofun
  stored := nofun
  once := nofun
  nodup _ := .nil

lemma fits (h : Held ids items Fits) {owner : Owner} {id : Id} {item : Item}
    (hmem : id ∈ ids owner) (hitem : items id = some item) : Fits owner id item := by
  obtain ⟨item', hitem', hfits⟩ := h.listed owner id hmem
  rw [hitem] at hitem'
  rwa [Option.some.inj hitem']

lemma isSome_iff (h : Held ids items Fits) (id : Id) :
    (items id).isSome = true ↔ ∃ owner, id ∈ ids owner := by
  rw [Option.isSome_iff_exists]
  constructor
  · rintro ⟨item, hitem⟩
    exact h.stored id item hitem
  · rintro ⟨owner, hmem⟩
    obtain ⟨item, hitem, -⟩ := h.listed owner id hmem
    exact ⟨item, hitem⟩

/-- What fits may be said otherwise. -/
lemma imp (h : Held ids items Fits) (hfits : ∀ owner id item, id ∈ ids owner →
    Fits owner id item → Fits' owner id item) : Held ids items Fits' where
  listed owner id hmem := by
    obtain ⟨item, hitem, hfit⟩ := h.listed owner id hmem
    exact ⟨item, hitem, hfits owner id item hmem hfit⟩
  stored := h.stored
  once := h.once
  nodup := h.nodup

/-- One owner's list is replaced. -/
theorem replace (h : Held ids items Fits) (owner : Owner)
    (hother : ∀ other, other ≠ owner → ids' other = ids other)
    (hnew : ∀ id ∈ ids' owner, ∃ item, items' id = some item ∧ Fits' owner id item)
    (hdropped : ∀ id ∈ ids owner, id ∉ ids' owner → items' id = none)
    (hrest : ∀ id, id ∉ ids owner → id ∉ ids' owner → items' id = items id)
    (hfresh : ∀ id ∈ ids' owner, id ∈ ids owner ∨ items id = none)
    (hnodup : (ids' owner).Nodup)
    (hfits : ∀ other id item, other ≠ owner → Fits other id item → Fits' other id item) :
    Held ids' items' Fits' := by
  -- what another owner lists is not among the new items
  have hapart : ∀ other, other ≠ owner → ∀ id ∈ ids' other, id ∈ ids other ∧ id ∉ ids owner ∧
      id ∉ ids' owner := by
    intro other hne id hmem
    rw [hother other hne] at hmem
    have hnotold : id ∉ ids owner := fun hold => hne (h.once _ _ _ hmem hold)
    refine ⟨hmem, hnotold, fun hmine => ?_⟩
    rcases hfresh id hmine with hold | hnone
    · exact hnotold hold
    · obtain ⟨item, hitem, -⟩ := h.listed other id hmem
      rw [hnone] at hitem
      cases hitem
  refine ⟨fun other id hmem => ?_, fun id item hitem => ?_, fun a b id ha hb => ?_,
    fun other => ?_⟩
  · by_cases hne : other = owner
    · subst hne
      exact hnew id hmem
    · obtain ⟨hlisted, hnotold, hnotnew⟩ := hapart other hne id hmem
      obtain ⟨item, hitem, hfit⟩ := h.listed other id hlisted
      exact ⟨item, (hrest id hnotold hnotnew).trans hitem, hfits other id item hne hfit⟩
  · by_cases hmine : id ∈ ids' owner
    · exact ⟨owner, hmine⟩
    · by_cases hold : id ∈ ids owner
      · rw [hdropped id hold hmine] at hitem
        cases hitem
      · rw [hrest id hold hmine] at hitem
        obtain ⟨other, hmem⟩ := h.stored id item hitem
        have hne : other ≠ owner := by
          rintro rfl
          exact hold hmem
        exact ⟨other, (hother other hne).symm ▸ hmem⟩
  · by_cases hao : a = owner
    · by_cases hbo : b = owner
      · exact hao.trans hbo.symm
      · exact absurd (hao ▸ ha) (hapart b hbo id hb).2.2
    · by_cases hbo : b = owner
      · exact absurd (hbo ▸ hb) (hapart a hao id ha).2.2
      · exact h.once a b id (hapart a hao id ha).1 (hapart b hbo id hb).1
  · by_cases hne : other = owner
    · exact hne ▸ hnodup
    · rw [hother other hne]
      exact h.nodup other

end Held

/-! ## Dictionaries of owners -/

section

variable {Record : Type*} [DecidableEq Owner]

/-- The items that the owner's record lists; an owner without a record lists none. -/
def listedBy (idsOf : Record → List Id) (owners : Dict Owner Record) (owner : Owner) : List Id :=
  ((owners.get owner).map idsOf).getD []

variable {idsOf : Record → List Id} {owners : Dict Owner Record} {owner : Owner} {record : Record}

lemma listedBy_of_get (h : owners.get owner = some record) :
    listedBy idsOf owners owner = idsOf record := by
  rw [listedBy, h]
  rfl

lemma listedBy_of_none (h : owners.get owner = none) : listedBy idsOf owners owner = [] := by
  rw [listedBy, h]
  rfl

lemma exists_of_mem_listedBy {id : Id} (h : id ∈ listedBy idsOf owners owner) :
    ∃ record, owners.get owner = some record ∧ id ∈ idsOf record := by
  cases hget : owners.get owner with
  | none =>
      rw [listedBy_of_none hget] at h
      cases h
  | some record =>
      rw [listedBy_of_get hget] at h
      exact ⟨record, rfl, h⟩

lemma listedBy_set_self : listedBy idsOf (owners.set owner record) owner = idsOf record :=
  listedBy_of_get (Dict.get_set_self _ _ _)

lemma listedBy_set_of_ne {other : Owner} (h : other ≠ owner) :
    listedBy idsOf (owners.set owner record) other = listedBy idsOf owners other := by
  rw [listedBy, listedBy, Dict.get_set_of_ne _ _ h]

namespace Held

variable [DecidableEq Id] {items items' : Dict Id Item} {Fits Fits' : Owner → Id → Item → Prop}

/-- An owner gives up what it holds and takes the entries. -/
theorem take (h : Held (listedBy idsOf owners) items.get Fits) (entries : Dict Id Item)
    (hids : idsOf record = entries.keys) (hnodup : entries.keys.Nodup)
    (hitems : ∀ id, items'.get id =
      (entries.get id).or (if id ∈ listedBy idsOf owners owner then none else items.get id))
    (hfresh : ∀ id ∈ entries.keys, id ∈ listedBy idsOf owners owner ∨ items.get id = none)
    (hnew : ∀ id item, (id, item) ∈ entries → Fits' owner id item)
    (hfits : ∀ other id item, other ≠ owner → Fits other id item → Fits' other id item) :
    Held (listedBy idsOf (owners.set owner record)) items'.get Fits' := by
  have hown : listedBy idsOf (owners.set owner record) owner = entries.keys :=
    listedBy_set_self.trans hids
  refine h.replace owner (fun other hne => listedBy_set_of_ne hne) ?_ ?_ ?_ ?_ ?_ hfits
  · intro id hmem
    rw [hown] at hmem
    obtain ⟨item, hitem⟩ := Option.isSome_iff_exists.1 (Dict.isSome_get.2 hmem)
    refine ⟨item, ?_, hnew id item ((Dict.get_eq_some_iff hnodup).1 hitem)⟩
    rw [hitems, hitem]
    rfl
  · intro id hold hnot
    rw [hown] at hnot
    rw [hitems, Dict.get_eq_none.2 hnot, if_pos hold]
    rfl
  · intro id hnotold hnot
    rw [hown] at hnot
    rw [hitems, Dict.get_eq_none.2 hnot, if_neg hnotold]
    rfl
  · rw [hown]
    exact hfresh
  · rw [hown]
    exact hnodup

/-- The record of an owner changes, but not what it lists. -/
theorem keep (h : Held (listedBy idsOf owners) items.get Fits)
    (hids : idsOf record = listedBy idsOf owners owner)
    (hfits : ∀ other id item, Fits other id item → Fits' other id item) :
    Held (listedBy idsOf (owners.set owner record)) items.get Fits' := by
  have hsame : listedBy idsOf (owners.set owner record) = listedBy idsOf owners := by
    funext other
    by_cases hne : other = owner
    · rw [hne, listedBy_set_self, hids]
    · exact listedBy_set_of_ne hne
  rw [hsame]
  exact h.imp fun other id item _ hfit => hfits other id item hfit

end Held

end

end Custody
