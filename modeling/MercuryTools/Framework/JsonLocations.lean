import Mathlib.Data.List.Induction
import MercuryTools.Framework.Json

/-!
# Locations in a value

A location is the sequence of keys and indices that leads from a value to a value in it.  Writing
one marker over a set of locations (`overwrite`) leaves what is outside as it is
(`at?_overwrite`), forgets what is inside (`overwrite_eq_of_agreeOutside`), and can be done in
parts (`overwrite_overwrite`).
-/

namespace Json

inductive Step where
  | key (name : String)
  | index (i : Nat)
  deriving DecidableEq, Repr

abbrev Location := List Step

/-- The value one step below. -/
def child? : Json → Step → Option Json
  | .obj fields, .key name => fields.lookup name
  | .arr items, .index i => items[i]?
  | _, _ => none

/-- The value at a location. -/
def at? : Json → Location → Option Json
  | value, [] => some value
  | value, step :: location => (value.child? step).bind fun x => x.at? location

/-- What a value is without the values in it. -/
inductive Head where
  | scalar (value : Json)
  | items (count : Nat)
  | fields (names : List String)

def head : Json → Head
  | .arr items => .items items.length
  | .obj fields => .fields (fields.map (·.1))
  | value => .scalar value

/-- There is a value one step below. -/
def Head.hasStep : Head → Step → Bool
  | .items count, .index i => i < count
  | .fields names, .key name => names.contains name
  | _, _ => false

/-- A set of locations, as seen from one step below. -/
def under (step : Step) (q : Location → Bool) (location : Location) : Bool :=
  q (step :: location)

mutual

/-- The marker at every location of the set. -/
def overwrite (marker : Json) : (Location → Bool) → Json → Json
  | q, .arr items => if q [] then marker else .arr (overwriteItems marker q 0 items)
  | q, .obj fields => if q [] then marker else .obj (overwriteFields marker q fields)
  | q, value => if q [] then marker else value

def overwriteItems (marker : Json) (q : Location → Bool) (i : Nat) : List Json → List Json
  | [] => []
  | x :: items => overwrite marker (under (.index i) q) x :: overwriteItems marker q (i + 1) items

def overwriteFields (marker : Json) (q : Location → Bool) :
    List (String × Json) → List (String × Json)
  | [] => []
  | (key, x) :: fields =>
      (key, overwrite marker (under (.key key) q) x) :: overwriteFields marker q fields

end

/-- The same outside a set of locations and what is below them. -/
def AgreeOutside (q : Location → Bool) (value value' : Json) : Prop :=
  ∀ location, (∀ start, start <+: location → q start = false) →
    (value.at? location).map head = (value'.at? location).map head

section

variable {marker value value' : Json} {p q : Location → Bool} {step : Step} {location : Location}
  {fields : List (String × Json)} {items : List Json}

/-! ## Items and fields -/

lemma length_overwriteItems (i : Nat) :
    (overwriteItems marker q i items).length = items.length := by
  induction items generalizing i with
  | nil => rfl
  | cons x items ih => rw [overwriteItems, List.length_cons, List.length_cons, ih]

lemma getElem?_overwriteItems (i j : Nat) : (overwriteItems marker q i items)[j]? =
    items[j]?.map (overwrite marker (under (.index (i + j)) q)) := by
  induction items generalizing i j with
  | nil => rfl
  | cons x items ih =>
      rw [overwriteItems]
      cases j with
      | zero => rfl
      | succ j => rw [List.getElem?_cons_succ, List.getElem?_cons_succ, ih, Nat.succ_add_eq_add_succ]

lemma overwriteFields_eq_map : overwriteFields marker q fields =
    fields.map fun field => (field.1, overwrite marker (under (.key field.1) q) field.2) := by
  induction fields with
  | nil => rfl
  | cons field fields ih => rw [overwriteFields, ih, List.map_cons]

lemma lookup_overwriteFields (name : String) : (overwriteFields marker q fields).lookup name =
    (fields.lookup name).map (overwrite marker (under (.key name) q)) := by
  induction fields with
  | nil => rfl
  | cons field fields ih =>
      rw [overwriteFields, List.lookup_cons, List.lookup_cons, ih]
      cases h : name == field.1 with
      | true => rw [Option.map_some, beq_iff_eq.1 h]
      | false => rfl

lemma overwrite_arr (h : q [] = false) :
    overwrite marker q (.arr items) = .arr (overwriteItems marker q 0 items) := by
  rw [overwrite, if_neg (by simp [h])]

lemma overwrite_obj (h : q [] = false) : overwrite marker q (.obj fields) =
    .obj (fields.map fun field =>
      (field.1, overwrite marker (under (.key field.1) q) field.2)) := by
  rw [overwrite, if_neg (by simp [h]), overwriteFields_eq_map]

/-- Items are compared one by one. -/
lemma overwriteItems_congr {f : Json → Json}
    (h : ∀ i x, items[i]? = some x → overwrite marker (under (.index i) q) x = f x) :
    overwriteItems marker q 0 items = items.map f := by
  refine List.ext_getElem? fun i => ?_
  rw [getElem?_overwriteItems, Nat.zero_add, List.getElem?_map]
  cases hitem : items[i]? with
  | none => rfl
  | some x => rw [Option.map_some, Option.map_some, h i x hitem]

/-! ## The value at a location -/

lemma at?_cons (value : Json) (step : Step) (location : Location) :
    value.at? (step :: location) = (value.child? step).bind fun x => x.at? location := by
  rw [at?]

lemma at?_append (value : Json) (location rest : Location) :
    value.at? (location ++ rest) = (value.at? location).bind fun x => x.at? rest := by
  induction location generalizing value with
  | nil =>
      rw [List.nil_append, at?]
      rfl
  | cons step location ih =>
      rw [List.cons_append, at?_cons, at?_cons]
      cases value.child? step with
      | none => rfl
      | some x => exact ih x

/-- Where there is a value, there are the values on the way. -/
lemma isSome_at?_of_prefix {start : Location} (hstart : start <+: location)
    (h : (value.at? location).isSome) : (value.at? start).isSome := by
  obtain ⟨rest, rfl⟩ := hstart
  rw [at?_append] at h
  exact Option.isSome_of_isSome_bind h

lemma isSome_child? (value : Json) (step : Step) :
    (value.child? step).isSome = value.head.hasStep step := by
  have hlookup : ∀ (fields : List (String × Json)) (name : String),
      (fields.lookup name).isSome = (fields.map (·.1)).contains name := by
    intro fields name
    rw [Bool.eq_iff_iff, List.lookup_isSome_iff, List.contains_iff_mem, List.mem_map]
    constructor
    · rintro ⟨field, hfield, hname⟩
      exact ⟨field, hfield, (beq_iff_eq.1 hname).symm⟩
    · rintro ⟨field, hfield, hname⟩
      exact ⟨field, hfield, beq_iff_eq.2 hname.symm⟩
  cases value with
  | arr items =>
      cases step with
      | key name => rfl
      | index i =>
          rw [Bool.eq_iff_iff, child?, head, Head.hasStep, decide_eq_true_eq]
          simp
  | obj fields =>
      cases step with
      | key name => exact hlookup fields name
      | index i => rfl
  | _ => cases step <;> rfl

/-! ## Writing the marker -/

lemma overwrite_of_root (h : q [] = true) : overwrite marker q value = marker := by
  cases value <;> rw [overwrite, if_pos h] <;> simp

lemma head_overwrite (h : q [] = false) : (overwrite marker q value).head = value.head := by
  have hne : ¬ q [] = true := by simp [h]
  cases value with
  | arr items =>
      rw [overwrite, if_neg hne, head, head, length_overwriteItems]
  | obj fields =>
      rw [overwrite, if_neg hne, head, head, overwriteFields_eq_map, List.map_map]
      rfl
  | _ => simp [overwrite, h]

/-- One step below, the rest of the set is left. -/
lemma child?_overwrite (h : q [] = false) (step : Step) :
    (overwrite marker q value).child? step =
      (value.child? step).map (overwrite marker (under step q)) := by
  have hne : ¬ q [] = true := by simp [h]
  cases value with
  | arr items =>
      rw [overwrite, if_neg hne]
      cases step with
      | key name => rfl
      | index i => rw [child?, child?, getElem?_overwriteItems, Nat.zero_add]
  | obj fields =>
      rw [overwrite, if_neg hne]
      cases step with
      | key name => rw [child?, child?, lookup_overwriteFields]
      | index i => rfl
  | _ => cases step <;> simp [overwrite, h, child?]

/-- What is outside the set stays, with the rest of the set below it. -/
theorem at?_overwrite (h : ∀ start, start <+: location → q start = false) :
    (overwrite marker q value).at? location =
      (value.at? location).map (overwrite marker fun rest => q (location ++ rest)) := by
  induction location generalizing value q with
  | nil => rfl
  | cons step location ih =>
      have hroot : q [] = false := h [] List.nil_prefix
      have hunder : ∀ start, start <+: location → under step q start = false :=
        fun start hstart => h _ (List.cons_prefix_cons.2 ⟨rfl, hstart⟩)
      rw [at?_cons, at?_cons, child?_overwrite hroot]
      cases value.child? step with
      | none => rfl
      | some x => exact ih hunder

/-- The marker is at the first location of the set on the way to one of its locations. -/
theorem exists_at?_overwrite (hq : q location = true) (h : (value.at? location).isSome) :
    ∃ start, start <+: location ∧ q start = true ∧
      (overwrite marker q value).at? start = some marker := by
  induction location generalizing value q with
  | nil => exact ⟨[], List.nil_prefix, hq, by rw [at?, overwrite_of_root hq]⟩
  | cons step location ih =>
      cases hroot : q [] with
      | true => exact ⟨[], List.nil_prefix, hroot, by rw [at?, overwrite_of_root hroot]⟩
      | false =>
          rw [at?_cons] at h
          cases hchild : value.child? step with
          | none => simp [hchild] at h
          | some x =>
              rw [hchild] at h
              obtain ⟨start, hstart, hmatch, hat⟩ :=
                ih (show under step q location = true from hq) h
              refine ⟨step :: start, List.cons_prefix_cons.2 ⟨rfl, hstart⟩, hmatch, ?_⟩
              rw [at?_cons, child?_overwrite hroot, hchild]
              exact hat

/-- What is in the marked value and is not in a marker was in the value. -/
lemma head_at?_of_overwrite {x : Json} (hmarker : ∀ step, marker.child? step = none)
    (hat : (overwrite marker q value).at? location = some x) (hx : x.head ≠ marker.head) :
    ∃ y, value.at? location = some y ∧ y.head = x.head := by
  induction location generalizing value q with
  | nil =>
      cases hroot : q [] with
      | true =>
          rw [at?, overwrite_of_root hroot, Option.some_inj] at hat
          exact absurd (congrArg head hat.symm) hx
      | false =>
          rw [at?, Option.some_inj] at hat
          exact ⟨value, rfl, by rw [← hat, head_overwrite hroot]⟩
  | cons step location ih =>
      cases hroot : q [] with
      | true =>
          rw [at?_cons, overwrite_of_root hroot, hmarker] at hat
          cases hat
      | false =>
          rw [at?_cons, child?_overwrite hroot] at hat
          rw [at?_cons]
          cases hchild : value.child? step with
          | none =>
              rw [hchild] at hat
              cases hat
          | some y =>
              rw [hchild] at hat
              exact ih hat

/-- Nothing is written without locations. -/
lemma overwrite_eq_self (h : ∀ location, q location = false) : overwrite marker q value = value := by
  induction value using Json.induction generalizing q with
  | arr items ih =>
      rw [overwrite_arr (h []), overwriteItems_congr (f := id), List.map_id]
      intro i x hitem
      exact ih x (List.mem_of_getElem? hitem) fun _ => h _
  | obj fields ih =>
      rw [overwrite_obj (h [])]
      refine congrArg obj ((List.map_congr_left fun field hfield => ?_).trans (List.map_id fields))
      rw [ih field hfield (q := under _ q) fun _ => h _]
      rfl
  | _ => simp [overwrite, h []]

/-- Writing over two sets of locations, one after the other. -/
theorem overwrite_overwrite (hmarker : ∀ q, overwrite marker q marker = marker) :
    overwrite marker p (overwrite marker q value) =
      overwrite marker (fun location => q location || p location) value := by
  induction value using Json.induction generalizing p q with
  | arr items ih =>
      cases hq : q [] with
      | true => rw [overwrite_of_root hq, hmarker, overwrite_of_root (by rw [hq, Bool.true_or])]
      | false =>
          cases hp : p [] with
          | true => rw [overwrite_of_root hp, overwrite_of_root (by rw [hp, Bool.or_true])]
          | false =>
              rw [overwrite_arr hq, overwrite_arr hp, overwrite_arr (by rw [hq, hp]; rfl), arr.injEq]
              refine List.ext_getElem? fun i => ?_
              rw [getElem?_overwriteItems, getElem?_overwriteItems, getElem?_overwriteItems]
              cases hitem : items[i]? with
              | none => rfl
              | some x => exact congrArg some (ih x (List.mem_of_getElem? hitem))
  | obj fields ih =>
      cases hq : q [] with
      | true => rw [overwrite_of_root hq, hmarker, overwrite_of_root (by rw [hq, Bool.true_or])]
      | false =>
          cases hp : p [] with
          | true => rw [overwrite_of_root hp, overwrite_of_root (by rw [hp, Bool.or_true])]
          | false =>
              rw [overwrite_obj hq, overwrite_obj hp, overwrite_obj (by rw [hq, hp]; rfl), obj.injEq,
                List.map_map]
              exact List.map_congr_left fun field hfield =>
                Prod.ext rfl (ih field hfield)
  | _ =>
      cases hq : q [] with
      | true => rw [overwrite_of_root hq, hmarker, overwrite_of_root (by rw [hq, Bool.true_or])]
      | false => simp [overwrite, hq]

/-! ## What is inside the locations -/

lemma AgreeOutside.refl (q : Location → Bool) (value : Json) : AgreeOutside q value value :=
  fun _ _ => rfl

lemma AgreeOutside.head_eq (h : AgreeOutside q value value') (hq : q [] = false) :
    value.head = value'.head := by
  have hnil := h [] fun start hstart => by rwa [List.prefix_nil.1 hstart]
  exact Option.some_inj.1 hnil

/-- One step below, the values agree outside the rest of the set. -/
lemma AgreeOutside.child {x y : Json} (h : AgreeOutside q value value') (hq : q [] = false)
    (hx : value.child? step = some x) (hy : value'.child? step = some y) :
    AgreeOutside (under step q) x y := by
  intro location hlocation
  have hcons := h (step :: location) fun start hstart => by
    cases start with
    | nil => exact hq
    | cons other start =>
        obtain ⟨rfl, hrest⟩ := List.cons_prefix_cons.1 hstart
        exact hlocation start hrest
  rw [at?_cons, at?_cons, hx, hy] at hcons
  exact hcons

/-- Values that agree outside a set of locations have the same values on the way to them. -/
lemma AgreeOutside.isSome_at? (h : AgreeOutside q value value')
    (hlocation : ∀ start, start <+: location → start ≠ location → q start = false) :
    (value.at? location).isSome = (value'.at? location).isSome := by
  induction location using List.reverseRecOn with
  | nil => rfl
  | append_singleton location step _ =>
      have hheads := h location fun start hstart => by
        refine hlocation start (hstart.trans (List.prefix_append _ _)) fun heq => ?_
        have hlength := (heq ▸ hstart).length_le
        rw [List.length_append, List.length_singleton] at hlength
        omega
      rw [at?_append, at?_append]
      cases hx : value.at? location with
      | none =>
          rw [hx] at hheads
          rw [Option.map_eq_none_iff.1 hheads.symm]
      | some x =>
          rw [hx] at hheads
          obtain ⟨y, hy, hxy⟩ := Option.map_eq_some_iff.1 hheads.symm
          rw [hy]
          have hstep : ∀ z : Json, ((some z).bind fun x => x.at? [step]).isSome =
              z.head.hasStep step := by
            intro z
            rw [Option.bind_some, at?_cons, ← isSome_child?]
            cases z.child? step <;> rfl
          rw [hstep, hstep, hxy]

/-- The first location of the set on the way. -/
lemma exists_first_prefix {start : Location} (hstart : start <+: location)
    (hmatch : q start = true) : ∃ first, first <+: location ∧ q first = true ∧
      ∀ earlier, earlier <+: first → earlier ≠ first → q earlier = false := by
  induction hlength : start.length using Nat.strongRecOn generalizing start with
  | ind n ih =>
      by_cases hfirst : ∃ earlier, earlier <+: start ∧ earlier ≠ start ∧ q earlier = true
      · obtain ⟨earlier, hearlier, hne, hmatch⟩ := hfirst
        have hle := hearlier.length_le
        have hneLength : earlier.length ≠ start.length :=
          fun heq => hne (hearlier.eq_of_length heq)
        exact ih earlier.length (by omega) (hearlier.trans hstart) hmatch rfl
      · push Not at hfirst
        exact ⟨start, hstart, hmatch, fun earlier hearlier hne =>
          eq_false_of_ne_true (hfirst earlier hearlier hne)⟩

/-- A field of an object is the value below its key. -/
lemma child?_obj_of_mem (hdistinct : (obj fields).DistinctKeys) {field : String × Json}
    (hfield : field ∈ fields) : (obj fields).child? (.key field.1) = some field.2 := by
  have hnodup : (fields.map (·.1)).Nodup := of_decide_eq_true (all_obj.1 hdistinct).1
  clear hdistinct
  rw [child?]
  induction fields with
  | nil => cases hfield
  | cons other fields ih =>
      obtain ⟨hother, hnodup⟩ := List.nodup_cons.1 hnodup
      rw [List.lookup_cons]
      rcases List.mem_cons.1 hfield with rfl | hfield
      · rw [beq_self_eq_true]
      · have hne : (field.1 == other.1) = false :=
          beq_false_of_ne fun h => hother (List.mem_map.2 ⟨field, hfield, h⟩)
        rw [hne]
        exact ih hfield hnodup

/-- Writing over a set of locations forgets what is inside. -/
theorem overwrite_eq_of_agreeOutside (hdistinct : value.DistinctKeys)
    (hdistinct' : value'.DistinctKeys) (h : AgreeOutside q value value') :
    overwrite marker q value = overwrite marker q value' := by
  induction value using Json.induction generalizing value' q with
  | arr items ih =>
      cases hq : q [] with
      | true => rw [overwrite_of_root hq, overwrite_of_root hq]
      | false =>
          have hhead := h.head_eq hq
          cases value' with
          | arr items' =>
              have hlength : items.length = items'.length := Head.items.inj hhead
              rw [overwrite_arr hq, overwrite_arr hq, arr.injEq]
              refine List.ext_getElem? fun i => ?_
              rw [getElem?_overwriteItems, getElem?_overwriteItems, Nat.zero_add]
              cases hx : items[i]? with
              | none =>
                  have hle := List.getElem?_eq_none_iff.1 hx
                  rw [List.getElem?_eq_none (by omega)]
              | some x =>
                  obtain ⟨hlt, -⟩ := List.getElem?_eq_some_iff.1 hx
                  have hy : items'[i]? = some items'[i] := List.getElem?_eq_getElem (by omega)
                  rw [hy]
                  refine congrArg some (ih x (List.mem_of_getElem? hx)
                    ((all_arr.1 hdistinct).2 x (List.mem_of_getElem? hx))
                    ((all_arr.1 hdistinct').2 _ (List.mem_of_getElem? hy)) ?_)
                  exact h.child hq (show (arr items).child? (.index i) = some x from hx) hy
          | _ => cases hhead
  | obj fields ih =>
      cases hq : q [] with
      | true => rw [overwrite_of_root hq, overwrite_of_root hq]
      | false =>
          have hhead := h.head_eq hq
          cases value' with
          | obj fields' =>
              have hnames : fields.map (·.1) = fields'.map (·.1) := Head.fields.inj hhead
              have hlength : fields.length = fields'.length := by
                rw [← List.length_map (·.1), hnames, List.length_map]
              rw [overwrite_obj hq, overwrite_obj hq, obj.injEq]
              refine List.ext_getElem? fun i => ?_
              rw [List.getElem?_map, List.getElem?_map]
              cases hx : fields[i]? with
              | none =>
                  have hle := List.getElem?_eq_none_iff.1 hx
                  rw [List.getElem?_eq_none (by omega)]
              | some field =>
                  obtain ⟨hlt, -⟩ := List.getElem?_eq_some_iff.1 hx
                  have hy : fields'[i]? = some fields'[i] := List.getElem?_eq_getElem (by omega)
                  have hname : field.1 = fields'[i].1 := by
                    have := congrArg (·[i]?) hnames
                    rw [List.getElem?_map, List.getElem?_map, hx, hy] at this
                    exact Option.some_inj.1 this
                  have hmem := List.mem_of_getElem? hx
                  have hmem' := List.mem_of_getElem? hy
                  have hchild := child?_obj_of_mem hdistinct hmem
                  have hchild' := child?_obj_of_mem hdistinct' hmem'
                  rw [← hname] at hchild'
                  rw [hy, Option.map_some, Option.map_some, ← hname, ih field hmem
                    ((all_obj.1 hdistinct).2 field hmem) ((all_obj.1 hdistinct').2 _ hmem')
                    (h.child hq hchild hchild')]
          | _ => cases hhead
  | _ =>
      cases hq : q [] with
      | true => rw [overwrite_of_root hq, overwrite_of_root hq]
      | false =>
          have hhead := h.head_eq hq
          cases value' <;> cases hhead
          rfl

lemma agreeOutside_overwrite (h : ∀ location, p location = true → q location = true) :
    AgreeOutside q value (overwrite marker p value) := by
  intro location hlocation
  have hp : ∀ start, start <+: location → p start = false := by
    intro start hstart
    rw [← Bool.not_eq_true]
    exact fun hmatch => Bool.false_ne_true ((hlocation start hstart).symm.trans (h start hmatch))
  rw [at?_overwrite hp, Option.map_map]
  cases value.at? location with
  | none => rfl
  | some x =>
      have hroot : p (location ++ []) = false := by
        rw [List.append_nil]
        exact hp location (List.prefix_refl location)
      exact congrArg some (head_overwrite hroot).symm

lemma distinctKeys_overwrite (hmarker : marker.DistinctKeys) (hvalue : value.DistinctKeys) :
    (overwrite marker q value).DistinctKeys := by
  induction value using Json.induction generalizing q with
  | arr items ih =>
      cases hq : q [] with
      | true => rwa [overwrite_of_root hq]
      | false =>
          rw [overwrite_arr hq]
          refine all_arr.2 ⟨rfl, fun y hy => ?_⟩
          obtain ⟨i, hi⟩ := List.mem_iff_getElem?.1 hy
          rw [getElem?_overwriteItems, Option.map_eq_some_iff] at hi
          obtain ⟨x, hx, rfl⟩ := hi
          have hmem := List.mem_of_getElem? hx
          exact ih x hmem ((all_arr.1 hvalue).2 x hmem)
  | obj fields ih =>
      cases hq : q [] with
      | true => rwa [overwrite_of_root hq]
      | false =>
          obtain ⟨hnodup, hfields⟩ := all_obj.1 hvalue
          rw [overwrite_obj hq]
          refine all_obj.2 ⟨?_, fun other hother => ?_⟩
          · rw [keys, List.map_map]
            exact hnodup
          · obtain ⟨field, hfield, rfl⟩ := List.mem_map.1 hother
            exact ih field hfield (hfields field hfield)
  | _ =>
      cases hq : q [] with
      | true => rwa [overwrite_of_root hq]
      | false => simpa [overwrite, hq] using hvalue

/-! ## A value with a given location -/

/-- A value that has `x` at the location. -/
def leadingTo (x : Json) : Location → Json
  | [] => x
  | .key name :: location => .obj [(name, leadingTo x location)]
  | .index i :: location => .arr (List.replicate i .null ++ [leadingTo x location])

lemma at?_leadingTo (x : Json) (location : Location) :
    (leadingTo x location).at? location = some x := by
  induction location with
  | nil => rfl
  | cons step location ih =>
      cases step with
      | key name =>
          rw [leadingTo, at?_cons, child?, List.lookup_cons_self]
          exact ih
      | index i =>
          rw [leadingTo, at?_cons, child?, List.getElem?_append_right (by simp),
            List.length_replicate, Nat.sub_self]
          exact ih

lemma distinctKeys_leadingTo {x : Json} (hx : x.DistinctKeys) (location : Location) :
    (leadingTo x location).DistinctKeys := by
  induction location with
  | nil => exact hx
  | cons step location ih =>
      cases step with
      | key name => exact all_obj.2 ⟨rfl, List.forall_mem_singleton.2 ih⟩
      | index i =>
          refine all_arr.2 ⟨rfl, fun y hy => ?_⟩
          rcases List.mem_append.1 hy with hy | hy
          · rw [(List.mem_replicate.1 hy).2]
            rfl
          · rw [List.mem_singleton.1 hy]
            exact ih

end

end Json
