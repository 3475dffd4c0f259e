import Mathlib.Data.List.Forall2
import MercuryTools.Framework.Checks
import MercuryTools.Framework.JsonLocations
import MercuryTools.Framework.KeyedTable

/-!
# Redaction of responses

`_redact_paths` of `drivers/generic.py`.  A path names keys and indices; what it leads to is
replaced by a marker.  The paths are applied one after the other to a copy of the response, which
together writes the marker over the set of all locations that some path matches.

The order of the paths and what is below the matched locations make no difference, except that an
index is a text of digits for `str.isdigit`, and `int` does not read all of those (`Readable`).
-/

namespace MercuryTools.Drivers

open Json Checks

/-- `_REDACTED` -/
def redacted : Json :=
  .str "[REDACTED]"

/-! ## Digits -/

/-- The decimal digits zero of Unicode.  Each is followed by the other nine. -/
def decimalZeros : List Nat :=
  [0x30, 0x660, 0x6f0, 0x7c0, 0x966, 0x9e6, 0xa66, 0xae6, 0xb66, 0xbe6, 0xc66, 0xce6, 0xd66, 0xde6,
    0xe50, 0xed0, 0xf20, 0x1040, 0x1090, 0x17e0, 0x1810, 0x1946, 0x19d0, 0x1a80, 0x1a90, 0x1b50,
    0x1bb0, 0x1c40, 0x1c50, 0xa620, 0xa8d0, 0xa900, 0xa9d0, 0xa9f0, 0xaa50, 0xabf0, 0xff10, 0x104a0,
    0x10d30, 0x11066, 0x110f0, 0x11136, 0x111d0, 0x112f0, 0x11450, 0x114d0, 0x11650, 0x116c0,
    0x11730, 0x118e0, 0x11950, 0x11c50, 0x11d50, 0x11da0, 0x16a60, 0x16ac0, 0x16b50, 0x1d7ce,
    0x1d7d8, 0x1d7e2, 0x1d7ec, 0x1d7f6, 0x1e140, 0x1e2f0, 0x1e950, 0x1fbf0]

/-- The digits of Unicode that are not decimal, first and last of each range. -/
def otherDigits : List (Nat × Nat) :=
  [(0xb2, 0xb3), (0xb9, 0xb9), (0x1369, 0x1371), (0x19da, 0x19da), (0x2070, 0x2070),
    (0x2074, 0x2079), (0x2080, 0x2089), (0x2460, 0x2468), (0x2474, 0x247c), (0x2488, 0x2490),
    (0x24ea, 0x24ea), (0x24f5, 0x24fd), (0x24ff, 0x24ff), (0x2776, 0x277e), (0x2780, 0x2788),
    (0x278a, 0x2792), (0x10a40, 0x10a43), (0x10e60, 0x10e68), (0x11052, 0x1105a),
    (0x1f100, 0x1f10a)]

/-- The value of a decimal digit. -/
def decimalValue? (c : Char) : Option Nat :=
  (decimalZeros.find? fun first => first ≤ c.toNat && c.toNat < first + 10).map (c.toNat - ·)

/-- `str.isdigit` -/
def isDigits (text : String) : Bool :=
  !text.toList.isEmpty && text.toList.all fun c =>
    (decimalValue? c).isSome || otherDigits.any fun range => range.1 ≤ c.toNat && c.toNat ≤ range.2

/-- `sys.get_int_max_str_digits()` -/
def maxStrDigits : Nat := 4300

/-- `int`, of a text of digits. -/
def readInt (text : String) : Except String Nat :=
  if text.toList.all (decimalValue? · |>.isSome) && text.toList.length ≤ maxStrDigits then
    .ok (text.toList.foldl (fun n c => 10 * n + (decimalValue? c).getD 0) 0)
  else .error "ValueError"

/-! ## Redaction -/

/-- `_redact_path` -/
def redactPath : List String → Json → Except String Json
  | [], value => .ok value
  | component :: remaining, .obj fields =>
      Json.obj <$> fields.mapM fun field =>
        if component = "*" ∨ component = field.1 then
          (field.1, ·) <$> (if remaining = [] then .ok redacted else redactPath remaining field.2)
        else .ok field
  | component :: remaining, .arr items =>
      if component = "*" then
        Json.arr <$> items.mapM fun x =>
          if remaining = [] then .ok redacted else redactPath remaining x
      else if isDigits component then do
        let index ← readInt component
        match items[index]? with
        | some x =>
            (fun x => Json.arr (items.set index x)) <$>
              (if remaining = [] then .ok redacted else redactPath remaining x)
        | none => .ok (.arr items)
      else .ok (.arr items)
  | _ :: _, value => .ok value

/-- `path.split(".")` -/
def components (path : String) : List String :=
  (path.toList.splitOn '.').map String.ofList

/-- `_redact_paths`.  Values do not change here: the copy that the code writes to is the value that
the next path is given. -/
def redactPaths (value : Json) (paths : List String) : Except String Json :=
  paths.foldlM (fun copied path =>
    if path = "" then .ok copied else redactPath (components path) copied) value

/-! ## The locations of a path -/

/-- The index that a component names. -/
def index? (component : String) : Option Nat :=
  if isDigits component then (readInt component).toOption else none

def selects (component : String) : Step → Bool
  | .key name => component == "*" || component == name
  | .index i => component == "*" || index? component == some i

def matchesLocation : List String → Location → Bool
  | [], [] => true
  | component :: remaining, step :: location =>
      selects component step && matchesLocation remaining location
  | _, _ => false

/-- Some path matches the location. -/
def matched (paths : List String) (location : Location) : Bool :=
  paths.any fun path => path != "" && matchesLocation (components path) location

/-- A text of digits that is not the text of an integer. -/
def isUnreadable (component : String) : Bool :=
  isDigits component && (readInt component).toOption.isNone

/-- The path does not come to an array with a text that cannot be read. -/
def PathReadable (path : List String) (value : Json) : Prop :=
  ∀ before component after, path = before ++ component :: after → isUnreadable component = true →
    ∀ location, matchesLocation before location = true →
      ∀ items, value.at? location ≠ some (.arr items)

section

variable {value : Json} {component : String} {remaining : List String} {step : Step}

/-! ## One path -/

lemma under_matchesLocation (h : selects component step = true) :
    under step (matchesLocation (component :: remaining)) = matchesLocation remaining := by
  funext location
  rw [under, matchesLocation, h, Bool.true_and]

lemma under_matchesLocation_of_not (h : selects component step = false) (location : Location) :
    under step (matchesLocation (component :: remaining)) location = false := by
  rw [under, matchesLocation, h, Bool.false_and]

lemma PathReadable.child {x : Json} (h : PathReadable (component :: remaining) value)
    (hselects : selects component step = true) (hx : value.child? step = some x) :
    PathReadable remaining x := by
  intro before other after hpath hother location hlocation items hitems
  refine h (component :: before) other after (by rw [hpath]; rfl) hother (step :: location) ?_ items ?_
  · rw [matchesLocation, hselects, hlocation]
    rfl
  · rw [at?_cons, hx]
    exact hitems

lemma overwrite_redacted (q : Location → Bool) : overwrite redacted q redacted = redacted := by
  rw [redacted, overwrite]
  · exact ite_self _
  · intro fields hfields
    cases hfields
  · intro items hitems
    cases hitems

variable {path paths : List String}

/-- What is not selected stays. -/
lemma overwrite_unselected (h : selects component step = false) (x : Json) :
    overwrite redacted (under step (matchesLocation (component :: remaining))) x = x :=
  overwrite_eq_self (under_matchesLocation_of_not h)

lemma selects_index (hstar : component ≠ "*") (i : ℕ) :
    selects component (.index i) = (index? component == some i) := by
  rw [selects, beq_false_of_ne hstar, Bool.false_or]

/-- The rest of the path writes the marker into what is selected. -/
def Redacts (component : String) (remaining : List String) (step : Step) (x : Json) : Prop :=
  (if remaining = [] then .ok redacted else redactPath remaining x) =
    .ok (overwrite redacted (under step (matchesLocation (component :: remaining))) x)

/-- The fields of an object. -/
lemma redactPath_obj {fields : List (String × Json)} (h : ∀ field ∈ fields,
      selects component (.key field.1) = true → Redacts component remaining (.key field.1) field.2) :
    redactPath (component :: remaining) (.obj fields) =
      .ok (overwrite redacted (matchesLocation (component :: remaining)) (.obj fields)) := by
  rw [overwrite_obj rfl, redactPath]
  refine map_eq_ok.2 ⟨_, mapM_eq_ok.2 (List.forall₂_map_right_iff.2 ?_), rfl⟩
  refine List.forall₂_same.2 fun field hfield => ?_
  cases hselects : selects component (.key field.1) with
  | true =>
      have hkey : component = "*" ∨ component = field.1 := by simpa [selects] using hselects
      rw [if_pos hkey, h field hfield hselects]
      rfl
  | false =>
      have hkey : ¬ (component = "*" ∨ component = field.1) := by simpa [selects] using hselects
      rw [if_neg hkey, overwrite_unselected hselects]

/-- All items of an array. -/
lemma redactPath_star {items : List Json}
    (h : ∀ i x, items[i]? = some x → Redacts "*" remaining (.index i) x) :
    redactPath ("*" :: remaining) (.arr items) =
      .ok (overwrite redacted (matchesLocation ("*" :: remaining)) (.arr items)) := by
  rw [overwrite_arr rfl, redactPath, if_pos rfl]
  refine map_eq_ok.2 ⟨_, mapM_eq_ok.2 (List.forall₂_iff_get.2 ⟨?_, ?_⟩), rfl⟩
  · exact (length_overwriteItems 0).symm
  · intro i hi hi'
    have hx : items[i]? = some items[i] := List.getElem?_eq_getElem hi
    have hget : (overwriteItems redacted (matchesLocation ("*" :: remaining)) 0 items)[i]? =
        items[i]?.map (overwrite redacted (under (.index (0 + i)) _)) :=
      getElem?_overwriteItems 0 i
    rw [hx, Option.map_some, Nat.zero_add] at hget
    rw [List.get_eq_getElem, List.get_eq_getElem, (List.getElem_eq_iff hi').2 hget]
    exact h i _ hx

/-- The items of an array where none is selected. -/
lemma overwriteItems_unselected {items : List Json} (hstar : component ≠ "*")
    (h : ∀ i x, items[i]? = some x → index? component ≠ some i) :
    overwriteItems redacted (matchesLocation (component :: remaining)) 0 items = items := by
  refine (overwriteItems_congr fun i x hx => ?_).trans (List.map_id items)
  exact overwrite_unselected ((selects_index hstar i).trans (beq_false_of_ne (h i x hx))) x

/-- One item of an array. -/
lemma overwriteItems_selected {items : List Json} {i : ℕ} {x : Json} (hstar : component ≠ "*")
    (hindex : index? component = some i) (hx : items[i]? = some x) :
    items.set i (overwrite redacted (under (.index i) (matchesLocation (component :: remaining))) x) =
      overwriteItems redacted (matchesLocation (component :: remaining)) 0 items := by
  refine List.ext_getElem? fun j => ?_
  rw [getElem?_overwriteItems, Nat.zero_add, List.getElem?_set]
  split
  next hij =>
      subst hij
      rw [hx, if_pos (List.getElem?_eq_some_iff.1 hx).1]
      rfl
  next hij =>
      cases hj : items[j]? with
      | none => rfl
      | some y =>
          rw [Option.map_some, overwrite_unselected]
          rw [selects_index hstar, hindex]
          exact beq_false_of_ne fun h => hij (Option.some_inj.1 h)

/-- An array of which at most one item is selected. -/
lemma redactPath_arr {items : List Json} (hstar : component ≠ "*")
    (hreadable : isUnreadable component = false) (h : ∀ i x, items[i]? = some x →
      selects component (.index i) = true → Redacts component remaining (.index i) x) :
    redactPath (component :: remaining) (.arr items) =
      .ok (overwrite redacted (matchesLocation (component :: remaining)) (.arr items)) := by
  rw [overwrite_arr rfl, redactPath, if_neg hstar]
  cases hdigits : isDigits component with
  | false =>
      rw [if_neg Bool.false_ne_true,
        overwriteItems_unselected hstar fun i x _ => by simp [index?, hdigits]]
  | true =>
      rw [if_pos rfl]
      cases hread : readInt component with
      | error code =>
          rw [isUnreadable, hdigits, hread] at hreadable
          cases hreadable
      | ok i =>
          have hindex : index? component = some i := by
            rw [index?, hdigits, hread]
            rfl
          refine bind_eq_ok.2 ⟨i, rfl, ?_⟩
          cases hx : items[i]? with
          | none =>
              rw [overwriteItems_unselected hstar fun j x hj hne => ?_]
              rw [hindex, Option.some_inj] at hne
              rw [hne, hj] at hx
              cases hx
          | some x =>
              have hselects : selects component (.index i) = true := by
                rw [selects_index hstar, hindex, beq_self_eq_true]
              exact map_eq_ok.2 ⟨_, h i x hx hselects,
                congrArg Json.arr (overwriteItems_selected hstar hindex hx)⟩

/-- Redaction by one path writes the marker over its locations. -/
lemma redactPath_eq (hpath : path ≠ []) (hdistinct : value.DistinctKeys)
    (h : PathReadable path value) :
    redactPath path value = .ok (overwrite redacted (matchesLocation path) value) := by
  induction path generalizing value with
  | nil => exact absurd rfl hpath
  | cons component remaining ih =>
      have hredacts : ∀ {step x}, selects component step = true → value.child? step = some x →
          x.DistinctKeys → Redacts component remaining step x := by
        intro step x hselects hx hdistinct
        rw [Redacts, under_matchesLocation hselects]
        split
        next hnil =>
            subst hnil
            rw [overwrite_of_root rfl]
        next hne => exact ih hne hdistinct (h.child hselects hx)
      cases value with
      | obj fields =>
          exact redactPath_obj fun field hfield hselects => hredacts hselects
            (child?_obj_of_mem hdistinct hfield) ((all_obj.1 hdistinct).2 field hfield)
      | arr items =>
          have hitems : ∀ i x, items[i]? = some x → selects component (.index i) = true →
              Redacts component remaining (.index i) x := fun i x hx hselects =>
            hredacts hselects hx ((all_arr.1 hdistinct).2 x (List.mem_of_getElem? hx))
          by_cases hstar : component = "*"
          · subst hstar
            exact redactPath_star fun i x hx => hitems i x hx rfl
          · refine redactPath_arr hstar (Bool.eq_false_iff.2 fun hunreadable => ?_) hitems
            exact absurd rfl (h [] component remaining rfl hunreadable [] rfl items)
      | _ =>
          have hroot : matchesLocation (component :: remaining) [] = false := rfl
          rw [redactPath, overwrite, hroot, if_neg Bool.false_ne_true] <;> (intro xs hxs; cases hxs)

/-- A path that comes to an array with a text that cannot be read raises. -/
lemma redactPath_ne_ok {before after : List String} {location : Location} {items : List Json}
    (hunreadable : isUnreadable component = true)
    (hlocation : matchesLocation before location = true)
    (hitems : value.at? location = some (.arr items)) (result : Json) :
    redactPath (before ++ component :: after) value ≠ .ok result := by
  induction before generalizing value location result with
  | nil =>
      cases location with
      | cons step location => cases hlocation
      | nil =>
          obtain ⟨hdigits, hread⟩ := Bool.and_eq_true_iff.1 hunreadable
          have hstar : component ≠ "*" := by
            rintro rfl
            exact absurd hdigits (by decide)
          rw [at?, Option.some_inj] at hitems
          subst hitems
          rw [List.nil_append, redactPath, if_neg hstar, if_pos hdigits]
          cases hvalue : readInt component with
          | ok i =>
              rw [hvalue] at hread
              cases hread
          | error code =>
              intro hok
              cases hok
  | cons other before ih =>
      cases location with
      | nil => cases hlocation
      | cons step location =>
          obtain ⟨hselects, hlocation⟩ := Bool.and_eq_true_iff.1 hlocation
          rw [at?_cons] at hitems
          obtain ⟨x, hx, hitems⟩ := Option.bind_eq_some_iff.1 hitems
          have hraises : ∀ result, (if before ++ component :: after = [] then .ok redacted
              else redactPath (before ++ component :: after) x) ≠ .ok result := by
            intro result
            rw [if_neg (List.append_ne_nil_of_right_ne_nil _ (List.cons_ne_nil _ _))]
            exact ih hlocation hitems result
          intro h
          rw [List.cons_append] at h
          cases value with
          | obj fields =>
              cases step with
              | index i => cases hx
              | key name =>
                  obtain ⟨start, rest, rfl, -⟩ := List.lookup_eq_some_iff.1 hx
                  have hkey : other = "*" ∨ other = name := by simpa [selects] using hselects
                  rw [redactPath] at h
                  obtain ⟨fields, hfields, -⟩ := map_eq_ok.1 h
                  obtain ⟨field, -, hfield⟩ := KeyedTable.exists_of_forall₂
                    (mapM_eq_ok.1 hfields).flip (List.mem_append_right _ List.mem_cons_self)
                  rw [if_pos hkey] at hfield
                  obtain ⟨y, hy, -⟩ := map_eq_ok.1 hfield
                  exact hraises y hy
          | arr items =>
              cases step with
              | key name => cases hx
              | index i =>
                  rw [redactPath] at h
                  by_cases hstar : other = "*"
                  · rw [if_pos hstar] at h
                    obtain ⟨items', hmap, -⟩ := map_eq_ok.1 h
                    obtain ⟨y, -, hy⟩ := KeyedTable.exists_of_forall₂ (mapM_eq_ok.1 hmap).flip
                      (List.mem_of_getElem? hx)
                    exact hraises y hy
                  · have hindex : index? other = some i := by simpa [selects, hstar] using hselects
                    have hdigits : isDigits other = true := by
                      by_contra hne
                      rw [index?, if_neg hne] at hindex
                      cases hindex
                    rw [index?, if_pos hdigits] at hindex
                    rw [if_neg hstar, if_pos hdigits] at h
                    obtain ⟨j, hread, h⟩ := bind_eq_ok.1 h
                    rw [hread, Except.toOption, Option.some_inj] at hindex
                    subst hindex
                    rw [child?] at hx
                    rw [hx] at h
                    obtain ⟨y, hy, -⟩ := map_eq_ok.1 h
                    exact hraises y hy
          | _ => cases step <;> cases hx

/-! ## All paths -/

/-- A path that is not empty has a component. -/
lemma components_ne_nil (path : String) : components path ≠ [] := by
  unfold components
  rw [Ne, List.map_eq_nil_iff]
  exact List.splitOn_ne_nil _ _

lemma matched_cons (path : String) (paths : List String) (location : Location) :
    matched (path :: paths) location =
      (path != "" && matchesLocation (components path) location || matched paths location) :=
  List.any_cons

lemma matched_perm {paths' : List String} (h : paths.Perm paths') :
    matched paths = matched paths' := by
  funext location
  exact h.any_eq

lemma PathReadable.overwrite (h : PathReadable path value) (q : Location → Bool) :
    PathReadable path (overwrite redacted q value) := by
  intro before component after hpath hunreadable location hlocation items hitems
  have hmarker : ∀ step, redacted.child? step = none := fun step => by cases step <;> rfl
  obtain ⟨x, hx, hhead⟩ := head_at?_of_overwrite hmarker hitems (by simp [head, redacted])
  cases x with
  | arr items' => exact h before component after hpath hunreadable location hlocation items' hx
  | _ => cases hhead

/-- The paths, where a set of locations is marked already. -/
lemma foldlM_redactPath {q : Location → Bool} (hdistinct : value.DistinctKeys)
    (h : ∀ path ∈ paths, path ≠ "" → PathReadable (components path) value) :
    redactPaths (overwrite redacted q value) paths =
      .ok (overwrite redacted (fun location => q location || matched paths location) value) := by
  induction paths generalizing q with
  | nil =>
      have hq : (fun location => q location || matched [] location) = q :=
        funext fun location => Bool.or_false _
      rw [hq]
      rfl
  | cons path paths ih =>
      obtain ⟨hpath, hpaths⟩ := List.forall_mem_cons.1 h
      rw [redactPaths, List.foldlM_cons]
      by_cases hempty : path = ""
      · have hq : (fun location => q location || matched (path :: paths) location) =
            fun location => q location || matched paths location := by
          funext location
          rw [matched_cons, hempty]
          rfl
        rw [if_pos hempty, hq]
        exact ih hpaths
      · have hq : (fun location => q location || matched (path :: paths) location) =
            fun location => (q location || matchesLocation (components path) location) ||
              matched paths location := by
          funext location
          rw [matched_cons, bne_iff_ne.2 hempty, Bool.true_and, Bool.or_assoc]
        have hmarker : DistinctKeys redacted := rfl
        rw [if_neg hempty, hq, redactPath_eq (components_ne_nil path)
          (distinctKeys_overwrite hmarker hdistinct) ((hpath hempty).overwrite q),
          overwrite_overwrite overwrite_redacted]
        exact ih hpaths

end

/-- What the redaction should do: the marker is at or above every matched location, and everything
that is not at or below one is unchanged. -/
structure RedactedExactly (paths : List String) (value result : Json) : Prop where
  complete : ∀ location, matched paths location = true → (value.at? location).isSome →
    ∃ start, start <+: location ∧ result.at? start = some redacted
  unchanged : AgreeOutside (matched paths) value result

/-- The redaction returns, and its result is the same for all orders of the paths and for all values
that differ only at or below matched locations. -/
def RedactionLaw (paths : List String) (value : Json) : Prop :=
  ∃ result, redactPaths value paths = .ok result ∧ RedactedExactly paths value result ∧
    ∀ (paths' : List String) (value' : Json), paths'.Perm paths → value'.DistinctKeys →
      AgreeOutside (matched paths) value value' → redactPaths value' paths' = .ok result

/-- No path comes to an array with a text of digits that cannot be read, and none could come to one
below a matched location of the value. -/
def Readable (paths : List String) (value : Json) : Prop :=
  ∀ path ∈ paths, path ≠ "" → ∀ before component after,
    components path = before ++ component :: after → isUnreadable component = true →
    ∀ location, matchesLocation before location = true →
      (∀ items, value.at? location ≠ some (.arr items)) ∧
      ∀ start, start <+: location → matched paths start = true → value.at? start = none

variable {paths : List String} {value : Json} {path : String}

/-- Where the paths are readable in a value, each is readable in every value that differs from it
only at or below matched locations. -/
lemma Readable.pathReadable {value' : Json} (h : Readable paths value)
    (hagree : AgreeOutside (matched paths) value value') (hpath : path ∈ paths) (hne : path ≠ "") :
    PathReadable (components path) value' := by
  intro before component after hcomponents hunreadable location hlocation items hitems
  obtain ⟨harray, habsent⟩ :=
    h path hpath hne before component after hcomponents hunreadable location hlocation
  by_cases hmatched : ∃ start, start <+: location ∧ matched paths start = true
  · obtain ⟨start, hstart, hmatch⟩ := hmatched
    obtain ⟨first, hfirst, hmatch, hearlier⟩ := exists_first_prefix hstart hmatch
    have hsome : (value'.at? first).isSome :=
      isSome_at?_of_prefix hfirst (by rw [hitems]; rfl)
    rw [← hagree.isSome_at? hearlier, habsent first hfirst hmatch] at hsome
    cases hsome
  · push Not at hmatched
    have hheads := hagree location fun start hstart =>
      eq_false_of_ne_true (hmatched start hstart)
    rw [hitems] at hheads
    obtain ⟨x, hx, hhead⟩ := Option.map_eq_some_iff.1 hheads
    cases x with
    | arr items' => exact harray items' hx
    | _ => cases hhead

/-- Paths all of whose digits can be read are readable in every value. -/
lemma readable_of_components
    (h : ∀ path ∈ paths, ∀ component ∈ components path, isUnreadable component = false)
    (value : Json) : Readable paths value := by
  intro path hpath _ before component after hcomponents hunreadable
  have hmem : component ∈ components path := by
    rw [hcomponents]
    exact List.mem_append_right _ List.mem_cons_self
  exact absurd (hunreadable.symm.trans (h path hpath component hmem)) (by decide)

/-- With a path that raises first, the redaction raises. -/
lemma redactPaths_ne_ok (hne : path ≠ "")
    (hraises : ∀ result, redactPath (components path) value ≠ .ok result) (result : Json) :
    redactPaths value (path :: paths) ≠ .ok result := by
  intro h
  rw [redactPaths, List.foldlM_cons, if_neg hne] at h
  obtain ⟨copied, hcopied, -⟩ := bind_eq_ok.1 h
  exact hraises copied hcopied

/-- The law holds exactly of the paths and values that are readable. -/
theorem redactionLaw_iff {paths : List String} {value : Json} (hdistinct : value.DistinctKeys) :
    RedactionLaw paths value ↔ Readable paths value := by
  constructor
  · rintro ⟨result, -, -, hresult⟩ path hpath hne before component after hcomponents hunreadable
      location hlocation
    have hperm : (path :: paths.erase path).Perm paths := (List.perm_cons_erase hpath).symm
    -- no value that differs only below matched locations has an array there
    have hnever : ∀ value' items, value'.DistinctKeys → AgreeOutside (matched paths) value value' →
        value'.at? location ≠ some (.arr items) := by
      intro value' items hdistinct' hagree hitems
      refine redactPaths_ne_ok hne (fun result => ?_) result (hresult _ value' hperm hdistinct' hagree)
      rw [hcomponents]
      exact redactPath_ne_ok hunreadable hlocation hitems result
    refine ⟨fun items => hnever value items hdistinct (.refl _ _), fun start hstart hmatch => ?_⟩
    by_contra hsome
    obtain ⟨rest, rfl⟩ := hstart
    have hempty : DistinctKeys (.arr []) := rfl
    have harray : (leadingTo (.arr []) rest).DistinctKeys := distinctKeys_leadingTo hempty rest
    obtain ⟨other, -, hother, hat⟩ : ∃ other, other <+: start ∧ (other == start) = true ∧
        (overwrite (leadingTo (.arr []) rest) (· == start) value).at? other =
          some (leadingTo (.arr []) rest) :=
      exists_at?_overwrite (beq_self_eq_true start) (Option.isSome_iff_ne_none.2 hsome)
    obtain rfl := beq_iff_eq.1 hother
    refine hnever (overwrite (leadingTo (.arr []) rest) (· == other) value) []
      (distinctKeys_overwrite harray hdistinct) ?_ ?_
    · refine agreeOutside_overwrite fun other' hother' => ?_
      rw [beq_iff_eq.1 hother']
      exact hmatch
    · rw [at?_append, hat]
      exact at?_leadingTo _ rest
  · intro h
    have hresult : ∀ (paths' : List String) (value' : Json), paths'.Perm paths →
        value'.DistinctKeys → AgreeOutside (matched paths) value value' →
        redactPaths value' paths' = .ok (overwrite redacted (matched paths) value) := by
      intro paths' value' hperm hdistinct' hagree
      have hfold := foldlM_redactPath (q := fun _ => false) hdistinct' fun path hpath hne =>
        h.pathReadable hagree (hperm.mem_iff.1 hpath) hne
      rw [overwrite_eq_self fun _ => rfl] at hfold
      rw [hfold, overwrite_eq_of_agreeOutside hdistinct hdistinct' hagree, ← matched_perm hperm]
      rfl
    refine ⟨_, hresult paths value (.refl _) hdistinct (.refl _ _), ⟨?_, ?_⟩, hresult⟩
    · intro location hmatch hsome
      obtain ⟨start, hstart, -, hat⟩ := exists_at?_overwrite hmatch hsome
      exact ⟨start, hstart, hat⟩
    · exact agreeOutside_overwrite fun _ hmatch => hmatch

/-- A response with a list of customers. -/
def customers : Json :=
  .obj [("customers", .arr [.obj [("name", .str "A"), ("tax_id", .str "1")]]), ("total", .int 1)]

theorem redactionLaw_customers :
    RedactionLaw ["customers.*.tax_id", "customers.0.name"] customers :=
  (redactionLaw_iff (by unfold DistinctKeys; decide)).2
    (readable_of_components (by decide) customers)

example : redactPaths customers ["customers.*.tax_id", "customers.0.name"] =
    .ok (.obj [("customers", .arr [.obj [("name", redacted), ("tax_id", redacted)]]),
      ("total", .int 1)]) := by
  rfl

/-- The superscript two is a digit that is not decimal. -/
theorem not_redactionLaw_superscript : ¬ RedactionLaw ["²"] (.arr [.int 1]) := by
  rintro ⟨result, hresult, -⟩
  have hraises : redactPaths (.arr [.int 1]) ["²"] = .error "ValueError" := rfl
  rw [hraises] at hresult
  cases hresult

end MercuryTools.Drivers
