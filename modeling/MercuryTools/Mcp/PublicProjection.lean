import Mathlib.Data.List.Forall2
import MercuryTools.Mcp.PublicOutput

/-!
# What leaves of a provider's output

The projection of `_project_value` is compared with `publicPart`, which knows the public paths and
no schema.  Projecting the public part of a value is projecting the value (`projectValue_publicPart`),
and the projection of a value is its own public part (`publicPart_of_projectValue`).  So whatever
the schema is, only what stands at a public path is shown, and only it decides what is shown.
-/

namespace Json

/-- The value with items of its arrays and fields of its objects left out. -/
inductive CutFrom : Json → Json → Prop
  | whole (value : Json) : CutFrom value value
  | arr {xs ys zs : List Json} (kept : zs.Sublist ys) (items : List.Forall₂ CutFrom xs zs) :
      CutFrom (.arr xs) (.arr ys)
  | obj {xs ys zs : List (String × Json)} (kept : zs.Sublist ys)
      (names : xs.map (·.1) = zs.map (·.1))
      (values : List.Forall₂ (fun x y => CutFrom x.2 y.2) xs zs) : CutFrom (.obj xs) (.obj ys)

end Json

namespace MercuryTools.Mcp

open Checks

/-- The names on the way to a location; an item of a list is at the name `*`. -/
def pathOf (location : Json.Location) : FieldPath :=
  location.map fun
    | .key name => name
    | .index _ => "*"

section

variable (classification : PublicOutputClassification)

mutual

/-- What may be shown of a value at a path: its scalars at public paths, and the containers above
them. -/
def publicPart : FieldPath → Json → Json
  | path, .arr items => .arr (publicPartItems (path ++ ["*"]) items)
  | path, .obj fields => .obj (publicPartFields path fields)
  | _, value => value

def publicPartItems : FieldPath → List Json → List Json
  | _, [] => []
  | path, x :: items =>
      if classification.shows path x then publicPart path x :: publicPartItems path items
      else publicPartItems path items

def publicPartFields : FieldPath → List (String × Json) → List (String × Json)
  | _, [] => []
  | path, (name, x) :: fields =>
      if classification.shows (path ++ [name]) x then
        (name, publicPart (path ++ [name]) x) :: publicPartFields path fields
      else publicPartFields path fields

end

variable {classification}

/-! ## The public part -/

lemma publicPart_arr (path : FieldPath) (items : List Json) :
    publicPart classification path (.arr items) =
      .arr ((items.filter (classification.shows (path ++ ["*"]))).map
        (publicPart classification (path ++ ["*"]))) := by
  have hitems : ∀ path, publicPartItems classification path items =
      (items.filter (classification.shows path)).map (publicPart classification path) := by
    intro path
    induction items with
    | nil => rfl
    | cons x items ih =>
        rw [publicPartItems, List.filter_cons]
        split
        · rw [ih, List.map_cons]
        · exact ih
  rw [publicPart, hitems]

lemma publicPart_obj (path : FieldPath) (fields : List (String × Json)) :
    publicPart classification path (.obj fields) =
      .obj ((fields.filter fun field => classification.shows (path ++ [field.1]) field.2).map
        fun field => (field.1, publicPart classification (path ++ [field.1]) field.2)) := by
  have hfields : publicPartFields classification path fields =
      (fields.filter fun field => classification.shows (path ++ [field.1]) field.2).map
        fun field => (field.1, publicPart classification (path ++ [field.1]) field.2) := by
    induction fields with
    | nil => rfl
    | cons field fields ih =>
        rw [publicPartFields, List.filter_cons]
        split
        · rw [ih, List.map_cons]
        · exact ih
  rw [publicPart, hfields]

variable {value : Json} {path : FieldPath} {step : Json.Step} {items : List Json}
  {fields : List (String × Json)}

/-- A part of a container is a container. -/
lemma isContainer_publicPart (path : FieldPath) (value : Json) :
    isContainer (publicPart classification path value) = isContainer value := by
  cases value <;> rfl

lemma isObj_publicPart (classification : PublicOutputClassification) (path : FieldPath)
    (value : Json) : (publicPart classification path value).isObj = value.isObj := by
  cases value <;> rfl

/-- Whether a value is shown is seen from its part. -/
lemma shows_publicPart (path path' : FieldPath) (value : Json) :
    classification.shows path (publicPart classification path' value) =
      classification.shows path value := by
  unfold PublicOutputClassification.shows
  rw [isContainer_publicPart]

/-- What is one step below in the public part is the part of a value that is shown there. -/
lemma child?_publicPart {y : Json} (h : (publicPart classification path value).child? step = some y) :
    ∃ z, classification.shows (path ++ pathOf [step]) z = true ∧
      y = publicPart classification (path ++ pathOf [step]) z := by
  cases value with
  | arr items =>
      rw [publicPart_arr] at h
      cases step with
      | key name => cases h
      | index i =>
          obtain ⟨z, hz, rfl⟩ := List.mem_map.1 (List.mem_of_getElem? h)
          exact ⟨z, (List.mem_filter.1 hz).2, rfl⟩
  | obj fields =>
      rw [publicPart_obj] at h
      cases step with
      | key name =>
          obtain ⟨before, after, heq, -⟩ := List.lookup_eq_some_iff.1 h
          have hmem : (name, y) ∈ (fields.filter fun field =>
              classification.shows (path ++ [field.1]) field.2).map fun field =>
                (field.1, publicPart classification (path ++ [field.1]) field.2) :=
            heq ▸ List.mem_append_right _ List.mem_cons_self
          obtain ⟨field, hfield, hpair⟩ := List.mem_map.1 hmem
          obtain ⟨rfl, rfl⟩ := Prod.mk.inj hpair
          exact ⟨field.2, (List.mem_filter.1 hfield).2, rfl⟩
      | index i => cases h
  | _ => cases step <;> cases h

/-- What is in the public part of a value, below its root, stands at a path where it is shown. -/
theorem shows_of_at?_publicPart {x : Json} {location : Json.Location}
    (h : (publicPart classification path value).at? (step :: location) = some x) :
    classification.shows (path ++ pathOf (step :: location)) x = true := by
  induction location generalizing path value step with
  | nil =>
      rw [Json.at?_cons] at h
      obtain ⟨y, hchild, hy⟩ := Option.bind_eq_some_iff.1 h
      rw [Json.at?, Option.some_inj] at hy
      subst hy
      obtain ⟨z, hshows, hz⟩ := child?_publicPart hchild
      rw [hz, shows_publicPart]
      exact hshows
  | cons next location ih =>
      rw [Json.at?_cons] at h
      obtain ⟨y, hchild, hy⟩ := Option.bind_eq_some_iff.1 h
      obtain ⟨z, -, rfl⟩ := child?_publicPart hchild
      have hrest := ih hy
      rw [List.append_assoc] at hrest
      exact hrest

/-! ## The projection and the public part -/

variable {root : Schema} {depth : ℕ} {path : FieldPath} {value result : Json}
  {schemas : List Schema}

/-- The items of a list that are shown, projected. -/
lemma projectItems_publicPart {f : Json → Except String Json}
    (h : ∀ x, f (publicPart classification path x) = f x) :
    (((items.filter (classification.shows path)).map (publicPart classification path)).filter
        (classification.shows path)).mapM f =
      (items.filter (classification.shows path)).mapM f := by
  have hshown : ((items.filter (classification.shows path)).map
      (publicPart classification path)).filter (classification.shows path) =
        (items.filter (classification.shows path)).map (publicPart classification path) := by
    refine List.filter_eq_self.2 fun y hy => ?_
    obtain ⟨x, hx, rfl⟩ := List.mem_map.1 hy
    rw [shows_publicPart]
    exact (List.mem_filter.1 hx).2
  rw [hshown, List.mapM_map]
  exact congrArg (List.mapM · _) (funext h)

/-- The fields of an object that are shown, projected. -/
lemma projectFields_publicPart {p : String → Bool} {f : String → Json → Except String (String × Json)}
    (h : ∀ name x, f name (publicPart classification (path ++ [name]) x) = f name x) :
    (((fields.filter fun field => classification.shows (path ++ [field.1]) field.2).map
        fun field => (field.1, publicPart classification (path ++ [field.1]) field.2)).filter
          fun field => p field.1 && classification.shows (path ++ [field.1]) field.2).mapM
            (fun field => f field.1 field.2) =
      (fields.filter fun field => p field.1 &&
        classification.shows (path ++ [field.1]) field.2).mapM fun field => f field.1 field.2 := by
  have hshown : ∀ field : String × Json,
      (p field.1 && classification.shows (path ++ [field.1])
        (publicPart classification (path ++ [field.1]) field.2) &&
          classification.shows (path ++ [field.1]) field.2) =
        (p field.1 && classification.shows (path ++ [field.1]) field.2) := by
    intro field
    rw [shows_publicPart, Bool.and_assoc, Bool.and_self]
  rw [List.filter_map, List.filter_filter, List.mapM_map]
  simp only [Function.comp_def, hshown, h]

/-- The projection of a value is that of its public part. -/
theorem projectValue_publicPart (depth : ℕ) (value : Json) (schemas : List Schema)
    (path : FieldPath) :
    projectValue classification root depth (publicPart classification path value) schemas path =
      projectValue classification root depth value schemas path := by
  induction depth generalizing value schemas path with
  | zero => rfl
  | succ depth ih =>
      cases value with
      | arr items =>
          rw [publicPart_arr, projectValue, projectValue]
          refine congrArg _ (funext fun nodes => ?_)
          refine congrArg (ite _ _) (congrArg (Json.arr <$> ·) ?_)
          exact projectItems_publicPart (f := fun x => projectValue classification root depth x _ _)
            fun x => ih x _ _
      | obj fields =>
          rw [publicPart_obj, projectValue, projectValue]
          refine congrArg _ (funext fun nodes => ?_)
          refine congrArg (Json.obj <$> ·) ?_
          exact projectFields_publicPart (p := fun name => ((collectProperties nodes).get name).isSome)
            (f := fun name x => (name, ·) <$> projectValue classification root depth x
              (((collectProperties nodes).get name).getD []) (path ++ [name]))
            fun name x => by rw [ih]
      | _ => rfl

/-! ### What a projection is -/

/-- The projection of a list: none of its items without a schema for them, or those shown. -/
lemma projectValue_arr
    (h : projectValue classification root (depth + 1) (.arr items) schemas path = .ok result) :
    result = .arr [] ∨ ∃ itemSchemas shown, result = .arr shown ∧
      List.Forall₂ (fun x y => projectValue classification root depth x itemSchemas
        (path ++ ["*"]) = .ok y) (items.filter (classification.shows (path ++ ["*"]))) shown := by
  rw [projectValue] at h
  obtain ⟨nodes, -, h⟩ := bind_eq_ok.1 h
  simp only at h
  split at h
  · exact .inl (Except.ok.inj h).symm
  · obtain ⟨shown, hshown, rfl⟩ := map_eq_ok.1 h
    exact .inr ⟨_, shown, rfl, mapM_eq_ok.1 hshown⟩

/-- The projection of an object: fields that are shown, under their names. -/
lemma projectValue_obj
    (h : projectValue classification root (depth + 1) (.obj fields) schemas path = .ok result) :
    ∃ kept shown, kept.Sublist fields ∧ result = .obj shown ∧
      List.Forall₂ (fun x y => classification.shows (path ++ [x.1]) x.2 = true ∧ x.1 = y.1 ∧
        ∃ childSchemas, projectValue classification root depth x.2 childSchemas
          (path ++ [x.1]) = .ok y.2) kept shown := by
  rw [projectValue] at h
  obtain ⟨nodes, -, h⟩ := bind_eq_ok.1 h
  obtain ⟨shown, hshown, rfl⟩ := map_eq_ok.1 h
  have hkept : ∀ field ∈ fields.filter fun field =>
      ((collectProperties nodes).get field.1).isSome &&
        classification.shows (path ++ [field.1]) field.2,
      classification.shows (path ++ [field.1]) field.2 = true :=
    fun field hfield => (Bool.and_eq_true_iff.1 (List.mem_filter.1 hfield).2).2
  have hboth := (List.forall₂_and_left _ _).2 ⟨hkept, mapM_eq_ok.1 hshown⟩
  refine ⟨_, shown, List.filter_sublist, rfl, hboth.imp ?_⟩
  rintro field y ⟨hshows, hfield⟩
  obtain ⟨x, hx, rfl⟩ := map_eq_ok.1 hfield
  exact ⟨hshows, rfl, _, hx⟩

/-- The projection of a scalar is the scalar. -/
lemma projectValue_scalar (hscalar : isContainer value = false)
    (h : projectValue classification root (depth + 1) value schemas path = .ok result) :
    result = value := by
  rw [projectValue] at h
  obtain ⟨nodes, -, h⟩ := bind_eq_ok.1 h
  cases value with
  | arr items => cases hscalar
  | obj fields => cases hscalar
  | _ => exact (Except.ok.inj h).symm

lemma isContainer_of_projectValue
    (h : projectValue classification root depth value schemas path = .ok result) :
    isContainer result = isContainer value := by
  cases depth with
  | zero => cases h
  | succ depth =>
      cases value with
      | arr items =>
          rcases projectValue_arr h with rfl | ⟨-, shown, rfl, -⟩ <;> rfl
      | obj fields =>
          obtain ⟨-, shown, -, rfl, -⟩ := projectValue_obj h
          rfl
      | _ => rw [projectValue_scalar rfl h]

lemma shows_of_projectValue (path' : FieldPath)
    (h : projectValue classification root depth value schemas path = .ok result) :
    classification.shows path' result = classification.shows path' value := by
  unfold PublicOutputClassification.shows
  rw [isContainer_of_projectValue h]

/-- Nothing is in the projection that was not in the value. -/
theorem projectValue_cutFrom
    (h : projectValue classification root depth value schemas path = .ok result) :
    result.CutFrom value := by
  induction depth generalizing value schemas path result with
  | zero => cases h
  | succ depth ih =>
      cases value with
      | arr items =>
          rcases projectValue_arr h with rfl | ⟨itemSchemas, shown, rfl, hshown⟩
          · exact .arr (List.nil_sublist _) .nil
          · exact .arr List.filter_sublist (hshown.imp fun _ _ hxy => ih hxy).flip
      | obj fields =>
          obtain ⟨kept, shown, hkept, rfl, hshown⟩ := projectValue_obj h
          refine .obj hkept ?_ (hshown.imp fun _ _ hxy => ?_).flip
          · rw [← List.forall₂_eq_eq_eq, List.forall₂_map_left_iff, List.forall₂_map_right_iff]
            exact (hshown.imp fun _ _ hxy => hxy.2.1.symm).flip
          · obtain ⟨-, -, _, hprojected⟩ := hxy
            exact ih hprojected
      | _ => exact projectValue_scalar rfl h ▸ .whole _

/-- The projection of a value is its own public part. -/
theorem publicPart_of_projectValue
    (h : projectValue classification root depth value schemas path = .ok result) :
    publicPart classification path result = result := by
  induction depth generalizing value schemas path result with
  | zero => cases h
  | succ depth ih =>
      cases value with
      | arr items =>
          rcases projectValue_arr h with rfl | ⟨itemSchemas, shown, rfl, hshown⟩
          · rw [publicPart_arr]
            rfl
          · have hall : ∀ y ∈ shown, classification.shows (path ++ ["*"]) y = true ∧
                publicPart classification (path ++ ["*"]) y = y := by
              intro y hy
              obtain ⟨x, hx, hxy⟩ := exists_of_forall₂ hshown hy
              rw [shows_of_projectValue _ hxy]
              exact ⟨(List.mem_filter.1 hx).2, ih hxy⟩
            rw [publicPart_arr, List.filter_eq_self.2 fun y hy => (hall y hy).1,
              List.map_congr_left fun y hy => (hall y hy).2, List.map_id'']
            exact fun _ => rfl
      | obj fields =>
          obtain ⟨kept, shown, -, rfl, hshown⟩ := projectValue_obj h
          have hall : ∀ y ∈ shown, classification.shows (path ++ [y.1]) y.2 = true ∧
              (y.1, publicPart classification (path ++ [y.1]) y.2) = y := by
            intro y hy
            obtain ⟨x, -, hshows, hname, _, hxy⟩ := exists_of_forall₂ hshown hy
            rw [← hname, shows_of_projectValue _ hxy, ih hxy]
            exact ⟨hshows, Prod.ext hname rfl⟩
          rw [publicPart_obj, List.filter_eq_self.2 fun y hy => (hall y hy).1,
            List.map_congr_left fun y hy => (hall y hy).2, List.map_id'']
          exact fun _ => rfl
      | _ =>
          rw [projectValue_scalar rfl h]
          rfl

end

/-! ## `project_provider_read_data` -/

section

variable {validator : Validator} {depth : ℕ} {outputSchema : Schema} {paths : List String}
  {value value' result : Json}

lemma ok_bind {α β : Type} (a : α) (f : α → Except String β) : (Except.ok a >>= f) = f a := rfl

lemma modelValidate_eq_ok {model : Schema} (h : modelValidate validator model value = .ok result) :
    result = value := by
  unfold modelValidate at h
  split at h
  · exact (Except.ok.inj h).symm
  · cases h

/-- What is returned is the projection of the given value. -/
lemma projectValue_of_projectProviderReadData
    (h : projectProviderReadData validator depth value outputSchema paths = .ok result) :
    ∃ source, schemaCopy outputSchema = .ok source ∧
      projectValue (.fromPaths paths) source depth value [source] [] = .ok result := by
  unfold projectProviderReadData at h
  simp only [bind_eq_ok] at h
  obtain ⟨-, -, source, hcopy, model, -, raw, hraw, publicSchema, -, publicModel, -, projected,
    hprojected, -, -, hvalid⟩ := h
  obtain rfl := modelValidate_eq_ok hraw
  obtain rfl := modelValidate_eq_ok hvalid
  exact ⟨source, hcopy, hprojected⟩

/-- Private fields never leave: what is returned is cut from the given value, and whatever is in it
stands at a path that is shown, a scalar at a public one. -/
theorem projectProviderReadData_confined
    (h : projectProviderReadData validator depth value outputSchema paths = .ok result) :
    result.CutFrom value ∧ ∀ location x, location ≠ [] → result.at? location = some x →
      PublicOutputClassification.shows (.fromPaths paths) (pathOf location) x = true := by
  obtain ⟨source, -, hprojected⟩ := projectValue_of_projectProviderReadData h
  refine ⟨projectValue_cutFrom hprojected, fun location x hne hx => ?_⟩
  rw [← publicPart_of_projectValue hprojected] at hx
  cases location with
  | nil => exact absurd rfl hne
  | cons step location => exact shows_of_at?_publicPart hx

/-- A reviewed schema: an account with an identifier, a token and a list of tags. -/
def accountSchema : Schema :=
  [("additionalProperties", .bool false),
    ("properties", .obj [("account", .obj [("additionalProperties", .bool false),
      ("properties", .obj [("id", .obj [("type", .str "string")]),
        ("tags", .obj [("items", .obj [("type", .str "string")]), ("type", .str "array")]),
        ("token", .obj [("type", .str "string")])]),
      ("required", .arr [.str "id"]), ("type", .str "object")])]),
    ("required", .arr [.str "account"]), ("type", .str "object")]

/-- An account with a token. -/
def accountValue (token : String) : Json :=
  .obj [("account", .obj [("id", .str "a-1"), ("token", .str token),
    ("tags", .arr [.str "new", .str "eu"])])]

/-- A validator that accepts every schema, and every object. -/
def acceptingValidator : Validator where
  checkSchema _ := true
  validates _ value := value.isObj

theorem projectProviderReadData_confined_account :
    (Json.obj [("account", .obj [("id", .str "a-1")])]).CutFrom (accountValue "secret") ∧
      ∀ location x, location ≠ [] →
        (Json.obj [("account", .obj [("id", .str "a-1")])]).at? location = some x →
          PublicOutputClassification.shows (.fromPaths ["/account/id"]) (pathOf location) x = true :=
  projectProviderReadData_confined
    (show projectProviderReadData acceptingValidator 8 (accountValue "secret") accountSchema
      ["/account/id"] = .ok _ by decide +kernel)

/-- Private fields decide nothing: of two values with one public part that the reviewed schema
judges alike, the same is returned, or the same is raised. -/
theorem projectProviderReadData_congr
    (hpart : publicPart (.fromPaths paths) [] value = publicPart (.fromPaths paths) [] value')
    (hverdict : ∀ source model, schemaCopy outputSchema = .ok source →
      catalogWireModel validator depth source = .ok model →
      validator.validates (.obj (validationSchema model)) value =
        validator.validates (.obj (validationSchema model)) value') :
    projectProviderReadData validator depth value outputSchema paths =
      projectProviderReadData validator depth value' outputSchema paths := by
  have hobj : value.isObj = value'.isObj := by
    rw [← isObj_publicPart (.fromPaths paths) [] value, hpart, isObj_publicPart]
  have hproject : ∀ source, projectValue (.fromPaths paths) source depth value [source] [] =
      projectValue (.fromPaths paths) source depth value' [source] [] := fun source => by
    rw [← projectValue_publicPart depth value, hpart, projectValue_publicPart]
  unfold projectProviderReadData
  rw [hobj]
  refine bind_congr fun _ => ?_
  cases hcopy : schemaCopy outputSchema with
  | error e => rfl
  | ok source =>
      rw [ok_bind, ok_bind]
      cases hmodel : catalogWireModel validator depth source with
      | error e => rfl
      | ok model =>
          rw [ok_bind, ok_bind]
          unfold modelValidate
          rw [hobj, hverdict source model hcopy hmodel]
          split
          · rw [ok_bind, ok_bind]
            simp only [hproject]
          · rfl

theorem projectProviderReadData_congr_account :
    projectProviderReadData acceptingValidator 8 (accountValue "secret") accountSchema
        ["/account/id"] =
      projectProviderReadData acceptingValidator 8 (accountValue "other") accountSchema
        ["/account/id"] :=
  projectProviderReadData_congr (by decide +kernel) fun _ _ _ _ => rfl

end

end MercuryTools.Mcp
