import Mathlib.Data.List.ReduceOption
import MercuryTools.Framework.StatefulChecks
import MercuryTools.Mcp.PublicProjection

/-!
# The schema of what leaves

A public schema is a tree of nodes without references, in which every property is shown, every
required name is a property and every object is closed (`PublicTree`).  `_public_schema_node` builds
such a tree, keyword by keyword, and matches a public path only where the reviewed schema has a
schema for it (`Position`).
-/

namespace MercuryTools.Mcp

open Checks StatefulChecks

/-! ## The schemas in a schema -/

variable {schema child : Schema}

lemma mem_subschema {keyword : String} :
    child ∈ subschema schema keyword ↔ schema.get keyword = some (.obj child) := by
  unfold subschema
  rw [Option.mem_toList, Option.bind_eq_some_iff]
  constructor
  · rintro ⟨value, hget, hvalue⟩
    cases value with
    | obj fields => rwa [← Option.some.inj hvalue]
    | _ => cases hvalue
  · exact fun hget => ⟨_, hget, rfl⟩

lemma mem_mappings {value : Option Json} :
    child ∈ mappings value ↔ ∃ items, value = some (.arr items) ∧ Json.obj child ∈ items := by
  have hmapping : ∀ item, mapping? item = some child ↔ item = .obj child := by
    intro item
    cases item <;> simp [mapping?]
  match value with
  | some (.arr items) => simp [mappings, hmapping]
  | none => simp [mappings]
  | some .null | some (.bool _) | some (.int _) | some (.float _) | some (.str _)
  | some (.obj _) => simp [mappings]

lemma mem_branchesOf : child ∈ branchesOf schema ↔
    (∃ keyword ∈ ["allOf", "anyOf", "oneOf"], ∃ items,
      schema.get keyword = some (.arr items) ∧ Json.obj child ∈ items) ∨
    ∃ keyword ∈ ["if", "then", "else"], schema.get keyword = some (.obj child) := by
  simp only [branchesOf, List.mem_append, mem_mappings, mem_subschema, List.mem_cons,
    List.not_mem_nil, or_false, exists_eq_or_imp, exists_eq_left, or_assoc]

lemma follow_eq_ok {code name : String} {root target : Schema} {references : List String}
    {reference : Json} (h : follow code root references reference = .ok (name, target)) :
    reference = .str name ∧ referenceTarget name root = .ok target := by
  unfold follow at h
  split at h
  · split at h
    · cases h
    · obtain ⟨found, hfound, heq⟩ := map_eq_ok.1 h
      obtain ⟨rfl, rfl⟩ := Prod.mk.inj heq
      exact ⟨rfl, hfound⟩
  · cases h

/-- A schema in the reviewed schema, with the path of what it describes. -/
inductive Position (root : Schema) : FieldPath → Schema → Prop
  | root : Position root [] root
  | reference {path : FieldPath} {node target : Schema} {reference : String}
      (h : Position root path node) (named : keyword? node "$ref" = some (.str reference))
      (found : referenceTarget reference root = .ok target) : Position root path target
  | property {path : FieldPath} {node child : Schema} {name : String} (h : Position root path node)
      (mem : (name, Json.obj child) ∈ properties node) : Position root (path ++ [name]) child
  | items {path : FieldPath} {node child : Schema} (h : Position root path node)
      (mem : child ∈ subschema node "items") : Position root (path ++ ["*"]) child
  | branch {path : FieldPath} {node child : Schema} (h : Position root path node)
      (mem : child ∈ branchesOf node) : Position root path child

section

variable (classification : PublicOutputClassification)

/-- A node that refers to nothing, shows all its properties, requires none but those, and allows no
others. -/
structure IsPublicNode (path : FieldPath) (node : Schema) : Prop where
  reference : node.get "$ref" = none
  shown : ∀ property ∈ properties node, classification.exposes (path ++ [property.1]) = true
  required : ∀ names, node.get "required" = some (.arr names) → ∀ name ∈ names,
    ∃ property ∈ properties node, name = .str property.1
  closed : schemaAllowsObject node = true → node.get "additionalProperties" = some (.bool false)

/-- Every node in the schema is public. -/
inductive PublicTree : FieldPath → Schema → Prop
  | node {path : FieldPath} {node : Schema} (isPublic : IsPublicNode classification path node)
      (property : ∀ name child, (name, Json.obj child) ∈ properties node →
        PublicTree (path ++ [name]) child)
      (items : ∀ child ∈ subschema node "items", PublicTree (path ++ ["*"]) child)
      (branch : ∀ child ∈ branchesOf node, PublicTree path child) : PublicTree path node

variable {classification} {path : FieldPath} {schema result : Schema}

/-- The schemas in a public schema are public. -/
lemma PublicTree.at_position {root node : Schema} (h : PublicTree classification [] root)
    (hposition : Position root path node) : PublicTree classification path node := by
  induction hposition with
  | root => exact h
  | reference _ named _ ih =>
      obtain ⟨isPublic, -, -, -⟩ := ih
      rw [keyword?, isPublic.reference] at named
      cases named
  | property _ mem ih =>
      obtain ⟨-, property, -, -⟩ := ih
      exact property _ _ mem
  | items _ mem ih =>
      obtain ⟨-, -, items, -⟩ := ih
      exact items _ mem
  | branch _ mem ih =>
      obtain ⟨-, -, -, branch⟩ := ih
      exact branch _ mem

/-! ## Keyword by keyword -/

lemma properties_of_get {other : Schema} (h : schema.get "properties" = other.get "properties") :
    properties schema = properties other := by
  unfold properties
  rw [h]

variable {keyword : String}

/-- A keyword for items or branches that are public is added. -/
lemma PublicTree.set (h : PublicTree classification path result) {value : Json}
    (hkeyword : keyword ∈ ["items", "allOf", "anyOf", "if", "then", "else"])
    (hitems : keyword = "items" → ∀ child, value = .obj child →
      PublicTree classification (path ++ ["*"]) child) (hbranch : keyword ≠ "items" → ∀ child,
      (value = .obj child ∨ ∃ items, value = .arr items ∧ Json.obj child ∈ items) →
        PublicTree classification path child) :
    PublicTree classification path (result.set keyword value) := by
  have hother : ∀ other, other ∉ ["items", "allOf", "anyOf", "if", "then", "else"] →
      (result.set keyword value).get other = result.get other := fun other hnot =>
    Dict.get_set_of_ne _ _ (ne_of_mem_of_not_mem hkeyword hnot).symm
  obtain ⟨isPublic, property, items, branch⟩ := h
  have hproperties : properties (result.set keyword value) = properties result :=
    properties_of_get (hother _ (by decide))
  refine .node ⟨?_, ?_, ?_, ?_⟩ ?_ ?_ ?_
  · rw [hother _ (by decide)]
    exact isPublic.reference
  · rw [hproperties]
    exact isPublic.shown
  · rw [hother _ (by decide), hproperties]
    exact isPublic.required
  · unfold schemaAllowsObject
    rw [hother _ (by decide), hother _ (by decide), hother _ (by decide)]
    exact isPublic.closed
  · rw [hproperties]
    exact property
  · intro child hchild
    rw [mem_subschema, Dict.get_set] at hchild
    split at hchild
    · next heq => exact hitems heq.symm child (Option.some.inj hchild)
    · exact items child (mem_subschema.2 hchild)
  · intro child hchild
    rcases mem_branchesOf.1 hchild with ⟨other, hother, list, hget, hmem⟩ | ⟨other, hother, hget⟩
    · rw [Dict.get_set] at hget
      split at hget
      · next heq =>
          refine hbranch ?_ child (.inr ⟨list, Option.some.inj hget, hmem⟩)
          rintro rfl
          subst heq
          simp at hother
      · exact branch child (mem_branchesOf.2 (.inl ⟨other, hother, list, hget, hmem⟩))
    · rw [Dict.get_set] at hget
      split at hget
      · next heq =>
          refine hbranch ?_ child (.inl (Option.some.inj hget))
          rintro rfl
          subst heq
          simp at hother
      · exact branch child (mem_branchesOf.2 (.inr ⟨other, hother, hget⟩))

/-- Branches are added. -/
lemma PublicTree.set_branches (h : PublicTree classification path result) {branches : List Json}
    (hkeyword : keyword ∈ ["allOf", "anyOf"])
    (hbranches : ∀ child, Json.obj child ∈ branches → PublicTree classification path child) :
    PublicTree classification path (result.set keyword (.arr branches)) := by
  refine h.set (by revert keyword; decide) ?_ fun _ child hchild => ?_
  · rintro rfl
    simp at hkeyword
  · rcases hchild with hchild | ⟨items, hitems, hmem⟩
    · cases hchild
    · exact hbranches child (Json.arr.inj hitems ▸ hmem)

/-- A condition or one of its arms is added. -/
lemma PublicTree.set_branch (h : PublicTree classification path result) {branch : Schema}
    (hkeyword : keyword ∈ ["if", "then", "else"]) (hbranch : PublicTree classification path branch) :
    PublicTree classification path (result.set keyword (.obj branch)) := by
  refine h.set (by revert keyword; decide) ?_ fun _ child hchild => ?_
  · rintro rfl
    simp at hkeyword
  · rcases hchild with hchild | ⟨items, hitems, -⟩
    · exact Json.obj.inj hchild ▸ hbranch
    · cases hitems

/-- The scalar keywords of a node. -/
lemma get_scalars (schema : Schema) (keyword : String) :
    Dict.get (schema.filter fun entry => entry.1 ∈ publicScalarKeywords) keyword =
      if keyword ∈ publicScalarKeywords then schema.get keyword else none := by
  induction schema with
  | nil => simp
  | cons entry schema ih =>
      rw [List.filter_cons]
      by_cases hentry : entry.1 ∈ publicScalarKeywords
      · rw [if_pos (by simpa using hentry), Dict.get_cons, Dict.get_cons, ih]
        by_cases heq : entry.1 = keyword
        · rw [if_pos heq, if_pos heq, if_pos (heq ▸ hentry)]
        · rw [if_neg heq, if_neg heq]
      · rw [if_neg (by simpa using hentry), ih]
        by_cases hkeyword : keyword ∈ publicScalarKeywords
        · have hne : entry.1 ≠ keyword := fun heq => hentry (heq ▸ hkeyword)
          rw [if_pos hkeyword, if_pos hkeyword, Dict.get_cons, if_neg hne]
        · rw [if_neg hkeyword, if_neg hkeyword]

/-- A node has neither items nor branches yet. -/
def Childless (result : Schema) : Prop :=
  ∀ keyword ∈ ["items", "allOf", "anyOf", "oneOf", "if", "then", "else"], result.get keyword = none

/-- A node without items and branches is public with its properties. -/
lemma Childless.publicTree (hchildless : Childless result)
    (h : IsPublicNode classification path result)
    (hproperty : ∀ name child, (name, Json.obj child) ∈ properties result →
      PublicTree classification (path ++ [name]) child) :
    PublicTree classification path result := by
  refine .node h hproperty ?_ ?_
  · intro child hchild
    rw [mem_subschema, hchildless "items" (by simp)] at hchild
    cases hchild
  · intro child hchild
    rcases mem_branchesOf.1 hchild with ⟨keyword, hkeyword, items, hget, -⟩ | ⟨keyword, hkeyword, hget⟩
    · rw [hchildless keyword (by simp at hkeyword ⊢; tauto)] at hget
      cases hget
    · rw [hchildless keyword (by simp at hkeyword ⊢; tauto)] at hget
      cases hget

lemma properties_eq_nil (h : schema.get "properties" = none) : properties schema = [] := by
  unfold properties
  rw [h]

/-- The scalar keywords of a node that allows no objects. -/
lemma publicTree_scalars (h : schemaAllowsObject schema = false) :
    PublicTree classification path
      (schema.filter fun entry => entry.1 ∈ publicScalarKeywords) := by
  have hnone : ∀ keyword, keyword ∉ publicScalarKeywords →
      Dict.get (schema.filter fun entry => entry.1 ∈ publicScalarKeywords) keyword = none :=
    fun keyword hnot => by rw [get_scalars, if_neg hnot]
  have hproperties := properties_eq_nil (hnone "properties" (by decide))
  refine Childless.publicTree ?_ ⟨hnone _ (by decide), ?_, ?_, ?_⟩ ?_
  · intro keyword hkeyword
    exact hnone keyword (by revert keyword; decide)
  · rw [hproperties]
    simp
  · rw [hnone "required" (by decide)]
    simp
  · unfold schemaAllowsObject at h ⊢
    rw [get_scalars, if_pos (by decide), hnone "properties" (by decide)]
    rw [(Bool.or_eq_false_iff.1 h).1]
    simp
  · rw [hproperties]
    simp

/-- The keywords of a node that allows objects. -/
lemma publicTree_object {shown : List (String × Json)} {names : List Json} {type : Json}
    (hshown : ∀ property ∈ shown, classification.exposes (path ++ [property.1]) = true ∧
      ∀ child, property.2 = .obj child → PublicTree classification (path ++ [property.1]) child)
    (hnames : ∀ name ∈ names, ∃ property ∈ shown, name = .str property.1) :
    PublicTree classification path
      (Dict.setAll (schema.filter fun entry => entry.1 ∈ publicScalarKeywords) [("type", type),
        ("properties", .obj shown), ("required", .arr names),
        ("additionalProperties", .bool false)]) := by
  set node := Dict.setAll (schema.filter fun entry => entry.1 ∈ publicScalarKeywords) [("type", type),
    ("properties", .obj shown), ("required", .arr names), ("additionalProperties", .bool false)]
    with hnode
  have hget : ∀ keyword, node.get keyword =
      if keyword = "additionalProperties" then some (.bool false)
      else if keyword = "required" then some (.arr names)
      else if keyword = "properties" then some (.obj shown)
      else if keyword = "type" then some type
      else Dict.get (schema.filter fun entry => entry.1 ∈ publicScalarKeywords) keyword := by
    intro keyword
    rw [hnode]
    simp only [Dict.setAll, List.foldl_cons, List.foldl_nil, Dict.get_set]
  have hnone : ∀ keyword, keyword ∉ publicScalarKeywords →
      keyword ∉ ["additionalProperties", "required", "properties", "type"] →
        node.get keyword = none := by
    intro keyword hscalar hset
    simp only [List.mem_cons, List.not_mem_nil, or_false, not_or] at hset
    rw [hget, if_neg hset.1, if_neg hset.2.1, if_neg hset.2.2.1, if_neg hset.2.2.2, get_scalars,
      if_neg hscalar]
  have hproperties : properties node = shown := by
    unfold properties
    rw [hget]
    rfl
  refine Childless.publicTree ?_ ⟨hnone _ (by decide) (by decide), ?_, ?_, ?_⟩ ?_
  · intro keyword hkeyword
    exact hnone keyword (by revert keyword; decide) (by revert keyword; decide)
  · rw [hproperties]
    exact fun property hproperty => (hshown property hproperty).1
  · rw [hproperties, hget]
    rintro names ⟨⟩
    exact hnames
  · intro _
    rw [hget]
    rfl
  · rw [hproperties]
    exact fun name child hmem => (hshown _ hmem).2 child rfl

/-! ## `_public_schema_node` -/

/-- Every matched path is that of a schema. -/
def Placed (root : Schema) (matched : Finset FieldPath) : Prop :=
  ∀ path ∈ matched, ∃ node, Position root path node

variable {root : Schema} {node : FieldPath → Schema → Matching Schema}

/-- What `node` makes of the schemas in the root is public. -/
def RewritesNodes (classification : PublicOutputClassification) (root : Schema)
    (node : FieldPath → Schema → Matching Schema) : Prop :=
  ∀ path child, Position root path child →
    Keeps (Placed root) (node path child) (PublicTree classification path)

lemma keeps_addMatched {child : Schema} (h : Position root path child) :
    Keeps (Placed root) (addMatched classification path) fun _ => True := by
  refine Keeps.modify fun matched hmatched => ?_
  split
  · intro other hother
    rcases Finset.mem_insert.1 hother with rfl | hother
    · exact ⟨child, h⟩
    · exact hmatched other hother
  · exact hmatched

lemma keeps_publicProperty (hposition : Position root path schema)
    (hnode : RewritesNodes classification root node)
    {property : String × Json} (hproperty : property ∈ properties schema) :
    Keeps (Placed root) (publicProperty classification node path property) fun shown =>
      ∀ field ∈ shown, classification.exposes (path ++ [field.1]) = true ∧
        ∀ child, field.2 = .obj child → PublicTree classification (path ++ [field.1]) child := by
  obtain ⟨name, value⟩ := property
  unfold publicProperty
  cases value with
  | obj child =>
      have hchild := hposition.property hproperty
      simp only [mapping?]
      split
      · next hexposes =>
          refine Keeps.bind (keeps_addMatched hchild) fun _ _ => ?_
          refine Keeps.bind (hnode _ _ hchild) fun shown hshown => Keeps.pure ?_
          rintro field ⟨⟩
          exact ⟨hexposes, fun child heq => Json.obj.inj heq ▸ hshown⟩
      · exact Keeps.pure fun field hfield => nomatch hfield
  | _ => exact Keeps.throw

lemma properties_of_getD {fields : List (String × Json)}
    (h : (schema.get "properties").getD (.obj []) = .obj fields) : properties schema = fields := by
  unfold properties
  cases hget : schema.get "properties" with
  | none =>
      rw [hget] at h
      exact Json.obj.inj h
  | some value =>
      rw [hget, Option.getD_some] at h
      rw [h]

lemma keeps_publicObject (hposition : Position root path schema)
    (hnode : RewritesNodes classification root node) :
    Keeps (Placed root) (publicObject classification node path schema
      (schema.filter fun entry => entry.1 ∈ publicScalarKeywords))
        (PublicTree classification path) := by
  unfold publicObject
  split
  · split
    · next fields required hfields =>
        have hproperties := properties_of_getD hfields
        refine Keeps.bind (Keeps.mapM fun property hproperty =>
          keeps_publicProperty hposition hnode (hproperties ▸ hproperty)) fun shown hshown => ?_
        split
        · next names =>
            split
            · refine Keeps.pure (publicTree_object ?_ ?_)
              · intro field hfield
                rw [List.reduceOption_mem_iff] at hfield
                obtain ⟨property, -, hproperty⟩ := exists_of_forall₂ hshown hfield
                exact hproperty field rfl
              · intro name hname
                have hmem := of_decide_eq_true (List.mem_filter.1 hname).2
                obtain ⟨property, hproperty, rfl⟩ := List.mem_map.1 hmem
                exact ⟨property, hproperty, rfl⟩
            · exact Keeps.throw
        · exact Keeps.throw
    · exact Keeps.throw
  · next hallows => exact Keeps.pure (publicTree_scalars (by simpa using hallows))

lemma keeps_publicItems (hposition : Position root path schema)
    (hnode : RewritesNodes classification root node)
    (hresult : PublicTree classification path result) :
    Keeps (Placed root) (publicItems classification node path schema result)
      (PublicTree classification path) := by
  unfold publicItems
  split
  · exact Keeps.pure hresult
  · next items hget =>
      have hitems := hposition.items (mem_subschema.2 hget)
      refine Keeps.bind (keeps_addMatched hitems) fun _ _ => ?_
      refine Keeps.bind (hnode _ _ hitems) fun shown hshown => Keeps.pure ?_
      refine hresult.set (by simp) (fun _ child heq => ?_) fun hne => absurd rfl hne
      exact Json.obj.inj heq ▸ hshown
  · exact Keeps.throw

lemma keeps_publicBranches (hposition : Position root path schema)
    (hnode : RewritesNodes classification root node)
    (hresult : PublicTree classification path result)
    (hkeyword : keyword ∈ ["allOf", "anyOf", "oneOf"]) :
    Keeps (Placed root) (publicBranches node path schema keyword result)
      (PublicTree classification path) := by
  unfold publicBranches
  split
  · exact Keeps.pure hresult
  · next values hget =>
      split
      · have hvalues : ∀ child ∈ mappings (some (.arr values)), Position root path child := by
          intro child hchild
          obtain ⟨items, hitems, hmem⟩ := mem_mappings.1 hchild
          obtain rfl := Json.arr.inj (Option.some.inj hitems)
          exact hposition.branch (mem_branchesOf.2 (.inl ⟨keyword, hkeyword, _, hget, hmem⟩))
        have hset : ∀ keyword ∈ ["allOf", "anyOf", "oneOf"],
            (if keyword = "oneOf" then "anyOf" else keyword) ∈ ["allOf", "anyOf"] := by decide
        refine Keeps.bind (Keeps.mapM fun child hchild => hnode _ _ (hvalues child hchild))
          fun transformed htransformed => Keeps.pure ?_
        refine hresult.set_branches (hset keyword hkeyword) fun child hchild => ?_
        obtain ⟨shown, hshown, heq⟩ := List.mem_map.1 hchild
        obtain ⟨_, -, hpublic⟩ := exists_of_forall₂ htransformed hshown
        exact Json.obj.inj heq ▸ hpublic
      · exact Keeps.throw
  · exact Keeps.throw

lemma keeps_publicArm (hposition : Position root path schema)
    (hnode : RewritesNodes classification root node)
    (hresult : PublicTree classification path result) (hkeyword : keyword ∈ ["then", "else"]) :
    Keeps (Placed root) (publicArm node path schema keyword result)
      (PublicTree classification path) := by
  unfold publicArm
  split
  · next branch hget =>
      have hbranch := hposition.branch (mem_branchesOf.2
        (.inr ⟨keyword, List.mem_cons_of_mem _ hkeyword, hget⟩))
      refine Keeps.bind (hnode _ _ hbranch) fun shown hshown => Keeps.pure ?_
      exact hresult.set_branch (List.mem_cons_of_mem _ hkeyword) hshown
  · exact Keeps.pure hresult

/-- Either of two public schemas. -/
lemma publicTree_union {first second : Schema} (hfirst : PublicTree classification path first)
    (hsecond : PublicTree classification path second) :
    PublicTree classification path [("anyOf", .arr [.obj first, .obj second])] := by
  have hempty : PublicTree classification path [] :=
    publicTree_scalars (show schemaAllowsObject [] = false from rfl)
  have hkeyword : "anyOf" ∈ ["allOf", "anyOf"] := by simp
  refine hempty.set_branches hkeyword fun child hchild => ?_
  rcases List.mem_pair.1 hchild with heq | heq
  · exact Json.obj.inj heq ▸ hfirst
  · exact Json.obj.inj heq ▸ hsecond

lemma keeps_publicUnion (hposition : Position root path schema)
    (hnode : RewritesNodes classification root node)
    (hresult : PublicTree classification path result) :
    Keeps (Placed root) (publicUnion node path schema result) (PublicTree classification path) := by
  unfold publicUnion
  split
  · next thenBranch elseBranch hthen helse =>
      have hfirst := hposition.branch (mem_branchesOf.2 (.inr ⟨"then", by simp, hthen⟩))
      have hsecond := hposition.branch (mem_branchesOf.2 (.inr ⟨"else", by simp, helse⟩))
      refine Keeps.bind (hnode _ _ hfirst) fun first hfirst => ?_
      refine Keeps.bind (hnode _ _ hsecond) fun second hsecond => ?_
      split
      · next conjuncts hconjuncts =>
          refine Keeps.pure (hresult.set_branches (by simp) fun child hchild => ?_)
          rcases List.mem_append.1 hchild with hchild | hchild
          · obtain ⟨-, -, -, hbranch⟩ := hresult
            refine hbranch child (mem_branchesOf.2 (.inl ⟨"allOf", by simp, conjuncts, ?_, hchild⟩))
            cases hget : result.get "allOf" with
            | none =>
                rw [hget] at hconjuncts
                cases hconjuncts
                cases hchild
            | some value =>
                rw [hget] at hconjuncts
                rw [← hconjuncts, Option.getD_some]
          · exact Json.obj.inj (List.mem_singleton.1 hchild) ▸ publicTree_union hfirst hsecond
      · exact Keeps.throw
  · exact Keeps.pure hresult

lemma keeps_publicCondition (mentions : Schema → Except String Bool)
    (hposition : Position root path schema)
    (hnode : RewritesNodes classification root node)
    (hresult : PublicTree classification path result) :
    Keeps (Placed root) (publicCondition mentions node path schema result)
      (PublicTree classification path) := by
  unfold publicCondition
  split
  · exact Keeps.pure hresult
  · next condition hget =>
      have hcondition : schema.get "if" = some (.obj condition) :=
        (Option.filter_eq_some_iff.1 hget).1
      have hif := hposition.branch (mem_branchesOf.2 (.inr ⟨"if", by simp, hcondition⟩))
      refine Keeps.bind (Keeps.lift fun _ _ => trivial) fun hidden _ => ?_
      split
      · exact keeps_publicUnion hposition hnode hresult
      · refine Keeps.bind (hnode _ _ hif) fun shown hshown => ?_
        refine Keeps.bind (keeps_publicArm hposition hnode (hresult.set_branch (by simp) hshown)
          (by simp)) fun _ hthen => ?_
        exact keeps_publicArm hposition hnode hthen (by simp)
  · exact Keeps.throw

/-- The node that is built is public, and what it matches has a schema. -/
theorem keeps_publicSchemaNode {depth : ℕ} {references : List String}
    (hposition : Position root path schema) :
    Keeps (Placed root) (publicSchemaNode classification root depth references path schema)
      (PublicTree classification path) := by
  induction depth generalizing references path schema with
  | zero => exact Keeps.throw
  | succ depth ih =>
      rw [publicSchemaNode]
      split
      · next reference hreference =>
          refine Keeps.bind (Keeps.lift (V := fun followed => Position root path followed.2) ?_)
            fun followed hfollowed => ih hfollowed
          rintro ⟨name, target⟩ hfollow
          obtain ⟨rfl, hfound⟩ := follow_eq_ok hfollow
          exact hposition.reference hreference hfound
      · have hnode : RewritesNodes classification root
            (publicSchemaNode classification root depth references) := fun path child h => ih h
        refine Keeps.bind (keeps_publicObject hposition hnode) fun _ hresult => ?_
        refine Keeps.bind (keeps_publicItems hposition hnode hresult) fun _ hresult => ?_
        refine Keeps.bind (keeps_publicBranches hposition hnode hresult (by simp)) fun _ hresult => ?_
        refine Keeps.bind (keeps_publicBranches hposition hnode hresult (by simp)) fun _ hresult => ?_
        refine Keeps.bind (keeps_publicBranches hposition hnode hresult (by simp)) fun _ hresult => ?_
        exact keeps_publicCondition _ hposition hnode hresult

end

/-- The schema that a generated tool publishes, wherever one looks in it, follows no reference,
shows only what is exposed, requires only what it shows and is closed; and every public path is that
of a schema in the reviewed schema. -/
theorem publicOutputSchema_public {validator : Validator} {depth : ℕ} {schema publicSchema : Schema}
    {paths : List String} (h : publicOutputSchema validator depth schema paths = .ok publicSchema) :
    (∀ path node, Position publicSchema path node → IsPublicNode (.fromPaths paths) path node) ∧
      ∀ path ∈ paths, ∃ source node, schemaCopy schema = .ok source ∧
        Position source (publicFieldPath path) node := by
  unfold publicOutputSchema at h
  simp only [bind_eq_ok, require_eq_ok, decide_eq_true_eq] at h
  obtain ⟨source, hcopy, -, -, ⟨projected, matched⟩, hrun, -, hmatched, -, -, heq⟩ := h
  obtain rfl := Except.ok.inj heq
  have hnone : Placed source ∅ := fun path hpath => absurd hpath (Finset.notMem_empty path)
  obtain ⟨htree, hplaced⟩ := keeps_publicSchemaNode Position.root _ _ _ hnone hrun
  refine ⟨fun path node hposition => ?_, fun path hpath => ?_⟩
  · obtain ⟨isPublic, -, -, -⟩ := htree.at_position hposition
    exact isPublic
  · have hmem : publicFieldPath path ∈ (PublicOutputClassification.fromPaths paths).paths :=
      List.mem_toFinset.2 (List.mem_map_of_mem hpath)
    obtain ⟨node, hnode⟩ := hplaced _ (hmatched ▸ hmem)
    exact ⟨source, node, hcopy, hnode⟩

/-- What is published of the schema of an account. -/
def accountPublicSchema : Schema :=
  [("type", .str "object"), ("properties", .obj [("account", .obj [("type", .str "object"),
      ("properties", .obj [("id", .obj [("type", .str "string")])]),
      ("required", .arr [.str "id"]), ("additionalProperties", .bool false)])]),
    ("required", .arr [.str "account"]), ("additionalProperties", .bool false)]

theorem publicOutputSchema_public_account :
    (∀ path node, Position accountPublicSchema path node →
      IsPublicNode (.fromPaths ["/account/id"]) path node) ∧
      ∀ path ∈ ["/account/id"], ∃ source node, schemaCopy accountSchema = .ok source ∧
        Position source (publicFieldPath path) node :=
  publicOutputSchema_public
    (show publicOutputSchema acceptingValidator 8 accountSchema ["/account/id"] = .ok _ by
      decide +kernel)

end MercuryTools.Mcp
