import MercuryTools.Framework.Dictionaries
import MercuryTools.Framework.Programs
import Mathlib.Data.List.Dedup
import Mathlib.Data.List.Sort
import Mathlib.Data.String.Basic

/-!
# The publisher of generated tools

`GeneratedProviderToolPublisher` keeps the tools that are generated from the catalog registered on
one server.  `publish` stages its tools, takes a generation number, waits for the lock and swaps
the registered tools for the staged ones, unless a newer request has been made in the meantime.
`reconcile` retries the transitions that are outstanding and publishes what is current then.
`clear` removes the tools at once.

What staging comes to, and whether the server accepts a tool, is left open: every outcome is
allowed.
-/

namespace MercuryTools.Mcp

open Programs

/-! ## Tools on a server -/

/-- A registered tool: one that was generated, or one of the server's own. -/
inductive Tool (T : Type) where
  | generated (staged : T)
  | stable (name : String)
  deriving DecidableEq

/-- `_tool_manager._tools`. -/
abbrev ToolRegistry (T : Type) : Type :=
  Dict String (Tool T)

/-- The tools that one request stages, by their names. -/
structure Staged (T : Type) where
  tools : Dict String T
  nodup : tools.keys.Nodup

/-- What registering a tool comes to: `add_tool` or a contract may raise, before or after the tool
is in the registry. -/
inductive Registration where
  | registers
  | raisesBefore (code : String)
  | raisesAfter (code : String)
  deriving DecidableEq

variable {T : Type}

/-- `_register`. -/
def register (registration : Registration) (tools : ToolRegistry T) (name : String) (staged : T) :
    Except String Unit × ToolRegistry T :=
  match registration with
  | .registers => (.ok (), tools.set name (.generated staged))
  | .raisesBefore code => (.error code, tools)
  | .raisesAfter code => (.error code, tools.set name (.generated staged))

/-- The second loop of `_swap`. -/
def registerAll (registration : String → Registration) :
    List (String × T) → ToolRegistry T → Except String Unit × ToolRegistry T
  | [], tools => (.ok (), tools)
  | (name, staged) :: rest, tools =>
      match register (registration name) tools name staged with
      | (.ok (), tools) => registerAll registration rest tools
      | (.error code, tools) => (.error code, tools)

/-- Remove those of the names that are registered. -/
def removeAll (names : List String) (tools : ToolRegistry T) : ToolRegistry T :=
  names.foldl (fun tools name => if (tools.get name).isSome then tools.remove name else tools) tools

/-- Put the tools back that were registered before. -/
def restoreAll (previous : List (String × Option (Tool T))) (tools : ToolRegistry T) :
    ToolRegistry T :=
  previous.foldl (fun tools entry =>
    match entry.2 with
    | some registered => tools.set entry.1 registered
    | none => tools) tools

/-- What a swap comes to. -/
inductive Swap where
  | unchanged
  | changed
  | raised (code : String)
  deriving DecidableEq

/-- The registry and `_published`, the identities of the published tools. -/
structure Published (T : Type) where
  tools : ToolRegistry T
  identities : Dict String String

/-- `{name: item.identity for name, item in staged.items()}`. -/
def targetIdentities (identity : T → String) (staged : Staged T) : Dict String String :=
  staged.tools.map fun entry => (entry.1, identity entry.2)

/-- `set(self._published) | set(staged)`. -/
def managedNames (published : Published T) (staged : Staged T) : List String :=
  (published.identities.keys ++ staged.tools.keys).dedup

/-- `_swap`. -/
def swap (identity : T → String) (registration : String → Registration) (published : Published T)
    (staged : Staged T) : Swap × Published T :=
  let target := targetIdentities identity staged
  if target.same published.identities then (.unchanged, published)
  else
    let managed := managedNames published staged
    let previous := managed.map fun name => (name, published.tools.get name)
    let cleared := removeAll (managed.insertionSort (· ≤ ·)) published.tools
    match registerAll registration (staged.tools.insertionSort fun a b => a.1 ≤ b.1) cleared with
    | (.ok (), tools) => (.changed, ⟨tools, target⟩)
    | (.error code, tools) =>
        (.raised code, ⟨restoreAll previous (removeAll managed tools), published.identities⟩)

/-! ### What becomes of a name -/

variable {name : String} {registration : String → Registration} {staged : List (String × T)}
  {tools : ToolRegistry T} {names : List String} {f : String → Option (Tool T)}

lemma get_register (registration : Registration) (tools : ToolRegistry T) {other : String}
    (staged : T) (h : other ≠ name) :
    (register registration tools name staged).2.get other = tools.get other := by
  cases registration with
  | registers => exact Dict.get_set_of_ne _ _ h
  | raisesBefore code => rfl
  | raisesAfter code => exact Dict.get_set_of_ne _ _ h

lemma get_registerAll_of_not_mem (h : name ∉ staged.map Prod.fst) :
    (registerAll registration staged tools).2.get name = tools.get name := by
  induction staged generalizing tools with
  | nil => rfl
  | cons entry rest ih =>
      obtain ⟨other, tool⟩ := entry
      rw [List.map_cons, List.mem_cons, not_or] at h
      have hget := get_register (registration other) tools tool h.1
      unfold registerAll
      split
      · rename_i tools' heq
        rw [heq] at hget
        rw [ih h.2, hget]
      · rename_i code tools' heq
        rw [heq] at hget
        exact hget

/-- Where nothing raises, every staged tool is registered. -/
lemma get_registerAll_of_mem (hnodup : (staged.map Prod.fst).Nodup)
    (hok : (registerAll registration staged tools).1 = .ok ()) {tool : T}
    (h : (name, tool) ∈ staged) :
    (registerAll registration staged tools).2.get name = some (.generated tool) := by
  induction staged generalizing tools with
  | nil => cases h
  | cons entry rest ih =>
      obtain ⟨other, first⟩ := entry
      rw [List.map_cons, List.nodup_cons] at hnodup
      unfold registerAll at hok ⊢
      split at hok
      · rename_i tools' heq
        rcases List.mem_cons.1 h with hfirst | hrest
        · obtain ⟨rfl, rfl⟩ := Prod.mk.inj hfirst
          rw [get_registerAll_of_not_mem hnodup.1]
          cases hcase : registration name with
          | registers =>
              rw [hcase] at heq
              rw [← (Prod.mk.inj heq).2]
              exact Dict.get_set_self _ _ _
          | raisesBefore code => rw [hcase] at heq; cases (Prod.mk.inj heq).1
          | raisesAfter code => rw [hcase] at heq; cases (Prod.mk.inj heq).1
        · exact ih hnodup.2 hok hrest
      · cases hok

lemma get_removeAll (names : List String) (tools : ToolRegistry T) (name : String) :
    (removeAll names tools).get name = if name ∈ names then none else tools.get name := by
  unfold removeAll
  induction names generalizing tools with
  | nil => simp
  | cons other names ih =>
      rw [List.foldl_cons, ih]
      have hstep : (if (tools.get other).isSome then tools.remove other else tools).get name =
          if name = other then none else tools.get name := by
        by_cases hsome : (tools.get other).isSome = true
        · rw [if_pos hsome, Dict.get_remove]
        · rw [if_neg hsome]
          by_cases heq : name = other
          · rw [if_pos heq, heq]
            simpa using hsome
          · rw [if_neg heq]
      rw [hstep]
      by_cases hmem : name ∈ names
      · simp [hmem]
      · by_cases heq : name = other
        · simp [heq]
        · simp [hmem, heq]

lemma get_restoreAll_of_not_mem (h : name ∉ names) :
    (restoreAll (names.map fun name => (name, f name)) tools).get name = tools.get name := by
  unfold restoreAll
  induction names generalizing tools with
  | nil => rfl
  | cons other names ih =>
      rw [List.mem_cons, not_or] at h
      rw [List.map_cons, List.foldl_cons, ih h.2]
      dsimp only
      cases f other with
      | none => rfl
      | some tool => exact Dict.get_set_of_ne _ _ h.1

lemma get_restoreAll_of_mem (h : name ∈ names)
    (hnone : tools.get name = none ∨ tools.get name = f name) :
    (restoreAll (names.map fun name => (name, f name)) tools).get name = f name := by
  induction names generalizing tools with
  | nil => cases h
  | cons other names ih =>
      have hstep : ∀ {d : ToolRegistry T}, restoreAll ((other :: names).map fun name =>
          (name, f name)) d = restoreAll (names.map fun name => (name, f name))
            (match f other with | some tool => d.set other tool | none => d) := fun {d} => rfl
      rw [hstep]
      by_cases heq : name = other
      · subst heq
        have hset : (match f name with
            | some tool => tools.set name tool
            | none => tools).get name = f name := by
          cases hf : f name with
          | none => rw [hf] at hnone; exact hnone.elim id id
          | some tool => exact Dict.get_set_self _ _ _
        by_cases hmem : name ∈ names
        · exact ih hmem (.inr hset)
        · rw [get_restoreAll_of_not_mem hmem, hset]
      · refine ih ((List.mem_cons.1 h).resolve_left heq) ?_
        cases f other with
        | none => exact hnone
        | some tool =>
            dsimp only
            rw [Dict.get_set_of_ne _ _ heq]
            exact hnone

/-! ### What a swap does -/

section

variable {identity : T → String} {registration : String → Registration} {published : Published T}
  {staged : Staged T}

lemma mem_managedNames {name : String} : name ∈ managedNames published staged ↔
    name ∈ published.identities.keys ∨ name ∈ staged.tools.keys := by
  unfold managedNames
  rw [List.mem_dedup, List.mem_append]

lemma get_targetIdentities (name : String) :
    (targetIdentities identity staged).get name = (staged.tools.get name).map identity :=
  Dict.get_mapValues _ _ _

/-- The three outcomes. -/
lemma swap_cases (identity : T → String) (registration : String → Registration)
    (published : Published T) (staged : Staged T) :
    (swap identity registration published staged = (.unchanged, published) ∧
      ∀ name, (staged.tools.get name).map identity = published.identities.get name) ∨
    (∃ tools, swap identity registration published staged =
        (.changed, ⟨tools, targetIdentities identity staged⟩) ∧
      ∀ name, tools.get name = ((staged.tools.get name).map Tool.generated).or
        (if name ∈ published.identities.keys then none else published.tools.get name)) ∨
    ∃ code tools, swap identity registration published staged =
        (.raised code, ⟨tools, published.identities⟩) ∧
      ∀ name, tools.get name = published.tools.get name := by
  have hperm : (staged.tools.insertionSort fun a b => a.1 ≤ b.1).Perm staged.tools :=
    List.perm_insertionSort _ _
  have hnodup : ((staged.tools.insertionSort fun a b => a.1 ≤ b.1).map Prod.fst).Nodup :=
    (hperm.map Prod.fst).nodup_iff.2 staged.nodup
  have hcleared : ∀ name, (removeAll ((managedNames published staged).insertionSort (· ≤ ·))
      published.tools).get name = if name ∈ managedNames published staged then none
        else published.tools.get name := by
    intro name
    rw [get_removeAll]
    simp only [List.mem_insertionSort]
  unfold swap
  dsimp only
  split
  · rename_i hsame
    refine .inl ⟨rfl, fun name => ?_⟩
    rw [← get_targetIdentities, Dict.same_iff.1 hsame]
  split
  · rename_i tools heq
    refine .inr (.inl ⟨tools, rfl, fun name => ?_⟩)
    have htools := congrArg Prod.snd heq
    dsimp only at htools
    rw [← htools]
    by_cases hmem : name ∈ staged.tools.keys
    · obtain ⟨tool, htool⟩ := Option.isSome_iff_exists.1 (Dict.isSome_get.2 hmem)
      have hstaged := hperm.mem_iff.2 ((Dict.get_eq_some_iff staged.nodup).1 htool)
      rw [get_registerAll_of_mem hnodup (congrArg Prod.fst heq) hstaged, htool]
      rfl
    · have hsorted : name ∉ (staged.tools.insertionSort fun a b => a.1 ≤ b.1).map Prod.fst :=
        fun h => hmem ((hperm.map Prod.fst).mem_iff.1 h)
      rw [get_registerAll_of_not_mem hsorted, hcleared, Dict.get_eq_none.2 hmem, Option.map_none,
        Option.none_or]
      simp only [mem_managedNames, hmem, or_false]
  · rename_i code tools heq
    refine .inr (.inr ⟨code, _, rfl, fun name => ?_⟩)
    have htools := congrArg Prod.snd heq
    dsimp only at htools
    by_cases hmem : name ∈ managedNames published staged
    · apply get_restoreAll_of_mem hmem
      rw [get_removeAll, if_pos hmem]
      exact .inl rfl
    · have hsorted : name ∉ (staged.tools.insertionSort fun a b => a.1 ≤ b.1).map Prod.fst :=
        fun h => hmem (mem_managedNames.2 (.inr ((hperm.map Prod.fst).mem_iff.1 h)))
      rw [get_restoreAll_of_not_mem hmem, get_removeAll, if_neg hmem, ← htools,
        get_registerAll_of_not_mem hsorted, hcleared, if_neg hmem]

end

/-! ## The publisher -/

/-- What happened, in order.  The entries are bookkeeping of the model; that of a failed swap says
what was registered before and after. -/
inductive Entry (T : Type) where
  | requested (generation : Nat) (staged : Staged T)
  | cancelled (generation : Nat)
  | dropped (generation : Nat)
  | unchanged (generation : Nat) (staged : Staged T)
  | committed (generation : Nat) (staged : Staged T)
  | failed (generation : Nat) (before after : ToolRegistry T)
  | cleared

/-- The request that an entry makes. -/
def Entry.request? : Entry T → Option Nat
  | .requested generation _ => some generation
  | _ => none

/-- The request that an entry brings to its end. -/
def Entry.ended? : Entry T → Option Nat
  | .requested _ _ | .cleared => none
  | .cancelled generation | .dropped generation | .unchanged generation _
  | .committed generation _ | .failed generation _ _ => some generation

/-- The requests that have been made. -/
def requests (history : List (Entry T)) : List Nat :=
  history.filterMap Entry.request?

/-- The requests whose turn is still to come. -/
def waiting (history : List (Entry T)) : List Nat :=
  (requests history).filter (· ∉ history.filterMap Entry.ended?)

structure PublisherState (T : Type) where
  published : Published T
  locked : Bool
  requestedGeneration : Nat
  committedGeneration : Nat
  history : List (Entry T)

namespace PublisherState

variable (s : PublisherState T)

def record (entry : Entry T) : PublisherState T :=
  { s with history := s.history ++ [entry] }

/-- `self._requested_generation += 1`. -/
def request (staged : Staged T) : Nat × PublisherState T :=
  let generation := s.requestedGeneration + 1
  (generation, { s with requestedGeneration := generation }.record
    (.requested generation staged))

/-- What the turn of a request comes to. -/
inductive Turn where
  | dropped
  | unchanged
  | changed
  | raised (code : String)
  deriving DecidableEq

/-- What `publish` does while it holds the lock. -/
def turn (identity : T → String) (registration : String → Registration) (generation : Nat)
    (staged : Staged T) : Turn × PublisherState T :=
  if generation < s.requestedGeneration then (.dropped, s.record (.dropped generation))
  else
    match swap identity registration s.published staged with
    | (.unchanged, _) => (.unchanged, s.record (.unchanged generation staged))
    | (.changed, published) =>
        (.changed, { s with published := published, committedGeneration := generation }.record
          (.committed generation staged))
    | (.raised code, published) =>
        (.raised code, { s with published := published }.record
          (.failed generation s.published.tools published.tools))

/-- `clear`. -/
def clear : Bool × PublisherState T :=
  (!s.published.identities.isEmpty,
    { s with published := ⟨removeAll s.published.identities.keys s.published.tools, []⟩ }.record
      .cleared)

end PublisherState

/-! ## Calls -/

/-- What the calls perform.  Between two of these a call keeps the event loop. -/
inductive PublisherEffect (Q T : Type) where
  | request (staged : Staged T)
  | acquire (generation : Nat)
  | turn (generation : Nat) (staged : Staged T)
  | notify
  | release
  | clear
  | quarantined
  | persist (qualification : Q)
  | alert (qualification : Q)

/-- What persisting a transition comes to. -/
inductive Persisted (Q : Type) where
  | persisted (current : List Q)
  | failed
  | cancelled

abbrev PublisherEffect.Answer {Q T : Type} : PublisherEffect Q T → Type
  | request _ => Nat
  | acquire _ => Except String Unit
  | turn _ _ => PublisherState.Turn
  | notify => Except String Unit
  | release => Unit
  | clear => Bool
  | quarantined => List Q
  | persist _ => Persisted Q
  | alert _ => Except String Unit

abbrev PublisherProgram (Q T α : Type) : Type :=
  Program (PublisherEffect Q T) PublisherEffect.Answer α

/-- What the calls are given: `_stage`, the identity of a staged tool, and how the current
qualifications stand to one that is quarantined. -/
structure PublisherEnvironment (Q T : Type) where
  stage : List Q → Except String (Staged T)
  identity : T → String
  changePersisted : List Q → Q → Bool
  enabledVersion : List Q → Q → Option Q

namespace PublisherEffect

variable {Q : Type}

def run (e : PublisherEffect Q T) : PublisherProgram Q T e.Answer :=
  .perform e .done

end PublisherEffect

section

variable {Q : Type} (env : PublisherEnvironment Q T)

def lift {α : Type} : Except String α → PublisherProgram Q T α
  | .ok a => .done a
  | .error code => .fail code

/-- The rest of `publish`: the notification, where there is one, and the release of the lock. -/
def afterTurn : PublisherState.Turn → PublisherProgram Q T Bool
  | .dropped => do
      PublisherEffect.release.run
      return false
  | .raised code => do
      PublisherEffect.release.run
      .fail code
  | .unchanged => do
      let notified ← PublisherEffect.notify.run
      PublisherEffect.release.run
      lift notified
      return false
  | .changed => do
      let notified ← PublisherEffect.notify.run
      PublisherEffect.release.run
      lift notified
      return true

/-- What `publish` does from its request on. -/
def awaitTurn (generation : Nat) (staged : Staged T) : PublisherProgram Q T Bool := do
  let acquired ← (PublisherEffect.acquire generation).run
  lift acquired
  let turn ← (PublisherEffect.turn generation staged).run
  afterTurn turn

/-- `publish`. -/
def publish (qualifications : List Q) : PublisherProgram Q T Bool := do
  let staged ← lift (env.stage qualifications)
  let generation ← (PublisherEffect.request staged).run
  awaitTurn generation staged

/-- The loop of `reconcile` over the quarantined versions. -/
def settle : List Q → List Q → PublisherProgram Q T (List Q)
  | [], current => return current
  | qualification :: rest, current =>
      if env.changePersisted current qualification then settle rest current
      else
        match env.enabledVersion current qualification with
        | none => settle rest current
        | some enabled => do
            match ← (PublisherEffect.persist enabled).run with
            | .persisted current => settle rest current
            | .cancelled => .fail "cancelled"
            | .failed => do
                let alerted ← (PublisherEffect.alert qualification).run
                lift alerted
                settle rest current

/-- `reconcile`. -/
def reconcile (qualifications : List Q) : PublisherProgram Q T Bool := do
  let quarantined ← PublisherEffect.quarantined.run
  let current ← settle env quarantined qualifications
  publish env current

/-- `clear`. -/
def clear : PublisherProgram Q T Bool :=
  PublisherEffect.clear.run

/-- How the effects are answered: the lock is given to one call at a time, waiting for it and for
a notification may be cancelled, and registering a tool may raise. -/
def publisherHappens (s : PublisherState T) :
    (e : PublisherEffect Q T) → e.Answer → PublisherState T → Prop
  | .request staged, generation, s' => (generation, s') = s.request staged
  | .acquire _, .ok (), s' => s.locked = false ∧ s' = { s with locked := true }
  | .acquire generation, .error _, s' => s' = s.record (.cancelled generation)
  | .turn generation staged, answer, s' =>
      ∃ registration, (answer, s') = s.turn env.identity registration generation staged
  | .release, _, s' => s' = { s with locked := false }
  | .clear, changed, s' => (changed, s') = s.clear
  | .notify, _, s' | .quarantined, _, s' | .persist _, _, s' | .alert _, _, s' => s' = s

/-- Calls in any number. -/
def publisherRules :
    Rules (PublisherState T) (PublisherEffect Q T) PublisherEffect.Answer Bool where
  happens := publisherHappens env
  entry program := program = clear ∨
    ∃ qualifications, program = publish env qualifications ∨ program = reconcile env qualifications
  outside _ _ := False

end

end MercuryTools.Mcp
