import MercuryTools.Mcp.ToolPublisher
import Mathlib.Data.List.Induction

/-!
# What a publisher has done

The history of a publisher: the requests in the order of their generations, what became of each,
and when the tools were cleared.  `Legal` says how a history grows, `Lawful` what is to hold of a
publisher with its history, and `Orderly` that no request is carried out after a `clear` that came
after it, and that no request is lost that another one was dropped for.
-/

namespace MercuryTools.Mcp

variable {T : Type}

/-! ## What the history says -/

/-- The tools of the last committed request, until they are cleared. -/
def authority (history : List (Entry T)) : Dict String T :=
  history.foldl (fun tools entry =>
    match entry with
    | .committed _ staged => staged.tools
    | .cleared => []
    | _ => tools) []

def Entry.committed? : Entry T → Option Nat
  | .committed generation _ => some generation
  | _ => none

/-- The request found that its tools are registered or has registered them. -/
def Entry.succeeded? : Entry T → Option Nat
  | .committed generation _ | .unchanged generation _ => some generation
  | _ => none

def Entry.dropped? : Entry T → Option Nat
  | .dropped generation => some generation
  | _ => none

/-- The request was cancelled while it waited, or its swap raised. -/
def Entry.lost? : Entry T → Option Nat
  | .cancelled generation | .failed generation _ _ => some generation
  | _ => none

def Entry.isCleared : Entry T → Bool
  | .cleared => true
  | _ => false

def committed (history : List (Entry T)) : List Nat :=
  history.filterMap Entry.committed?

def succeeded (history : List (Entry T)) : List Nat :=
  history.filterMap Entry.succeeded?

def dropped (history : List (Entry T)) : List Nat :=
  history.filterMap Entry.dropped?

def lost (history : List (Entry T)) : List Nat :=
  history.filterMap Entry.lost?

/-- What happened since the last `clear`. -/
def sinceCleared (history : List (Entry T)) : List (Entry T) :=
  history.foldl (fun entries entry => if entry.isCleared then [] else entries ++ [entry]) []

section

variable (history : List (Entry T)) (entry : Entry T)

@[simp] lemma authority_concat : authority (history ++ [entry]) =
    match entry with
    | .committed _ staged => staged.tools
    | .cleared => []
    | _ => authority history := by
  unfold authority
  rw [List.foldl_append]
  rfl

@[simp] lemma requests_concat :
    requests (history ++ [entry]) = requests history ++ entry.request?.toList := by
  unfold requests
  rw [List.filterMap_append]
  cases entry <;> rfl

@[simp] lemma committed_concat :
    committed (history ++ [entry]) = committed history ++ entry.committed?.toList := by
  unfold committed
  rw [List.filterMap_append]
  cases entry <;> rfl

@[simp] lemma succeeded_concat :
    succeeded (history ++ [entry]) = succeeded history ++ entry.succeeded?.toList := by
  unfold succeeded
  rw [List.filterMap_append]
  cases entry <;> rfl

@[simp] lemma dropped_concat :
    dropped (history ++ [entry]) = dropped history ++ entry.dropped?.toList := by
  unfold dropped
  rw [List.filterMap_append]
  cases entry <;> rfl

@[simp] lemma sinceCleared_concat : sinceCleared (history ++ [entry]) =
    if entry.isCleared then [] else sinceCleared history ++ [entry] := by
  unfold sinceCleared
  rw [List.foldl_append]
  rfl

variable {history entry}

variable {generation : Nat}

lemma mem_waiting : generation ∈ waiting history ↔
    generation ∈ requests history ∧ ∀ entry ∈ history, entry.ended? ≠ some generation := by
  unfold waiting
  rw [List.mem_filter]
  simp

lemma mem_waiting_concat : generation ∈ waiting (history ++ [entry]) ↔
    (generation ∈ requests history ∨ entry.request? = some generation) ∧
      (∀ entry ∈ history, entry.ended? ≠ some generation) ∧ entry.ended? ≠ some generation := by
  rw [mem_waiting, requests_concat, List.mem_append, Option.mem_toList]
  simp only [List.mem_append, List.mem_singleton, or_imp, forall_and, forall_eq]

end

/-! ## What is to hold -/

/-- The registered tools are those of the latest authority, and so on. -/
structure Lawful (identity : T → String) (s : PublisherState T) : Prop where
  /-- The generated tools are those of the last committed request. -/
  registered : ∀ name staged, s.published.tools.get name = some (.generated staged) ↔
    (authority s.history).get name = some staged
  /-- A request that changes nothing finds its own tools. -/
  unchanged : ∀ before generation staged, before ++ [.unchanged generation staged] <+: s.history →
    ∀ name, (staged.tools.get name).map identity = ((authority before).get name).map identity
  /-- A failed swap leaves what was registered. -/
  failed : ∀ generation before after, .failed generation before after ∈ s.history →
    ∀ name, after.get name = before.get name
  /-- An older request does not overwrite a newer one. -/
  ordered : (committed s.history).Pairwise (· < ·)
  /-- A request is dropped for a newer one that succeeds, unless its turn is still to come. -/
  dropped : ∀ generation ∈ dropped s.history, ∃ newer, generation < newer ∧
    (newer ∈ succeeded s.history ∨ newer ∈ waiting s.history)
  /-- Nothing is registered after a `clear`, until a request is made. -/
  cleared : ∀ before after, s.history = before ++ .cleared :: after → requests after = [] →
    ∀ name staged, s.published.tools.get name ≠ some (.generated staged)

/-- What an entry must not do after the history.  A request that is carried out has been made
since the last `clear`.  Where a request is dropped, the newest one has not been lost.  A request
is lost only where a newer one is waiting, or where every dropped one is older than one that has
succeeded. -/
def Orderly.Follows (history : List (Entry T)) : Entry T → Prop
  | .committed generation _ => generation ∈ requests (sinceCleared history)
  | .dropped _ => (requests history).length ∉ lost history
  | .cancelled generation | .failed generation _ _ =>
      (∃ newer ∈ waiting history, generation < newer) ∨
        ∀ older ∈ dropped history, ∃ newer ∈ succeeded history, older < newer
  | .requested _ _ | .unchanged _ _ | .cleared => True

/-- Every entry is in order where it comes. -/
def Orderly (history : List (Entry T)) : Prop :=
  ∀ before entry, before ++ [entry] <+: history → Orderly.Follows before entry

lemma Orderly.concat_iff {history : List (Entry T)} {entry : Entry T} :
    Orderly (history ++ [entry]) ↔ Orderly history ∧ Orderly.Follows history entry := by
  constructor
  · intro h
    exact ⟨fun before other hinitial => h before other (hinitial.trans (List.prefix_append _ _)),
      h history entry (List.prefix_refl _)⟩
  · rintro ⟨h, hfollows⟩ before other hinitial
    rcases List.prefix_concat_iff.1 hinitial with heq | hinitial
    · obtain ⟨rfl, hother⟩ := List.append_inj' heq rfl
      rw [List.singleton_inj.1 hother]
      exact hfollows
    · exact h before other hinitial

/-! ## Histories that come about -/

/-- What may come next. -/
def Legal.Follows (identity : T → String) (history : List (Entry T)) : Entry T → Prop
  | .requested generation _ => generation = (requests history).length + 1
  | .cancelled generation => generation ∈ waiting history
  | .dropped generation => generation ∈ waiting history ∧ generation < (requests history).length
  | .unchanged generation staged =>
      generation ∈ waiting history ∧ .requested generation staged ∈ history ∧
        generation = (requests history).length ∧
          ∀ name, (staged.tools.get name).map identity = ((authority history).get name).map identity
  | .committed generation staged =>
      generation ∈ waiting history ∧ .requested generation staged ∈ history ∧
        generation = (requests history).length
  | .failed generation before after =>
      generation ∈ waiting history ∧ generation = (requests history).length ∧
        ∀ name, after.get name = before.get name
  | .cleared => True

inductive Legal (identity : T → String) : List (Entry T) → Prop where
  | nil : Legal identity []
  | concat {history : List (Entry T)} {entry : Entry T} (h : Legal identity history)
      (hfollows : Legal.Follows identity history entry) : Legal identity (history ++ [entry])

namespace Legal

variable {identity : T → String} {history : List (Entry T)} {entry : Entry T}

variable {generation : Nat}

/-- Only a waiting request comes to its end. -/
lemma Follows.mem_waiting (h : Follows identity history entry)
    (hended : entry.ended? = some generation) : generation ∈ waiting history := by
  cases entry with
  | requested _ _ => cases hended
  | cleared => cases hended
  | cancelled _ => exact Option.some.inj hended ▸ h
  | dropped _ | unchanged _ _ | committed _ _ | failed _ _ _ =>
      exact Option.some.inj hended ▸ h.1

lemma Follows.eq_of_request (h : Follows identity history entry)
    (hrequest : entry.request? = some generation) : generation = (requests history).length + 1 := by
  cases entry with
  | requested _ _ => exact Option.some.inj hrequest ▸ h
  | _ => cases hrequest

lemma mem_requests (h : Legal identity history) :
    generation ∈ requests history ↔ 0 < generation ∧ generation ≤ (requests history).length := by
  induction h with
  | nil =>
      constructor
      · intro hmem
        cases hmem
      · rintro ⟨hpos, hle⟩
        exact absurd hle (by simpa [requests] using Nat.ne_of_gt hpos)
  | @concat history entry h hfollows ih =>
      rw [requests_concat, List.mem_append, Option.mem_toList, ih, List.length_append]
      cases hrequest : entry.request? with
      | none => simp
      | some requested =>
          rw [hfollows.eq_of_request hrequest]
          simp only [Option.some.injEq, Option.toList_some, List.length_singleton]
          omega

/-- What a request comes to. -/
lemma mem_cases (hmem : generation ∈ requests history) :
    generation ∈ waiting history ∨ generation ∈ succeeded history ∨
      generation ∈ dropped history ∨ generation ∈ lost history := by
  by_cases hwaiting : generation ∈ waiting history
  · exact .inl hwaiting
  · rw [Mcp.mem_waiting, not_and] at hwaiting
    have hended := hwaiting hmem
    push Not at hended
    obtain ⟨entry, hentry, hended⟩ := hended
    refine .inr ?_
    cases entry with
    | requested _ _ => cases hended
    | cleared => cases hended
    | cancelled _ => exact .inr (.inr (List.mem_filterMap.2 ⟨_, hentry, hended⟩))
    | dropped _ => exact .inr (.inl (List.mem_filterMap.2 ⟨_, hentry, hended⟩))
    | unchanged _ _ => exact .inl (List.mem_filterMap.2 ⟨_, hentry, hended⟩)
    | committed _ _ => exact .inl (List.mem_filterMap.2 ⟨_, hentry, hended⟩)
    | failed _ _ _ => exact .inr (.inr (List.mem_filterMap.2 ⟨_, hentry, hended⟩))

/-- A dropped request is not the newest one. -/
lemma dropped_lt (h : Legal identity history) (hmem : generation ∈ dropped history) :
    generation < (requests history).length := by
  induction h with
  | nil => cases hmem
  | @concat history entry h hfollows ih =>
      rw [requests_concat, List.length_append]
      rw [dropped_concat, List.mem_append, Option.mem_toList] at hmem
      rcases hmem with hmem | hentry
      · have hlt := ih hmem
        omega
      · cases entry with
        | dropped _ =>
            have hlt := (Option.some.inj hentry ▸ hfollows.2 : generation < _)
            omega
        | _ => cases hentry

lemma mem_requests_of_ended (h : Legal identity history) (hentry : entry ∈ history)
    (hended : entry.ended? = some generation) : generation ∈ requests history := by
  induction h with
  | nil => cases hentry
  | @concat history last h hfollows ih =>
      rw [requests_concat, List.mem_append]
      rcases List.mem_append.1 hentry with hentry | hlast
      · exact .inl (ih hentry)
      · rw [List.mem_singleton.1 hlast] at hended
        exact .inl (Mcp.mem_waiting.1 (hfollows.mem_waiting hended)).1

/-- A committed request has been made and does not wait any more. -/
lemma mem_of_committed (h : Legal identity history) (hmem : generation ∈ committed history) :
    generation ∈ requests history ∧ generation ∉ waiting history := by
  obtain ⟨entry, hentry, hcommitted⟩ := List.mem_filterMap.1 hmem
  have hended : entry.ended? = some generation := by
    cases entry with
    | committed _ _ => exact hcommitted
    | _ => cases hcommitted
  exact ⟨h.mem_requests_of_ended hentry hended,
    fun hwaiting => (Mcp.mem_waiting.1 hwaiting).2 entry hentry hended⟩

/-- An older request does not overwrite a newer one. -/
lemma ordered (h : Legal identity history) : (committed history).Pairwise (· < ·) := by
  induction h with
  | nil => exact .nil
  | @concat history entry h hfollows ih =>
      rw [committed_concat]
      cases entry with
      | committed generation staged =>
          obtain ⟨hwaiting, -, hnewest⟩ := hfollows
          refine List.pairwise_append.2 ⟨ih, List.pairwise_singleton _ _, fun older holder => ?_⟩
          simp only [Entry.committed?, Option.toList_some, List.mem_singleton, forall_eq]
          obtain ⟨hmem, hended⟩ := h.mem_of_committed holder
          have hle := (h.mem_requests.1 hmem).2
          have hne : older ≠ generation := fun heq => hended (heq ▸ hwaiting)
          omega
      | _ => simpa [Entry.committed?] using ih

lemma unchanged (h : Legal identity history) {before : List (Entry T)} {staged : Staged T}
    (hinitial : before ++ [.unchanged generation staged] <+: history) (name : String) :
    (staged.tools.get name).map identity = ((authority before).get name).map identity := by
  induction h with
  | nil => exact absurd (List.prefix_nil.1 hinitial) (by simp)
  | concat h hfollows ih =>
      rcases List.prefix_concat_iff.1 hinitial with heq | hinitial
      · obtain ⟨rfl, hentry⟩ := List.append_inj' heq rfl
        rw [← List.singleton_inj.1 hentry] at hfollows
        exact hfollows.2.2.2 name
      · exact ih hinitial

lemma failed (h : Legal identity history) {before after : ToolRegistry T}
    (hmem : .failed generation before after ∈ history) (name : String) :
    after.get name = before.get name := by
  induction h with
  | nil => cases hmem
  | concat h hfollows ih =>
      rcases List.mem_append.1 hmem with hmem | hlast
      · exact ih hmem
      · rw [← List.mem_singleton.1 hlast] at hfollows
        exact hfollows.2.2 name

/-- A request that still waits does so until its own end. -/
lemma mem_waiting_concat_of_ne (hmem : generation ∈ waiting history)
    (hne : entry.ended? ≠ some generation) : generation ∈ waiting (history ++ [entry]) :=
  mem_waiting_concat.2 ⟨.inl (Mcp.mem_waiting.1 hmem).1, (Mcp.mem_waiting.1 hmem).2, hne⟩

/-- There is a newer request that succeeds or whose turn is still to come. -/
def Superseded (history : List (Entry T)) (generation : Nat) : Prop :=
  ∃ newer, generation < newer ∧ (newer ∈ succeeded history ∨ newer ∈ waiting history)

/-- Where nothing is lost, a newer request stays or succeeds. -/
lemma Superseded.concat {generation : Nat} (h : Superseded history generation)
    (hlost : ∀ newer, entry.ended? = some newer → newer ∈ waiting history →
      entry.succeeded? = some newer ∨ newer ≤ generation) :
    Superseded (history ++ [entry]) generation := by
  obtain ⟨newer, hlt, hsucceeded | hwaiting⟩ := h
  · exact ⟨newer, hlt, .inl (by rw [succeeded_concat]; exact List.mem_append_left _ hsucceeded)⟩
  · by_cases hended : entry.ended? = some newer
    · rcases hlost newer hended hwaiting with hsucceeded | hle
      · refine ⟨newer, hlt, .inl ?_⟩
        rw [succeeded_concat, hsucceeded]
        exact List.mem_append_right _ (List.mem_singleton_self _)
      · exact absurd hle (not_le.2 hlt)
    · exact ⟨newer, hlt, .inr (mem_waiting_concat_of_ne hwaiting hended)⟩

/-- The loss of a request that leaves a newer one, or that no dropped one relies on. -/
lemma Superseded.concat_lost {loser : Nat} (h : Superseded history generation)
    (hdropped : generation ∈ dropped history) (hended : entry.ended? = some loser)
    (hlost : (∃ newer ∈ waiting history, loser < newer) ∨
      ∀ older ∈ dropped history, ∃ newer ∈ succeeded history, older < newer) :
    Superseded (history ++ [entry]) generation := by
  rcases hlost with ⟨newer, hnewer, hlt⟩ | hsucceeded
  · by_cases hle : newer ≤ generation
    · -- the lost request is older than the dropped one
      exact h.concat fun other hother _ => .inr (by
        have heq := Option.some.inj (hother.symm.trans hended)
        omega)
    · refine ⟨newer, not_le.1 hle, .inr (mem_waiting_concat_of_ne hnewer ?_)⟩
      rw [hended]
      exact fun heq => absurd (Option.some.inj heq) hlt.ne
  · obtain ⟨newer, hnewer, hlt⟩ := hsucceeded generation hdropped
    refine ⟨newer, hlt, .inl ?_⟩
    rw [succeeded_concat]
    exact List.mem_append_left _ hnewer

/-- The newest request succeeds or its turn is still to come, where it is not lost. -/
lemma newest (h : Legal identity history) (hpos : 0 < (requests history).length)
    (hlost : (requests history).length ∉ lost history) :
    (requests history).length ∈ succeeded history ∨
      (requests history).length ∈ waiting history := by
  have hmem := h.mem_requests.2 ⟨hpos, le_refl _⟩
  rcases mem_cases hmem with hwaiting | hsucceeded | hdropped | hlost'
  · exact .inr hwaiting
  · exact .inl hsucceeded
  · exact absurd (h.dropped_lt hdropped) (lt_irrefl _)
  · exact absurd hlost' hlost

/-- A request is dropped only for a newer one. -/
lemma superseded (h : Legal identity history) (horderly : Orderly history)
    (hmem : generation ∈ dropped history) : Superseded history generation := by
  induction h with
  | nil => cases hmem
  | @concat history entry h hfollows ih =>
      obtain ⟨hbefore, hlast⟩ := Orderly.concat_iff.1 horderly
      rw [dropped_concat, List.mem_append, Option.mem_toList] at hmem
      cases entry with
      | requested requested staged =>
          exact (ih hbefore (hmem.resolve_right (by simp [Entry.dropped?]))).concat
            fun _ hended => absurd hended (by simp [Entry.ended?])
      | cleared =>
          exact (ih hbefore (hmem.resolve_right (by simp [Entry.dropped?]))).concat
            fun _ hended => absurd hended (by simp [Entry.ended?])
      | unchanged ended staged =>
          exact (ih hbefore (hmem.resolve_right (by simp [Entry.dropped?]))).concat
            fun _ hended _ => .inl hended
      | committed ended staged =>
          exact (ih hbefore (hmem.resolve_right (by simp [Entry.dropped?]))).concat
            fun _ hended _ => .inl hended
      | cancelled ended =>
          have hmem := hmem.resolve_right (by simp [Entry.dropped?])
          exact (ih hbefore hmem).concat_lost hmem rfl hlast
      | failed ended before after =>
          have hmem := hmem.resolve_right (by simp [Entry.dropped?])
          exact (ih hbefore hmem).concat_lost hmem rfl hlast
      | dropped ended =>
          have hnewest : ∀ generation, generation < (requests history).length →
              Superseded (history ++ [.dropped ended]) generation := by
            intro generation hlt
            refine ⟨(requests history).length, hlt, ?_⟩
            rcases h.newest (Nat.zero_lt_of_lt hlt) hlast with hsucceeded | hwaiting
            · rw [succeeded_concat]
              exact .inl (List.mem_append_left _ hsucceeded)
            · exact .inr (mem_waiting_concat_of_ne hwaiting
                fun heq => absurd (Option.some.inj heq) hfollows.2.ne)
          rcases hmem with hmem | hmem
          · exact hnewest _ (h.dropped_lt hmem)
          · exact hnewest _ (Option.some.inj hmem ▸ hfollows.2)

/-- What has been made since the last `clear` is all there is authority for. -/
lemma authority_eq_nil (h : Legal identity history) (horderly : Orderly history)
    (hnone : requests (sinceCleared history) = []) : authority history = [] := by
  induction h with
  | nil => rfl
  | @concat history entry h hfollows ih =>
      obtain ⟨hbefore, hlast⟩ := Orderly.concat_iff.1 horderly
      rw [authority_concat]
      rw [sinceCleared_concat] at hnone
      cases entry with
      | cleared => rfl
      | committed generation staged =>
          simp only [Entry.isCleared, Bool.false_eq_true, if_false, requests_concat] at hnone
          have hmem : generation ∈ requests (sinceCleared history) := hlast
          rw [(List.append_eq_nil_iff.1 hnone).1] at hmem
          cases hmem
      | _ =>
          simp only [Entry.isCleared, Bool.false_eq_true, if_false, requests_concat] at hnone
          exact ih hbefore (List.append_eq_nil_iff.1 hnone).1

end Legal

lemma requests_sinceCleared_subset (before after : List (Entry T)) :
    requests (sinceCleared (before ++ .cleared :: after)) ⊆ requests after := by
  induction after using List.reverseRecOn with
  | nil =>
      rw [sinceCleared_concat]
      exact List.Subset.refl _
  | append_singleton after entry ih =>
      rw [← List.cons_append, ← List.append_assoc, sinceCleared_concat, requests_concat]
      by_cases hcleared : entry.isCleared = true
      · rw [if_pos hcleared]
        exact List.nil_subset _
      · rw [if_neg hcleared, requests_concat]
        exact List.append_subset.2 ⟨List.Subset.trans ih (List.subset_append_left _ _),
          List.subset_append_right _ _⟩

end MercuryTools.Mcp
