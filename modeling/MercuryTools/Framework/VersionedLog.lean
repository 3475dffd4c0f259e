import Mathlib.Data.List.Nodup
import Mathlib.Data.List.Range
import Mathlib.Tactic.Common

/-!
# Versioned logs

A log of state changes, each entry naming the state it left, the state it entered and a
version.  `Chained` says that the entries follow one another: every entry leaves the state the
one before it entered, and the versions count up by one.  `Records` is what an owner of such a
log maintains: the log is chained, it ends in the current state and version, and a rank rises
with every entry.  The rank is what makes a state unrepeatable: a log that rises enters every
state at most once (`Records.nodup`).
-/

namespace VersionedLog

variable {σ : Type*}

structure Entry (σ : Type*) where
  source : Option σ
  target : σ
  version : Nat

/-- The entries follow one another, from the state `start` and the version `first` on. -/
def Chained : Option σ → Nat → List (Entry σ) → Prop
  | _, _, [] => True
  | start, first, e :: es =>
      e.source = start ∧ e.version = first ∧ Chained (some e.target) (first + 1) es

/-- The state after the log. -/
def current : Option σ → List (Entry σ) → Option σ
  | start, [] => start
  | _, e :: es => current (some e.target) es

/-- Every entry that left a state entered one of higher rank. -/
def Rising (rank : σ → Nat) (log : List (Entry σ)) : Prop :=
  ∀ e ∈ log, ∀ s, e.source = some s → rank s < rank e.target

lemma current_append (start : Option σ) (log : List (Entry σ)) (e : Entry σ) :
    current start (log ++ [e]) = some e.target := by
  induction log generalizing start with
  | nil => rfl
  | cons d log ih => exact ih _

variable {start : Option σ} {first version : Nat} {log : List (Entry σ)} {e : Entry σ}
  {rank : σ → Nat} {state : σ}

lemma chained_append :
    Chained start first (log ++ [e]) ↔
      Chained start first log ∧ e.source = current start log ∧ e.version = first + log.length := by
  induction log generalizing start first with
  | nil => simp [Chained, current]
  | cons d log ih =>
      simp only [List.cons_append, Chained, ih, current, List.length_cons]
      constructor
      · rintro ⟨h1, h2, h3, h4, h5⟩
        exact ⟨⟨h1, h2, h3⟩, h4, by omega⟩
      · rintro ⟨⟨h1, h2, h3⟩, h4, h5⟩
        exact ⟨h1, h2, h3, h4, by omega⟩

/-- The versions of a chained log have no gap. -/
lemma Chained.versions (h : Chained start first log) :
    log.map (·.version) = List.range' first log.length := by
  induction log generalizing start first with
  | nil => rfl
  | cons e log ih =>
      obtain ⟨-, hversion, htail⟩ := h
      rw [List.map_cons, List.length_cons, List.range'_succ, hversion, ih htail]

/-- In a chained log, each entry leaves the state the previous one entered. -/
lemma Chained.adjacent (h : Chained start first log) (i : Nat) {d : Entry σ} (hd : log[i]? = some d)
    (he : log[i + 1]? = some e) : e.source = some d.target := by
  induction log generalizing start first i with
  | nil => simp at hd
  | cons c log ih =>
      obtain ⟨-, -, htail⟩ := h
      cases i with
      | zero =>
          cases log with
          | nil => simp at he
          | cons e' log =>
              obtain rfl : c = d := by simpa using hd
              obtain rfl : e' = e := by simpa using he
              exact htail.1
      | succ i => exact ih htail i (by simpa using hd) (by simpa using he)

/-- Along a rising chained log the ranks of the entered states lie above that of the start. -/
lemma Chained.rank_lt {s : σ} (h : Chained (some s) first log) (hrise : Rising rank log) :
    ∀ e ∈ log, rank s < rank e.target := by
  induction log generalizing s first with
  | nil => simp
  | cons d log ih =>
      obtain ⟨hsource, -, htail⟩ := h
      have hd : rank s < rank d.target := hrise d (by simp) s hsource
      intro e he
      rcases List.mem_cons.1 he with rfl | he
      · exact hd
      · exact hd.trans (ih htail (fun e he => hrise e (List.mem_cons_of_mem _ he)) e he)

/-- A rising chained log enters every state at most once. -/
lemma Chained.nodup (h : Chained start first log) (hrise : Rising rank log) :
    (log.map (·.target)).Nodup := by
  induction log generalizing start first with
  | nil => exact List.nodup_nil
  | cons d log ih =>
      obtain ⟨-, -, htail⟩ := h
      have hrise' : Rising rank log := fun e he => hrise e (List.mem_cons_of_mem _ he)
      rw [List.map_cons, List.nodup_cons]
      refine ⟨?_, ih htail hrise'⟩
      intro hmem
      obtain ⟨e, he, heq⟩ := List.mem_map.1 hmem
      have hlt := htail.rank_lt hrise' e he
      rw [heq] at hlt
      exact absurd hlt (lt_irrefl _)

/-- The log of an owner that is in `state` with `version`, started from `start` with the first
entry due at version `first`. -/
structure Records (rank : σ → Nat) (start : Option σ) (first : Nat) (log : List (Entry σ))
    (state : σ) (version : Nat) : Prop where
  chained : Chained start first log
  current_eq : current start log = some state
  version_eq : first + log.length = version + 1
  rising : Rising rank log

/-- One more change of state, to a state of higher rank and the next version. -/
lemma Records.extend {target : σ} (h : Records rank start first log state version)
    (hrank : rank state < rank target) :
    Records rank start first (log ++ [⟨some state, target, version + 1⟩]) target (version + 1) := by
  refine ⟨chained_append.2 ⟨h.chained, h.current_eq.symm, h.version_eq.symm⟩,
    current_append _ _ _, ?_, ?_⟩
  · simp only [List.length_append, List.length_singleton]
    have := h.version_eq
    omega
  · intro e he s hs
    rcases List.mem_append.1 he with he | he
    · exact h.rising e he s hs
    · obtain rfl := List.mem_singleton.1 he
      obtain rfl : state = s := by simpa using hs
      exact hrank

lemma Records.versions (h : Records rank start first log state version) :
    log.map (·.version) = List.range' first (version + 1 - first) := by
  rw [h.chained.versions, ← h.version_eq, Nat.add_sub_cancel_left]

lemma Records.nodup (h : Records rank start first log state version) : (log.map (·.target)).Nodup :=
  h.chained.nodup h.rising

/-- The last entry of a log that is not empty names the current state and version. -/
lemma Records.getLast (h : Records rank start first log state version) (he : log.getLast? = some e)
    : e.target = state ∧ e.version = version := by
  rcases List.eq_nil_or_concat log with rfl | ⟨init, last, rfl⟩
  · simp at he
  · rw [List.concat_eq_append] at *
    obtain rfl : last = e := by simpa using he
    have hcur := h.current_eq
    rw [current_append] at hcur
    have hversion := (chained_append.1 h.chained).2.2
    have hlen := h.version_eq
    simp only [List.length_append, List.length_singleton] at hlen
    exact ⟨by simpa using hcur, by omega⟩

end VersionedLog
