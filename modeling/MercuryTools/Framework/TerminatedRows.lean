import Mathlib.Data.List.Basic
import Mathlib.Data.List.TakeWhile

/-!
# Rows that end with a terminator

A sequence is cut after every terminator into rows, and what follows the last terminator is left
over (`split`).  A reader that gets the sequence in pieces and carries over what is left of each
finds the same rows (`split_append`), and where it gives up on a row that is too long, it does so at
the same row (`takeWhile_fits_of_long`).
-/

namespace TerminatedRows

variable {α : Type*} [DecidableEq α]

/-- The first row with its terminator, and what follows it. -/
def firstRow (terminator : α) : List α → Option (List α × List α)
  | [] => none
  | x :: xs =>
      if x = terminator then some ([x], xs)
      else (firstRow terminator xs).map fun found => (x :: found.1, found.2)

/-- The rows, and what is left over. -/
def split (terminator : α) : List α → List (List α) × List α
  | [] => ([], [])
  | x :: xs =>
      if x = terminator then ([x] :: (split terminator xs).1, (split terminator xs).2)
      else
        match split terminator xs with
        | ([], rest) => ([], x :: rest)
        | (row :: rows, rest) => ((x :: row) :: rows, rest)

variable {terminator : α} {xs ys row rest : List α} {rows : List (List α)}

/-! ## The first row -/

lemma firstRow_eq_none : firstRow terminator xs = none ↔ terminator ∉ xs := by
  induction xs with
  | nil => simp [firstRow]
  | cons x xs ih =>
    rw [firstRow]
    split_ifs with hx
    · simp [hx]
    · simp [ih, Ne.symm hx]

lemma firstRow_eq_some : firstRow terminator xs = some (row, rest) ↔
    ∃ body, terminator ∉ body ∧ row = body ++ [terminator] ∧ xs = row ++ rest := by
  induction xs generalizing row with
  | nil =>
    constructor
    · intro h
      cases h
    · rintro ⟨body, -, rfl, h⟩
      simp at h
  | cons x xs ih =>
    rw [firstRow]
    split_ifs with hx
    · subst hx
      constructor
      · rintro h
        obtain ⟨rfl, rfl⟩ := Prod.mk.inj (Option.some.inj h)
        exact ⟨[], List.not_mem_nil, rfl, rfl⟩
      · rintro ⟨body, hbody, rfl, hxs⟩
        cases body with
        | nil =>
          rw [List.nil_append, List.singleton_append] at hxs
          rw [(List.cons.inj hxs).2]
          rfl
        | cons y body =>
          obtain rfl : x = y := (List.cons.inj hxs).1
          exact absurd List.mem_cons_self hbody
    · constructor
      · intro h
        obtain ⟨⟨row', rest'⟩, hfirst, heq⟩ := Option.map_eq_some_iff.1 h
        obtain ⟨rfl, rfl⟩ := Prod.mk.inj heq
        obtain ⟨body, hbody, rfl, rfl⟩ := ih.1 hfirst
        exact ⟨x :: body, by simp [hbody, Ne.symm hx], rfl, rfl⟩
      · rintro ⟨body, hbody, rfl, hxs⟩
        cases body with
        | nil => exact absurd (List.cons.inj hxs).1 hx
        | cons y body =>
          obtain ⟨rfl, rfl⟩ := List.cons.inj hxs
          have hfirst := ih.2 ⟨body, fun hmem => hbody (List.mem_cons_of_mem _ hmem), rfl, rfl⟩
          rw [hfirst]
          rfl

lemma length_lt_of_firstRow (h : firstRow terminator xs = some (row, rest)) :
    rest.length < xs.length := by
  obtain ⟨body, -, rfl, rfl⟩ := firstRow_eq_some.1 h
  simp only [List.length_append, List.length_singleton]
  omega

/-! ## All rows -/

lemma split_of_notMem (h : terminator ∉ xs) : split terminator xs = ([], xs) := by
  induction xs with
  | nil => rfl
  | cons x xs ih =>
    obtain ⟨hx, hxs⟩ := List.ne_and_not_mem_of_not_mem_cons h
    rw [split, if_neg (Ne.symm hx), ih hxs]

/-- A row comes before the rows of what follows it. -/
lemma split_row_append {body : List α} (h : terminator ∉ body) :
    split terminator (body ++ terminator :: ys) =
      ((body ++ [terminator]) :: (split terminator ys).1, (split terminator ys).2) := by
  induction body with
  | nil => rw [List.nil_append, split, if_pos rfl, List.nil_append]
  | cons x body ih =>
    obtain ⟨hx, hbody⟩ := List.ne_and_not_mem_of_not_mem_cons h
    rw [List.cons_append, split, if_neg (Ne.symm hx), ih hbody]
    rfl

lemma split_of_firstRow (h : firstRow terminator xs = some (row, rest)) :
    split terminator xs = (row :: (split terminator rest).1, (split terminator rest).2) := by
  obtain ⟨body, hbody, rfl, rfl⟩ := firstRow_eq_some.1 h
  rw [List.append_assoc, List.singleton_append, split_row_append hbody]

/-- Either there is no terminator, or there is a first row. -/
lemma eq_row_append_of_mem (h : terminator ∈ xs) :
    ∃ body rest, terminator ∉ body ∧ xs = body ++ terminator :: rest := by
  cases hfirst : firstRow terminator xs with
  | none => exact absurd h (firstRow_eq_none.1 hfirst)
  | some found =>
    obtain ⟨body, hbody, hrow, hxs⟩ := firstRow_eq_some.1 (hfirst.trans rfl)
    rw [hrow, List.append_assoc, List.singleton_append] at hxs
    exact ⟨body, found.2, hbody, hxs⟩

/-- The rows one after another, where the induction is on what is left after the first row. -/
lemma row_induction (terminator : α) {P : List α → Prop} (hnone : ∀ xs, terminator ∉ xs → P xs)
    (hrow : ∀ body xs, terminator ∉ body → P xs → P (body ++ terminator :: xs)) : ∀ xs, P xs := by
  intro xs
  induction hn : xs.length using Nat.strong_induction_on generalizing xs with
  | _ n ih =>
    by_cases hmem : terminator ∈ xs
    · obtain ⟨body, rest, hbody, rfl⟩ := eq_row_append_of_mem hmem
      refine hrow body rest hbody (ih rest.length ?_ rest rfl)
      rw [← hn, List.length_append, List.length_cons]
      omega
    · exact hnone xs hmem

/-- **The pieces do not matter.**  What is left of the first piece is read again before the next. -/
theorem split_append (xs ys : List α) : split terminator (xs ++ ys) =
    ((split terminator xs).1 ++ (split terminator ((split terminator xs).2 ++ ys)).1,
      (split terminator ((split terminator xs).2 ++ ys)).2) := by
  induction xs using row_induction terminator with
  | hnone xs h => rw [split_of_notMem h, List.nil_append]
  | hrow body xs h ih =>
    rw [List.append_assoc, List.cons_append, split_row_append h, split_row_append h, ih,
      List.cons_append]

lemma flatten_split (terminator : α) (xs : List α) :
    (split terminator xs).1.flatten ++ (split terminator xs).2 = xs := by
  induction xs using row_induction terminator with
  | hnone xs h => rw [split_of_notMem h, List.flatten_nil, List.nil_append]
  | hrow body xs h ih =>
    rw [split_row_append h, List.flatten_cons, List.append_assoc, ih, List.append_assoc,
      List.singleton_append]

lemma notMem_split_rest (terminator : α) (xs : List α) : terminator ∉ (split terminator xs).2 := by
  induction xs using row_induction terminator with
  | hnone xs h => rwa [split_of_notMem h]
  | hrow body xs h ih => rwa [split_row_append h]

/-- A row has one terminator, at its end. -/
lemma exists_body_of_mem_split (h : row ∈ (split terminator xs).1) :
    ∃ body, terminator ∉ body ∧ row = body ++ [terminator] := by
  induction xs using row_induction terminator with
  | hnone xs hnone =>
    rw [split_of_notMem hnone] at h
    exact absurd h List.not_mem_nil
  | hrow body xs hbody ih =>
    rw [split_row_append hbody, List.mem_cons] at h
    obtain rfl | h := h
    · exact ⟨body, hbody, rfl⟩
    · exact ih h

/-! ## A limit for the length of a row -/

/-- Where the first row is already too long, none is accepted, and the sequence is not. -/
lemma takeWhile_fits_of_long {limit : Nat} (ys : List α) (hxs : terminator ∉ xs)
    (hlong : limit < xs.length) :
    (split terminator (xs ++ ys)).1.takeWhile (·.length ≤ limit) = [] ∧
      ¬ ((∀ row ∈ (split terminator (xs ++ ys)).1, row.length ≤ limit) ∧
        (split terminator (xs ++ ys)).2 = []) := by
  by_cases hmem : terminator ∈ ys
  · obtain ⟨body, rest, hbody, rfl⟩ := eq_row_append_of_mem hmem
    have hfirst : terminator ∉ xs ++ body := by
      rw [List.mem_append]
      exact not_or.2 ⟨hxs, hbody⟩
    have hlength : limit < (xs ++ body ++ [terminator]).length := by
      simp only [List.length_append]
      omega
    rw [← List.append_assoc, split_row_append hfirst]
    constructor
    · rw [List.takeWhile_cons_of_neg (by simpa using hlength)]
    · rintro ⟨hrows, -⟩
      exact absurd (hrows _ List.mem_cons_self) (Nat.not_le.2 hlength)
  · have hnone : terminator ∉ xs ++ ys := by
      rw [List.mem_append]
      exact not_or.2 ⟨hxs, hmem⟩
    rw [split_of_notMem hnone]
    refine ⟨rfl, fun h => ?_⟩
    rw [(List.append_eq_nil_iff.1 h.2).1] at hlong
    exact absurd hlong (Nat.not_lt_zero limit)

end TerminatedRows
