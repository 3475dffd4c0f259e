import MercuryTools.Framework.TerminatedRows

/-!
# The rows of the audit ledger

`_iter_ledger_rows` of `local/audit.py`: the ledger is read in chunks, and its rows are yielded with
their offsets as soon as they are complete.  What follows the last newline of a chunk is carried
over, and no more than one row is ever held.

However the file is read, the rows are its lines up to the first that is too long, and the reader
raises exactly where there is such a line or the last line is not terminated
(`iterLedgerRows_of_split`).
-/

namespace MercuryTools.Local

open TerminatedRows

def newline : UInt8 := 10

/-- `MAX_AUDIT_LINE_BYTES` -/
def maxAuditLineBytes : Nat := 64 * 1024

/-- `_READ_CHUNK_BYTES` -/
def readChunkBytes : Nat := 64 * 1024

/-- What `os.read` does; at the end of the file, and from there on, it returns no bytes. -/
inductive Read where
  | chunk (bytes : List UInt8)
  | fails

/-- The rows that a generator has yielded, and whether it then raises. -/
abbrev RowRun (ε : Type) : Type :=
  List (Nat × List UInt8) × Except String ε

/-- The inner loop: rows are taken from the buffer while it has a newline. -/
def takeRows (offset : Nat) (buffer : List UInt8) : RowRun (Nat × List UInt8) :=
  match _hrow : firstRow newline buffer with
  | none => ([], .ok (offset, buffer))
  | some (encoded, rest) =>
      if encoded.length > maxAuditLineBytes then ([], .error "audit_ledger_corrupt")
      else
        let (rows, result) := takeRows (offset + encoded.length) rest
        ((offset, encoded) :: rows, result)
termination_by buffer.length
decreasing_by exact length_lt_of_firstRow ‹_›

/-- The check at the end of the file. -/
def finishRows (buffer : List UInt8) : RowRun Unit :=
  ([], if buffer = [] then .ok () else .error "audit_ledger_corrupt")

/-- The outer loop. -/
def readRows (offset : Nat) (buffer : List UInt8) : List Read → RowRun Unit
  | [] => finishRows buffer
  | .fails :: _ => ([], .error "audit_read_failed")
  | .chunk bytes :: reads =>
      if bytes = [] then finishRows buffer
      else
        match takeRows offset (buffer ++ bytes) with
        | (rows, .error code) => (rows, .error code)
        | (rows, .ok (offset', buffer')) =>
            if buffer'.length > maxAuditLineBytes then (rows, .error "audit_ledger_corrupt")
            else
              let (rows', result) := readRows offset' buffer' reads
              (rows ++ rows', result)

/-- `_iter_ledger_rows`, for a file that can be positioned or not. -/
def iterLedgerRows (seeks : Bool) (reads : List Read) : RowRun Unit :=
  if seeks then readRows 0 [] reads else ([], .error "audit_read_failed")

/-! ## The lines of a file -/

/-- The lines of the file with their newlines, and what follows the last newline. -/
def ledgerLines (content : List UInt8) : List (List UInt8) × List UInt8 :=
  split newline content

/-- The rows with the offsets at which they start. -/
def withOffsets (offset : Nat) : List (List UInt8) → List (Nat × List UInt8)
  | [] => []
  | row :: rows => (offset, row) :: withOffsets (offset + row.length) rows

/-- No line is too long, and the last one is terminated. -/
def IsLedger (content : List UInt8) : Prop :=
  (∀ row ∈ (ledgerLines content).1, row.length ≤ maxAuditLineBytes) ∧ (ledgerLines content).2 = []

instance (content : List UInt8) : Decidable (IsLedger content) :=
  inferInstanceAs (Decidable (_ ∧ _))

/-- The lines before the first that is too long. -/
def acceptedLines (content : List UInt8) : List (List UInt8) :=
  (ledgerLines content).1.takeWhile (·.length ≤ maxAuditLineBytes)

/-- A way in which reads split the content of a file. -/
structure SplitsInto (content : List UInt8) (chunks : List (List UInt8)) : Prop where
  flatten : chunks.flatten = content
  nonempty : ∀ chunk ∈ chunks, chunk ≠ []
  length_le : ∀ chunk ∈ chunks, chunk.length ≤ readChunkBytes

variable {offset : Nat} {content buffer : List UInt8} {chunks : List (List UInt8)}

lemma withOffsets_append (rows rows' : List (List UInt8)) : withOffsets offset (rows ++ rows') =
    withOffsets offset rows ++ withOffsets (offset + rows.flatten.length) rows' := by
  induction rows generalizing offset with
  | nil => rfl
  | cons row rows ih =>
    rw [List.cons_append, withOffsets, withOffsets, ih, List.cons_append, List.flatten_cons,
      List.length_append, Nat.add_assoc]

lemma map_snd_withOffsets (rows : List (List UInt8)) :
    (withOffsets offset rows).map Prod.snd = rows := by
  induction rows generalizing offset with
  | nil => rfl
  | cons row rows ih => rw [withOffsets, List.map_cons, ih]

/-! ## Lines of a file that is read in two pieces -/

lemma ledgerLines_append (xs ys : List UInt8) : ledgerLines (xs ++ ys) =
    ((ledgerLines xs).1 ++ (ledgerLines ((ledgerLines xs).2 ++ ys)).1,
      (ledgerLines ((ledgerLines xs).2 ++ ys)).2) :=
  split_append xs ys

/-- Where the lines of the first piece are accepted, the rest is read with the second. -/
lemma acceptedLines_append {xs ys : List UInt8}
    (h : ∀ row ∈ (ledgerLines xs).1, row.length ≤ maxAuditLineBytes) :
    acceptedLines (xs ++ ys) =
      (ledgerLines xs).1 ++ acceptedLines ((ledgerLines xs).2 ++ ys) := by
  rw [acceptedLines, ledgerLines_append]
  exact List.takeWhile_append_of_pos fun row hrow => by simpa using h row hrow

lemma isLedger_append {xs ys : List UInt8}
    (h : ∀ row ∈ (ledgerLines xs).1, row.length ≤ maxAuditLineBytes) :
    IsLedger (xs ++ ys) ↔ IsLedger ((ledgerLines xs).2 ++ ys) := by
  rw [IsLedger, IsLedger, ledgerLines_append, List.forall_mem_append]
  exact and_congr_left' (and_iff_right h)

/-- Nothing is accepted after a line that is too long. -/
lemma acceptedLines_append_of_long {xs : List UInt8} (ys : List UInt8)
    (h : ¬ ∀ row ∈ (ledgerLines xs).1, row.length ≤ maxAuditLineBytes) :
    acceptedLines (xs ++ ys) = acceptedLines xs ∧ ¬ IsLedger (xs ++ ys) := by
  constructor
  · rw [acceptedLines, ledgerLines_append, acceptedLines, List.takeWhile_append, if_neg]
    intro hlength
    have hself := (List.takeWhile_prefix _).eq_of_length hlength
    exact h fun row hrow => by simpa using List.takeWhile_eq_self_iff.1 hself row hrow
  · rintro ⟨hrows, -⟩
    rw [ledgerLines_append] at hrows
    exact h fun row hrow => hrows row (List.mem_append_left _ hrow)

/-! ## The loops -/

/-- The inner loop takes the rows of the buffer up to the first that is too long. -/
lemma takeRows_eq (offset : Nat) (buffer : List UInt8) : takeRows offset buffer =
    (withOffsets offset (acceptedLines buffer),
      if ∀ row ∈ (ledgerLines buffer).1, row.length ≤ maxAuditLineBytes then
        .ok (offset + (ledgerLines buffer).1.flatten.length, (ledgerLines buffer).2)
      else .error "audit_ledger_corrupt") := by
  induction offset, buffer using takeRows.induct with
  | case1 offset buffer hnone =>
    have hlines : ledgerLines buffer = ([], buffer) :=
      split_of_notMem (firstRow_eq_none.1 hnone)
    unfold takeRows
    split
    · simp [acceptedLines, hlines, withOffsets]
    · rename_i hsome
      cases hnone.symm.trans hsome
  | case2 offset buffer encoded rest hfirst hlong =>
    have hlines := split_of_firstRow hfirst
    have hnot : ¬ ∀ row ∈ (ledgerLines buffer).1, row.length ≤ maxAuditLineBytes := by
      intro hall
      rw [ledgerLines, hlines] at hall
      exact absurd (hall encoded List.mem_cons_self) (Nat.not_le.2 hlong)
    unfold takeRows
    split
    · rename_i hnone
      cases hnone.symm.trans hfirst
    · rename_i found rest' hsome
      obtain ⟨rfl, rfl⟩ := Prod.mk.inj (Option.some.inj (hsome.symm.trans hfirst))
      rw [if_pos hlong, if_neg hnot, acceptedLines, ledgerLines, hlines,
        List.takeWhile_cons_of_neg (by simpa using hlong)]
      rfl
  | case3 offset buffer encoded rest hfirst hshort rows result hrest ih =>
    have hlines := split_of_firstRow hfirst
    have hfits : encoded.length ≤ maxAuditLineBytes := Nat.not_lt.1 hshort
    unfold takeRows
    split
    · rename_i hnone
      cases hnone.symm.trans hfirst
    · rename_i found rest' hsome
      obtain ⟨rfl, rfl⟩ := Prod.mk.inj (Option.some.inj (hsome.symm.trans hfirst))
      rw [if_neg hshort, ih]
      simp only [acceptedLines, ledgerLines, hlines, List.forall_mem_cons, hfits, true_and,
        List.flatten_cons, List.length_append, Nat.add_assoc]
      rw [List.takeWhile_cons_of_pos (by simpa using hfits)]
      rfl

/-- Whatever is carried over, the outer loop does what it would do with everything at once. -/
lemma readRows_eq (hnonempty : ∀ chunk ∈ chunks, chunk ≠ []) (hbuffer : newline ∉ buffer)
    (hlength : buffer.length ≤ maxAuditLineBytes) :
    readRows offset buffer (chunks.map .chunk) =
      (withOffsets offset (acceptedLines (buffer ++ chunks.flatten)),
        if IsLedger (buffer ++ chunks.flatten) then .ok () else .error "audit_ledger_corrupt") := by
  induction chunks generalizing offset buffer with
  | nil =>
    have hlines : ledgerLines buffer = ([], buffer) := split_of_notMem hbuffer
    simp [readRows, finishRows, acceptedLines, IsLedger, hlines, withOffsets]
  | cons chunk chunks ih =>
    obtain ⟨hchunk, hchunks⟩ := List.forall_mem_cons.1 hnonempty
    have hrest : newline ∉ (ledgerLines (buffer ++ chunk)).2 := notMem_split_rest _ _
    rw [List.map_cons, readRows, if_neg hchunk, takeRows_eq, List.flatten_cons,
      ← List.append_assoc]
    by_cases hall : ∀ row ∈ (ledgerLines (buffer ++ chunk)).1, row.length ≤ maxAuditLineBytes
    · have haccepted : acceptedLines (buffer ++ chunk) = (ledgerLines (buffer ++ chunk)).1 :=
        List.takeWhile_eq_self_iff.2 fun row hrow => by simpa using hall row hrow
      rw [if_pos hall, haccepted, acceptedLines_append hall, withOffsets_append]
      simp only [isLedger_append hall]
      by_cases hlong : (ledgerLines (buffer ++ chunk)).2.length > maxAuditLineBytes
      · -- the row that is carried over is too long, however it goes on
        obtain ⟨hnone, hnot⟩ : acceptedLines _ = [] ∧ ¬ IsLedger _ :=
          takeWhile_fits_of_long chunks.flatten hrest hlong
        rw [if_pos hlong, hnone, if_neg hnot, withOffsets, List.append_nil]
      · rw [if_neg hlong, ih hchunks hrest (Nat.not_lt.1 hlong)]
    · obtain ⟨haccepted, hnot⟩ := acceptedLines_append_of_long chunks.flatten hall
      rw [if_neg hall, haccepted, if_neg hnot]

/-- **The rows of a ledger are its lines**, however it is read: those before the first line that is
too long, each at its offset.  The reader raises exactly where there is such a line or the last line
is not terminated; where it does not raise, the rows make up the file. -/
theorem iterLedgerRows_of_split (h : SplitsInto content chunks) :
    iterLedgerRows true (chunks.map .chunk) =
        (withOffsets 0 (acceptedLines content),
          if IsLedger content then .ok () else .error "audit_ledger_corrupt") ∧
      (∀ chunks', SplitsInto content chunks' →
        iterLedgerRows true (chunks'.map .chunk) = iterLedgerRows true (chunks.map .chunk)) ∧
      (∀ row ∈ (iterLedgerRows true (chunks.map .chunk)).1.map Prod.snd,
        ∃ body, newline ∉ body ∧ row = body ++ [newline] ∧ row.length ≤ maxAuditLineBytes) ∧
      ((iterLedgerRows true (chunks.map .chunk)).2 = .ok () →
        ((iterLedgerRows true (chunks.map .chunk)).1.map Prod.snd).flatten = content) ∧
      ((∃ code, (iterLedgerRows true (chunks.map .chunk)).2 = .error code) ↔
        (∃ row ∈ (ledgerLines content).1, maxAuditLineBytes < row.length) ∨
          (ledgerLines content).2 ≠ []) := by
  have hrun : ∀ chunks', SplitsInto content chunks' → iterLedgerRows true (chunks'.map .chunk) =
      (withOffsets 0 (acceptedLines content),
        if IsLedger content then .ok () else .error "audit_ledger_corrupt") := by
    intro chunks' h'
    rw [iterLedgerRows, if_pos rfl,
      readRows_eq h'.nonempty List.not_mem_nil (Nat.zero_le _), List.nil_append, h'.flatten]
  rw [hrun chunks h]
  refine ⟨rfl, hrun, fun row hrow => ?_, fun hok => ?_, ?_⟩
  · rw [map_snd_withOffsets] at hrow
    obtain ⟨body, hbody, heq⟩ := exists_body_of_mem_split ((List.takeWhile_prefix _).subset hrow)
    exact ⟨body, hbody, heq, by simpa using List.mem_takeWhile_imp hrow⟩
  · have hledger : IsLedger content := by
      by_contra hnot
      rw [if_neg hnot] at hok
      cases hok
    have haccepted : acceptedLines content = (ledgerLines content).1 :=
      List.takeWhile_eq_self_iff.2 fun row hrow => by simpa using hledger.1 row hrow
    have hflatten : (ledgerLines content).1.flatten ++ (ledgerLines content).2 = content :=
      flatten_split newline content
    rw [hledger.2, List.append_nil, ← haccepted] at hflatten
    rw [map_snd_withOffsets, hflatten]
  · have hnot : ¬ IsLedger content ↔ (∃ row ∈ (ledgerLines content).1,
        maxAuditLineBytes < row.length) ∨ (ledgerLines content).2 ≠ [] := by
      rw [IsLedger, not_and_or]
      push Not
      rfl
    rw [← hnot]
    split_ifs with hledger
    · simp [hledger]
    · simp [hledger]

/-- Two lines in three chunks, none of which ends with a line. -/
theorem iterLedgerRows_twoLines :
    iterLedgerRows true ([[97], [10, 98], [99, 10]].map .chunk) =
      ([(0, [97, 10]), (2, [98, 99, 10])], .ok ()) := by
  have h : SplitsInto [97, 10, 98, 99, 10] [[97], [10, 98], [99, 10]] :=
    ⟨rfl, by decide, by decide⟩
  exact (iterLedgerRows_of_split h).1

end MercuryTools.Local
