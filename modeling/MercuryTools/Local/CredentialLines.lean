import MercuryTools.Local.CredentialDocuments

/-!
# The lines of the credential file

A line holds one entry: a name and a quoted value.  Where no value has a control character or ends
with a backslash, the lines of a text are the lines of its entries, the assignments found in them
are the names, and the reader finds the entries.
-/

namespace MercuryTools.Local

open Checks

/-- What can be an entry of the file. -/
structure Writable (entry : String × String) : Prop where
  name : isAssignmentName entry.1.toList = true
  owned : entry.1.toList.head? = some 'M' ∨ entry.1.toList.head? = some '_'
  storable : Storable entry.2

def lineOf (entry : String × String) : List Char :=
  entry.1.toList ++ '=' :: '"' :: (escapeDotenv entry.2.toList ++ ['"'])

def textOf (entries : Dict String String) : List Char :=
  entries.flatMap fun entry => lineOf entry ++ ['\n']

/-! ## Characters -/

lemma isControlOrFormat_of_isLineBreak {c : Char} (h : isLineBreak c = true) :
    isControlOrFormat c = true := by
  have hall : ∀ c ∈ ['\n', '\r', '\x0b', '\x0c', '\x1c', '\x1d', '\x1e', '\u0085', '\u2028',
      '\u2029'], isControlOrFormat c = true := List.all_eq_true.1 rfl
  exact hall c (of_decide_eq_true h)

lemma isControlOrFormat_of_isNameCharacter {c : Char} (h : isNameCharacter c = true) :
    isControlOrFormat c = false := by
  have hlt : c.toNat < 128 := by
    simp only [isNameCharacter, isNameStart, Bool.or_eq_true, Bool.and_eq_true, decide_eq_true_eq,
      beq_iff_eq] at h
    rcases h with ((⟨-, hc⟩ | ⟨-, hc⟩) | rfl) | ⟨-, hc⟩
    · exact Nat.lt_of_le_of_lt (UInt32.le_iff_toNat_le.1 hc) (by decide)
    · exact Nat.lt_of_le_of_lt (UInt32.le_iff_toNat_le.1 hc) (by decide)
    · decide
    · exact Nat.lt_of_le_of_lt (UInt32.le_iff_toNat_le.1 hc) (by decide)
  exact ascii_induction (P := fun c => isNameCharacter c = true → isControlOrFormat c = false)
    (by decide) hlt h

/-- Escaping adds backslashes only. -/
lemma mem_escapeDotenv {value : List Char} {c : Char} (h : c ∈ escapeDotenv value) :
    c ∈ value ∨ c = '\\' := by
  obtain ⟨d, hd, hc⟩ := List.mem_flatMap.1 h
  obtain ⟨e, he, hd⟩ := List.mem_flatMap.1 hd
  have hdouble : d = e ∨ d = '\\' := by
    unfold doubleBackslash at hd
    split at hd
    · simp only [List.mem_cons, List.not_mem_nil, or_false, or_self] at hd
      exact .inr hd
    · exact .inl (List.mem_singleton.1 hd)
  have hmark : c = d ∨ c = '\\' := by
    unfold escapeMark at hc
    split at hc
    next heq =>
      simp only [List.mem_cons, List.not_mem_nil, or_false] at hc
      exact hc.elim .inr fun hc => .inl (hc.trans heq.symm)
    · exact .inl (List.mem_singleton.1 hc)
  rcases hmark with rfl | rfl
  · rcases hdouble with rfl | rfl
    · exact .inl he
    · exact .inr rfl
  · exact .inr rfl

lemma Storable.not_isControlOrFormat {value : String} (h : Storable value) :
    ∀ c ∈ value.toList, isControlOrFormat c = false := by
  have hplain := h.plain
  rw [rejectControlOrFormatCharacters, require_eq_ok, Bool.not_eq_true', List.any_eq_false] at hplain
  exact fun c hc => Bool.eq_false_iff.2 (hplain c hc)

namespace Writable

variable {entry : String × String}

lemma isNameCharacter (h : Writable entry) : ∀ c ∈ entry.1.toList, isNameCharacter c = true := by
  have hname := h.name
  rw [isAssignmentName, Bool.and_eq_true] at hname
  exact List.all_eq_true.1 hname.2

/-- A line has no control character. -/
lemma not_isControlOrFormat (h : Writable entry) : ∀ c ∈ lineOf entry,
    isControlOrFormat c = false := by
  intro c hc
  unfold lineOf at hc
  simp only [List.mem_append, List.mem_cons, List.not_mem_nil, or_false] at hc
  rcases hc with hc | rfl | rfl | hc | rfl
  · exact isControlOrFormat_of_isNameCharacter (h.isNameCharacter c hc)
  · decide
  · decide
  · rcases mem_escapeDotenv hc with hc | rfl
    · exact h.storable.not_isControlOrFormat c hc
    · decide
  · decide

lemma exists_name_eq (h : Writable entry) :
    ∃ c cs, entry.1.toList = c :: cs ∧ (c = 'M' ∨ c = '_') := by
  cases hname : entry.1.toList with
  | nil =>
      rcases h.owned with howned | howned
      · rw [hname] at howned
        cases howned
      · rw [hname] at howned
        cases howned
  | cons c cs =>
      have howned := h.owned
      rw [hname, List.head?_cons, Option.some.injEq, Option.some.injEq] at howned
      exact ⟨c, cs, rfl, howned⟩

lemma strip_lineOf (h : Writable entry) : strip (lineOf entry) = lineOf entry := by
  obtain ⟨c, cs, hname, hc⟩ := h.exists_name_eq
  have hhead : isSpace c = false := by
    rcases hc with rfl | rfl
    · decide
    · decide
  have hdrop : (lineOf entry).dropWhile isSpace = lineOf entry := by
    rw [lineOf, hname, List.cons_append, List.dropWhile_cons_of_neg (by rw [hhead]; decide)]
  have hlast : lineOf entry =
      (entry.1.toList ++ '=' :: '"' :: escapeDotenv entry.2.toList) ++ ['"'] := by
    rw [lineOf, List.append_assoc, List.cons_append, List.cons_append]
  rw [strip, hdrop, hlast, List.rdropWhile_concat_neg]
  decide

lemma assignedName_lineOf (h : Writable entry) :
    assignedName (lineOf entry) = some entry.1.toList := by
  have htake : (lineOf entry).takeWhile Local.isNameCharacter = entry.1.toList := by
    rw [lineOf, List.takeWhile_append_of_pos h.isNameCharacter,
      List.takeWhile_cons_of_neg (by decide), List.append_nil]
  have hname := h.name
  rw [isAssignmentName, Bool.and_eq_true] at hname
  unfold assignedName
  simp only [htake]
  rw [lineOf, List.drop_left, hname.1, List.dropWhile_cons_of_neg (by decide)]
  rfl

lemma dotenvAssignment_lineOf (h : Writable entry) :
    dotenvAssignment (lineOf entry) = some entry.1.toList := by
  obtain ⟨c, cs, hname, hc⟩ := h.exists_name_eq
  have hexport : ((lineOf entry).take 6 == "export".toList) = false := by
    rw [lineOf, hname, List.cons_append]
    refine beq_eq_false_iff_ne.2 fun heq => ?_
    have hhead := congrArg List.head? heq
    rw [List.take_succ_cons, List.head?_cons] at hhead
    have hlit : "export".toList.head? = some 'e' := by decide
    rw [hlit, Option.some.injEq] at hhead
    rcases hc with rfl | rfl
    · exact absurd hhead (by decide)
    · exact absurd hhead (by decide)
  unfold dotenvAssignment
  simp only [hexport, Bool.false_and, if_neg Bool.false_ne_true, Option.none_or]
  exact h.assignedName_lineOf

/-- The name is found in the line. -/
lemma validateAssignment_lineOf (h : Writable entry) {seen : List (List Char)}
    (hnew : entry.1.toList ∉ seen) :
    validateAssignment seen (lineOf entry) = .ok (entry.1.toList :: seen) := by
  obtain ⟨c, cs, hname, hc⟩ := h.exists_name_eq
  have hblank : ((lineOf entry).isEmpty || (lineOf entry).head? == some '#') = false := by
    rw [lineOf, hname, List.cons_append, List.isEmpty_cons, Bool.false_or, List.head?_cons]
    rcases hc with rfl | rfl
    · decide
    · decide
  unfold validateAssignment
  simp only [h.strip_lineOf, hblank, h.dotenvAssignment_lineOf, if_neg Bool.false_ne_true]
  rw [bind_eq_ok]
  refine ⟨(), ?_, rfl⟩
  rw [require_eq_ok, Bool.not_eq_true', List.contains_eq_mem, decide_eq_false hnew]

end Writable

/-! ## The text -/

section

variable {entries : Dict String String}

lemma textOf_cons (entry : String × String) (entries : Dict String String) :
    textOf (entry :: entries) = lineOf entry ++ '\n' :: textOf entries := by
  rw [textOf, List.flatMap_cons, List.append_assoc, List.singleton_append]
  rfl

lemma not_isControlOrFormat_textOf (h : ∀ entry ∈ entries, Writable entry) :
    ∀ c ∈ textOf entries, isControlOrFormat c = false ∨ c = '\n' := by
  intro c hc
  obtain ⟨entry, hentry, hc⟩ := List.mem_flatMap.1 hc
  rcases List.mem_append.1 hc with hc | hc
  · exact .inl ((h entry hentry).not_isControlOrFormat c hc)
  · exact .inr (List.mem_singleton.1 hc)

lemma splitLines_textOf (h : ∀ entry ∈ entries, Writable entry) :
    splitLines (textOf entries) = entries.map lineOf ++ [[]] := by
  induction entries with
  | nil => rfl
  | cons entry entries ih =>
      obtain ⟨hentry, hentries⟩ := List.forall_mem_cons.1 h
      have hline : ∀ c ∈ lineOf entry, isLineBreak c = false := by
        intro c hc
        refine Bool.eq_false_iff.2 fun hbreak => ?_
        have hplain := hentry.not_isControlOrFormat c hc
        rw [isControlOrFormat_of_isLineBreak hbreak] at hplain
        cases hplain
      rw [textOf_cons, splitLines, List.splitOnP_append_cons_of_forall_mem hline '\n' (by decide)]
      exact congrArg (lineOf entry :: ·) (ih hentries)

/-- The assignments are the entries. -/
lemma validateDotenvAssignments_textOf (h : ∀ entry ∈ entries, Writable entry)
    (hnodup : entries.keys.Nodup) : validateDotenvAssignments (textOf entries) = .ok () := by
  have hfold : ∀ entries : Dict String String, (∀ entry ∈ entries, Writable entry) →
      ∀ seen : List (List Char), (seen ++ (Dict.keys entries).map String.toList).Nodup →
        ∃ seen', (entries.map lineOf ++ [[]]).foldlM validateAssignment seen = .ok seen' := by
    intro entries
    induction entries with
    | nil => exact fun _ seen _ => ⟨seen, rfl⟩
    | cons entry entries ih =>
        intro h seen hnodup
        obtain ⟨hentry, hentries⟩ := List.forall_mem_cons.1 h
        have hperm : (seen ++ (Dict.keys (entry :: entries)).map String.toList).Perm
            ((entry.1.toList :: seen) ++ (Dict.keys entries).map String.toList) := List.perm_middle
        have hnodup' := hperm.nodup_iff.1 hnodup
        obtain ⟨seen', hrest⟩ := ih hentries _ hnodup'
        have hnew : entry.1.toList ∉ seen := fun hmem =>
          (List.nodup_cons.1 hnodup').1 (List.mem_append_left _ hmem)
        refine ⟨seen', ?_⟩
        rw [List.map_cons, List.cons_append, List.foldlM_cons, bind_eq_ok]
        exact ⟨_, hentry.validateAssignment_lineOf hnew, hrest⟩
  have hkeys : ([] ++ entries.keys.map String.toList).Nodup :=
    hnodup.map fun _ _ heq => String.toList_inj.1 heq
  obtain ⟨seen, hseen⟩ := hfold entries h [] hkeys
  rw [validateDotenvAssignments, splitLines_textOf h, hseen]
  rfl

/-- The reader finds the entries. -/
lemma values_textOf (reader : DotenvReader) (h : ∀ entry ∈ entries, Writable entry)
    (hnodup : entries.keys.Nodup) :
    reader.values (textOf entries) = entries.map fun entry => (entry.1, some entry.2) := by
  induction entries with
  | nil => exact reader.values_nil
  | cons entry entries ih =>
      obtain ⟨hentry, hentries⟩ := List.forall_mem_cons.1 h
      have hkeys : Dict.keys ([(entry.1, some entry.2)] ++
          entries.map fun entry => (entry.1, some entry.2)) = Dict.keys (entry :: entries) := by
        rw [Dict.keys_append, Dict.keys, Dict.keys, List.map_map]
        rfl
      have hline : lineOf entry ++ '\n' :: textOf entries = entry.1.toList ++ '=' :: '"' ::
          (escapeDotenv entry.2.toList ++ '"' :: '\n' :: textOf entries) := by
        simp only [lineOf, List.append_assoc, List.cons_append, List.nil_append]
      rw [textOf_cons, hline, reader.values_assignment hentry.name hentry.storable.getLast_ne,
        ih hentries (List.nodup_cons.1 hnodup).2, String.ofList_toList, String.ofList_toList,
        Dict.setAll_of_nodup (by rw [hkeys]; exact hnodup)]
      rfl

end

end MercuryTools.Local
