import MercuryTools.Framework.Checks
import MercuryTools.Local.CredentialStore

/-!
# Chunks of a document

`chunk_document` of `rag/chunking.py`.  The body is cut at its headings, and a section that is
longer than the limit is packed into windows, paragraph by paragraph.

The chunks have the characters of the body in their order, section by section.  They are within the
limit exactly if no section that has to be packed has a paragraph that is longer (`chunked_iff`).
-/

namespace MercuryTools.Rag

open Checks
open Local (isSpace strip)

/-! ## Sections -/

/-- `HEADING_RE` at the start of a line: the length of the match, and its second group. -/
def matchHeading (text : List Char) : Option (Nat × List Char) :=
  let hashes := text.takeWhile (· == '#')
  let spaces := (text.drop hashes.length).takeWhile isSpace
  let rest := text.drop (hashes.length + spaces.length)
  if hashes.length = 0 ∨ hashes.length > 6 ∨ spaces = [] then none
  else if rest ≠ [] then
    let title := rest.takeWhile (· != '\n')
    some (hashes.length + spaces.length + title.length, title)
  else
    -- at the end of the text, `\s+` leaves the last character that is not a line feed to `.+`
    let spaces := spaces.rdropWhile (· == '\n')
    if spaces.length ≥ 2 then
      some (hashes.length + spaces.length, spaces.drop (spaces.length - 1))
    else none

/-- `HEADING_RE.finditer`: the start and the second group of each match.  The characters to skip
belong to the match before. -/
def findHeadings (position skip : Nat) (lineStart : Bool) : List Char → List (Nat × List Char)
  | [] => []
  | c :: rest =>
      match skip with
      | skip + 1 => findHeadings (position + 1) skip (c == '\n') rest
      | 0 =>
          match if lineStart then matchHeading (c :: rest) else none with
          | some (length, title) =>
              (position, title) :: findHeadings (position + 1) (length - 1) (c == '\n') rest
          | none => findHeadings (position + 1) 0 (c == '\n') rest

/-- Where the section before these headings ends. -/
def sectionEnd (body : List Char) : List (Nat × List Char) → Nat
  | [] => body.length
  | (start, _) :: _ => start

/-- The loop of `split_markdown_sections`. -/
def headedSections (body : List Char) :
    List (Nat × List Char) → List (Option (List Char) × List Char)
  | [] => []
  | (start, title) :: headings =>
      let text := strip ((body.take (sectionEnd body headings)).drop start)
      if text ≠ [] then (some (strip title), text) :: headedSections body headings
      else headedSections body headings

/-- `split_markdown_sections` -/
def splitMarkdownSections (body : List Char) : List (Option (List Char) × List Char) :=
  match findHeadings 0 0 true body with
  | [] => if strip body ≠ [] then [(none, strip body)] else []
  | (start, title) :: headings =>
      let beginning := strip (body.take start)
      (if beginning ≠ [] then [(none, beginning)] else []) ++
        headedSections body ((start, title) :: headings)

/-! ## Windows -/

/-- `re.split(r"\n\s*\n", text)`.  The characters to skip belong to the separator before. -/
def splitBlankLines (skip : Nat) : List Char → List (List Char)
  | [] => [[]]
  | c :: rest =>
      match skip with
      | skip + 1 => splitBlankLines skip rest
      | 0 =>
          let separator := (rest.takeWhile isSpace).rdropWhile (· != '\n')
          if c = '\n' ∧ separator ≠ [] then [] :: splitBlankLines separator.length rest
          else (splitBlankLines 0 rest).modifyHead (c :: ·)

/-- The paragraphs of `_window_text`. -/
def paragraphs (text : List Char) : List (List Char) :=
  ((splitBlankLines 0 text).map strip).filter (· ≠ [])

/-- The loop body of `_window_text`. -/
def packParagraph (maxChars : Nat) (packed : List (List Char) × List Char)
    (paragraph : List Char) : List (List Char) × List Char :=
  let (windows, current) := packed
  if current = [] then (windows, paragraph)
  else if current.length + paragraph.length + 2 ≤ maxChars then
    (windows, current ++ '\n' :: '\n' :: paragraph)
  else (windows ++ [current], paragraph)

/-- `_window_text` -/
def windowText (text : List Char) (maxChars : Nat) : List (List Char) :=
  if text.length ≤ maxChars then [text]
  else
    let (windows, current) := (paragraphs text).foldl (packParagraph maxChars) ([], [])
    if current ≠ [] then windows ++ [current] else windows

/-! ## Chunks -/

/-- `KnowledgeDocument`, with the fields that a chunk is made of. -/
structure KnowledgeDocument where
  documentUri : String
  body : List Char
  sourceTitle : String
  sourceUri : String
  sourceUrl : Option String
  /-- `metadata["source_path"]`, or the path of the document. -/
  sourcePath : Option String

structure Citation where
  sourceTitle : String
  sourceUri : String
  sourceUrl : Option String
  sourcePath : Option String
  heading : Option (List Char)
  chunkIndex : Nat

/-- `KnowledgeChunk` -/
structure KnowledgeChunk (Metadata : Type) where
  documentUri : String
  chunkUri : String
  chunkIndex : Nat
  text : List Char
  sourceTitle : String
  sourceUri : String
  sourceUrl : Option String
  sourcePath : Option String
  heading : Option (List Char)
  citation : Citation
  metadata : Metadata

variable {Metadata : Type}

/-- The loop body of `chunk_document`.  The metadata depends on the document and on the text, and
there is none where a document of validations has other metadata than it should. -/
def appendChunk (chunkMetadata : List Char → Except String Metadata) (document : KnowledgeDocument)
    (chunks : List (KnowledgeChunk Metadata)) (window : Option (List Char) × List Char) :
    Except String (List (KnowledgeChunk Metadata)) := do
  let (heading, text) := window
  let index := chunks.length
  let metadata ← chunkMetadata text
  return chunks ++ [{
    documentUri := document.documentUri
    chunkUri := s!"{document.documentUri}#chunk-{index}"
    chunkIndex := index
    text := text
    sourceTitle := document.sourceTitle
    sourceUri := document.sourceUri
    sourceUrl := document.sourceUrl
    sourcePath := document.sourcePath
    heading := heading
    citation := ⟨document.sourceTitle, document.sourceUri, document.sourceUrl, document.sourcePath,
      heading, index⟩
    metadata := metadata }]

/-- The windows of all sections, with their headings. -/
def headedWindows (sections : List (Option (List Char) × List Char)) (maxChars : Nat) :
    List (Option (List Char) × List Char) :=
  sections.flatMap fun (heading, text) => (windowText text maxChars).map (heading, ·)

/-- `chunk_document` -/
def chunkDocument (chunkMetadata : List Char → Except String Metadata)
    (document : KnowledgeDocument) (maxChars : Nat) :
    Except String (List (KnowledgeChunk Metadata)) :=
  (headedWindows (splitMarkdownSections document.body) maxChars).foldlM
    (appendChunk chunkMetadata document) []

/-! ## What the chunks should be -/

/-- The characters that are not whitespace. -/
def visible (text : List Char) : List Char :=
  text.filter (!isSpace ·)

/-- The part of the body from each of the headings to the next. -/
def sectionsFrom (body : List Char) :
    List (Nat × List Char) → List (Option (List Char) × List Char)
  | [] => []
  | (start, title) :: headings =>
      (some (strip title), (body.take (sectionEnd body headings)).drop start) ::
        sectionsFrom body headings

/-- The body, cut at its headings. -/
def sections (body : List Char) : List (Option (List Char) × List Char) :=
  let headings := findHeadings 0 0 true body
  (none, body.take (sectionEnd body headings)) :: sectionsFrom body headings

/-- The chunks of a body: its characters, numbered texts within the limit, and for each section, in
order, the chunks that are cited under its heading and have its characters. -/
structure Chunked (body : List Char) (maxChars : Nat) (chunks : List (KnowledgeChunk Metadata)) :
    Prop where
  characters : visible (chunks.flatMap (·.text)) = visible body
  nonempty : ∀ chunk ∈ chunks, chunk.text ≠ []
  indices : chunks.map (·.chunkIndex) = List.range chunks.length
  bounded : ∀ chunk ∈ chunks, chunk.text.length ≤ maxChars
  cited : ∃ groups : List (List (KnowledgeChunk Metadata)), groups.flatten = chunks ∧
    List.Forall₂ (fun part group => (∀ chunk ∈ group, chunk.heading = part.1) ∧
      visible (group.flatMap (·.text)) = visible part.2) (sections body) groups

/-- Every section is within the limit, or all of its paragraphs are. -/
def Fits (body : List Char) (maxChars : Nat) : Prop :=
  ∀ part ∈ sections body, (strip part.2).length ≤ maxChars ∨
    ∀ paragraph ∈ paragraphs (strip part.2), paragraph.length ≤ maxChars

instance (body : List Char) (maxChars : Nat) : Decidable (Fits body maxChars) :=
  inferInstanceAs (Decidable (∀ part ∈ sections body, _ ∨ _))

section

variable {text : List Char} {maxChars : Nat}

/-! ## Visible characters -/

lemma visible_append (text text' : List Char) :
    visible (text ++ text') = visible text ++ visible text' :=
  List.filter_append ..

lemma visible_flatten (texts : List (List Char)) :
    visible texts.flatten = texts.flatMap visible := by
  induction texts with
  | nil => rfl
  | cons text texts ih => rw [List.flatten_cons, visible_append, ih, List.flatMap_cons]

/-- What is dropped at the beginning of a text is not visible. -/
lemma visible_dropWhile (text : List Char) : visible (text.dropWhile isSpace) = visible text := by
  induction text with
  | nil => rfl
  | cons c text ih =>
      cases h : isSpace c with
      | true =>
          rw [List.dropWhile_cons_of_pos h, ih]
          exact (List.filter_cons_of_neg (by simp [h])).symm
      | false => rw [List.dropWhile_cons_of_neg (by simp [h])]

lemma visible_strip (text : List Char) : visible (strip text) = visible text := by
  have hreverse : ∀ text : List Char, visible text.reverse = (visible text).reverse :=
    fun text => List.filter_reverse
  rw [strip, List.rdropWhile, hreverse, visible_dropWhile, hreverse, List.reverse_reverse,
    visible_dropWhile]

lemma visible_eq_nil (h : ∀ c ∈ text, isSpace c = true) : visible text = [] :=
  List.filter_eq_nil_iff.2 fun c hc => by simp [h c hc]

/-! ## Paragraphs -/

lemma splitBlankLines_ne_nil (skip : Nat) (text : List Char) : splitBlankLines skip text ≠ [] := by
  induction text generalizing skip with
  | nil => exact List.cons_ne_nil _ _
  | cons c rest ih =>
      cases skip with
      | succ skip =>
          rw [splitBlankLines]
          exact ih skip
      | zero =>
          rw [splitBlankLines]
          split
          · exact List.cons_ne_nil _ _
          · obtain ⟨piece, pieces, h⟩ := List.exists_cons_of_ne_nil (ih 0)
            rw [h]
            exact List.cons_ne_nil _ _

/-- The separators have no visible characters. -/
lemma visible_splitBlankLines (skip : Nat) (text : List Char) :
    visible (splitBlankLines skip text).flatten = visible (text.drop skip) := by
  induction text generalizing skip with
  | nil => simp [splitBlankLines]
  | cons c rest ih =>
      cases skip with
      | succ skip => rw [splitBlankLines, ih, List.drop_succ_cons]
      | zero =>
          rw [splitBlankLines, List.drop_zero]
          split
          next h =>
              obtain ⟨rfl, -⟩ := h
              have hspaces : (rest.takeWhile isSpace).rdropWhile (· != '\n') <+:
                  rest.takeWhile isSpace := List.rdropWhile_prefix _ _
              have hvisible : visible ((rest.takeWhile isSpace).rdropWhile (· != '\n')) = [] :=
                visible_eq_nil fun c hc => List.mem_takeWhile_imp (hspaces.subset hc)
              have hrest : visible (rest.drop
                  ((rest.takeWhile isSpace).rdropWhile (· != '\n')).length) = visible rest := by
                conv_rhs => rw [← List.prefix_iff_eq_append.1 (hspaces.trans (List.takeWhile_prefix _)),
                  visible_append, hvisible, List.nil_append]
              rw [List.flatten_cons, List.nil_append, ih, hrest]
              exact (List.filter_cons_of_neg (by decide)).symm
          next =>
              obtain ⟨piece, pieces, h⟩ := List.exists_cons_of_ne_nil (splitBlankLines_ne_nil 0 rest)
              have hrest := ih 0
              rw [h] at hrest
              rw [h, List.modifyHead_cons, List.flatten_cons, List.cons_append,
                ← List.singleton_append, visible_append, ← List.flatten_cons, hrest,
                ← visible_append]
              rfl

/-- The paragraphs have the characters of the text. -/
lemma visible_paragraphs (text : List Char) : visible (paragraphs text).flatten = visible text := by
  have hfilter : ∀ texts : List (List Char),
      visible (texts.filter (· ≠ [])).flatten = visible texts.flatten := by
    intro texts
    rw [List.flatten_filter_ne_nil]
  have hstrip : ∀ texts : List (List Char), visible (texts.map strip).flatten =
      visible texts.flatten := by
    intro texts
    rw [visible_flatten, visible_flatten, List.flatMap_map]
    exact congrArg (texts.flatMap ·) (funext visible_strip)
  rw [paragraphs, hfilter, hstrip, visible_splitBlankLines, List.drop_zero]

lemma ne_nil_of_mem_paragraphs {paragraph : List Char} (h : paragraph ∈ paragraphs text) :
    paragraph ≠ [] := by
  simpa using (List.mem_filter.1 h).2

/-! ## Windows -/

/-- What is packed of the paragraphs so far. -/
structure Packed (maxChars : Nat) (paragraphs : List (List Char))
    (packed : List (List Char) × List Char) : Prop where
  characters : visible packed.1.flatten ++ visible packed.2 = visible paragraphs.flatten
  nonempty : ∀ window ∈ packed.1, window ≠ []
  current : packed.2 = [] → paragraphs = []
  bounded : (∀ paragraph ∈ paragraphs, paragraph.length ≤ maxChars) →
    (∀ window ∈ packed.1, window.length ≤ maxChars) ∧ packed.2.length ≤ maxChars
  covered : ∀ paragraph ∈ paragraphs, (∃ window ∈ packed.1, paragraph.length ≤ window.length) ∨
    paragraph.length ≤ packed.2.length

lemma Packed.nil : Packed maxChars [] ([], []) where
  characters := rfl
  nonempty := nofun
  current _ := rfl
  bounded _ := ⟨nofun, Nat.zero_le _⟩
  covered := nofun

/-- One more paragraph. -/
lemma Packed.step {before : List (List Char)} {packed : List (List Char) × List Char}
    (h : Packed maxChars before packed) {paragraph : List Char} (hne : paragraph ≠ []) :
    Packed maxChars (before ++ [paragraph]) (packParagraph maxChars packed paragraph) := by
  obtain ⟨windows, current⟩ := packed
  have hlines : visible ['\n', '\n'] = [] := rfl
  have hflatten : visible (before ++ [paragraph]).flatten =
      visible windows.flatten ++ visible current ++ visible paragraph := by
    rw [List.flatten_append, visible_append, List.flatten_singleton, h.characters]
  have hparagraph : (∀ other ∈ before ++ [paragraph], other.length ≤ maxChars) →
      (∀ window ∈ windows, window.length ≤ maxChars) ∧ current.length ≤ maxChars ∧
        paragraph.length ≤ maxChars := by
    intro hall
    obtain ⟨hwindows, hcurrent⟩ := h.bounded fun other hother => hall other (List.mem_append_left _ hother)
    exact ⟨hwindows, hcurrent, hall paragraph (List.mem_append_right _ (List.mem_singleton_self _))⟩
  unfold packParagraph
  dsimp only
  split
  next hcurrent =>
      -- the first paragraph
      subst hcurrent
      have hbefore := h.current rfl
      subst hbefore
      refine ⟨?_, h.nonempty, fun hnil => absurd hnil hne, fun hall => ?_, fun other hother => ?_⟩
      · rw [hflatten]
        exact congrArg (· ++ visible paragraph) (List.append_nil _).symm
      · exact ⟨(hparagraph hall).1, (hparagraph hall).2.2⟩
      · rw [List.nil_append, List.mem_singleton] at hother
        exact .inr (hother ▸ Nat.le_refl _)
  next hcurrent =>
      split
      next hfits =>
          -- the paragraph goes to the current window
          refine ⟨?_, h.nonempty, fun hnil => absurd (List.append_eq_nil_iff.1 hnil).1 hcurrent,
            fun hall => ?_, fun other hother => ?_⟩
          · rw [hflatten, visible_append, List.append_assoc]
            rfl
          · refine ⟨(hparagraph hall).1, ?_⟩
            rw [List.length_append, List.length_cons, List.length_cons]
            omega
          · dsimp only
            rw [List.length_append, List.length_cons, List.length_cons]
            rcases List.mem_append.1 hother with hother | hother
            · exact (h.covered other hother).imp_right fun hle => by
                dsimp only at hle
                omega
            · rw [List.mem_singleton.1 hother]
              exact .inr (by omega)
      next =>
          -- the paragraph begins another window
          refine ⟨?_, fun window hwindow => ?_, fun hnil => absurd hnil hne, fun hall => ?_,
            fun other hother => ?_⟩
          · rw [hflatten, List.flatten_append, visible_append, List.flatten_singleton]
          · rcases List.mem_append.1 hwindow with hwindow | hwindow
            · exact h.nonempty window hwindow
            · exact List.mem_singleton.1 hwindow ▸ hcurrent
          · obtain ⟨hwindows, hle, hparagraph⟩ := hparagraph hall
            refine ⟨fun window hwindow => ?_, hparagraph⟩
            rcases List.mem_append.1 hwindow with hwindow | hwindow
            · exact hwindows window hwindow
            · exact List.mem_singleton.1 hwindow ▸ hle
          · rcases List.mem_append.1 hother with hother | hother
            · rcases h.covered other hother with ⟨window, hwindow, hle⟩ | hle
              · exact .inl ⟨window, List.mem_append_left _ hwindow, hle⟩
              · exact .inl ⟨current, List.mem_append_right _ (List.mem_singleton_self _), hle⟩
            · exact .inr (List.mem_singleton.1 hother ▸ Nat.le_refl _)

/-- All paragraphs. -/
lemma packed_foldl (paragraphs : List (List Char)) (h : ∀ paragraph ∈ paragraphs, paragraph ≠ []) :
    Packed maxChars paragraphs (paragraphs.foldl (packParagraph maxChars) ([], [])) := by
  induction paragraphs using List.reverseRecOn with
  | nil => exact .nil
  | append_singleton paragraphs paragraph ih =>
      obtain ⟨hbefore, hparagraph⟩ := List.forall_mem_append.1 h
      rw [List.foldl_append]
      exact (ih hbefore).step (hparagraph paragraph (List.mem_singleton_self _))

/-- The windows of a text have its characters and are within the limit where the text or all of its
paragraphs are. -/
lemma windowText_spec (hne : text ≠ []) :
    visible (windowText text maxChars).flatten = visible text ∧
      (∀ window ∈ windowText text maxChars, window ≠ []) ∧
      ((∀ window ∈ windowText text maxChars, window.length ≤ maxChars) ↔
        text.length ≤ maxChars ∨ ∀ paragraph ∈ paragraphs text, paragraph.length ≤ maxChars) := by
  unfold windowText
  split
  next hle =>
      refine ⟨by rw [List.flatten_singleton], fun window hwindow => ?_, ?_⟩
      · exact List.mem_singleton.1 hwindow ▸ hne
      · exact ⟨fun _ => .inl hle, fun _ window hwindow => List.mem_singleton.1 hwindow ▸ hle⟩
  next hlong =>
      have h : Packed maxChars (paragraphs text)
          ((paragraphs text).foldl (packParagraph maxChars) ([], [])) :=
        packed_foldl _ fun _ => ne_nil_of_mem_paragraphs
      generalize (paragraphs text).foldl (packParagraph maxChars) ([], []) = packed at h
      obtain ⟨windows, current⟩ := packed
      have hcharacters := h.characters.trans (visible_paragraphs text)
      have hiff : (∀ window ∈ windows ++ [current], window.length ≤ maxChars) ↔
          text.length ≤ maxChars ∨ ∀ paragraph ∈ paragraphs text, paragraph.length ≤ maxChars := by
        constructor
        · refine fun hall => .inr fun paragraph hparagraph => ?_
          rcases h.covered paragraph hparagraph with ⟨window, hwindow, hle⟩ | hle
          · exact hle.trans (hall window (List.mem_append_left _ hwindow))
          · exact hle.trans (hall current (List.mem_append_right _ (List.mem_singleton_self _)))
        · rintro (hle | hall)
          · exact absurd hle hlong
          · obtain ⟨hwindows, hcurrent⟩ := h.bounded hall
            refine List.forall_mem_append.2 ⟨hwindows, fun window hwindow => ?_⟩
            exact List.mem_singleton.1 hwindow ▸ hcurrent
      dsimp only
      split
      next hcurrent =>
          refine ⟨?_, ?_, hiff⟩
          · rw [List.flatten_append, visible_append, List.flatten_singleton, hcharacters]
          · refine List.forall_mem_append.2 ⟨h.nonempty, fun window hwindow => ?_⟩
            exact List.mem_singleton.1 hwindow ▸ hcurrent
      next hcurrent =>
          obtain rfl := Decidable.not_not.1 hcurrent
          refine ⟨?_, h.nonempty, ?_⟩
          · rw [← hcharacters]
            exact (List.append_nil _).symm
          · rw [← hiff, List.forall_mem_append, List.forall_mem_singleton]
            exact ⟨fun hall => ⟨hall, Nat.zero_le _⟩, And.left⟩

/-! ## Headings -/

/-- Headings come in the order of their positions. -/
lemma findHeadings_sorted (position skip : Nat) (lineStart : Bool) (text : List Char) :
    (∀ heading ∈ findHeadings position skip lineStart text,
      position ≤ heading.1 ∧ heading.1 < position + text.length) ∧
      (findHeadings position skip lineStart text).Pairwise fun x y => x.1 < y.1 := by
  induction text generalizing position skip lineStart with
  | nil => exact ⟨nofun, .nil⟩
  | cons c rest ih =>
      have hlater : ∀ skip, (∀ heading ∈ findHeadings (position + 1) skip (c == '\n') rest,
          position ≤ heading.1 ∧ heading.1 < position + (c :: rest).length) := by
        intro skip heading hheading
        have := (ih (position + 1) skip (c == '\n')).1 heading hheading
        rw [List.length_cons]
        omega
      cases skip with
      | succ skip =>
          rw [findHeadings]
          exact ⟨hlater skip, (ih _ _ _).2⟩
      | zero =>
          rw [findHeadings]
          split
          next length title _ =>
              refine ⟨List.forall_mem_cons.2 ⟨?_, hlater _⟩, List.pairwise_cons.2 ⟨?_, (ih _ _ _).2⟩⟩
              · exact ⟨Nat.le_refl _, by rw [List.length_cons]; omega⟩
              · exact fun heading hheading => ((ih _ _ _).1 heading hheading).1
          next => exact ⟨hlater 0, (ih _ _ _).2⟩

/-- The sections after the first headings are the rest of the body. -/
lemma append_sectionsFrom {body : List Char} {headings : List (Nat × List Char)}
    (hle : ∀ heading ∈ headings, heading.1 ≤ body.length)
    (hsorted : headings.Pairwise fun x y => x.1 < y.1) :
    body.take (sectionEnd body headings) ++ (sectionsFrom body headings).flatMap (·.2) = body := by
  induction headings with
  | nil => simp [sectionEnd, sectionsFrom]
  | cons heading headings ih =>
      obtain ⟨start, title⟩ := heading
      obtain ⟨hstart, hle⟩ := List.forall_mem_cons.1 hle
      obtain ⟨hlt, hsorted⟩ := List.pairwise_cons.1 hsorted
      have hend : start ≤ sectionEnd body headings := by
        cases headings with
        | nil => exact hstart
        | cons next _ => exact (hlt next List.mem_cons_self).le
      have htake : body.take start ++ (body.take (sectionEnd body headings)).drop start =
          body.take (sectionEnd body headings) := by
        have h := List.take_append_drop start (body.take (sectionEnd body headings))
        rwa [List.take_take, Nat.min_eq_left hend] at h
      rw [sectionEnd, sectionsFrom, List.flatMap_cons, ← List.append_assoc, htake]
      exact ih hle hsorted

/-- The sections are the body. -/
theorem flatMap_sections (body : List Char) : (sections body).flatMap (·.2) = body := by
  obtain ⟨hbound, hsorted⟩ := findHeadings_sorted 0 0 true body
  rw [sections, List.flatMap_cons]
  refine append_sectionsFrom (fun heading hheading => ?_) hsorted
  have := hbound heading hheading
  omega

/-- The sections of the code are those that are not blank, without the whitespace around them. -/
lemma splitMarkdownSections_eq (body : List Char) : splitMarkdownSections body =
    ((sections body).map fun part => (part.1, strip part.2)).filter (·.2 ≠ []) := by
  have hheaded : ∀ headings, headedSections body headings =
      ((sectionsFrom body headings).map fun part => (part.1, strip part.2)).filter (·.2 ≠ []) := by
    intro headings
    induction headings with
    | nil => rfl
    | cons heading headings ih =>
        obtain ⟨start, title⟩ := heading
        rw [headedSections, sectionsFrom, List.map_cons, List.filter_cons, ih]
        simp
  rw [splitMarkdownSections, sections, List.map_cons, List.filter_cons, ← hheaded]
  cases hheadings : findHeadings 0 0 true body with
  | nil =>
      simp [sectionEnd, headedSections]
  | cons heading headings =>
      obtain ⟨start, title⟩ := heading
      dsimp only
      by_cases h : strip (body.take start) = []
      · simp [sectionEnd, h]
      · simp [sectionEnd, h]

/-! ## Chunks -/

/-- The chunks of the windows, in order, after those that there are. -/
lemma foldlM_appendChunk {chunkMetadata : List Char → Except String Metadata}
    {document : KnowledgeDocument} {windows : List (Option (List Char) × List Char)}
    {before chunks : List (KnowledgeChunk Metadata)}
    (h : windows.foldlM (appendChunk chunkMetadata document) before = .ok chunks) :
    ∃ after, chunks = before ++ after ∧
      after.map (fun chunk => (chunk.heading, chunk.text)) = windows ∧
      after.map (·.chunkIndex) = List.range' before.length after.length := by
  induction windows generalizing before with
  | nil =>
      rw [List.foldlM_nil, pure_eq_ok] at h
      exact ⟨[], by rw [List.append_nil, h], rfl, rfl⟩
  | cons window windows ih =>
      obtain ⟨heading, text⟩ := window
      rw [List.foldlM_cons, bind_eq_ok] at h
      obtain ⟨next, hnext, h⟩ := h
      obtain ⟨metadata, -, hnext⟩ := bind_eq_ok.1 hnext
      rw [pure_eq_ok] at hnext
      subst hnext
      obtain ⟨after, rfl, hwindows, hindices⟩ := ih h
      refine ⟨_, List.append_assoc _ _ _, ?_, ?_⟩
      · rw [List.singleton_append, List.map_cons, hwindows]
      · rw [List.singleton_append, List.map_cons, hindices, List.length_cons, List.range'_succ,
          List.length_append, List.length_singleton]

/-- A list whose image comes from parts is divided in the same way. -/
lemma exists_groups {α β γ : Type*} {f : α → β} {g : γ → List β} {xs : List α} {parts : List γ}
    (h : xs.map f = parts.flatMap g) : ∃ groups : List (List α), groups.flatten = xs ∧
      List.Forall₂ (fun part group => group.map f = g part) parts groups := by
  induction parts generalizing xs with
  | nil => exact ⟨[], (List.map_eq_nil_iff.1 h).symm, .nil⟩
  | cons part parts ih =>
      obtain ⟨group, rest, rfl, hgroup, hrest⟩ := List.map_eq_append_iff.1 h
      obtain ⟨groups, rfl, hgroups⟩ := ih hrest
      exact ⟨group :: groups, rfl, .cons hgroup hgroups⟩

/-- The windows of one section of the body. -/
def partWindows (maxChars : Nat) (part : Option (List Char) × List Char) :
    List (Option (List Char) × List Char) :=
  if strip part.2 = [] then [] else (windowText (strip part.2) maxChars).map (part.1, ·)

lemma headedWindows_splitMarkdownSections (body : List Char) (maxChars : Nat) :
    headedWindows (splitMarkdownSections body) maxChars =
      (sections body).flatMap (partWindows maxChars) := by
  rw [splitMarkdownSections_eq, headedWindows]
  induction sections body with
  | nil => rfl
  | cons part parts ih =>
      rw [List.map_cons, List.flatMap_cons, ← ih, partWindows]
      by_cases h : strip part.2 = []
      · rw [if_pos h, List.filter_cons_of_neg (by simp [h]), List.nil_append]
      · rw [if_neg h, List.filter_cons_of_pos (by simp [h]), List.flatMap_cons]

lemma partWindows_spec (maxChars : Nat) (part : Option (List Char) × List Char) :
    visible ((partWindows maxChars part).flatMap (·.2)) = visible part.2 ∧
      (∀ window ∈ partWindows maxChars part, window.1 = part.1 ∧ window.2 ≠ []) ∧
      ((∀ window ∈ partWindows maxChars part, window.2.length ≤ maxChars) ↔
        (strip part.2).length ≤ maxChars ∨
          ∀ paragraph ∈ paragraphs (strip part.2), paragraph.length ≤ maxChars) := by
  rw [partWindows, ← visible_strip part.2]
  split
  next h =>
      rw [h]
      exact ⟨rfl, nofun, fun _ => .inl (Nat.zero_le _), nofun⟩
  next h =>
      obtain ⟨hvisible, hne, hle⟩ : _ ∧ _ ∧ (_ ↔ (strip part.2).length ≤ maxChars ∨ _) :=
        windowText_spec h
      refine ⟨?_, List.forall_mem_map.2 fun window hwindow => ⟨rfl, hne window hwindow⟩, ?_⟩
      · rw [List.flatMap_map, ← hvisible, List.flatMap_id']
      · rw [List.forall_mem_map]
        exact hle

end

/-- Whatever the metadata, the chunks that are returned have the characters of the body, section by
section, and they are within the limit exactly if every section or all of its paragraphs are. -/
theorem chunked_iff {chunkMetadata : List Char → Except String Metadata}
    {document : KnowledgeDocument} {maxChars : Nat} {chunks : List (KnowledgeChunk Metadata)}
    (h : chunkDocument chunkMetadata document maxChars = .ok chunks) :
    Chunked document.body maxChars chunks ↔ Fits document.body maxChars := by
  obtain ⟨chunks, rfl, hwindows, hindices⟩ := foldlM_appendChunk h
  rw [headedWindows_splitMarkdownSections] at hwindows
  have htexts : ∀ chunks : List (KnowledgeChunk Metadata), chunks.flatMap (·.text) =
      (chunks.map fun chunk => (chunk.heading, chunk.text)).flatMap (·.2) := by
    intro chunks
    rw [List.flatMap_map]
  have hmem : ∀ chunk ∈ chunks, ∃ part ∈ sections document.body,
      (chunk.heading, chunk.text) ∈ partWindows maxChars part := by
    intro chunk hchunk
    exact List.mem_flatMap.1 (hwindows ▸ List.mem_map_of_mem hchunk)
  have hbounded : (∀ chunk ∈ chunks, chunk.text.length ≤ maxChars) ↔ Fits document.body maxChars := by
    have hall : (∀ chunk ∈ chunks, chunk.text.length ≤ maxChars) ↔
        ∀ window ∈ (sections document.body).flatMap (partWindows maxChars),
          window.2.length ≤ maxChars := by
      rw [← hwindows, List.forall_mem_map]
    rw [hall]
    simp only [List.forall_mem_flatMap, (partWindows_spec maxChars _).2.2]
    rfl
  refine ⟨fun hchunked => hbounded.1 hchunked.bounded, fun hfits => ⟨?_, ?_, ?_, ?_, ?_⟩⟩
  · have hvisible : ∀ parts : List (Option (List Char) × List Char),
        visible ((parts.flatMap (partWindows maxChars)).flatMap (·.2)) =
          visible (parts.flatMap (·.2)) := by
      intro parts
      induction parts with
      | nil => rfl
      | cons part parts ih =>
          rw [List.flatMap_cons, List.flatMap_append, visible_append, ih,
            (partWindows_spec maxChars part).1, ← visible_append]
          rfl
    change visible (chunks.flatMap (·.text)) = _
    rw [htexts, hwindows, hvisible, flatMap_sections]
  · intro chunk hchunk
    obtain ⟨part, -, hpart⟩ := hmem chunk hchunk
    exact ((partWindows_spec maxChars part).2.1 _ hpart).2
  · exact hindices.trans (List.range_eq_range' ▸ rfl)
  · exact hbounded.2 hfits
  · obtain ⟨groups, rfl, hgroups⟩ := exists_groups hwindows
    refine ⟨groups, rfl, hgroups.imp fun part group hgroup => ⟨fun chunk hchunk => ?_, ?_⟩⟩
    · exact ((partWindows_spec maxChars part).2.1 _ (hgroup ▸ List.mem_map_of_mem hchunk)).1
    · rw [htexts, hgroup, (partWindows_spec maxChars part).1]

/-- A document of two sections. -/
def handbook : KnowledgeDocument :=
  ⟨"mercury://wiki/tax", "Intro\n\n# VAT\nSeven\n\npercent\n".toList, "Tax", "mercury://wiki/tax",
    none, none⟩

def withoutMetadata (_ : List Char) : Except String Unit :=
  .ok ()

def handbookChunks : List (KnowledgeChunk Unit) :=
  (chunkDocument withoutMetadata handbook 12).toOption.getD []

theorem chunked_handbook : Chunked handbook.body 12 handbookChunks :=
  (@chunked_iff Unit withoutMetadata handbook 12 handbookChunks rfl).2 (by decide)

/-- A paragraph of two letters is longer than a limit of one. -/
theorem not_chunked_longParagraph : ∃ chunks,
    chunkDocument withoutMetadata { handbook with body := ['a', 'b'] } 1 = .ok chunks ∧
      ¬ Chunked ['a', 'b'] 1 chunks := by
  refine ⟨_, rfl, fun h => ?_⟩
  exact absurd (h.bounded _ (List.mem_singleton_self _)) (by decide)

end MercuryTools.Rag
