import MercuryTools.Execution.ActionPath
import Mathlib.Data.List.Forall2
import Mathlib.Data.List.SplitBy

/-!
# Rendered paths keep their segments

A value that takes the place of a placeholder is quoted, and quoting is undone by one round of
decoding (`unquote_quote`).  The check of a segment goes on until decoding changes nothing, so no
number of further rounds leaves the segment (`staysInSegment_of_stable`).  Together: a rendered path
has the segments of its template, and the values can be read off it (`renderActionPath_confined`).
-/

namespace MercuryTools
namespace Execution

open Checks

/-! ## Rounds of decoding -/

/-- The text after this many rounds of `unquote`. -/
def decodeTimes : ℕ → String → Option String
  | 0, text => some text
  | rounds + 1, text => (unquote text).bind (decodeTimes rounds)

/-- No round of decoding fails, and none leaves the segment. -/
def StaysInSegment (text : String) : Prop :=
  ∀ rounds, ∃ decoded, decodeTimes rounds text = some decoded ∧ escapesSegment decoded = false

variable {text segment name pathTemplate path : String} {parameters : Json} {α β : Type}

lemma decodeTimes_of_fixed (h : unquote text = some text) (rounds : ℕ) :
    decodeTimes rounds text = some text := by
  induction rounds with
  | zero => rfl
  | succ rounds ih => rw [decodeTimes, h, Option.bind_some, ih]

/-- One round more, in front of a text that stays. -/
lemma StaysInSegment.of_unquote {next : String} (h : unquote text = some next)
    (hescapes : escapesSegment text = false) (hnext : StaysInSegment next) :
    StaysInSegment text := by
  intro rounds
  cases rounds with
  | zero => exact ⟨text, rfl, hescapes⟩
  | succ rounds =>
    obtain ⟨decoded, hdecoded, hstays⟩ := hnext rounds
    exact ⟨decoded, by rw [decodeTimes, h, Option.bind_some, hdecoded], hstays⟩

/-- The rounds of the check stop at a text that decoding leaves alone. -/
theorem staysInSegment_of_stable {rounds : ℕ} (h : segmentIsStable rounds text = true) :
    StaysInSegment text := by
  induction rounds generalizing text with
  | zero => cases h
  | succ rounds ih =>
    rw [segmentIsStable, Bool.and_eq_true, Bool.not_eq_true'] at h
    obtain ⟨hescapes, hrest⟩ := h
    cases hunquote : unquote text with
    | none =>
      rw [hunquote] at hrest
      cases hrest
    | some next =>
      rw [hunquote] at hrest
      simp only [Bool.or_eq_true, beq_iff_eq] at hrest
      rcases hrest with rfl | hstable
      · exact fun count => ⟨next, decodeTimes_of_fixed hunquote count, hescapes⟩
      · exact .of_unquote hunquote hescapes (ih hstable)

lemma validatePathSegment_eq_ok {value : String} {allowEmpty : Bool} {u : Unit} :
    validatePathSegment value allowEmpty = .ok u ↔
      (!value.isEmpty || allowEmpty) = true ∧ segmentIsStable (value.length + 2) value = true := by
  simp only [validatePathSegment, bind_eq_ok, require_eq_ok, exists_const]

/-! ## Quoting -/

/-- What `quote` writes for a byte. -/
def quoteByte (byte : UInt8) : List Char :=
  if byte < 128 && isUnreserved (Char.ofNat byte.toNat) then [Char.ofNat byte.toNat]
  else ['%', hexDigit (byte.toNat / 16), hexDigit (byte.toNat % 16)]

lemma quote_eq (value : String) :
    quote value = String.ofList (value.toUTF8.toList.flatMap quoteByte) :=
  rfl

/-- A character that neither ends a segment nor is a control character. -/
def isSegmentChar (c : Char) : Bool :=
  c.toNat < 128 && !(c ∈ ['/', '\\', '?', '#'] || isControl c)

lemma hexValue_hexDigit : ∀ n < 16, hexValue (hexDigit n) = some n := by
  decide

lemma isSegmentChar_hexDigit : ∀ n < 16, isSegmentChar (hexDigit n) = true := by
  decide

lemma isSegmentChar_of_isUnreserved : ∀ n < 128, isUnreserved (Char.ofNat n) = true →
    isSegmentChar (Char.ofNat n) = true ∧ Char.ofNat n ≠ '%' ∧ (Char.ofNat n).toNat = n := by
  decide

lemma isSegmentChar_quoteByte (byte : UInt8) : ∀ c ∈ quoteByte byte, isSegmentChar c = true := by
  have hbyte : byte.toNat < 256 := byte.toNat_lt
  rw [quoteByte]
  split
  · next h =>
    rw [Bool.and_eq_true, decide_eq_true_eq, UInt8.lt_iff_toNat_lt] at h
    exact List.forall_mem_singleton.2 (isSegmentChar_of_isUnreserved byte.toNat h.1 h.2).1
  · simp only [List.forall_mem_cons, List.not_mem_nil, false_implies, implies_true, and_true]
    exact ⟨by decide, isSegmentChar_hexDigit _ (by omega), isSegmentChar_hexDigit _ (by omega)⟩

/-- A quoted byte is read back. -/
lemma unquoteToBytes_quoteByte (byte : UInt8) (rest : List Char) :
    unquoteToBytes (quoteByte byte ++ rest) = byte :: unquoteToBytes rest := by
  have hbyte : byte.toNat < 256 := byte.toNat_lt
  rw [quoteByte]
  split
  · next h =>
    rw [Bool.and_eq_true, decide_eq_true_eq, UInt8.lt_iff_toNat_lt] at h
    obtain ⟨-, hne, heq⟩ := isSegmentChar_of_isUnreserved byte.toNat h.1 h.2
    rw [List.singleton_append, unquoteToBytes, heq]
    · simp
    · intro _ _ _ hpercent
      exact absurd hpercent hne
  · rw [List.cons_append, List.cons_append, List.singleton_append, unquoteToBytes,
      hexValue_hexDigit _ (by omega), hexValue_hexDigit _ (by omega)]
    have hbyte : UInt8.ofNat (16 * (byte.toNat / 16) + byte.toNat % 16) = byte := by
      rw [Nat.div_add_mod, UInt8.ofNat_toNat]
    exact congrArg (· :: unquoteToBytes rest) hbyte

lemma unquoteToBytes_quote (bytes : List UInt8) :
    unquoteToBytes (bytes.flatMap quoteByte) = bytes := by
  induction bytes with
  | nil => rfl
  | cons byte bytes ih => rw [List.flatMap_cons, unquoteToBytes_quoteByte, ih]

lemma toList_loop (bytes : ByteArray) (i : ℕ) (read : List UInt8) :
    ByteArray.toList.loop bytes i read = read.reverse ++ bytes.data.toList.drop i := by
  induction i, read using ByteArray.toList.loop.induct bytes with
  | case1 i read hlt ih =>
    have hlt' : i < bytes.data.toList.length := hlt
    have hget : bytes.get! i = bytes.data.toList[i] := by
      rw [Array.getElem_toList]
      exact getElem!_pos bytes.data i hlt
    rw [ByteArray.toList.loop, if_pos hlt, ih, List.drop_eq_getElem_cons hlt', hget,
      List.reverse_cons, List.append_assoc, List.singleton_append]
  | case2 i read hge =>
    have hge' : bytes.data.toList.length ≤ i := not_lt.1 hge
    rw [ByteArray.toList.loop, if_neg hge, List.drop_eq_nil_of_le hge', List.append_nil]

lemma toList_data (bytes : ByteArray) : bytes.toList = bytes.data.toList := by
  rw [ByteArray.toList, toList_loop]
  rfl

lemma fromUTF8_toUTF8 (value : String) : String.fromUTF8? value.toUTF8 = some value := by
  have hvalid : value.toUTF8.IsValidUTF8 := value.isValidUTF8
  rw [String.fromUTF8?, dif_pos hvalid]
  rfl

/-- Text of ASCII characters is decoded in one run. -/
lemma unquote_of_ascii {cs : List Char} (h : ∀ c ∈ cs, c.toNat < 128) :
    unquote (String.ofList cs) = String.fromUTF8? ⟨(unquoteToBytes cs).toArray⟩ := by
  rcases eq_or_ne cs [] with rfl | hne
  · decide
  have hchain : List.IsChain
      (fun c d => decide (c.toNat < 128) && decide (d.toNat < 128)) cs :=
    (List.pairwise_of_forall_mem_list fun c hc d hd => by simp [h c hc, h d hd]).isChain
  have hall : cs.all (fun c => decide (c.toNat < 128)) = true :=
    List.all_eq_true.2 fun c hc => decide_eq_true (h c hc)
  rw [unquote, String.toList_ofList, List.splitBy_of_isChain hne hchain]
  simp only [List.mapM_cons, List.mapM_nil, hall, if_true]
  cases String.fromUTF8? ⟨(unquoteToBytes cs).toArray⟩ with
  | none => rfl
  | some text => exact congrArg some (by simp [String.join])

theorem unquote_quote (value : String) : unquote (quote value) = some value := by
  have hascii : ∀ c ∈ value.toUTF8.toList.flatMap quoteByte, c.toNat < 128 := by
    intro c hc
    obtain ⟨byte, -, hc⟩ := List.mem_flatMap.1 hc
    have hsegment := isSegmentChar_quoteByte byte c hc
    rw [isSegmentChar, Bool.and_eq_true, decide_eq_true_eq] at hsegment
    exact hsegment.1
  have hbytes : (⟨value.toUTF8.toList.toArray⟩ : ByteArray) = value.toUTF8 := by
    rw [toList_data]
  rw [quote_eq, unquote_of_ascii hascii, unquoteToBytes_quote, hbytes]
  exact fromUTF8_toUTF8 value

/-! ## Segments -/

/-- `path.split("/")`. -/
def pathSegments (path : String) : List String :=
  (path.toList.splitOn '/').map String.ofList

/-- The text of the value of a placeholder. -/
def textOf (parameters : Json) (name : String) : Option String :=
  (parameters.get? name).bind parameterText

/-- What becomes of a segment of the template: static text stays, and a placeholder is decoded to
the text of its value. -/
def RendersTo (parameters : Json) (segment rendered : String) : Prop :=
  match placeholderName? segment with
  | none => rendered = segment
  | some name => ∃ raw, textOf parameters name = some raw ∧ unquote rendered = some raw

lemma escapesSegment_eq_false : escapesSegment text = false ↔
    text ≠ "." ∧ text ≠ ".." ∧
      ∀ c ∈ text.toList, c ∉ ['/', '\\', '?', '#'] ∧ isControl c = false := by
  rw [escapesSegment, Bool.or_eq_false_iff, decide_eq_false_iff_not, List.any_eq_false]
  simp only [List.mem_cons, List.not_mem_nil, or_false, not_or, Bool.or_eq_true,
    decide_eq_true_eq, Bool.not_eq_true, and_assoc]

/-- The quoted text of a value stays in its segment if the value does. -/
lemma staysInSegment_quote {raw : String} (h : segmentIsStable (raw.length + 2) raw = true) :
    StaysInSegment (quote raw) := by
  have hraw := staysInSegment_of_stable h
  obtain ⟨decoded, hdecoded, hescapes⟩ := hraw 0
  obtain rfl := Option.some.inj hdecoded
  obtain ⟨hdot, hdots, -⟩ := escapesSegment_eq_false.1 hescapes
  have hne : ∀ {text : String}, unquote text = some text → raw ≠ text → quote raw ≠ text := by
    intro text htext hne heq
    have hunquote := unquote_quote raw
    rw [heq, htext] at hunquote
    exact hne (Option.some.inj hunquote).symm
  refine .of_unquote (unquote_quote raw) (escapesSegment_eq_false.2
    ⟨hne (by decide) hdot, hne (by decide) hdots, fun c hc => ?_⟩) hraw
  rw [quote_eq, String.toList_ofList, List.mem_flatMap] at hc
  obtain ⟨byte, -, hc⟩ := hc
  have hsegment := isSegmentChar_quoteByte byte c hc
  rw [isSegmentChar, Bool.and_eq_true, Bool.not_eq_true', Bool.or_eq_false_iff,
    decide_eq_false_iff_not] at hsegment
  exact hsegment.2

/-- One segment, read and rendered. -/
lemma renderSegment_of_readSegment {rendered : String} {part : String ⊕ String}
    (hread : readSegment segment = .ok part)
    (hrender : renderSegment parameters part = .ok rendered) :
    RendersTo parameters segment rendered ∧ StaysInSegment rendered := by
  rw [RendersTo]
  cases hname : placeholderName? segment with
  | none =>
    rw [readSegment, hname] at hread
    simp only [bind_eq_ok, require_eq_ok, pure_eq_ok, validatePathSegment_eq_ok] at hread
    obtain ⟨-, -, -, ⟨-, hstable⟩, rfl⟩ := hread
    obtain rfl := Except.ok.inj hrender
    exact ⟨rfl, staysInSegment_of_stable hstable⟩
  | some name =>
    rw [readSegment, hname] at hread
    obtain rfl := Except.ok.inj hread
    cases htext : textOf parameters name with
    | none =>
      rw [textOf] at htext
      rw [renderSegment, htext] at hrender
      cases hrender
    | some raw =>
      have htext' := htext
      rw [textOf] at htext'
      rw [renderSegment, htext'] at hrender
      simp only [bind_eq_ok, pure_eq_ok, validatePathSegment_eq_ok] at hrender
      obtain ⟨-, ⟨-, hstable⟩, rfl⟩ := hrender
      exact ⟨⟨raw, htext, unquote_quote raw⟩, staysInSegment_quote hstable⟩

/-! ## Paths -/

/-- Every segment stands in its place and stays there. -/
structure RenderedPath (pathTemplate : String) (parameters : Json) (path : String) : Prop where
  segments : List.Forall₂ (RendersTo parameters) (pathSegments pathTemplate) (pathSegments path)
  confined : ∀ segment ∈ pathSegments path, StaysInSegment segment
  names : ∀ name ∈ parameters.keys, ∃ segment ∈ pathSegments pathTemplate,
    placeholderName? segment = some name

/-- A joined list of segments is split into them. -/
lemma pathSegments_intercalate {segments : List String} (hne : segments ≠ [])
    (h : ∀ segment ∈ segments, '/' ∉ segment.toList) :
    pathSegments (String.intercalate "/" segments) = segments := by
  have hsplit : (['/'].intercalate (segments.map String.toList)).splitOn '/' =
      segments.map String.toList :=
    List.splitOn_intercalate '/' (List.forall_mem_map.2 h) (by simpa using hne)
  rw [pathSegments, String.toList_intercalate]
  change List.map String.ofList (List.splitOn '/' (['/'].intercalate _)) = segments
  rw [hsplit, List.map_map]
  exact List.map_id'' (fun segment => String.ofList_toList) segments

lemma pathSegments_ne_nil (path : String) : pathSegments path ≠ [] := by
  rw [pathSegments, ne_eq, List.map_eq_nil_iff]
  exact List.splitOn_ne_nil _ _

/-- Two relations in a row. -/
lemma exists_forall₂ {γ : Type} {R : α → β → Prop} {S : β → γ → Prop} {T : α → γ → Prop}
    {xs : List α} {ys : List β} {zs : List γ} (hxs : List.Forall₂ R xs ys)
    (hys : List.Forall₂ S ys zs) (h : ∀ x y z, R x y → S y z → T x z) : List.Forall₂ T xs zs := by
  induction hxs generalizing zs with
  | nil =>
    cases hys
    exact .nil
  | cons hx _ ih =>
    obtain _ | ⟨hy, hys⟩ := hys
    exact .cons (h _ _ _ hx hy) (ih hys)

lemma exists_of_mem_right {R : α → β → Prop} {xs : List α} {ys : List β} (h : List.Forall₂ R xs ys)
    {y : β} (hy : y ∈ ys) : ∃ x ∈ xs, R x y := by
  induction h with
  | nil => cases hy
  | cons hxy _ ih =>
    rcases List.mem_cons.1 hy with rfl | hy
    · exact ⟨_, List.mem_cons_self, hxy⟩
    · obtain ⟨x, hx, hxy⟩ := ih hy
      exact ⟨x, List.mem_cons_of_mem _ hx, hxy⟩

lemma readSegment_eq_inl (h : readSegment segment = .ok (.inl name)) :
    placeholderName? segment = some name := by
  rw [readSegment] at h
  cases hname : placeholderName? segment with
  | none =>
    rw [hname] at h
    simp only [bind_eq_ok, pure_eq_ok] at h
    obtain ⟨-, -, -, -, hne⟩ := h
    cases hne
  | some other =>
    rw [hname] at h
    exact congrArg some (Sum.inl.inj (Except.ok.inj h))

theorem renderedPath_of_renderActionPath (h : renderActionPath pathTemplate parameters = .ok path) :
    RenderedPath pathTemplate parameters path := by
  simp only [renderActionPath, bind_eq_ok, require_eq_ok, pure_eq_ok, mapM_eq_ok,
    Bool.and_eq_true, List.all_eq_true, decide_eq_true_eq] at h
  obtain ⟨-, -, -, -, parts, hread, -, -, -, ⟨hkeys, -⟩, segments, hrender, -, -, rfl⟩ := h
  have hboth := exists_forall₂ hread hrender fun _ _ _ hread hrender =>
    renderSegment_of_readSegment hread hrender
  have hstays : ∀ segment ∈ segments, StaysInSegment segment := by
    intro segment hsegment
    obtain ⟨-, -, -, hstays⟩ := exists_of_mem_right hboth hsegment
    exact hstays
  have hslash : ∀ segment ∈ segments, '/' ∉ segment.toList := by
    intro segment hsegment hmem
    obtain ⟨decoded, hdecoded, hescapes⟩ := hstays segment hsegment 0
    obtain rfl := Option.some.inj hdecoded
    exact ((escapesSegment_eq_false.1 hescapes).2.2 '/' hmem).1 List.mem_cons_self
  have hne : segments ≠ [] := by
    rintro rfl
    exact pathSegments_ne_nil pathTemplate (List.forall₂_nil_right_iff.1 hboth)
  have hpath := pathSegments_intercalate hne hslash
  refine ⟨?_, ?_, fun name hname => ?_⟩
  · rw [hpath]
    exact hboth.imp fun _ _ h => h.1
  · rw [hpath]
    exact hstays
  · obtain ⟨part, hpart, hleft⟩ := List.mem_filterMap.1 (hkeys name hname)
    obtain rfl := Sum.getLeft?_eq_some_iff.1 hleft
    obtain ⟨segment, hsegment, hpart⟩ := exists_of_mem_right hread hpart
    exact ⟨segment, hsegment, readSegment_eq_inl hpart⟩

lemma exists_of_mem_left {R S : α → β → Prop} {xs : List α} {ys : List β}
    (hr : List.Forall₂ R xs ys) (hs : List.Forall₂ S xs ys) {x : α} (hx : x ∈ xs) :
    ∃ y, R x y ∧ S x y := by
  induction hr with
  | nil => cases hx
  | cons hxy _ ih =>
    obtain _ | ⟨hxy', hs⟩ := hs
    rcases List.mem_cons.1 hx with rfl | hx
    · exact ⟨_, hxy, hxy'⟩
    · exact ih hs hx

/-- The values can be read off the path. -/
lemma RenderedPath.textOf_eq {others : Json} (h : RenderedPath pathTemplate parameters path)
    (h' : RenderedPath pathTemplate others path) (hsegment : segment ∈ pathSegments pathTemplate)
    (hname : placeholderName? segment = some name) : textOf parameters name = textOf others name := by
  obtain ⟨rendered, hrenders, hrenders'⟩ := exists_of_mem_left h.segments h'.segments hsegment
  rw [RendersTo, hname] at hrenders hrenders'
  obtain ⟨raw, htext, hraw⟩ := hrenders
  obtain ⟨raw', htext', hraw'⟩ := hrenders'
  rw [htext, htext', ← hraw, hraw']

lemma textOf_eq_none (h : name ∉ parameters.keys) : textOf parameters name = none := by
  cases parameters with
  | obj fields =>
    have hlookup : fields.lookup name = none := by
      rw [List.lookup_eq_none_iff]
      intro field hfield
      rw [bne_iff_ne]
      rintro rfl
      exact h (List.mem_map_of_mem hfield)
    rw [textOf, Json.get?, hlookup]
    rfl
  | _ => rfl

/-- **A rendered path has the segments of its template.**  No number of decodings leaves a segment,
and the text of every value can be read off the path. -/
theorem renderActionPath_confined {pathTemplate path : String} {parameters : Json}
    (h : renderActionPath pathTemplate parameters = .ok path) :
    (pathSegments path).length = (pathSegments pathTemplate).length ∧
      List.Forall₂ (RendersTo parameters) (pathSegments pathTemplate) (pathSegments path) ∧
      (∀ segment ∈ pathSegments path, ∀ rounds, ∃ decoded,
        decodeTimes rounds segment = some decoded ∧ decoded ≠ "." ∧ decoded ≠ ".." ∧
          ∀ c ∈ decoded.toList, c ∉ ['/', '\\', '?', '#'] ∧ isControl c = false) ∧
      ∀ others, renderActionPath pathTemplate others = .ok path →
        ∀ name, textOf parameters name = textOf others name := by
  have hpath := renderedPath_of_renderActionPath h
  refine ⟨hpath.segments.length_eq.symm, hpath.segments, fun segment hsegment rounds => ?_,
    fun others hothers name => ?_⟩
  · obtain ⟨decoded, hdecoded, hescapes⟩ := hpath.confined segment hsegment rounds
    exact ⟨decoded, hdecoded, escapesSegment_eq_false.1 hescapes⟩
  · have hpath' := renderedPath_of_renderActionPath hothers
    by_cases hname : name ∈ parameters.keys ∨ name ∈ others.keys
    · obtain ⟨segment, hsegment, hsame⟩ := hname.elim (hpath.names name) (hpath'.names name)
      exact hpath.textOf_eq hpath' hsegment hsame
    · rw [not_or] at hname
      rw [textOf_eq_none hname.1, textOf_eq_none hname.2]

theorem renderActionPath_invoice :
    (pathSegments "/invoices/a%20b").length = (pathSegments "/invoices/\x7bid\x7d").length :=
  (@renderActionPath_confined "/invoices/\x7bid\x7d" "/invoices/a%20b" (.obj [("id", .str "a b")])
    (by decide +kernel)).1

/-- A number and its digits are different values with one text. -/
theorem renderActionPath_int_eq_str :
    renderActionPath "/invoices/\x7bid\x7d" (.obj [("id", .int 5)]) = .ok "/invoices/5" ∧
      renderActionPath "/invoices/\x7bid\x7d" (.obj [("id", .str "5")]) = .ok "/invoices/5" ∧
      (Json.obj [("id", .int 5)]) ≠ .obj [("id", .str "5")] := by
  decide +kernel

end Execution
end MercuryTools
