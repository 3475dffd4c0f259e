import Mathlib.Data.Fintype.Basic
import Mathlib.Tactic.FinCases
import MercuryTools.Framework.Collation
import MercuryTools.Framework.JsonText

/-!
# Canonical JSON in the catalog and in the database

The catalog hashes the text of `canonical_json`, the database that of `mercury_canonical_jsonb`.
Both write a value without blanks and with sorted keys: the one by code points and with the
escapes of `json.dumps`, the other by bytes and with the escapes of `jsonb`.  What one side cannot
take at all bounds the agreement: the interpreter prints no integer of more than 4300 digits, and
`jsonb` holds no string with U+0000 and no number of more than 131072 digits.  A lone surrogate,
which a string of the interpreter may hold and no text of the database, lies outside of `Char`.
-/

namespace MercuryTools.Catalog

open JsonText

/-- A JSON value whose numbers are integers. -/
structure IntegerJson where
  value : Json
  distinct : value.DistinctKeys
  integers : value.IntegerNumbers

/-! ## Escapes -/

/-- `\u` and four hexadecimal digits. -/
def unicodeEscape (n : Nat) : List Char :=
  '\\' :: 'u' :: (List.replicate (4 - (Nat.toDigits 16 n).length) '0' ++ Nat.toDigits 16 n)

/-- How `jsonb` prints a character of a string. -/
def escapeJson (c : Char) : List Char :=
  if c = '\x08' then ['\\', 'b']
  else if c = '\x0c' then ['\\', 'f']
  else if c = '\n' then ['\\', 'n']
  else if c = '\r' then ['\\', 'r']
  else if c = '\t' then ['\\', 't']
  else if c = '"' then ['\\', '"']
  else if c = '\\' then ['\\', '\\']
  else if c.toNat < 0x20 then unicodeEscape c.toNat
  else [c]

/-- The escapes of `json.dumps`: the named ones, and one for every other control character. -/
def escapeDict : List (Char × List Char) :=
  [('\\', ['\\', '\\']), ('"', ['\\', '"']), ('\x08', ['\\', 'b']), ('\x0c', ['\\', 'f']),
    ('\n', ['\\', 'n']), ('\r', ['\\', 'r']), ('\t', ['\\', 't'])] ++
    (List.range 0x20).map fun i => (Char.ofNat i, unicodeEscape i)

/-- How `json.dumps` without `ensure_ascii` prints a character of a string. -/
def pyEncodeBasestring (c : Char) : List Char :=
  (escapeDict.lookup c).getD [c]

lemma escapeJson_controls : ∀ i < 0x20,
    escapeJson (Char.ofNat i) = pyEncodeBasestring (Char.ofNat i) := by
  decide

lemma escapeDict_keys : ∀ entry ∈ escapeDict,
    entry.1.toNat < 0x20 ∨ entry.1 = '"' ∨ entry.1 = '\\' := by
  decide

/-- Only control characters, quotes and backslashes are escaped. -/
lemma escapeJson_of_plain {c : Char} (hcontrol : ¬ c.toNat < 0x20) (hquote : c ≠ '"')
    (hbackslash : c ≠ '\\') : escapeJson c = [c] := by
  have hne : ∀ d : Char, d.toNat < 0x20 → c ≠ d := by
    rintro d hd rfl
    exact hcontrol hd
  rw [escapeJson, if_neg (hne '\x08' (by decide)), if_neg (hne '\x0c' (by decide)),
    if_neg (hne '\n' (by decide)), if_neg (hne '\r' (by decide)), if_neg (hne '\t' (by decide)),
    if_neg hquote, if_neg hbackslash, if_neg hcontrol]

lemma pyEncodeBasestring_of_plain {c : Char} (hcontrol : ¬ c.toNat < 0x20) (hquote : c ≠ '"')
    (hbackslash : c ≠ '\\') : pyEncodeBasestring c = [c] := by
  have hnone : escapeDict.lookup c = none := by
    refine List.lookup_eq_none_iff.2 fun entry hentry => ?_
    rw [bne_iff_ne]
    rintro rfl
    rcases escapeDict_keys entry hentry with h | h | h
    · exact hcontrol h
    · exact hquote h
    · exact hbackslash h
  rw [pyEncodeBasestring, hnone, Option.getD_none]

/-- The two tables of escapes are the same. -/
theorem escapeJson_eq : escapeJson = pyEncodeBasestring := by
  funext c
  by_cases hcontrol : c.toNat < 0x20
  · have h := escapeJson_controls c.toNat hcontrol
    rwa [Char.ofNat_toNat] at h
  by_cases hquote : c = '"'
  · rw [hquote]
    rfl
  by_cases hbackslash : c = '\\'
  · rw [hbackslash]
    rfl
  rw [escapeJson_of_plain hcontrol hquote hbackslash,
    pyEncodeBasestring_of_plain hcontrol hquote hbackslash]

/-! ### Reading an escape back -/

def hexValue (c : Char) : Nat :=
  if c.isDigit then c.toNat - '0'.toNat else c.toNat - 'a'.toNat + 10

/-- The character of an escape, after its backslash. -/
def unescape : List Char → Option (Char × List Char)
  | 'u' :: _ :: _ :: c :: d :: r => some (Char.ofNat (16 * hexValue c + hexValue d), r)
  | 'b' :: r => some ('\x08', r)
  | 'f' :: r => some ('\x0c', r)
  | 'n' :: r => some ('\n', r)
  | 'r' :: r => some ('\r', r)
  | 't' :: r => some ('\t', r)
  | c :: r => some (c, r)
  | [] => none

/-- The first character of a quoted text. -/
def unquote : List Char → Option (Char × List Char)
  | [] => none
  | c :: r => if c = '\\' then unescape r else some (c, r)

lemma unquote_controls (r : List Char) (i : Fin 0x20) :
    unquote (escapeJson (Char.ofNat i) ++ r) = some (Char.ofNat i, r) := by
  fin_cases i <;> rfl

lemma unquote_escapeJson (c : Char) (r : List Char) :
    unquote (escapeJson c ++ r) = some (c, r) := by
  by_cases hcontrol : c.toNat < 0x20
  · have h := unquote_controls r ⟨c.toNat, hcontrol⟩
    rwa [Char.ofNat_toNat] at h
  by_cases hquote : c = '"'
  · rw [hquote]
    rfl
  by_cases hbackslash : c = '\\'
  · rw [hbackslash]
    rfl
  rw [escapeJson_of_plain hcontrol hquote hbackslash, List.singleton_append, unquote,
    if_neg hbackslash]

lemma escapeJson_controls_head : ∀ i < 0x20,
    ∃ cs, escapeJson (Char.ofNat i) = '\\' :: cs := by
  have hhead : ∀ i < 0x20, (escapeJson (Char.ofNat i)).head? = some '\\' := by decide
  exact fun i hi => List.head?_eq_some_iff.1 (hhead i hi)

/-- No escape begins with a quotation mark. -/
lemma escapeJson_head (c : Char) : ∃ d ds, escapeJson c = d :: ds ∧ d ≠ '"' := by
  by_cases hcontrol : c.toNat < 0x20
  · obtain ⟨cs, h⟩ := escapeJson_controls_head c.toNat hcontrol
    rw [Char.ofNat_toNat] at h
    exact ⟨'\\', cs, h, by decide⟩
  by_cases hquote : c = '"'
  · rw [hquote]
    exact ⟨'\\', ['"'], rfl, by decide⟩
  by_cases hbackslash : c = '\\'
  · rw [hbackslash]
    exact ⟨'\\', ['\\'], rfl, by decide⟩
  exact ⟨c, [], escapeJson_of_plain hcontrol hquote hbackslash, hquote⟩

/-! ## The two writers -/

/-- `json.dumps` with `sort_keys`, without `ensure_ascii` and without blanks. -/
def pythonStyle : Style where
  keyLe := Collation.codePointsLe
  quote := pyEncodeBasestring

/-- `jsonb` as text, keys in the order of the C locale. -/
def jsonbStyle : Style where
  keyLe := Collation.bytesLe
  quote := escapeJson

theorem jsonbStyle_eq : jsonbStyle = pythonStyle := by
  unfold jsonbStyle pythonStyle
  rw [escapeJson_eq, Collation.bytesLe_eq_codePointsLe]

lemma readable_jsonbStyle : jsonbStyle.Readable where
  quote_inj a b r s h := by
    have hread : some (a, r) = some (b, s) := by
      rw [← unquote_escapeJson a r, ← unquote_escapeJson b s]
      exact congrArg unquote h
    exact Prod.ext_iff.1 (Option.some.inj hread)
  quote_ne := escapeJson_head

lemma ordered_pythonStyle : pythonStyle.Ordered where
  total := Collation.codePointsLe_total
  trans _ _ _ := Collation.codePointsLe_trans
  antisymm _ _ := Collation.codePointsLe_antisymm

mutual

/-- `_canonical_value` of a JSON value rebuilds it. -/
def canonicalValue : Json → Json
  | .arr items => .arr (canonicalItems items)
  | .obj fields => .obj (canonicalFields fields)
  | value => value

def canonicalItems : List Json → List Json
  | [] => []
  | x :: xs => canonicalValue x :: canonicalItems xs

def canonicalFields : List (String × Json) → List (String × Json)
  | [] => []
  | (key, x) :: fields => (key, canonicalValue x) :: canonicalFields fields

end

/-- No integer has more decimal digits. -/
def IntegersFit (digits : Nat) (value : Json) : Prop :=
  value.all (fun
    | .int n => decide ((Nat.toDigits 10 n.natAbs).length ≤ digits)
    | _ => true) = true

instance (digits : Nat) (value : Json) : Decidable (IntegersFit digits value) :=
  inferInstanceAs (Decidable (_ = true))

/-- No string and no key has the character U+0000. -/
def NoNul (value : Json) : Prop :=
  value.all (fun
    | .str s => !s.toList.contains '\x00'
    | .obj fields => fields.all fun field => !field.1.toList.contains '\x00'
    | _ => true) = true

instance (value : Json) : Decidable (NoNul value) :=
  inferInstanceAs (Decidable (_ = true))

/-- The digits that the interpreter prints of an integer. -/
def maxStrDigits : Nat := 4300

/-- The digits that a number of the database has before its decimal point. -/
def numericDigits : Nat := 131072

/-- `canonical_json`: printing an integer of more digits raises. -/
def canonicalJson (value : Json) : Option String :=
  if IntegersFit maxStrDigits value then
    some (String.ofList (pythonStyle.write (canonicalValue value)))
  else none

/-- The cast of a JSON value to `jsonb`, which raises on what `jsonb` does not hold. -/
def toJsonb (value : Json) : Option Json :=
  if NoNul value ∧ IntegersFit numericDigits value then some value else none

/-- `mercury_canonical_jsonb`. -/
def mercuryCanonicalJsonb (value : Json) : String :=
  String.ofList (jsonbStyle.write value)

/-- The canonical text of a JSON value in the database. -/
def databaseCanonicalJson (value : Json) : Option String :=
  (toJsonb value).map mercuryCanonicalJsonb

/-! ## Agreement -/

lemma canonicalItems_eq_map (items : List Json) :
    canonicalItems items = items.map canonicalValue := by
  induction items with
  | nil => rfl
  | cons x xs ih => rw [canonicalItems, List.map_cons, ih]

lemma canonicalFields_eq_map (fields : List (String × Json)) :
    canonicalFields fields = fields.map fun field => (field.1, canonicalValue field.2) := by
  induction fields with
  | nil => rfl
  | cons field fields ih => rw [canonicalFields, List.map_cons, ih]

/-- A JSON value is its own canonical value. -/
lemma canonicalValue_eq (value : Json) : canonicalValue value = value := by
  induction value using Json.induction with
  | arr items ih =>
      rw [canonicalValue, canonicalItems_eq_map, List.map_congr_left ih, List.map_id'']
      exact fun _ => rfl
  | obj fields ih =>
      have hfields : ∀ field ∈ fields, (field.1, canonicalValue field.2) = field :=
        fun field hfield => Prod.ext rfl (ih field hfield)
      rw [canonicalValue, canonicalFields_eq_map, List.map_congr_left hfields, List.map_id'']
      exact fun _ => rfl
  | _ => rfl

lemma canonicalJson_of_fit {value : Json} (h : IntegersFit maxStrDigits value) :
    canonicalJson value = some (String.ofList (pythonStyle.write value)) := by
  rw [canonicalJson, if_pos h, canonicalValue_eq]

lemma mercuryCanonicalJsonb_eq (value : Json) :
    mercuryCanonicalJsonb value = String.ofList (pythonStyle.write value) := by
  rw [mercuryCanonicalJsonb, jsonbStyle_eq]

lemma integersFit_mono {m n : Nat} (hmn : m ≤ n) {value : Json} (h : IntegersFit m value) :
    IntegersFit n value := by
  induction value using Json.induction with
  | int k => exact decide_eq_true ((of_decide_eq_true h).trans hmn)
  | arr items ih =>
      exact Json.all_arr.2 ⟨rfl, fun x hx => ih x hx ((Json.all_arr.1 h).2 x hx)⟩
  | obj fields ih =>
      exact Json.all_obj.2 ⟨rfl, fun x hx => ih x hx ((Json.all_obj.1 h).2 x hx)⟩
  | _ => rfl

/-- Two values have one text in the database exactly if they are the same, in whatever order their
keys are kept. -/
theorem mercuryCanonicalJsonb_eq_iff {value other : IntegerJson} :
    mercuryCanonicalJsonb value.value = mercuryCanonicalJsonb other.value ↔
      Json.Same value.value other.value := by
  constructor
  · intro h
    exact Style.same_of_write_eq readable_jsonbStyle value.integers other.integers
      (String.ofList_injective h)
  · intro h
    rw [mercuryCanonicalJsonb_eq, mercuryCanonicalJsonb_eq,
      Style.write_eq_of_same ordered_pythonStyle value.distinct h]

/-- Reading a table of canonical texts at one of its values. -/
lemma lookup_canonicalText {α : Type} {table : List (IntegerJson × α)}
    (h : table.Pairwise fun a b => ¬ Json.Same a.1.value b.1.value) {entry : IntegerJson × α}
    (hentry : entry ∈ table) :
    (table.map fun e => (mercuryCanonicalJsonb e.1.value, e.2)).lookup
      (mercuryCanonicalJsonb entry.1.value) = some entry.2 := by
  induction table with
  | nil => cases hentry
  | cons first table ih =>
      obtain ⟨hfirst, hrest⟩ := List.pairwise_cons.1 h
      rw [List.map_cons, List.lookup_cons]
      rcases List.mem_cons.1 hentry with rfl | hentry
      · rw [beq_self_eq_true]
      · have hne : (mercuryCanonicalJsonb entry.1.value == mercuryCanonicalJsonb first.1.value) =
            false := by
          rw [beq_eq_false_iff_ne]
          exact fun heq => hfirst entry hentry (mercuryCanonicalJsonb_eq_iff.1 heq.symm)
        rw [hne]
        exact ih hrest hentry

/-- The value has the text on one of the sides. -/
def HasCanonicalText (value : IntegerJson) (text : String) : Prop :=
  canonicalJson value.value = some text ∨ databaseCanonicalJson value.value = some text

lemma HasCanonicalText.eq_text {value : IntegerJson} {text : String}
    (h : HasCanonicalText value text) : text = mercuryCanonicalJsonb value.value := by
  rcases h with h | h
  · rw [canonicalJson] at h
    split at h
    · rw [← Option.some.inj h, canonicalValue_eq, mercuryCanonicalJsonb_eq]
    · cases h
  · rw [databaseCanonicalJson, toJsonb] at h
    split at h
    · exact (Option.some.inj h).symm
    · cases h

/-- A hash of the canonical text, over its bytes. -/
def canonicalHash (digest : List UInt8 → String) (text : Option String) : Option String :=
  text.map fun t => digest (Collation.utf8Bytes t)

/-- Where every integer has at most 4300 digits and no string or key has U+0000, both sides have
one text and one hash.  Texts of two values, on whichever side, are equal only if the values are
equal. -/
theorem canonicalTexts_agree :
    (∀ value : IntegerJson, IntegersFit maxStrDigits value.value → NoNul value.value →
      ∃ text, canonicalJson value.value = some text ∧
        databaseCanonicalJson value.value = some text ∧
        ∀ digest, canonicalHash digest (canonicalJson value.value) =
          canonicalHash digest (databaseCanonicalJson value.value)) ∧
      ∀ (value other : IntegerJson) (text : String), HasCanonicalText value text →
        HasCanonicalText other text → Json.Same value.value other.value := by
  refine ⟨fun value hfit hnul => ?_, fun value other text h h' => ?_⟩
  · have hjsonb : toJsonb value.value = some value.value :=
      if_pos ⟨hnul, integersFit_mono (by decide) hfit⟩
    have hdatabase : databaseCanonicalJson value.value =
        some (String.ofList (pythonStyle.write value.value)) := by
      rw [databaseCanonicalJson, hjsonb, Option.map_some, mercuryCanonicalJsonb_eq]
    refine ⟨_, canonicalJson_of_fit hfit, hdatabase, fun digest => ?_⟩
    rw [canonicalJson_of_fit hfit, hdatabase]
  · exact mercuryCanonicalJsonb_eq_iff.1 (h.eq_text.symm.trans h'.eq_text)

/-- `{"name": "ปี", "codes": [7, -20, null]}` -/
def sampleDocument : IntegerJson where
  value := .obj [("name", .str "ปี"), ("codes", .arr [.int 7, .int (-20), .null])]
  distinct := rfl
  integers := rfl

/-- The document has one text, and no other document has it. -/
theorem canonicalTexts_agree_sampleDocument :
    ∃ text, canonicalJson sampleDocument.value = some text ∧
      databaseCanonicalJson sampleDocument.value = some text ∧
      ∀ other : IntegerJson, canonicalJson other.value = some text →
        Json.Same sampleDocument.value other.value := by
  obtain ⟨text, hpython, hdatabase, -⟩ :=
    canonicalTexts_agree.1 sampleDocument (by decide) (by decide)
  exact ⟨text, hpython, hdatabase, fun other hother =>
    canonicalTexts_agree.2 sampleDocument other text (.inl hpython) (.inl hother)⟩

/-! ### What one side cannot take -/

/-- The value has one text on both sides. -/
def SharesText (value : IntegerJson) : Prop :=
  ∃ text, canonicalJson value.value = some text ∧ databaseCanonicalJson value.value = some text

def nulText : IntegerJson where
  value := .str "\x00"
  distinct := rfl
  integers := rfl

/-- The least number of one more digit than the interpreter prints. -/
def longNumber : IntegerJson where
  value := .int (10 ^ maxStrDigits : Nat)
  distinct := rfl
  integers := rfl

lemma not_integersFit_pow (digits : Nat) : ¬ IntegersFit digits (.int (10 ^ digits : Nat)) := by
  intro h
  have hlength : (Nat.toDigits 10 (1 * 10 ^ digits)).length ≤ digits := by
    rw [one_mul]
    exact of_decide_eq_true h
  rw [Numerals.toDigits_mul_pow Nat.one_pos, List.length_append, List.length_replicate] at hlength
  have hone : (Nat.toDigits 10 1).length = 1 := rfl
  omega

/-- The database has no text for the one value, the catalog none for the other. -/
theorem canonicalTexts_differ : ¬ SharesText nulText ∧ ¬ SharesText longNumber := by
  constructor
  · rintro ⟨text, -, hdatabase⟩
    have hnone : databaseCanonicalJson nulText.value = none := rfl
    rw [hnone] at hdatabase
    cases hdatabase
  · rintro ⟨text, hpython, -⟩
    have hlong : ¬ IntegersFit maxStrDigits longNumber.value := not_integersFit_pow maxStrDigits
    rw [canonicalJson, if_neg hlong] at hpython
    cases hpython

end MercuryTools.Catalog
