import MercuryTools.Framework.Collation
import MercuryTools.Framework.JsonText

/-!
# JSON texts in ASCII

How a writer escapes every character outside the printable ASCII range: by its code point in four
hexadecimal digits, and by two surrogates where it has more than sixteen bits.  `readAscii` reads a
quoted character back, so that such texts can be told apart as well, and so can their encodings
with one byte for each character.

Nothing here refers to a particular system.
-/

namespace JsonText

/-! ## Escapes -/

/-- Four hexadecimal digits. -/
def fourDigits (n : Nat) : List Char :=
  [Nat.digitChar (n / 4096 % 16), Nat.digitChar (n / 256 % 16), Nat.digitChar (n / 16 % 16),
    Nat.digitChar (n % 16)]

def unicodeUnit (n : Nat) : List Char :=
  '\\' :: 'u' :: fourDigits n

/-- A code point as one unit or as two surrogates. -/
def unicodeUnits (n : Nat) : List Char :=
  if n < 0x10000 then unicodeUnit n
  else unicodeUnit (0xd800 + (n - 0x10000) / 0x400) ++ unicodeUnit (0xdc00 + (n - 0x10000) % 0x400)

/-- The characters that have an escape of their own, and the letter of the escape. -/
def shortEscapes : List (Char × Char) :=
  [('\\', '\\'), ('"', '"'), ('\x08', 'b'), ('\x0c', 'f'), ('\n', 'n'), ('\r', 'r'), ('\t', 't')]

def quoteAscii (c : Char) : List Char :=
  match shortEscapes.lookup c with
  | some letter => ['\\', letter]
  | none => if ' ' ≤ c ∧ c ≤ '~' then [c] else unicodeUnits c.toNat

/-! ## Reading them back -/

def digitValue (c : Char) : Nat :=
  if c.isDigit then c.toNat - '0'.toNat else c.toNat - 'a'.toNat + 10

def readDigits : List Char → Option (Nat × List Char)
  | a :: b :: c :: d :: r =>
      some (4096 * digitValue a + 256 * digitValue b + 16 * digitValue c + digitValue d, r)
  | _ => none

/-- The second surrogate of a character, after the first one. -/
def readSecond (n : Nat) : List Char → Option (Char × List Char)
  | '\\' :: 'u' :: r => (readDigits r).map fun (m, r) =>
      (Char.ofNat (0x10000 + 0x400 * (n - 0xd800) + (m - 0xdc00)), r)
  | _ => none

/-- A character whose first unit is `n`. -/
def readUnits (n : Nat) (r : List Char) : Option (Char × List Char) :=
  if n < 0xd800 ∨ 0xdbff < n then some (Char.ofNat n, r) else readSecond n r

/-- The character of an escape, after its backslash. -/
def readEscape : List Char → Option (Char × List Char)
  | [] => none
  | letter :: r =>
      if letter = 'u' then (readDigits r).bind fun (n, r) => readUnits n r
      else (shortEscapes.find? fun entry => entry.2 = letter).map fun entry => (entry.1, r)

/-- The first character of a quoted text. -/
def readAscii : List Char → Option (Char × List Char)
  | [] => none
  | c :: r => if c = '\\' then readEscape r else some (c, r)

lemma digitValue_digitChar : ∀ d < 16, digitValue (Nat.digitChar d) = d := by decide

variable {n : Nat} {c : Char} {text a b : List Char} {value : Json}

lemma readDigits_fourDigits (h : n < 0x10000) (r : List Char) :
    readDigits (fourDigits n ++ r) = some (n, r) := by
  show some (4096 * digitValue _ + 256 * digitValue _ + 16 * digitValue _ + digitValue _, r) = _
  rw [digitValue_digitChar _ (Nat.mod_lt _ (by decide)),
    digitValue_digitChar _ (Nat.mod_lt _ (by decide)),
    digitValue_digitChar _ (Nat.mod_lt _ (by decide)),
    digitValue_digitChar _ (Nat.mod_lt _ (by decide))]
  have hsum : 4096 * (n / 4096 % 16) + 256 * (n / 256 % 16) + 16 * (n / 16 % 16) + n % 16 = n := by
    omega
  rw [hsum]

lemma readAscii_unicodeUnit (h : n < 0x10000) (r : List Char) :
    readAscii (unicodeUnit n ++ r) = readUnits n r := by
  have hdigits : readAscii (unicodeUnit n ++ r) =
      (readDigits (fourDigits n ++ r)).bind fun (n, r) => readUnits n r := rfl
  rw [hdigits, readDigits_fourDigits h]
  rfl

lemma readSecond_unicodeUnit {m : Nat} (h : m < 0x10000) (r : List Char) :
    readSecond n (unicodeUnit m ++ r) =
      some (Char.ofNat (0x10000 + 0x400 * (n - 0xd800) + (m - 0xdc00)), r) := by
  have hdigits : readSecond n (unicodeUnit m ++ r) = (readDigits (fourDigits m ++ r)).map
      fun (m, r) => (Char.ofNat (0x10000 + 0x400 * (n - 0xd800) + (m - 0xdc00)), r) := rfl
  rw [hdigits, readDigits_fourDigits h]
  rfl

lemma toNat_lt (c : Char) : c.toNat < 0x110000 :=
  Collation.val_lt c

/-- No character is a surrogate. -/
lemma not_surrogate (c : Char) : c.toNat < 0xd800 ∨ 0xdfff < c.toNat := by
  rcases c.valid with h | h
  · exact .inl h
  · exact .inr h.1

lemma readAscii_unicodeUnits (c : Char) (r : List Char) :
    readAscii (unicodeUnits c.toNat ++ r) = some (c, r) := by
  unfold unicodeUnits
  by_cases hsmall : c.toNat < 0x10000
  · rw [if_pos hsmall]
    have hplain : c.toNat < 0xd800 ∨ 0xdbff < c.toNat := by
      rcases not_surrogate c with h | h
      · exact .inl h
      · exact .inr (by omega)
    rw [readAscii_unicodeUnit hsmall, readUnits, if_pos hplain, Char.ofNat_toNat]
  · rw [if_neg hsmall, List.append_assoc]
    have hlt := toNat_lt c
    have hhigh : 0xd800 + (c.toNat - 0x10000) / 0x400 < 0x10000 := by omega
    have hlow : 0xdc00 + (c.toNat - 0x10000) % 0x400 < 0x10000 := by omega
    rw [readAscii_unicodeUnit hhigh, readUnits, if_neg (by omega)]
    rw [readSecond_unicodeUnit hlow]
    have hsum : 0x10000 + 0x400 * (0xd800 + (c.toNat - 0x10000) / 0x400 - 0xd800) +
        (0xdc00 + (c.toNat - 0x10000) % 0x400 - 0xdc00) = c.toNat := by
      omega
    rw [hsum, Char.ofNat_toNat]

/-- Each short escape is read back. -/
lemma readEscape_letter {letter : Char} (h : (c, letter) ∈ shortEscapes) (r : List Char) :
    readEscape (letter :: r) = some (c, r) := by
  have hread : ∀ entry ∈ shortEscapes,
      readEscape [entry.2] = some (entry.1, []) ∧ entry.2 ≠ 'u' := by
    decide
  obtain ⟨heq, hne⟩ := hread _ h
  rw [readEscape, if_neg hne] at heq ⊢
  obtain ⟨entry, hentry, hpair⟩ := Option.map_eq_some_iff.1 heq
  rw [hentry, Option.map_some, (Prod.mk.inj hpair).1]

lemma readAscii_quoteAscii (c : Char) (r : List Char) :
    readAscii (quoteAscii c ++ r) = some (c, r) := by
  unfold quoteAscii
  cases hlookup : shortEscapes.lookup c with
  | some letter =>
      obtain ⟨before, after, heq, -⟩ := List.lookup_eq_some_iff.1 hlookup
      have hmem : (c, letter) ∈ shortEscapes := by
        rw [heq]
        exact List.mem_append_right _ List.mem_cons_self
      exact readEscape_letter hmem r
  | none =>
      dsimp only
      split
      · have hne : c ≠ '\\' := by
          rintro rfl
          cases hlookup
        rw [List.singleton_append, readAscii, if_neg hne]
      · exact readAscii_unicodeUnits c r

/-- No escape begins with a quotation mark. -/
lemma quoteAscii_head (c : Char) : ∃ d ds, quoteAscii c = d :: ds ∧ d ≠ '"' := by
  unfold quoteAscii
  cases hlookup : shortEscapes.lookup c with
  | some letter => exact ⟨'\\', [letter], rfl, by decide⟩
  | none =>
      dsimp only
      split
      · refine ⟨c, [], rfl, ?_⟩
        rintro rfl
        cases hlookup
      · unfold unicodeUnits
        split
        · exact ⟨'\\', _, rfl, by decide⟩
        · exact ⟨'\\', _, rfl, by decide⟩

/-- The style of a writer that sorts its keys and writes ASCII only. -/
def asciiStyle : Style where
  keyLe := Collation.codePointsLe
  quote := quoteAscii

theorem readable_asciiStyle : asciiStyle.Readable where
  quote_inj a b r s h := by
    have hread : some (a, r) = some (b, s) := by
      rw [← readAscii_quoteAscii a r, ← readAscii_quoteAscii b s]
      exact congrArg readAscii h
    exact Prod.ext_iff.1 (Option.some.inj hread)
  quote_ne := quoteAscii_head

/-! ## The texts are in ASCII -/

def IsAscii (text : List Char) : Prop :=
  ∀ c ∈ text, c.toNat < 128

/-- ASCII without the control characters. -/
def IsPrintable (text : List Char) : Prop :=
  ∀ c ∈ text, 0x20 ≤ c.toNat ∧ c.toNat < 0x7f

lemma IsPrintable.isAscii (h : IsPrintable text) : IsAscii text := by
  intro c hc
  have hlt := (h c hc).2
  omega

lemma isPrintable_of_all (h : text.all (fun c => 0x20 ≤ c.toNat ∧ c.toNat < 0x7f) = true) :
    IsPrintable text :=
  fun c hc => of_decide_eq_true (List.all_eq_true.1 h c hc)

lemma isPrintable_append (ha : IsPrintable a) (hb : IsPrintable b) : IsPrintable (a ++ b) :=
  fun c hc => (List.mem_append.1 hc).elim (ha c) (hb c)

lemma isPrintable_cons (hc : 0x20 ≤ c.toNat ∧ c.toNat < 0x7f) (ha : IsPrintable a) :
    IsPrintable (c :: a) :=
  List.forall_mem_cons.2 ⟨hc, ha⟩

lemma isPrintable_nil : IsPrintable [] :=
  List.forall_mem_nil _

lemma isPrintable_flatMap {α : Type} {f : α → List Char} {xs : List α} (h : ∀ x ∈ xs, IsPrintable (f x)) :
    IsPrintable (xs.flatMap f) := by
  intro c hc
  obtain ⟨x, hx, hmem⟩ := List.mem_flatMap.1 hc
  exact h x hx c hmem

lemma isPrintable_joined {parts : List (List Char)} (h : ∀ part ∈ parts, IsPrintable part) :
    IsPrintable (joined parts) := by
  cases parts with
  | nil => exact isPrintable_nil
  | cons part parts =>
      rw [List.forall_mem_cons] at h
      exact isPrintable_append h.1
        (isPrintable_flatMap fun other hother => isPrintable_cons (by decide) (h.2 other hother))

lemma isPrintable_fourDigits (n : Nat) : IsPrintable (fourDigits n) := by
  have hdigit : ∀ d < 16, 0x20 ≤ (Nat.digitChar d).toNat ∧ (Nat.digitChar d).toNat < 0x7f := by
    decide
  unfold fourDigits
  intro c hc
  simp only [List.mem_cons, List.not_mem_nil, or_false] at hc
  rcases hc with rfl | rfl | rfl | rfl
  all_goals exact hdigit _ (Nat.mod_lt _ (by decide))

lemma isPrintable_unicodeUnit (n : Nat) : IsPrintable (unicodeUnit n) :=
  isPrintable_cons (by decide) (isPrintable_cons (by decide) (isPrintable_fourDigits n))

lemma isPrintable_quoteAscii (c : Char) : IsPrintable (quoteAscii c) := by
  unfold quoteAscii
  cases hlookup : shortEscapes.lookup c with
  | some letter =>
      have hletters : ∀ entry ∈ shortEscapes, 0x20 ≤ entry.2.toNat ∧ entry.2.toNat < 0x7f := by
        decide
      obtain ⟨before, after, heq, -⟩ := List.lookup_eq_some_iff.1 hlookup
      have hmem : (c, letter) ∈ shortEscapes := by
        rw [heq]
        exact List.mem_append_right _ List.mem_cons_self
      exact isPrintable_cons (by decide) (isPrintable_cons (hletters _ hmem) isPrintable_nil)
  | none =>
      dsimp only
      split
      · rename_i hrange
        have hle : c.toNat ≤ '~'.toNat := hrange.2
        exact isPrintable_cons ⟨hrange.1, lt_of_le_of_lt hle (by decide)⟩ isPrintable_nil
      · unfold unicodeUnits
        split
        · exact isPrintable_unicodeUnit _
        · exact isPrintable_append (isPrintable_unicodeUnit _) (isPrintable_unicodeUnit _)

lemma isPrintable_stringText (text : String) : IsPrintable (asciiStyle.stringText text) :=
  isPrintable_cons (by decide) (isPrintable_append (isPrintable_flatMap fun c _ => isPrintable_quoteAscii c)
    (isPrintable_cons (by decide) isPrintable_nil))

lemma isPrintable_toDigits (n : Nat) : IsPrintable (Nat.toDigits 10 n) := by
  intro c hc
  have hdigit := Numerals.isDigit_of_mem_toDigits hc
  simp only [Char.isDigit, Bool.and_eq_true, decide_eq_true_eq] at hdigit
  have hge := UInt32.le_iff_toNat_le.1 hdigit.1
  have hle := UInt32.le_iff_toNat_le.1 hdigit.2
  exact ⟨le_trans (by decide) hge, lt_of_le_of_lt hle (by decide)⟩

theorem isPrintable_write (h : value.IntegerNumbers) : IsPrintable (asciiStyle.write value) := by
  induction value using Json.induction with
  | null => exact isPrintable_of_all rfl
  | bool b =>
      cases b with
      | false => exact isPrintable_of_all rfl
      | true => exact isPrintable_of_all rfl
  | int n =>
      cases n with
      | ofNat n => exact isPrintable_toDigits n
      | negSucc n => exact isPrintable_cons (by decide) (isPrintable_toDigits _)
  | float text => cases h
  | str text => exact isPrintable_stringText text
  | arr items ih =>
      rw [Style.write_arr]
      refine isPrintable_cons (by decide) (isPrintable_append (isPrintable_joined fun part hpart => ?_)
        (isPrintable_cons (by decide) isPrintable_nil))
      obtain ⟨x, hx, rfl⟩ := List.mem_map.1 hpart
      exact ih x hx ((Json.all_arr.1 h).2 x hx)
  | obj fields ih =>
      rw [Style.write_obj]
      refine isPrintable_cons (by decide) (isPrintable_append (isPrintable_joined fun part hpart => ?_)
        (isPrintable_cons (by decide) isPrintable_nil))
      obtain ⟨field, hfield, rfl⟩ := List.mem_map.1 hpart
      have hmem := (asciiStyle.sortFields_perm fields).mem_iff.1 hfield
      exact isPrintable_append (isPrintable_stringText field.1)
        (isPrintable_cons (by decide) (ih field hmem ((Json.all_obj.1 h).2 field hmem)))

lemma isAscii_write (h : value.IntegerNumbers) : IsAscii (asciiStyle.write value) :=
  (isPrintable_write h).isAscii

/-- `encode("ascii")` of a text in ASCII. -/
def encodeAscii (text : List Char) : List UInt8 :=
  text.map fun c => UInt8.ofNat c.toNat

lemma encodeAscii_inj (ha : IsAscii a) (hb : IsAscii b) (h : encodeAscii a = encodeAscii b) :
    a = b := by
  induction a generalizing b with
  | nil => exact (List.map_eq_nil_iff.1 h.symm).symm
  | cons c a ih =>
      cases b with
      | nil => cases h
      | cons d b =>
          obtain ⟨hhead, htail⟩ := List.cons.inj h
          obtain ⟨hc, ha⟩ := List.forall_mem_cons.1 ha
          obtain ⟨hd, hb⟩ := List.forall_mem_cons.1 hb
          have hnat := congrArg UInt8.toNat hhead
          rw [UInt8.toNat_ofNat', UInt8.toNat_ofNat', Nat.mod_eq_of_lt (by omega),
            Nat.mod_eq_of_lt (by omega)] at hnat
          rw [Char.toNat_inj.1 hnat, ih ha hb htail]

/-- Values with the same text in ASCII are the same. -/
theorem same_of_encodeAscii_write {x y : Json} (hx : x.IntegerNumbers) (hy : y.IntegerNumbers)
    (h : encodeAscii (asciiStyle.write x) = encodeAscii (asciiStyle.write y)) : Json.Same x y :=
  Style.same_of_write_eq readable_asciiStyle hx hy
    (encodeAscii_inj (isAscii_write hx) (isAscii_write hy) h)

end JsonText
