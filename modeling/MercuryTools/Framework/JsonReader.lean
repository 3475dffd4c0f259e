import MercuryTools.Framework.AsciiJson

/-!
# Reading JSON texts

A reader of JSON: blanks between the tokens, strings whose control characters are escaped, numbers
without leading zeros.  A lone surrogate is no character, so that a string with one is not read.
What becomes of the text of a number with a fraction or an exponent is a parameter, the text that
prints the float.

What a style has written is read back, with the fields of its objects in the order of their keys.

Nothing here refers to a particular system.
-/

namespace JsonText

/-! ## Characters -/

def isBlank (c : Char) : Bool :=
  c == ' ' || c == '\t' || c == '\n' || c == '\r'

def skipBlanks (r : List Char) : List Char :=
  r.dropWhile isBlank

/-- The value of a hexadecimal digit. -/
def hexValue? (c : Char) : Option Nat :=
  if '0' ≤ c ∧ c ≤ '9' then some (c.toNat - '0'.toNat)
  else if 'a' ≤ c ∧ c ≤ 'f' then some (c.toNat - 'a'.toNat + 10)
  else if 'A' ≤ c ∧ c ≤ 'F' then some (c.toNat - 'A'.toNat + 10)
  else none

/-- A unit of four hexadecimal digits. -/
def readUnit : List Char → Option (Nat × List Char)
  | a :: b :: c :: d :: r => do
      let a ← hexValue? a
      let b ← hexValue? b
      let c ← hexValue? c
      let d ← hexValue? d
      return (4096 * a + 256 * b + 16 * c + d, r)
  | _ => none

/-- The character of `\u`, after these two letters. -/
def readPoint (r : List Char) : Option (Char × List Char) := do
  let (n, r) ← readUnit r
  if n < 0xd800 ∨ 0xdfff < n then
    return (Char.ofNat n, r)
  else if n < 0xdc00 then
    match r with
    | '\\' :: 'u' :: r => do
        let (m, r) ← readUnit r
        if 0xdc00 ≤ m ∧ m ≤ 0xdfff then
          return (Char.ofNat (0x10000 + 0x400 * (n - 0xd800) + (m - 0xdc00)), r)
        else none
    | _ => none
  else none

/-- The letters of the escapes, with the characters they stand for. -/
def letters : List (Char × Char) :=
  ('/', '/') :: shortEscapes.map Prod.swap

/-- The first character of a string that has not ended. -/
def readCharacter : List Char → Option (Char × List Char)
  | [] => none
  | c :: r =>
      if c = '\\' then
        match r with
        | [] => none
        | letter :: r =>
            if letter = 'u' then readPoint r else (letters.lookup letter).map (·, r)
      else if c.toNat < 0x20 then none
      else some (c, r)

/-- The characters of a string, after the quotation mark. -/
def readString : Nat → List Char → Option (List Char × List Char)
  | 0, _ => none
  | _ + 1, [] => none
  | n + 1, c :: r =>
      if c = '"' then some ([], r)
      else do
        let (d, r) ← readCharacter (c :: r)
        let (ds, r) ← readString n r
        return (d :: ds, r)

/-! ## Numbers -/

/-- The digits of an integer: one zero, or no zero first. -/
def integerDigits (r : List Char) : List Char :=
  if r.head? = some '0' then ['0'] else r.takeWhile Char.isDigit

/-- A point with digits. -/
def fraction : List Char → List Char
  | '.' :: r => if (r.takeWhile Char.isDigit).isEmpty then [] else '.' :: r.takeWhile Char.isDigit
  | _ => []

/-- An `e` with a sign, if any, and digits. -/
def exponent : List Char → List Char
  | [] => []
  | e :: r =>
      if e = 'e' ∨ e = 'E' then
        let sign := (r.take 1).filter fun c => c == '+' || c == '-'
        let digits := (r.drop sign.length).takeWhile Char.isDigit
        if digits.isEmpty then [] else e :: (sign ++ digits)
      else []

section

variable (floatText : List Char → String)

def readNumber (r : List Char) : Option (Json × List Char) :=
  let sign := (r.take 1).filter (· == '-')
  let digits := integerDigits (r.drop sign.length)
  let r := r.drop (sign.length + digits.length)
  let frac := fraction r
  let expo := exponent (r.drop frac.length)
  if digits.isEmpty then none
  else if frac.isEmpty && expo.isEmpty then
    let n : Int := Numerals.value digits
    some (.int (if sign.isEmpty then n else -n), r)
  else
    some (.float (floatText (sign ++ digits ++ frac ++ expo)), r.drop (frac.length + expo.length))

/-! ## Values -/

/-- The literal, if the text starts with it. -/
def readLiteral (literal : List Char) (value : Json) (r : List Char) : Option (Json × List Char) :=
  if literal.isPrefixOf r then some (value, r.drop literal.length) else none

mutual

/-- A value, blanks before it skipped; the first argument bounds the nesting and the lengths. -/
def readValue : Nat → List Char → Option (Json × List Char)
  | 0, _ => none
  | _ + 1, [] => none
  | n + 1, c :: r =>
      match c with
      | '"' => do
          let (text, r) ← readString r.length r
          return (.str (String.ofList text), r)
      | '[' =>
          match skipBlanks r with
          | ']' :: r => some (.arr [], r)
          | r => do
              let (items, r) ← readItems n r
              return (.arr items, r)
      | '{' =>
          match skipBlanks r with
          | '}' :: r => some (.obj [], r)
          | r => do
              let (fields, r) ← readFields n r
              return (.obj fields, r)
      | 'n' => readLiteral ['n', 'u', 'l', 'l'] .null (c :: r)
      | 't' => readLiteral ['t', 'r', 'u', 'e'] (.bool true) (c :: r)
      | 'f' => readLiteral ['f', 'a', 'l', 's', 'e'] (.bool false) (c :: r)
      | 'N' => readLiteral "NaN".toList (.float "NaN") (c :: r)
      | 'I' => readLiteral "Infinity".toList (.float "Infinity") (c :: r)
      | _ =>
          (readLiteral "-Infinity".toList (.float "-Infinity") (c :: r)).or
            (readNumber floatText (c :: r))

/-- The items of an array, up to the bracket. -/
def readItems : Nat → List Char → Option (List Json × List Char)
  | 0, _ => none
  | n + 1, r => do
      let (item, r) ← readValue n r
      match skipBlanks r with
      | ',' :: r => do
          let (items, r) ← readItems n (skipBlanks r)
          return (item :: items, r)
      | ']' :: r => return ([item], r)
      | _ => none

/-- The fields of an object, up to the brace. -/
def readFields : Nat → List Char → Option (List (String × Json) × List Char)
  | 0, _ => none
  | n + 1, '"' :: r => do
      let (key, r) ← readString r.length r
      match skipBlanks r with
      | ':' :: r => do
          let (value, r) ← readValue n (skipBlanks r)
          match skipBlanks r with
          | ',' :: r => do
              let (fields, r) ← readFields n (skipBlanks r)
              return ((String.ofList key, value) :: fields, r)
          | '}' :: r => return ([(String.ofList key, value)], r)
          | _ => none
      | _ => none
  | _ + 1, _ => none

end

/-- The value of a whole text. -/
def read (text : List Char) : Option Json := do
  let (value, r) ← readValue floatText text.length (skipBlanks text)
  if (skipBlanks r).isEmpty then return value else none

end

/-! ## Reading back what a style has written -/

namespace Style

variable (style : Style)

mutual

/-- The value with the fields of its objects in the order of their keys. -/
def normal : Json → Json
  | .arr items => .arr (normalItems items)
  | .obj fields => .obj ((normalFields fields).insertionSort fun x y => style.keyLe x.1 y.1)
  | value => value

def normalItems : List Json → List Json
  | [] => []
  | x :: xs => normal x :: normalItems xs

def normalFields : List (String × Json) → List (String × Json)
  | [] => []
  | (key, x) :: fields => (key, normal x) :: normalFields fields

end

lemma normalItems_eq_map (items : List Json) : style.normalItems items = items.map style.normal := by
  induction items with
  | nil => rfl
  | cons x xs ih => rw [normalItems, List.map_cons, ih]

lemma normalFields_eq_map (fields : List (String × Json)) :
    style.normalFields fields = fields.map fun entry => (entry.1, style.normal entry.2) := by
  induction fields with
  | nil => rfl
  | cons entry fields ih => rw [normalFields, List.map_cons, ih]

lemma normal_arr (items : List Json) : style.normal (.arr items) = .arr (items.map style.normal) := by
  rw [normal, normalItems_eq_map]

lemma normal_obj (fields : List (String × Json)) :
    style.normal (.obj fields) =
      .obj ((style.sortFields fields).map fun entry => (entry.1, style.normal entry.2)) := by
  have hsort : (style.sortFields fields).map (fun entry => (entry.1, style.normal entry.2)) =
      (fields.map fun entry => (entry.1, style.normal entry.2)).insertionSort fun x y =>
        style.keyLe x.1 y.1 :=
    List.map_insertionSort _ _ _ _ fun _ _ _ _ => Iff.rfl
  rw [normal, normalFields_eq_map, hsort]

/-- The reader reads every quoted character. -/
structure Reads : Prop where
  readCharacter : ∀ c r, readCharacter (style.quote c ++ r) = some (c, r)
  quote_ne : ∀ c, ∃ d ds, style.quote c = d :: ds ∧ d ≠ '"'

end Style

/-- What follows a value that is not the last thing in the text. -/
def Closes (r : List Char) : Prop :=
  ∀ c ∈ r.head?, c = ',' ∨ c = ']' ∨ c = '}'

lemma closes_cons {c : Char} (h : c = ',' ∨ c = ']' ∨ c = '}') (r : List Char) :
    Closes (c :: r) := by
  intro d hd
  cases hd
  exact h

lemma closes_nil : Closes [] := nofun

variable {m n : Nat} {r : List Char}

lemma exists_eq_succ (h : m < n) : ∃ k, n = k + 1 :=
  ⟨n - 1, by omega⟩

/-! ### Strings -/

variable {style : Style}

lemma readString_quote (h : style.Reads) (text r : List Char) (hn : text.length < n) :
    readString n (text.flatMap style.quote ++ '"' :: r) = some (text, r) := by
  induction text generalizing n with
  | nil =>
      obtain ⟨n, rfl⟩ := exists_eq_succ hn
      rfl
  | cons c text ih =>
      obtain ⟨n, rfl⟩ := exists_eq_succ hn
      rw [List.length_cons] at hn
      obtain ⟨d, ds, hquote, hne⟩ := h.quote_ne c
      have hread := h.readCharacter c (text.flatMap style.quote ++ '"' :: r)
      rw [hquote, List.cons_append] at hread
      rw [List.flatMap_cons, List.append_assoc, hquote, List.cons_append, readString, if_neg hne,
        hread]
      have hrest := ih (n := n) (by omega)
      simp only [Option.bind_eq_bind, Option.bind_some, hrest, Option.pure_def]

/-- The quotation of a text is at least as long as the text. -/
lemma length_le_flatMap_quote (h : style.Reads) (text : List Char) :
    text.length ≤ (text.flatMap style.quote).length := by
  induction text with
  | nil => exact Nat.le_refl _
  | cons c text ih =>
      obtain ⟨d, ds, hquote, -⟩ := h.quote_ne c
      rw [List.flatMap_cons, List.length_append, List.length_cons, hquote, List.length_cons]
      omega

lemma readString_stringText (h : style.Reads) (text : String) (r : List Char) :
    readString (text.toList.flatMap style.quote ++ '"' :: r).length
      (text.toList.flatMap style.quote ++ '"' :: r) = some (text.toList, r) := by
  apply readString_quote h
  have hle := length_le_flatMap_quote h text.toList
  rw [List.length_append, List.length_cons]
  omega

/-! ### Integers -/

lemma takeWhile_isDigit {digits : List Char} (hdigits : ∀ c ∈ digits, c.isDigit = true)
    (hr : ∀ c ∈ r.head?, c.isDigit = false) : (digits ++ r).takeWhile Char.isDigit = digits := by
  rw [List.takeWhile_append_of_pos hdigits]
  cases r with
  | nil => rw [List.takeWhile_nil, List.append_nil]
  | cons c r =>
      have hc := hr c rfl
      rw [List.takeWhile_cons, hc]
      exact List.append_nil _

lemma Closes.head_not_digit (h : Closes r) : ∀ c ∈ r.head?, c.isDigit = false := by
  intro c hc
  rcases h c hc with rfl | rfl | rfl <;> rfl

lemma integerDigits_toDigits (n : Nat) (hr : Closes r) :
    integerDigits (Nat.toDigits 10 n ++ r) = Nat.toDigits 10 n := by
  unfold integerDigits
  rcases Nat.eq_zero_or_pos n with rfl | hpos
  · rfl
  · have hhead := Numerals.head_toDigits hpos
    have hne : Nat.toDigits 10 n ≠ [] := Nat.toDigits_ne_nil
    rw [if_neg]
    · exact takeWhile_isDigit (fun c => Numerals.isDigit_of_mem_toDigits) hr.head_not_digit
    · cases hdigits : Nat.toDigits 10 n with
      | nil => exact absurd hdigits hne
      | cons c cs =>
          rw [hdigits] at hhead
          exact hhead

lemma fraction_of_closes (h : Closes r) : fraction r = [] := by
  cases r with
  | nil => rfl
  | cons c r =>
      rcases h c rfl with rfl | rfl | rfl <;> rfl

lemma exponent_of_closes (h : Closes r) : exponent r = [] := by
  cases r with
  | nil => rfl
  | cons c r =>
      rcases h c rfl with rfl | rfl | rfl <;> rfl

section

variable (floatText : List Char → String)

lemma readNumber_intText (n : Int) {r : List Char} (hr : Closes r) :
    readNumber floatText (intText n ++ r) = some (.int n, r) := by
  have hnil : ∀ n, Nat.toDigits 10 n ≠ [] := fun n => Nat.toDigits_ne_nil
  cases n with
  | ofNat n =>
      have hsign : ((Nat.toDigits 10 n ++ r).take 1).filter (· == '-') = [] := by
        obtain ⟨c, cs, hdigits, hdigit⟩ := exists_toDigits_eq_cons n
        have hne : c ≠ '-' := Numerals.ne_of_isDigit hdigit rfl
        rw [hdigits]
        simp [hne]
      unfold readNumber
      simp only [intText, hsign, List.length_nil, List.drop_zero, integerDigits_toDigits n hr,
        Nat.zero_add, List.drop_left, fraction_of_closes hr, exponent_of_closes hr]
      simp [hnil, Numerals.value_toDigits]
  | negSucc n =>
      unfold readNumber
      simp only [intText, List.cons_append, List.take_succ_cons, List.take_zero]
      have hsign : ['-'].filter (· == '-') = ['-'] := rfl
      simp only [hsign, List.length_singleton, List.drop_succ_cons, List.drop_zero,
        integerDigits_toDigits (n + 1) hr, Nat.add_comm 1, List.drop_left, fraction_of_closes hr]
      simp [hnil, Numerals.value_toDigits, Int.negSucc_eq, exponent_of_closes hr]

end

/-! ### Values -/

section

variable (floatText : List Char → String)

variable {x : Json} {n : Nat} {r : List Char}

/-- What a value starts with is no blank and closes nothing. -/
lemma write_head_not_blank (hx : x.IntegerNumbers) :
    ∃ c cs, style.write x = c :: cs ∧ isBlank c = false ∧ c ≠ ']' := by
  cases x with
  | null => exact ⟨'n', _, rfl, rfl, by decide⟩
  | bool b =>
      cases b
      · exact ⟨'f', _, rfl, rfl, by decide⟩
      · exact ⟨'t', _, rfl, rfl, by decide⟩
  | int n =>
      cases n with
      | ofNat n =>
          obtain ⟨c, cs, hdigits, hdigit⟩ := exists_toDigits_eq_cons n
          refine ⟨c, cs, hdigits, ?_, Numerals.ne_of_isDigit hdigit rfl⟩
          unfold isBlank
          simp only [Bool.or_eq_false_iff, beq_eq_false_iff_ne]
          refine ⟨⟨⟨?_, ?_⟩, ?_⟩, ?_⟩ <;> exact Numerals.ne_of_isDigit hdigit rfl
      | negSucc n => exact ⟨'-', _, rfl, rfl, by decide⟩
  | float text => cases hx
  | str text => exact ⟨'"', _, rfl, rfl, by decide⟩
  | arr items => exact ⟨'[', _, style.write_arr items, rfl, by decide⟩
  | obj fields => exact ⟨'\x7b', _, style.write_obj fields, rfl, by decide⟩

lemma skipBlanks_cons {c : Char} (h : isBlank c = false) (r : List Char) :
    skipBlanks (c :: r) = c :: r := by
  unfold skipBlanks
  rw [List.dropWhile_cons, h]
  rfl

lemma skipBlanks_write (hx : x.IntegerNumbers) (r : List Char) :
    skipBlanks (style.write x ++ r) = style.write x ++ r := by
  obtain ⟨c, cs, hwrite, hblank, -⟩ := write_head_not_blank hx
  rw [hwrite]
  exact skipBlanks_cons hblank _

/-- An integer is no other token. -/
lemma readValue_intText (m : Int) (hn : 0 < n) (hr : Closes r) :
    readValue floatText n (intText m ++ r) = some (.int m, r) := by
  obtain ⟨n, rfl⟩ := exists_eq_succ hn
  have hnumber := readNumber_intText floatText m hr
  cases m with
  | ofNat m =>
      obtain ⟨c, cs, hdigits, hdigit⟩ := exists_toDigits_eq_cons m
      have hne : ∀ d : Char, d.isDigit = false → c ≠ d := fun d => Numerals.ne_of_isDigit hdigit
      rw [intText, hdigits, List.cons_append] at hnumber ⊢
      unfold readValue
      split
      · exact absurd rfl (hne '"' rfl)
      · exact absurd rfl (hne '[' rfl)
      · exact absurd rfl (hne '\x7b' rfl)
      · exact absurd rfl (hne 'n' rfl)
      · exact absurd rfl (hne 't' rfl)
      · exact absurd rfl (hne 'f' rfl)
      · exact absurd rfl (hne 'N' rfl)
      · exact absurd rfl (hne 'I' rfl)
      · have hliteral : readLiteral "-Infinity".toList (.float "-Infinity")
            (c :: (cs ++ r)) = none := by
          have hminus : ('-' == c) = false := beq_eq_false_iff_ne.2 (hne '-' rfl).symm
          simp [readLiteral, List.isPrefixOf, hminus]
        rw [hliteral, Option.none_or, hnumber]
  | negSucc m =>
      obtain ⟨c, cs, hdigits, hdigit⟩ := exists_toDigits_eq_cons (m + 1)
      have hliteral : readLiteral "-Infinity".toList (.float "-Infinity")
          ('-' :: (c :: cs ++ r)) = none := by
        have hletter : ('I' == c) = false :=
          beq_eq_false_iff_ne.2 (Numerals.ne_of_isDigit hdigit rfl).symm
        simp [readLiteral, List.isPrefixOf, hletter]
      rw [intText, hdigits, List.cons_append] at hnumber ⊢
      change (readLiteral "-Infinity".toList (.float "-Infinity")
        ('-' :: (c :: cs ++ r))).or (readNumber floatText ('-' :: (c :: cs ++ r))) = _
      rw [hliteral, Option.none_or, hnumber]

/-- Every item is read back. -/
lemma readItems_joined {items : List Json} (hitems : ∀ x ∈ items, x.IntegerNumbers)
    (hread : ∀ x ∈ items, ∀ n r, (style.write x).length ≤ n → Closes r →
      readValue floatText n (style.write x ++ r) = some (style.normal x, r)) (hne : items ≠ [])
    (hn : (joined (items.map style.write)).length < n) (r : List Char) :
    readItems floatText n (joined (items.map style.write) ++ ']' :: r) =
      some (items.map style.normal, r) := by
  induction items generalizing n with
  | nil => exact absurd rfl hne
  | cons x items ih =>
      obtain ⟨n, rfl⟩ := exists_eq_succ hn
      have hx := hread x List.mem_cons_self
      rw [List.map_cons, joined, List.length_append] at hn
      rw [List.map_cons, joined, List.append_assoc]
      cases items with
      | nil =>
          have hfirst := hx n (']' :: r) (by omega) (closes_cons (.inr (.inl rfl)) r)
          rw [List.map_nil, List.flatMap_nil, List.nil_append, readItems, hfirst]
          rfl
      | cons y items =>
          have hjoined : (List.map style.write (y :: items)).flatMap (',' :: ·) =
              ',' :: joined ((y :: items).map style.write) := rfl
          rw [hjoined, List.length_cons] at hn
          rw [hjoined, List.cons_append]
          have hfirst := hx n (',' :: (joined ((y :: items).map style.write) ++ ']' :: r))
            (by omega) (closes_cons (.inl rfl) _)
          have hy : skipBlanks (joined ((y :: items).map style.write) ++ ']' :: r) =
              joined ((y :: items).map style.write) ++ ']' :: r := by
            rw [List.map_cons, joined, List.append_assoc]
            exact skipBlanks_write (hitems y (List.mem_cons_of_mem _ List.mem_cons_self)) _
          have hrest := ih (fun z hz => hitems z (List.mem_cons_of_mem _ hz))
            (fun z hz => hread z (List.mem_cons_of_mem _ hz)) (by simp) (n := n) (by omega)
          rw [readItems, hfirst]
          simp only [Option.bind_eq_bind, Option.bind_some, skipBlanks_cons (c := ',') rfl, hy,
            hrest, Option.pure_def]
          rfl

/-- Every field is read back. -/
lemma readFields_joined (h : style.Reads) {fields : List (String × Json)}
    (hfields : ∀ entry ∈ fields, entry.2.IntegerNumbers)
    (hread : ∀ entry ∈ fields, ∀ n r, (style.write entry.2).length ≤ n → Closes r →
      readValue floatText n (style.write entry.2 ++ r) = some (style.normal entry.2, r))
    (hne : fields ≠ []) (hn : (joined (fields.map style.field)).length < n) (r : List Char) :
    readFields floatText n (joined (fields.map style.field) ++ '\x7d' :: r) =
      some (fields.map fun entry => (entry.1, style.normal entry.2), r) := by
  induction fields generalizing n with
  | nil => exact absurd rfl hne
  | cons entry fields ih =>
      obtain ⟨n, rfl⟩ := exists_eq_succ hn
      obtain ⟨key, x⟩ := entry
      have hx : ∀ n r, (style.write x).length ≤ n → Closes r →
          readValue floatText n (style.write x ++ r) = some (style.normal x, r) :=
        hread (key, x) List.mem_cons_self
      have hlength : (style.write x).length < (style.field (key, x)).length := by
        have hfield : style.field (key, x) = style.stringText key ++ ':' :: style.write x := rfl
        rw [hfield, List.length_append, List.length_cons]
        omega
      -- the key and the colon
      have hkey : ∀ rest, readFields floatText (n + 1) (style.field (key, x) ++ rest) =
          (readValue floatText n (style.write x ++ rest)).bind fun read =>
            match skipBlanks read.2 with
            | ',' :: r => (readFields floatText n (skipBlanks r)).bind fun later =>
                some ((key, read.1) :: later.1, later.2)
            | '\x7d' :: r => some ([(key, read.1)], r)
            | _ => none := by
        intro rest
        have hstring := readString_stringText h key (':' :: (style.write x ++ rest))
        have htext : style.field (key, x) ++ rest = '"' :: (key.toList.flatMap style.quote ++
            '"' :: ':' :: (style.write x ++ rest)) := by
          simp [Style.field, Style.stringText]
        rw [htext, readFields, hstring]
        simp only [Option.bind_eq_bind, Option.bind_some, skipBlanks_cons (c := ':') rfl,
          skipBlanks_write (hfields (key, x) List.mem_cons_self) rest, String.ofList_toList,
          Option.pure_def]
      rw [List.map_cons, joined, List.length_append] at hn
      rw [List.map_cons, joined, List.append_assoc, hkey]
      cases fields with
      | nil =>
          have hfirst := hx n ('\x7d' :: r) (by omega) (closes_cons (.inr (.inr rfl)) r)
          rw [List.map_nil, List.flatMap_nil, List.nil_append, hfirst]
          rfl
      | cons other fields =>
          have hjoined : (List.map style.field (other :: fields)).flatMap (',' :: ·) =
              ',' :: joined ((other :: fields).map style.field) := rfl
          rw [hjoined, List.length_cons] at hn
          rw [hjoined, List.cons_append]
          have hfirst := hx n (',' :: (joined ((other :: fields).map style.field) ++ '\x7d' :: r))
            (by omega) (closes_cons (.inl rfl) _)
          have hother : skipBlanks (joined ((other :: fields).map style.field) ++ '\x7d' :: r) =
              joined ((other :: fields).map style.field) ++ '\x7d' :: r := by
            rw [List.map_cons, joined, List.append_assoc]
            exact skipBlanks_cons rfl _
          have hrest := ih (fun z hz => hfields z (List.mem_cons_of_mem _ hz))
            (fun z hz => hread z (List.mem_cons_of_mem _ hz)) (by simp) (n := n) (by omega)
          rw [hfirst]
          simp only [Option.bind_some, skipBlanks_cons (c := ',') rfl, hother, hrest]
          rfl

/-- A written value is read back, whatever follows it. -/
theorem readValue_write (h : style.Reads) (hx : x.IntegerNumbers) (hn : (style.write x).length ≤ n)
    (hr : Closes r) : readValue floatText n (style.write x ++ r) = some (style.normal x, r) := by
  induction x using Json.induction generalizing n r with
  | null =>
      obtain ⟨c, cs, hwrite, -⟩ := write_head_not_blank hx
      rw [hwrite, List.length_cons] at hn
      obtain ⟨n, rfl⟩ := exists_eq_succ hn
      rfl
  | bool b =>
      obtain ⟨c, cs, hwrite, -⟩ := write_head_not_blank hx
      rw [hwrite, List.length_cons] at hn
      obtain ⟨n, rfl⟩ := exists_eq_succ hn
      cases b <;> rfl
  | int m =>
      obtain ⟨c, cs, hwrite, -⟩ := write_head_not_blank hx
      rw [hwrite, List.length_cons] at hn
      exact readValue_intText floatText m (by omega) hr
  | float text => cases hx
  | str text =>
      rw [Style.write, Style.stringText, List.length_cons] at hn
      obtain ⟨n, rfl⟩ := exists_eq_succ hn
      have hstring := readString_stringText h text r
      rw [Style.write, Style.stringText, List.cons_append, List.append_assoc,
        List.singleton_append, readValue, hstring]
      simp only [Option.bind_eq_bind, Option.bind_some, String.ofList_toList, Option.pure_def]
      rfl
  | arr items ih =>
      rw [Style.write_arr, List.length_cons, List.length_append, List.length_singleton] at hn
      obtain ⟨n, rfl⟩ := exists_eq_succ hn
      rw [Style.write_arr, List.cons_append, List.append_assoc, List.singleton_append,
        Style.normal_arr]
      cases items with
      | nil => rfl
      | cons x items =>
          have hitems := (Json.all_arr.1 hx).2
          have hread := readItems_joined floatText hitems
            (fun y hy n r hn hr => ih y hy (hitems y hy) hn hr) (by simp) (n := n) (by omega) r
          obtain ⟨c, cs, hwrite, hblank, hne⟩ :=
            write_head_not_blank (hitems x List.mem_cons_self)
          have htext : joined ((x :: items).map style.write) ++ ']' :: r =
              c :: (cs ++ ((items.map style.write).flatMap (',' :: ·) ++ ']' :: r)) := by
            rw [List.map_cons, joined, hwrite, List.append_assoc, List.cons_append]
          rw [htext] at hread ⊢
          rw [readValue, skipBlanks_cons hblank]
          split
          next heq => exact absurd (List.cons.inj heq).1 hne
          · rw [hread]
            rfl
  | obj fields ih =>
      rw [Style.write_obj, List.length_cons, List.length_append, List.length_singleton] at hn
      obtain ⟨n, rfl⟩ := exists_eq_succ hn
      rw [Style.write_obj, List.cons_append, List.append_assoc, List.singleton_append,
        Style.normal_obj]
      have hperm := style.sortFields_perm fields
      cases hsorted : style.sortFields fields with
      | nil => rfl
      | cons entry entries =>
          have hmem : ∀ other ∈ entry :: entries, other ∈ fields := by
            intro other hother
            rw [← hsorted] at hother
            exact hperm.mem_iff.1 hother
          have hfields := (Json.all_obj.1 hx).2
          rw [hsorted] at hn
          have hread := readFields_joined floatText h
            (fun other hother => hfields other (hmem other hother))
            (fun other hother n r hn hr => ih other (hmem other hother)
              (hfields other (hmem other hother)) hn hr) (by simp) (n := n) (by omega) r
          have htext : joined ((entry :: entries).map style.field) ++ '\x7d' :: r =
              '"' :: (entry.1.toList.flatMap style.quote ++ ('"' :: ':' :: (style.write entry.2 ++
                ((entries.map style.field).flatMap (',' :: ·) ++ '\x7d' :: r)))) := by
            simp [joined, Style.field, Style.stringText]
          rw [htext] at hread ⊢
          rw [readValue, skipBlanks_cons rfl]
          change (readFields floatText n _).bind _ = _
          rw [hread]
          rfl

/-- The text of a value is read as the value. -/
theorem read_write (h : style.Reads) (hx : x.IntegerNumbers) :
    read floatText (style.write x) = some (style.normal x) := by
  have hread := readValue_write floatText h hx (Nat.le_refl _) closes_nil
  have hskip : skipBlanks (style.write x ++ []) = style.write x ++ [] := skipBlanks_write hx []
  rw [List.append_nil] at hread hskip
  rw [read, hskip, hread]
  rfl

end

/-! ## The style in ASCII -/

lemma hexValue?_digitChar : ∀ d < 16, hexValue? (Nat.digitChar d) = some d := by decide

lemma readUnit_fourDigits (h : n < 0x10000) (r : List Char) :
    readUnit (fourDigits n ++ r) = some (n, r) := by
  simp only [fourDigits, List.cons_append, List.nil_append, readUnit]
  rw [hexValue?_digitChar _ (Nat.mod_lt _ (by decide)),
    hexValue?_digitChar _ (Nat.mod_lt _ (by decide)),
    hexValue?_digitChar _ (Nat.mod_lt _ (by decide)),
    hexValue?_digitChar _ (Nat.mod_lt _ (by decide))]
  have hsum : 4096 * (n / 4096 % 16) + 256 * (n / 256 % 16) + 16 * (n / 16 % 16) + n % 16 = n := by
    omega
  simp only [Option.bind_eq_bind, Option.bind_some, hsum, Option.pure_def]

lemma readPoint_one (hn : n < 0x10000) (hplain : n < 0xd800 ∨ 0xdfff < n) (r : List Char) :
    readPoint (fourDigits n ++ r) = some (Char.ofNat n, r) := by
  rw [readPoint, readUnit_fourDigits hn]
  simp only [Option.bind_eq_bind, Option.bind_some, if_pos hplain, Option.pure_def]

/-- A first and a second surrogate. -/
lemma readPoint_two (hn : 0xd800 ≤ n) (hn' : n < 0xdc00) (hm : 0xdc00 ≤ m) (hm' : m ≤ 0xdfff)
    (r : List Char) :
    readPoint (fourDigits n ++ (unicodeUnit m ++ r)) =
      some (Char.ofNat (0x10000 + 0x400 * (n - 0xd800) + (m - 0xdc00)), r) := by
  have hplain : ¬ (n < 0xd800 ∨ 0xdfff < n) := by omega
  rw [readPoint, readUnit_fourDigits (by omega)]
  simp only [Option.bind_eq_bind, Option.bind_some, if_neg hplain, if_pos hn', unicodeUnit,
    List.cons_append, readUnit_fourDigits (n := m) (by omega), if_pos (And.intro hm hm'),
    Option.pure_def]

lemma readCharacter_unicodeUnit (n : Nat) (r : List Char) :
    readCharacter (unicodeUnit n ++ r) = readPoint (fourDigits n ++ r) := by
  rw [unicodeUnit, List.cons_append, List.cons_append, readCharacter.eq_def]
  simp

lemma readCharacter_unicodeUnits (c : Char) (r : List Char) :
    readCharacter (unicodeUnits c.toNat ++ r) = some (c, r) := by
  unfold unicodeUnits
  by_cases hsmall : c.toNat < 0x10000
  · rw [if_pos hsmall, readCharacter_unicodeUnit, readPoint_one hsmall (not_surrogate c),
      Char.ofNat_toNat]
  · have hlt := toNat_lt c
    rw [if_neg hsmall, List.append_assoc, readCharacter_unicodeUnit,
      readPoint_two (by omega) (by omega) (by omega) (by omega)]
    have hsum : 0x10000 + 0x400 * (0xd800 + (c.toNat - 0x10000) / 0x400 - 0xd800) +
        (0xdc00 + (c.toNat - 0x10000) % 0x400 - 0xdc00) = c.toNat := by
      omega
    rw [hsum, Char.ofNat_toNat]

theorem reads_asciiStyle : asciiStyle.Reads where
  readCharacter := by
    intro c r
    change readCharacter (quoteAscii c ++ r) = some (c, r)
    unfold quoteAscii
    cases hlookup : shortEscapes.lookup c with
    | some letter =>
        have hread : ∀ entry ∈ shortEscapes,
            entry.2 ≠ 'u' ∧ letters.lookup entry.2 = some entry.1 := by
          decide
        obtain ⟨before, after, heq, -⟩ := List.lookup_eq_some_iff.1 hlookup
        have hmem : (c, letter) ∈ shortEscapes := by
          rw [heq]
          exact List.mem_append_right _ List.mem_cons_self
        obtain ⟨hne, hletter⟩ := hread _ hmem
        rw [List.cons_append, List.singleton_append, readCharacter.eq_def]
        simp [hne, hletter]
    | none =>
        dsimp only
        split
        next hprintable =>
          have hne : c ≠ '\\' := by
            rintro rfl
            cases hlookup
          have hcontrol : ¬ c.toNat < 0x20 := Nat.not_lt.2 hprintable.1
          rw [List.singleton_append, readCharacter.eq_def]
          simp [hne, hcontrol]
        · exact readCharacter_unicodeUnits c r
  quote_ne := quoteAscii_head

end JsonText
