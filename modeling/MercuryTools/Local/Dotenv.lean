import MercuryTools.Framework.Dictionaries
import Mathlib.Tactic.Common

/-!
# Values in a dotenv file

How `local/credentials.py` quotes a value, and how `python-dotenv`, which reads the file, takes the
quotation apart: by the regular expression `"((?:\\"|[^"])*)"`, and then by decoding the escapes.
A backslash before the closing quotation mark escapes the mark for the regular expression, whatever
stands before the backslash: this is where the two disagree.

The reader itself is third-party code.  What is assumed of it is `DotenvReader.values_line`.
-/

namespace MercuryTools.Local

/-! ## Writing -/

/-- `value.replace("\\", "\\\\")` -/
def doubleBackslash (c : Char) : List Char :=
  if c = '\\' then ['\\', '\\'] else [c]

/-- `.replace('"', '\\"')` -/
def escapeMark (c : Char) : List Char :=
  if c = '"' then ['\\', '"'] else [c]

def escapeDotenv (value : List Char) : List Char :=
  (value.flatMap doubleBackslash).flatMap escapeMark

/-! ## Reading -/

/-- The match of `((?:\\"|[^"])*)"`: what the group holds, and what follows the closing mark.  An
escaped mark is tried first; where nothing closes the rest, its backslash stands for itself. -/
def doubleQuoted : List Char → Option (List Char × List Char)
  | [] => none
  | '"' :: r => some ([], r)
  | '\\' :: '"' :: r =>
      match doubleQuoted r with
      | some (body, rest) => some ('\\' :: '"' :: body, rest)
      | none => some (['\\'], r)
  | c :: r => (doubleQuoted r).map fun (body, rest) => (c :: body, rest)

/-- The letters of the escapes that are decoded. -/
def escapeLetters : List (Char × Char) :=
  [('\\', '\\'), ('\'', '\''), ('"', '"'), ('a', '\x07'), ('b', '\x08'), ('f', '\x0c'),
    ('n', '\n'), ('r', '\r'), ('t', '\t'), ('v', '\x0b')]

def decodeEscapes : List Char → List Char
  | [] => []
  | [c] => [c]
  | c :: d :: r =>
      if c = '\\' then
        match escapeLetters.lookup d with
        | some decoded => decoded :: decodeEscapes r
        | none => c :: decodeEscapes (d :: r)
      else c :: decodeEscapes (d :: r)

def isNameStart (c : Char) : Bool :=
  ('A' ≤ c && c ≤ 'Z') || ('a' ≤ c && c ≤ 'z') || c == '_'

def isNameCharacter (c : Char) : Bool :=
  isNameStart c || ('0' ≤ c && c ≤ '9')

/-- `[A-Za-z_][A-Za-z0-9_]*` -/
def isAssignmentName (name : List Char) : Bool :=
  name.head?.any isNameStart && name.all isNameCharacter

/-- `dotenv_values(stream, interpolate=False)`.  An empty file has no values; a line with a name
and a double-quoted value sets the name, and later lines may set it again. -/
structure DotenvReader where
  values : List Char → Dict String (Option String)
  values_nil : values [] = []
  values_line : ∀ name text body rest, isAssignmentName name = true →
    doubleQuoted text = some (body, '\n' :: rest) →
      values (name ++ '=' :: '"' :: text) =
        Dict.setAll [(String.ofList name, some (String.ofList (decodeEscapes body)))] (values rest)

/-! ## A value is read back -/

lemma escapeDotenv_append (value other : List Char) :
    escapeDotenv (value ++ other) = escapeDotenv value ++ escapeDotenv other := by
  rw [escapeDotenv, List.flatMap_append, List.flatMap_append]
  rfl

lemma escapeDotenv_cons (c : Char) (value : List Char) :
    escapeDotenv (c :: value) = escapeDotenv [c] ++ escapeDotenv value :=
  escapeDotenv_append [c] value

lemma escapeDotenv_singleton {c : Char} (hslash : c ≠ '\\') (hmark : c ≠ '"') :
    escapeDotenv [c] = [c] := by
  simp [escapeDotenv, doubleBackslash, escapeMark, hslash, hmark]

/-- What is escaped does not begin with a mark. -/
lemma head_escapeDotenv (value : List Char) : (escapeDotenv value).head? ≠ some '"' := by
  cases value with
  | nil => exact nofun
  | cons c value =>
      rw [escapeDotenv_cons]
      by_cases hslash : c = '\\'
      · subst hslash
        exact nofun
      by_cases hmark : c = '"'
      · subst hmark
        exact nofun
      · rw [escapeDotenv_singleton hslash hmark, List.singleton_append, List.head?_cons]
        exact fun h => hmark (Option.some.inj h)

/-- A character that neither closes the quotation nor escapes a mark. -/
lemma doubleQuoted_cons {c : Char} {r : List Char} (hmark : c ≠ '"')
    (hescape : c = '\\' → r.head? ≠ some '"') :
    doubleQuoted (c :: r) = (doubleQuoted r).map fun (body, rest) => (c :: body, rest) := by
  rw [doubleQuoted.eq_def]
  split
  next heq => cases heq
  next heq => exact absurd (List.cons.inj heq).1 hmark
  next r' heq =>
    obtain ⟨hslash, rfl⟩ := List.cons.inj heq
    exact absurd rfl (hescape hslash)
  next heq =>
    obtain ⟨rfl, rfl⟩ := List.cons.inj heq
    rfl

/-- A value that does not end with a backslash is matched up to its own closing mark. -/
theorem doubleQuoted_escapeDotenv {value : List Char} (h : value.getLast? ≠ some '\\')
    (rest : List Char) :
    doubleQuoted (escapeDotenv value ++ '"' :: rest) = some (escapeDotenv value, rest) := by
  induction value with
  | nil => rfl
  | cons c value ih =>
      have hvalue : value.getLast? ≠ some '\\' := by
        cases value with
        | nil => exact nofun
        | cons d value => exact h
      have hrest := ih hvalue
      rw [escapeDotenv_cons, List.append_assoc]
      by_cases hslash : c = '\\'
      · subst hslash
        have hhead : (escapeDotenv value ++ '"' :: rest).head? ≠ some '"' := by
          cases value with
          | nil => exact absurd rfl h
          | cons d value =>
              have hd := head_escapeDotenv (d :: value)
              cases hescaped : escapeDotenv (d :: value) with
              | nil =>
                  -- escaping drops no character
                  rw [escapeDotenv_cons] at hescaped
                  by_cases hd' : d = '\\'
                  · subst hd'
                    cases hescaped
                  by_cases hmark : d = '"'
                  · subst hmark
                    cases hescaped
                  · rw [escapeDotenv_singleton hd' hmark] at hescaped
                    cases hescaped
              | cons e escaped =>
                  rw [hescaped] at hd
                  exact hd
        change doubleQuoted ('\\' :: '\\' :: (escapeDotenv value ++ '"' :: rest)) = _
        have hsecond : ('\\' :: (escapeDotenv value ++ '"' :: rest)).head? ≠ some '"' :=
          fun heq => absurd (Option.some.inj heq) (by decide)
        rw [doubleQuoted_cons (by decide) (fun _ => hsecond),
          doubleQuoted_cons (by decide) (fun _ => hhead), hrest]
        rfl
      by_cases hmark : c = '"'
      · subst hmark
        change doubleQuoted ('\\' :: '"' :: (escapeDotenv value ++ '"' :: rest)) = _
        rw [doubleQuoted, hrest]
        rfl
      · rw [escapeDotenv_singleton hslash hmark, List.singleton_append,
          doubleQuoted_cons hmark (fun heq => absurd heq hslash), hrest]
        rfl

theorem decodeEscapes_escapeDotenv (value : List Char) :
    decodeEscapes (escapeDotenv value) = value := by
  induction value with
  | nil => rfl
  | cons c value ih =>
      rw [escapeDotenv_cons]
      by_cases hslash : c = '\\'
      · subst hslash
        change '\\' :: decodeEscapes (escapeDotenv value) = _
        rw [ih]
      by_cases hmark : c = '"'
      · subst hmark
        change '"' :: decodeEscapes (escapeDotenv value) = _
        rw [ih]
      · rw [escapeDotenv_singleton hslash hmark, List.singleton_append]
        cases hescaped : escapeDotenv value with
        | nil =>
            rw [hescaped] at ih
            rw [decodeEscapes, ← ih]
            rfl
        | cons d escaped => rw [decodeEscapes, if_neg hslash, ← hescaped, ih]

/-- A line with an escaped value. -/
lemma DotenvReader.values_assignment (reader : DotenvReader) {name value : List Char}
    (hname : isAssignmentName name = true) (hvalue : value.getLast? ≠ some '\\')
    (rest : List Char) :
    reader.values (name ++ '=' :: '"' :: (escapeDotenv value ++ '"' :: '\n' :: rest)) =
      Dict.setAll [(String.ofList name, some (String.ofList value))] (reader.values rest) := by
  rw [reader.values_line name _ _ rest hname (doubleQuoted_escapeDotenv hvalue ('\n' :: rest)),
    decodeEscapes_escapeDotenv]

end MercuryTools.Local
