import Lexicon.Json
import Lexicon.Proofs.Text.Escapes
import Lexicon.Proofs.Text.Numeral

namespace Lexicon.Json

open Text

def quoting : Quoting where
  quote := '"'
  bare c := 0x20 ≤ c.toNat
  letter
    | '"' => some '"'
    | '\\' => some '\\'
    | '/' => some '/'
    | 'b' => some '\x08'
    | 'f' => some '\x0c'
    | 'n' => some '\n'
    | 'r' => some '\r'
    | 't' => some '\t'
    | _ => none
  width c := if c = 'u' then some 4 else none

/-- The characters that the codes stand for. Two surrogates stand for one character, and one alone
for none. -/
def ofCodes : List Nat → Option (List Char)
  | [] => some []
  | [code] => if 0xD800 ≤ code && code < 0xE000 then none else some [.ofNat code]
  | code :: low :: codes =>
    if 0xD800 ≤ code && code < 0xE000 then
      if code < 0xDC00 && 0xDC00 ≤ low && low < 0xE000 then
        (ofCodes codes).map (.ofNat (0x10000 + (code - 0xD800) * 0x400 + (low - 0xDC00)) :: ·)
      else none
    else (ofCodes (low :: codes)).map (.ofNat code :: ·)

def readText (chars : List Char) : Option (String × List Char) :=
  (quoting.read .bare chars).bind fun (codes, rest) =>
    (ofCodes codes).map fun value => (String.ofList value, rest)

def isSpace (c : Char) : Bool :=
  c = ' ' || c = '\n' || c = '\r' || c = '\t'

def skip (chars : List Char) : List Char :=
  chars.dropWhile isSpace

section

variable {α : Type} (readItem : List Char → Option (α × List Char)) (closing : Char)

def readItems : Nat → List Char → Option (List α × List Char)
  | 0, _ => none
  | limit + 1, chars =>
    (readItem chars).bind fun (item, rest) =>
      match skip rest with
      | [] => none
      | c :: rest =>
        if c = closing then some ([item], rest)
        else if c = ',' then
          (readItems limit (skip rest)).map fun (items, rest) => (item :: items, rest)
        else none

def readEnclosed (chars : List Char) : Option (List α × List Char) :=
  match skip chars with
  | [] => none
  | c :: rest =>
    if c = closing then some ([], rest)
    else readItems readItem closing chars.length (c :: rest)

end

def readField (readValue : List Char → Option (Json × List Char)) :
    List Char → Option ((String × Json) × List Char)
  | '"' :: chars =>
    (readText chars).bind fun (name, rest) =>
      match skip rest with
      | ':' :: rest => (readValue (skip rest)).map fun (value, rest) => ((name, value), rest)
      | _ => none
  | _ => none

def readValue : Nat → List Char → Option (Json × List Char)
  | 0, _ => none
  | _ + 1, '"' :: chars => (readText chars).map fun (value, rest) => (.text value, rest)
  | depth + 1, '[' :: chars =>
    (readEnclosed (readValue depth) ']' chars).map fun (items, rest) => (.list items, rest)
  | depth + 1, '{' :: chars =>
    (readEnclosed (readField (readValue depth)) '}' chars).map fun (fields, rest) =>
      (.object fields, rest)
  | _ + 1, chars => (readInt chars).map fun (n, rest) => (.number n, rest)

/-- The data that a text is in JSON. There are no data for truth values, for null, and for numbers with
a fraction or an exponent. -/
def read (source : String) : Option Json :=
  (readValue source.toList.length (skip source.toList)).bind fun (value, rest) =>
    if (skip rest).isEmpty then some value else none

theorem not_surrogate (c : Char) : ¬ (0xD800 ≤ c.toNat && c.toNat < 0xE000) = true := by
  have hvalid : c.toNat < 0xD800 ∨ 0xDFFF < c.toNat ∧ c.toNat < 0x110000 := c.valid
  simp only [Bool.and_eq_true, decide_eq_true_eq]
  omega

theorem ofCodes_toNat (chars : List Char) : ofCodes (chars.map Char.toNat) = some chars := by
  induction chars with
  | nil => rfl
  | cons c chars ih =>
    cases chars with
    | nil => rw [List.map_singleton, ofCodes, if_neg (not_surrogate c), Char.ofNat_toNat]
    | cons d chars =>
      rw [List.map_cons] at ih
      rw [List.map_cons, List.map_cons, ofCodes, if_neg (not_surrogate c), ih, Char.ofNat_toNat]
      rfl

theorem read_escape (c : Char) (rest : List Char) :
    quoting.read .bare (escape c ++ rest) = Quoting.putBefore c.toNat (quoting.read .bare rest) := by
  have hquote : '\\' ≠ quoting.quote := by decide
  fun_cases escape c with
  | case1 h =>
    have hc : c = '"' ∨ c = '\\' := by simpa using h
    obtain rfl | rfl := hc <;> exact Quoting.read_letter hquote rfl
  | case2 _ h | case3 _ _ h | case4 _ _ _ h =>
    rw [h]
    exact Quoting.read_letter hquote rfl
  | case5 _ _ _ _ h =>
    have hletter : quoting.letter 'f' = some '\x0c' := rfl
    rw [h]
    exact Quoting.read_letter hquote hletter
  | case6 _ _ _ _ _ h =>
    have hletter : quoting.letter 'b' = some '\x08' := rfl
    rw [h]
    exact Quoting.read_letter hquote hletter
  | case7 _ _ _ _ _ _ h =>
    have hwidth : quoting.width 'u' = some (3 + 1) := rfl
    exact Quoting.read_code hquote rfl hwidth (by omega)
  | case8 h _ _ _ _ _ hcontrol =>
    have hc : ¬ (c = '"' ∨ c = '\\') := by simpa using h
    obtain ⟨hne, hslash⟩ := not_or.1 hc
    exact Quoting.read_bare hne hslash (by simpa [quoting] using hcontrol)

theorem toList_quote (value : String) :
    (quote value).toList = '"' :: (value.toList.flatMap escape ++ ['"']) := by
  rw [quote, String.toList_ofList]

theorem readText_quote (value : String) (rest : List Char) :
    readText (value.toList.flatMap escape ++ '"' :: rest) = some (value, rest) := by
  have hread := Quoting.read_flatMap read_escape value.toList rest
  have hread' : quoting.read .bare (value.toList.flatMap escape ++ '"' :: rest) =
    some (value.toList.map Char.toNat, rest) := hread
  simp only [readText, hread', Option.bind_some, ofCodes_toNat, Option.map_some, String.ofList_toList]

end Lexicon.Json
