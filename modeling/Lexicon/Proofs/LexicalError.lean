import Mathlib.Data.List.Basic
import Lexicon.Proofs.Text.Escapes
import Lexicon.Proofs.Text.Numeral
import Lexicon.Proofs.Text.Quoted

namespace Lexicon

namespace Text

def quotingIn (quote : Char) : Quoting where
  quote
  bare := isPrintable
  letter
    | '\\' => some '\\'
    | '\'' => some '\''
    | '"' => some '"'
    | 'n' => some '\n'
    | 'r' => some '\r'
    | 't' => some '\t'
    | _ => none
  width
    | 'x' => some 2
    | 'u' => some 4
    | 'U' => some 8
    | _ => none

def readQuoted : List Char → Option (String × List Char)
  | [] => none
  | quote :: chars =>
    if quote = '\'' || quote = '"' then
      ((quotingIn quote).read .bare chars).map fun (codes, rest) =>
        (String.ofList (codes.map Char.ofNat), rest)
    else none

theorem quoteFor_eq (chars : List Char) : quoteFor chars = '\'' ∨ quoteFor chars = '"' := by
  unfold quoteFor
  split
  · exact .inr rfl
  · exact .inl rfl

variable {quote : Char}

theorem read_escape_in (hq : quote = '\'' ∨ quote = '"') (c : Char) (rest : List Char) :
    (quotingIn quote).read .bare (escape quote c ++ rest) =
      Quoting.putBefore c.toNat ((quotingIn quote).read .bare rest) := by
  have hquote : '\\' ≠ (quotingIn quote).quote := by
    obtain rfl | rfl := hq <;> decide
  fun_cases escape quote c with
  | case1 h =>
    have hc : c = quote ∨ c = '\\' := by simpa using h
    have hletter : (quotingIn quote).letter c = some c := by
      obtain rfl | rfl := hc
      · obtain rfl | rfl := hq <;> rfl
      · rfl
    exact Quoting.read_letter hquote hletter
  | case2 _ h | case3 _ _ h | case4 _ _ _ h =>
    rw [h]
    exact Quoting.read_letter hquote rfl
  | case5 h _ _ _ hbare =>
    have hc : ¬ (c = quote ∨ c = '\\') := by simpa using h
    obtain ⟨hne, hslash⟩ := not_or.1 hc
    exact Quoting.read_bare hne hslash hbare
  | case6 _ _ _ _ _ h =>
    have hwidth : (quotingIn quote).width 'x' = some (1 + 1) := rfl
    exact Quoting.read_code hquote rfl hwidth h
  | case7 _ _ _ _ _ _ h =>
    have hwidth : (quotingIn quote).width 'u' = some (3 + 1) := rfl
    exact Quoting.read_code hquote rfl hwidth h
  | case8 =>
    have hwidth : (quotingIn quote).width 'U' = some (7 + 1) := rfl
    have hvalid : c.toNat < 0xD800 ∨ 0xDFFF < c.toNat ∧ c.toNat < 0x110000 := c.valid
    exact Quoting.read_code hquote rfl hwidth (by omega)

theorem toList_quoted (text : String) :
    (quoted text).toList = quoteFor text.toList ::
      (text.toList.flatMap (escape (quoteFor text.toList)) ++ [quoteFor text.toList]) := by
  rw [quoted, String.toList_ofList]

theorem readQuoted_quoted (text : String) (rest : List Char) :
    readQuoted ((quoted text).toList ++ rest) = some (text, rest) := by
  have hq := quoteFor_eq text.toList
  have hread := Quoting.read_flatMap (read_escape_in hq) text.toList rest
  have hread' : (quotingIn (quoteFor text.toList)).read .bare
      (text.toList.flatMap (escape (quoteFor text.toList)) ++ quoteFor text.toList :: rest) =
    some (text.toList.map Char.toNat, rest) := hread
  have hcodes : (text.toList.map Char.toNat).map Char.ofNat = text.toList := by
    simp [List.map_map, Function.comp_def, Char.ofNat_toNat]
  have hif : (quoteFor text.toList = '\'' || quoteFor text.toList = '"') = true := by simpa using hq
  rw [toList_quoted, List.cons_append, List.append_assoc, List.singleton_append, readQuoted, if_pos hif,
    hread', Option.map_some]
  dsimp only
  rw [hcodes, String.ofList_toList]

end Text

namespace LexicalError

open Text

def Cause.Quotes : Cause → Prop
  | .unexpectedSymbol (some _) | .undefinedSeparator _ => True
  | .general _ | .unexpectedSymbol none => False

def behind (words : String) (chars : List Char) : Option (List Char) :=
  words.toList.isPrefixOf? chars

theorem behind_append (words : String) (rest : List Char) :
    behind words (words.toList ++ rest) = some rest :=
  List.isPrefixOf?_eq_some_iff_append_eq.2 rfl

def readCause (chars : List Char) : Option (Cause × List Char) :=
  match behind "Unexpected symbol " chars with
  | some rest => (readQuoted rest).map fun (symbol, rest) => (.unexpectedSymbol (some symbol), rest)
  | none =>
    (behind "Undefined separator " chars).bind fun rest =>
      (readQuoted rest).map fun (value, rest) => (.undefinedSeparator value, rest)

def readPosition (chars : List Char) : Option (Position × List Char) :=
  (behind " at line " chars).bind fun rest =>
    (readInt rest).bind fun (line, rest) =>
      (behind ", column " rest).bind fun rest =>
        (readInt rest).map fun (column, rest) => (⟨line, column⟩, rest)

def readMessage (chars : List Char) : Option LexicalError :=
  (readCause chars).bind fun (cause, rest) =>
    (readPosition rest).bind fun (position, rest) =>
      if rest.isEmpty then some ⟨cause, position⟩ else none

theorem readCause_message {cause : Cause} (h : cause.Quotes) (rest : List Char) :
    readCause (cause.message.toList ++ rest) = some (cause, rest) := by
  cases cause with
  | general text => exact h.elim
  | unexpectedSymbol symbol =>
    cases symbol with
    | none => exact h.elim
    | some symbol =>
      have hm : Cause.message (.unexpectedSymbol (some symbol)) =
        "Unexpected symbol " ++ quoted symbol := rfl
      rw [hm, String.toList_append, List.append_assoc, readCause, behind_append]
      dsimp only
      rw [readQuoted_quoted, Option.map_some]
  | undefinedSeparator value =>
    have hm : Cause.message (.undefinedSeparator value) =
      "Undefined separator " ++ quoted value := rfl
    have hother : behind "Unexpected symbol "
        ("Undefined separator ".toList ++ ((quoted value).toList ++ rest)) = none := rfl
    rw [hm, String.toList_append, List.append_assoc, readCause, hother, behind_append]
    dsimp only
    rw [Option.bind_some, readQuoted_quoted, Option.map_some]

theorem toList_message (error : LexicalError) :
    error.message.toList = error.cause.message.toList ++ (" at line ".toList ++
      ((toString error.position.line).toList ++ (", column ".toList ++
        ((toString error.position.column).toList ++ [])))) := by
  have hm : error.message = error.cause.message ++ " at line " ++ toString error.position.line ++
    ", column " ++ toString error.position.column := rfl
  simp only [hm, String.toList_append, List.append_assoc, List.append_nil]

theorem readPosition_eq (line column : Int) :
    readPosition (" at line ".toList ++ ((toString line).toList ++ (", column ".toList ++
      ((toString column).toList ++ [])))) = some (⟨line, column⟩, []) := by
  have hcomma : EndsNumber (", column ".toList ++ ((toString column).toList ++ [])) :=
    endsNumber_cons rfl _
  have hend : EndsNumber [] := nofun
  simp only [readPosition, behind_append, Option.bind_some, readInt_toString line hcomma,
    readInt_toString column hend, Option.map_some]

/-- The message of an error tells all of it. -/
theorem readMessage_message {error : LexicalError} (h : error.cause.Quotes) :
    readMessage error.message.toList = some error := by
  rw [toList_message, readMessage, readCause_message h, Option.bind_some]
  dsimp only
  rw [readPosition_eq]
  rfl

theorem message_inj {error other : LexicalError} (h : error.cause.Quotes) (ho : other.cause.Quotes)
    (hm : error.message = other.message) : error = other := by
  have hread := readMessage_message h
  rw [hm, readMessage_message ho] at hread
  exact (Option.some.inj hread).symm

end LexicalError

end Lexicon
