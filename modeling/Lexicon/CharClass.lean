import Lexicon.Text.Blank

namespace Lexicon

inductive CharClass
  | digit
  | letter
  | separator
  | commentMarker
  | newline
  | whitespace
  | other
deriving DecidableEq

namespace CharClass

def all : List CharClass :=
  [.digit, .letter, .separator, .commentMarker, .newline, .whitespace, .other]

def name : CharClass → String
  | .digit => "digit"
  | .letter => "letter"
  | .separator => "separator"
  | .commentMarker => "comment_marker"
  | .newline => "newline"
  | .whitespace => "whitespace"
  | .other => "other"

def separatorChars : List Char :=
  [':', ';', '=', '(', ')', '>', '{', '}', '+', '-', '!', '<']

/-- Digits and letters are those of ASCII, and the underscore is a letter; blanks are those of
any script. -/
def of (c : Char) : CharClass :=
  if c.isDigit then .digit
  else if c.isAlpha || c = '_' then .letter
  else if separatorChars.contains c then .separator
  else if c = '#' then .commentMarker
  else if c = '\n' then .newline
  else if Text.isBlank c then .whitespace
  else .other

/-- The class of a text: that of its one character, else whether it is a run of blanks. -/
def ofText (text : String) : CharClass :=
  match text.toList with
  | [] => .other
  | [c] => of c
  | chars => if chars.all Text.isBlank then .whitespace else .other

end CharClass

end Lexicon
