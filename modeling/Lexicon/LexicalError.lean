import Lexicon.Position
import Lexicon.Text.Quoted

namespace Lexicon

/-- What is wrong with a text. An unexpected symbol that is missing is the end of the text. -/
inductive LexicalError.Cause
  | general (text : String)
  | unexpectedSymbol (symbol : Option String)
  | undefinedSeparator (value : String)
deriving DecidableEq

def LexicalError.Cause.message : LexicalError.Cause → String
  | .general text => text
  | .unexpectedSymbol (some symbol) => s!"Unexpected symbol {Text.quoted symbol}"
  | .unexpectedSymbol none => "Unexpected symbol None"
  | .undefinedSeparator value => s!"Undefined separator {Text.quoted value}"

structure LexicalError where
  cause : LexicalError.Cause
  position : Position := {}
deriving DecidableEq

def LexicalError.message (error : LexicalError) : String :=
  s!"{error.cause.message} at line {error.position.line}, column {error.position.column}"

end Lexicon
