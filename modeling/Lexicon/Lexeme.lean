import Lexicon.Position
import Lexicon.Text.Quoted

namespace Lexicon

/-- What a lexeme is. The scanner gives the first three; a lexeme that is handed over may bear
any other word, which nothing can resolve. -/
inductive Category
  | literal
  | separator
  | identifier
  | unknown (word : String)
deriving DecidableEq

def Category.name : Category → String
  | .literal => "literal"
  | .separator => "separator"
  | .identifier => "identifier"
  | .unknown word => word

structure Lexeme where
  value : String
  category : Category
  position : Position := {}
deriving DecidableEq

def Lexeme.describe (lexeme : Lexeme) : String :=
  s!"PreToken({lexeme.category.name}, {Text.quoted lexeme.value})"

end Lexicon
