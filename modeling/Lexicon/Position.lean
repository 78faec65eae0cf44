namespace Lexicon

/-- A place in a text, both numbers counting from 1. They are integers so that a place that is
handed over, rather than reached by reading, may be any. -/
structure Position where
  line : Int := 1
  column : Int := 1
deriving DecidableEq

def Position.after (position : Position) (c : Option Char) : Position :=
  if c = some '\n' then ⟨position.line + 1, 1⟩ else ⟨position.line, position.column + 1⟩

end Lexicon
