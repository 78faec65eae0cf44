namespace Lexicon.Text

/-- One character of the text after line ends are unified. The flag tells that the character
before it was a carriage return, which has already been written as a line end. -/
def unifyStep : String × Bool → Char → String × Bool
  | (text, afterReturn), c =>
    if c = '\r' then (text.push '\n', true)
    else if c = '\n' && afterReturn then (text, false)
    else (text.push c, false)

def unifyNewlines (text : String) : String :=
  (text.toList.foldl unifyStep ("", false)).1

def lines (text : String) : List String :=
  let pieces := (text.toList.splitOn '\n').map String.ofList
  if pieces.getLast? = some "" then pieces.dropLast else pieces

end Lexicon.Text
