import Lexicon.Text.Quoted

namespace Lexicon

inductive Json
  | text (value : String)
  | number (value : Int)
  | list (items : List Json)
  | object (fields : List (String × Json))

namespace Json

def escape (c : Char) : List Char :=
  if c = '"' || c = '\\' then ['\\', c]
  else if c = '\n' then ['\\', 'n']
  else if c = '\r' then ['\\', 'r']
  else if c = '\t' then ['\\', 't']
  else if c.toNat = 0x0C then ['\\', 'f']
  else if c.toNat = 0x08 then ['\\', 'b']
  else if c.toNat < 0x20 then '\\' :: 'u' :: Text.hex 4 c.toNat
  else [c]

def quote (text : String) : String :=
  String.ofList ('"' :: (text.toList.flatMap escape ++ ['"']))

def newline (depth : Nat) : String :=
  String.ofList ('\n' :: List.replicate (2 * depth) ' ')

/-- The items between two brackets, each on a line of its own one level deeper. -/
def enclose (depth : Nat) (opening closing : String) (items : List String) : String :=
  match items with
  | [] => opening ++ closing
  | items =>
    opening ++ newline (depth + 1) ++ String.intercalate ("," ++ newline (depth + 1)) items ++
      newline depth ++ closing

mutual

def write (depth : Nat) : Json → String
  | .text value => quote value
  | .number value => toString value
  | .list items => enclose depth "[" "]" (writeItems (depth + 1) items)
  | .object fields => enclose depth "\x7b" "\x7d" (writeFields (depth + 1) fields)

def writeItems (depth : Nat) : List Json → List String
  | [] => []
  | item :: items => write depth item :: writeItems depth items

def writeFields (depth : Nat) : List (String × Json) → List String
  | [] => []
  | (name, value) :: fields => (quote name ++ ": " ++ write depth value) :: writeFields depth fields

end

def render (value : Json) : String :=
  value.write 0

end Json

end Lexicon
