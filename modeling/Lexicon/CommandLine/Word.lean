import Lexicon.CommandLine.Switch
import Lexicon.Text.Digit
import Lexicon.Text.Quoted

namespace Lexicon.CommandLine

inductive UsageError
  | ambiguous (word : String) (candidates : List String)
  | missingValue (switch : Switch)
  | ignoredValue (switch : Switch) (value : String)
  | notAllowed (switch earlier : Switch)
  | unrecognized (words : List String)
deriving DecidableEq

def UsageError.message : UsageError → String
  | .ambiguous word candidates =>
    s!"ambiguous option: {word} could match " ++ String.intercalate ", " candidates
  | .missingValue switch => s!"argument {switch.describe}: expected one argument"
  | .ignoredValue switch value =>
    s!"argument {switch.describe}: ignored explicit argument {Text.quoted value}"
  | .notAllowed switch earlier =>
    s!"argument {switch.describe}: not allowed with argument {earlier.describe}"
  | .unrecognized words => "unrecognized arguments: " ++ String.intercalate " " words

/-- What one word of a command line is: an operand, the lone double dash that ends the options,
an option by itself, a long option with the value it is given, the letter of an option with the
text attached to it, or no known option. -/
inductive Word
  | operand
  | terminator
  | option (switch : Switch)
  | assignment (switch : Switch) (value : String)
  | letters (switch : Switch) (text : List Char)
  | unknown
deriving DecidableEq

def splitEquals (word : List Char) : List Char × Option (List Char) :=
  let name := word.takeWhile (· ≠ '=')
  match word.drop name.length with
  | [] => (name, none)
  | _ :: value => (name, some value)

def isNegativeNumber (word : List Char) : Bool :=
  match word with
  | '-' :: number =>
    let number := if number.getLast? = some '\n' then number.dropLast else number
    let isNumber := fun digits : List Char => !digits.isEmpty && digits.all Text.isDecimalDigit
    match number.dropWhile Text.isDecimalDigit with
    | [] => isNumber number
    | '.' :: fraction => isNumber fraction
    | _ => false
  | _ => false

def abbreviated (name : List Char) : List (String × Switch) :=
  Switch.table.filter fun (known, _) => name.isPrefixOf known.toList

/-- Tell what a word of more than one character is that begins with a dash. An equals sign right
behind an option is no part of the text attached to it. -/
def optionOf (word : String) : Except UsageError Word :=
  let chars := word.toList
  let (name, value) := splitEquals chars
  -- unlike any other word that names no option, these two may be values
  let other := if isNegativeNumber chars || chars.contains ' ' then .operand else .unknown
  if chars.take 2 = ['-', '-'] then
    let assigned := fun switch =>
      match value with
      | none => .option switch
      | some value => .assignment switch (String.ofList value)
    match Switch.named? (String.ofList name), abbreviated name with
    | some switch, _ => .ok (assigned switch)
    | none, [] => .ok other
    | none, [(_, switch)] => .ok (assigned switch)
    | none, candidates => .error (.ambiguous word (candidates.map (·.1)))
  else
    match Switch.named? (String.ofList (chars.take 2)), chars.drop 2 with
    | none, _ => .ok other
    | some switch, [] => .ok (.option switch)
    | some switch, '=' :: text => .ok (.letters switch text)
    | some switch, text => .ok (.letters switch text)

def wordOf (word : String) : Except UsageError Word :=
  match word.toList with
  | '-' :: _ :: _ => optionOf word
  | _ => .ok .operand

def wordsOf : List String → Except UsageError (List (String × Word))
  | [] => .ok []
  -- the words behind a lone double dash are not looked at
  | "--" :: rest => .ok (("--", .terminator) :: rest.map (·, .operand))
  | word :: rest => do
    let read ← wordOf word
    return (word, read) :: (← wordsOf rest)

end Lexicon.CommandLine
