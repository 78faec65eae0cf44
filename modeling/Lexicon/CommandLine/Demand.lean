import Lexicon.CommandLine.Word

namespace Lexicon.CommandLine

/-- What a word asks for: some flags, and the option that comes last in it, with its value if that
is attached. -/
structure Demand where
  flags : List Switch := []
  last : Switch
  value : Option String := none
deriving DecidableEq

/-- The demand of an option letter with text attached, which is the value of the option or, for a
flag, the letters of more options. -/
def ofLetters (switch : Switch) (text : List Char) : Except UsageError Demand :=
  if switch.takesValue then .ok { last := switch, value := some (String.ofList text) }
  else match text with
    | [] => .error (.ignoredValue switch "")
    | c :: rest =>
      match Switch.named? (String.ofList ['-', c]) with
      | none => .error (.ignoredValue switch (String.ofList (c :: rest)))
      | some following =>
        let more : Except UsageError Demand :=
          if rest.isEmpty then .ok { last := following } else ofLetters following rest
        more.map fun demand => { demand with flags := switch :: demand.flags }

def Word.demand : Word → Except UsageError (Option Demand)
  | .operand | .terminator | .unknown => .ok none
  | .option switch => .ok (some { last := switch })
  | .assignment switch value =>
    if switch.takesValue then .ok (some { last := switch, value := some value })
    else .error (.ignoredValue switch value)
  | .letters switch text => (ofLetters switch text).map some

end Lexicon.CommandLine
