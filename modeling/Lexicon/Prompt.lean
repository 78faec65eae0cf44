import Lexicon.Log
import Lexicon.Program
import Lexicon.Text.LowerCase

namespace Lexicon.Prompt

def banner : String :=
  "\nInteractive Scanner Mode (type 'quit' to exit)\n" ++
    String.ofList (List.replicate 80 '=') ++ "\n"

def prompt : String :=
  "\nEnter program: "

def farewell : String :=
  "Goodbye!\n"

def endOfInput : String :=
  "\n\nExiting...\n"

def isQuit (text : String) : Bool :=
  ["quit", "exit", "q"].contains (Text.lowerCase text)

structure Response where
  output : String
  events : List Event := []
  last : Bool := false

/-- Each line is a program on its own, taken in by a fresh session. -/
def respond (settings : Settings) (line : String) : Response :=
  let text := Text.strip line
  if isQuit text then { output := farewell, last := true }
  else if text = "" then { output := "" }
  else
    { output := (Program.process settings "" {} Session.fresh text).output
      events := Log.ofProgram Session.fresh settings.everyError text }

def responses (settings : Settings) : List String → List Response
  | [] => [{ output := endOfInput, last := true }]
  | line :: lines =>
    let response := respond settings line
    if response.last then [response] else response :: responses settings lines

structure Conversation where
  output : String
  events : List Event

def converse (settings : Settings) (input : String) : Conversation :=
  let responses := responses settings (Text.lines (Text.unifyNewlines input))
  { output := banner ++ String.join (responses.map fun response => prompt ++ response.output)
    events := responses.flatMap Response.events }

end Lexicon.Prompt
