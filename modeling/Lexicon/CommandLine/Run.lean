import Lexicon.CommandLine.Options
import Lexicon.CommandLine.Usage
import Lexicon.Picture
import Lexicon.Prompt

namespace Lexicon.CommandLine

def demoProgram : String :=
  "
    const a: number = 432;
    let b: number;
    let c: number;

    b = 3; # comment ; b = 9999;

    if (a === b) \x7b
        c = a + b;
    \x7d else \x7b
        c = b - a;
    \x7d
"

structure World where
  files : FileSystem
  input : String := ""
  renderer : Option Picture.Renderer := none

inductive Fault
  | program (fault : Program.Fault)
  | encoding (fault : Text.Utf8.Fault)
deriving DecidableEq

/-- How a run ends: with the code of its work, with the code of a command line that asks for no
work, or by a fault. -/
inductive Ending
  | finished (code : Nat)
  | dismissed (code : Nat)
  | failed (fault : Fault)
deriving DecidableEq

structure Outcome where
  ending : Ending
  output : String := ""
  errors : String := ""
  files : FileSystem

def settings (options : Options) : Settings where
  showLexemes := options.printTokens
  showTables := options.printTables
  everyError := options.collectErrors

def logged (options : Options) (events : List Event) : String :=
  if options.verbose then Log.lines events else ""

def converse (options : Options) (world : World) : Outcome :=
  let conversation := Prompt.converse (settings options) world.input
  { ending := .finished 0
    output := conversation.output
    errors := logged options conversation.events
    files := world.files }

def processText (options : Options) (files : FileSystem) (text : String) : Outcome :=
  let outcome := Program.process (settings options) options.dumpTables files .fresh text
  { ending := match outcome.result with
      | .ok accepted => .finished (if accepted then 0 else 1)
      | .error fault => .failed (.program fault)
    output := outcome.output
    errors := logged options (Log.ofProgram .fresh options.collectErrors text)
    files := outcome.files }

def processFile (options : Options) (files : FileSystem) : Outcome :=
  match files.readText options.file with
  | .ok text => processText options files text
  | .error (.encoding fault) => { ending := .failed (.encoding fault), files }
  | .error (.fault (.refused cause path)) =>
    let reason := FileSystem.Fault.message (.refused cause path)
    { ending := .finished 1
      output := s!"Failed to read file {options.file}: {reason}\n"
      files }
  | .error (.fault fault) => { ending := .failed (.program (.file fault)), files }

def work (options : Options) (world : World) : Outcome :=
  if options.interactive then converse options world
  else if options.file ≠ "" then processFile options world.files
  else if options.demo then processText options world.files demoProgram
  else
    { ending := .finished 0
      output := if options.vizFsm = "" then help else ""
      files := world.files }

structure Illustration where
  drawn : Bool
  output : String
  files : FileSystem

def illustrate (options : Options) (world : World) : Illustration :=
  let files := world.files
  let path := options.vizFsm
  if path = "" then ⟨true, "", files⟩
  else match Picture.draw world.renderer files path options.vizFormat with
    | (.ok (), files) =>
      let format := options.vizFormat.getD ""
      ⟨true, s!"Wrote scanner visualization to {path}.{format}\n", files⟩
    | (.error fault, files) =>
      ⟨false, s!"Failed to render scanner visualization to {path}: {fault.message}\n", files⟩

/-- The machine is drawn first, and the program is taken in only if that succeeds. -/
def carryOut (options : Options) (world : World) : Outcome :=
  let picture := illustrate options world
  if picture.drawn then
    let outcome := work options { world with files := picture.files }
    { outcome with output := picture.output ++ outcome.output }
  else { ending := .finished 1, output := picture.output, files := picture.files }

def dismiss (stop : Options.Stop) (files : FileSystem) : Outcome :=
  match stop with
  | .help => { ending := .dismissed 0, output := help, files }
  | .usage error =>
    { ending := .dismissed 2
      errors := s!"{usage}table-lexer: error: {error.message}\n"
      files }

def run (words : List String) (world : World) : Outcome :=
  match Options.ofWords words with
  | .error stop => dismiss stop world.files
  | .ok options => carryOut options world

end Lexicon.CommandLine
