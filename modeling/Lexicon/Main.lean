import Lexicon.CommandLine.Run

namespace Lexicon.Terminal

def note (files : FileSystem) (path : String) : IO FileSystem := do
  let place := (← IO.currentDir) / path
  match files.vacantPlace path with
  | .error _ => return files
  | .ok location =>
    if ← place.isDir then return files.put location (.directory [])
    else if ← place.pathExists then return files.put location (.file (← IO.FS.readBinFile place))
    else return files

/-- The part of the file system that a run with the given options can touch. -/
def filesFor (options : CommandLine.Options) : IO FileSystem := do
  let here := (FileSystem.parts (← IO.currentDir).toString).filter (· ≠ "")
  let paths := [options.file, options.dumpTables, options.vizFsm]
  (paths.flatMap FileSystem.ancestors).foldlM note (.empty here)

def store (changed : List (Location × ByteArray)) : IO Unit :=
  changed.forM fun (location, content) => do
    IO.FS.createDirAll (String.intercalate "/" ("" :: location.dropLast))
    IO.FS.writeBinFile (String.intercalate "/" ("" :: location)) content

def say (text : String) : IO Unit := do
  let output ← IO.getStdout
  output.putStr text
  output.flush

def tell (options : CommandLine.Options) (events : List Event) : IO Unit :=
  IO.eprint (CommandLine.logged options events)

/-- Answer the lines, the first of which has its prompt already. Tells whether more may follow. -/
def answer (options : CommandLine.Options) : List String → IO Bool
  | [] => return true
  | line :: lines => do
    let response := Prompt.respond (CommandLine.settings options) line
    tell options response.events
    say response.output
    if response.last then return false
    if lines.isEmpty then return true
    say Prompt.prompt
    answer options lines

partial def converse (options : CommandLine.Options) : IO Unit := do
  say Prompt.prompt
  let line ← (← IO.getStdin).getLine
  if line.isEmpty then say Prompt.endOfInput
  else if ← answer options (Text.lines (Text.unifyNewlines line)) then converse options

def faultMessage : CommandLine.Fault → String
  | .program (.category fault) => fault.message
  | .program (.file fault) => fault.message
  | .encoding fault => fault.message

def finish (before : FileSystem) (outcome : CommandLine.Outcome) : IO UInt32 := do
  store (outcome.files.changedSince before)
  say outcome.output
  IO.eprint outcome.errors
  match outcome.ending with
  | .finished code | .dismissed code => return code.toUInt32
  | .failed fault =>
    IO.eprintln (faultMessage fault)
    return 1

def run (words : List String) : IO UInt32 := do
  match CommandLine.Options.ofWords words with
  | .error stop => finish {} (CommandLine.dismiss stop {})
  | .ok options =>
    let files ← filesFor options
    let world : CommandLine.World := { files }
    if options.interactive then
      let picture := CommandLine.illustrate options world
      store (picture.files.changedSince files)
      say picture.output
      if !picture.drawn then return 1
      say Prompt.banner
      converse options
      return 0
    else finish files (CommandLine.carryOut options world)

end Lexicon.Terminal

def main (words : List String) : IO UInt32 :=
  Lexicon.Terminal.run words
