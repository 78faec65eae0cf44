import Lexicon.CommandLine.Demand

namespace Lexicon.CommandLine

/-- What a command line asks for. A value given as a lone double dash is dropped, which leaves
the paths empty and the format none. -/
structure Options where
  file : String := ""
  interactive : Bool := false
  demo : Bool := false
  printTokens : Bool := false
  printTables : Bool := true
  dumpTables : String := ""
  collectErrors : Bool := false
  vizFsm : String := ""
  vizFormat : Option String := some "svg"
  verbose : Bool := false
deriving DecidableEq

namespace Options

def kept (value : String) : Option String :=
  if value = "--" then none else some value

def set (options : Options) (value : String) : Switch → Options
  | .help => options
  | .file => { options with file := (kept value).getD "" }
  | .interactive => { options with interactive := true }
  | .demo => { options with demo := true }
  | .printTokens => { options with printTokens := true }
  | .noTables => { options with printTables := false }
  | .dumpTables => { options with dumpTables := (kept value).getD "" }
  | .collectErrors => { options with collectErrors := true }
  | .vizFsm => { options with vizFsm := (kept value).getD "" }
  | .vizFormat => { options with vizFormat := kept value }
  | .verbose => { options with verbose := true }

inductive Stop
  | help
  | usage (error : UsageError)
deriving DecidableEq

structure Reading where
  options : Options := {}
  source : Option Switch := none
  unrecognized : Array String := #[]

namespace Reading

def take (reading : Reading) (switch : Switch) (value : String) : Except Stop Reading :=
  let options := reading.options.set value switch
  if switch = .help then .error .help
  else if !switch.isSource then .ok { reading with options }
  else match reading.source with
    | none => .ok { reading with options, source := some switch }
    | some earlier =>
      if switch = earlier then .ok { reading with options }
      else .error (.usage (.notAllowed switch earlier))

def takeFlags (reading : Reading) (flags : List Switch) : Except Stop Reading :=
  flags.foldlM (fun reading flag => reading.take flag "") reading

def leave (reading : Reading) (word : String) : Reading :=
  { reading with unrecognized := reading.unrecognized.push word }

/-- Carry out the words in order. The value of an option that has nothing attached is the next
word, which has to be an operand. -/
def run (reading : Reading) : List (String × Word) → Except Stop Reading
  | [] => .ok reading
  | (text, word) :: rest =>
    match word.demand with
    | .error error => .error (.usage error)
    | .ok none => (reading.leave text).run rest
    | .ok (some ⟨flags, switch, some value⟩) => do
      let reading ← reading.takeFlags flags
      (← reading.take switch value).run rest
    | .ok (some ⟨flags, switch, none⟩) =>
      if switch.takesValue then
        match rest with
        | (value, .operand) :: rest => do
          let reading ← reading.takeFlags flags
          (← reading.take switch value).run rest
        | _ => .error (.usage (.missingValue switch))
      else do
        let reading ← reading.takeFlags (flags ++ [switch])
        reading.run rest

end Reading

/-- The options of a command line. That a word is ambiguous is noticed before any is carried out. -/
def ofWords (words : List String) : Except Stop Options :=
  match wordsOf words with
  | .error error => .error (.usage error)
  | .ok words => do
    let reading ← Reading.run {} words
    if reading.unrecognized.isEmpty then .ok reading.options
    else .error (.usage (.unrecognized reading.unrecognized.toList))

end Options

end Lexicon.CommandLine
