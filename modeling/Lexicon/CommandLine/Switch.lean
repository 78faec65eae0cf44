namespace Lexicon.CommandLine

inductive Switch
  | help
  | file
  | interactive
  | demo
  | printTokens
  | noTables
  | dumpTables
  | collectErrors
  | vizFsm
  | vizFormat
  | verbose
deriving DecidableEq

namespace Switch

def all : List Switch :=
  [.help, .file, .interactive, .demo, .printTokens, .noTables, .dumpTables, .collectErrors,
   .vizFsm, .vizFormat, .verbose]

def names : Switch → List String
  | .help => ["-h", "--help"]
  | .file => ["--file", "-f"]
  | .interactive => ["--interactive", "-i"]
  | .demo => ["--demo"]
  | .printTokens => ["--print-tokens"]
  | .noTables => ["--no-tables"]
  | .dumpTables => ["--dump-tables"]
  | .collectErrors => ["--collect-errors"]
  | .vizFsm => ["--viz-fsm"]
  | .vizFormat => ["--viz-format"]
  | .verbose => ["--verbose", "-v"]

def takesValue : Switch → Bool
  | .file | .dumpTables | .vizFsm | .vizFormat => true
  | _ => false

def isSource : Switch → Bool
  | .file | .interactive | .demo => true
  | _ => false

def describe (switch : Switch) : String :=
  String.intercalate "/" switch.names

def table : List (String × Switch) :=
  all.flatMap fun switch => switch.names.map fun name => (name, switch)

def named? (name : String) : Option Switch :=
  table.lookup name

end Switch

end Lexicon.CommandLine
