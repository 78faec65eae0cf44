import Lexicon.Analysis
import Lexicon.FileSystem.Access
import Lexicon.Report
import Lexicon.Session.Dump

namespace Lexicon

structure Settings where
  showLexemes : Bool := false
  showTables : Bool := true
  everyError : Bool := false
deriving DecidableEq

namespace Program

inductive Fault
  | category (fault : UnknownCategory)
  | file (fault : FileSystem.Fault)
deriving DecidableEq

structure Outcome where
  result : Except Fault Bool
  output : String
  session : Session
  files : FileSystem

def errorLines (errors : List LexicalError) : String :=
  String.join (errors.map fun error => s!"Lexical error: {error.message}\n")

def listings (settings : Settings) (lexemes : List Lexeme) (session : Session) : String :=
  (if settings.showLexemes then
    s!"Tokens ({lexemes.length}):\n{Report.ofLexemes lexemes}\n\n"
  else "") ++
  (if settings.showTables then s!"{Report.ofSession session}\n" else "")

/-- Write the session to a file. A refusal is said; a path that is none ends the processing. -/
def dump (session : Session) (path : String) (files : FileSystem) :
    Except Fault Bool × String × FileSystem :=
  match files.write path session.dump.toUTF8 with
  | .ok files => (.ok true, s!"Wrote symbol tables JSON to {path}\n", files)
  | .error (.refused cause path) =>
    let reason := FileSystem.Fault.message (.refused cause path)
    (.ok false, s!"Failed to write symbol tables JSON to {path}: {reason}\n", files)
  | .error fault => (.error (.file fault), "", files)

/-- Take in a program and show what is asked for. An accepted program may also be dumped to a
file; an empty path asks for none. -/
def process (settings : Settings) (dumpPath : String) (files : FileSystem) (session : Session)
    (text : String) : Outcome :=
  match session.judge settings.everyError text with
  | (.error fault, session) => ⟨.error (.category fault), "", session, files⟩
  | (.ok (.rejected errors), session) => ⟨.ok false, errorLines errors, session, files⟩
  | (.ok (.accepted lexemes), session) =>
    let listed := listings settings lexemes session
    if dumpPath = "" then ⟨.ok true, listed, session, files⟩
    else
      let (result, said, files) := dump session dumpPath files
      ⟨result, listed ++ said, session, files⟩

end Program

end Lexicon
