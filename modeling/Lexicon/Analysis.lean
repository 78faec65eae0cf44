import Lexicon.Classification
import Lexicon.Scan

namespace Lexicon

structure Diagnosis where
  lexemes : List Lexeme
  errors : List LexicalError
deriving DecidableEq

inductive Verdict
  | accepted (lexemes : List Lexeme)
  | rejected (errors : List LexicalError)
deriving DecidableEq

namespace Session

def analyze (session : Session) (text : String) : Except Failure (List Lexeme) × Session :=
  match Lexeme.ofText text with
  | .error error => (.error (.lexical error), session)
  | .ok lexemes =>
    match session.register lexemes with
    | (.error failure, session) => (.error failure, session)
    | (.ok _, session) => (.ok lexemes, session)

/-- Scan a text and classify its lexemes in spite of errors. If the scan has some, a scratch
session takes the lexemes, so that this one keeps nothing of a program that is not accepted. -/
def diagnose (session : Session) (text : String) :
    Except UnknownCategory Diagnosis × Session :=
  let scan := Scan.ofText false text
  let diagnosis := fun classification : Classification =>
    ⟨scan.lexemes, scan.errors ++ classification.errors⟩
  if scan.ok then
    let (classified, session) := session.classify false scan.lexemes
    (classified.map diagnosis, session)
  else ((session.scratch.classify false scan.lexemes).1.map diagnosis, session)

def judge (session : Session) (everyError : Bool) (text : String) :
    Except UnknownCategory Verdict × Session :=
  if everyError then
    match session.diagnose text with
    | (.error fault, session) => (.error fault, session)
    | (.ok diagnosis, session) =>
      if diagnosis.errors.isEmpty then (.ok (.accepted diagnosis.lexemes), session)
      else (.ok (.rejected diagnosis.errors), session)
  else
    match session.analyze text with
    | (.ok lexemes, session) => (.ok (.accepted lexemes), session)
    | (.error (.lexical error), session) => (.ok (.rejected [error]), session)
    | (.error (.category fault), session) => (.error fault, session)

end Session

end Lexicon
