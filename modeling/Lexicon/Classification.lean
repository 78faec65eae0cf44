import Lexicon.LexicalError
import Lexicon.Lexeme
import Lexicon.Session

namespace Lexicon

structure Classification where
  references : List Reference
  errors : List LexicalError
deriving DecidableEq

def Classification.ok (classification : Classification) : Bool :=
  classification.errors.isEmpty

structure UnknownCategory where
  word : String
deriving DecidableEq

def UnknownCategory.message (fault : UnknownCategory) : String :=
  s!"Unknown token category {Text.quoted fault.word}"

inductive Failure
  | lexical (error : LexicalError)
  | category (fault : UnknownCategory)
deriving DecidableEq

namespace Session

/-- The reference of one lexeme. Separators and keywords have to be known already, and a keyword
is never an identifier; any other literal or identifier is interned. -/
def resolveLexeme (session : Session) (lexeme : Lexeme) : Except Failure Reference × Session :=
  let value := lexeme.value
  match lexeme.category with
  | .separator =>
    match session.separators.index? value with
    | some i => (.ok ⟨value, .separator, i⟩, session)
    | none => (.error (.lexical ⟨.undefinedSeparator value, lexeme.position⟩), session)
  | .literal =>
    let (i, literals) := session.literals.intern value
    (.ok ⟨value, .literal, i⟩, session.setVocabulary literals)
  | .identifier =>
    match session.keywords.index? value with
    | some i => (.ok ⟨value, .keyword, i⟩, session)
    | none =>
      let (i, identifiers) := session.identifiers.intern value
      (.ok ⟨value, .identifier, i⟩, session.setVocabulary identifiers)
  | .unknown word => (.error (.category ⟨word⟩), session)

/-- A list of lexemes being classified. Its references are not yet in the session's trace. -/
structure Pass where
  session : Session
  references : Array Reference := #[]
  errors : Array LexicalError := #[]

/-- Resolve the lexemes in order. The pass is cut short by an unknown category, which it then
gives, and if it fails fast also by an error. -/
def Pass.run (failFast : Bool) : List Lexeme → Pass → Option UnknownCategory × Pass
  | [], pass => (none, pass)
  | lexeme :: lexemes, ⟨session, references, errors⟩ =>
    match session.resolveLexeme lexeme with
    | (.ok reference, session) =>
      run failFast lexemes ⟨session, references.push reference, errors⟩
    | (.error (.lexical error), session) =>
      let pass := ⟨session, references, errors.push error⟩
      if failFast then (none, pass) else run failFast lexemes pass
    | (.error (.category fault), session) => (some fault, ⟨session, references, errors⟩)

/-- Classify the lexemes as one transaction: either all of them are resolved and recorded, or
the session is rewound to where it stood. -/
def classify (session : Session) (failFast : Bool) (lexemes : List Lexeme) :
    Except UnknownCategory Classification × Session :=
  session.exclusively fun session =>
    let mark := session.mark
    match Pass.run failFast lexemes { session } with
    | (some fault, pass) => (.error fault, pass.session.rewind mark)
    | (none, pass) =>
      if pass.errors.isEmpty then
        (.ok ⟨pass.references.toList, []⟩, pass.session.record pass.references)
      else (.ok ⟨[], pass.errors.toList⟩, pass.session.rewind mark)

def register (session : Session) (lexemes : List Lexeme) :
    Except Failure (List Reference) × Session :=
  match session.classify true lexemes with
  | (.error fault, session) => (.error (.category fault), session)
  | (.ok classification, session) =>
    match classification.errors with
    | [] => (.ok classification.references, session)
    | error :: _ => (.error (.lexical error), session)

end Session

end Lexicon
