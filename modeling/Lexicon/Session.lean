import Lexicon.Text.Quoted
import Lexicon.Vocabulary

namespace Lexicon

structure Reference where
  value : String
  kind : Kind
  index : Int
deriving DecidableEq

def Reference.describe (reference : Reference) : String :=
  s!"StandardSymbol({Text.quoted reference.value}, ({reference.kind.name}, {reference.index}))"

/-- The four vocabularies of a run and the references made so far. The first two are given and
the other two grow. A writer holds the session while it works. -/
structure Session where
  keywords : Vocabulary .keyword
  separators : Vocabulary .separator
  literals : Vocabulary .literal := .empty
  identifiers : Vocabulary .identifier := .empty
  trace : Array Reference := #[]
  held : Bool := false

namespace Session

def defaultKeywords : List String :=
  ["let", "const", "number", "if", "else"]

def defaultSeparators : List String :=
  [":", ";", "(", ")", "\x7b", "\x7d", ">", "=", "+", "-", "<=", "==", "===", ">=", "!=", "!=="]

def ofLists (keywords separators : List String) : Except Vocabulary.Duplicate Session := do
  let keywords ← Vocabulary.ofList .keyword keywords
  let separators ← Vocabulary.ofList .separator separators
  return { keywords, separators }

def fresh : Session where
  keywords := Vocabulary.empty.internAll defaultKeywords
  separators := Vocabulary.empty.internAll defaultSeparators

def scratch (session : Session) : Session where
  keywords := session.keywords
  separators := session.separators

def vocabulary (session : Session) : (kind : Kind) → Vocabulary kind
  | .keyword => session.keywords
  | .separator => session.separators
  | .literal => session.literals
  | .identifier => session.identifiers

def setVocabulary (session : Session) : {kind : Kind} → Vocabulary kind → Session
  | .keyword, keywords => { session with keywords }
  | .separator, separators => { session with separators }
  | .literal, literals => { session with literals }
  | .identifier, identifiers => { session with identifiers }

theorem setVocabulary_vocabulary (session : Session) (kind : Kind) :
    session.setVocabulary (session.vocabulary kind) = session := by
  cases kind <;> rfl

def resolve (session : Session) (reference : Reference) : Except Vocabulary.Missing String :=
  (session.vocabulary reference.kind).get reference.index

structure Mark where
  literals : Nat
  identifiers : Nat

def mark (session : Session) : Mark :=
  ⟨session.literals.size, session.identifiers.size⟩

def rewind (session : Session) (mark : Mark) : Session :=
  { session with
    literals := session.literals.truncate mark.literals
    identifiers := session.identifiers.truncate mark.identifiers }

def record (session : Session) (references : Array Reference) : Session :=
  { session with trace := session.trace ++ references }

/-- Let a writer work on the session, which it holds until it is done, however that ends. -/
def exclusively {α : Type} (session : Session) (writer : Session → α × Session) : α × Session :=
  let (answer, written) := writer { session with held := true }
  (answer, { written with held := false })

def describe (session : Session) : String :=
  s!"SymbolSession(literals={session.literals.size}, " ++
    s!"identifiers={session.identifiers.size}, trace={session.trace.size})"

end Session

end Lexicon
