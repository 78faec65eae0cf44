import Lexicon.Analysis

namespace Lexicon

inductive Event
  | emitted (lexeme : Lexeme)
  | resolved (reference : Reference)
  | rewound (references errors : Nat)
deriving DecidableEq

def Event.line : Event → String
  | .emitted lexeme =>
    s!"DEBUG lexer: emit {lexeme.describe} at {lexeme.position.line}:{lexeme.position.column}\n"
  | .resolved reference =>
    s!"DEBUG classifier: resolved {Text.quoted reference.value} -> " ++
      s!"({reference.kind.name}, {reference.index})\n"
  | .rewound references errors =>
    s!"DEBUG classifier: rolling back {references} symbol(s) after {errors} error(s)\n"

namespace Log

def ofScan (scan : Scan) : List Event :=
  scan.lexemes.map .emitted

/-- The references of a pass are told also if it is then rewound. -/
def ofPass (pass : Session.Pass) : List Event :=
  let resolved := pass.references.toList.map .resolved
  if pass.errors.isEmpty then resolved
  else resolved ++ [.rewound pass.references.size pass.errors.size]

def ofProgram (session : Session) (everyError : Bool) (text : String) : List Event :=
  let scan := Scan.ofText (!everyError) text
  let start := if scan.ok then session else session.scratch
  let classified :=
    if scan.ok || everyError then
      ofPass (Session.Pass.run (!everyError) scan.lexemes { session := start }).2
    else []
  ofScan scan ++ classified

def lines (events : List Event) : String :=
  String.join (events.map Event.line)

end Log

end Lexicon
