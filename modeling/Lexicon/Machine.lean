import Lexicon.CharClass
import Lexicon.Lexeme

namespace Lexicon

inductive State
  | start
  | digit
  | separator
  | identifier
  | comment
deriving DecidableEq

namespace State

def all : List State :=
  [.start, .digit, .separator, .identifier, .comment]

def name : State → String
  | .start => "START"
  | .digit => "DIGIT"
  | .separator => "SEPARATOR"
  | .identifier => "IDENTIFIER"
  | .comment => "COMMENT"

def category : State → Option Category
  | .digit => some .literal
  | .separator => some .separator
  | .identifier => some .identifier
  | .start | .comment => none

def accepts : State → CharClass → Bool
  | .digit, .digit => true
  | .separator, .separator => true
  | .identifier, .letter => true
  | .identifier, .digit => true
  | _, _ => false

end State

/-- What the machine does with a character before it goes to the next state: `skip` passes over
it, `shift` adds it to the lexeme and passes over it, `enter` begins a lexeme at it, `emit` ends
the lexeme before it, and `fail` refuses it. -/
inductive Transition
  | skip (next : State)
  | shift (next : State)
  | enter (next : State)
  | emit (next : State)
  | fail
deriving DecidableEq

namespace Transition

def action : Transition → String
  | .skip _ => "skip"
  | .shift _ => "shift"
  | .enter _ => "enter"
  | .emit _ => "emit"
  | .fail => "fail"

def next? : Transition → Option State
  | .skip next | .shift next | .enter next | .emit next => some next
  | .fail => none

end Transition

def transition : State → CharClass → Transition
  | .start, .digit => .enter .digit
  | .start, .letter => .enter .identifier
  | .start, .separator => .enter .separator
  | .start, .commentMarker => .skip .comment
  | .start, .newline => .skip .start
  | .start, .whitespace => .skip .start
  | .start, .other => .fail
  | .comment, .newline => .skip .start
  | .comment, _ => .skip .comment
  | state, charClass => if state.accepts charClass then .shift state else .emit .start

def transitionTable : List (State × CharClass × Transition) :=
  CharClass.all.flatMap fun charClass =>
    State.all.map fun state => (state, charClass, transition state charClass)

end Lexicon
