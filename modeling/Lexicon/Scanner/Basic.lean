import Lexicon.LexicalError
import Lexicon.Machine

namespace Lexicon

/-- A text being scanned: what is left of it, how far the scanner has come, the lexeme being
built with the place where it begins, and the lexemes found. -/
structure Scanner where
  rest : List Char
  offset : Nat := 0
  position : Position := {}
  state : State := .start
  buffer : String := ""
  start : Position := {}
  lexemes : Array Lexeme := #[]

namespace Scanner

inductive Refusal
  | unexpected (error : LexicalError)
  | endOfText
  | noCategory (state : State)
deriving DecidableEq

abbrev Result := EStateM.Result Refusal Scanner Unit

def ofText (text : String) : Scanner :=
  { rest := text.toList }

def current? (scanner : Scanner) : Option Char :=
  scanner.rest.head?

def error (scanner : Scanner) : LexicalError :=
  ⟨.unexpectedSymbol (scanner.current?.map String.singleton), scanner.position⟩

def advance (scanner : Scanner) : Scanner :=
  { scanner with
    rest := scanner.rest.tail
    offset := scanner.offset + 1
    position := scanner.position.after scanner.current? }

def shift (scanner : Scanner) (c : Char) : Scanner :=
  { scanner with buffer := scanner.buffer.push c }.advance

def emit (scanner : Scanner) : Result :=
  match scanner.state.category with
  | none => .error (.noCategory scanner.state) scanner
  | some category =>
    let lexeme := ⟨scanner.buffer, category, scanner.start⟩
    .ok () { scanner with lexemes := scanner.lexemes.push lexeme, buffer := "" }

def goto (scanner : Scanner) (state : State) : Scanner :=
  { scanner with state }

def step (scanner : Scanner) : Result :=
  match scanner.rest with
  | [] => .error .endOfText scanner
  | c :: _ =>
    match transition scanner.state (.of c) with
    | .skip next => .ok () (scanner.advance.goto next)
    | .shift next => .ok () ((scanner.shift c).goto next)
    | .enter next => .ok () { scanner with start := scanner.position, state := next }
    | .emit next =>
      match scanner.emit with
      | .ok () emitted => .ok () (emitted.goto next)
      | .error refusal same => .error refusal same
    | .fail => .error (.unexpected scanner.error) scanner

def finish (scanner : Scanner) : Scanner :=
  if scanner.buffer.isEmpty then scanner.goto .start
  else match scanner.emit with
    | .ok () flushed | .error _ flushed => flushed.goto .start

end Scanner

end Lexicon
