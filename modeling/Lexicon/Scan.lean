import Lexicon.Scanner.Rank

namespace Lexicon

structure Scan where
  lexemes : List Lexeme
  errors : List LexicalError
deriving DecidableEq

def Scan.ok (scan : Scan) : Bool :=
  scan.errors.isEmpty

namespace Scanner

/-- The loop of a scan: step by step to the end of the text, where the last lexeme is ended. A
refused character is noted and passed over, unless the scan fails fast and stops before it. -/
def scanFrom (failFast : Bool) (scanner : Scanner) (errors : Array LexicalError) :
    Array LexicalError × Scanner :=
  match _ : scanner.step with
  | .ok () next => scanFrom failFast next errors
  | .error (.unexpected error) same =>
    if failFast then (errors.push error, same)
    else scanFrom failFast same.advance (errors.push error)
  | .error _ same => (errors, same.finish)
termination_by scanner.rankOf
decreasing_by
  · exact rankOf_step_lt ‹_›
  · exact rankOf_refused_lt ‹_›

theorem scanFrom_append (failFast : Bool) (scanner : Scanner) (before errors : Array LexicalError) :
    scanner.scanFrom failFast (before ++ errors) =
      (before ++ (scanner.scanFrom failFast errors).1, (scanner.scanFrom failFast errors).2) := by
  fun_induction scanFrom failFast scanner errors with
  | case1 | case2 | case3 =>
    rw [scanFrom]
    split <;> simp_all
  | case4 scanner errors refusal same hlexical hstep =>
    rw [scanFrom]
    split
    · simp_all
    · next h =>
      rw [hstep, EStateM.Result.error.injEq] at h
      exact absurd h.1 (hlexical _)
    · simp_all

def scan (failFast : Bool) (scanner : Scanner) : Scan × Scanner :=
  let (errors, last) := scanner.scanFrom failFast #[]
  (⟨last.lexemes.toList, errors.toList⟩, last)

inductive Call
  | step
  | advance
  | emit
  | finish
  | error
  | scan (failFast : Bool)
deriving DecidableEq

inductive Answer
  | done
  | refused (refusal : Refusal)
  | reported (error : LexicalError)
  | scanned (scan : Scan)
deriving DecidableEq

def answer : Result → Answer × Scanner
  | .ok () scanner => (.done, scanner)
  | .error refusal scanner => (.refused refusal, scanner)

def perform (scanner : Scanner) : Call → Answer × Scanner
  | .step => answer scanner.step
  | .advance => (.done, scanner.advance)
  | .emit => answer scanner.emit
  | .finish => (.done, scanner.finish)
  | .error => (.reported scanner.error, scanner)
  | .scan failFast =>
    let (scan, scanner) := scanner.scan failFast
    (.scanned scan, scanner)

end Scanner

def Scan.ofText (failFast : Bool) (text : String) : Scan :=
  ((Scanner.ofText text).scan failFast).1

def Lexeme.ofText (text : String) : Except LexicalError (List Lexeme) :=
  let scan := Scan.ofText true text
  match scan.errors with
  | [] => .ok scan.lexemes
  | error :: _ => .error error

end Lexicon
