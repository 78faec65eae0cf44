import Lexicon.Proofs.Scanner.Invariant
import Lexicon.Proofs.Scanner.Loop

namespace Lexicon.Scanner

inductive Move
  | step
  | scan
deriving DecidableEq

def Move.call : Move → Call
  | .step => .step
  | .scan => .scan true

def Answer.errors : Answer → List LexicalError
  | .refused (.unexpected error) => [error]
  | .scanned scan => scan.errors
  | _ => []

def skipAll (scanner : Scanner) (errors : List LexicalError) : Scanner :=
  errors.foldl (fun scanner _ => scanner.advance) scanner

/-- Drive the scanner on, and pass over each character that an answer names. The errors are all that
were named on the way. A step where the text has ended is refused and does nothing. -/
def drive (scanner : Scanner) : List Move → List LexicalError × Scanner
  | [] => ([], scanner)
  | move :: moves =>
    let (answer, stopped) := scanner.perform move.call
    let (errors, last) := (stopped.skipAll answer.errors).drive moves
    (answer.errors ++ errors, last)

/-- A scan that is to note every error goes on from one scanner as it does from the other, but for
the errors, which were noted before. -/
def Resumes (scanner : Scanner) (errors : List LexicalError) (next : Scanner) : Prop :=
  ∀ noted : Array LexicalError,
    scanner.scanFrom false noted = next.scanFrom false (noted ++ errors.toArray)

variable {scanner next same : Scanner} {errors : List LexicalError} {error : LexicalError}

theorem resumes_of_scansAs (h : scanner.ScansAs next) : scanner.Resumes [] next := by
  intro noted
  rw [h, Array.append_empty]

theorem Resumes.trans {last : Scanner} {more : List LexicalError} (h : scanner.Resumes errors next)
    (h' : next.Resumes more last) : scanner.Resumes (errors ++ more) last := by
  intro noted
  rw [h, h', Array.append_assoc]
  simp only [List.append_toArray]

theorem resumes_of_unexpected (h : scanner.step = .error (.unexpected error) same) :
    scanner.Resumes [error] same.advance := by
  intro noted
  rw [scanFrom_of_unexpected h]
  rfl

theorem finish_finish (scanner : Scanner) : scanner.finish.finish = scanner.finish := by
  have hstart (stopped : Scanner) (hs : stopped.state = .start) : stopped.finish = stopped := by
    obtain ⟨-, hf⟩ | ⟨category, hcategory, -⟩ := finish_cases stopped
    · rw [hf, ← hs]
      rfl
    · rw [hs] at hcategory
      cases hcategory
  apply hstart
  obtain ⟨-, hf⟩ | ⟨category, -, hf⟩ := finish_cases scanner <;> rw [hf] <;> rfl

theorem rest_finish (scanner : Scanner) : scanner.finish.rest = scanner.rest := by
  obtain ⟨-, hf⟩ | ⟨category, -, hf⟩ := finish_cases scanner <;> rw [hf] <;> rfl

theorem resumes_finish (h : scanner.rest = []) : scanner.Resumes [] scanner.finish := by
  apply resumes_of_scansAs
  intro failFast noted
  rw [scanFrom_end h, scanFrom_end ((rest_finish scanner).trans h), finish_finish]

theorem resumes_scanFrom (scanner : Scanner) (noted : Array LexicalError) :
    ∃ errors : List LexicalError, (scanner.scanFrom true noted).1 = noted ++ errors.toArray ∧
      scanner.Resumes errors ((scanner.scanFrom true noted).2.skipAll errors) := by
  fun_induction scanFrom true scanner noted with
  | case1 scanner noted next hs ih =>
    obtain ⟨errors, hnoted, hr⟩ := ih
    exact ⟨errors, hnoted, (resumes_of_scansAs (scansAs_of_step hs)).trans hr⟩
  | case2 scanner noted error same hs => exact ⟨[error], by simp, resumes_of_unexpected hs⟩
  | case3 scanner noted error same hs hfalse => exact absurd rfl hfalse
  | case4 scanner noted refusal same hlexical hs =>
    obtain ⟨rfl, ⟨hend, -⟩ | ⟨c, rest, -, -, -, hr⟩⟩ := step_refused hs
    · exact ⟨[], by simp, resumes_finish hend⟩
    · exact absurd hr (hlexical _)

theorem resumes_move (scanner : Scanner) (move : Move) :
    let (answer, stopped) := scanner.perform move.call
    scanner.Resumes answer.errors (stopped.skipAll answer.errors) := by
  cases move with
  | step =>
    simp only [Move.call, perform]
    cases hs : scanner.step with
    | ok _ next => exact resumes_of_scansAs (scansAs_of_step hs)
    | error refusal same =>
      obtain ⟨rfl, ⟨-, rfl⟩ | ⟨c, rest, -, -, -, rfl⟩⟩ := step_refused hs
      · exact resumes_of_scansAs (.refl same)
      · exact resumes_of_unexpected hs
  | scan =>
    obtain ⟨errors, hnoted, hr⟩ := resumes_scanFrom scanner #[]
    have herrors : (scanner.scan true).1.errors = errors := by simp [scan, hnoted]
    simp only [Move.call, perform, Answer.errors, herrors]
    exact hr

theorem resumes_drive (scanner : Scanner) (moves : List Move) :
    scanner.Resumes (scanner.drive moves).1 (scanner.drive moves).2 := by
  induction moves generalizing scanner with
  | nil => exact resumes_of_scansAs (.refl scanner)
  | cons move moves ih => exact (resumes_move scanner move).trans (ih _)

/-- A scan may be stopped and resumed anywhere: whether by single steps or by scans that fail fast, in
the end it has the lexemes of a scan in one go, and it has named the same errors. -/
theorem drive_then_scan (text : String) (moves : List Move) :
    let (errors, stopped) := (ofText text).drive moves
    let (scan, last) := stopped.scan false
    last.lexemes.toList = (Scan.ofText false text).lexemes ∧
      scan.lexemes = (Scan.ofText false text).lexemes ∧
      errors ++ scan.errors = (Scan.ofText false text).errors := by
  have hr := resumes_drive (ofText text) moves #[]
  generalize (ofText text).drive moves = driven at hr ⊢
  obtain ⟨errors, stopped⟩ := driven
  have hscan : (ofText text).scanFrom false #[] =
      (errors.toArray ++ (stopped.scanFrom false #[]).1, (stopped.scanFrom false #[]).2) := by
    rw [hr, Array.empty_append, ← scanFrom_append, Array.append_empty]
  simp only [Scan.ofText, scan, hscan, Array.toList_append, and_self]

end Lexicon.Scanner
