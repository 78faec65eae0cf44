import Lexicon.Scan

namespace Lexicon.Scanner

variable {scanner next same : Scanner} {error : LexicalError} {refusal : Refusal}

def ScansAs (scanner next : Scanner) : Prop :=
  ∀ (failFast : Bool) (noted : Array LexicalError),
    scanner.scanFrom failFast noted = next.scanFrom failFast noted

theorem scansAs_of_step (h : scanner.step = .ok () next) : scanner.ScansAs next := by
  intro failFast noted
  rw [scanFrom]
  split <;> simp_all

theorem scanFrom_of_unexpected (h : scanner.step = .error (.unexpected error) same)
    (noted : Array LexicalError) :
    scanner.scanFrom false noted = same.advance.scanFrom false (noted.push error) := by
  rw [scanFrom]
  split <;> simp_all

theorem scanFrom_stops (h : scanner.step = .error (.unexpected error) same)
    (noted : Array LexicalError) : scanner.scanFrom true noted = (noted.push error, same) := by
  rw [scanFrom]
  split <;> simp_all

theorem scanFrom_of_refusal (h : scanner.step = .error refusal same)
    (hr : ∀ error, refusal ≠ .unexpected error) (failFast : Bool) (noted : Array LexicalError) :
    scanner.scanFrom failFast noted = (noted, same.finish) := by
  rw [scanFrom]
  split
  · simp_all
  · next error _ h' =>
    rw [h, EStateM.Result.error.injEq] at h'
    exact absurd h'.1 (hr error)
  · simp_all

theorem scanFrom_end (h : scanner.rest = []) (failFast : Bool) (noted : Array LexicalError) :
    scanner.scanFrom failFast noted = (noted, scanner.finish) := by
  have hstep : scanner.step = .error .endOfText scanner := by simp only [step, h]
  exact scanFrom_of_refusal hstep (fun _ => Refusal.noConfusion) failFast noted

theorem ScansAs.refl (scanner : Scanner) : scanner.ScansAs scanner :=
  fun _ _ => rfl

theorem ScansAs.trans {last : Scanner} (h : scanner.ScansAs next) (h' : next.ScansAs last) :
    scanner.ScansAs last := by
  intro failFast noted
  rw [h, h']

end Lexicon.Scanner
