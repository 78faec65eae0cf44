import Lexicon.Proofs.Scanner.Loop

namespace Lexicon

/-- A scan that fails fast notes the first of the errors that the other scan notes, and without
errors the two are the same. -/
theorem Scanner.scanFrom_failFast (scanner : Scanner) (noted : Array LexicalError) :
    (scanner.scanFrom true noted).1.toList =
        noted.toList ++ (scanner.scanFrom false #[]).1.toList.take 1 ∧
      ((scanner.scanFrom false #[]).1 = #[] →
        (scanner.scanFrom true noted).2 = (scanner.scanFrom false #[]).2) := by
  fun_induction scanFrom true scanner noted with
  | case1 scanner noted next hstep ih =>
    rw [scansAs_of_step hstep]
    exact ih
  | case2 scanner noted error same hstep =>
    have hnext : scanner.scanFrom false #[] = same.advance.scanFrom false (#[error] ++ #[]) :=
      scanFrom_of_unexpected hstep #[]
    rw [hnext, scanFrom_append]
    simp
  | case3 scanner noted error same hstep hfalse => exact absurd rfl hfalse
  | case4 scanner noted refusal same hlexical hstep =>
    rw [scanFrom_of_refusal hstep hlexical]
    simp

namespace Scan

theorem errors_ofText_failFast (text : String) :
    (ofText true text).errors = (ofText false text).errors.take 1 := by
  have h := (Scanner.scanFrom_failFast (Scanner.ofText text) #[]).1
  simpa [ofText, Scanner.scan] using h

theorem ofText_failFast {text : String} (h : (ofText false text).errors = []) :
    ofText true text = ofText false text := by
  obtain ⟨herrors, hlast⟩ := Scanner.scanFrom_failFast (Scanner.ofText text) #[]
  have hnone : ((Scanner.ofText text).scanFrom false #[]).1 = #[] := by
    simpa [ofText, Scanner.scan] using h
  have hnone' : ((Scanner.ofText text).scanFrom true #[]).1 = #[] := by
    apply Array.toList_inj.1
    simpa [hnone] using herrors
  simp only [ofText, Scanner.scan, hlast hnone, hnone, hnone']

end Scan

theorem Lexeme.ofText_eq (text : String) :
    ofText text = match (Scan.ofText false text).errors with
      | [] => .ok (Scan.ofText false text).lexemes
      | error :: _ => .error error := by
  have herrors := Scan.errors_ofText_failFast text
  cases h : (Scan.ofText false text).errors with
  | nil =>
    simp only [ofText, Scan.ofText_failFast h, h]
  | cons error errors =>
    rw [h, List.take_succ_cons, List.take_zero] at herrors
    simp only [ofText, herrors]

theorem Lexeme.ofText_eq_ok {text : String} {lexemes : List Lexeme} :
    ofText text = .ok lexemes ↔ Scan.ofText false text = ⟨lexemes, []⟩ := by
  rw [ofText_eq]
  cases Scan.ofText false text with
  | mk found errors => cases errors <;> simp

end Lexicon
