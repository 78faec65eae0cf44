import Lexicon.Proofs.Scanner.Run

namespace Lexicon.Scan

theorem stands_ofText (text : String) : (Scanner.ofText text).Stands [] text.toList where
  rest := rfl
  position := rfl
  state := rfl
  buffer := rfl

theorem ofText_of_layout {text : String} {lexemes : List Lexeme} {errors : List LexicalError}
    (h : Layout [] text.toList lexemes errors) : ofText false text = ⟨lexemes, errors⟩ := by
  obtain ⟨last, hscan, hl, -⟩ := Scanner.scanFrom_layout h (stands_ofText text) #[]
  have hlexemes : last.lexemes = lexemes.toArray := by simpa [Scanner.ofText] using hl
  simp only [ofText, Scanner.scan, hscan, hlexemes, Array.empty_append]

theorem layout_ofText (text : String) :
    Layout [] text.toList (ofText false text).lexemes (ofText false text).errors := by
  obtain ⟨lexemes, errors, h⟩ := Layout.exists_layout [] text.toList
  rw [ofText_of_layout h]
  exact h

/-- The scan of a text is the one way to lay it out in lexemes and gaps. -/
theorem ofText_eq_iff_layout (text : String) (scan : Scan) :
    ofText false text = scan ↔ Layout [] text.toList scan.lexemes scan.errors := by
  constructor
  · rintro rfl
    exact layout_ofText text
  · intro h
    rw [ofText_of_layout h]

end Lexicon.Scan
