import Lexicon.Program

namespace Lexicon.Program

theorem head_append {first second : String} {c : Char} (h : first.toList.head? = some c) :
    (first ++ second).toList.head? = some c := by
  rw [String.toList_append, List.head?_append, h]
  rfl

theorem head_errorLines {errors : List LexicalError} (h : errors ≠ []) :
    (errorLines errors).toList.head? = some 'L' := by
  cases errors with
  | nil => exact absurd rfl h
  | cons error errors =>
    simp only [errorLines, List.map_cons, String.join_cons]
    repeat apply head_append
    rfl

theorem head_ofSession (session : Session) :
    (Report.ofSession session).toList.head? = some '\t' := by
  simp only [Report.ofSession, Report.ofVocabulary, Report.ofLines, String.intercalate_cons_cons]
  repeat apply head_append
  rfl

theorem head_dump {session : Session} {path : String} {files : FileSystem}
    (h : (dump session path files).1 = .ok false) :
    (dump session path files).2.1.toList.head? = some 'F' := by
  unfold dump at h ⊢
  split at h
  · cases h
  · repeat apply head_append
    rfl
  · cases h

/-- What is said of a dump that fails, listings before it or not, never looks like errors. -/
theorem listings_ne_errorLines (settings : Settings) (lexemes : List Lexeme) (session : Session)
    {said : String} (h : said.toList.head? = some 'F') {errors : List LexicalError}
    (he : errors ≠ []) : listings settings lexemes session ++ said ≠ errorLines errors := by
  have hne : (listings settings lexemes session ++ said).toList.head? ≠ some 'L' := by
    obtain ⟨showLexemes, showTables, everyError⟩ := settings
    cases showLexemes with
    | true =>
      have hhead : (listings ⟨true, showTables, everyError⟩ lexemes session ++
          said).toList.head? = some 'T' := by
        simp only [listings, if_true]
        repeat apply head_append
        rfl
      rw [hhead]
      decide
    | false =>
      cases showTables with
      | true =>
        have hhead : (listings ⟨false, true, everyError⟩ lexemes session ++
            said).toList.head? = some '\t' := by
          simp only [listings, if_true, Bool.false_eq_true, if_false, String.empty_append]
          exact head_append (head_append (head_ofSession session))
        rw [hhead]
        decide
      | false =>
        simp only [listings, Bool.false_eq_true, if_false, String.empty_append, h]
        decide
  intro heq
  rw [heq] at hne
  exact hne (head_errorLines he)

end Lexicon.Program
