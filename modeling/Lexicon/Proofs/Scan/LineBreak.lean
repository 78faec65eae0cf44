import Lexicon.Proofs.Scan.Exact

namespace Lexicon

def Lexeme.below (lexeme : Lexeme) (lines : Nat) : Lexeme :=
  { lexeme with position := lexeme.position.below lines }

def LexicalError.below (error : LexicalError) (lines : Nat) : LexicalError :=
  { error with position := error.position.below lines }

namespace Layout

variable {before text rest : List Char} {lexemes lexemes' : List Lexeme}
  {errors errors' : List LexicalError}

/-- A text whose end is followed by the end of a line is laid out as if it were followed by nothing. -/
theorem append (h : Layout before text lexemes errors) (hbreak : ∀ c ∈ rest.head?, c = '\n')
    (h' : Layout (before ++ text) rest lexemes' errors') :
    Layout before (text ++ rest) (lexemes ++ lexemes') (errors ++ errors') := by
  induction h with
  | @done before =>
    rw [List.append_nil] at h'
    exact h'
  | @blank before text lexemes errors c hc _ ih =>
    apply Layout.blank hc
    apply ih
    rwa [List.append_assoc, List.singleton_append]
  | @comment before text lexemes errors body hbody hend _ ih =>
    rw [List.cons_append, List.append_assoc]
    apply Layout.comment hbody
    · cases text with
      | nil => exact hbreak
      | cons c text => exact hend
    · apply ih
      rwa [List.append_assoc, List.cons_append]
  | @refused before text lexemes errors c ho _ ih =>
    apply Layout.refused ho
    apply ih
    rwa [List.append_assoc, List.singleton_append]
  | @lexeme before text lexemes errors lexeme hwell hend hplace _ ih =>
    rw [List.append_assoc]
    apply Layout.lexeme hwell _ hplace
    · apply ih
      rwa [List.append_assoc]
    · cases text with
      | nil =>
        intro c hc
        rw [hbreak c hc]
        exact lexeme.category.not_continues_of_blank (by decide)
      | cons c text => exact hend

theorem behind_lineEnd (h : Layout before text lexemes errors) (lead : List Char) :
    Layout (lead ++ '\n' :: before) text (lexemes.map (·.below (1 + lead.count '\n')))
      (errors.map (·.below (1 + lead.count '\n'))) := by
  induction h with
  | done => exact .done
  | blank hc _ ih =>
    apply Layout.blank hc
    rwa [List.append_assoc]
  | comment hbody hend _ ih =>
    apply Layout.comment hbody hend
    rwa [List.append_assoc]
  | @refused before text lexemes errors c ho _ ih =>
    have herror : (LexicalError.unexpected c (.behind before)).below (1 + lead.count '\n') =
        .unexpected c (.behind (lead ++ '\n' :: before)) := by
      rw [Position.behind_lineEnd]
      rfl
    rw [List.map_cons, herror]
    apply Layout.refused ho
    rwa [List.append_assoc]
  | @lexeme before text lexemes errors lexeme hwell hend hplace _ ih =>
    have hplace' : (lexeme.below (1 + lead.count '\n')).position =
        .behind (lead ++ '\n' :: before) := by
      rw [Position.behind_lineEnd, ← hplace]
      rfl
    have hwell' : (lexeme.below (1 + lead.count '\n')).WellFormed := hwell
    apply Layout.lexeme hwell' hend hplace'
    rwa [List.append_assoc]

end Layout

/-- To scan across a line end is to scan the texts on its two sides: nothing of the first has an
influence on the second but the number of its lines. -/
theorem Scan.ofText_lineEnd (first second : String) :
    let lines := 1 + first.toList.count '\n'
    ofText false (first ++ "\n" ++ second) =
      ⟨(ofText false first).lexemes ++ (ofText false second).lexemes.map (·.below lines),
        (ofText false first).errors ++ (ofText false second).errors.map (·.below lines)⟩ := by
  intro lines
  have hfirst := layout_ofText first
  have hsecond := (layout_ofText second).behind_lineEnd first.toList
  have htext : (first ++ "\n" ++ second).toList = first.toList ++ '\n' :: second.toList := by
    simp
  apply ofText_of_layout
  rw [htext]
  refine hfirst.append (fun c hc => (Option.some.inj hc).symm) ?_
  exact .blank (by decide) hsecond

end Lexicon
