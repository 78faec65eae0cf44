import Lexicon.Proofs.Scan.FirstError
import Lexicon.Proofs.Text.Lines

namespace Lexicon

def beforeComment (line : List Char) : List Char :=
  line.takeWhile (· ≠ '#')

def bareLines (text : List Char) : List (List Char) :=
  (text.splitOn '\n').map beforeComment

/-- The text without its comments. The line ends stay. -/
def uncomment (text : List Char) : List Char :=
  ['\n'].intercalate (bareLines text)

section

variable {line text rest : List Char} {c : Char}

theorem bareLines_line (hline : '\n' ∉ line) : bareLines line = [beforeComment line] := by
  rw [bareLines, Text.splitOn_line hline, List.map_singleton]

theorem bareLines_line_cons (hline : '\n' ∉ line) (text : List Char) :
    bareLines (line ++ '\n' :: text) = beforeComment line :: bareLines text := by
  rw [bareLines, Text.splitOn_line_cons hline, List.map_cons, bareLines]

theorem uncomment_line (hline : '\n' ∉ line) : uncomment line = beforeComment line := by
  rw [uncomment, bareLines_line hline, List.intercalate_singleton]

theorem uncomment_line_cons (hline : '\n' ∉ line) (text : List Char) :
    uncomment (line ++ '\n' :: text) = beforeComment line ++ '\n' :: uncomment text := by
  have hne : bareLines text ≠ [] := by
    simp [bareLines, List.splitOn_ne_nil]
  obtain ⟨first, others, hlines⟩ := List.exists_cons_of_ne_nil hne
  rw [uncomment, bareLines_line_cons hline, uncomment, hlines, List.intercalate_cons_cons,
    List.append_assoc, List.singleton_append]

theorem uncomment_cons (hc : c ≠ '#') (text : List Char) : uncomment (c :: text) = c :: uncomment text := by
  by_cases hn : c = '\n'
  · subst hn
    exact uncomment_line_cons List.not_mem_nil text
  · have hfirst (line : List Char) : beforeComment (c :: line) = c :: beforeComment line :=
      List.takeWhile_cons_of_pos (by simpa using hc)
    obtain ⟨line, hline, hsplit⟩ := Text.exists_line text
    have hline' : '\n' ∉ c :: line := List.not_mem_cons_of_ne_of_not_mem (Ne.symm hn) hline
    obtain rfl | ⟨more, rfl⟩ := hsplit
    · rw [uncomment_line hline', hfirst, uncomment_line hline]
    · rw [← List.cons_append, uncomment_line_cons hline', hfirst, uncomment_line_cons hline,
        List.cons_append]

theorem uncomment_append {piece : List Char} (hpiece : '#' ∉ piece) (text : List Char) :
    uncomment (piece ++ text) = piece ++ uncomment text := by
  induction piece with
  | nil => rfl
  | cons c piece ih =>
    obtain ⟨hc, hpiece⟩ := List.ne_and_not_mem_of_not_mem_cons hpiece
    rw [List.cons_append, uncomment_cons (Ne.symm hc), ih hpiece, List.cons_append]

theorem uncomment_comment {body : List Char} (hbody : '\n' ∉ body) (hend : ∀ c ∈ rest.head?, c = '\n') :
    uncomment ('#' :: (body ++ rest)) = uncomment rest := by
  have hline : '\n' ∉ '#' :: body := List.not_mem_cons_of_ne_of_not_mem (by decide) hbody
  cases rest with
  | nil =>
    rw [List.append_nil, uncomment_line hline]
    rfl
  | cons c rest =>
    obtain rfl : c = '\n' := hend c rfl
    rw [← List.cons_append, uncomment_line_cons hline, uncomment_cons (by decide)]
    rfl

theorem head_uncomment (text : List Char) :
    ∀ c ∈ (uncomment text).head?, c ∈ text.head? ∨ c = '\n' := by
  intro d hd
  cases text with
  | nil => cases hd
  | cons c text =>
    by_cases hc : c = '#'
    · subst hc
      obtain ⟨line, hline, rfl | ⟨more, rfl⟩⟩ := Text.exists_line text
      · rw [uncomment_line (List.not_mem_cons_of_ne_of_not_mem (by decide) hline)] at hd
        cases hd
      · rw [uncomment_comment hline (by simp), uncomment_cons (by decide)] at hd
        exact .inr (Option.some.inj hd).symm
    · rw [uncomment_cons hc] at hd
      exact .inl hd

end

theorem layout_uncomment {before other text : List Char} {lexemes : List Lexeme}
    {errors : List LexicalError} (h : Layout before text lexemes errors)
    (hplace : Position.Abreast other before text) : Layout other (uncomment text) lexemes errors := by
  induction h generalizing other with
  | done => exact .done
  | @blank before text lexemes errors c hc _ ih =>
    have hm : c ≠ '#' := by
      rintro rfl
      exact absurd hc (by decide)
    rw [uncomment_cons hm]
    exact .blank hc (ih (Position.abreast_of_eq hplace.concat text))
  | @comment before text lexemes errors body hbody hend _ ih =>
    rw [uncomment_comment hbody hend]
    -- behind a comment the columns differ until the line ends, and there only the line counts
    apply ih
    refine ⟨?_, fun c hc hn => absurd (hend c hc) hn⟩
    have hcount : ('#' :: body).count '\n' = 0 :=
      List.count_eq_zero.2 (List.not_mem_cons_of_ne_of_not_mem (by decide) hbody)
    rw [Position.line_behind_append, hcount, hplace.line]
    omega
  | @refused before text lexemes errors c ho _ ih =>
    obtain ⟨hn, hm⟩ := CharClass.ne_of_other ho
    rw [uncomment_cons hm, ← hplace.place c rfl hn]
    exact .refused ho (ih (Position.abreast_of_eq hplace.concat text))
  | @lexeme before text lexemes errors lexeme hwell hend hposition _ ih =>
    have hm : '#' ∉ lexeme.value.toList := hwell.not_mem_of_class (by decide)
    have hposition' : lexeme.position = .behind other := hposition.trans (hwell.behind_eq hplace).symm
    rw [uncomment_append hm]
    apply Layout.lexeme hwell _ hposition' (ih (hplace.append hwell.toList_ne_nil))
    intro c hc
    obtain hc | rfl := head_uncomment text c hc
    · exact hend c hc
    · exact lexeme.category.not_continues_of_blank (by decide)

/-- A scan finds what it would find without the comments, in the same places, so two texts that differ
in nothing but the bodies of comments are the same to it. -/
theorem Scan.ofText_uncomment (failFast : Bool) (text : String) :
    ofText failFast (String.ofList (uncomment text.toList)) = ofText failFast text ∧
      ∀ other : String, bareLines other.toList = bareLines text.toList →
        ofText failFast other = ofText failFast text := by
  have hsame (text : String) :
      ofText failFast (String.ofList (uncomment text.toList)) = ofText failFast text := by
    apply ofText_congr
    apply ofText_of_layout
    rw [String.toList_ofList]
    exact layout_uncomment (layout_ofText text) (Position.abreast_of_eq rfl _)
  refine ⟨hsame text, ?_⟩
  intro other h
  rw [← hsame text, ← hsame other, uncomment, uncomment, h]

theorem Scan.ofText_uncomment_bodies :
    bareLines "x1#@ $ #\n=>#;\n@ y # z".toList = bareLines "x1#\n=># ## ;\n@ y #@".toList ∧
      ofText true "x1#@ $ #\n=>#;\n@ y # z" = ofText true "x1#\n=># ## ;\n@ y #@" := by
  have h : bareLines "x1#@ $ #\n=>#;\n@ y # z".toList = bareLines "x1#\n=># ## ;\n@ y #@".toList := by
    decide
  exact ⟨h, (ofText_uncomment true _).2 _ h⟩

end Lexicon
