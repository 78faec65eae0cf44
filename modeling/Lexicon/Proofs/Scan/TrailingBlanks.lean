import Lexicon.Proofs.Scan.FirstError

namespace Lexicon

def Inline (blanks : List Char) : Prop :=
  ∀ c ∈ blanks, Text.isBlank c = true ∧ c ≠ '\n'

/-- The second text is the first with blanks put in before line ends and at the end. -/
inductive Padded : List Char → List Char → Prop
  | last {blanks : List Char} (hblanks : Inline blanks) : Padded [] blanks
  | char {text padded : List Char} (c : Char) (h : Padded text padded) :
      Padded (c :: text) (c :: padded)
  | lineEnd {blanks text padded : List Char} (hblanks : Inline blanks) (h : Padded text padded) :
      Padded ('\n' :: text) (blanks ++ '\n' :: padded)

def withReturns (text : List Char) : List Char :=
  text.flatMap fun c => if c = '\n' then ['\r', '\n'] else [c]

section

variable {blanks text padded : List Char}

theorem Inline.blank (h : Inline blanks) : ∀ c ∈ blanks, Text.isBlank c = true :=
  fun c hc => (h c hc).1

theorem Inline.newline_not_mem (h : Inline blanks) : '\n' ∉ blanks :=
  fun hn => (h '\n' hn).2 rfl

namespace Padded

theorem of_withReturns (text : List Char) : Padded text (withReturns text) := by
  induction text with
  | nil => exact .last nofun
  | cons c text ih =>
    rw [withReturns, List.flatMap_cons, ← withReturns]
    by_cases hc : c = '\n'
    · have hreturn : Inline ['\r'] := List.forall_mem_singleton.2 (by decide)
      rw [hc, if_pos rfl]
      exact .lineEnd hreturn ih
    · rw [if_neg hc]
      exact .char c ih

theorem of_append {piece : List Char} (hpiece : '\n' ∉ piece) (h : Padded (piece ++ text) padded) :
    ∃ rest, padded = piece ++ rest ∧ Padded text rest := by
  induction piece generalizing padded with
  | nil => exact ⟨padded, rfl, h⟩
  | cons c piece ih =>
    obtain ⟨hc, hpiece⟩ := List.ne_and_not_mem_of_not_mem_cons hpiece
    rw [List.cons_append] at h
    cases h with
    | char _ h =>
      obtain ⟨rest, rfl, hrest⟩ := ih hpiece h
      exact ⟨rest, rfl, hrest⟩
    | lineEnd _ _ => exact absurd rfl hc

theorem exists_blanks (h : Padded text padded) (hend : ∀ c ∈ text.head?, c = '\n') :
    ∃ blanks rest, padded = blanks ++ rest ∧ Inline blanks ∧ Padded text rest ∧
      ∀ c ∈ rest.head?, c = '\n' := by
  cases h with
  | last hblanks => exact ⟨padded, [], (List.append_nil _).symm, hblanks, .last nofun, nofun⟩
  | char c h =>
    obtain rfl : c = '\n' := hend c rfl
    exact ⟨[], _, rfl, nofun, .char '\n' h, by simp⟩
  | lineEnd hblanks h => exact ⟨_, _, rfl, hblanks, .char '\n' h, by simp⟩

theorem head (h : Padded text padded) :
    ∀ c ∈ padded.head?, c ∈ text.head? ∨ Text.isBlank c = true := by
  intro d hd
  cases h with
  | last hblanks => exact .inr (hblanks.blank d (List.mem_of_mem_head? hd))
  | char c h => exact .inl hd
  | @lineEnd blanks text padded hblanks h =>
    cases blanks with
    | nil => exact .inl hd
    | cons b blanks => exact .inr (hblanks.blank d (List.mem_of_mem_head? hd))

end Padded

theorem Position.Abreast.inline {other before : List Char} (h : Position.Abreast other before text)
    (hblanks : Inline blanks) (hend : ∀ c ∈ text.head?, c = '\n') :
    Position.Abreast (other ++ blanks) before text := by
  refine ⟨?_, fun c hc hn => absurd (hend c hc) hn⟩
  rw [Position.line_behind_append, List.count_eq_zero.2 hblanks.newline_not_mem, h.line]
  omega

end

/-- The padded text is laid out as the text itself. -/
theorem layout_padded {before other text padded : List Char} {lexemes : List Lexeme}
    {errors : List LexicalError} (h : Layout before text lexemes errors) (hpadded : Padded text padded)
    (hplace : Position.Abreast other before text) : Layout other padded lexemes errors := by
  induction h generalizing other padded with
  | done =>
    cases hpadded with
    | last hblanks =>
      have hgap : Layout other (padded ++ []) [] [] := .gap hblanks.blank .done
      rwa [List.append_nil] at hgap
  | @blank before text lexemes errors c hc _ ih =>
    cases hpadded with
    | char _ hpadded => exact .blank hc (ih hpadded (Position.abreast_of_eq hplace.concat text))
    | @lineEnd blanks _ padded hblanks hpadded =>
      have hplace' := hplace.inline hblanks (by simp)
      exact .gap hblanks.blank (.blank hc (ih hpadded (Position.abreast_of_eq hplace'.concat text)))
  | @comment before text lexemes errors body hbody hend _ ih =>
    have hline : '\n' ∉ '#' :: body := List.not_mem_cons_of_ne_of_not_mem (by decide) hbody
    rw [← List.cons_append] at hpadded hplace
    obtain ⟨rest, rfl, hrest⟩ := hpadded.of_append hline
    obtain ⟨blanks, rest, rfl, hblanks, hpadded', hend'⟩ := hrest.exists_blanks hend
    -- the comment takes in the blanks behind it
    have hbody' : '\n' ∉ body ++ blanks := by
      rw [List.mem_append, not_or]
      exact ⟨hbody, hblanks.newline_not_mem⟩
    have hplace' := (hplace.append (List.cons_ne_nil '#' body)).inline hblanks hend
    rw [List.cons_append, ← List.append_assoc body]
    apply Layout.comment hbody' hend'
    apply ih hpadded'
    rwa [List.append_assoc, List.cons_append] at hplace'
  | @refused before text lexemes errors c ho _ ih =>
    obtain ⟨hn, -⟩ := CharClass.ne_of_other ho
    have hline : '\n' ∉ [c] := List.not_mem_cons_of_ne_of_not_mem (Ne.symm hn) List.not_mem_nil
    rw [← List.singleton_append] at hpadded
    obtain ⟨rest, rfl, hpadded'⟩ := hpadded.of_append hline
    rw [← hplace.place c rfl hn]
    exact .refused ho (ih hpadded' (Position.abreast_of_eq hplace.concat text))
  | @lexeme before text lexemes errors lexeme hwell hend hposition _ ih =>
    obtain ⟨rest, rfl, hpadded'⟩ := hpadded.of_append (hwell.not_mem_of_class (by decide))
    have hposition' : lexeme.position = .behind other :=
      hposition.trans (hwell.behind_eq hplace).symm
    apply Layout.lexeme hwell _ hposition' (ih hpadded' (hplace.append hwell.toList_ne_nil))
    intro c hc
    obtain hc | hblank := hpadded'.head c hc
    · exact hend c hc
    · exact lexeme.category.not_continues_of_blank hblank

/-- Blanks before line ends and at the end of a text are invisible to a scan. In particular, to put a
carriage return before each line end changes nothing. -/
theorem Scan.ofText_padded (failFast : Bool) (text : String) :
    ofText failFast (String.ofList (withReturns text.toList)) = ofText failFast text ∧
      ∀ other : String, Padded text.toList other.toList →
        ofText failFast other = ofText failFast text := by
  have hsame (other : String) (h : Padded text.toList other.toList) :
      ofText failFast other = ofText failFast text := by
    apply ofText_congr
    apply ofText_of_layout
    exact layout_padded (layout_ofText text) h (Position.abreast_of_eq rfl _)
  refine ⟨hsame _ ?_, hsame⟩
  rw [String.toList_ofList]
  exact .of_withReturns text.toList

theorem Scan.ofText_padded_lines :
    Padded "x1# a\n\n@ =>\n7".toList "x1# a \t\n\r\n@ =>\u00a0\n7\r ".toList ∧
      ofText true "x1# a \t\n\r\n@ =>\u00a0\n7\r " = ofText true "x1# a\n\n@ =>\n7" := by
  have h : Padded "x1# a\n\n@ =>\n7".toList "x1# a \t\n\r\n@ =>\u00a0\n7\r ".toList := by
    have hlast : Inline ['\r', ' '] :=
      List.forall_mem_cons.2 ⟨by decide, List.forall_mem_singleton.2 (by decide)⟩
    have hthird : Inline ['\u00a0'] := List.forall_mem_singleton.2 (by decide)
    have hsecond : Inline ['\r'] := List.forall_mem_singleton.2 (by decide)
    have hfirst : Inline [' ', '\t'] :=
      List.forall_mem_cons.2 ⟨by decide, List.forall_mem_singleton.2 (by decide)⟩
    have hpadded := Padded.lineEnd hsecond <| .char '@' <| .char ' ' <| .char '=' <| .char '>' <|
      .lineEnd hthird <| .char '7' <| .last hlast
    exact .char 'x' <| .char '1' <| .char '#' <| .char ' ' <| .char 'a' <| .lineEnd hfirst hpadded
  exact ⟨h, (ofText_padded true _).2 _ h⟩

end Lexicon
