import Lexicon.Proofs.Mending
import Lexicon.Proofs.Session.Atomicity
import Lexicon.Proofs.Session.Undefined

namespace Lexicon.Session

variable {session : Session} {before piece rest mended text : List Char} {lexemes : List Lexeme}
  {errors reported : List LexicalError} {error : LexicalError}

theorem names_undefined {lexeme : Lexeme} (hwell : lexeme.WellFormed)
    (hplace : lexeme.position = .behind before) :
    (LexicalError.undefined lexeme).Names before lexeme.value.toList where
  place := hplace
  line := hwell.not_mem_of_class (by decide)
  extent := rfl

/-- What is reported of a text is about what its layout still has, or else about nothing that is
left of the text. -/
def Concerns (session : Session) (reported : List LexicalError) (before : List Char)
    (lexemes : List Lexeme) (errors : List LexicalError) : Prop :=
  ∀ error ∈ reported, error ∈ errors ++ session.undefined lexemes ∨ error.Spent before

theorem Concerns.append (h : session.Concerns reported before lexemes errors) (piece : List Char) :
    session.Concerns reported (before ++ piece) lexemes errors :=
  fun error hm => (h error hm).imp_right fun hs => hs.append piece

theorem Concerns.settle {lexemes' : List Lexeme} {errors' : List LexicalError}
    (h : session.Concerns reported before lexemes errors) (hnames : error.Names before piece)
    (hsplit : ∀ other, other ∈ errors ++ session.undefined lexemes ↔
      other = error ∨ other ∈ errors' ++ session.undefined lexemes') :
    session.Concerns reported (before ++ piece) lexemes' errors' := by
  intro other hm
  obtain hm | hs := h other hm
  · obtain rfl | hm := (hsplit other).1 hm
    · exact .inr hnames.spent
    · exact .inl hm
  · exact .inr (hs.append piece)

theorem mem_concern_of_lacks {lexeme : Lexeme} (h : session.Lacks lexeme) (other : LexicalError) :
    other ∈ errors ++ session.undefined (lexeme :: lexemes) ↔
      other = .undefined lexeme ∨ other ∈ errors ++ session.undefined lexemes := by
  rw [undefined_cons_of_lacks h, List.mem_append, List.mem_cons, List.mem_append, or_left_comm]

theorem position_of_concern (h : Layout before text lexemes errors)
    (hm : error ∈ errors ++ session.undefined lexemes) :
    ∃ passed, error.position = .behind (before ++ passed) := by
  apply h.positions
  rw [List.mem_append]
  obtain hm | hm := List.mem_append.1 hm
  · exact .inl (List.mem_map_of_mem hm)
  · obtain ⟨lexeme, hl, rfl⟩ := List.mem_map.1 hm
    exact .inr (List.mem_map.2 ⟨lexeme, (List.mem_filter.1 hl).1, rfl⟩)

theorem mend_of_concerns (h : Layout (before ++ piece) rest lexemes errors)
    (hc : session.Concerns reported before lexemes errors) :
    mend reported before (piece ++ rest) = piece ++ mend reported (before ++ piece) rest := by
  have huntouched : Untouched reported before piece := by
    intro passed c more hpiece error hm
    obtain hm | hs := hc error hm
    · obtain ⟨ahead, hplace⟩ := position_of_concern h hm
      have hplace' : error.position = .behind (before ++ passed ++ c :: (more ++ ahead)) := by
        rw [hplace, hpiece]
        simp
      exact LexicalError.not_covers_of_ahead hplace'
    · exact hs passed
  rw [mend_append, mend_of_untouched huntouched]

/-- The text goes on as the other does, or with a blank where the other does not end a line. -/
def Resembles (mended text : List Char) : Prop :=
  ∀ c ∈ mended.head?, c ∈ text.head? ∨ c = ' ' ∧ ∃ d ∈ text.head?, d ≠ '\n'

theorem endsBefore_of_resembles {category : Category} (h : Resembles mended text)
    (hend : category.EndsBefore text) : category.EndsBefore mended := by
  intro c hc
  obtain ht | ⟨rfl, -⟩ := h c hc
  · exact hend c ht
  · exact category.not_continues_of_blank (by decide)

theorem lineEnd_of_resembles (h : Resembles mended text) (hend : ∀ c ∈ text.head?, c = '\n') :
    ∀ c ∈ mended.head?, c = '\n' := by
  intro c hc
  obtain ht | ⟨-, d, hd, hn⟩ := h c hc
  · exact hend c ht
  · exact absurd (hend d hd) hn

theorem layout_of_named {first : Char} {others : List Char} (hm : error ∈ reported)
    (hnames : error.Names before (first :: others))
    (h : Layout (mended ++ List.replicate (first :: others).length ' ')
      (mend reported (before ++ first :: others) rest) lexemes []) :
    Layout mended (mend reported before (first :: others ++ rest)) lexemes [] ∧
      Resembles (mend reported before (first :: others ++ rest)) (first :: others ++ rest) := by
  rw [mend_of_named hm hnames]
  refine ⟨.blanks _ h, ?_⟩
  intro d hd
  cases hd
  exact .inr ⟨rfl, first, rfl, fun hn => hnames.line (hn ▸ List.mem_cons_self)⟩

/-- The mended text is laid out as the text is, but for what is reported. -/
theorem layout_mend (h : Layout before text lexemes errors)
    (hc : session.Concerns reported before lexemes errors)
    (hall : ∀ error ∈ errors ++ session.undefined lexemes, error ∈ reported)
    (hplace : Position.behind mended = .behind before) :
    Layout mended (mend reported before text) (lexemes.filter (¬ session.Lacks ·)) [] ∧
      Resembles (mend reported before text) text := by
  induction h generalizing mended with
  | done => exact ⟨.done, nofun⟩
  | @blank before rest lexemes errors c hb h ih =>
    obtain ⟨hl, -⟩ := ih (hc.append [c]) hall (Position.behind_append_congr hplace [c])
    have hm : mend reported before (c :: rest) = c :: mend reported (before ++ [c]) rest :=
      mend_of_concerns h hc
    rw [hm]
    exact ⟨.blank hb hl, fun d hd => .inl hd⟩
  | @comment before rest lexemes errors body hbody hend h ih =>
    obtain ⟨hl, hr⟩ := ih (hc.append ('#' :: body)) hall (Position.behind_append_congr hplace ('#' :: body))
    have hm : mend reported before ('#' :: (body ++ rest)) =
        '#' :: (body ++ mend reported (before ++ '#' :: body) rest) := mend_of_concerns h hc
    rw [hm]
    exact ⟨.comment hbody (lineEnd_of_resembles hr hend) hl, fun d hd => .inl hd⟩
  -- only here and at a lexeme that lacks its separator is a piece reported and blanked
  | @refused before rest lexemes errors c ho h ih =>
    have hnames := LexicalError.names_unexpected ho before
    have hsplit (other : LexicalError) :
        other ∈ .unexpected c (.behind before) :: errors ++ session.undefined lexemes ↔
          other = .unexpected c (.behind before) ∨ other ∈ errors ++ session.undefined lexemes :=
      List.mem_cons
    obtain ⟨hl, -⟩ := ih (hc.settle hnames hsplit)
      (fun other ho => hall other (List.mem_cons_of_mem _ ho))
      (Position.behind_append_blanks hplace hnames.line)
    exact layout_of_named (hall _ List.mem_cons_self) hnames hl
  | @lexeme before rest lexemes errors lexeme hwell hend hposition h ih =>
    obtain ⟨first, others, hvalue⟩ := List.exists_cons_of_ne_nil hwell.toList_ne_nil
    by_cases hlacks : session.Lacks lexeme
    · have hnames := names_undefined hwell hposition
      have hsplit (other : LexicalError) :
          other ∈ errors ++ session.undefined (lexeme :: lexemes) ↔
            other = .undefined lexeme ∨ other ∈ errors ++ session.undefined lexemes :=
        mem_concern_of_lacks hlacks other
      obtain ⟨hl, -⟩ := ih (hc.settle hnames hsplit)
        (fun other ho => hall other ((hsplit other).2 (.inr ho)))
        (Position.behind_append_blanks hplace hnames.line)
      rw [List.filter_cons_of_neg (by simpa using hlacks)]
      rw [hvalue] at hnames hl ⊢
      exact layout_of_named (hall _ ((hsplit _).2 (.inl rfl))) hnames hl
    · rw [Concerns, undefined_cons_of_has hlacks] at hc
      rw [undefined_cons_of_has hlacks] at hall
      obtain ⟨hl, hr⟩ := ih (Concerns.append hc _) hall
        (Position.behind_append_congr hplace lexeme.value.toList)
      rw [mend_of_concerns h hc, List.filter_cons_of_pos (by simpa using hlacks)]
      refine ⟨.lexeme hwell (endsBefore_of_resembles hr hend) (hposition.trans hplace.symm) hl, ?_⟩
      rw [hvalue]
      exact fun d hd => .inl hd

theorem separators_classify (session : Session) (failFast : Bool) (lexemes : List Lexeme) :
    (session.classify failFast lexemes).2.separators = session.separators := by
  have hsettles := session.settles_classify failFast lexemes
  generalize session.classify failFast lexemes = outcome at hsettles ⊢
  cases hsettles with
  | fault | errors => rfl
  | accepted hrun => exact (extends_of_accepted hrun).separators

theorem separators_diagnose (session : Session) (text : String) :
    (session.diagnose text).2.separators = session.separators := by
  obtain hs | ⟨lexemes, hs⟩ := session_diagnose session text
  · rw [hs]
  · rw [hs, separators_classify]

theorem result_analyze_mend (session : Session) (text : String) :
    (session.analyze (String.ofList (mend (session.errorsIn text) [] text.toList))).1 =
      .ok ((Scan.ofText false text).lexemes.filter (¬ session.Lacks ·)) := by
  have hc : session.Concerns (session.errorsIn text) [] (Scan.ofText false text).lexemes
      (Scan.ofText false text).errors := fun _ hm => .inl hm
  obtain ⟨hl, -⟩ := layout_mend (Scan.layout_ofText text) hc (fun _ hm => hm) rfl
  rw [← String.toList_ofList (l := mend _ _ _)] at hl
  have hscan := Scan.ofText_of_layout hl
  have he : session.errorsIn (String.ofList (mend (session.errorsIn text) [] text.toList)) = [] := by
    rw [errorsIn, hscan, List.nil_append, undefined_eq_nil]
    intro lexeme hm
    simpa using (List.mem_filter.1 hm).2
  rw [result_analyze, he, hscan]

/-- Who puts blanks for all that is reported of a text has nothing left to put right: the text is then
accepted, with the lexemes that it had but for the separators that are not defined, in their places. And
nothing is reported of a text just if it is accepted. -/
theorem analyze_mended (session : Session) (text : String) :
    ∃ diagnosis later, session.diagnose text = (.ok diagnosis, later) ∧
      let mended := String.ofList (mend diagnosis.errors [] text.toList)
      let kept := diagnosis.lexemes.filter (¬ session.Lacks ·)
      (session.analyze mended).1 = .ok kept ∧ (later.analyze mended).1 = .ok kept ∧
        (diagnosis.errors = [] ↔ ∃ lexemes, (session.analyze text).1 = .ok lexemes) := by
  have hlater : (session.diagnose text).2.separators.toList = session.separators.toList := by
    rw [separators_diagnose]
  refine ⟨_, _, Prod.ext (result_diagnose session text) rfl, result_analyze_mend session text, ?_, ?_⟩
  · rw [result_analyze_of_separators hlater]
    exact result_analyze_mend session text
  · rw [result_analyze]
    cases he : session.errorsIn text with
    | nil => exact ⟨fun _ => ⟨_, rfl⟩, fun _ => rfl⟩
    | cons error errors => exact ⟨nofun, nofun⟩

end Lexicon.Session
