import Mathlib.Data.List.Basic
import Lexicon.Proofs.Scan.Exact
import Lexicon.Proofs.Scan.FailFast

namespace Lexicon

section

variable {before text : List Char} {lexemes : List Lexeme} {errors : List LexicalError}
  {error : LexicalError}

theorem Layout.not_precedes (h : Layout before text lexemes errors) :
    ∀ lexeme ∈ lexemes, ¬ lexeme.position.Precedes (.behind before) := by
  intro lexeme hm
  obtain ⟨passed, hplace⟩ := h.positions lexeme.position
    (List.mem_append.2 (.inr (List.mem_map_of_mem hm)))
  rw [hplace]
  by_cases hp : passed = []
  · rw [hp, List.append_nil]
    exact Position.not_precedes_self _
  · exact Position.not_precedes_of_precedes (Position.precedes_behind before hp)

theorem Layout.precedes_errors {lexeme : Lexeme} (hwell : lexeme.WellFormed)
    (hplace : lexeme.position = .behind before)
    (h : Layout (before ++ lexeme.value.toList) text lexemes errors) :
    ∀ error ∈ errors, lexeme.position.Precedes error.position := by
  intro error hm
  obtain ⟨passed, herror⟩ := h.positions error.position
    (List.mem_append.2 (.inl (List.mem_map_of_mem hm)))
  rw [herror, hplace, List.append_assoc]
  apply Position.precedes_behind
  exact List.append_ne_nil_of_left_ne_nil hwell.toList_ne_nil passed

theorem Layout.filter_precedes_behind (h : Layout before text lexemes errors) :
    lexemes.filter (·.position.Precedes (.behind before)) = [] := by
  apply List.filter_eq_nil_iff.2
  intro lexeme hm hp
  exact h.not_precedes lexeme hm (of_decide_eq_true hp)

/-- Up to the first error a text is laid out without any, in the lexemes that stand before it. -/
theorem Layout.exists_before_error (h : Layout before text lexemes (error :: errors)) :
    ∃ piece c rest, text = piece ++ c :: rest ∧ CharClass.of c = .other ∧
      error = .unexpected c (.behind (before ++ piece)) ∧
      Layout before piece (lexemes.filter (·.position.Precedes error.position)) [] := by
  generalize herrors : error :: errors = found at h
  induction h with
  | done => cases herrors
  | @blank before text lexemes _ b hb _ ih =>
    obtain ⟨piece, c, rest, rfl, ho, herror, hpiece⟩ := ih herrors
    refine ⟨b :: piece, c, rest, rfl, ho, ?_, .blank hb hpiece⟩
    rw [herror, List.append_assoc, List.singleton_append]
  | @comment before text lexemes _ body hbody hend _ ih =>
    obtain ⟨piece, c, rest, rfl, ho, herror, hpiece⟩ := ih herrors
    have hend' : ∀ d ∈ piece.head?, d = '\n' :=
      fun d hd => hend d (List.mem_head?_append_of_mem_head? hd)
    refine ⟨'#' :: (body ++ piece), c, rest, ?_, ho, ?_, .comment hbody hend' hpiece⟩
    · rw [List.cons_append, List.append_assoc]
    · rw [herror, List.append_assoc, List.cons_append]
  | @refused before text lexemes _ c ho h =>
    cases herrors
    refine ⟨[], c, text, rfl, ho, by rw [List.append_nil], ?_⟩
    rw [LexicalError.unexpected, (Layout.refused ho h).filter_precedes_behind]
    exact .done
  | @lexeme before text lexemes _ lexeme hwell hend hplace h ih =>
    obtain ⟨piece, c, rest, rfl, ho, herror, hpiece⟩ := ih herrors
    -- the filter keeps the lexeme, as it stands before all errors of the text behind it
    have hp := h.precedes_errors hwell hplace error (herrors ▸ List.mem_cons_self)
    have hend' : lexeme.category.EndsBefore piece :=
      fun d hd => hend d (List.mem_head?_append_of_mem_head? hd)
    refine ⟨lexeme.value.toList ++ piece, c, rest, ?_, ho, ?_, ?_⟩
    · rw [List.append_assoc]
    · rw [herror, List.append_assoc]
    · rw [List.filter_cons_of_pos (by simpa using hp)]
      exact .lexeme hwell hend' hplace hpiece

theorem Scanner.scanFrom_first_error {scanner : Scanner}
    (h : Layout before text lexemes (error :: errors)) (hs : scanner.Stands before text)
    (noted : Array LexicalError) :
    ∃ last, scanner.scanFrom true noted = (noted.push error, last) ∧
      last.lexemes = scanner.lexemes ++
        (lexemes.filter (·.position.Precedes error.position)).toArray := by
  generalize herrors : error :: errors = found at h
  induction h generalizing scanner with
  | done => cases herrors
  | blank hc _ ih =>
    rw [scansAs_blank hs hc]
    exact ih (stands_advance hs) herrors
  | comment hbody hend _ ih =>
    obtain ⟨next, hnext, hstands, hl⟩ := scansAs_comment hs hbody hend
    rw [hnext, ← hl]
    exact ih hstands herrors
  | @refused before text lexemes _ c ho h =>
    cases herrors
    refine ⟨scanner, scanFrom_stops (refuses hs ho) noted, ?_⟩
    rw [LexicalError.unexpected, (Layout.refused ho h).filter_precedes_behind]
    rfl
  | lexeme hwell hend hplace h ih =>
    obtain ⟨next, hnext, hstands, hl⟩ := scansAs_lexeme hwell hs hend hplace
    obtain ⟨last, hscan, hlast⟩ := ih hstands herrors
    have hp := h.precedes_errors hwell hplace error (herrors ▸ List.mem_cons_self)
    refine ⟨last, by rw [hnext, hscan], ?_⟩
    rw [hlast, hl, List.filter_cons_of_pos (by simpa using hp)]
    simp

end

namespace Scan

theorem ofText_failFast_eq (text : String) :
    ofText true text = match (ofText false text).errors with
      | [] => ofText false text
      | error :: _ =>
        ⟨(ofText false text).lexemes.filter (·.position.Precedes error.position), [error]⟩ := by
  cases he : (ofText false text).errors with
  | nil => exact ofText_failFast he
  | cons error errors =>
    have hlayout := layout_ofText text
    rw [he] at hlayout
    obtain ⟨last, hscan, hl⟩ := Scanner.scanFrom_first_error hlayout (stands_ofText text) #[]
    have hlexemes : last.lexemes.toList =
        (ofText false text).lexemes.filter (·.position.Precedes error.position) := by
      rw [hl]
      simp [Scanner.ofText]
    have hstopped : ofText true text = ⟨last.lexemes.toList, [error]⟩ := by
      simp [ofText, Scanner.scan, hscan]
    rw [hstopped, hlexemes]

theorem ofText_congr {text other : String} (h : ofText false text = ofText false other)
    (failFast : Bool) : ofText failFast text = ofText failFast other := by
  cases failFast with
  | false => exact h
  | true => rw [ofText_failFast_eq, ofText_failFast_eq, h]

/-- The scan that fails fast finds what there is to find before the first error, as if the text ended
there. A lexeme that the refused character ends is among it. -/
theorem ofText_failFast_prefix (text : String) :
    let stopped := ofText true text
    let whole := ofText false text
    stopped.ok = whole.ok ∧
      match whole.errors with
      | [] => stopped.lexemes = whole.lexemes ∧ Lexeme.ofText text = .ok whole.lexemes
      | error :: _ =>
        stopped.errors = [error] ∧ Lexeme.ofText text = .error error ∧
          stopped.lexemes = whole.lexemes.filter (·.position.Precedes error.position) ∧
          ∃ k c, text.toList[k]? = some c ∧ CharClass.of c = .other ∧
            error = .unexpected c (.behind (text.toList.take k)) ∧
            Lexeme.ofText (String.ofList (text.toList.take k)) = .ok stopped.lexemes := by
  intro stopped whole
  have hstopped := ofText_failFast_eq text
  have hstrict := Lexeme.ofText_eq text
  have hlayout := layout_ofText text
  cases he : whole.errors with
  | nil =>
    have hsame : stopped = whole := ofText_failFast he
    rw [he] at hstrict
    exact ⟨by rw [hsame], by rw [hsame], hstrict⟩
  | cons error errors =>
    have hstop : stopped =
        ⟨whole.lexemes.filter (·.position.Precedes error.position), [error]⟩ := by
      rw [he] at hstopped
      exact hstopped
    rw [he] at hstrict hlayout
    obtain ⟨piece, c, rest, htext, ho, herror, hpiece⟩ := hlayout.exists_before_error
    have htake : text.toList.take piece.length = piece := by rw [htext, List.take_left]
    have hprefix : Layout [] (String.ofList piece).toList stopped.lexemes [] := by
      rw [String.toList_ofList, hstop]
      exact hpiece
    refine ⟨?_, by rw [hstop], hstrict, by rw [hstop], piece.length, c, ?_, ho, ?_, ?_⟩
    · rw [hstop, ok, ok, he]
      rfl
    · rw [htext, List.getElem?_append_right (Nat.le_refl _), Nat.sub_self, List.getElem?_cons_zero]
    · rw [htake, herror, List.nil_append]
    · rw [htake, Lexeme.ofText_eq_ok]
      exact ofText_of_layout hprefix

end Scan

end Lexicon
