import Lexicon.Proofs.Grammar
import Lexicon.Proofs.Scanner.Loop

namespace Lexicon

def Category.state : Category → State
  | .literal => .digit
  | .separator => .separator
  | .identifier => .identifier
  | .unknown _ => .start

variable {category : Category} {c : Char}

theorem category_state (h : category.begins c = true) :
    category.state.category = some category := by
  cases category with
  | literal | separator | identifier => rfl
  | unknown word => cases h

theorem accepts_state (category : Category) (c : Char) :
    category.state.accepts (.of c) = category.continues c := by
  apply Bool.eq_iff_iff.2
  cases category with
  | literal =>
    rw [Category.continues, ← CharClass.of_eq_digit_iff]
    cases CharClass.of c <;> simp [Category.state, State.accepts]
  | separator =>
    rw [Category.continues, ← CharClass.of_eq_separator_iff]
    cases CharClass.of c <;> simp [Category.state, State.accepts]
  | identifier =>
    rw [Category.continues, Bool.or_eq_true, ← CharClass.of_eq_letter_iff,
      ← CharClass.of_eq_digit_iff]
    cases CharClass.of c <;> simp [Category.state, State.accepts]
  | unknown word => simp [Category.state, State.accepts, Category.continues]

theorem transition_start_of_begins (h : category.begins c = true) :
    transition .start (.of c) = .enter category.state := by
  cases category with
  | literal => rw [CharClass.of_digit h]; rfl
  | separator => rw [CharClass.of_separator h]; rfl
  | identifier => rw [CharClass.of_letter h]; rfl
  | unknown word => cases h

theorem transition_start_of_blank (h : Text.isBlank c = true) :
    transition .start (.of c) = .skip .start := by
  rw [CharClass.of_blank h]
  split <;> rfl

theorem transition_comment (h : c ≠ '\n') : transition .comment (.of c) = .skip .comment := by
  have hn : CharClass.of c ≠ .newline := by
    intro hc
    have hb := CharClass.of_blank (CharClass.isBlank_of (.inl hc))
    rw [hc, if_neg h] at hb
    cases hb
  cases hc : CharClass.of c with
  | newline => exact absurd hc hn
  | digit | letter | separator | commentMarker | whitespace | other => rfl

theorem transition_state {first : Char} (h : category.begins first = true) (c : Char) :
    transition category.state (.of c) =
      if category.continues c then .shift category.state else .emit .start := by
  rw [← accepts_state]
  cases category with
  | literal | separator | identifier => cases CharClass.of c <;> rfl
  | unknown word => cases h

namespace Scanner

structure Stands (scanner : Scanner) (before text : List Char) : Prop where
  rest : scanner.rest = text
  position : scanner.position = .behind before
  state : scanner.state = .start
  buffer : scanner.buffer = ""

structure Builds (scanner : Scanner) (category : Category) (before value text : List Char) :
    Prop where
  rest : scanner.rest = text
  position : scanner.position = .behind (before ++ value)
  state : scanner.state = category.state
  buffer : scanner.buffer.toList = value
  start : scanner.start = .behind before

structure Ignores (scanner : Scanner) (before text : List Char) : Prop where
  rest : scanner.rest = text
  position : scanner.position = .behind before
  state : scanner.state = .comment
  buffer : scanner.buffer = ""

variable {scanner next : Scanner} {before value text : List Char}

theorem goto_of_state {state : State} (h : scanner.state = state) : scanner.goto state = scanner := by
  subst h
  rfl

theorem finish_of_empty (h : scanner.buffer = "") : scanner.finish = scanner.goto .start := by
  simp [finish, h]

theorem position_advance (hrest : scanner.rest = c :: text) (hplace : scanner.position = .behind before) :
    scanner.advance.position = .behind (before ++ [c]) := by
  rw [Position.behind_concat, ← hplace]
  simp only [advance, current?, hrest, List.head?_cons]

theorem stands_advance (hs : scanner.Stands before (c :: text)) :
    scanner.advance.Stands (before ++ [c]) text where
  rest := by simp only [advance, hs.rest, List.tail_cons]
  position := position_advance hs.rest hs.position
  state := hs.state
  buffer := hs.buffer

theorem scansAs_blank (hs : scanner.Stands before (c :: text)) (hc : Text.isBlank c = true) :
    scanner.ScansAs scanner.advance := by
  apply scansAs_of_step
  have ht := transition_start_of_blank hc
  simp only [step, hs.rest, hs.state, ht, goto, advance]

theorem ignores_marker (hs : scanner.Stands before ('#' :: text)) :
    ∃ next, scanner.ScansAs next ∧ next.Ignores (before ++ ['#']) text ∧
      next.lexemes = scanner.lexemes := by
  refine ⟨scanner.advance.goto .comment, ?_, ⟨?_, ?_, rfl, hs.buffer⟩, rfl⟩
  · apply scansAs_of_step
    have ht : transition .start (.of '#') = .skip .comment := by decide
    simp only [step, hs.rest, hs.state, ht]
  · exact (stands_advance hs).rest
  · exact (stands_advance hs).position

theorem ignores_body (body : List Char) (hs : scanner.Ignores before (body ++ text))
    (hbody : '\n' ∉ body) :
    ∃ next, scanner.ScansAs next ∧ next.Ignores (before ++ body) text ∧
      next.lexemes = scanner.lexemes := by
  induction body generalizing scanner before with
  | nil =>
    rw [List.append_nil]
    exact ⟨scanner, .refl scanner, hs, rfl⟩
  | cons c body ih =>
    have hc : c ≠ '\n' := fun h => hbody (List.mem_cons.2 (.inl h.symm))
    have hrest : scanner.rest = c :: (body ++ text) := hs.rest
    have hstep : scanner.step = .ok () (scanner.advance.goto .comment) := by
      simp only [step, hrest, hs.state, transition_comment hc]
    have hnext : (scanner.advance.goto .comment).Ignores (before ++ [c]) (body ++ text) :=
      ⟨by simp only [goto, advance, hrest, List.tail_cons], position_advance hrest hs.position, rfl,
        hs.buffer⟩
    obtain ⟨last, hlast, hi, hl⟩ := ih hnext (fun h => hbody (List.mem_cons_of_mem c h))
    rw [List.append_assoc, List.singleton_append] at hi
    exact ⟨last, (scansAs_of_step hstep).trans hlast, hi, hl⟩

/-- At the end of its line a comment might as well be over. -/
theorem stands_of_ignores (hs : scanner.Ignores before text) (hend : ∀ c ∈ text.head?, c = '\n') :
    scanner.ScansAs (scanner.goto .start) ∧ (scanner.goto .start).Stands before text := by
  refine ⟨?_, hs.rest, hs.position, rfl, hs.buffer⟩
  cases text with
  | nil =>
    intro failFast noted
    have hrest : (scanner.goto .start).rest = [] := hs.rest
    have hbuffer : (scanner.goto .start).buffer = "" := hs.buffer
    rw [scanFrom_end hs.rest, scanFrom_end hrest, finish_of_empty hs.buffer, finish_of_empty hbuffer]
    rfl
  | cons c text =>
    obtain rfl : c = '\n' := hend c rfl
    have ht : transition .comment (.of '\n') = .skip .start := by decide
    have hn : transition .start (.of '\n') = .skip .start := by decide
    have hstep : scanner.step = .ok () (scanner.advance.goto .start) := by
      simp only [step, hs.rest, hs.state, ht]
    have hstep' : (scanner.goto .start).step = .ok () (scanner.advance.goto .start) := by
      simp only [step, goto, hs.rest, hn, advance, current?]
    intro failFast noted
    rw [scansAs_of_step hstep, scansAs_of_step hstep']

theorem scansAs_comment {body : List Char} (hs : scanner.Stands before ('#' :: (body ++ text)))
    (hbody : '\n' ∉ body) (hend : ∀ c ∈ text.head?, c = '\n') :
    ∃ next, scanner.ScansAs next ∧ next.Stands (before ++ '#' :: body) text ∧
      next.lexemes = scanner.lexemes := by
  obtain ⟨first, hfirst, hi, hl⟩ := ignores_marker hs
  obtain ⟨second, hsecond, hi', hl'⟩ := ignores_body body hi hbody
  obtain ⟨hthird, hstands⟩ := stands_of_ignores hi' hend
  rw [List.append_assoc, List.singleton_append] at hstands
  exact ⟨second.goto .start, (hfirst.trans hsecond).trans hthird, hstands, hl'.trans hl⟩

theorem builds_enter (hs : scanner.Stands before (c :: text)) (hc : category.begins c = true) :
    ∃ next, scanner.ScansAs next ∧ next.Builds category before [] (c :: text) ∧
      next.lexemes = scanner.lexemes := by
  refine ⟨{ scanner with start := scanner.position, state := category.state }, ?_,
    ⟨hs.rest, ?_, rfl, ?_, hs.position⟩, rfl⟩
  · apply scansAs_of_step
    simp only [step, hs.rest, hs.state, transition_start_of_begins hc]
  · rw [List.append_nil]
    exact hs.position
  · rw [hs.buffer]
    rfl

theorem builds_shift {first : Char} (hfirst : category.begins first = true) (others : List Char)
    (hs : scanner.Builds category before value (others ++ text))
    (hothers : ∀ c ∈ others, category.continues c = true) :
    ∃ next, scanner.ScansAs next ∧ next.Builds category before (value ++ others) text ∧
      next.lexemes = scanner.lexemes := by
  induction others generalizing scanner value with
  | nil =>
    rw [List.append_nil]
    exact ⟨scanner, .refl scanner, hs, rfl⟩
  | cons c others ih =>
    have hc := hothers c List.mem_cons_self
    have hrest : scanner.rest = c :: (others ++ text) := hs.rest
    have hstep : scanner.step = .ok () ((scanner.shift c).goto category.state) := by
      simp only [step, hrest, hs.state, transition_state hfirst, hc, if_true]
    have hnext : ((scanner.shift c).goto category.state).Builds category before (value ++ [c])
        (others ++ text) := by
      refine ⟨?_, ?_, rfl, ?_, hs.start⟩
      · simp only [goto, shift, advance, hrest, List.tail_cons]
      · rw [← List.append_assoc]
        exact position_advance hrest hs.position
      · simp only [goto, shift, advance, String.toList_push, hs.buffer]
    obtain ⟨last, hlast, hb, hl⟩ := ih hnext (fun d hd => hothers d (List.mem_cons_of_mem c hd))
    rw [List.append_assoc, List.singleton_append] at hb
    exact ⟨last, (scansAs_of_step hstep).trans hlast, hb, hl⟩

theorem stands_of_builds {lexeme : Lexeme} (hwell : lexeme.WellFormed)
    (hs : scanner.Builds lexeme.category before lexeme.value.toList text)
    (hend : lexeme.category.EndsBefore text) (hplace : lexeme.position = .behind before) :
    ∃ next, scanner.ScansAs next ∧ next.Stands (before ++ lexeme.value.toList) text ∧
      next.lexemes = scanner.lexemes.push lexeme := by
  obtain ⟨first, others, hvalue, hfirst, -⟩ := hwell
  have hbuffer : scanner.buffer = lexeme.value := String.toList_inj.1 hs.buffer
  have hlexeme : (⟨scanner.buffer, lexeme.category, scanner.start⟩ : Lexeme) = lexeme := by
    rw [hbuffer, hs.start, ← hplace]
  have hemit : scanner.emit =
      .ok () { scanner with lexemes := scanner.lexemes.push lexeme, buffer := "" } := by
    simp only [emit, hs.state, category_state hfirst, hlexeme]
  -- both ends of the text come to this scanner, one by `finish` and the other by a step
  let next : Scanner :=
    { scanner with lexemes := scanner.lexemes.push lexeme, buffer := "", state := .start }
  refine ⟨next, ?_, ⟨hs.rest, hs.position, rfl, rfl⟩, rfl⟩
  cases text with
  | nil =>
    intro failFast noted
    have hrest : next.rest = [] := hs.rest
    have hne : scanner.buffer.isEmpty = false := by
      rw [hbuffer, ← Bool.not_eq_true, String.isEmpty_iff]
      intro he
      rw [he] at hvalue
      cases hvalue
    have hfinish : scanner.finish = next := by
      simp only [finish, hne, hemit, goto, next, Bool.false_eq_true, if_false]
    have hdone : next.finish = next := finish_of_empty rfl
    rw [scanFrom_end hs.rest, scanFrom_end hrest, hfinish, hdone]
  | cons c text =>
    have hc : lexeme.category.continues c = false := hend c rfl
    apply scansAs_of_step
    simp only [step, hs.rest, hs.state, transition_state hfirst, hc, Bool.false_eq_true, if_false,
      hemit, goto, next]

theorem scansAs_lexeme {lexeme : Lexeme} (hwell : lexeme.WellFormed)
    (hs : scanner.Stands before (lexeme.value.toList ++ text))
    (hend : lexeme.category.EndsBefore text) (hplace : lexeme.position = .behind before) :
    ∃ next, scanner.ScansAs next ∧ next.Stands (before ++ lexeme.value.toList) text ∧
      next.lexemes = scanner.lexemes.push lexeme := by
  obtain ⟨first, others, hvalue, hfirst, hothers⟩ := hwell
  rw [hvalue, List.cons_append] at hs
  obtain ⟨one, hone, hb, hl⟩ := builds_enter hs hfirst
  have hall : ∀ c ∈ first :: others, lexeme.category.continues c = true := by
    intro c hc
    obtain rfl | hc := List.mem_cons.1 hc
    · exact Category.continues_of_begins hfirst
    · exact hothers c hc
  obtain ⟨two, htwo, hb', hl'⟩ := builds_shift hfirst (first :: others) hb hall
  rw [List.nil_append, ← hvalue] at hb'
  obtain ⟨three, hthree, hstands, hl''⟩ :=
    stands_of_builds ⟨first, others, hvalue, hfirst, hothers⟩ hb' hend hplace
  refine ⟨three, (hone.trans htwo).trans hthree, hstands, ?_⟩
  rw [hl'', hl', hl]

theorem refuses (hs : scanner.Stands before (c :: text)) (hc : CharClass.of c = .other) :
    scanner.step = .error (.unexpected (.unexpected c (.behind before))) scanner := by
  have ht : transition .start (.of c) = .fail := by
    rw [hc]
    rfl
  have herror : scanner.error = .unexpected c (.behind before) := by
    simp only [error, current?, hs.rest, List.head?_cons, Option.map_some, hs.position,
      LexicalError.unexpected]
  simp only [step, hs.rest, hs.state, ht, herror]

/-- The scan that goes on in spite of errors finds what the layout of the text says. -/
theorem scanFrom_layout {lexemes : List Lexeme} {errors : List LexicalError}
    (h : Layout before text lexemes errors) (hs : scanner.Stands before text)
    (noted : Array LexicalError) :
    ∃ last, scanner.scanFrom false noted = (noted ++ errors.toArray, last) ∧
      last.lexemes = scanner.lexemes ++ lexemes.toArray ∧ last.Stands (before ++ text) [] := by
  induction h generalizing scanner noted with
  | done =>
    refine ⟨scanner, ?_, by simp, by simpa using hs⟩
    rw [scanFrom_end hs.rest, finish_of_empty hs.buffer, goto_of_state hs.state]
    simp
  | blank hc _ ih =>
    obtain ⟨last, hscan, hl, hlast⟩ := ih (stands_advance hs) noted
    refine ⟨last, ?_, hl, by simpa using hlast⟩
    rw [scansAs_blank hs hc, hscan]
  | comment hbody hend _ ih =>
    obtain ⟨next, hnext, hstands, hl⟩ := scansAs_comment hs hbody hend
    obtain ⟨last, hscan, hl', hlast⟩ := ih hstands noted
    refine ⟨last, ?_, by rw [hl', hl], by simpa using hlast⟩
    rw [hnext, hscan]
  | @refused before text lexemes errors c hc _ ih =>
    obtain ⟨last, hscan, hl, hlast⟩ :=
      ih (stands_advance hs) (noted.push (.unexpected c (.behind before)))
    refine ⟨last, ?_, hl, by simpa using hlast⟩
    rw [scanFrom_of_unexpected (refuses hs hc), hscan]
    simp
  | lexeme hwell hend hplace _ ih =>
    obtain ⟨next, hnext, hstands, hl⟩ := scansAs_lexeme hwell hs hend hplace
    obtain ⟨last, hscan, hl', hlast⟩ := ih hstands noted
    refine ⟨last, ?_, by rw [hl', hl]; simp, by simpa using hlast⟩
    rw [hnext, hscan]

end Scanner

end Lexicon
