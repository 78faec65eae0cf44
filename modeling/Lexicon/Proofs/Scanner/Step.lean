import Lexicon.Scan

namespace Lexicon.Scanner

variable {scanner next same : Scanner} {c : Char} {rest : List Char}

def flushed (scanner : Scanner) (category : Category) : Scanner :=
  { scanner with
    lexemes := scanner.lexemes.push ⟨scanner.buffer, category, scanner.start⟩
    buffer := "" }

/-- What a step may do at a character, one way for each kind of transition but the refusal. -/
inductive Moves (scanner : Scanner) (c : Char) : Scanner → Prop
  | skip {state : State} (h : scanner.state.category = none) (hs : state.category = none) :
      Moves scanner c (scanner.advance.goto state)
  | shift (h : scanner.state.accepts (.of c) = true) : Moves scanner c (scanner.shift c)
  | enter {state : State} (h : scanner.state = .start)
      (ht : transition .start (.of c) = .enter state) :
      Moves scanner c { scanner with start := scanner.position, state }
  | emit {category : Category} (h : scanner.state.category = some category)
      (hs : scanner.state.accepts (.of c) = false) :
      Moves scanner c ((scanner.flushed category).goto .start)

theorem shift_goto (scanner : Scanner) (c : Char) :
    (scanner.shift c).goto scanner.state = scanner.shift c := by
  rfl

theorem transition_of_start (c : Char) :
    (∃ state : State, state.category = none ∧ transition .start (.of c) = .skip state) ∨
      (∃ state : State, transition .start (.of c) = .enter state) ∨
      CharClass.of c = .other := by
  cases CharClass.of c with
  | digit => exact .inr (.inl ⟨.digit, rfl⟩)
  | letter => exact .inr (.inl ⟨.identifier, rfl⟩)
  | separator => exact .inr (.inl ⟨.separator, rfl⟩)
  | commentMarker => exact .inl ⟨.comment, rfl, rfl⟩
  | newline | whitespace => exact .inl ⟨.start, rfl, rfl⟩
  | other => exact .inr (.inr rfl)

theorem transition_of_comment (c : Char) :
    ∃ state : State, state.category = none ∧ transition .comment (.of c) = .skip state := by
  cases CharClass.of c with
  | newline => exact ⟨.start, rfl, rfl⟩
  | digit | letter | separator | commentMarker | whitespace | other => exact ⟨.comment, rfl, rfl⟩

theorem transition_of_category {state : State} {category : Category}
    (h : state.category = some category) (c : Char) :
    transition state (.of c) = if state.accepts (.of c) then .shift state else .emit .start := by
  cases state with
  | start | comment => cases h
  | digit | separator | identifier => cases CharClass.of c <;> rfl

theorem step_of_current (hrest : scanner.rest = c :: rest) :
    (∃ next, scanner.step = .ok () next ∧ scanner.Moves c next) ∨
      scanner.state = .start ∧ CharClass.of c = .other ∧
        scanner.step = .error (.unexpected scanner.error) scanner := by
  cases hcategory : scanner.state.category with
  | some category =>
    have ht := transition_of_category hcategory c
    refine .inl ?_
    cases ha : scanner.state.accepts (.of c) with
    | true =>
      refine ⟨scanner.shift c, ?_, .shift ha⟩
      simp only [step, hrest, ht, ha, if_true, shift_goto]
    | false =>
      refine ⟨(scanner.flushed category).goto .start, ?_, .emit hcategory ha⟩
      simp only [step, hrest, ht, ha, Bool.false_eq_true, if_false, Scanner.emit, hcategory, flushed]
  | none =>
    cases hstate : scanner.state with
    | digit | separator | identifier =>
      rw [hstate] at hcategory
      cases hcategory
    | start =>
      obtain ⟨state, hs, ht⟩ | ⟨state, ht⟩ | ho := transition_of_start c
      · refine .inl ⟨scanner.advance.goto state, ?_, .skip hcategory hs⟩
        simp only [step, hrest, hstate, ht]
      · refine .inl ⟨_, ?_, .enter hstate ht⟩
        simp only [step, hrest, hstate, ht]
      · refine .inr ⟨rfl, ho, ?_⟩
        have ht : transition .start .other = .fail := rfl
        simp only [step, hrest, hstate, ho, ht]
    | comment =>
      obtain ⟨state, hs, ht⟩ := transition_of_comment c
      refine .inl ⟨scanner.advance.goto state, ?_, .skip hcategory hs⟩
      simp only [step, hrest, hstate, ht]

theorem step_of_end (hrest : scanner.rest = []) : scanner.step = .error .endOfText scanner := by
  simp only [step, hrest]

theorem step_cases (h : scanner.step = .ok () next) :
    ∃ c rest, scanner.rest = c :: rest ∧ scanner.Moves c next := by
  cases hrest : scanner.rest with
  | nil =>
    rw [step_of_end hrest] at h
    cases h
  | cons c rest =>
    obtain ⟨_, hstep, hm⟩ | ⟨-, -, hstep⟩ := step_of_current hrest
    · rw [hstep] at h
      cases h
      exact ⟨c, rest, rfl, hm⟩
    · rw [hstep] at h
      cases h

theorem step_refused {refusal : Refusal} (h : scanner.step = .error refusal same) :
    same = scanner ∧ (scanner.rest = [] ∧ refusal = .endOfText ∨
      ∃ c rest, scanner.rest = c :: rest ∧ scanner.state = .start ∧ CharClass.of c = .other ∧
        refusal = .unexpected scanner.error) := by
  cases hrest : scanner.rest with
  | nil =>
    rw [step_of_end hrest] at h
    cases h
    exact ⟨rfl, .inl ⟨rfl, rfl⟩⟩
  | cons c rest =>
    obtain ⟨_, hstep, -⟩ | ⟨hstate, ho, hstep⟩ := step_of_current hrest
    · rw [hstep] at h
      cases h
    · rw [hstep] at h
      cases h
      exact ⟨rfl, .inr ⟨c, rest, rfl, hstate, ho, rfl⟩⟩

/-- What steps keep, and the passing over a refused character and the end of the text, a scan keeps. -/
theorem scanFrom_keeps {P : Scanner → Prop}
    (hstep : ∀ {scanner next : Scanner}, P scanner → scanner.step = .ok () next → P next)
    (hskip : ∀ {scanner : Scanner}, P scanner → scanner.state = .start → P scanner.advance)
    (hfinish : ∀ {scanner : Scanner}, P scanner → P scanner.finish)
    (failFast : Bool) (noted : Array LexicalError) (h : P scanner) :
    P (scanner.scanFrom failFast noted).2 := by
  fun_induction scanFrom failFast scanner noted with
  | case1 scanner noted next hs ih => exact ih (hstep h hs)
  | case2 scanner noted error same hs =>
    rw [(step_refused hs).1]
    exact h
  | case3 scanner noted error same hs _ ih =>
    obtain ⟨rfl, ⟨-, hr⟩ | ⟨c, rest, -, hstate, -, -⟩⟩ := step_refused hs
    · cases hr
    · exact ih (hskip h hstate)
  | case4 scanner noted refusal same _ hs =>
    rw [(step_refused hs).1]
    exact hfinish h

/-- The loop of a scan as one that every refusal breaks off, except that of a character. -/
def attemptFrom (failFast : Bool) (scanner : Scanner) (errors : Array LexicalError) :
    Except Refusal (Array LexicalError) × Scanner :=
  if scanner.rest = [] then (.ok errors, scanner.finish)
  else
    match _ : scanner.step with
    | .ok () next => attemptFrom failFast next errors
    | .error (.unexpected error) same =>
      if failFast then (.ok (errors.push error), same)
      else attemptFrom failFast same.advance (errors.push error)
    | .error refusal same => (.error refusal, same)
termination_by scanner.rankOf
decreasing_by
  · exact rankOf_step_lt ‹_›
  · exact rankOf_refused_lt ‹_›

def attempt (failFast : Bool) (scanner : Scanner) : Except Refusal Scan × Scanner :=
  let (errors, last) := scanner.attemptFrom failFast #[]
  (errors.map fun errors => ⟨last.lexemes.toList, errors.toList⟩, last)

theorem attemptFrom_eq (failFast : Bool) (scanner : Scanner) (errors : Array LexicalError) :
    scanner.attemptFrom failFast errors =
      (.ok (scanner.scanFrom failFast errors).1, (scanner.scanFrom failFast errors).2) := by
  fun_induction attemptFrom failFast scanner errors with
  | case1 scanner errors hrest =>
    rw [scanFrom]
    split <;> simp_all [step]
  | case2 | case3 | case4 =>
    rw [scanFrom]
    split <;> simp_all
  | case5 scanner errors hrest refusal same hlexical hs =>
    obtain ⟨-, ⟨hend, -⟩ | ⟨c, rest, -, -, -, hr⟩⟩ := step_refused hs
    · exact absurd hend hrest
    · exact absurd hr (hlexical _)

theorem attempt_eq (failFast : Bool) (scanner : Scanner) :
    scanner.attempt failFast = (.ok (scanner.scan failFast).1, (scanner.scan failFast).2) := by
  simp only [attempt, attemptFrom_eq, scan, Except.map]

end Lexicon.Scanner
