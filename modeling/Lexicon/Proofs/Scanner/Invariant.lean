import Lexicon.Proofs.Place
import Lexicon.Proofs.Scanner.Step

namespace Lexicon.Scanner

def run (scanner : Scanner) (calls : List Call) : Scanner :=
  calls.foldl (fun scanner call => (scanner.perform call).2) scanner

/-- The scanner knows its place in the text, and the lexeme it builds is one that its state builds. -/
structure Tracks (scanner : Scanner) (text : List Char) : Prop where
  rest : scanner.rest = text.drop scanner.offset
  position : scanner.position = .reached text scanner.offset
  buffer : ∀ c ∈ scanner.buffer.toList, scanner.state.accepts (.of c) = true

inductive Refuses (scanner : Scanner) : Call → Refusal → Prop
  | unexpected {c : Char} (hstate : scanner.state = .start) (hc : scanner.current? = some c)
      (ho : CharClass.of c = .other) : Refuses scanner .step (.unexpected scanner.error)
  | endOfText (hc : scanner.current? = none) : Refuses scanner .step .endOfText
  | noCategory (hstate : scanner.state = .start ∨ scanner.state = .comment) :
      Refuses scanner .emit (.noCategory scanner.state)

variable {scanner next : Scanner} {text rest : List Char} {c : Char}

theorem current?_of_tracks (h : scanner.Tracks text) : scanner.current? = text[scanner.offset]? := by
  rw [current?, h.rest, List.head?_drop]

theorem getElem?_of_rest (h : scanner.Tracks text) (hrest : scanner.rest = c :: rest) :
    text[scanner.offset]? = some c := by
  rw [← current?_of_tracks h, current?, hrest, List.head?_cons]

theorem lt_length_of_rest (h : scanner.Tracks text) (hrest : scanner.rest = c :: rest) :
    scanner.offset < text.length :=
  (List.getElem?_eq_some_iff.1 (getElem?_of_rest h hrest)).1

theorem category_eq_none_iff {state : State} :
    state.category = none ↔ state = .start ∨ state = .comment := by
  cases state <;> simp [State.category]

theorem accepts_of_category_none {state : State} (h : state.category = none) (charClass : CharClass) :
    state.accepts charClass = false := by
  obtain rfl | rfl := category_eq_none_iff.1 h <;> rfl

theorem buffer_of_category_none (h : scanner.Tracks text) (hs : scanner.state.category = none) :
    scanner.buffer = "" := by
  apply String.toList_eq_nil_iff.1
  apply List.eq_nil_iff_forall_not_mem.2
  intro c hc
  have ha := h.buffer c hc
  rw [accepts_of_category_none hs] at ha
  cases ha

theorem tracks_ofText (text : String) : (ofText text).Tracks text.toList where
  rest := rfl
  position := (Position.reached_zero _).symm
  buffer := by simp [ofText]

theorem tracks_advance (h : scanner.Tracks text) : scanner.advance.Tracks text where
  rest := by simp only [advance, h.rest, List.tail_drop]
  position := by simp only [advance, h.position, current?_of_tracks h, Position.reached_succ]
  buffer := h.buffer

theorem tracks_goto (h : scanner.Tracks text) (hb : scanner.buffer = "") (state : State) :
    (scanner.goto state).Tracks text where
  rest := h.rest
  position := h.position
  buffer := by simp [goto, hb]

theorem tracks_flushed (h : scanner.Tracks text) (category : Category) :
    (scanner.flushed category).Tracks text where
  rest := h.rest
  position := h.position
  buffer := by simp [flushed]

theorem tracks_step (h : scanner.Tracks text) (hstep : scanner.step = .ok () next) :
    next.Tracks text := by
  obtain ⟨c, rest, hrest, hm⟩ := step_cases hstep
  cases hm with
  | skip hcategory hs =>
    have hb : scanner.buffer = "" := buffer_of_category_none h hcategory
    exact tracks_goto (tracks_advance h) hb _
  | shift ha =>
    have hshift : Tracks { scanner with buffer := scanner.buffer.push c } text := by
      refine ⟨h.rest, h.position, ?_⟩
      intro d hd
      rw [String.toList_push, List.mem_append, List.mem_singleton] at hd
      obtain hd | rfl := hd
      · exact h.buffer d hd
      · exact ha
    exact tracks_advance hshift
  | enter hstate _ =>
    have hb : scanner.buffer = "" := buffer_of_category_none h (by rw [hstate]; rfl)
    exact ⟨h.rest, h.position, by simp [hb]⟩
  | emit hcategory hs => exact tracks_goto (tracks_flushed h _) rfl .start

theorem finish_cases (scanner : Scanner) :
    (scanner.buffer = "" ∨ scanner.state.category = none) ∧ scanner.finish = scanner.goto .start ∨
      ∃ category, scanner.state.category = some category ∧
        scanner.finish = (scanner.flushed category).goto .start := by
  by_cases hb : scanner.buffer = ""
  · exact .inl ⟨.inl hb, by simp [finish, hb]⟩
  · cases hcategory : scanner.state.category with
    | none => exact .inl ⟨.inr rfl, by simp [finish, hb, emit, hcategory]⟩
    | some category => exact .inr ⟨category, rfl, by simp [finish, hb, emit, hcategory, flushed]⟩

theorem tracks_finish (h : scanner.Tracks text) : scanner.finish.Tracks text := by
  obtain ⟨hb, hf⟩ | ⟨category, -, hf⟩ := finish_cases scanner
  · rw [hf]
    exact tracks_goto h (hb.elim id (buffer_of_category_none h)) .start
  · rw [hf]
    exact tracks_goto (tracks_flushed h category) rfl .start

theorem emit_cases (scanner : Scanner) :
    scanner.state.category = none ∧ scanner.emit = .error (.noCategory scanner.state) scanner ∨
      ∃ category, scanner.state.category = some category ∧
        scanner.emit = .ok () (scanner.flushed category) := by
  cases hcategory : scanner.state.category with
  | none => exact .inl ⟨rfl, by simp only [emit, hcategory]⟩
  | some category => exact .inr ⟨category, rfl, by simp only [emit, hcategory, flushed]⟩

theorem emit_eq_ok (he : scanner.emit = .ok () next) : ∃ category, next = scanner.flushed category := by
  obtain ⟨-, he'⟩ | ⟨category, -, he'⟩ := emit_cases scanner
  · rw [he'] at he
    cases he
  · rw [he'] at he
    cases he
    exact ⟨category, rfl⟩

/-- What the single operations keep, every call keeps that does not pass over a character or end a lexeme
out of turn, or else keeps it too. -/
theorem perform_keeps {P : Scanner → Prop}
    (hstep : ∀ {scanner next : Scanner}, P scanner → scanner.step = .ok () next → P next)
    (hskip : ∀ {scanner : Scanner}, P scanner → scanner.state = .start → P scanner.advance)
    (hfinish : ∀ {scanner : Scanner}, P scanner → P scanner.finish)
    (h : P scanner) (call : Call) (hadvance : call = .advance → P scanner.advance)
    (hemit : call = .emit → ∀ {next : Scanner}, scanner.emit = .ok () next → P next) :
    P (scanner.perform call).2 := by
  cases call with
  | step =>
    cases hs : scanner.step with
    | ok _ next => simpa only [perform, hs, answer] using hstep h hs
    | error refusal same => simpa only [perform, hs, answer, (step_refused hs).1] using h
  | advance => exact hadvance rfl
  | emit =>
    obtain ⟨-, he⟩ | ⟨category, -, he⟩ := emit_cases scanner
    · simpa only [perform, he, answer] using h
    · simpa only [perform, he, answer] using hemit rfl he
  | finish => exact hfinish h
  | error => exact h
  | scan failFast => exact scanFrom_keeps hstep hskip hfinish failFast #[] h

theorem tracks_perform (h : scanner.Tracks text) (call : Call) :
    (scanner.perform call).2.Tracks text := by
  refine perform_keeps tracks_step (fun h _ => tracks_advance h) tracks_finish h call
    (fun _ => tracks_advance h) ?_
  intro _ next he
  obtain ⟨category, rfl⟩ := emit_eq_ok he
  exact tracks_flushed h category

theorem tracks_run (h : scanner.Tracks text) (calls : List Call) :
    (scanner.run calls).Tracks text := by
  induction calls generalizing scanner with
  | nil => exact h
  | cons call calls ih => exact ih (tracks_perform h call)

theorem prefix_flushed (scanner : Scanner) (category : Category) :
    scanner.lexemes.toList <+: (scanner.flushed category).lexemes.toList := by
  simp only [flushed, Array.toList_push, List.prefix_append]

theorem lexemes_step (hstep : scanner.step = .ok () next) :
    scanner.lexemes.toList <+: next.lexemes.toList := by
  obtain ⟨c, rest, hrest, hm⟩ := step_cases hstep
  cases hm with
  | skip | shift | enter => exact List.prefix_rfl
  | emit => exact prefix_flushed scanner _

theorem lexemes_emit (he : scanner.emit = .ok () next) :
    scanner.lexemes.toList <+: next.lexemes.toList := by
  obtain ⟨category, rfl⟩ := emit_eq_ok he
  exact prefix_flushed scanner category

theorem lexemes_finish (scanner : Scanner) :
    scanner.lexemes.toList <+: scanner.finish.lexemes.toList := by
  obtain ⟨-, hf⟩ | ⟨category, -, hf⟩ := finish_cases scanner
  · rw [hf]
    exact List.prefix_rfl
  · rw [hf]
    exact prefix_flushed scanner _

theorem lexemes_perform (scanner : Scanner) (call : Call) :
    scanner.lexemes.toList <+: (scanner.perform call).2.lexemes.toList := by
  let Keeps (later : Scanner) : Prop := scanner.lexemes.toList <+: later.lexemes.toList
  exact perform_keeps (P := Keeps) (fun h hs => h.trans (lexemes_step hs)) (fun h _ => h)
    (fun h => h.trans (lexemes_finish _)) List.prefix_rfl call (fun _ => List.prefix_rfl)
    (fun _ => lexemes_emit)

theorem perform_refused_iff {call : Call} {refusal : Refusal} :
    scanner.perform call = (.refused refusal, next) ↔ next = scanner ∧ scanner.Refuses call refusal := by
  constructor
  · intro h
    cases call with
    | step =>
      cases hs : scanner.step with
      | ok _ moved =>
        simp only [perform, hs, answer] at h
        cases h
      | error reason same =>
        simp only [perform, hs, answer] at h
        cases h
        obtain ⟨hsame, ⟨hrest, rfl⟩ | ⟨c, rest, hrest, hstate, ho, rfl⟩⟩ := step_refused hs
        · exact ⟨hsame, .endOfText (by rw [current?, hrest]; rfl)⟩
        · exact ⟨hsame, .unexpected hstate (by rw [current?, hrest]; rfl) ho⟩
    | emit =>
      obtain ⟨hcategory, he⟩ | ⟨category, -, he⟩ := emit_cases scanner
      · simp only [perform, he, answer] at h
        cases h
        exact ⟨rfl, .noCategory (category_eq_none_iff.1 hcategory)⟩
      · simp only [perform, he, answer] at h
        cases h
    | advance | finish | error | scan => cases h
  · rintro ⟨rfl, hr⟩
    cases hr with
    | unexpected hstate hc ho =>
      obtain ⟨rest, hrest⟩ := List.head?_eq_some_iff.1 hc
      obtain ⟨moved, hs, hm⟩ | ⟨-, -, hs⟩ := step_of_current hrest
      · have ht : transition .start .other = .fail := rfl
        simp only [step, hrest, hstate, ho, ht] at hs
        cases hs
      · simp only [perform, hs, answer]
    | endOfText hc =>
      have hrest : next.rest = [] := List.head?_eq_none_iff.1 hc
      simp only [perform, step_of_end hrest, answer]
    | noCategory hstate =>
      have hcategory := category_eq_none_iff.2 hstate
      simp only [perform, emit, hcategory, answer]

theorem transition_of_accepts {state : State} {charClass : CharClass}
    (h : state.accepts charClass = true) :
    (state = .digit ∨ state = .separator ∨ state = .identifier) ∧
      transition state charClass = .shift state := by
  cases state with
  | start | comment => cases h
  | digit => exact ⟨.inl rfl, by simp [transition, h]⟩
  | separator => exact ⟨.inr (.inl rfl), by simp [transition, h]⟩
  | identifier => exact ⟨.inr (.inr rfl), by simp [transition, h]⟩

/-- Whatever calls come upon the scanner of a text, and be some of them refused, it knows its place
in the text and has only characters in hand that its state goes on with. Every further call leaves
the lexemes that are found, a refused one leaves everything, and no scan is broken off. -/
theorem tracks_of_calls (text : String) (calls : List Call) :
    let scanner := (ofText text).run calls
    let passed := text.toList.take scanner.offset
    scanner.current? = text.toList[scanner.offset]? ∧
      scanner.position.line = 1 + passed.count '\n' ∧
      scanner.position.column = 1 + scanner.offset - Position.lineStart passed ∧
      (scanner.buffer ≠ "" →
        (scanner.state = .digit ∨ scanner.state = .separator ∨ scanner.state = .identifier) ∧
          ∀ c ∈ scanner.buffer.toList, transition scanner.state (.of c) = .shift scanner.state) ∧
      (∀ call, scanner.lexemes.toList <+: (scanner.perform call).2.lexemes.toList) ∧
      (∀ call refusal next, scanner.perform call = (.refused refusal, next) ↔
        next = scanner ∧ scanner.Refuses call refusal) ∧
      ∀ failFast,
        scanner.attempt failFast = (.ok (scanner.scan failFast).1, (scanner.scan failFast).2) := by
  intro scanner passed
  have h : scanner.Tracks text.toList := tracks_run (tracks_ofText text) calls
  refine ⟨current?_of_tracks h, by rw [h.position]; rfl, by rw [h.position]; rfl, ?_,
    lexemes_perform scanner, fun _ _ _ => perform_refused_iff, fun failFast => attempt_eq failFast scanner⟩
  intro hb
  have hshift (c : Char) (hc : c ∈ scanner.buffer.toList) := transition_of_accepts (h.buffer c hc)
  obtain ⟨c, hc⟩ := List.exists_mem_of_ne_nil _ (mt String.toList_eq_nil_iff.1 hb)
  exact ⟨(hshift c hc).1, fun d hd => (hshift d hd).2⟩

end Lexicon.Scanner
