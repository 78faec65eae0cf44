import Lexicon.Proofs.LexicalError
import Lexicon.Proofs.Program.Modes
import Lexicon.Proofs.Text.Lines

namespace Lexicon

theorem Session.errorsIn_quotes {session : Session} {text : String} {error : LexicalError}
    (h : error ∈ session.errorsIn text) : error.cause.Quotes := by
  obtain h | h := List.mem_append.1 h
  · obtain ⟨c, position, rfl⟩ := (Scan.layout_ofText text).exists_unexpected error h
    trivial
  · obtain ⟨lexeme, -, rfl⟩ := List.mem_map.1 h
    trivial

theorem LexicalError.Cause.Quotes.named {cause : Cause} (h : cause.Quotes) (text : String) :
    cause ≠ .general text := by
  rintro rfl
  exact h

namespace Program

def readErrorLine (line : String) : Option LexicalError :=
  (LexicalError.behind "Lexical error: " line.toList).bind LexicalError.readMessage

/-- The errors that an output tells of, one on each line. -/
def readErrors (output : String) : Option (List LexicalError) :=
  (Text.lines output).mapM readErrorLine

theorem readErrorLine_errorLine {error : LexicalError} (h : error.cause.Quotes) :
    readErrorLine (errorLine error) = some error := by
  rw [readErrorLine, toList_errorLine, LexicalError.behind_append, Option.bind_some,
    LexicalError.readMessage_message h]

variable {errors : List LexicalError}

theorem lines_errorLines (h : ∀ error ∈ errors, error.cause.Quotes) :
    Text.lines (errorLines errors) = errors.map errorLine := by
  induction errors with
  | nil => rfl
  | cons error errors ih =>
    obtain ⟨herror, herrors⟩ := List.forall_mem_cons.1 h
    rw [errorLines_cons, Text.lines_line (newline_not_mem_errorLine herror.named), ih herrors,
      List.map_cons]

theorem readErrors_errorLines (h : ∀ error ∈ errors, error.cause.Quotes) :
    readErrors (errorLines errors) = some errors := by
  rw [readErrors, lines_errorLines h]
  induction errors with
  | nil => rfl
  | cons error errors ih =>
    obtain ⟨herror, herrors⟩ := List.forall_mem_cons.1 h
    rw [List.map_cons, List.mapM_cons, readErrorLine_errorLine herror, ih herrors]
    rfl

/-- Messages that quote what is wrong can be shown, and no two errors have the same one. So whoever asks
for every error of a program finds one line for each, and from the lines knows them all: what is wrong
in which way, and where. -/
theorem readErrors_process :
    (∀ error other : LexicalError, error.cause.Quotes → other.cause.Quotes →
      (∀ c ∈ error.message.toList, Text.isPrintable c = true) ∧
        (error.message = other.message → error = other)) ∧
      ∀ (settings : Settings) (dumpPath : String) (files : FileSystem) (session : Session)
        (text : String), settings.everyError = true →
        let outcome := process settings dumpPath files session text
        ∃ diagnosis, (session.diagnose text).1 = .ok diagnosis ∧
          (diagnosis.errors ≠ [] → outcome.result = .ok false ∧
            Text.lines outcome.output = diagnosis.errors.map errorLine ∧
            readErrors outcome.output = some diagnosis.errors) ∧
          (diagnosis.errors = [] → dumpPath = "" → outcome.result = .ok true) := by
  refine ⟨?_, ?_⟩
  · intro error other h ho
    exact ⟨LexicalError.isPrintable_message h.named, LexicalError.message_inj h ho⟩
  · intro settings dumpPath files session text hevery outcome
    have hquotes : ∀ error ∈ session.errorsIn text, error.cause.Quotes :=
      fun error he => Session.errorsIn_quotes he
    refine ⟨_, session.result_diagnose text, ?_, ?_⟩
    · intro hne
      obtain ⟨first, more, he⟩ : ∃ first more, session.errorsIn text = first :: more :=
        List.exists_cons_of_ne_nil hne
      obtain ⟨later, -, hp⟩ := process_of_errors he dumpPath files
      rw [he] at hquotes ⊢
      simp only [outcome, hp, hevery, if_true]
      exact ⟨trivial, lines_errorLines hquotes, readErrors_errorLines hquotes⟩
    · intro hnone hpath
      obtain ⟨later, hj⟩ := Session.judge_of_accepted hnone
      simp only [outcome, process, hj, hpath, if_true]

theorem readErrors_process_quotes :
    let outcome := process { everyError := true } "" {} .fresh "'é' \u0001 =>\n\\ x\"2"
    let error : LexicalError := ⟨.undefinedSeparator "'\n\"\u0000 at line 1, column 1", ⟨-3, 0⟩⟩
    outcome.result = .ok false ∧ (Text.lines outcome.output).length = 7 ∧
      (∃ errors, readErrors outcome.output = some errors ∧
        errors.getLast? = some ⟨.undefinedSeparator "=>", ⟨1, 7⟩⟩) ∧
      ∀ c ∈ error.message.toList, Text.isPrintable c = true := by
  intro outcome error
  obtain ⟨hmessages, hprocess⟩ := readErrors_process
  obtain ⟨diagnosis, hdiagnosis, herrors, -⟩ :=
    hprocess { everyError := true } "" {} .fresh "'é' \u0001 =>\n\\ x\"2" rfl
  have hlast : (Session.fresh.diagnose "'é' \u0001 =>\n\\ x\"2").1.toOption.map (·.errors.length) = some 7 ∧
      (Session.fresh.diagnose "'é' \u0001 =>\n\\ x\"2").1.toOption.bind (·.errors.getLast?) =
        some ⟨.undefinedSeparator "=>", ⟨1, 7⟩⟩ := by decide +kernel
  rw [hdiagnosis] at hlast
  obtain ⟨hlength, hlast⟩ := hlast
  have hlength' : diagnosis.errors.length = 7 := Option.some.inj hlength
  have hne : diagnosis.errors ≠ [] := by
    intro he
    rw [he] at hlength'
    cases hlength'
  obtain ⟨hresult, hlines, hread⟩ := herrors hne
  refine ⟨hresult, ?_, ⟨diagnosis.errors, hread, hlast⟩, (hmessages error error trivial trivial).1⟩
  rw [hlines, List.length_map, hlength']

end Program

end Lexicon
