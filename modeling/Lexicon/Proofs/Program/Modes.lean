import Lexicon.Program
import Lexicon.Proofs.Session.Undefined
import Lexicon.Proofs.Text.Quoted

namespace Lexicon

namespace Session

/-- The scan of the text has no error, and the session knows all its separators. -/
def Admits (session : Session) (text : String) : Prop :=
  (Scan.ofText false text).errors = [] ∧
    ∀ lexeme ∈ (Scan.ofText false text).lexemes,
      lexeme.category = .separator → lexeme.value ∈ session.separators.toList

variable {session : Session} {text : String}

theorem admits_iff : session.Admits text ↔ session.errorsIn text = [] := by
  simp [Admits, errorsIn, undefined_eq_nil, Lacks]

theorem judge_of_defined (h : session.errorsIn text = []) (everyError : Bool) :
    session.judge everyError text =
      (.ok (.accepted (Scan.ofText false text).lexemes), (session.analyze text).2) := by
  obtain ⟨later, ha, hd⟩ := analyze_diagnose_of_accepted h
  cases everyError with
  | true => simp only [judge, ha, hd, if_true, List.isEmpty_nil]
  | false => simp only [judge, ha, Bool.false_eq_true, if_false]

theorem judge_of_accepted (h : session.errorsIn text = []) :
    ∃ later, ∀ everyError, session.judge everyError text =
      (.ok (.accepted (Scan.ofText false text).lexemes), later) :=
  ⟨_, judge_of_defined h⟩

theorem judge_of_errors {first : LexicalError} {more : List LexicalError}
    (h : session.errorsIn text = first :: more) :
    ∃ later, (later = session ∨ later = session.released) ∧
      ∀ everyError, session.judge everyError text =
        (.ok (.rejected (if everyError then first :: more else [first])), later) := by
  obtain ⟨later, hlater, ha, hd⟩ := analyze_diagnose_of_errors h
  refine ⟨later, hlater, ?_⟩
  intro everyError
  cases everyError with
  | true => simp only [judge, hd, if_true, List.isEmpty_cons, Bool.false_eq_true, if_false]
  | false => simp only [judge, ha, Bool.false_eq_true, if_false]

end Session

namespace Program

theorem dump_of_null (session : Session) {path : String} (h : FileSystem.holdsNull path = true)
    (files : FileSystem) : dump session path files = (.error (.file .nullInPath), "", files) := by
  simp only [dump, FileSystem.write, h, if_true]

theorem result_dump (session : Session) {path : String} (h : FileSystem.holdsNull path = false)
    (files : FileSystem) : ∃ accepted, (dump session path files).1 = .ok accepted := by
  simp only [dump, FileSystem.write, h, Bool.false_eq_true, if_false]
  cases files.placeOfFile path with
  | ok location => exact ⟨true, rfl⟩
  | error cause => exact ⟨false, rfl⟩

variable {session : Session} {text : String}

/-- Only the listings of a program that is accepted depend on the settings. -/
theorem process_of_accepted (h : session.errorsIn text = []) (dumpPath : String)
    (files : FileSystem) :
    ∃ result said later written,
      (FileSystem.holdsNull dumpPath = false → ∃ accepted, result = .ok accepted) ∧
      (FileSystem.holdsNull dumpPath = true →
        result = .error (.file .nullInPath) ∧ written = files) ∧
        ∀ settings, process settings dumpPath files session text =
          ⟨result, listings settings (Scan.ofText false text).lexemes later ++ said, later,
            written⟩ := by
  obtain ⟨later, hj⟩ := Session.judge_of_accepted h
  -- an empty path asks for no dump, and it holds no null character either
  by_cases hpath : dumpPath = ""
  · subst hpath
    refine ⟨.ok true, "", later, files, fun _ => ⟨true, rfl⟩, nofun, ?_⟩
    intro settings
    simp only [process, hj, if_true, String.append_empty]
  · let dumped := dump later dumpPath files
    refine ⟨dumped.1, dumped.2.1, later, dumped.2.2, fun hnull => result_dump later hnull files,
      ?_, ?_⟩
    · intro hnull
      simp only [dumped, dump_of_null later hnull files, and_self]
    · intro settings
      simp only [process, hj, if_neg hpath, dumped]

theorem process_of_errors {first : LexicalError} {more : List LexicalError}
    (h : session.errorsIn text = first :: more) (dumpPath : String) (files : FileSystem) :
    ∃ later, (later = session ∨ later = session.released) ∧
      ∀ settings : Settings, process settings dumpPath files session text =
        ⟨.ok false, errorLines (if settings.everyError then first :: more else [first]), later,
          files⟩ := by
  obtain ⟨later, hlater, hj⟩ := Session.judge_of_errors h
  refine ⟨later, hlater, ?_⟩
  intro settings
  simp only [process, hj]

def errorLine (error : LexicalError) : String :=
  "Lexical error: " ++ error.message

theorem toList_errorLine (error : LexicalError) :
    (errorLine error).toList = "Lexical error: ".toList ++ error.message.toList :=
  String.toList_append

theorem newline_not_mem_errorLine {error : LexicalError}
    (h : ∀ given, error.cause ≠ .general given) : '\n' ∉ (errorLine error).toList := by
  rw [toList_errorLine]
  intro hn
  obtain hn | hn := List.mem_append.1 hn
  · exact absurd hn (by decide +kernel)
  · exact LexicalError.newline_not_mem_message h hn

theorem errorLines_cons (error : LexicalError) (errors : List LexicalError) :
    errorLines (error :: errors) = errorLine error ++ "\n" ++ errorLines errors := by
  rw [errorLines, List.map_cons, String.join_cons]
  rfl

/-- The first error is said on one line, and what is said of the others comes after it. -/
theorem errorLines_first {first : LexicalError} (h : ∀ given, first.cause ≠ .general given)
    (more : List LexicalError) :
    ∃ line rest, "Lexical error: ".toList <+: line.toList ∧ '\n' ∉ line.toList ∧
      errorLines [first] = line ++ "\n" ∧ errorLines (first :: more) = line ++ "\n" ++ rest := by
  refine ⟨errorLine first, errorLines more, ?_, newline_not_mem_errorLine h, ?_,
    errorLines_cons first more⟩
  · rw [toList_errorLine]
    exact List.prefix_append _ _
  · exact (errorLines_cons first []).trans String.append_empty

theorem process_congr (settings other : Settings) (dumpPath : String) (files : FileSystem)
    (session : Session) (text : String) :
    let outcome := process settings dumpPath files session text
    let expected := process other dumpPath files session text
    outcome.result = expected.result ∧ outcome.session = expected.session ∧
      outcome.files = expected.files := by
  cases he : session.errorsIn text with
  | nil =>
    obtain ⟨result, said, later, written, -, -, hp⟩ := process_of_accepted he dumpPath files
    simp only [hp, and_self]
  | cons first more =>
    obtain ⟨later, -, hp⟩ := process_of_errors he dumpPath files
    simp only [hp, and_self]

theorem process_of_null (h : session.Admits text) {dumpPath : String}
    (hnull : FileSystem.holdsNull dumpPath = true) (settings : Settings) (files : FileSystem) :
    let outcome := process settings dumpPath files session text
    outcome.result = .error (.file .nullInPath) ∧ outcome.files = files := by
  obtain ⟨result, said, later, written, -, hfault, hp⟩ :=
    process_of_accepted (Session.admits_iff.1 h) dumpPath files
  simp only [hp]
  exact hfault hnull

theorem exists_result_iff (settings : Settings) (dumpPath : String) (files : FileSystem)
    (session : Session) (text : String) :
    (∃ accepted, (process settings dumpPath files session text).result = .ok accepted) ↔
      ¬ (session.Admits text ∧ FileSystem.holdsNull dumpPath = true) := by
  constructor
  · rintro ⟨accepted, hresult⟩ ⟨hadmits, hnull⟩
    rw [(process_of_null hadmits hnull settings files).1] at hresult
    cases hresult
  · intro hn
    cases he : session.errorsIn text with
    | nil =>
      have hpath : FileSystem.holdsNull dumpPath = false :=
        Bool.eq_false_iff.2 fun hnull => hn ⟨Session.admits_iff.2 he, hnull⟩
      obtain ⟨result, said, later, written, hresult, -, hp⟩ := process_of_accepted he dumpPath files
      rw [hp]
      exact hresult hpath
    | cons first more =>
      obtain ⟨later, -, hp⟩ := process_of_errors he dumpPath files
      rw [hp]
      exact ⟨false, rfl⟩

theorem output_of_admits (h : session.Admits text) (dumpPath : String) (files : FileSystem)
    (showLexemes showTables : Bool) :
    (process ⟨showLexemes, showTables, false⟩ dumpPath files session text).output =
      (process ⟨showLexemes, showTables, true⟩ dumpPath files session text).output := by
  obtain ⟨result, said, later, written, -, -, hp⟩ :=
    process_of_accepted (Session.admits_iff.1 h) dumpPath files
  simp only [hp, listings]

/-- A program that is not accepted leaves everything as it was, and the first line is the same. -/
theorem process_of_not_admits (h : ¬ session.Admits text) (dumpPath : String) (files : FileSystem)
    (showLexemes showTables : Bool) :
    let collecting := process ⟨showLexemes, showTables, true⟩ dumpPath files session text
    let failingFast := process ⟨showLexemes, showTables, false⟩ dumpPath files session text
    collecting.result = .ok false ∧ collecting.files = files ∧
      collecting.session.released = session.released ∧
      (session.held = false → collecting.session = session) ∧
      ∃ line more, "Lexical error: ".toList <+: line.toList ∧ '\n' ∉ line.toList ∧
        failingFast.output = line ++ "\n" ∧ collecting.output = line ++ "\n" ++ more := by
  cases he : session.errorsIn text with
  | nil => exact absurd (Session.admits_iff.2 he) h
  | cons first more =>
    obtain ⟨later, hlater, hp⟩ := process_of_errors he dumpPath files
    have hfirst : ∀ given, first.cause ≠ .general given :=
      Session.errorsIn_named (he ▸ List.mem_cons_self)
    have hfree : session.held = false → later = session := by
      intro hheld
      obtain rfl | rfl := hlater
      · rfl
      · exact Session.released_of_free hheld
    have hreleased : later.released = session.released := by
      obtain rfl | rfl := hlater <;> rfl
    simp only [hp, if_true, Bool.false_eq_true, if_false]
    exact ⟨trivial, trivial, hreleased, hfree, errorLines_first hfirst more⟩

/-- Whether a program is processed up to its first error or in spite of all of them, it comes to
the same, and so does it whatever is shown. What is said of an accepted program is the same, and
of another the first line. There is a verdict unless an accepted program is to be dumped to a path
with a null character, which is no path at all. -/
theorem process_modes_agree (session : Session) (text dumpPath : String) (files : FileSystem)
    (showLexemes showTables : Bool) :
    let collecting := process ⟨showLexemes, showTables, true⟩ dumpPath files session text
    let failingFast := process ⟨showLexemes, showTables, false⟩ dumpPath files session text
    (∀ settings, let outcome := process settings dumpPath files session text
      outcome.result = collecting.result ∧ outcome.session = collecting.session ∧
        outcome.files = collecting.files) ∧
      ((∃ accepted, collecting.result = .ok accepted) ↔
        ¬ (session.Admits text ∧ FileSystem.holdsNull dumpPath = true)) ∧
      (session.Admits text → FileSystem.holdsNull dumpPath = true →
        collecting.result = .error (.file .nullInPath) ∧ collecting.files = files) ∧
      (session.Admits text → failingFast.output = collecting.output) ∧
      (¬ session.Admits text →
        collecting.result = .ok false ∧ collecting.files = files ∧
          collecting.session.released = session.released ∧
          (session.held = false → collecting.session = session) ∧
          ∃ line more, "Lexical error: ".toList <+: line.toList ∧ '\n' ∉ line.toList ∧
            failingFast.output = line ++ "\n" ∧ collecting.output = line ++ "\n" ++ more) := by
  intro collecting failingFast
  refine ⟨?_, exists_result_iff _ dumpPath files session text, ?_, ?_, ?_⟩
  · intro settings
    exact process_congr settings _ dumpPath files session text
  · intro hadmits hnull
    exact process_of_null hadmits hnull _ files
  · intro hadmits
    exact output_of_admits hadmits dumpPath files showLexemes showTables
  · intro hrejects
    exact process_of_not_admits hrejects dumpPath files showLexemes showTables

/-- A program without an error can end without a verdict, whatever the settings. -/
theorem not_forall_judged : ¬ ∀ (dumpPath : String) (files : FileSystem) (session : Session)
    (text : String), ∃ (settings : Settings) (accepted : Bool),
      (process settings dumpPath files session text).result = .ok accepted := by
  intro h
  obtain ⟨settings, accepted, hresult⟩ := h "a\x00b" {} .fresh "let a;"
  have hclean : Session.fresh.errorsIn "let a;" = [] := by decide +kernel
  have hnull : FileSystem.holdsNull "a\x00b" = true := by decide
  have hfault := process_of_null (Session.admits_iff.2 hclean) hnull settings {}
  cases hfault.1.symm.trans hresult

end Program

end Lexicon
