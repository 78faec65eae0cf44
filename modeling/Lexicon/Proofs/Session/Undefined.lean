import Lexicon.Analysis
import Lexicon.Proofs.Scan.Exact
import Lexicon.Proofs.Scan.FailFast
import Lexicon.Proofs.Session.Pass

namespace Lexicon

def Category.Scanned (category : Category) : Prop :=
  ∀ word, category ≠ .unknown word

theorem Lexeme.WellFormed.scanned {lexeme : Lexeme} (h : lexeme.WellFormed) :
    lexeme.category.Scanned := by
  obtain ⟨first, others, -, hbegins, -⟩ := h
  intro word hw
  rw [hw] at hbegins
  cases hbegins

theorem Scan.scanned_ofText (text : String) :
    ∀ lexeme ∈ (ofText false text).lexemes, lexeme.category.Scanned :=
  fun lexeme h => ((layout_ofText text).wellFormed lexeme h).scanned

def LexicalError.undefined (lexeme : Lexeme) : LexicalError :=
  ⟨.undefinedSeparator lexeme.value, lexeme.position⟩

namespace Session

def Lacks (session : Session) (lexeme : Lexeme) : Prop :=
  lexeme.category = .separator ∧ lexeme.value ∉ session.separators.toList

instance (session : Session) (lexeme : Lexeme) : Decidable (session.Lacks lexeme) :=
  inferInstanceAs (Decidable (_ ∧ _))

def undefined (session : Session) (lexemes : List Lexeme) : List LexicalError :=
  (lexemes.filter (session.Lacks ·)).map .undefined

variable {session later : Session} {lexeme : Lexeme} {lexemes : List Lexeme}

theorem undefined_cons_of_lacks (h : session.Lacks lexeme) :
    session.undefined (lexeme :: lexemes) = .undefined lexeme :: session.undefined lexemes := by
  simp [undefined, h]

theorem undefined_cons_of_has (h : ¬ session.Lacks lexeme) :
    session.undefined (lexeme :: lexemes) = session.undefined lexemes := by
  simp [undefined, h]

theorem undefined_of_separators (h : later.separators = session.separators) :
    later.undefined lexemes = session.undefined lexemes := by
  obtain ⟨keywords, separators, literals, identifiers, trace, held⟩ := later
  cases h
  rfl

theorem undefined_eq_nil :
    session.undefined lexemes = [] ↔ ∀ lexeme ∈ lexemes, ¬ session.Lacks lexeme := by
  simp [undefined]

theorem resolveLexeme_of_lacks (h : session.Lacks lexeme) :
    session.resolveLexeme lexeme = (.error (.lexical (.undefined lexeme)), session) := by
  have hnone : session.separators.index? lexeme.value = none := Vocabulary.index?_eq_none.2 h.2
  simp only [resolveLexeme, h.1, hnone, LexicalError.undefined]

theorem resolveLexeme_of_has (hs : lexeme.category.Scanned) (h : ¬ session.Lacks lexeme) :
    ∃ reference later, session.resolveLexeme lexeme = (.ok reference, later) := by
  unfold resolveLexeme
  cases hc : lexeme.category with
  | separator =>
    dsimp only
    split
    · exact ⟨_, _, rfl⟩
    · next hnone => exact absurd ⟨hc, Vocabulary.index?_eq_none.1 hnone⟩ h
  | literal => exact ⟨_, _, rfl⟩
  | identifier =>
    dsimp only
    split <;> exact ⟨_, _, rfl⟩
  | unknown word => exact absurd hc (hs word)

theorem errors_run (failFast : Bool) (lexemes : List Lexeme) (pass : Pass)
    (hs : ∀ lexeme ∈ lexemes, lexeme.category.Scanned) :
    ∃ last, Pass.run failFast lexemes pass = (none, last) ∧
      last.errors.toList = pass.errors.toList ++
        if failFast then (pass.session.undefined lexemes).take 1
        else pass.session.undefined lexemes := by
  induction lexemes generalizing pass with
  | nil => exact ⟨pass, rfl, by cases failFast <;> simp [undefined]⟩
  | cons lexeme lexemes ih =>
    obtain ⟨hl, hs⟩ := List.forall_mem_cons.1 hs
    by_cases h : pass.session.Lacks lexeme
    · let error := LexicalError.undefined lexeme
      simp only [Pass.run, resolveLexeme_of_lacks h, undefined_cons_of_lacks h]
      cases failFast with
      | true => exact ⟨⟨pass.session, pass.references, pass.errors.push error⟩, rfl, by simp [error]⟩
      | false =>
        obtain ⟨last, hrun, herrors⟩ := ih ⟨pass.session, pass.references, pass.errors.push error⟩ hs
        exact ⟨last, hrun, by simpa [error] using herrors⟩
    · obtain ⟨reference, later, hr⟩ := resolveLexeme_of_has hl h
      have hg := (resolves_of_ok hr).grown
      simp only [Pass.run, hr, undefined_cons_of_has h]
      rw [← undefined_of_separators hg.separators]
      exact ih ⟨later, pass.references.push reference, pass.errors⟩ hs

theorem resolveLexeme_of_defined (hs : ∀ other ∈ lexeme :: lexemes, other.category.Scanned)
    (hu : session.undefined (lexeme :: lexemes) = []) :
    ∃ reference later, session.resolveLexeme lexeme = (.ok reference, later) ∧
      later.undefined lexemes = [] := by
  have h : ¬ session.Lacks lexeme := undefined_eq_nil.1 hu lexeme List.mem_cons_self
  obtain ⟨reference, later, hr⟩ := resolveLexeme_of_has (hs lexeme List.mem_cons_self) h
  refine ⟨reference, later, hr, ?_⟩
  rwa [undefined_of_separators (resolves_of_ok hr).grown.separators, ← undefined_cons_of_has h]

theorem run_failFast (lexemes : List Lexeme) (pass : Pass)
    (hs : ∀ lexeme ∈ lexemes, lexeme.category.Scanned) (hu : pass.session.undefined lexemes = []) :
    Pass.run true lexemes pass = Pass.run false lexemes pass := by
  induction lexemes generalizing pass with
  | nil => rfl
  | cons lexeme lexemes ih =>
    obtain ⟨reference, later, hr, hu⟩ := resolveLexeme_of_defined hs hu
    simp only [Pass.run, hr]
    exact ih ⟨later, pass.references.push reference, pass.errors⟩ (List.forall_mem_cons.1 hs).2 hu

theorem classify_of_undefined {first : LexicalError} {more : List LexicalError}
    (hs : ∀ lexeme ∈ lexemes, lexeme.category.Scanned)
    (hu : session.undefined lexemes = first :: more) (failFast : Bool) :
    session.classify failFast lexemes =
      (.ok ⟨[], if failFast then [first] else first :: more⟩, session.released) := by
  obtain ⟨last, hrun, herrors⟩ := errors_run failFast lexemes { session := session.taken } hs
  have hu' : session.taken.undefined lexemes = first :: more := hu
  have hlast : last.errors.toList = if failFast then [first] else first :: more := by
    simpa [hu'] using herrors
  have hne : last.errors ≠ #[] := by
    intro he
    rw [he] at hlast
    cases failFast <;> cases hlast
  rw [classify_of_errors hrun hne, hlast]

theorem classify_of_defined (hs : ∀ lexeme ∈ lexemes, lexeme.category.Scanned)
    (hu : session.undefined lexemes = []) :
    ∃ references later, ∀ failFast,
      session.classify failFast lexemes = (.ok ⟨references, []⟩, later) := by
  have hu' : session.taken.undefined lexemes = [] := hu
  obtain ⟨last, hrun, herrors⟩ := errors_run false lexemes { session := session.taken } hs
  have hlast : last.errors = #[] := by
    apply Array.toList_inj.1
    simpa [hu'] using herrors
  refine ⟨last.references.toList, (last.session.record last.references).released, ?_⟩
  intro failFast
  apply classify_of_accepted ?_ hlast
  cases failFast with
  | true => rw [run_failFast lexemes { session := session.taken } hs hu', hrun]
  | false => exact hrun

theorem errors_classify (session : Session)
    (hs : ∀ lexeme ∈ lexemes, lexeme.category.Scanned) :
    ∃ references later,
      session.classify false lexemes = (.ok ⟨references, session.undefined lexemes⟩, later) := by
  cases hu : session.undefined lexemes with
  | nil =>
    obtain ⟨references, later, h⟩ := classify_of_defined hs hu
    exact ⟨references, later, h false⟩
  | cons first more => exact ⟨[], session.released, classify_of_undefined hs hu false⟩

/-- All errors of a text, those of the scan before the separators that are not defined. -/
def errorsIn (session : Session) (text : String) : List LexicalError :=
  (Scan.ofText false text).errors ++ session.undefined (Scan.ofText false text).lexemes

variable {text : String}

theorem analyze_of_scan_error {error : LexicalError} {errors : List LexicalError}
    (h : (Scan.ofText false text).errors = error :: errors) :
    session.analyze text = (.error (.lexical error), session) := by
  simp only [analyze, Lexeme.ofText_eq, h]

theorem diagnose_of_scan_error {error : LexicalError} {errors : List LexicalError}
    (h : (Scan.ofText false text).errors = error :: errors) :
    session.diagnose text =
      (.ok ⟨(Scan.ofText false text).lexemes, session.errorsIn text⟩, session) := by
  obtain ⟨references, later, hc⟩ := errors_classify session.scratch (Scan.scanned_ofText text)
  have hu : session.scratch.undefined (Scan.ofText false text).lexemes =
    session.undefined (Scan.ofText false text).lexemes := undefined_of_separators rfl
  simp only [diagnose, Scan.ok, h, List.isEmpty_cons, Bool.false_eq_true, if_false, hc, hu, errorsIn]
  rfl

theorem analyze_of_undefined {first : LexicalError} {more : List LexicalError}
    (h : (Scan.ofText false text).errors = [])
    (hu : session.undefined (Scan.ofText false text).lexemes = first :: more) :
    session.analyze text = (.error (.lexical first), session.released) := by
  have hc := classify_of_undefined (Scan.scanned_ofText text) hu true
  simp only [if_true] at hc
  simp only [analyze, Lexeme.ofText_eq, h, register, hc]

theorem diagnose_of_undefined {first : LexicalError} {more : List LexicalError}
    (h : (Scan.ofText false text).errors = [])
    (hu : session.undefined (Scan.ofText false text).lexemes = first :: more) :
    session.diagnose text =
      (.ok ⟨(Scan.ofText false text).lexemes, session.errorsIn text⟩, session.released) := by
  have hc := classify_of_undefined (Scan.scanned_ofText text) hu false
  simp only [Bool.false_eq_true, if_false] at hc
  simp only [diagnose, Scan.ok, h, List.isEmpty_nil, if_true, hc, errorsIn, hu]
  rfl

/-- A text with errors is refused with the first of them, or with all. It makes no difference to
the session which it is. -/
theorem analyze_diagnose_of_errors {first : LexicalError} {more : List LexicalError}
    (h : session.errorsIn text = first :: more) :
    ∃ later, (later = session ∨ later = session.released) ∧
      session.analyze text = (.error (.lexical first), later) ∧
      session.diagnose text = (.ok ⟨(Scan.ofText false text).lexemes, first :: more⟩, later) := by
  rw [← h]
  cases he : (Scan.ofText false text).errors with
  | nil =>
    have hu : session.undefined (Scan.ofText false text).lexemes = first :: more := by
      simpa [errorsIn, he] using h
    exact ⟨session.released, .inr rfl, analyze_of_undefined he hu, diagnose_of_undefined he hu⟩
  | cons error errors =>
    have hfirst : error = first := by
      rw [errorsIn, he] at h
      exact (List.cons.inj h).1
    rw [← hfirst]
    exact ⟨session, .inl rfl, analyze_of_scan_error he, diagnose_of_scan_error he⟩

theorem analyze_diagnose_of_accepted (h : session.errorsIn text = []) :
    ∃ later, session.analyze text = (.ok (Scan.ofText false text).lexemes, later) ∧
      session.diagnose text = (.ok ⟨(Scan.ofText false text).lexemes, []⟩, later) := by
  obtain ⟨he, hu⟩ := List.append_eq_nil_iff.1 h
  obtain ⟨references, later, hc⟩ := classify_of_defined (Scan.scanned_ofText text) hu
  refine ⟨later, ?_, ?_⟩
  · simp only [analyze, Lexeme.ofText_eq, he, register, hc]
  · simp only [diagnose, Scan.ok, he, List.isEmpty_nil, if_true, hc]
    rfl

/-- What a text comes to hangs on the separators of the session alone. -/
theorem result_analyze (session : Session) (text : String) :
    (session.analyze text).1 = match session.errorsIn text with
      | [] => .ok (Scan.ofText false text).lexemes
      | error :: _ => .error (.lexical error) := by
  cases he : session.errorsIn text with
  | nil =>
    obtain ⟨later, ha, -⟩ := analyze_diagnose_of_accepted he
    rw [ha]
  | cons error errors =>
    obtain ⟨later, -, ha, -⟩ := analyze_diagnose_of_errors he
    rw [ha]

theorem result_diagnose (session : Session) (text : String) :
    (session.diagnose text).1 = .ok ⟨(Scan.ofText false text).lexemes, session.errorsIn text⟩ := by
  cases he : session.errorsIn text with
  | nil =>
    obtain ⟨later, -, hd⟩ := analyze_diagnose_of_accepted he
    rw [hd]
  | cons error errors =>
    obtain ⟨later, -, -, hd⟩ := analyze_diagnose_of_errors he
    rw [hd]

theorem result_analyze_of_separators {other : Session}
    (h : other.separators.toList = session.separators.toList) (text : String) :
    (other.analyze text).1 = (session.analyze text).1 := by
  have hsame : other.errorsIn text = session.errorsIn text := by
    rw [errorsIn, undefined_of_separators (Vocabulary.toList_inj h), errorsIn]
  rw [result_analyze, result_analyze, hsame]

theorem errorsIn_named {error : LexicalError} (h : error ∈ session.errorsIn text) :
    ∀ given, error.cause ≠ .general given := by
  intro given
  obtain h | h := List.mem_append.1 h
  · obtain ⟨c, position, rfl⟩ := (Scan.layout_ofText text).exists_unexpected error h
    exact nofun
  · obtain ⟨lexeme, -, rfl⟩ := List.mem_map.1 h
    exact nofun

end Session

end Lexicon
