import Lexicon.Proofs.Scanner.Step
import Lexicon.Proofs.Session.Filing
import Lexicon.Proofs.Session.UndefinedRun

namespace Lexicon.Session

variable {session : Session} {text : String}

theorem analyze_of_accepted (he : (Scan.ofText false text).errors = [])
    (hu : session.undefined (Scan.ofText false text).lexemes = []) :
    ∃ references later, session.analyze text = (.ok (Scan.ofText false text).lexemes, later) ∧
      session.Extends later ∧ later.trace.toList = session.trace.toList ++ references ∧
      List.Forall₂ later.Files (Scan.ofText false text).lexemes references := by
  obtain ⟨references, later, hc, h⟩ := files_classify true (Scan.scanned_ofText text) hu
  refine ⟨references, later, ?_, h⟩
  simp only [analyze, Lexeme.ofText_eq, he, register, hc]

/-- A text comes to one of three ends. A stray character ends it wherever it stands; else a run of
separators that are not defined does; else every lexeme is filed. The scan is never broken off, and of
the session only the separators decide which end it is. -/
theorem analyze_by_stage (session : Session) (text : String) :
    ((∃ front c back, Stray.First text.toList front [c] back ∧
        session.analyze text = (.error (.lexical (.unexpected c (.behind front))), session)) ∨
      (Stray.Absent text.toList ∧ ∃ front run back,
        session.UndefinedRun.First text.toList front run back ∧
        session.analyze text =
          (.error (.lexical ⟨.undefinedSeparator (String.ofList run), .behind front⟩),
            session.released)) ∨
      (Stray.Absent text.toList ∧ session.UndefinedRun.Absent text.toList ∧
        ∃ lexemes references later, Layout [] text.toList lexemes [] ∧
          session.analyze text = (.ok lexemes, later) ∧ session.Extends later ∧
          later.trace.toList = session.trace.toList ++ references ∧
          List.Forall₂ later.Files lexemes references)) ∧
      ((Scanner.ofText text).attempt true).1 = .ok (Scan.ofText true text) ∧
      ∀ other : Session, other.separators.toList = session.separators.toList →
        (other.analyze text).1 = (session.analyze text).1 := by
  have hlayout := Scan.layout_ofText text
  have hparted := parted_nil text.toList
  refine ⟨?_, by rw [Scanner.attempt_eq]; rfl, fun other h => result_analyze_of_separators h text⟩
  obtain ⟨he, hstray⟩ | ⟨front, c, back, more, hfirst, he⟩ :=
    hlayout.first_stray hparted (Stray.clearIn_nil _)
  · refine .inr ?_
    obtain ⟨hu, hrun⟩ | ⟨front, run, back, more, hfirst, hu⟩ :=
      first_undefined hlayout hparted (Pattern.clearIn_nil session.UndefinedRun _)
    · obtain ⟨references, later, h⟩ := analyze_of_accepted he hu
      rw [he] at hlayout
      exact .inr ⟨hstray, hrun, _, references, later, hlayout, h⟩
    · exact .inl ⟨hstray, front, run, back, hfirst, analyze_of_undefined he hu⟩
  · exact .inl ⟨front, c, back, hfirst, analyze_of_scan_error he⟩

end Lexicon.Session
