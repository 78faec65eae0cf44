import Mathlib.Data.List.Forall2
import Lexicon.Proofs.Session.Mirror
import Lexicon.Proofs.Session.Undefined

namespace Lexicon.Session

def kindOf (session : Session) (lexeme : Lexeme) : Option Kind :=
  match lexeme.category with
  | .literal => some .literal
  | .separator => some .separator
  | .identifier => some (if lexeme.value ∈ session.keywords.toList then .keyword else .identifier)
  | .unknown _ => none

/-- The reference is the one of the lexeme: it leads to the place that the lexeme's text has in the
vocabulary to which the lexeme belongs. -/
structure Files (session : Session) (lexeme : Lexeme) (reference : Reference) : Prop where
  value : reference.value = lexeme.value
  kind : session.kindOf lexeme = some reference.kind
  points : session.Points reference

variable {session later : Session} {lexeme : Lexeme} {reference : Reference}

theorem kindOf_of_keywords (h : later.keywords = session.keywords) (lexeme : Lexeme) :
    later.kindOf lexeme = session.kindOf lexeme := by
  simp only [kindOf, h]

theorem Files.of_extends (hf : session.Files lexeme reference) (h : session.Extends later) :
    later.Files lexeme reference where
  value := hf.value
  kind := (kindOf_of_keywords h.keywords lexeme).trans hf.kind
  points := hf.points.of_extends h

theorem files_resolveLexeme (h : session.resolveLexeme lexeme = (.ok reference, later)) :
    later.Files lexeme reference := by
  cases resolves_of_ok h with
  | separator hc hi => exact ⟨rfl, by simp only [kindOf, hc], ⟨_, rfl, hi⟩⟩
  | keyword hc hi =>
    have hmem : lexeme.value ∈ session.keywords.toList := List.mem_of_getElem? hi
    exact ⟨rfl, by simp only [kindOf, hc, hmem, if_true], ⟨_, rfl, hi⟩⟩
  | literal hc => exact ⟨rfl, by simp only [kindOf, hc], ⟨_, rfl, Vocabulary.getElem?_intern _ _⟩⟩
  | identifier hc hn =>
    exact ⟨rfl, by simp only [kindOf, hc, hn, if_false], ⟨_, rfl, Vocabulary.getElem?_intern _ _⟩⟩

theorem exists_of_files {lexemes : List Lexeme} {references : List Reference}
    (h : List.Forall₂ session.Files lexemes references) (hr : reference ∈ references) :
    ∃ lexeme ∈ lexemes, session.Files lexeme reference := by
  induction h with
  | nil => cases hr
  | @cons lexeme first lexemes references hf _ ih =>
    obtain rfl | hr := List.mem_cons.1 hr
    · exact ⟨lexeme, List.mem_cons_self, hf⟩
    · obtain ⟨lexeme, hl, hf⟩ := ih hr
      exact ⟨lexeme, List.mem_cons_of_mem _ hl, hf⟩

/-- A pass without errors makes the reference of each lexeme, in the order of the lexemes. -/
theorem files_run (failFast : Bool) (lexemes : List Lexeme) (pass : Pass)
    (hs : ∀ lexeme ∈ lexemes, lexeme.category.Scanned) (hu : pass.session.undefined lexemes = []) :
    ∃ last references, Pass.run failFast lexemes pass = (none, last) ∧ last.errors = pass.errors ∧
      last.references.toList = pass.references.toList ++ references ∧
      List.Forall₂ last.session.Files lexemes references := by
  induction lexemes generalizing pass with
  | nil => exact ⟨pass, [], rfl, rfl, (List.append_nil _).symm, .nil⟩
  | cons lexeme lexemes ih =>
    obtain ⟨reference, later, hr, hu⟩ := resolveLexeme_of_defined hs hu
    let next : Pass := ⟨later, pass.references.push reference, pass.errors⟩
    obtain ⟨last, references, hrun, herrors, hreferences, hfiles⟩ :=
      ih next (List.forall_mem_cons.1 hs).2 hu
    refine ⟨last, reference :: references, ?_, herrors, ?_, .cons ?_ hfiles⟩
    · simp only [Pass.run, hr]
      exact hrun
    · rw [hreferences, Array.toList_push, List.append_assoc, List.singleton_append]
    · have hlast := grown_run failFast lexemes next
      rw [hrun] at hlast
      exact (files_resolveLexeme hr).of_extends hlast.extends

theorem files_classify (failFast : Bool) {lexemes : List Lexeme}
    (hs : ∀ lexeme ∈ lexemes, lexeme.category.Scanned) (hu : session.undefined lexemes = []) :
    ∃ references later, session.classify failFast lexemes = (.ok ⟨references, []⟩, later) ∧
      session.Extends later ∧ later.trace.toList = session.trace.toList ++ references ∧
      List.Forall₂ later.Files lexemes references := by
  have hu' : session.taken.undefined lexemes = [] := hu
  obtain ⟨last, references, hrun, herrors, hreferences, hfiles⟩ :=
    files_run failFast lexemes { session := session.taken } hs hu'
  have hmade : last.references.toList = references := hreferences
  have htrace : last.session.trace = session.trace := (grown_of_run hrun).trace
  refine ⟨references, _, ?_, extends_of_accepted hrun, ?_,
    hfiles.imp fun _ _ h => h.of_extends (extends_record last.session last.references)⟩
  · rw [classify_of_accepted hrun herrors, hmade]
  · simp only [released, record, Array.toList_append, htrace, hmade]

end Lexicon.Session
