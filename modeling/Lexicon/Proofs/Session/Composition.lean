import Lexicon.Proofs.Session.Classification

namespace Lexicon.Session

variable {session : Session} {lexemes : List Lexeme}

def withTrace (session : Session) (trace : Array Reference) : Session :=
  { session with trace }

def Pass.behind (pass : Pass) (trace earlier : Array Reference) : Pass :=
  ⟨pass.session.withTrace trace, earlier ++ pass.references, pass.errors⟩

theorem resolveLexeme_withTrace (session : Session) (trace : Array Reference) (lexeme : Lexeme) :
    (session.withTrace trace).resolveLexeme lexeme =
      ((session.resolveLexeme lexeme).1, (session.resolveLexeme lexeme).2.withTrace trace) := by
  unfold resolveLexeme withTrace
  cases lexeme.category with
  | separator =>
    dsimp only
    split <;> rfl
  | identifier =>
    dsimp only
    split <;> rfl
  | literal | unknown word => rfl

theorem run_behind (failFast : Bool) (lexemes : List Lexeme) (pass : Pass)
    (trace earlier : Array Reference) :
    Pass.run failFast lexemes (pass.behind trace earlier) =
      ((Pass.run failFast lexemes pass).1, (Pass.run failFast lexemes pass).2.behind trace earlier) := by
  induction lexemes generalizing pass with
  | nil => rfl
  | cons lexeme lexemes ih =>
    have hr := resolveLexeme_withTrace pass.session trace lexeme
    cases hl : pass.session.resolveLexeme lexeme with
    | mk result later =>
      rw [hl] at hr
      cases result with
      | ok reference =>
        have hnext := ih ⟨later, pass.references.push reference, pass.errors⟩
        rw [Pass.behind, Array.append_push] at hnext
        simp only [Pass.run, Pass.behind, hl, hr]
        exact hnext
      | error failure =>
        cases failure with
        | category fault => simp only [Pass.run, Pass.behind, hl, hr]
        | lexical error =>
          have hnext := ih ⟨later, pass.references, pass.errors.push error⟩
          simp only [Pass.run, Pass.behind, hl, hr]
          cases failFast with
          | true => rfl
          | false => exact hnext

theorem register_of_fault {fault : UnknownCategory} {pass : Pass}
    (h : Pass.run true lexemes { session := session.taken } = (some fault, pass)) :
    session.register lexemes = (.error (.category fault), session.released) := by
  simp only [register, classify_of_fault h]

theorem register_of_errors {pass : Pass} {error : LexicalError} {errors : List LexicalError}
    (h : Pass.run true lexemes { session := session.taken } = (none, pass))
    (he : pass.errors.toList = error :: errors) :
    session.register lexemes = (.error (.lexical error), session.released) := by
  simp only [register, classify_of_errors h (Pass.errors_ne_empty he), he]

theorem register_of_accepted {pass : Pass}
    (h : Pass.run true lexemes { session := session.taken } = (none, pass)) (he : pass.errors = #[]) :
    session.register lexemes =
      (.ok pass.references.toList, (pass.session.record pass.references).released) := by
  simp only [register, classify_of_accepted h he]

/-- Where the first lexemes have been registered, the others come upon the same vocabularies as in one
pass over all of them. -/
theorem behind_recorded {pass : Pass} (hg : session.taken.Grown pass.session) (he : pass.errors = #[]) :
    let middle := (pass.session.record pass.references).released
    pass = Pass.behind { session := middle.taken } session.trace pass.references := by
  obtain ⟨⟨keywords, separators, literals, identifiers, trace, held⟩, references, errors⟩ := pass
  obtain rfl : trace = session.trace := hg.trace
  obtain rfl : held = true := hg.held
  obtain rfl : errors = #[] := he
  simp only [Pass.behind, withTrace, taken, released, record, Array.append_empty]

theorem register_behind {pass : Pass} (hg : session.taken.Grown pass.session) (he : pass.errors = #[])
    {back : List Lexeme}
    (hrun : Pass.run true lexemes { session := session.taken } = Pass.run true back pass) :
    session.register lexemes =
      match (pass.session.record pass.references).released.register back with
      | (.error failure, _) => (.error failure, session.released)
      | (.ok more, last) => (.ok (pass.references.toList ++ more), last) := by
  let middle := (pass.session.record pass.references).released
  have hpass : pass = Pass.behind { session := middle.taken } session.trace pass.references :=
    behind_recorded hg he
  rw [hpass, run_behind] at hrun
  cases hback : Pass.run true back { session := middle.taken } with
  | mk fault last =>
    rw [hback] at hrun
    cases fault with
    | some fault => rw [register_of_fault hrun, register_of_fault hback]
    | none =>
      cases herrors : last.errors.toList with
      | cons error errors => rw [register_of_errors hrun herrors, register_of_errors hback herrors]
      | nil =>
        have hempty : last.errors = #[] := Array.toList_inj.1 herrors
        have hlast : last.session.trace = middle.trace := (grown_of_run hback).trace
        have htrace : pass.session.trace = session.trace := hg.trace
        rw [register_of_accepted hrun hempty, register_of_accepted hback hempty]
        simp only [Pass.behind, withTrace, record, released, hlast, middle, htrace,
          Array.toList_append, Array.append_assoc]

theorem register_error {failure : Failure} {later : Session}
    (hs : ∀ lexeme ∈ lexemes, lexeme.category.Scanned)
    (h : session.register lexemes = (.error failure, later)) :
    ∃ lexeme ∈ lexemes, session.Lacks lexeme ∧ failure = .lexical (.undefined lexeme) := by
  have hc := session.comesTo_classify true lexemes
  unfold register at h
  generalize session.classify true lexemes = outcome at h hc
  cases hc with
  | fault hb =>
    obtain ⟨before, lexeme, after, rfl, -, hf⟩ := exists_first_fault hb.first
    have hl : lexeme.category.Scanned := hs lexeme (by simp)
    exact absurd (Lexeme.category_of_fault hf) (hl _)
  | @errors first _ _ hu =>
    have hfirst : first ∈ session.undefined lexemes := by
      rw [hu]
      exact List.mem_cons_self
    obtain ⟨lexeme, hm, rfl⟩ := List.mem_map.1 hfirst
    obtain ⟨hm, hl⟩ := List.mem_filter.1 hm
    cases h
    exact ⟨lexeme, hm, of_decide_eq_true hl, rfl⟩
  | accepted => cases h

/-- To register one list behind the other comes to the same as to register both at once, but that a
failure of the second then undoes the first. The failure is that of the list which fails first. -/
theorem register_append (session : Session) (front back : List Lexeme) :
    session.register (front ++ back) =
        (match session.register front with
        | (.error failure, _) => (.error failure, session.released)
        | (.ok references, middle) =>
          match middle.register back with
          | (.error failure, _) => (.error failure, session.released)
          | (.ok more, last) => (.ok (references ++ more), last)) ∧
      ((∀ lexeme ∈ front ++ back, lexeme.category.Scanned) →
        ∀ failure later, session.register (front ++ back) = (.error failure, later) →
          ∃ lexeme ∈ front ++ back, session.Lacks lexeme ∧ failure = .lexical (.undefined lexeme)) := by
  refine ⟨?_, fun hs failure later h => register_error hs h⟩
  have happend := run_append true front back { session := session.taken } (fun _ => rfl)
  cases hfront : Pass.run true front { session := session.taken } with
  | mk fault middle =>
    rw [hfront] at happend
    cases fault with
    | some fault => rw [register_of_fault happend, register_of_fault hfront]
    | none =>
      cases herrors : middle.errors.toList with
      | cons error errors =>
        have hcut := happend.trans (if_pos ⟨rfl, Pass.errors_ne_empty herrors⟩)
        rw [register_of_errors hcut herrors, register_of_errors hfront herrors]
      | nil =>
        have hempty : middle.errors = #[] := Array.toList_inj.1 herrors
        have hgoes := happend.trans (if_neg fun hn => hn.2 hempty)
        rw [register_behind (grown_of_run hfront) hempty hgoes, register_of_accepted hfront hempty]

end Lexicon.Session
