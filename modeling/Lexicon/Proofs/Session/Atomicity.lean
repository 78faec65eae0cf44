import Lexicon.Proofs.Program.Output
import Lexicon.Proofs.Session.History
import Lexicon.Proofs.Session.Pass

namespace Lexicon.Session

/-- What a call does to a session takes effect as a whole or not at all, and in the end nobody
holds the session. -/
structure Atomic (session : Session) (rejected : Prop) (later : Session) : Prop where
  unchanged : rejected → later = session
  extended : ¬ rejected → session.Extends later
  free : later.held = false

variable {session : Session}

theorem extends_of_accepted {failFast : Bool} {lexemes : List Lexeme} {pass : Pass}
    (h : Pass.run failFast lexemes { session := session.taken } = (none, pass)) :
    session.Extends (pass.session.record pass.references).released := by
  have hg : session.Extends pass.session := (extends_taken session).trans (grown_of_run h).extends
  exact hg.trans (extends_record pass.session pass.references)

theorem atomic_classify (h : session.held = false) (failFast : Bool) (lexemes : List Lexeme) :
    session.Atomic (Answer.classified (session.classify failFast lexemes).1).Rejects
      (session.classify failFast lexemes).2 := by
  have hsettles := session.settles_classify failFast lexemes
  generalize session.classify failFast lexemes = outcome at hsettles ⊢
  cases hsettles with
  | fault => exact ⟨fun _ => released_of_free h, fun hn => absurd trivial hn, rfl⟩
  | @errors pass _ he =>
    have hne : pass.errors.toList ≠ [] := by simpa using he
    exact ⟨fun _ => released_of_free h, fun hn => absurd hne hn, rfl⟩
  | accepted hrun => exact ⟨fun hr => absurd rfl hr, fun _ => extends_of_accepted hrun, rfl⟩

theorem rejects_register (session : Session) (lexemes : List Lexeme) :
    (Answer.registered (session.register lexemes).1).Rejects ↔
      (Answer.classified (session.classify true lexemes).1).Rejects := by
  unfold register
  cases session.classify true lexemes with
  | mk result later =>
    cases result with
    | error fault => exact Iff.rfl
    | ok classification =>
      dsimp only
      split
      · next he => simp [Answer.Rejects, he]
      · next error errors he => simp [Answer.Rejects, he]

theorem atomic_register (h : session.held = false) (lexemes : List Lexeme) :
    session.Atomic (Answer.registered (session.register lexemes).1).Rejects
      (session.register lexemes).2 := by
  rw [session_register, propext (rejects_register session lexemes)]
  exact atomic_classify h true lexemes

theorem atomic_resolve (h : session.held = false) (lexeme : Lexeme) :
    session.Atomic (Answer.resolved (session.resolveLexeme lexeme).1).Rejects
      (session.resolveLexeme lexeme).2 := by
  have hg := grown_resolveLexeme session lexeme
  refine ⟨?_, fun _ => hg.extends, hg.held.trans h⟩
  cases hr : session.resolveLexeme lexeme with
  | mk result later =>
    cases result with
    | error failure => exact fun _ => resolveLexeme_error hr
    | ok reference => exact fun hf => hf.elim

theorem atomic_analyze (h : session.held = false) (text : String) :
    session.Atomic (Answer.analyzed (session.analyze text).1).Rejects (session.analyze text).2 := by
  unfold analyze
  cases Lexeme.ofText text with
  | error error => exact ⟨fun _ => rfl, fun hn => absurd trivial hn, h⟩
  | ok lexemes =>
    have ha := atomic_register h lexemes
    dsimp only
    split
    · next failure later hr =>
      rw [hr] at ha
      exact ha
    · next references later hr =>
      rw [hr] at ha
      exact ha

theorem atomic_diagnose (h : session.held = false) (text : String) :
    session.Atomic (Answer.diagnosed (session.diagnose text).1).Rejects
      (session.diagnose text).2 := by
  unfold diagnose
  by_cases hok : (Scan.ofText false text).ok = true
  · have he : (Scan.ofText false text).errors = [] := by simpa [Scan.ok] using hok
    have ha := atomic_classify h false (Scan.ofText false text).lexemes
    simp only [hok, if_true]
    cases hc : session.classify false (Scan.ofText false text).lexemes with
    | mk result later =>
      rw [hc] at ha
      cases result with
      | error fault => exact ha
      | ok classification =>
        simp only [Except.map, he, List.nil_append]
        exact ha
  · have he : (Scan.ofText false text).errors ≠ [] := by simpa [Scan.ok] using hok
    simp only [hok, Bool.false_eq_true, if_false]
    refine ⟨fun _ => rfl, fun hn => absurd ?_ hn, h⟩
    cases (session.scratch.classify false (Scan.ofText false text).lexemes).1 with
    | error fault => exact trivial
    | ok classification => simp [Except.map, Answer.Rejects, he]

theorem atomic_judge (h : session.held = false) (everyError : Bool) (text : String) :
    session.Atomic (∀ lexemes, (session.judge everyError text).1 ≠ .ok (.accepted lexemes))
      (session.judge everyError text).2 := by
  unfold judge
  cases everyError with
  | true =>
    have ha := atomic_diagnose h text
    simp only [if_true]
    cases hd : session.diagnose text with
    | mk result later =>
      rw [hd] at ha
      cases result with
      | error fault =>
        exact ⟨fun _ => ha.unchanged trivial, fun hn => absurd (fun _ => nofun) hn, ha.free⟩
      | ok diagnosis =>
        dsimp only
        -- a diagnosis with errors is an answer, but the program is rejected by it
        split
        · next he =>
          have hr : ¬ (Answer.diagnosed (.ok diagnosis)).Rejects :=
            fun hne => hne (List.isEmpty_iff.1 he)
          exact ⟨fun hn => absurd rfl (hn diagnosis.lexemes), fun _ => ha.extended hr, ha.free⟩
        · next he =>
          have hr : (Answer.diagnosed (.ok diagnosis)).Rejects :=
            fun hne => he (List.isEmpty_iff.2 hne)
          exact ⟨fun _ => ha.unchanged hr, fun hn => absurd (fun _ => nofun) hn, ha.free⟩
  | false =>
    have ha := atomic_analyze h text
    simp only [Bool.false_eq_true, if_false]
    cases hd : session.analyze text with
    | mk result later =>
      rw [hd] at ha
      cases result with
      | ok lexemes =>
        exact ⟨fun hn => absurd rfl (hn lexemes), fun _ => ha.extended (fun hf => hf), ha.free⟩
      | error failure =>
        cases failure with
        | lexical error =>
          exact ⟨fun _ => ha.unchanged trivial, fun hn => absurd (fun _ => nofun) hn, ha.free⟩
        | category fault =>
          exact ⟨fun _ => ha.unchanged trivial, fun hn => absurd (fun _ => nofun) hn, ha.free⟩

theorem atomic_process (h : session.held = false) (settings : Settings) (dumpPath : String)
    (files : FileSystem) (text : String) :
    let outcome := Program.process settings dumpPath files session text
    session.Atomic (Answer.processed outcome.result outcome.output).Rejects outcome.session := by
  have ha := atomic_judge h settings.everyError text
  intro outcome
  unfold outcome Program.process
  cases hj : session.judge settings.everyError text with
  | mk verdict later =>
    rw [hj] at ha
    cases verdict with
    | error fault =>
      have hsame : later = session := ha.unchanged (fun _ => nofun)
      subst hsame
      exact ⟨fun _ => rfl, fun _ => .refl later, ha.free⟩
    | ok verdict =>
      cases verdict with
      | rejected errors =>
        have hsame : later = session := ha.unchanged (fun _ => nofun)
        subst hsame
        exact ⟨fun _ => rfl, fun _ => .refl later, ha.free⟩
      | accepted lexemes =>
        have hext : session.Extends later := ha.extended (fun hn => hn lexemes rfl)
        dsimp only
        split
        · exact ⟨fun hr => absurd hr.1 (by simp), fun _ => hext, ha.free⟩
        · refine ⟨?_, fun _ => hext, ha.free⟩
          rintro ⟨hresult, errors, hne, houtput⟩
          have hhead := Program.head_dump hresult
          exact absurd houtput (Program.listings_ne_errorLines settings lexemes later hhead hne)

theorem atomic_perform (h : session.held = false) (call : Call) :
    session.Atomic (session.perform call).1.Rejects (session.perform call).2 := by
  cases call with
  | register lexemes => exact atomic_register h lexemes
  | classify failFast lexemes => exact atomic_classify h failFast lexemes
  | resolve lexeme => exact atomic_resolve h lexeme
  | analyze text => exact atomic_analyze h text
  | diagnose text => exact atomic_diagnose h text
  | process settings dumpPath files text => exact atomic_process h settings dumpPath files text

theorem extends_perform (h : session.held = false) (call : Call) :
    session.Extends (session.perform call).2 := by
  have ha := atomic_perform h call
  by_cases hr : (session.perform call).1.Rejects
  · rw [ha.unchanged hr]
    exact .refl session
  · exact ha.extended hr

theorem extends_run (h : session.held = false) (calls : List Call) :
    session.Extends (session.run calls) := by
  induction calls generalizing session with
  | nil => exact .refl session
  | cons call calls ih => exact (extends_perform h call).trans (ih (atomic_perform h call).free)

theorem held_run (h : session.held = false) (calls : List Call) : (session.run calls).held = false := by
  induction calls generalizing session with
  | nil => exact h
  | cons call calls ih => exact ih (atomic_perform h call).free

theorem held_of_reachable (h : session.Reachable) : session.held = false := by
  obtain ⟨keywords, separators, start, calls, hstart, rfl⟩ := h
  apply held_run
  rw [eq_of_ofLists hstart]

/-- A rejected call leaves a session as it was, and any other adds to it. -/
theorem perform_atomic (h : session.Reachable) (call : Call) :
    ((session.perform call).1.Rejects → (session.perform call).2 = session) ∧
      (¬ (session.perform call).1.Rejects → session.Extends (session.perform call).2) ∧
      (session.perform call).2.held = false := by
  have ha := atomic_perform (held_of_reachable h) call
  exact ⟨ha.unchanged, ha.extended, ha.free⟩

theorem perform_atomic_unknown_category :
    ∃ session : Session, session.Reachable ∧ session.identifiers.toList = ["x"] ∧
      (session.perform (.classify false [⟨"7", .literal, {}⟩, ⟨"y", .identifier, {}⟩,
        ⟨"=>", .separator, {}⟩, ⟨"?", .unknown "bogus", {}⟩])).1.Rejects ∧
      (session.perform (.classify false [⟨"7", .literal, {}⟩, ⟨"y", .identifier, {}⟩,
        ⟨"=>", .separator, {}⟩, ⟨"?", .unknown "bogus", {}⟩])).2 = session := by
  have hstart : ofLists ["let"] [";"] = .ok
      { keywords := Vocabulary.empty.internAll ["let"],
        separators := Vocabulary.empty.internAll [";"] } := by rfl
  have h := (⟨_, _, _, [.register [⟨"x", .identifier, {}⟩]], hstart, rfl⟩ : Reachable _)
  exact ⟨_, h, by decide +kernel, trivial, (perform_atomic h _).1 trivial⟩

end Lexicon.Session
