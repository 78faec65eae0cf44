import Lexicon.Classification
import Lexicon.Proofs.Vocabulary

namespace Lexicon.Session

/-- A session keeps all that an earlier one holds, in its place. -/
structure Extends (session later : Session) : Prop where
  keywords : later.keywords = session.keywords
  separators : later.separators = session.separators
  literals : session.literals.toList <+: later.literals.toList
  identifiers : session.identifiers.toList <+: later.identifiers.toList
  trace : session.trace.toList <+: later.trace.toList

theorem Extends.refl (session : Session) : session.Extends session where
  keywords := rfl
  separators := rfl
  literals := List.prefix_rfl
  identifiers := List.prefix_rfl
  trace := List.prefix_rfl

theorem Extends.trans {session later last : Session} (h : session.Extends later)
    (h' : later.Extends last) : session.Extends last where
  keywords := h'.keywords.trans h.keywords
  separators := h'.separators.trans h.separators
  literals := h.literals.trans h'.literals
  identifiers := h.identifiers.trans h'.identifiers
  trace := h.trace.trans h'.trace

/-- A session differs from an earlier one in what was interned since, and in nothing else. -/
structure Grown (session later : Session) : Prop where
  keywords : later.keywords = session.keywords
  separators : later.separators = session.separators
  literals : session.literals.toList <+: later.literals.toList
  identifiers : session.identifiers.toList <+: later.identifiers.toList
  trace : later.trace = session.trace
  held : later.held = session.held

theorem Grown.refl (session : Session) : session.Grown session where
  keywords := rfl
  separators := rfl
  literals := List.prefix_rfl
  identifiers := List.prefix_rfl
  trace := rfl
  held := rfl

theorem Grown.trans {session later last : Session} (h : session.Grown later) (h' : later.Grown last) :
    session.Grown last where
  keywords := h'.keywords.trans h.keywords
  separators := h'.separators.trans h.separators
  literals := h.literals.trans h'.literals
  identifiers := h.identifiers.trans h'.identifiers
  trace := h'.trace.trans h.trace
  held := h'.held.trans h.held

theorem Grown.extends {session later : Session} (h : session.Grown later) : session.Extends later where
  keywords := h.keywords
  separators := h.separators
  literals := h.literals
  identifiers := h.identifiers
  trace := h.trace ▸ List.prefix_rfl

theorem rewind_of_grown {session later : Session} (h : session.Grown later) :
    later.rewind session.mark = session := by
  have hl : later.literals.truncate session.literals.size = session.literals :=
    Vocabulary.truncate_of_prefix h.literals
  have hi : later.identifiers.truncate session.identifiers.size = session.identifiers :=
    Vocabulary.truncate_of_prefix h.identifiers
  simp only [rewind, mark, hl, hi, h.keywords, h.separators, h.trace, h.held]

inductive Resolves (session : Session) (lexeme : Lexeme) : Reference → Session → Prop
  | separator {i : Nat} (hc : lexeme.category = .separator)
      (hi : session.separators.toList[i]? = some lexeme.value) :
      Resolves session lexeme ⟨lexeme.value, .separator, i⟩ session
  | keyword {i : Nat} (hc : lexeme.category = .identifier)
      (hi : session.keywords.toList[i]? = some lexeme.value) :
      Resolves session lexeme ⟨lexeme.value, .keyword, i⟩ session
  | literal (hc : lexeme.category = .literal) :
      Resolves session lexeme ⟨lexeme.value, .literal, (session.literals.intern lexeme.value).1⟩
        { session with literals := (session.literals.intern lexeme.value).2 }
  | identifier (hc : lexeme.category = .identifier) (hn : lexeme.value ∉ session.keywords.toList) :
      Resolves session lexeme ⟨lexeme.value, .identifier, (session.identifiers.intern lexeme.value).1⟩
        { session with identifiers := (session.identifiers.intern lexeme.value).2 }

theorem resolves_of_ok {session later : Session} {lexeme : Lexeme} {reference : Reference}
    (h : session.resolveLexeme lexeme = (.ok reference, later)) :
    session.Resolves lexeme reference later := by
  unfold resolveLexeme at h
  cases hc : lexeme.category with
  | separator =>
    simp only [hc] at h
    split at h
    · next i hi =>
      cases h
      exact .separator hc (Vocabulary.index?_eq_some.1 hi)
    · cases h
  | literal =>
    simp only [hc] at h
    cases h
    exact .literal hc
  | identifier =>
    simp only [hc] at h
    split at h
    · next i hi =>
      cases h
      exact .keyword hc (Vocabulary.index?_eq_some.1 hi)
    · next hi =>
      cases h
      exact .identifier hc (Vocabulary.index?_eq_none.1 hi)
  | unknown word =>
    simp only [hc] at h
    cases h

theorem Resolves.grown {session later : Session} {lexeme : Lexeme} {reference : Reference}
    (h : session.Resolves lexeme reference later) : session.Grown later := by
  cases h with
  | separator | keyword => exact .refl session
  | literal => exact { Grown.refl session with literals := Vocabulary.prefix_intern _ _ }
  | identifier => exact { Grown.refl session with identifiers := Vocabulary.prefix_intern _ _ }

theorem resolveLexeme_error {session later : Session} {lexeme : Lexeme} {failure : Failure}
    (h : session.resolveLexeme lexeme = (.error failure, later)) : later = session := by
  unfold resolveLexeme at h
  cases hc : lexeme.category with
  | separator =>
    simp only [hc] at h
    split at h
    · simp at h
    · exact (Prod.mk.inj h).2.symm
  | literal => simp [hc] at h
  | identifier =>
    simp only [hc] at h
    split at h <;> simp at h
  | unknown word =>
    simp only [hc] at h
    exact (Prod.mk.inj h).2.symm

theorem grown_resolveLexeme (session : Session) (lexeme : Lexeme) :
    session.Grown (session.resolveLexeme lexeme).2 := by
  cases hr : session.resolveLexeme lexeme with
  | mk result later =>
    cases result with
    | ok reference => exact (resolves_of_ok hr).grown
    | error failure =>
      rw [resolveLexeme_error hr]
      exact .refl session

/-- A pass keeps what a lexeme that is resolved does not break, nor an error that is noted. -/
theorem run_keeps {motive : Pass → Prop}
    (hmade : ∀ pass lexeme reference later, motive pass →
      pass.session.resolveLexeme lexeme = (.ok reference, later) →
        motive ⟨later, pass.references.push reference, pass.errors⟩)
    (hnoted : ∀ pass error, motive pass →
      motive ⟨pass.session, pass.references, pass.errors.push error⟩)
    (failFast : Bool) (lexemes : List Lexeme) {pass : Pass} (h : motive pass) :
    motive (Pass.run failFast lexemes pass).2 := by
  induction lexemes generalizing pass with
  | nil => exact h
  | cons lexeme lexemes ih =>
    unfold Pass.run
    split
    · next reference session hr => exact ih (hmade pass lexeme reference session h hr)
    · next error session hr =>
      obtain rfl : session = pass.session := resolveLexeme_error hr
      dsimp only
      split
      · exact hnoted pass error h
      · exact ih (hnoted pass error h)
    · next fault session hr =>
      obtain rfl : session = pass.session := resolveLexeme_error hr
      exact h

theorem grown_run (failFast : Bool) (lexemes : List Lexeme) (pass : Pass) :
    pass.session.Grown (Pass.run failFast lexemes pass).2.session := by
  refine run_keeps (motive := fun later => pass.session.Grown later.session) ?_ ?_ failFast lexemes
    (.refl pass.session)
  · exact fun _ _ _ _ h hr => h.trans (resolves_of_ok hr).grown
  · exact fun _ _ h => h

/-- A pass goes on behind the first lexemes where they have left it, unless they have cut it short. -/
theorem run_append (failFast : Bool) (front back : List Lexeme) (pass : Pass)
    (h : failFast = true → pass.errors = #[]) :
    Pass.run failFast (front ++ back) pass =
      match Pass.run failFast front pass with
      | (some fault, middle) => (some fault, middle)
      | (none, middle) =>
        if failFast = true ∧ middle.errors ≠ #[] then (none, middle)
        else Pass.run failFast back middle := by
  induction front generalizing pass with
  | nil =>
    have hgoes : ¬ (failFast = true ∧ pass.errors ≠ #[]) := fun hn => hn.2 (h hn.1)
    simp only [List.nil_append, Pass.run, if_neg hgoes]
  | cons lexeme front ih =>
    rw [List.cons_append, Pass.run, Pass.run]
    split
    · next reference session hr => exact ih _ h
    · next error session hr =>
      cases failFast with
      | true => simp
      | false => exact ih _ nofun
    · rfl

theorem Pass.errors_ne_empty {pass : Pass} {error : LexicalError} {errors : List LexicalError}
    (h : pass.errors.toList = error :: errors) : pass.errors ≠ #[] := by
  intro he
  rw [he] at h
  cases h

def taken (session : Session) : Session :=
  { session with held := true }

def released (session : Session) : Session :=
  { session with held := false }

theorem extends_taken (session : Session) : session.Extends session.taken :=
  ⟨rfl, rfl, List.prefix_rfl, List.prefix_rfl, List.prefix_rfl⟩

theorem extends_record (session : Session) (references : Array Reference) :
    session.Extends (session.record references).released := by
  refine ⟨rfl, rfl, List.prefix_rfl, List.prefix_rfl, ?_⟩
  simp only [released, record, Array.toList_append, List.prefix_append]

theorem released_of_free {session : Session} (h : session.held = false) :
    session.released = session := by
  rw [released, ← h]

section

variable {session : Session} {failFast : Bool} {lexemes : List Lexeme} {pass : Pass}

theorem grown_of_run {outcome : Option UnknownCategory × Pass}
    (h : Pass.run failFast lexemes { session := session.taken } = outcome) :
    session.taken.Grown outcome.2.session :=
  h ▸ grown_run failFast lexemes { session := session.taken }

theorem classify_of_fault {fault : UnknownCategory}
    (h : Pass.run failFast lexemes { session := session.taken } = (some fault, pass)) :
    session.classify failFast lexemes = (.error fault, session.released) := by
  have hg := rewind_of_grown (grown_of_run h)
  simp only [taken] at h hg
  simp only [classify, exclusively, h, hg, released]

theorem classify_of_errors
    (h : Pass.run failFast lexemes { session := session.taken } = (none, pass))
    (he : pass.errors ≠ #[]) :
    session.classify failFast lexemes = (.ok ⟨[], pass.errors.toList⟩, session.released) := by
  have hg := rewind_of_grown (grown_of_run h)
  have hempty : pass.errors.isEmpty = false := by simpa using he
  simp only [taken] at h hg
  simp only [classify, exclusively, h, hg, hempty, released, Bool.false_eq_true, if_false]

theorem classify_of_accepted
    (h : Pass.run failFast lexemes { session := session.taken } = (none, pass))
    (he : pass.errors = #[]) :
    session.classify failFast lexemes =
      (.ok ⟨pass.references.toList, []⟩, (pass.session.record pass.references).released) := by
  have hempty : pass.errors.isEmpty = true := by simpa using he
  simp only [taken] at h
  simp only [classify, exclusively, h, hempty, released, if_true]

end

/-- How a classification ends by its pass: nothing stays of a fault or errors, else all is recorded. -/
inductive Settles (session : Session) (failFast : Bool) (lexemes : List Lexeme) :
    Except UnknownCategory Classification × Session → Prop
  | fault {fault : UnknownCategory} {pass : Pass}
      (h : Pass.run failFast lexemes { session := session.taken } = (some fault, pass)) :
      Settles session failFast lexemes (.error fault, session.released)
  | errors {pass : Pass}
      (h : Pass.run failFast lexemes { session := session.taken } = (none, pass))
      (he : pass.errors ≠ #[]) :
      Settles session failFast lexemes (.ok ⟨[], pass.errors.toList⟩, session.released)
  | accepted {pass : Pass}
      (h : Pass.run failFast lexemes { session := session.taken } = (none, pass))
      (he : pass.errors = #[]) :
      Settles session failFast lexemes
        (.ok ⟨pass.references.toList, []⟩, (pass.session.record pass.references).released)

theorem settles_classify (session : Session) (failFast : Bool) (lexemes : List Lexeme) :
    session.Settles failFast lexemes (session.classify failFast lexemes) := by
  cases hrun : Pass.run failFast lexemes { session := session.taken } with
  | mk fault pass =>
    cases fault with
    | some fault =>
      rw [classify_of_fault hrun]
      exact .fault hrun
    | none =>
      by_cases he : pass.errors = #[]
      · rw [classify_of_accepted hrun he]
        exact .accepted hrun he
      · rw [classify_of_errors hrun he]
        exact .errors hrun he

end Lexicon.Session
