import Lexicon.Proofs.Session.Classification

namespace Lexicon.Session

variable {session later : Session} {lexemes : List Lexeme} {references : List Reference}

theorem resolveLexeme_of_files {lexeme : Lexeme} {reference : Reference}
    (h : session.Files lexeme reference) : session.resolveLexeme lexeme = (.ok reference, session) := by
  obtain ⟨value, kind, index⟩ := reference
  obtain ⟨hvalue, hkind, i, hi, hget⟩ := h
  obtain rfl : value = lexeme.value := hvalue
  obtain rfl : index = i := hi
  unfold kindOf at hkind
  unfold resolveLexeme
  cases hc : lexeme.category with
  | separator =>
    simp only [hc, Option.some.injEq] at hkind
    subst hkind
    have hindex : session.separators.index? lexeme.value = some i := Vocabulary.index?_eq_some.2 hget
    simp only [hindex]
  | literal =>
    simp only [hc, Option.some.injEq] at hkind
    subst hkind
    have hintern : session.literals.intern lexeme.value = (i, session.literals) :=
      Vocabulary.intern_of_mem hget
    have hset : session.setVocabulary session.literals = session :=
      session.setVocabulary_vocabulary .literal
    simp only [hintern, hset]
  | identifier =>
    simp only [hc, Option.some.injEq] at hkind
    by_cases hm : lexeme.value ∈ session.keywords.toList
    · rw [if_pos hm] at hkind
      subst hkind
      have hindex : session.keywords.index? lexeme.value = some i := Vocabulary.index?_eq_some.2 hget
      simp only [hindex]
    · rw [if_neg hm] at hkind
      subst hkind
      have hindex : session.keywords.index? lexeme.value = none := Vocabulary.index?_eq_none.2 hm
      have hintern : session.identifiers.intern lexeme.value = (i, session.identifiers) :=
        Vocabulary.intern_of_mem hget
      have hset : session.setVocabulary session.identifiers = session :=
        session.setVocabulary_vocabulary .identifier
      simp only [hindex, hintern, hset]
  | unknown word =>
    simp only [hc] at hkind
    cases hkind

theorem run_of_files (failFast : Bool) (h : List.Forall₂ session.Files lexemes references)
    (made : Array Reference) (errors : Array LexicalError) :
    Pass.run failFast lexemes ⟨session, made, errors⟩ =
      (none, ⟨session, made ++ references.toArray, errors⟩) := by
  induction h generalizing made with
  | nil => simp only [Pass.run, Array.append_empty]
  | @cons lexeme reference lexemes references hf _ ih =>
    have hmade : made.push reference ++ references.toArray = made ++ (reference :: references).toArray := by
      apply Array.toList_inj.1
      simp
    rw [Pass.run, resolveLexeme_of_files hf]
    simp only [ih, hmade]

theorem register_of_files (hheld : session.held = false)
    (h : List.Forall₂ session.Files lexemes references) :
    session.register lexemes = (.ok references, session.record references.toArray) := by
  have htaken : List.Forall₂ session.taken.Files lexemes references :=
    h.imp fun _ _ hf => hf.of_extends (extends_taken session)
  have hrun := run_of_files true htaken #[] #[]
  rw [Array.empty_append] at hrun
  simp only [register, classify_of_accepted hrun rfl, released, record, taken, hheld]

theorem held_classify (session : Session) (failFast : Bool) (lexemes : List Lexeme) :
    (session.classify failFast lexemes).2.held = false := by
  rfl

theorem files_of_register (h : session.register lexemes = (.ok references, later)) :
    List.Forall₂ later.Files lexemes references ∧ later.held = false := by
  have hc := session.comesTo_classify true lexemes
  have hheld := held_classify session true lexemes
  unfold register at h
  generalize session.classify true lexemes = outcome at h hc hheld
  cases hc with
  | fault | errors => cases h
  | accepted _ _ _ _ hf =>
    cases h
    exact ⟨hf, hheld⟩

theorem points_of_files (h : List.Forall₂ session.Files lexemes references) :
    ∀ reference ∈ references, session.Points reference := by
  induction h with
  | nil => exact nofun
  | cons hf _ ih => exact List.forall_mem_cons.2 ⟨hf.points, ih⟩

/-- References are permanent: whatever calls have come upon the session since, they lead to their texts,
and the same lexemes get the same references once more, for which nothing is interned. -/
theorem register_again (h : session.register lexemes = (.ok references, later)) (calls : List Call) :
    let last := later.run calls
    (∀ reference ∈ references, last.resolve reference = .ok reference.value) ∧
      last.register lexemes = (.ok references, last.record references.toArray) := by
  intro last
  obtain ⟨hf, hfree⟩ := files_of_register h
  have he : later.Extends last := extends_run hfree calls
  have hlast : List.Forall₂ last.Files lexemes references := hf.imp fun _ _ hf => hf.of_extends he
  exact ⟨fun reference hr => (points_of_files hlast reference hr).resolve.2.2,
    register_of_files (held_run hfree calls) hlast⟩

theorem register_again_refusals :
    let lexemes : List Lexeme := [⟨"let", .identifier, {}⟩, ⟨"x", .identifier, {}⟩, ⟨"7", .literal, {}⟩,
      ⟨"x", .identifier, {}⟩, ⟨";", .separator, {}⟩]
    let references : List Reference := [⟨"let", .keyword, 0⟩, ⟨"x", .identifier, 0⟩, ⟨"7", .literal, 0⟩,
      ⟨"x", .identifier, 0⟩, ⟨";", .separator, 1⟩]
    let calls : List Call := [.analyze "y = 8;", .diagnose "@ z", .resolve ⟨"q", .identifier, {}⟩,
      .classify false [⟨"9", .literal, {}⟩, ⟨"=>", .separator, {}⟩],
      .register [⟨"c", .identifier, {}⟩, ⟨"?", .unknown "bogus", {}⟩]]
    ∃ later, fresh.register lexemes = (.ok references, later) ∧
      let last := later.run calls
      last.identifiers.toList = ["x", "y", "q"] ∧ last.literals.toList = ["7", "8"] ∧
        (∀ reference ∈ references, last.resolve reference = .ok reference.value) ∧
        last.register lexemes = (.ok references, last.record references.toArray) := by
  intro lexemes references calls
  have h : fresh.register lexemes = (.ok references, (fresh.register lexemes).2) :=
    Prod.ext (by decide +kernel) rfl
  obtain ⟨hresolve, hagain⟩ := register_again h calls
  exact ⟨_, h, by decide +kernel, by decide +kernel, hresolve, hagain⟩

end Lexicon.Session
