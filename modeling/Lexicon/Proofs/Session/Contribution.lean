import Lexicon.Proofs.Session.Rebuilding

namespace Lexicon

def Classification.made : Except UnknownCategory Classification → List Reference
  | .ok classification => classification.references
  | .error _ => []

def Classification.content :
    Except UnknownCategory Classification → Except UnknownCategory (List (Kind × String) × List LexicalError) :=
  Except.map fun classification => (classification.references.map Reference.entry, classification.errors)

theorem Classification.cases_of_content {result result' : Except UnknownCategory Classification}
    (h : content result = content result') :
    (∃ fault, result = .error fault ∧ result' = .error fault) ∨
      ∃ classification classification', result = .ok classification ∧ result' = .ok classification' ∧
        classification.references.map Reference.entry = classification'.references.map Reference.entry ∧
        classification.errors = classification'.errors := by
  cases result with
  | error fault =>
    cases result' with
    | error fault' => exact .inl ⟨fault, rfl, congrArg Except.error (Except.error.inj h).symm⟩
    | ok classification' => cases h
  | ok classification =>
    cases result' with
    | error fault' => cases h
    | ok classification' =>
      have hsame := Prod.mk.inj (Except.ok.inj h)
      exact .inr ⟨classification, classification', rfl, rfl, hsame.1, hsame.2⟩

namespace Session

/-- The later session has the references behind its trace, and in its vocabularies nothing new but the
entries to which these lead. -/
structure Adds (session : Session) (references : List Reference) (later : Session) : Prop where
  extended : session.Extends later
  trace : later.trace.toList = session.trace.toList ++ references
  points : ∀ reference ∈ references, later.Points reference
  entries : ∀ kind value, value ∈ (later.vocabulary kind).toList ↔
    value ∈ (session.vocabulary kind).toList ∨ (kind, value) ∈ references.map Reference.entry

variable {session later last other : Session} {reference : Reference} {references more : List Reference}

theorem vocabulary_congr (hk : later.keywords = session.keywords)
    (hs : later.separators = session.separators) (hl : later.literals = session.literals)
    (hi : later.identifiers = session.identifiers) : later.vocabulary = session.vocabulary := by
  funext kind
  cases kind <;> assumption

theorem Adds.refl (session : Session) : session.Adds [] session where
  extended := .refl session
  trace := (List.append_nil _).symm
  points := nofun
  entries := by simp only [List.map_nil, List.not_mem_nil, or_false, implies_true]

theorem Adds.trans (h : session.Adds references later) (h' : later.Adds more last) :
    session.Adds (references ++ more) last where
  extended := h.extended.trans h'.extended
  trace := by rw [h'.trace, h.trace, List.append_assoc]
  points := by
    intro reference hr
    obtain hr | hr := List.mem_append.1 hr
    · exact (h.points reference hr).of_extends h'.extended
    · exact h'.points reference hr
  entries := by
    intro kind value
    rw [h'.entries, h.entries, List.map_append, List.mem_append, or_assoc]

theorem entries_resolveLexeme {lexeme : Lexeme}
    (h : session.resolveLexeme lexeme = (.ok reference, later)) (kind : Kind) (value : String) :
    value ∈ (later.vocabulary kind).toList ↔
      value ∈ (session.vocabulary kind).toList ∨ (kind, value) = reference.entry := by
  constructor
  · intro hv
    cases resolves_of_ok h with
    | separator | keyword => exact .inl hv
    | literal =>
      cases kind with
      | literal => exact ((Vocabulary.mem_intern _ _).1 hv).imp_right fun he => by rw [he]; rfl
      | keyword | separator | identifier => exact .inl hv
    | identifier =>
      cases kind with
      | identifier => exact ((Vocabulary.mem_intern _ _).1 hv).imp_right fun he => by rw [he]; rfl
      | keyword | separator | literal => exact .inl hv
  · rintro (hv | he)
    · exact ((resolves_of_ok h).grown.extends.prefix_vocabulary kind).subset hv
    · cases he
      obtain ⟨i, -, hget⟩ := (files_resolveLexeme h).points
      exact List.mem_of_getElem? hget

structure Pass.Accounts (start : Session) (pass : Pass) : Prop where
  grown : start.Grown pass.session
  points : ∀ reference ∈ pass.references.toList, pass.session.Points reference
  entries : ∀ kind value, value ∈ (pass.session.vocabulary kind).toList ↔
    value ∈ (start.vocabulary kind).toList ∨ (kind, value) ∈ pass.references.toList.map Reference.entry

theorem accounts_resolveLexeme {start : Session} {lexeme : Lexeme} {pass : Pass} (h : pass.Accounts start)
    (hr : pass.session.resolveLexeme lexeme = (.ok reference, later)) :
    Pass.Accounts start ⟨later, pass.references.push reference, pass.errors⟩ := by
  have hg := (resolves_of_ok hr).grown
  refine ⟨h.grown.trans hg, ?_, ?_⟩
  · intro other ho
    rw [Array.toList_push, List.mem_append, List.mem_singleton] at ho
    obtain ho | rfl := ho
    · exact (h.points other ho).of_extends hg.extends
    · exact (files_resolveLexeme hr).points
  · intro kind value
    rw [entries_resolveLexeme hr, h.entries, Array.toList_push, List.map_append, List.mem_append,
      List.map_singleton, List.mem_singleton, or_assoc]

theorem accounts_run {start : Session} (failFast : Bool) (lexemes : List Lexeme) {pass : Pass}
    (h : pass.Accounts start) : (Pass.run failFast lexemes pass).2.Accounts start := by
  refine run_keeps (motive := fun later => later.Accounts start) ?_ ?_ failFast lexemes h
  · exact fun _ _ _ _ h hr => accounts_resolveLexeme h hr
  · exact fun _ _ h => ⟨h.grown, h.points, h.entries⟩

theorem adds_released (session : Session) : session.Adds [] session.released where
  extended := ⟨rfl, rfl, List.prefix_rfl, List.prefix_rfl, List.prefix_rfl⟩
  trace := (List.append_nil _).symm
  points := nofun
  entries := by
    have hsame : session.released.vocabulary = session.vocabulary := vocabulary_congr rfl rfl rfl rfl
    rw [hsame]
    exact (Adds.refl session).entries

theorem adds_classify (session : Session) (failFast : Bool) (lexemes : List Lexeme) :
    session.Adds (Classification.made (session.classify failFast lexemes).1)
      (session.classify failFast lexemes).2 := by
  have hstart : Pass.Accounts session.taken { session := session.taken } :=
    ⟨.refl _, nofun, by simp⟩
  have haccounts := accounts_run failFast lexemes hstart
  have hsettles := session.settles_classify failFast lexemes
  generalize session.classify failFast lexemes = outcome at hsettles ⊢
  cases hsettles with
  | fault | errors => exact adds_released session
  | @accepted pass hrun he =>
    rw [hrun] at haccounts
    have ht : pass.session.trace = session.trace := haccounts.grown.trace
    have hextends := extends_record pass.session pass.references
    have htaken : session.taken.vocabulary = session.vocabulary := vocabulary_congr rfl rfl rfl rfl
    have hlater : (pass.session.record pass.references).released.vocabulary =
      pass.session.vocabulary := vocabulary_congr rfl rfl rfl rfl
    refine ⟨((extends_taken session).trans haccounts.grown.extends).trans hextends, ?_, ?_, ?_⟩
    · simp only [released, record, Array.toList_append, ht, Classification.made]
    · exact fun reference hr => (haccounts.points reference hr).of_extends hextends
    · intro kind value
      rw [hlater, haccounts.entries, htaken]
      rfl

/-- The two passes have come to the same, but for the places that the entries have. -/
structure Pass.Alike (pass other : Pass) : Prop where
  keywords : other.session.keywords = pass.session.keywords
  separators : other.session.separators = pass.session.separators
  entries : other.references.toList.map Reference.entry = pass.references.toList.map Reference.entry
  errors : other.errors = pass.errors

theorem resolveLexeme_alike (hk : other.keywords = session.keywords)
    (hs : other.separators = session.separators) (lexeme : Lexeme) :
    (other.resolveLexeme lexeme).1.map Reference.entry =
      (session.resolveLexeme lexeme).1.map Reference.entry := by
  unfold resolveLexeme
  cases lexeme.category with
  | separator =>
    simp only [hs]
    split <;> rfl
  | literal => rfl
  | identifier =>
    simp only [hk]
    split <;> rfl
  | unknown word => rfl

theorem alike_run (failFast : Bool) (lexemes : List Lexeme) {pass other : Pass} (h : pass.Alike other) :
    (Pass.run failFast lexemes other).1 = (Pass.run failFast lexemes pass).1 ∧
      (Pass.run failFast lexemes pass).2.Alike (Pass.run failFast lexemes other).2 := by
  induction lexemes generalizing pass other with
  | nil => exact ⟨rfl, h⟩
  | cons lexeme lexemes ih =>
    have hresult := resolveLexeme_alike h.keywords h.separators lexeme
    have hg := grown_resolveLexeme pass.session lexeme
    have hg' := grown_resolveLexeme other.session lexeme
    have hk := hg'.keywords.trans (h.keywords.trans hg.keywords.symm)
    have hs := hg'.separators.trans (h.separators.trans hg.separators.symm)
    -- the two results agree but for places, so the mixed cases are impossible
    cases hr : pass.session.resolveLexeme lexeme with
    | mk result session =>
      cases hr' : other.session.resolveLexeme lexeme with
      | mk result' session' =>
        rw [hr, hr'] at hresult hk hs
        cases result with
        | ok reference =>
          cases result' with
          | error failure => cases hresult
          | ok reference' =>
            have hentry : reference'.entry = reference.entry := Except.ok.inj hresult
            simp only [Pass.run, hr, hr']
            refine ih ⟨hk, hs, ?_, h.errors⟩
            simp only [Array.toList_push, List.map_append, h.entries, List.map_singleton, hentry]
        | error failure =>
          cases result' with
          | ok reference' => cases hresult
          | error failure' =>
            obtain rfl : failure' = failure := Except.error.inj hresult
            cases failure' with
            | category fault =>
              simp only [Pass.run, hr, hr', true_and]
              exact ⟨hk, hs, h.entries, h.errors⟩
            | lexical error =>
              have hnext : Pass.Alike ⟨session, pass.references, pass.errors.push error⟩
                  ⟨session', other.references, other.errors.push error⟩ :=
                ⟨hk, hs, h.entries, by rw [h.errors]⟩
              simp only [Pass.run, hr, hr']
              cases failFast with
              | true => exact ⟨rfl, hnext⟩
              | false => exact ih hnext

/-- What a classification comes to hangs on the given vocabularies alone, but for places. -/
theorem content_classify (hk : other.keywords = session.keywords)
    (hs : other.separators = session.separators) (failFast : Bool) (lexemes : List Lexeme) :
    Classification.content (other.classify failFast lexemes).1 =
      Classification.content (session.classify failFast lexemes).1 := by
  have hstart : Pass.Alike { session := session.taken } { session := other.taken } := ⟨hk, hs, rfl, rfl⟩
  obtain ⟨hfault, halike⟩ := alike_run failFast lexemes hstart
  cases hrun : Pass.run failFast lexemes { session := session.taken } with
  | mk fault pass =>
    cases hrun' : Pass.run failFast lexemes { session := other.taken } with
    | mk fault' pass' =>
      rw [hrun, hrun'] at hfault halike
      obtain rfl : fault' = fault := hfault
      cases fault' with
      | some fault => rw [classify_of_fault hrun, classify_of_fault hrun']
      | none =>
        have herrors : pass'.errors = pass.errors := halike.errors
        have hentries : pass'.references.toList.map Reference.entry =
          pass.references.toList.map Reference.entry := halike.entries
        by_cases he : pass.errors = #[]
        · rw [classify_of_accepted hrun he, classify_of_accepted hrun' (herrors.trans he)]
          simp only [Classification.content, Except.map, hentries]
        · rw [classify_of_errors hrun he, classify_of_errors hrun' (herrors ▸ he), herrors]

end Session

end Lexicon
