import Lexicon.Proofs.Session.Classification
import Lexicon.Proofs.Session.Contribution

namespace Lexicon

structure Lexeme.OneLine (lexeme : Lexeme) : Prop where
  scanned : lexeme.category.Scanned
  line : '\n' ∉ lexeme.value.toList

theorem Lexeme.WellFormed.oneLine {lexeme : Lexeme} (h : lexeme.WellFormed) : lexeme.OneLine where
  scanned := h.scanned
  line := h.not_mem_of_class (by decide)

namespace Session

structure OneLine (session : Session) : Prop where
  entries : ∀ kind, ∀ value ∈ (session.vocabulary kind).toList, '\n' ∉ value.toList
  trace : ∀ reference ∈ session.trace.toList, '\n' ∉ reference.value.toList

/-- There is no newline in the lexemes that the call hands over. It may take in any text. -/
def Call.OneLine : Call → Prop
  | .register lexemes | .classify _ lexemes => ∀ lexeme ∈ lexemes, '\n' ∉ lexeme.value.toList
  | .resolve lexeme => '\n' ∉ lexeme.value.toList
  | .analyze _ | .diagnose _ | .process .. => True

variable {session later : Session} {references : List Reference} {lexemes : List Lexeme}

theorem OneLine.of_adds (h : session.OneLine) (ha : session.Adds references later)
    (hline : ∀ reference ∈ references, '\n' ∉ reference.value.toList) : later.OneLine where
  entries := by
    intro kind value hv
    obtain hv | hv := (ha.entries kind value).1 hv
    · exact h.entries kind value hv
    · obtain ⟨reference, hr, he⟩ := List.mem_map.1 hv
      cases he
      exact hline reference hr
  trace := by
    intro reference hr
    rw [ha.trace] at hr
    obtain hr | hr := List.mem_append.1 hr
    · exact h.trace reference hr
    · exact hline reference hr

theorem exists_of_made (failFast : Bool) {reference : Reference}
    (hr : reference ∈ Classification.made (session.classify failFast lexemes).1) :
    ∃ lexeme ∈ lexemes, reference.value = lexeme.value := by
  have hc := session.comesTo_classify failFast lexemes
  generalize session.classify failFast lexemes = outcome at hc hr
  cases hc with
  | fault | errors => cases hr
  | accepted _ _ _ _ hf =>
    obtain ⟨lexeme, hl, hfile⟩ := exists_of_files hf hr
    exact ⟨lexeme, hl, hfile.value⟩

theorem oneLine_classify (h : session.OneLine) (failFast : Bool)
    (hline : ∀ lexeme ∈ lexemes, '\n' ∉ lexeme.value.toList) :
    (session.classify failFast lexemes).2.OneLine := by
  apply h.of_adds (adds_classify session failFast lexemes)
  intro reference hr
  obtain ⟨lexeme, hl, hvalue⟩ := exists_of_made failFast hr
  rw [hvalue]
  exact hline lexeme hl

theorem oneLine_analyze (h : session.OneLine) (text : String) : (session.analyze text).2.OneLine := by
  unfold analyze
  cases hscan : Lexeme.ofText text with
  | error error => exact h
  | ok lexemes =>
    have hline : ∀ lexeme ∈ lexemes, '\n' ∉ lexeme.value.toList := by
      intro lexeme hl
      have hwell := Scan.wellFormed_ofText false text lexeme
      rw [Lexeme.ofText_eq_ok.1 hscan] at hwell
      exact (hwell hl).oneLine.line
    have hregister : (session.register lexemes).2.OneLine := by
      rw [session_register]
      exact oneLine_classify h true hline
    dsimp only
    split <;> next hr => rwa [hr] at hregister

theorem oneLine_resolveLexeme (h : session.OneLine) {lexeme : Lexeme}
    (hline : '\n' ∉ lexeme.value.toList) : (session.resolveLexeme lexeme).2.OneLine := by
  cases hr : session.resolveLexeme lexeme with
  | mk result later =>
    cases result with
    | error failure =>
      obtain rfl : later = session := resolveLexeme_error hr
      exact h
    | ok reference =>
      have hg := (resolves_of_ok hr).grown
      refine ⟨?_, ?_⟩
      · intro kind value hv
        obtain hv | he := (entries_resolveLexeme hr kind value).1 hv
        · exact h.entries kind value hv
        · cases he
          rw [(files_resolveLexeme hr).value]
          exact hline
      · rw [hg.trace]
        exact h.trace

theorem oneLine_perform (h : session.OneLine) {call : Call} (hcall : call.OneLine) :
    (session.perform call).2.OneLine := by
  have htext (text : String) (ht : call.text? = some text) : (session.perform call).2.OneLine := by
    rw [session_of_text ht]
    exact oneLine_analyze h text
  cases call with
  | register lexemes =>
    rw [perform, session_register]
    exact oneLine_classify h true hcall
  | classify failFast lexemes => exact oneLine_classify h failFast hcall
  | resolve lexeme => exact oneLine_resolveLexeme h hcall
  | analyze text | diagnose text | process _ _ _ text => exact htext text rfl

theorem oneLine_run (h : session.OneLine) (calls : List Call) (hcalls : ∀ call ∈ calls, call.OneLine) :
    (session.run calls).OneLine := by
  induction calls generalizing session with
  | nil => exact h
  | cons call calls ih =>
    obtain ⟨hcall, hcalls⟩ := List.forall_mem_cons.1 hcalls
    exact ih (oneLine_perform h hcall) hcalls

theorem given_of_ofLists {keywords separators : List String}
    (h : ofLists keywords separators = .ok session) :
    session.keywords.toList = keywords ∧ session.separators.toList = separators := by
  obtain ⟨k, s, hk, hs, rfl⟩ := exists_of_ofLists h
  exact ⟨Vocabulary.ofList_eq_ok hk, Vocabulary.ofList_eq_ok hs⟩

theorem oneLine_ofLists {keywords separators : List String}
    (h : ofLists keywords separators = .ok session)
    (hline : ∀ value ∈ keywords ++ separators, '\n' ∉ value.toList) : session.OneLine := by
  obtain ⟨hk, hs⟩ := given_of_ofLists h
  have hempty := eq_of_ofLists h
  refine ⟨?_, ?_⟩
  · intro kind value hv
    cases kind with
    | keyword =>
      apply hline value (List.mem_append_left _ _)
      rwa [← hk]
    | separator =>
      apply hline value (List.mem_append_right _ _)
      rwa [← hs]
    | literal | identifier =>
      rw [hempty] at hv
      cases hv
  · rw [hempty]
    exact nofun

end Session

end Lexicon
