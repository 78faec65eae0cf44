import Lexicon.Proofs.Session.Atomicity

namespace Lexicon.Session

def valuesOf (kind : Kind) (trace : List Reference) : List String :=
  (trace.filter (·.kind = kind)).map (·.value)

def Points (session : Session) (reference : Reference) : Prop :=
  ∃ i : Nat, reference.index = i ∧
    (session.vocabulary reference.kind).toList[i]? = some reference.value

/-- The growing vocabularies hold what a trace refers to and nothing else, in the order of the
trace. -/
structure Mirrors (session : Session) (trace : List Reference) : Prop where
  literals : session.literals.toList = (valuesOf .literal trace).eraseDups
  identifiers : session.identifiers.toList = (valuesOf .identifier trace).eraseDups
  apart : ∀ value ∈ session.identifiers.toList, value ∉ session.keywords.toList
  points : ∀ reference ∈ trace, session.Points reference

variable {session later : Session} {trace : List Reference} {reference : Reference}

theorem eraseDups_concat (values : List String) (value : String) :
    (values ++ [value]).eraseDups =
      if value ∈ values.eraseDups then values.eraseDups else values.eraseDups ++ [value] := by
  rw [List.eraseDups_append]
  by_cases h : value ∈ values
  · simp [List.removeAll, List.mem_eraseDups, h]
  · simp [List.removeAll, List.mem_eraseDups, h, List.eraseDups_cons]

theorem valuesOf_concat (kind : Kind) (trace : List Reference) (reference : Reference) :
    valuesOf kind (trace ++ [reference]) =
      if reference.kind = kind then valuesOf kind trace ++ [reference.value]
      else valuesOf kind trace := by
  split
  · next h => simp [valuesOf, h]
  · next h => simp [valuesOf, h]

theorem Extends.prefix_vocabulary (h : session.Extends later) (kind : Kind) :
    (session.vocabulary kind).toList <+: (later.vocabulary kind).toList := by
  cases kind with
  | keyword => simp only [vocabulary, h.keywords, List.prefix_rfl]
  | separator => simp only [vocabulary, h.separators, List.prefix_rfl]
  | literal => exact h.literals
  | identifier => exact h.identifiers

theorem Points.of_extends (hp : session.Points reference) (h : session.Extends later) :
    later.Points reference := by
  obtain ⟨i, hi, hget⟩ := hp
  exact ⟨i, hi, Vocabulary.getElem?_of_prefix (h.prefix_vocabulary reference.kind) hget⟩

theorem Points.resolve (hp : session.Points reference) :
    0 ≤ reference.index ∧ reference.index < (session.vocabulary reference.kind).size ∧
      session.resolve reference = .ok reference.value := by
  obtain ⟨i, hi, hget⟩ := hp
  have hlt : i < (session.vocabulary reference.kind).size :=
    (List.getElem?_eq_some_iff.1 hget).1
  refine ⟨by omega, by omega, ?_⟩
  rw [Session.resolve, hi]
  exact Vocabulary.get_of_getElem? hget

theorem points_concat (hm : session.Mirrors trace) (hg : session.Grown later)
    (hp : later.Points reference) : ∀ r ∈ trace ++ [reference], later.Points r := by
  intro r hr
  obtain hr | hr := List.mem_append.1 hr
  · exact (hm.points r hr).of_extends hg.extends
  · rw [List.mem_singleton.1 hr]
    exact hp

theorem mirrors_concat_given (hm : session.Mirrors trace) (hp : session.Points reference)
    (hl : reference.kind ≠ .literal) (hi : reference.kind ≠ .identifier) :
    session.Mirrors (trace ++ [reference]) := by
  refine ⟨?_, ?_, hm.apart, points_concat hm (.refl session) hp⟩
  · rw [valuesOf_concat, if_neg hl, hm.literals]
  · rw [valuesOf_concat, if_neg hi, hm.identifiers]

/-- A lexeme that is resolved adds to the vocabularies what its reference adds to the trace. -/
theorem mirrors_resolveLexeme {lexeme : Lexeme} (hm : session.Mirrors trace)
    (h : session.resolveLexeme lexeme = (.ok reference, later)) :
    later.Mirrors (trace ++ [reference]) := by
  have hg := (resolves_of_ok h).grown
  cases resolves_of_ok h with
  | separator _ hi | keyword _ hi => exact mirrors_concat_given hm ⟨_, rfl, hi⟩ nofun nofun
  | literal =>
    refine ⟨?_, ?_, hm.apart,
      points_concat hm hg ⟨_, rfl, Vocabulary.getElem?_intern session.literals lexeme.value⟩⟩
    · rw [valuesOf_concat, if_pos rfl, eraseDups_concat, ← hm.literals, Vocabulary.toList_intern]
    · rw [valuesOf_concat, if_neg nofun, hm.identifiers]
  | identifier _ hn =>
    refine ⟨?_, ?_, ?_,
      points_concat hm hg ⟨_, rfl, Vocabulary.getElem?_intern session.identifiers lexeme.value⟩⟩
    · rw [valuesOf_concat, if_neg nofun, hm.literals]
    · rw [valuesOf_concat, if_pos rfl, eraseDups_concat, ← hm.identifiers, Vocabulary.toList_intern]
    · intro value hv
      obtain hv | rfl := (Vocabulary.mem_intern _ _).1 hv
      · exact hm.apart value hv
      · exact hn

theorem mirrors_run (failFast : Bool) (lexemes : List Lexeme) (pass : Pass)
    (hm : pass.session.Mirrors (trace ++ pass.references.toList)) :
    (Pass.run failFast lexemes pass).2.session.Mirrors
      (trace ++ (Pass.run failFast lexemes pass).2.references.toList) := by
  refine run_keeps (motive := fun later => later.session.Mirrors (trace ++ later.references.toList))
    ?_ ?_ failFast lexemes hm
  · intro later lexeme reference session h hr
    rw [Array.toList_push, ← List.append_assoc]
    exact mirrors_resolveLexeme h hr
  · exact fun _ _ h => h

theorem Mirrors.congr (hm : session.Mirrors trace) (hk : later.keywords = session.keywords)
    (hs : later.separators = session.separators) (hl : later.literals = session.literals)
    (hi : later.identifiers = session.identifiers) : later.Mirrors trace := by
  obtain ⟨keywords, separators, literals, identifiers, trace', held⟩ := later
  cases hk
  cases hs
  cases hl
  cases hi
  exact ⟨hm.literals, hm.identifiers, hm.apart, hm.points⟩

theorem mirrors_classify (hm : session.Mirrors session.trace.toList) (failFast : Bool)
    (lexemes : List Lexeme) :
    (session.classify failFast lexemes).2.Mirrors (session.classify failFast lexemes).2.trace.toList := by
  have htaken : session.taken.Mirrors (session.trace.toList ++ []) := by
    rw [List.append_nil]
    exact hm.congr rfl rfl rfl rfl
  have hreleased : session.released.Mirrors session.released.trace.toList := hm.congr rfl rfl rfl rfl
  have hpass := mirrors_run failFast lexemes { session := session.taken } htaken
  have hsettles := session.settles_classify failFast lexemes
  generalize session.classify failFast lexemes = outcome at hsettles ⊢
  cases hsettles with
  | fault | errors => exact hreleased
  | @accepted pass hrun he =>
    have ht : pass.session.trace = session.trace := (grown_of_run hrun).trace
    rw [hrun] at hpass
    simp only [released, record, ht, Array.toList_append]
    exact hpass.congr rfl rfl rfl rfl

theorem mirrors_perform (hm : session.Mirrors session.trace.toList) {call : Call}
    (h : call.Records) :
    (session.perform call).2.Mirrors (session.perform call).2.trace.toList := by
  obtain hs | ⟨failFast, lexemes, hs⟩ := session_perform session h
  · rw [hs]
    exact hm
  · rw [hs]
    exact mirrors_classify hm failFast lexemes

theorem mirrors_history (hm : session.Mirrors session.trace.toList) (calls : List Call)
    (h : ∀ call ∈ calls, call.Records) :
    (session.run calls).Mirrors (session.run calls).trace.toList := by
  induction calls generalizing session with
  | nil => exact hm
  | cons call calls ih =>
    apply ih (mirrors_perform hm (h call List.mem_cons_self))
    exact fun other ho => h other (List.mem_cons_of_mem call ho)

theorem mirrors_start (keywords : Vocabulary .keyword) (separators : Vocabulary .separator) :
    ({ keywords, separators } : Session).Mirrors [] where
  literals := rfl
  identifiers := rfl
  apart := nofun
  points := nofun

/-- Whatever calls come upon a session, be they accepted or rejected, its vocabularies hold what its
trace refers to, in the order of the trace, and every reference leads to its text. -/
theorem history_mirrored {keywords separators : List String} (hk : keywords.Nodup)
    (hs : separators.Nodup) :
    ∃ start, ofLists keywords separators = .ok start ∧
      ∀ calls : List Call, (∀ call ∈ calls, call.Records) →
        let session := start.run calls
        let trace := session.trace.toList
        session.literals.toList = (valuesOf .literal trace).eraseDups ∧
          session.identifiers.toList = (valuesOf .identifier trace).eraseDups ∧
          session.keywords.toList = keywords ∧ session.separators.toList = separators ∧
          (∀ value ∈ session.identifiers.toList, value ∉ session.keywords.toList) ∧
          ∀ reference ∈ trace, 0 ≤ reference.index ∧
            reference.index < (session.vocabulary reference.kind).size ∧
            session.resolve reference = .ok reference.value := by
  obtain ⟨start, hstart, hkl, hsl⟩ := ofLists_of_nodup hk hs
  refine ⟨start, hstart, ?_⟩
  intro calls hcalls session trace
  have hstart' := eq_of_ofLists hstart
  have hfree : start.held = false := by rw [hstart']
  have hempty : start.Mirrors start.trace.toList := by
    rw [hstart']
    exact mirrors_start start.keywords start.separators
  have hm : session.Mirrors trace := mirrors_history hempty calls hcalls
  have he : start.Extends session := extends_run hfree calls
  refine ⟨hm.literals, hm.identifiers, ?_, ?_, hm.apart, fun r hr => (hm.points r hr).resolve⟩
  · rw [he.keywords, hkl]
  · rw [he.separators, hsl]

theorem history_mirrored_refusals :
    ∃ start, ofLists ["let"] [";"] = .ok start ∧
      let calls : List Call := [.analyze "let a 1 a;", .diagnose "@ b",
        .classify false [⟨"7", .literal, {}⟩, ⟨"=>", .separator, {}⟩],
        .register [⟨"c", .identifier, {}⟩, ⟨"?", .unknown "bogus", {}⟩], .diagnose "2 a"]
      let session := start.run calls
      session.literals.toList = ["1", "2"] ∧ session.identifiers.toList = ["a"] ∧
        (valuesOf .literal session.trace.toList).eraseDups = ["1", "2"] ∧
        ∀ reference ∈ session.trace.toList, session.resolve reference = .ok reference.value := by
  have hk : ["let"].Nodup := by decide
  have hs : [";"].Nodup := by decide
  obtain ⟨start, hstart, h⟩ := history_mirrored hk hs
  refine ⟨start, hstart, ?_⟩
  intro calls session
  have hcalls : ∀ call ∈ calls, call.Records := by simp [calls, Call.Records]
  obtain ⟨hl, -, -, -, -, hr⟩ := h calls hcalls
  have hfirst : ofLists ["let"] [";"] = .ok
      { keywords := Vocabulary.empty.internAll ["let"],
        separators := Vocabulary.empty.internAll [";"] } := by rfl
  have hsame := Except.ok.inj (hfirst.symm.trans hstart)
  subst hsame
  have hliterals : session.literals.toList = ["1", "2"] := by decide +kernel
  have hidentifiers : session.identifiers.toList = ["a"] := by decide +kernel
  exact ⟨hliterals, hidentifiers, hl.symm.trans hliterals, fun r hm => (hr r hm).2.2⟩

end Lexicon.Session
