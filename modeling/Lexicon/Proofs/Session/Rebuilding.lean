import Lexicon.Proofs.Scan.Rendering
import Lexicon.Proofs.Session.Outcome

namespace Lexicon

def Kind.category : Kind → Category
  | .keyword | .identifier => .identifier
  | .separator => .separator
  | .literal => .literal

namespace Reference

def lexeme (reference : Reference) : Lexeme :=
  ⟨reference.value, reference.kind.category, {}⟩

def entry (reference : Reference) : Kind × String :=
  (reference.kind, reference.value)

end Reference

namespace Session

def Call.text? : Call → Option String
  | .analyze text | .diagnose text | .process _ _ _ text => some text
  | .register _ | .classify _ _ | .resolve _ => none

variable {session other : Session} {trace : List Reference} {reference : Reference}

/-- The entry to which the reference of a lexeme of the given content leads. -/
def entryOf (session : Session) (content : String × Category) : Option (Kind × String) :=
  (session.kindOf ⟨content.1, content.2, {}⟩).map (·, content.1)

theorem entryOf_of_keywords (h : other.keywords = session.keywords) :
    other.entryOf = session.entryOf := by
  funext content
  rw [entryOf, kindOf_of_keywords h, entryOf]

theorem Files.entryOf {lexeme : Lexeme} (h : session.Files lexeme reference) :
    session.entryOf lexeme.content = some reference.entry := by
  have hkind : session.kindOf ⟨lexeme.value, lexeme.category, {}⟩ = some reference.kind := h.kind
  simp only [Session.entryOf, Lexeme.content, hkind, Option.map_some, Reference.entry, h.value]

theorem Files.content {lexeme : Lexeme} (h : session.Files lexeme reference) :
    reference.lexeme.content = lexeme.content := by
  have hcategory : reference.kind.category = lexeme.category := by
    have hkind := h.kind
    unfold kindOf at hkind
    cases hc : lexeme.category with
    | literal | separator =>
      simp only [hc, Option.some.injEq] at hkind
      rw [← hkind, Kind.category]
    | identifier =>
      simp only [hc, Option.some.injEq] at hkind
      rw [← hkind]
      split <;> rfl
    | unknown word =>
      simp only [hc] at hkind
      cases hkind
  simp only [Lexeme.content, Reference.lexeme, h.value, hcategory]

theorem Files.not_lacks {lexeme : Lexeme} (h : session.Files lexeme reference) :
    ¬ session.Lacks lexeme := by
  rintro ⟨hcategory, hlacks⟩
  have hkind := h.kind
  simp only [kindOf, hcategory, Option.some.injEq] at hkind
  obtain ⟨i, -, hget⟩ := h.points
  rw [← hkind, h.value] at hget
  exact hlacks (List.mem_of_getElem? hget)

theorem Mirrors.files (hm : session.Mirrors trace) (hr : reference ∈ trace) :
    session.Files reference.lexeme reference where
  value := rfl
  kind := by
    obtain ⟨i, -, hget⟩ := hm.points reference hr
    have hmem : reference.value ∈ (session.vocabulary reference.kind).toList :=
      List.mem_of_getElem? hget
    unfold kindOf Reference.lexeme
    cases hk : reference.kind with
    | literal | separator => rfl
    | keyword =>
      rw [hk] at hmem
      exact congrArg some (if_pos hmem)
    | identifier =>
      rw [hk] at hmem
      exact congrArg some (if_neg (hm.apart reference.value hmem))
  points := hm.points reference hr

def refer (session : Session) (entry : Kind × String) : Option Reference :=
  ((session.vocabulary entry.1).index? entry.2).map fun i : Nat => ⟨entry.2, entry.1, i⟩

theorem Points.refer (h : session.Points reference) :
    session.refer reference.entry = some reference := by
  obtain ⟨i, hi, hget⟩ := h
  have hindex := Vocabulary.index?_eq_some.2 hget
  simp only [Session.refer, Reference.entry, hindex, Option.map_some, ← hi]

theorem valuesOf_eq (kind : Kind) (trace : List Reference) :
    valuesOf kind trace = ((trace.map Reference.entry).filter (·.1 = kind)).map (·.2) := by
  rw [valuesOf, List.filter_map, List.map_map]
  rfl

theorem trace_eq_of_entries (hm : session.Mirrors session.trace.toList)
    (hm' : other.Mirrors other.trace.toList)
    (hv : ∀ kind, session.vocabulary kind = other.vocabulary kind)
    (h : session.trace.toList.map Reference.entry = other.trace.toList.map Reference.entry) :
    session.trace = other.trace := by
  have href (entry : Kind × String) : session.refer entry = other.refer entry := by
    simp only [refer, hv]
  have hback {session : Session} (hm : session.Mirrors session.trace.toList) :
      (session.trace.toList.map Reference.entry).map session.refer = session.trace.toList.map some := by
    rw [List.map_map]
    exact List.map_congr_left fun r hr => (hm.points r hr).refer
  have hsome : session.trace.toList.map some = other.trace.toList.map some := by
    rw [← hback hm, ← hback hm', h]
    exact List.map_congr_left fun entry _ => href entry
  apply Array.toList_inj.1
  exact (List.map_inj_right fun _ _ => Option.some.inj).1 hsome

/-- A session whose trace and vocabularies agree holds nothing but what the entries of the trace and
the given vocabularies say. -/
theorem eq_of_entries (hm : session.Mirrors session.trace.toList)
    (hm' : other.Mirrors other.trace.toList) (hk : session.keywords = other.keywords)
    (hs : session.separators = other.separators) (hheld : session.held = other.held)
    (h : session.trace.toList.map Reference.entry = other.trace.toList.map Reference.entry) :
    session = other := by
  -- the growing vocabularies hold what the trace refers to, and the trace is then made from the entries
  have hvalues (kind : Kind) : valuesOf kind session.trace.toList = valuesOf kind other.trace.toList := by
    rw [valuesOf_eq, valuesOf_eq, h]
  have hl : session.literals = other.literals := by
    apply Vocabulary.toList_inj
    rw [hm.literals, hm'.literals, hvalues]
  have hi : session.identifiers = other.identifiers := by
    apply Vocabulary.toList_inj
    rw [hm.identifiers, hm'.identifiers, hvalues]
  have hv (kind : Kind) : session.vocabulary kind = other.vocabulary kind := by
    cases kind <;> assumption
  have ht : session.trace = other.trace := trace_eq_of_entries hm hm' hv h
  cases session
  cases other
  simp_all

theorem run_eq_of_entries (hm : session.Mirrors session.trace.toList) (hfree : session.held = false)
    {calls others : List Call} (hc : ∀ call ∈ calls, call.Records) (ho : ∀ call ∈ others, call.Records)
    (h : (session.run calls).trace.toList.map Reference.entry =
      (session.run others).trace.toList.map Reference.entry) : session.run calls = session.run others := by
  have he := extends_run hfree calls
  have he' := extends_run hfree others
  apply eq_of_entries (mirrors_history hm calls hc) (mirrors_history hm others ho) _ _ _ h
  · rw [he.keywords, he'.keywords]
  · rw [he.separators, he'.separators]
  · rw [held_run hfree, held_run hfree]

theorem session_diagnose_eq (session : Session) (text : String) :
    (session.diagnose text).2 = (session.analyze text).2 := by
  cases he : session.errorsIn text with
  | nil =>
    obtain ⟨later, ha, hd⟩ := analyze_diagnose_of_accepted he
    rw [ha, hd]
  | cons first more =>
    obtain ⟨later, -, ha, hd⟩ := analyze_diagnose_of_errors he
    rw [ha, hd]

theorem session_of_text {call : Call} {text : String} (h : call.text? = some text) (session : Session) :
    (session.perform call).2 = (session.analyze text).2 := by
  cases call with
  | register | classify | resolve => cases h
  | analyze =>
    cases h
    rfl
  | diagnose =>
    cases h
    exact session_diagnose_eq session text
  | process settings dumpPath files =>
    cases h
    simp only [perform, session_process, session_judge, session_diagnose_eq, ite_self]

theorem Call.records_of_text {call : Call} (h : call.text?.isSome = true) : call.Records := by
  cases call with
  | resolve => cases h
  | register | classify | analyze | diagnose | process => trivial

theorem entries_of_files {lexemes : List Lexeme} {references : List Reference}
    (h : List.Forall₂ session.Files lexemes references) :
    (lexemes.map Lexeme.content).map session.entryOf = (references.map Reference.entry).map some := by
  induction h with
  | nil => rfl
  | cons hfiles _ ih => simp only [List.map_cons, hfiles.entryOf, ih]

/-- Taking in a text adds references to the trace, or none. Each leads to its text, which is one that can
stand in a text. -/
theorem analyze_makes (session : Session) (text : String) :
    let later := (session.analyze text).2
    ∃ made, later.trace.toList = session.trace.toList ++ made ∧ session.Extends later ∧
      ∀ reference ∈ made, reference.lexeme.WellFormed ∧ later.Points reference := by
  intro later
  cases he : session.errorsIn text with
  | cons first more =>
    obtain ⟨same, hsame, ha, -⟩ := analyze_diagnose_of_errors he
    have hlater : later = same := by simp only [later, ha]
    rw [hlater]
    obtain rfl | rfl := hsame
    · exact ⟨[], (List.append_nil _).symm, .refl _, nofun⟩
    · exact ⟨[], (List.append_nil _).symm, ⟨rfl, rfl, List.prefix_rfl, List.prefix_rfl, List.prefix_rfl⟩,
        nofun⟩
  | nil =>
    obtain ⟨hs, hu⟩ := List.append_eq_nil_iff.1 he
    obtain ⟨references, same, ha, hextends, htrace, hfiles⟩ := analyze_of_accepted hs hu
    have hlater : later = same := by simp only [later, ha]
    rw [hlater]
    refine ⟨references, htrace, hextends, ?_⟩
    intro reference hr
    obtain ⟨lexeme, hl, hfile⟩ := exists_of_files hfiles hr
    obtain ⟨hvalue, hcategory⟩ := Prod.mk.inj hfile.content
    have hwell := (Scan.layout_ofText text).wellFormed lexeme hl
    rw [Lexeme.WellFormed, ← hvalue, ← hcategory] at hwell
    exact ⟨hwell, hfile.points⟩

theorem wellFormed_analyze (h : ∀ reference ∈ session.trace.toList, reference.lexeme.WellFormed)
    (text : String) :
    ∀ reference ∈ (session.analyze text).2.trace.toList, reference.lexeme.WellFormed := by
  obtain ⟨made, htrace, -, hmade⟩ := analyze_makes session text
  rw [htrace]
  exact List.forall_mem_append.2 ⟨h, fun reference hr => (hmade reference hr).1⟩

theorem wellFormed_run (h : ∀ reference ∈ session.trace.toList, reference.lexeme.WellFormed)
    (calls : List Call) (hc : ∀ call ∈ calls, call.text?.isSome = true) :
    ∀ reference ∈ (session.run calls).trace.toList, reference.lexeme.WellFormed := by
  induction calls generalizing session with
  | nil => exact h
  | cons call calls ih =>
    obtain ⟨hfirst, hc⟩ := List.forall_mem_cons.1 hc
    obtain ⟨text, htext⟩ := Option.isSome_iff_exists.1 hfirst
    have hnext : ∀ reference ∈ (session.perform call).2.trace.toList, reference.lexeme.WellFormed := by
      rw [session_of_text htext]
      exact wellFormed_analyze h text
    exact ih hnext hc

theorem Mirrors.files_all (hm : session.Mirrors trace) :
    List.Forall₂ session.Files (trace.map Reference.lexeme) trace := by
  rw [List.forall₂_map_left_iff, List.forall₂_same]
  exact fun _ hr => hm.files hr

theorem Mirrors.undefined_eq_nil (hm : session.Mirrors trace) (hs : other.separators = session.separators)
    {lexemes : List Lexeme}
    (h : lexemes.map Lexeme.content = (trace.map Reference.lexeme).map Lexeme.content) :
    other.undefined lexemes = [] := by
  rw [Session.undefined_eq_nil]
  rintro lexeme hl ⟨hcategory, hlacks⟩
  obtain ⟨_, ht, hvalue, hcategory'⟩ := Lexeme.exists_of_contents h hl
  obtain ⟨reference, hr, rfl⟩ := List.mem_map.1 ht
  rw [hvalue, hs] at hlacks
  exact (hm.files hr).not_lacks ⟨hcategory'.symm.trans hcategory, hlacks⟩

/-- The texts that a trace refers to, one behind the other with blanks between them. -/
def retell (session : Session) : String :=
  " ".intercalate (session.trace.toList.map (·.value))

theorem scan_retell (h : ∀ reference ∈ session.trace.toList, reference.lexeme.WellFormed) :
    ∃ again, Scan.ofText false session.retell = ⟨again, []⟩ ∧
      again.map Lexeme.content = (session.trace.toList.map Reference.lexeme).map Lexeme.content := by
  have htext : session.retell =
      " ".intercalate ((session.trace.toList.map Reference.lexeme).map (·.value)) := by
    rw [retell, List.map_map]
    rfl
  rw [htext]
  exact Scan.ofText_joined (List.forall_mem_map.2 h)

theorem analyze_retell (hm : session.Mirrors session.trace.toList)
    (hwell : ∀ reference ∈ session.trace.toList, reference.lexeme.WellFormed)
    (hk : other.keywords = session.keywords) (hs : other.separators = session.separators) :
    ∃ lexemes later, other.analyze session.retell = (.ok lexemes, later) ∧
      later.trace.toList.map Reference.entry =
        other.trace.toList.map Reference.entry ++ session.trace.toList.map Reference.entry := by
  obtain ⟨again, hscan, hcontents⟩ := scan_retell hwell
  have hs' : (Scan.ofText false session.retell).errors = [] := by rw [hscan]
  have hu : other.undefined (Scan.ofText false session.retell).lexemes = [] := by
    rw [hscan]
    exact hm.undefined_eq_nil hs hcontents
  obtain ⟨references, later, ha, he, htrace, hfiles⟩ := analyze_of_accepted hs' hu
  rw [hscan] at ha hfiles
  have hentries : references.map Reference.entry = session.trace.toList.map Reference.entry := by
    apply (List.map_inj_right fun _ _ => Option.some.inj).1
    rw [← entries_of_files hfiles, ← entries_of_files hm.files_all, hcontents,
      entryOf_of_keywords (he.keywords.trans hk)]
  exact ⟨again, later, ha, by rw [htrace, List.map_append, hentries]⟩

/-- A session that has taken in nothing yet. -/
structure Fresh (session : Session) : Prop where
  free : session.held = false
  empty : session.trace.toList = []
  mirrors : session.Mirrors session.trace.toList

theorem fresh_of_ofLists {keywords separators : List String}
    (h : ofLists keywords separators = .ok session) : session.Fresh := by
  rw [eq_of_ofLists h]
  exact ⟨rfl, rfl, mirrors_start session.keywords session.separators⟩

theorem analyze_retell_run (h : session.Fresh) {calls : List Call}
    (hc : ∀ call ∈ calls, call.text?.isSome = true) :
    ∃ lexemes, session.analyze (session.run calls).retell = (.ok lexemes, session.run calls) := by
  have hrecords : ∀ call ∈ calls, call.Records := fun call hm => Call.records_of_text (hc call hm)
  have he : session.Extends (session.run calls) := extends_run h.free calls
  have hwell : ∀ reference ∈ (session.run calls).trace.toList, reference.lexeme.WellFormed := by
    apply wellFormed_run _ calls hc
    rw [h.empty]
    exact nofun
  obtain ⟨lexemes, later, ha, hentries⟩ := analyze_retell (mirrors_history h.mirrors calls hrecords) hwell
    he.keywords.symm he.separators.symm
  have hlater : session.run [.analyze (session.run calls).retell] = later := congrArg Prod.snd ha
  have hsame : session.run [.analyze (session.run calls).retell] = session.run calls := by
    apply run_eq_of_entries h.mirrors h.free _ hrecords
    · rw [hlater, hentries, h.empty, List.map_nil, List.nil_append]
    · intro call hm
      rw [List.mem_singleton.1 hm]
      trivial
  rw [← hlater, hsame] at ha
  exact ⟨lexemes, ha⟩

/-- The trace of a session that has taken in texts tells all of it: analyzed as a text, with the same
vocabularies given, it leads to that very session. -/
theorem analyze_retell_fresh {keywords separators : List String} (hk : keywords.Nodup)
    (hs : separators.Nodup) :
    ∃ start, ofLists keywords separators = .ok start ∧
      ∀ calls : List Call, (∀ call ∈ calls, call.text?.isSome = true) →
        let session := start.run calls
        ∃ lexemes, start.analyze session.retell = (.ok lexemes, session) := by
  obtain ⟨start, hstart, -, -⟩ := ofLists_of_nodup hk hs
  exact ⟨start, hstart, fun calls hc => analyze_retell_run (fresh_of_ofLists hstart) hc⟩

theorem analyze_retell_fresh_refusals :
    ∃ start, ofLists ["let"] [";"] = .ok start ∧
      let calls : List Call := [.analyze "let a 1 a;", .diagnose "@ b", .analyze "x => y",
        .process { everyError := true } "" {} "2b 1\n; # b", .diagnose "z >"]
      let session := start.run calls
      session.trace.toList.map (·.value) = ["let", "a", "1", "a", ";", "2", "b", "1", ";"] ∧
        ∃ lexemes, start.analyze "let a 1 a ; 2 b 1 ;" = (.ok lexemes, session) := by
  have hk : ["let"].Nodup := by decide
  have hs : [";"].Nodup := by decide
  obtain ⟨start, hstart, h⟩ := analyze_retell_fresh hk hs
  refine ⟨start, hstart, ?_⟩
  intro calls session
  have hcalls : ∀ call ∈ calls, call.text?.isSome = true := by simp [calls, Call.text?]
  have hfirst : ofLists ["let"] [";"] = .ok
      { keywords := Vocabulary.empty.internAll ["let"],
        separators := Vocabulary.empty.internAll [";"] } := by rfl
  have hsame := Except.ok.inj (hfirst.symm.trans hstart)
  have hvalues : session.trace.toList.map (·.value) =
      ["let", "a", "1", "a", ";", "2", "b", "1", ";"] := by
    subst hsame
    decide +kernel
  have hretold : session.retell = "let a 1 a ; 2 b 1 ;" := by
    rw [retell, hvalues]
    decide
  obtain ⟨lexemes, ha⟩ := h calls hcalls
  exact ⟨hvalues, lexemes, hretold ▸ ha⟩

end Session

end Lexicon
