import Lexicon.Proofs.Session.Contribution

namespace Lexicon.Session

structure Job where
  failFast : Bool
  lexemes : List Lexeme

variable {ι : Type} {session one other : Session} {reference : Reference}

/-- Classify one job after the other, each as one transaction, and note what it comes to. -/
def classifyAll (session : Session) (jobs : ι → Job) :
    List ι → List (ι × Except UnknownCategory Classification) × Session
  | [] => ([], session)
  | i :: order =>
    let (result, next) := session.classify (jobs i).failFast (jobs i).lexemes
    let (results, last) := classifyAll next jobs order
    ((i, result) :: results, last)

def translate (session other : Session) (reference : Reference) : Option Reference :=
  match session.resolve reference with
  | .ok value => other.refer (reference.kind, value)
  | .error _ => none

/-- The two results are the same, but that the references of the one lead in the one session to what
the references of the other lead to in the other session. -/
def Renames (session other : Session) :
    Except UnknownCategory Classification → Except UnknownCategory Classification → Prop
  | .error fault, .error fault' => fault = fault'
  | .ok classification, .ok classification' =>
    classification.errors = classification'.errors ∧
      classification.references.map (session.translate other) = classification'.references.map some
  | _, _ => False

theorem names_classifyAll (session : Session) (jobs : ι → Job) (order : List ι) :
    (session.classifyAll jobs order).1.map Prod.fst = order := by
  induction order generalizing session with
  | nil => rfl
  | cons i order ih => exact congrArg (i :: ·) (ih _)

theorem adds_classifyAll (session : Session) (jobs : ι → Job) (order : List ι) :
    session.Adds ((session.classifyAll jobs order).1.flatMap (Classification.made ·.2))
      (session.classifyAll jobs order).2 := by
  induction order generalizing session with
  | nil => exact .refl session
  | cons i order ih => exact (adds_classify session _ _).trans (ih _)

/-- A job comes to the same, but for places, whatever has been classified before it. -/
theorem content_classifyAll (session other : Session) (jobs : ι → Job) (order : List ι)
    (hk : other.keywords = session.keywords) (hs : other.separators = session.separators) :
    ∀ noted ∈ (other.classifyAll jobs order).1, Classification.content noted.2 =
      Classification.content (session.classify (jobs noted.1).failFast (jobs noted.1).lexemes).1 := by
  induction order generalizing other with
  | nil => exact nofun
  | cons i order ih =>
    have hnext := (adds_classify other (jobs i).failFast (jobs i).lexemes).extended
    intro noted hn
    obtain rfl | hn := List.mem_cons.1 hn
    · exact content_classify hk hs _ _
    · exact ih _ (hnext.keywords.trans hk) (hnext.separators.trans hs) noted hn

theorem entries_of_content {result result' : Except UnknownCategory Classification}
    (h : Classification.content result = Classification.content result') :
    (Classification.made result).map Reference.entry = (Classification.made result').map Reference.entry := by
  obtain ⟨fault, rfl, rfl⟩ | ⟨classification, classification', rfl, rfl, hentries, -⟩ :=
    Classification.cases_of_content h
  · rfl
  · exact hentries

def entriesFor (session : Session) (job : Job) : List (Kind × String) :=
  (Classification.made (session.classify job.failFast job.lexemes).1).map Reference.entry

theorem entries_classifyAll (session : Session) (jobs : ι → Job) (order : List ι) :
    ((session.classifyAll jobs order).1.flatMap (Classification.made ·.2)).map Reference.entry =
      order.flatMap fun i => session.entriesFor (jobs i) := by
  have hcontent := content_classifyAll session session jobs order rfl rfl
  calc ((session.classifyAll jobs order).1.flatMap (Classification.made ·.2)).map Reference.entry
      = (session.classifyAll jobs order).1.flatMap fun noted => session.entriesFor (jobs noted.1) := by
        rw [List.map_flatMap]
        exact List.flatMap_congr fun noted hn => entries_of_content (hcontent noted hn)
    _ = ((session.classifyAll jobs order).1.map Prod.fst).flatMap fun i => session.entriesFor (jobs i) := by
        rw [List.flatMap_map]
    _ = order.flatMap fun i => session.entriesFor (jobs i) := by rw [names_classifyAll]

theorem Points.translate (h : session.Points reference) (other : Session) :
    session.translate other reference = other.refer reference.entry := by
  simp only [Session.translate, h.resolve.2.2, Reference.entry]

theorem renames_of_content {result result' : Except UnknownCategory Classification}
    (h : Classification.content result = Classification.content result')
    (hp : ∀ reference ∈ Classification.made result, session.Points reference)
    (hp' : ∀ reference ∈ Classification.made result', other.Points reference) :
    session.Renames other result result' := by
  obtain ⟨fault, rfl, rfl⟩ | ⟨classification, classification', rfl, rfl, hentries, herrors⟩ :=
    Classification.cases_of_content h
  · rfl
  · refine ⟨herrors, ?_⟩
    calc classification.references.map (session.translate other)
        = (classification.references.map Reference.entry).map other.refer := by
          rw [List.map_map]
          exact List.map_congr_left fun reference hr => (hp reference hr).translate other
      _ = (classification'.references.map Reference.entry).map other.refer := congrArg _ hentries
      _ = classification'.references.map some := by
          rw [List.map_map]
          exact List.map_congr_left fun reference hr => (hp' reference hr).refer

theorem Adds.perm_vocabulary {references references' : List Reference} (h : session.Adds references one)
    (h' : session.Adds references' other)
    (hperm : (references.map Reference.entry).Perm (references'.map Reference.entry)) (kind : Kind) :
    (one.vocabulary kind).toList.Perm (other.vocabulary kind).toList := by
  apply (List.perm_ext_iff_of_nodup (Vocabulary.nodup_toList _) (Vocabulary.nodup_toList _)).2
  intro value
  rw [h.entries, h'.entries, hperm.mem_iff]

/-- In whatever order jobs are classified, each comes to the same, and so does the session, but for the
places at which the growing vocabularies have their entries. -/
theorem classifyAll_perm (session : Session) (jobs : ι → Job) {first second : List ι}
    (h : first.Perm second) :
    let results := (session.classifyAll jobs first).1
    let one := (session.classifyAll jobs first).2
    let results' := (session.classifyAll jobs second).1
    let other := (session.classifyAll jobs second).2
    results.map Prod.fst = first ∧ results'.map Prod.fst = second ∧
      (∀ i result result', (i, result) ∈ results → (i, result') ∈ results' →
        one.Renames other result result' ∧
          (∀ reference ∈ Classification.made result, one.resolve reference = .ok reference.value) ∧
          ∀ reference ∈ Classification.made result', other.resolve reference = .ok reference.value) ∧
      one.keywords = other.keywords ∧ one.separators = other.separators ∧
      one.literals.toList.Perm other.literals.toList ∧
      one.identifiers.toList.Perm other.identifiers.toList ∧ one.trace.size = other.trace.size ∧
      ∃ added added', one.trace.toList = session.trace.toList ++ added ∧
        other.trace.toList = session.trace.toList ++ added' ∧
        (added.map Reference.entry).Perm (added'.map Reference.entry) := by
  intro results one results' other
  have hadds : session.Adds _ one := adds_classifyAll session jobs first
  have hadds' : session.Adds _ other := adds_classifyAll session jobs second
  -- what a job adds does not hang on the jobs before it, so the order only permutes the entries
  have hperm := h.flatMap_right fun i => session.entriesFor (jobs i)
  rw [← entries_classifyAll, ← entries_classifyAll] at hperm
  refine ⟨names_classifyAll session jobs first, names_classifyAll session jobs second, ?_, ?_, ?_,
    hadds.perm_vocabulary hadds' hperm .literal, hadds.perm_vocabulary hadds' hperm .identifier, ?_,
    _, _, hadds.trace, hadds'.trace, hperm⟩
  · intro i result result' hr hr'
    have hp := fun reference hm =>
      hadds.points reference (List.mem_flatMap.2 ⟨(i, result), hr, hm⟩)
    have hp' := fun reference hm =>
      hadds'.points reference (List.mem_flatMap.2 ⟨(i, result'), hr', hm⟩)
    have hcontent := content_classifyAll session session jobs first rfl rfl _ hr
    have hcontent' := content_classifyAll session session jobs second rfl rfl _ hr'
    exact ⟨renames_of_content (hcontent.trans hcontent'.symm) hp hp',
      fun reference hm => (hp reference hm).resolve.2.2,
      fun reference hm => (hp' reference hm).resolve.2.2⟩
  · rw [hadds.extended.keywords, hadds'.extended.keywords]
  · rw [hadds.extended.separators, hadds'.extended.separators]
  · have hlength := hperm.length_eq
    rw [List.length_map, List.length_map] at hlength
    rw [← Array.length_toList, ← Array.length_toList, hadds.trace, hadds'.trace, List.length_append,
      List.length_append, hlength]

theorem classifyAll_perm_refusals :
    let jobs : Nat → Job
      | 0 => ⟨true, [⟨"7", .literal, {}⟩, ⟨"x", .identifier, {}⟩]⟩
      | 1 => ⟨false, [⟨"y", .identifier, {}⟩, ⟨"=>", .separator, {}⟩, ⟨"8", .literal, {}⟩]⟩
      | 2 => ⟨true, [⟨"z", .identifier, {}⟩, ⟨"?", .unknown "bogus", {}⟩]⟩
      | _ => ⟨true, [⟨"y", .identifier, {}⟩, ⟨"x", .identifier, {}⟩, ⟨"let", .identifier, {}⟩]⟩
    let results := (fresh.classifyAll jobs [0, 1, 2, 3]).1
    let one := (fresh.classifyAll jobs [0, 1, 2, 3]).2
    let results' := (fresh.classifyAll jobs [3, 2, 1, 0]).1
    let other := (fresh.classifyAll jobs [3, 2, 1, 0]).2
    [0, 1, 2, 3].Perm [3, 2, 1, 0] ∧ one.identifiers.toList = ["x", "y"] ∧
      other.identifiers.toList = ["y", "x"] ∧ one.trace.size = other.trace.size ∧
      one.translate other ⟨"x", .identifier, 0⟩ = some ⟨"x", .identifier, 1⟩ ∧
      ∀ i result result', (i, result) ∈ results → (i, result') ∈ results' →
        one.Renames other result result' := by
  have h : [0, 1, 2, 3].Perm [3, 2, 1, 0] := by decide
  intro jobs results one results' other
  obtain ⟨-, -, hrenames, -, -, -, -, hsize, -⟩ := classifyAll_perm fresh jobs h
  exact ⟨h, by decide +kernel, by decide +kernel, hsize, by decide +kernel,
    fun i result result' hr hr' => (hrenames i result result' hr hr').1⟩

end Lexicon.Session
