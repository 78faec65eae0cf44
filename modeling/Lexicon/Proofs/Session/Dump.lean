import Lexicon.Proofs.FileSystem.Access
import Lexicon.Proofs.Json.RoundTrip
import Lexicon.Proofs.Session.Contribution

namespace Lexicon

namespace Json

def field? (name : String) : Json → Option Json
  | .object fields => fields.lookup name
  | _ => none

def item? (index : Int) : Json → Option Json
  | .list items => if 0 ≤ index then items[index.toNat]? else none
  | _ => none

def Refers (data entry : Json) : Prop :=
  ∃ value table index, entry.field? "value" = some (.text value) ∧
    entry.field? "table" = some (.text table) ∧ entry.field? "index" = some (.number index) ∧
    (data.field? (table ++ "s")).bind (item? index) = some (.text value)

/-- Every entry of the trace refers to its value. -/
def CrossReferenced (data : Json) : Prop :=
  ∃ entries, data.field? "trace" = some (.list entries) ∧ ∀ entry ∈ entries, data.Refers entry

theorem text_injective : Function.Injective Json.text :=
  fun _ _ h => Json.text.inj h

end Json

theorem Reference.toJson_injective : Function.Injective Reference.toJson := by
  rintro ⟨value, kind, index⟩ ⟨value', kind', index'⟩ h
  simp only [Reference.toJson, Json.object.injEq, List.cons.injEq, Prod.mk.injEq, Json.text.injEq,
    Json.number.injEq, true_and, and_true] at h
  obtain ⟨rfl, hkind, rfl⟩ := h
  rw [Kind.name_injective hkind]

theorem Vocabulary.toJson_injective {kind : Kind} :
    Function.Injective (Vocabulary.toJson : Vocabulary kind → Json) := by
  intro v w h
  apply Vocabulary.toList_inj
  exact List.map_injective_iff.2 Json.text_injective (Json.list.inj h)

namespace Session

variable {session other : Session}

theorem eq_of_toJson (h : session.toJson = other.toJson) :
    session.keywords = other.keywords ∧ session.separators = other.separators ∧
      session.literals = other.literals ∧ session.identifiers = other.identifiers ∧
      session.trace = other.trace := by
  simp only [toJson, Json.object.injEq, List.cons.injEq, Prod.mk.injEq, Json.list.injEq, true_and,
    and_true] at h
  obtain ⟨hk, hs, hl, hi, ht⟩ := h
  refine ⟨Vocabulary.toJson_injective hk, Vocabulary.toJson_injective hs,
    Vocabulary.toJson_injective hl, Vocabulary.toJson_injective hi, ?_⟩
  exact Array.toList_inj.1 (List.map_injective_iff.2 Reference.toJson_injective ht)

theorem eq_of_dump (h : session.dump = other.dump) : session.toJson = other.toJson := by
  have hread : Json.read session.dump = some session.toJson := Json.read_render session.toJson
  have hread' : Json.read other.dump = some other.toJson := Json.read_render other.toJson
  rw [h, hread'] at hread
  exact (Option.some.inj hread).symm

def Sound (session : Session) : Prop :=
  ∀ reference ∈ session.trace.toList, session.Points reference

theorem Sound.of_adds {references : List Reference} {later : Session} (h : session.Sound)
    (ha : session.Adds references later) : later.Sound := by
  intro reference hr
  rw [ha.trace] at hr
  obtain hr | hr := List.mem_append.1 hr
  · exact (h reference hr).of_extends ha.extended
  · exact ha.points reference hr

theorem sound_perform (h : session.Sound) (call : Call) : (session.perform call).2.Sound := by
  by_cases hcall : call.Records
  · obtain hs | ⟨failFast, lexemes, hs⟩ := session_perform session hcall
    · rw [hs]
      exact h
    · rw [hs]
      exact h.of_adds (adds_classify session failFast lexemes)
  · cases call with
    | resolve lexeme =>
      have hg := grown_resolveLexeme session lexeme
      intro reference hr
      rw [perform, hg.trace] at hr
      exact (h reference hr).of_extends hg.extends
    | register | classify | analyze | diagnose | process => exact absurd trivial hcall

theorem sound_run (h : session.Sound) (calls : List Call) : (session.run calls).Sound := by
  induction calls generalizing session with
  | nil => exact h
  | cons call calls ih => exact ih (sound_perform h call)

theorem sound_of_reachable (h : session.Reachable) : session.Sound := by
  obtain ⟨keywords, separators, start, calls, hstart, rfl⟩ := h
  apply sound_run
  rw [eq_of_ofLists hstart]
  exact nofun

theorem field?_vocabulary (session : Session) (kind : Kind) :
    session.toJson.field? (kind.name ++ "s") = some (session.vocabulary kind).toJson := by
  cases kind <;> rfl

theorem Points.refers {reference : Reference} (h : session.Points reference) :
    session.toJson.Refers reference.toJson := by
  obtain ⟨i, hi, hget⟩ := h
  refine ⟨reference.value, reference.kind.name, reference.index, rfl, rfl, rfl, ?_⟩
  have hzero : (0 : Int) ≤ i := Int.natCast_nonneg i
  rw [field?_vocabulary, Option.bind_some, hi, Vocabulary.toJson, Json.item?, if_pos hzero,
    Int.toNat_natCast, List.getElem?_map, hget]
  rfl

theorem Sound.crossReferenced (h : session.Sound) : session.toJson.CrossReferenced := by
  refine ⟨session.trace.toList.map Reference.toJson, rfl, ?_⟩
  intro entry he
  obtain ⟨reference, hr, rfl⟩ := List.mem_map.1 he
  exact (h reference hr).refers

end Session

/-- A program that goes well with a dump leaves the dump of its session in the file. -/
theorem Program.read_process {settings : Settings} {path : String} {files : FileSystem}
    {session : Session} {text : String} (hpath : path ≠ "")
    (h : (process settings path files session text).result = .ok true) :
    (process settings path files session text).files.read path =
      .ok (process settings path files session text).session.dump.toUTF8 := by
  unfold process at h ⊢
  split
  · next hj =>
    rw [hj] at h
    cases h
  · next hj =>
    rw [hj] at h
    cases h
  · next later hj =>
    rw [hj] at h
    simp only [if_neg hpath] at h ⊢
    unfold dump at h ⊢
    split at h
    · next hwrite => exact FileSystem.read_write hwrite
    · cases h
    · cases h

namespace Session

/-- Nothing is lost in a dump: its text is read as the data of the session that was dumped, and so
sessions dumped alike have the same vocabularies and the same trace. The file that a program is dumped
to holds that text. -/
theorem dump_lossless (session other : Session) (settings : Settings) (path : String)
    (files : FileSystem) (text : String) :
    Json.read session.dump = some session.toJson ∧
      (session.dump = other.dump →
        session.keywords = other.keywords ∧ session.separators = other.separators ∧
          session.literals = other.literals ∧ session.identifiers = other.identifiers ∧
          session.trace = other.trace) ∧
      (let outcome := Program.process settings path files session text
       path ≠ "" → outcome.result = .ok true →
        ∃ source : String, outcome.files.read path = .ok source.toUTF8 ∧
          Json.read source = some outcome.session.toJson) ∧
      (session.Reachable → session.toJson.CrossReferenced) := by
  refine ⟨Json.read_render session.toJson, fun h => eq_of_toJson (eq_of_dump h), ?_, ?_⟩
  · intro outcome hpath hresult
    exact ⟨outcome.session.dump, Program.read_process hpath hresult, Json.read_render _⟩
  · exact fun h => (sound_of_reachable h).crossReferenced

theorem dump_lossless_quotes :
    ∃ start, ofLists ["let"] [";"] = .ok start ∧
      let session := start.run [.classify true [⟨"\"\\\n\t\u0001é😀", .literal, {}⟩,
        ⟨"let", .identifier, {}⟩, ⟨"trace", .identifier, {}⟩], .resolve ⟨"[]", .literal, {}⟩]
      let outcome := Program.process {} "../a.json" (.empty ["home"]) session "let x;"
      session.trace.size = 3 ∧ session.toJson.CrossReferenced ∧ outcome.result = .ok true ∧
        ∃ source : String, outcome.files.read "../a.json" = .ok source.toUTF8 ∧
          Json.read source = some outcome.session.toJson := by
  have hstart : ofLists ["let"] [";"] = .ok
      { keywords := Vocabulary.empty.internAll ["let"],
        separators := Vocabulary.empty.internAll [";"] } := by rfl
  refine ⟨_, hstart, ?_⟩
  intro session outcome
  have hreachable : session.Reachable := ⟨_, _, _, _, hstart, rfl⟩
  have hresult : outcome.result = .ok true := by decide +kernel
  obtain ⟨-, -, hfile, hrefers⟩ :=
    dump_lossless session session {} "../a.json" (.empty ["home"]) "let x;"
  exact ⟨by decide +kernel, hrefers hreachable, hresult, hfile (by decide) hresult⟩

end Session

end Lexicon
