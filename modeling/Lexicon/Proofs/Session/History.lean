import Lexicon.Program
import Lexicon.Proofs.Vocabulary

namespace Lexicon.Session

inductive Call
  | register (lexemes : List Lexeme)
  | classify (failFast : Bool) (lexemes : List Lexeme)
  | resolve (lexeme : Lexeme)
  | analyze (text : String)
  | diagnose (text : String)
  | process (settings : Settings) (dumpPath : String) (files : FileSystem) (text : String)

inductive Answer
  | registered (result : Except Failure (List Reference))
  | classified (result : Except UnknownCategory Classification)
  | resolved (result : Except Failure Reference)
  | analyzed (result : Except Failure (List Lexeme))
  | diagnosed (result : Except UnknownCategory Diagnosis)
  | processed (result : Except Program.Fault Bool) (output : String)

def perform (session : Session) : Call → Answer × Session
  | .register lexemes =>
    let (result, session) := session.register lexemes
    (.registered result, session)
  | .classify failFast lexemes =>
    let (result, session) := session.classify failFast lexemes
    (.classified result, session)
  | .resolve lexeme =>
    let (result, session) := session.resolveLexeme lexeme
    (.resolved result, session)
  | .analyze text =>
    let (result, session) := session.analyze text
    (.analyzed result, session)
  | .diagnose text =>
    let (result, session) := session.diagnose text
    (.diagnosed result, session)
  | .process settings dumpPath files text =>
    let outcome := Program.process settings dumpPath files session text
    (.processed outcome.result outcome.output, outcome.session)

/-- The call puts references into the trace, where it interns anything for them. -/
def Call.Records : Call → Prop
  | .resolve _ => False
  | _ => True

def run (session : Session) (calls : List Call) : Session :=
  calls.foldl (fun session call => (session.perform call).2) session

/-- Some history leads to the session from an empty one. -/
def Reachable (session : Session) : Prop :=
  ∃ keywords separators start calls,
    ofLists keywords separators = .ok start ∧ start.run calls = session

def Answer.Rejects : Answer → Prop
  | .registered (.error _) | .resolved (.error _) | .analyzed (.error _) => True
  | .classified (.error _) | .diagnosed (.error _) => True
  | .classified (.ok classification) => classification.errors ≠ []
  | .diagnosed (.ok diagnosis) => diagnosis.errors ≠ []
  | .processed result output =>
    result = .ok false ∧ ∃ errors, errors ≠ [] ∧ output = Program.errorLines errors
  | _ => False

theorem ofLists_of_nodup {keywords separators : List String} (hk : keywords.Nodup)
    (hs : separators.Nodup) :
    ∃ start, ofLists keywords separators = .ok start ∧ start.keywords.toList = keywords ∧
      start.separators.toList = separators := by
  obtain ⟨k, hkl, hk'⟩ := Vocabulary.ofList_of_nodup .keyword hk
  obtain ⟨s, hsl, hs'⟩ := Vocabulary.ofList_of_nodup .separator hs
  refine ⟨{ keywords := k, separators := s }, ?_, hkl, hsl⟩
  rw [ofLists, hk', hs']
  rfl

theorem session_register (session : Session) (lexemes : List Lexeme) :
    (session.register lexemes).2 = (session.classify true lexemes).2 := by
  unfold register
  split
  · next h => rw [h]
  · next h =>
    rw [h]
    dsimp only
    split <;> rfl

theorem session_analyze (session : Session) (text : String) :
    (session.analyze text).2 = session ∨
      ∃ lexemes, (session.analyze text).2 = (session.classify true lexemes).2 := by
  unfold analyze
  cases Lexeme.ofText text with
  | error error => exact .inl rfl
  | ok lexemes =>
    refine .inr ⟨lexemes, ?_⟩
    rw [← session_register]
    dsimp only
    split <;> next h => rw [h]

theorem session_diagnose (session : Session) (text : String) :
    (session.diagnose text).2 = session ∨
      ∃ lexemes, (session.diagnose text).2 = (session.classify false lexemes).2 := by
  unfold diagnose
  dsimp only
  split
  · exact .inr ⟨_, rfl⟩
  · exact .inl rfl

theorem session_judge (session : Session) (everyError : Bool) (text : String) :
    (session.judge everyError text).2 =
      if everyError then (session.diagnose text).2 else (session.analyze text).2 := by
  unfold judge
  cases everyError with
  | true =>
    simp only [if_true]
    split
    · next h => rw [h]
    · next h =>
      rw [h]
      dsimp only
      split <;> rfl
  | false =>
    simp only [Bool.false_eq_true, if_false]
    split <;> next h => rw [h]

theorem session_process (settings : Settings) (dumpPath : String) (files : FileSystem)
    (session : Session) (text : String) :
    (Program.process settings dumpPath files session text).session =
      (session.judge settings.everyError text).2 := by
  unfold Program.process
  split
  · next h => rw [h]
  · next h => rw [h]
  · next h =>
    rw [h]
    dsimp only
    split <;> rfl

/-- A call either leaves a session alone or does to it what a classification does. -/
theorem session_perform (session : Session) {call : Call} (h : call.Records) :
    (session.perform call).2 = session ∨
      ∃ failFast lexemes, (session.perform call).2 = (session.classify failFast lexemes).2 := by
  have hanalyze (text : String) : (session.analyze text).2 = session ∨
      ∃ failFast lexemes, (session.analyze text).2 = (session.classify failFast lexemes).2 :=
    (session_analyze session text).imp_right fun hc => ⟨true, hc⟩
  have hdiagnose (text : String) : (session.diagnose text).2 = session ∨
      ∃ failFast lexemes, (session.diagnose text).2 = (session.classify failFast lexemes).2 :=
    (session_diagnose session text).imp_right fun hc => ⟨false, hc⟩
  cases call with
  | register lexemes => exact .inr ⟨true, lexemes, session_register session lexemes⟩
  | classify failFast lexemes => exact .inr ⟨failFast, lexemes, rfl⟩
  | resolve lexeme => exact h.elim
  | analyze text => exact hanalyze text
  | diagnose text => exact hdiagnose text
  | process settings dumpPath files text =>
    simp only [perform, session_process, session_judge]
    split
    · exact hdiagnose text
    · exact hanalyze text

theorem exists_of_ofLists {keywords separators : List String} {start : Session}
    (h : ofLists keywords separators = .ok start) :
    ∃ k s, Vocabulary.ofList .keyword keywords = .ok k ∧
      Vocabulary.ofList .separator separators = .ok s ∧ start = { keywords := k, separators := s } := by
  unfold ofLists at h
  cases hk : Vocabulary.ofList .keyword keywords with
  | error duplicate =>
    rw [hk] at h
    cases h
  | ok k =>
    cases hs : Vocabulary.ofList .separator separators with
    | error duplicate =>
      rw [hk, hs] at h
      cases h
    | ok s =>
      rw [hk, hs] at h
      exact ⟨k, s, rfl, rfl, (Except.ok.inj h).symm⟩

theorem eq_of_ofLists {keywords separators : List String} {start : Session}
    (h : ofLists keywords separators = .ok start) :
    start = { keywords := start.keywords, separators := start.separators } := by
  obtain ⟨k, s, -, -, rfl⟩ := exists_of_ofLists h
  rfl

end Lexicon.Session
