import Lexicon.Prompt
import Lexicon.Proofs.Program.Modes
import Lexicon.Proofs.Text.Lines

namespace Lexicon.Prompt

def Quits (line : String) : Prop :=
  Text.lowerCase (Text.strip line) ∈ ["quit", "exit", "q"]

instance (line : String) : Decidable (Quits line) :=
  inferInstanceAs (Decidable (_ ∈ _))

/-- The lines before the one that ends the conversation, or all. -/
def heard (lines : List String) : List String :=
  lines.takeWhile (¬ Quits ·)

def outcome (settings : Settings) (line : String) : Program.Outcome :=
  Program.process settings "" {} Session.fresh (Text.strip line)

def reply (settings : Settings) (line : String) : String :=
  prompt ++ if Text.strip line = "" then "" else (outcome settings line).output

def logged (settings : Settings) (line : String) : List Event :=
  if Text.strip line = "" then []
  else Log.ofProgram Session.fresh settings.everyError (Text.strip line)

def closing (lines : List String) : String :=
  prompt ++ if heard lines = lines then endOfInput else farewell

variable {settings : Settings} {line : String} {lines before rest : List String}

theorem isQuit_iff : isQuit (Text.strip line) = true ↔ Quits line := by
  rw [isQuit, List.contains_iff_mem, Quits]

theorem heard_of_quits (h : Quits line) (lines : List String) : heard (line :: lines) = [] :=
  List.takeWhile_cons_of_neg (by simpa using h)

theorem heard_of_not_quits (h : ¬ Quits line) (lines : List String) :
    heard (line :: lines) = line :: heard lines :=
  List.takeWhile_cons_of_pos (by simpa using h)

theorem heard_append (h : ∀ line ∈ before, ¬ Quits line) (rest : List String) :
    heard (before ++ rest) = before ++ heard rest :=
  List.takeWhile_append_of_pos (by simpa using h)

theorem closing_append (h : ∀ line ∈ before, ¬ Quits line) (rest : List String) :
    closing (before ++ rest) = closing rest := by
  simp only [closing, heard_append h, List.append_cancel_left_eq]

theorem respond_of_quits (h : Quits line) :
    respond settings line = { output := farewell, last := true } := by
  simp only [respond, isQuit_iff.2 h, if_true]

theorem respond_of_not_quits (settings : Settings) (h : ¬ Quits line) :
    prompt ++ (respond settings line).output = reply settings line ∧
      (respond settings line).events = logged settings line ∧ (respond settings line).last = false := by
  have hquit : isQuit (Text.strip line) = false := by
    rw [← Bool.not_eq_true, isQuit_iff]
    exact h
  simp only [respond, hquit, Bool.false_eq_true, if_false, reply, logged, outcome]
  split <;> exact ⟨rfl, rfl, rfl⟩

theorem output_responses (settings : Settings) (lines : List String) :
    String.join ((responses settings lines).map fun response => prompt ++ response.output) =
      String.join ((heard lines).map (reply settings)) ++ closing lines := by
  induction lines with
  | nil => rfl
  | cons line lines ih =>
    by_cases hq : Quits line
    · simp only [responses, respond_of_quits hq, if_true, heard_of_quits hq, closing,
        List.map_cons, List.map_nil, String.join_cons, String.join_nil, String.empty_append,
        String.append_empty, List.nil_eq, reduceCtorEq, if_false]
    · obtain ⟨hsaid, -, hgoes⟩ := respond_of_not_quits settings hq
      have hline : ∀ other ∈ [line], ¬ Quits other := by simpa using hq
      have hclosing : closing (line :: lines) = closing lines := closing_append hline lines
      simp only [responses, hgoes, Bool.false_eq_true, if_false, List.map_cons, String.join_cons, hsaid, ih,
        heard_of_not_quits hq, hclosing, String.append_assoc]

theorem events_responses (settings : Settings) (lines : List String) :
    (responses settings lines).flatMap Response.events = (heard lines).flatMap (logged settings) := by
  induction lines with
  | nil => rfl
  | cons line lines ih =>
    by_cases hq : Quits line
    · simp only [responses, respond_of_quits hq, if_true, heard_of_quits hq, List.flatMap_cons,
        List.flatMap_nil, List.append_nil]
    · obtain ⟨-, hlogged, hgoes⟩ := respond_of_not_quits settings hq
      simp only [responses, hgoes, Bool.false_eq_true, if_false, List.flatMap_cons, hlogged, ih,
        heard_of_not_quits hq]

theorem output_converse (settings : Settings) (input : String) :
    let lines := Text.lines (Text.unifyNewlines input)
    (converse settings input).output =
      banner ++ String.join ((heard lines).map (reply settings)) ++ closing lines := by
  simp only [converse, output_responses, String.append_assoc]

theorem events_converse (settings : Settings) (input : String) :
    let lines := Text.lines (Text.unifyNewlines input)
    (converse settings input).events = (heard lines).flatMap (logged settings) := by
  simp only [converse, events_responses]

theorem output_converse_append {input : String} (h : ∀ line ∈ before, ¬ Quits line)
    (hlines : Text.lines (Text.unifyNewlines input) = before ++ rest) (settings : Settings) :
    (converse settings input).output = banner ++ String.join (before.map (reply settings)) ++
      (String.join ((heard rest).map (reply settings)) ++ closing rest) := by
  rw [output_converse, hlines, heard_append h, closing_append h, List.map_append, String.join_append]
  simp only [String.append_assoc]

theorem result_outcome (settings : Settings) (line : String) :
    ∃ accepted, (outcome settings line).result = .ok accepted := by
  apply (Program.exists_result_iff settings "" {} .fresh (Text.strip line)).2
  rintro ⟨-, hnull⟩
  cases hnull

/-- A conversation goes line by line: each line up to the one that ends it is answered for itself
alone, and no line behind that is taken notice of. To put other lines in place of those at the beginning
changes the answers to these and nothing else. -/
theorem converse_by_line (settings : Settings) (input : String) :
    let text := Text.unifyNewlines input
    let lines := Text.lines text
    Text.Lined text lines ∧
      (converse settings input).output =
        banner ++ String.join ((heard lines).map (reply settings)) ++ closing lines ∧
      (converse settings input).events = (heard lines).flatMap (logged settings) ∧
      (∀ line, ∃ accepted, (outcome settings line).result = .ok accepted) ∧
      ∀ rest, ∃ ending, ∀ other before, Text.lines (Text.unifyNewlines other) = before ++ rest →
        (∀ line ∈ before, ¬ Quits line) →
          (converse settings other).output =
            banner ++ String.join (before.map (reply settings)) ++ ending := by
  intro text lines
  refine ⟨Text.lined_lines text, output_converse settings input, events_converse settings input,
    result_outcome settings, ?_⟩
  intro rest
  exact ⟨_, fun other before hlines hquits => output_converse_append hquits hlines settings⟩

end Lexicon.Prompt
