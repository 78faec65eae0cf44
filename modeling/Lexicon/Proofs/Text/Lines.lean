import Lexicon.Text.Newlines

namespace Lexicon.Text

section

variable {line : List Char}

theorem splitOn_line (hline : '\n' ∉ line) : line.splitOn '\n' = [line] := by
  apply List.splitOnP_eq_singleton
  intro c hc
  simpa using fun he : c = '\n' => hline (he ▸ hc)

theorem splitOn_line_cons (hline : '\n' ∉ line) (text : List Char) :
    (line ++ '\n' :: text).splitOn '\n' = line :: text.splitOn '\n' := by
  have hsplit : (line ++ '\n' :: text).splitOn '\n' = line.splitOn '\n' ++ text.splitOn '\n' := by
    apply List.splitOnP_append_cons
    simp
  rw [hsplit, splitOn_line hline, List.singleton_append]

theorem exists_line (text : List Char) :
    ∃ line, '\n' ∉ line ∧ (text = line ∨ ∃ more, text = line ++ '\n' :: more) := by
  induction text with
  | nil => exact ⟨[], List.not_mem_nil, .inl rfl⟩
  | cons c text ih =>
    by_cases hc : c = '\n'
    · exact ⟨[], List.not_mem_nil, .inr ⟨text, by rw [hc]; rfl⟩⟩
    · obtain ⟨line, hline, hsplit⟩ := ih
      have hline' : '\n' ∉ c :: line := List.not_mem_cons_of_ne_of_not_mem (Ne.symm hc) hline
      obtain rfl | ⟨more, rfl⟩ := hsplit
      · exact ⟨c :: text, hline', .inl rfl⟩
      · exact ⟨c :: line, hline', .inr ⟨more, rfl⟩⟩

end

/-- The text consists of the lines. Each has its line end behind it but the last, which may lack it
unless it is empty. -/
inductive Lined : String → List String → Prop
  | done : Lined "" []
  | last {line : String} (hline : '\n' ∉ line.toList) (hne : line ≠ "") : Lined line [line]
  | line {line text : String} {lines : List String} (hline : '\n' ∉ line.toList)
      (h : Lined text lines) : Lined (line ++ "\n" ++ text) (line :: lines)

variable {line : String}

theorem lines_last (hline : '\n' ∉ line.toList) (hne : line ≠ "") : lines line = [line] := by
  simp only [lines, splitOn_line hline, List.map_singleton, String.ofList_toList,
    List.getLast?_singleton, Option.some.injEq, hne, if_false]

theorem lines_line (hline : '\n' ∉ line.toList) (text : String) :
    lines (line ++ "\n" ++ text) = line :: lines text := by
  have htext : (line ++ "\n" ++ text).toList = line.toList ++ '\n' :: text.toList := by simp
  have hne : (text.toList.splitOn '\n').map String.ofList ≠ [] := by simp [List.splitOn_ne_nil]
  simp only [lines, htext, splitOn_line_cons hline, List.map_cons, String.ofList_toList,
    List.getLast?_cons_of_ne_nil hne, List.dropLast_cons_of_ne_nil hne]
  split <;> rfl

theorem lined_lines (text : String) : Lined text (lines text) := by
  induction hn : text.toList.length using Nat.strongRecOn generalizing text with
  | ind n ih =>
    obtain ⟨line, hline, hsplit⟩ := exists_line text.toList
    have hline' : '\n' ∉ (String.ofList line).toList := by rwa [String.toList_ofList]
    obtain hsame | ⟨more, hmore⟩ := hsplit
    · obtain rfl : text = String.ofList line := by rw [← hsame, String.ofList_toList]
      by_cases hne : String.ofList line = ""
      · rw [hne]
        exact .done
      · rw [lines_last hline' hne]
        exact .last hline' hne
    · have htext : text = String.ofList line ++ "\n" ++ String.ofList more := by
        apply String.toList_inj.1
        simp [hmore]
      have hlength : (String.ofList more).toList.length < n := by
        rw [← hn, hmore, String.toList_ofList]
        simp only [List.length_append, List.length_cons]
        omega
      rw [htext, lines_line hline']
      exact .line hline' (ih _ hlength _ rfl)

end Lexicon.Text
