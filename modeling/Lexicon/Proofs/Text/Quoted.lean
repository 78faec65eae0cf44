import Lexicon.LexicalError
import Lexicon.Proofs.Classes

namespace Lexicon.Text

theorem isPrintable_of_ascii {c : Char} (h : 0x20 ≤ c.toNat) (h' : c.toNat < 0x7F) :
    isPrintable c = true := by
  rw [isPrintable, if_pos h', decide_eq_true h]

theorem isPrintable_of_isDigit {c : Char} (h : c.isDigit = true) : isPrintable c = true := by
  have hc := CharClass.isDigit_iff.1 h
  apply isPrintable_of_ascii <;> omega

theorem isPrintable_digitChar {n : Nat} (h : n < 16) : isPrintable n.digitChar = true := by
  revert n
  decide

theorem isPrintable_hex {width n : Nat} : ∀ c ∈ hex width n, isPrintable c = true := by
  induction width generalizing n with
  | zero => simp [hex]
  | succ width ih =>
    intro c hc
    obtain hc | hc := List.mem_append.1 hc
    · exact ih c hc
    · rw [List.mem_singleton.1 hc]
      exact isPrintable_digitChar (Nat.mod_lt n (by decide))

theorem isPrintable_cons {first : Char} {text : List Char} (h : isPrintable first = true)
    (ht : ∀ c ∈ text, isPrintable c = true) : ∀ c ∈ first :: text, isPrintable c = true := by
  intro c hc
  obtain rfl | hc := List.mem_cons.1 hc
  · exact h
  · exact ht c hc

theorem isPrintable_append {first second : List Char} (h : ∀ c ∈ first, isPrintable c = true)
    (h' : ∀ c ∈ second, isPrintable c = true) : ∀ c ∈ first ++ second, isPrintable c = true := by
  intro c hc
  obtain hc | hc := List.mem_append.1 hc
  · exact h c hc
  · exact h' c hc

theorem isPrintable_quoteFor (text : List Char) : isPrintable (quoteFor text) = true := by
  unfold quoteFor
  split <;> decide

theorem isPrintable_escape {quote : Char} (hq : isPrintable quote = true) (c : Char) :
    ∀ d ∈ escape quote c, isPrintable d = true := by
  have hslash : isPrintable '\\' = true := by decide
  fun_cases escape quote c with
  | case1 h =>
    apply isPrintable_cons hslash
    have hc : isPrintable c = true := by
      simp only [Bool.or_eq_true, decide_eq_true_eq] at h
      obtain h | h := h
      · rw [h]
        exact hq
      · rw [h]
        exact hslash
    simpa using hc
  | case2 | case3 | case4 => exact List.all_eq_true.1 (by decide)
  | case5 _ _ _ _ h => simpa using h
  | case6 | case7 | case8 =>
    exact isPrintable_cons hslash (isPrintable_cons (by decide) isPrintable_hex)

theorem isPrintable_quoted (text : String) : ∀ c ∈ (quoted text).toList, isPrintable c = true := by
  have hq := isPrintable_quoteFor text.toList
  rw [quoted, String.toList_ofList]
  apply isPrintable_cons hq
  apply isPrintable_append
  · intro d hd
    obtain ⟨c, -, hd⟩ := List.mem_flatMap.1 hd
    exact isPrintable_escape hq c d hd
  · simpa using hq

theorem isPrintable_repr (n : Nat) : ∀ c ∈ n.repr.toList, isPrintable c = true := by
  intro c hc
  rw [Nat.toList_repr] at hc
  exact isPrintable_of_isDigit (Nat.isDigit_of_mem_toDigits (by decide) (by decide) hc)

theorem isPrintable_toString (n : Int) : ∀ c ∈ (toString n).toList, isPrintable c = true := by
  rw [Int.toString_eq_repr, Int.repr_eq_if]
  split
  · exact isPrintable_repr _
  · rw [String.toList_append]
    exact isPrintable_append (List.all_eq_true.1 (by decide)) (isPrintable_repr _)

end Lexicon.Text

namespace Lexicon.LexicalError

open Text

theorem Cause.isPrintable_message {cause : Cause} (h : ∀ text, cause ≠ .general text) :
    ∀ c ∈ cause.message.toList, isPrintable c = true := by
  cases cause with
  | general text => exact absurd rfl (h text)
  | unexpectedSymbol symbol =>
    cases symbol with
    | none =>
      have hm : Cause.message (.unexpectedSymbol none) = "Unexpected symbol None" := rfl
      rw [hm]
      exact List.all_eq_true.1 (by decide +kernel)
    | some symbol =>
      have hm : Cause.message (.unexpectedSymbol (some symbol)) =
        "Unexpected symbol " ++ quoted symbol := rfl
      rw [hm, String.toList_append]
      exact isPrintable_append (List.all_eq_true.1 (by decide +kernel)) (isPrintable_quoted symbol)
  | undefinedSeparator value =>
    have hm : Cause.message (.undefinedSeparator value) =
      "Undefined separator " ++ quoted value := rfl
    rw [hm, String.toList_append]
    exact isPrintable_append (List.all_eq_true.1 (by decide +kernel)) (isPrintable_quoted value)

/-- What is said of an error, other than one that bears a text of its own, can be shown. -/
theorem isPrintable_message {error : LexicalError} (h : ∀ text, error.cause ≠ .general text) :
    ∀ c ∈ error.message.toList, isPrintable c = true := by
  have hline := isPrintable_toString error.position.line
  have hcolumn := isPrintable_toString error.position.column
  have hat : ∀ c ∈ " at line ".toList, isPrintable c = true :=
    List.all_eq_true.1 (by decide +kernel)
  have hcomma : ∀ c ∈ ", column ".toList, isPrintable c = true :=
    List.all_eq_true.1 (by decide +kernel)
  simp only [message, String.toList_append]
  apply isPrintable_append (isPrintable_append ?_ hcomma) hcolumn
  exact isPrintable_append (isPrintable_append (Cause.isPrintable_message h) hat) hline

theorem newline_not_mem_message {error : LexicalError} (h : ∀ text, error.cause ≠ .general text) :
    '\n' ∉ error.message.toList := by
  intro hn
  exact absurd (isPrintable_message h '\n' hn) (by decide +kernel)

end Lexicon.LexicalError
