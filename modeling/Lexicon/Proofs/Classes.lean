import Lexicon.CharClass
import Lexicon.Lexeme

namespace Lexicon

namespace CharClass

theorem isDigit_iff {c : Char} : c.isDigit = true ↔ 0x30 ≤ c.toNat ∧ c.toNat ≤ 0x39 := by
  simp [Char.isDigit, UInt32.le_iff_toNat_le]

theorem isAlpha_iff {c : Char} :
    c.isAlpha = true ↔ 0x41 ≤ c.toNat ∧ c.toNat ≤ 0x5A ∨ 0x61 ≤ c.toNat ∧ c.toNat ≤ 0x7A := by
  have h : c.isAlpha = (decide (0x41 ≤ c.val ∧ c.val ≤ 0x5A) ||
      (decide (0x61 ≤ c.val) && decide (c.val ≤ 0x7A))) := rfl
  simp [h, UInt32.le_iff_toNat_le]

theorem contains_separatorChars_iff {c : Char} :
    separatorChars.contains c = true ↔ c.toNat ∈ separatorChars.map Char.toNat := by
  simp only [separatorChars, List.contains_cons, List.contains_nil, Bool.or_false,
    Bool.or_eq_true, beq_iff_eq, List.map_cons, List.map_nil, List.mem_cons, List.not_mem_nil,
    or_false, Char.toNat_inj]

theorem not_digit_of_separator {c : Char} (h : separatorChars.contains c = true) :
    c.isDigit = false ∧ c.isAlpha = false ∧ c ≠ '_' := by
  rw [contains_separatorChars_iff] at h
  simp only [separatorChars, List.map_cons, List.map_nil, Char.reduceToNat, List.mem_cons,
    List.not_mem_nil, or_false] at h
  refine ⟨?_, ?_, ?_⟩
  · rw [← Bool.not_eq_true, isDigit_iff]
    omega
  · rw [← Bool.not_eq_true, isAlpha_iff]
    omega
  · rintro rfl
    simp at h

theorem not_digit_of_letter {c : Char} (h : (c.isAlpha || c = '_') = true) :
    c.isDigit = false := by
  rw [Bool.or_eq_true, isAlpha_iff, decide_eq_true_eq] at h
  rw [← Bool.not_eq_true, isDigit_iff]
  obtain h | rfl := h
  · omega
  · decide

theorem of_digit {c : Char} (h : c.isDigit = true) : of c = .digit := by
  simp [of, h]

theorem of_letter {c : Char} (h : (c.isAlpha || c = '_') = true) : of c = .letter := by
  have hd := not_digit_of_letter h
  simp only [of, hd, h, Bool.false_eq_true, if_false, if_true]

theorem of_separator {c : Char} (h : separatorChars.contains c = true) : of c = .separator := by
  obtain ⟨hd, ha, hu⟩ := not_digit_of_separator h
  simp only [of, hd, ha, hu, h, decide_false, Bool.or_self, Bool.false_eq_true, if_false, if_true]

def Tells : CharClass → Char → Prop
  | .digit, c => c.isDigit = true
  | .letter, c => (c.isAlpha || c = '_') = true
  | .separator, c => separatorChars.contains c = true
  | .commentMarker, c => c = '#'
  | .newline, c => c = '\n'
  | .whitespace, c => Text.isBlank c = true
  | .other, _ => True

theorem tells_of (c : Char) : (of c).Tells c := by
  fun_cases of c with
  | case1 | case2 | case3 | case4 | case5 | case6 => assumption
  | case7 => trivial

theorem tells {charClass : CharClass} {c : Char} (h : of c = charClass) : charClass.Tells c :=
  h ▸ tells_of c

theorem of_eq_digit_iff {c : Char} : of c = .digit ↔ c.isDigit = true :=
  ⟨tells, of_digit⟩

theorem of_eq_letter_iff {c : Char} : of c = .letter ↔ (c.isAlpha || c = '_') = true :=
  ⟨tells, of_letter⟩

theorem of_eq_separator_iff {c : Char} : of c = .separator ↔ separatorChars.contains c = true :=
  ⟨tells, of_separator⟩

theorem isBlank_of {c : Char} (h : of c = .newline ∨ of c = .whitespace) :
    Text.isBlank c = true := by
  obtain h | h := h
  · obtain rfl : c = '\n' := tells h
    decide
  · exact tells h

theorem ne_of_other {c : Char} (h : of c = .other) : c ≠ '\n' ∧ c ≠ '#' := by
  constructor
  · rintro rfl
    exact absurd h (by decide)
  · rintro rfl
    exact absurd h (by decide)

theorem not_visible_of_blank {c : Char} (h : Text.isBlank c = true) :
    c.toNat ≤ 0x20 ∨ 0x7F ≤ c.toNat := by
  simp only [Text.isBlank, Text.inRanges, Text.blankRanges, List.any_cons, List.any_nil,
    Bool.or_false, Bool.or_eq_true, Bool.and_eq_true, decide_eq_true_eq] at h
  omega

theorem of_blank {c : Char} (h : Text.isBlank c = true) :
    of c = if c = '\n' then .newline else .whitespace := by
  have hv := not_visible_of_blank h
  have hd : c.isDigit = false := by
    rw [← Bool.not_eq_true, isDigit_iff]
    omega
  have ha : c.isAlpha = false := by
    rw [← Bool.not_eq_true, isAlpha_iff]
    omega
  have hs : separatorChars.contains c = false := by
    rw [← Bool.not_eq_true, contains_separatorChars_iff]
    simp only [separatorChars, List.map_cons, List.map_nil, Char.reduceToNat, List.mem_cons,
      List.not_mem_nil, or_false]
    omega
  have hu : c ≠ '_' := by
    rintro rfl
    simp at hv
  have hm : c ≠ '#' := by
    rintro rfl
    simp at hv
  simp only [of, hd, ha, hs, hu, hm, h, decide_false, Bool.or_self, Bool.false_eq_true, if_false,
    if_true]

end CharClass

namespace Category

def begins : Category → Char → Bool
  | .literal, c => c.isDigit
  | .separator, c => CharClass.separatorChars.contains c
  | .identifier, c => c.isAlpha || c = '_'
  | .unknown _, _ => false

def continues : Category → Char → Bool
  | .literal, c => c.isDigit
  | .separator, c => CharClass.separatorChars.contains c
  | .identifier, c => (c.isAlpha || c = '_') || c.isDigit
  | .unknown _, _ => false

theorem continues_of_begins {category : Category} {c : Char} (h : category.begins c = true) :
    category.continues c = true := by
  cases category with
  | literal | separator => exact h
  | identifier => exact Bool.or_eq_true_iff.2 (.inl h)
  | unknown word => cases h

end Category

/-- A character may begin a lexeme, or stand between lexemes in one of three ways. -/
theorem CharClass.kinds (c : Char) :
    (∃ category : Category, category.begins c = true) ∨ Text.isBlank c = true ∨ c = '#' ∨
      of c = .other := by
  cases h : of c with
  | digit => exact .inl ⟨.literal, of_eq_digit_iff.1 h⟩
  | letter => exact .inl ⟨.identifier, of_eq_letter_iff.1 h⟩
  | separator => exact .inl ⟨.separator, of_eq_separator_iff.1 h⟩
  | commentMarker => exact .inr (.inr (.inl (tells h)))
  | newline => exact .inr (.inl (isBlank_of (.inl h)))
  | whitespace => exact .inr (.inl (isBlank_of (.inr h)))
  | other => exact .inr (.inr (.inr rfl))

end Lexicon
