import Lexicon.LexicalError
import Lexicon.Proofs.Classes
import Lexicon.Proofs.Place

namespace Lexicon

/-- A lexeme that a text may hold: a first character of its category, and more of them. -/
def Lexeme.WellFormed (lexeme : Lexeme) : Prop :=
  ∃ first others, lexeme.value.toList = first :: others ∧
    lexeme.category.begins first = true ∧ ∀ c ∈ others, lexeme.category.continues c = true

/-- A lexeme of the category cannot be made longer by the text behind it. -/
def Category.EndsBefore (category : Category) (text : List Char) : Prop :=
  ∀ c ∈ text.head?, category.continues c = false

theorem Category.class_of_continues {category : Category} {c : Char} (h : category.continues c = true) :
    category = .separator ∧ CharClass.of c = .separator ∨
      category ≠ .separator ∧ (CharClass.of c = .digit ∨ CharClass.of c = .letter) := by
  cases category with
  | literal => exact .inr ⟨nofun, .inl (CharClass.of_digit h)⟩
  | separator => exact .inl ⟨rfl, CharClass.of_separator h⟩
  | identifier =>
    obtain h | h := Bool.or_eq_true_iff.1 h
    · exact .inr ⟨nofun, .inr (CharClass.of_letter h)⟩
    · exact .inr ⟨nofun, .inl (CharClass.of_digit h)⟩
  | unknown word => cases h

theorem Category.not_continues_of_blank (category : Category) {c : Char} (h : Text.isBlank c = true) :
    category.continues c = false := by
  rw [← Bool.not_eq_true]
  intro hgoes
  have hclass := CharClass.of_blank h
  obtain ⟨-, hs⟩ | ⟨-, hs | hs⟩ := Category.class_of_continues hgoes <;> rw [hs] at hclass <;>
    split at hclass <;> cases hclass

theorem Category.visible_of_begins {category : Category} {c : Char} (h : category.begins c = true) :
    ¬ Text.isBlank c = true ∧ c ≠ '#' ∧ CharClass.of c ≠ .other := by
  have hgoes := Category.continues_of_begins h
  refine ⟨?_, ?_, ?_⟩
  · intro hblank
    rw [category.not_continues_of_blank hblank] at hgoes
    cases hgoes
  · rintro rfl
    have hclass : CharClass.of '#' = .commentMarker := by decide
    simpa [hclass] using Category.class_of_continues hgoes
  · intro ho
    simpa [ho] using Category.class_of_continues hgoes

theorem Lexeme.WellFormed.continues {lexeme : Lexeme} (h : lexeme.WellFormed) :
    ∀ c ∈ lexeme.value.toList, lexeme.category.continues c = true := by
  obtain ⟨first, others, hvalue, hfirst, hothers⟩ := h
  rw [hvalue]
  exact List.forall_mem_cons.2 ⟨Category.continues_of_begins hfirst, hothers⟩

theorem Lexeme.WellFormed.not_mem_of_class {lexeme : Lexeme} (h : lexeme.WellFormed) {c : Char}
    (hc : CharClass.of c ≠ .digit ∧ CharClass.of c ≠ .letter ∧ CharClass.of c ≠ .separator) :
    c ∉ lexeme.value.toList := by
  intro hm
  obtain ⟨-, hs⟩ | ⟨-, hs | hs⟩ := Category.class_of_continues (h.continues c hm)
  · exact hc.2.2 hs
  · exact hc.1 hs
  · exact hc.2.1 hs

theorem Lexeme.WellFormed.toList_ne_nil {lexeme : Lexeme} (h : lexeme.WellFormed) :
    lexeme.value.toList ≠ [] := by
  obtain ⟨first, others, hvalue, -, -⟩ := h
  rw [hvalue]
  exact List.cons_ne_nil first others

theorem Lexeme.WellFormed.behind_eq {lexeme : Lexeme} (h : lexeme.WellFormed)
    {before other text : List Char}
    (hplace : Position.Abreast before other (lexeme.value.toList ++ text)) :
    Position.behind before = Position.behind other := by
  have hline : '\n' ∉ lexeme.value.toList := h.not_mem_of_class (by decide)
  obtain ⟨first, others, hvalue⟩ := List.exists_cons_of_ne_nil h.toList_ne_nil
  rw [hvalue] at hplace hline
  exact hplace.place first rfl (List.ne_of_not_mem_cons hline).symm

theorem Lexeme.WellFormed.separators {lexeme : Lexeme} (h : lexeme.WellFormed)
    (hcategory : lexeme.category = .separator) :
    ∀ c ∈ lexeme.value.toList, CharClass.of c = .separator := by
  intro c hc
  have hgoes := h.continues c hc
  rw [hcategory] at hgoes
  exact CharClass.of_separator hgoes

theorem Lexeme.WellFormed.not_separators {lexeme : Lexeme} (h : lexeme.WellFormed)
    (hcategory : lexeme.category ≠ .separator) :
    ∀ c ∈ lexeme.value.toList, CharClass.of c ≠ .separator := by
  intro c hc hs
  obtain ⟨hcategory', -⟩ | ⟨-, hd | hd⟩ := Category.class_of_continues (h.continues c hc)
  · exact hcategory hcategory'
  · rw [hs] at hd
    cases hd
  · rw [hs] at hd
    cases hd

theorem Category.EndsBefore.not_separator {category : Category} {text : List Char}
    (h : category.EndsBefore text) (hcategory : category = .separator) :
    ∀ c ∈ text.head?, CharClass.of c ≠ .separator := by
  intro c hc hs
  have hgoes : category.continues c = true := by
    rw [hcategory]
    exact CharClass.of_eq_separator_iff.1 hs
  rw [h c hc] at hgoes
  cases hgoes

def LexicalError.unexpected (c : Char) (position : Position) : LexicalError :=
  ⟨.unexpectedSymbol (some (String.singleton c)), position⟩

/-- Behind its beginning, a text is laid out without remainder: lexemes, none of which can be made
longer, and in the gaps between them blanks, comments up to the end of a line, and characters of no
class. Each of the latter is an error. Lexemes and errors bear the places where they begin. -/
inductive Layout : List Char → List Char → List Lexeme → List LexicalError → Prop
  | done {before : List Char} : Layout before [] [] []
  | blank {before text : List Char} {lexemes : List Lexeme} {errors : List LexicalError} {c : Char}
      (hc : Text.isBlank c = true) (h : Layout (before ++ [c]) text lexemes errors) :
      Layout before (c :: text) lexemes errors
  | comment {before text : List Char} {lexemes : List Lexeme} {errors : List LexicalError}
      {body : List Char} (hbody : '\n' ∉ body) (hend : ∀ c ∈ text.head?, c = '\n')
      (h : Layout (before ++ '#' :: body) text lexemes errors) :
      Layout before ('#' :: (body ++ text)) lexemes errors
  | refused {before text : List Char} {lexemes : List Lexeme} {errors : List LexicalError}
      {c : Char} (hc : CharClass.of c = .other) (h : Layout (before ++ [c]) text lexemes errors) :
      Layout before (c :: text) lexemes (.unexpected c (.behind before) :: errors)
  | lexeme {before text : List Char} {lexemes : List Lexeme} {errors : List LexicalError}
      {lexeme : Lexeme} (hwell : lexeme.WellFormed) (hend : lexeme.category.EndsBefore text)
      (hplace : lexeme.position = .behind before)
      (h : Layout (before ++ lexeme.value.toList) text lexemes errors) :
      Layout before (lexeme.value.toList ++ text) (lexeme :: lexemes) errors

namespace Layout

variable {before text : List Char} {lexemes : List Lexeme} {errors : List LexicalError}

theorem wellFormed (h : Layout before text lexemes errors) : ∀ lexeme ∈ lexemes, lexeme.WellFormed := by
  induction h with
  | done => simp
  | blank _ _ ih | comment _ _ _ ih | refused _ _ ih => exact ih
  | lexeme hwell _ _ _ ih =>
    intro lexeme hm
    obtain rfl | hm := List.mem_cons.1 hm
    · exact hwell
    · exact ih lexeme hm

theorem exists_unexpected (h : Layout before text lexemes errors) :
    ∀ error ∈ errors, ∃ c position, error = .unexpected c position := by
  induction h with
  | done => simp
  | blank _ _ ih | comment _ _ _ ih | lexeme _ _ _ _ ih => exact ih
  | refused _ _ ih =>
    intro error hm
    obtain rfl | hm := List.mem_cons.1 hm
    · exact ⟨_, _, rfl⟩
    · exact ih error hm

theorem gap {blanks : List Char} (hblank : ∀ c ∈ blanks, Text.isBlank c = true)
    (h : Layout (before ++ blanks) text lexemes errors) :
    Layout before (blanks ++ text) lexemes errors := by
  induction blanks generalizing before with
  | nil =>
    rw [List.append_nil] at h
    exact h
  | cons c blanks ih =>
    obtain ⟨hc, hblank⟩ := List.forall_mem_cons.1 hblank
    refine .blank hc (ih hblank ?_)
    rwa [List.append_assoc, List.singleton_append]

theorem blanks (n : Nat) (h : Layout (before ++ List.replicate n ' ') text lexemes errors) :
    Layout before (List.replicate n ' ' ++ text) lexemes errors := by
  refine gap ?_ h
  intro c hc
  rw [List.eq_of_mem_replicate hc]
  decide

theorem of_blank {c : Char} (hc : Text.isBlank c = true) (h : Layout before (c :: text) lexemes errors) :
    Layout (before ++ [c]) text lexemes errors := by
  have hclass := CharClass.of_blank hc
  generalize htext : c :: text = whole at h
  cases h with
  | done => cases htext
  | blank _ h =>
    cases htext
    exact h
  | comment _ _ _ =>
    cases htext
    exact absurd hc (by decide)
  | refused ho _ =>
    cases htext
    rw [ho] at hclass
    split at hclass <;> cases hclass
  | lexeme hwell _ _ _ =>
    obtain ⟨first, others, hvalue, hbegins, -⟩ := hwell
    rw [hvalue] at htext
    cases htext
    exact absurd hc (Category.visible_of_begins hbegins).1

theorem of_gap {blanks : List Char} (hblank : ∀ c ∈ blanks, Text.isBlank c = true)
    (h : Layout before (blanks ++ text) lexemes errors) :
    Layout (before ++ blanks) text lexemes errors := by
  induction blanks generalizing before with
  | nil =>
    rw [List.append_nil]
    exact h
  | cons c blanks ih =>
    obtain ⟨hc, hblank⟩ := List.forall_mem_cons.1 hblank
    have hrest := ih hblank (of_blank hc h)
    rwa [List.append_assoc, List.singleton_append] at hrest

theorem of_begins {category : Category} {c : Char} (hc : category.begins c = true)
    (h : Layout before (c :: text) lexemes errors) :
    ∃ lexeme rest others, c :: text = lexeme.value.toList ++ rest ∧ lexemes = lexeme :: others ∧
      lexeme.category.EndsBefore rest ∧ Layout (before ++ lexeme.value.toList) rest others errors := by
  obtain ⟨hblank, hmarker, hother⟩ := Category.visible_of_begins hc
  generalize htext : c :: text = whole at h
  cases h with
  | done => cases htext
  | blank hb _ =>
    cases htext
    exact absurd hb hblank
  | comment _ _ _ =>
    cases htext
    exact absurd rfl hmarker
  | refused ho _ =>
    cases htext
    exact absurd ho hother
  | lexeme _ hend _ h => exact ⟨_, _, _, rfl, rfl, hend, h⟩

theorem positions (h : Layout before text lexemes errors) :
    ∀ position ∈ errors.map (·.position) ++ lexemes.map (·.position),
      ∃ passed, position = .behind (before ++ passed) := by
  induction h with
  | done => simp
  | @blank before _ _ _ c _ _ ih =>
    intro position hm
    obtain ⟨passed, rfl⟩ := ih position hm
    exact ⟨c :: passed, by rw [List.append_assoc, List.singleton_append]⟩
  | @comment before _ _ _ body _ _ _ ih =>
    intro position hm
    obtain ⟨passed, rfl⟩ := ih position hm
    exact ⟨'#' :: body ++ passed, by rw [List.append_assoc]⟩
  | @refused before _ _ _ c _ _ ih =>
    intro position hm
    obtain rfl | hm := List.mem_cons.1 hm
    · exact ⟨[], by rw [List.append_nil]; rfl⟩
    · obtain ⟨passed, rfl⟩ := ih position hm
      exact ⟨c :: passed, by rw [List.append_assoc, List.singleton_append]⟩
  | @lexeme before _ _ _ lexeme _ _ hplace _ ih =>
    intro position hm
    rw [List.map_cons, List.mem_append, List.mem_cons] at hm
    obtain rfl | hm : position = lexeme.position ∨ _ := or_left_comm.1 hm
    · exact ⟨[], by rw [List.append_nil, hplace]⟩
    · obtain ⟨passed, rfl⟩ := ih position (List.mem_append.2 hm)
      exact ⟨lexeme.value.toList ++ passed, by rw [List.append_assoc]⟩

theorem head_dropWhile {p : Char → Bool} (text : List Char) :
    ∀ c ∈ (text.dropWhile p).head?, p c = false := by
  intro c hc
  have h := List.head?_dropWhile_not p text
  rw [Option.mem_def.1 hc] at h
  simpa using h

theorem exists_of_comment (text : List Char)
    (ih : ∀ rest before, rest.length ≤ text.length → ∃ ls es, Layout before rest ls es)
    (before : List Char) : ∃ ls es, Layout before ('#' :: text) ls es := by
  let body := text.takeWhile (· ≠ '\n')
  let rest := text.dropWhile (· ≠ '\n')
  have hsplit : body ++ rest = text := List.takeWhile_append_dropWhile
  have hlen : rest.length ≤ text.length := (List.dropWhile_sublist _).length_le
  have hbody : '\n' ∉ body := by
    intro hm
    have hn := List.all_eq_true.1 List.all_takeWhile _ hm
    simp at hn
  have hend : ∀ c ∈ rest.head?, c = '\n' := by
    intro c hc
    have hn := head_dropWhile text c hc
    simpa using hn
  obtain ⟨ls, es, h⟩ := ih rest (before ++ '#' :: body) hlen
  rw [← hsplit]
  exact ⟨ls, es, .comment hbody hend h⟩

theorem exists_of_begins {category : Category} {c : Char} (hc : category.begins c = true)
    (text : List Char)
    (ih : ∀ rest before, rest.length ≤ text.length → ∃ ls es, Layout before rest ls es)
    (before : List Char) : ∃ ls es, Layout before (c :: text) ls es := by
  let others := text.takeWhile category.continues
  let rest := text.dropWhile category.continues
  have hsplit : others ++ rest = text := List.takeWhile_append_dropWhile
  have hlen : rest.length ≤ text.length := (List.dropWhile_sublist _).length_le
  let lexeme : Lexeme := ⟨String.ofList (c :: others), category, .behind before⟩
  have hvalue : lexeme.value.toList = c :: others := String.toList_ofList
  have hwell : lexeme.WellFormed :=
    ⟨c, others, hvalue, hc, List.all_eq_true.1 List.all_takeWhile⟩
  obtain ⟨ls, es, h⟩ := ih rest (before ++ lexeme.value.toList) hlen
  have hlayout := Layout.lexeme hwell (head_dropWhile text) rfl h
  rw [hvalue, List.cons_append, hsplit] at hlayout
  exact ⟨_, _, hlayout⟩

theorem exists_layout (before text : List Char) :
    ∃ lexemes errors, Layout before text lexemes errors := by
  induction hn : text.length using Nat.strongRecOn generalizing before text with
  | ind n ih =>
    cases text with
    | nil => exact ⟨[], [], .done⟩
    | cons c rest =>
      have ih' : ∀ shorter before, shorter.length ≤ rest.length →
          ∃ ls es, Layout before shorter ls es := by
        intro shorter before hle
        exact ih shorter.length (by simp at hn; omega) before shorter rfl
      obtain ⟨category, hb⟩ | hb | rfl | ho := CharClass.kinds c
      · exact exists_of_begins hb rest ih' before
      · obtain ⟨ls, es, h⟩ := ih' rest (before ++ [c]) (Nat.le_refl _)
        exact ⟨ls, es, .blank hb h⟩
      · exact exists_of_comment rest ih' before
      · obtain ⟨ls, es, h⟩ := ih' rest (before ++ [c]) (Nat.le_refl _)
        exact ⟨ls, _, .refused ho h⟩

end Layout

end Lexicon
