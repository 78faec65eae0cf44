import Lexicon.Proofs.Grammar

namespace Lexicon

namespace LexicalError

/-- How many characters of the text the error is about, from its place on. -/
def extent (error : LexicalError) : Nat :=
  match error.cause with
  | .unexpectedSymbol (some symbol) => symbol.length
  | .undefinedSeparator value => value.length
  | .unexpectedSymbol none | .general _ => 0

def Covers (error : LexicalError) (place : Position) : Prop :=
  place.line = error.position.line ∧ error.position.column ≤ place.column ∧
    place.column < error.position.column + error.extent

instance (error : LexicalError) (place : Position) : Decidable (error.Covers place) :=
  inferInstanceAs (Decidable (_ ∧ _ ∧ _))

def Spent (error : LexicalError) (before : List Char) : Prop :=
  ∀ more, ¬ error.Covers (.behind (before ++ more))

/-- The error is about all the characters of this piece of a line, and about no others. -/
structure Names (error : LexicalError) (before piece : List Char) : Prop where
  place : error.position = .behind before
  line : '\n' ∉ piece
  extent : error.extent = piece.length

variable {error : LexicalError} {before piece : List Char}

theorem Spent.append (h : error.Spent before) (piece : List Char) : error.Spent (before ++ piece) := by
  intro more
  rw [List.append_assoc]
  exact h (piece ++ more)

theorem Names.covers (h : error.Names before piece) {passed more : List Char} {c : Char}
    (hpiece : piece = passed ++ c :: more) : error.Covers (.behind (before ++ passed)) := by
  obtain ⟨hplace, hline, hextent⟩ := h
  have hpassed : '\n' ∉ passed := by
    rw [hpiece] at hline
    exact fun hm => hline (List.mem_append_left _ hm)
  have hlt : passed.length < error.extent := by
    rw [hextent, hpiece, List.length_append, List.length_cons]
    omega
  have hl := Position.line_behind_append before passed
  have hc := Position.column_behind_append before hpassed
  rw [List.count_eq_zero.2 hpassed] at hl
  unfold Covers
  rw [hplace, hl, hc]
  omega

theorem Names.spent (h : error.Names before piece) : error.Spent (before ++ piece) := by
  obtain ⟨hplace, hline, hextent⟩ := h
  rintro more ⟨hl, -, hlt⟩
  rw [hplace, List.append_assoc, Position.line_behind_append, List.count_append] at hl
  have hmore : '\n' ∉ piece ++ more := by
    rw [List.mem_append, not_or]
    refine ⟨hline, List.count_eq_zero.1 ?_⟩
    omega
  rw [hplace, List.append_assoc, Position.column_behind_append before hmore, List.length_append] at hlt
  omega

theorem names_unexpected {c : Char} (ho : CharClass.of c = .other) (before : List Char) :
    (LexicalError.unexpected c (.behind before)).Names before [c] where
  place := rfl
  line := by simpa using (CharClass.ne_of_other ho).1.symm
  extent := by simp [LexicalError.extent, LexicalError.unexpected]

theorem not_covers_of_ahead {c : Char} {more : List Char}
    (hplace : error.position = .behind (before ++ c :: more)) : ¬ error.Covers (.behind before) := by
  rintro ⟨hl, hle, -⟩
  rw [hplace, Position.line_behind_append] at hl
  have hline : '\n' ∉ c :: more := List.count_eq_zero.1 (by omega)
  rw [hplace, Position.column_behind_append before hline, List.length_cons] at hle
  omega

end LexicalError

/-- The text with a blank for each character that an error is about. -/
def mend (errors : List LexicalError) (before : List Char) : List Char → List Char
  | [] => []
  | c :: text =>
    (if ∃ error ∈ errors, error.Covers (.behind before) then ' ' else c) ::
      mend errors (before ++ [c]) text

def Untouched (errors : List LexicalError) (before piece : List Char) : Prop :=
  ∀ passed c more, piece = passed ++ c :: more → ∀ error ∈ errors,
    ¬ error.Covers (.behind (before ++ passed))

section

variable {errors : List LexicalError} {before piece rest : List Char}

theorem mend_append (errors : List LexicalError) (before piece rest : List Char) :
    mend errors before (piece ++ rest) = mend errors before piece ++ mend errors (before ++ piece) rest := by
  induction piece generalizing before with
  | nil => simp [mend]
  | cons c piece ih => simp [mend, ih]

theorem mend_of_untouched (h : Untouched errors before piece) : mend errors before piece = piece := by
  induction piece generalizing before with
  | nil => rfl
  | cons c piece ih =>
    have hfirst : ¬ ∃ error ∈ errors, error.Covers (.behind before) := by
      rintro ⟨error, hm, hc⟩
      refine h [] c piece rfl error hm ?_
      rwa [List.append_nil]
    have hnext : Untouched errors (before ++ [c]) piece := by
      intro passed d more hpiece error hm
      have hn := h (c :: passed) d more (by rw [hpiece]; rfl) error hm
      rwa [List.append_assoc, List.singleton_append]
    rw [mend, if_neg hfirst, ih hnext]

theorem mend_of_covered {error : LexicalError} (hm : error ∈ errors)
    (h : ∀ passed c more, piece = passed ++ c :: more → error.Covers (.behind (before ++ passed))) :
    mend errors before piece = List.replicate piece.length ' ' := by
  induction piece generalizing before with
  | nil => rfl
  | cons c piece ih =>
    have hfirst : ∃ error ∈ errors, error.Covers (.behind before) := by
      refine ⟨error, hm, ?_⟩
      have hc := h [] c piece rfl
      rwa [List.append_nil] at hc
    have hnext : mend errors (before ++ [c]) piece = List.replicate piece.length ' ' := by
      apply ih
      intro passed d more hpiece
      have hc := h (c :: passed) d more (by rw [hpiece]; rfl)
      rwa [List.append_assoc, List.singleton_append]
    rw [mend, if_pos hfirst, hnext, List.length_cons, List.replicate_succ]

theorem mend_of_named {error : LexicalError} (hm : error ∈ errors) (h : error.Names before piece) :
    mend errors before (piece ++ rest) =
      List.replicate piece.length ' ' ++ mend errors (before ++ piece) rest := by
  rw [mend_append, mend_of_covered hm]
  intro passed c more hpiece
  exact h.covers hpiece

example : mend [.unexpected '@' ⟨1, 2⟩, ⟨.undefinedSeparator "=>", ⟨2, 3⟩⟩] [] "a@b\nc => d @".toList =
    "a b\nc    d @".toList := by
  decide

end

end Lexicon
