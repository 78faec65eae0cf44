import Lexicon.Proofs.Grammar

namespace Lexicon

/-- No comment is open behind this beginning of a text: its last line has no marker. -/
def Uncommented (before : List Char) : Prop :=
  '#' ∉ before.reverse.takeWhile (· ≠ '\n')

theorem uncommented_nil : Uncommented [] := by
  simp [Uncommented]

theorem uncommented_concat {before : List Char} {c : Char} :
    Uncommented (before ++ [c]) ↔ c = '\n' ∨ c ≠ '#' ∧ Uncommented before := by
  by_cases hc : c = '\n'
  · simp [Uncommented, hc]
  · simp [Uncommented, hc, eq_comm]

theorem uncommented_append {before piece : List Char} (h : Uncommented before) (hp : '#' ∉ piece) :
    Uncommented (before ++ piece) := by
  induction piece generalizing before with
  | nil => simpa using h
  | cons c piece ih =>
    have hc : c ≠ '#' := fun he => hp (he ▸ List.mem_cons_self)
    have hnext := ih (uncommented_concat.2 (.inr ⟨hc, h⟩)) (fun hm => hp (List.mem_cons_of_mem c hm))
    rwa [List.append_assoc] at hnext

theorem not_uncommented_comment {before body : List Char} (hbody : '\n' ∉ body) :
    ¬ Uncommented (before ++ '#' :: body) := by
  have hpass : ∀ c ∈ body.reverse, decide (c ≠ '\n') = true := by
    intro c hc
    exact decide_eq_true fun he => hbody (he ▸ List.mem_reverse.1 hc)
  simp only [Uncommented, List.reverse_append, List.reverse_cons, List.append_assoc,
    List.takeWhile_append_of_pos hpass]
  simp

/-- Something that a text may hold: what stands before it, the piece itself, and what stands behind. -/
abbrev Pattern :=
  List Char → List Char → List Char → Prop

namespace Pattern

/-- The leftmost piece of the text that fits the pattern. -/
structure First (P : Pattern) (text before piece after : List Char) : Prop where
  whole : text = before ++ piece ++ after
  fits : P before piece after
  least : ∀ earlier other later, text = earlier ++ other ++ later → P earlier other later →
    before.length ≤ earlier.length

def Absent (P : Pattern) (text : List Char) : Prop :=
  ∀ before piece after, text = before ++ piece ++ after → ¬ P before piece after

def ClearIn (P : Pattern) (text before : List Char) : Prop :=
  ∀ earlier piece after, text = earlier ++ piece ++ after → P earlier piece after →
    before.length ≤ earlier.length

variable {P : Pattern} {before rest : List Char}

theorem clearIn_nil (P : Pattern) (text : List Char) : P.ClearIn text [] :=
  fun _ _ _ _ _ => Nat.zero_le _

theorem clearIn_append {item : List Char} (h : P.ClearIn (before ++ (item ++ rest)) before)
    (hitem : ∀ passed c more, item = passed ++ c :: more → ∀ piece after,
      c :: (more ++ rest) = piece ++ after → ¬ P (before ++ passed) piece after) :
    P.ClearIn (before ++ item ++ rest) (before ++ item) := by
  intro earlier piece after hwhole hp
  rw [List.append_assoc] at hwhole
  have hle := h earlier piece after hwhole hp
  refine Decidable.byContradiction fun hlt => ?_
  rw [List.length_append] at hlt
  -- the piece would begin inside the item
  obtain ⟨passed, rfl⟩ : ∃ passed, earlier = before ++ passed := by
    have hprefix : before <+: earlier :=
      List.prefix_of_prefix_length_le ⟨_, rfl⟩ ⟨piece ++ after, by rw [hwhole, List.append_assoc]⟩ hle
    obtain ⟨passed, hpassed⟩ := hprefix
    exact ⟨passed, hpassed.symm⟩
  rw [List.append_assoc, List.append_assoc, List.append_cancel_left_eq] at hwhole
  have hprefix : passed <+: item := by
    apply List.prefix_of_prefix_length_le ⟨piece ++ after, hwhole.symm⟩ ⟨rest, rfl⟩
    rw [List.length_append] at hlt
    omega
  obtain ⟨more, rfl⟩ := hprefix
  cases more with
  | nil => simp at hlt
  | cons c more =>
    apply hitem passed c more rfl piece after ?_ hp
    rwa [List.append_assoc, List.append_cancel_left_eq] at hwhole

theorem first_of_clearIn {piece after : List Char} (h : P.ClearIn (before ++ (piece ++ after)) before)
    (hp : P before piece after) : P.First (before ++ (piece ++ after)) before piece after :=
  ⟨by rw [List.append_assoc], hp, h⟩

/-- The pattern fits only what the scanner sees outside of comments, in characters that are none of
a literal or a name. -/
def Visible (P : Pattern) : Prop :=
  ∀ {before piece after}, P before piece after → Uncommented before ∧
    ∃ c others, piece = c :: others ∧ (CharClass.of c = .other ∨ CharClass.of c = .separator)

theorem head_of_visible (hv : P.Visible) {piece after : List Char} {c : Char}
    (hwhole : c :: rest = piece ++ after) (hp : P before piece after) :
    Uncommented before ∧ (∃ others, piece = c :: others) ∧
      (CharClass.of c = .other ∨ CharClass.of c = .separator) := by
  obtain ⟨hopen, d, others, rfl, hd⟩ := hv hp
  obtain ⟨rfl, -⟩ := List.cons.inj hwhole
  exact ⟨hopen, ⟨others, rfl⟩, hd⟩

theorem absent_of_clearIn (hv : P.Visible) (h : P.ClearIn (before ++ []) before) :
    P.Absent (before ++ []) := by
  intro earlier piece after hwhole hp
  obtain ⟨-, c, others, rfl, -⟩ := hv hp
  have hle := h earlier (c :: others) after hwhole hp
  have hlen := congrArg List.length hwhole
  simp only [List.length_append, List.length_nil, List.length_cons] at hlen
  omega

theorem clearIn_concat {c : Char} (h : P.ClearIn (before ++ c :: rest) before)
    (hc : ∀ piece after, c :: rest = piece ++ after → ¬ P before piece after) :
    P.ClearIn (before ++ [c] ++ rest) (before ++ [c]) := by
  apply clearIn_append h
  intro passed d more hitem piece after hwhole hp
  obtain ⟨rfl, he⟩ | ⟨_, rfl, he⟩ := List.cons_eq_append_iff.1 hitem
  · obtain ⟨rfl, rfl⟩ := List.cons.inj he
    rw [List.append_nil] at hp
    exact hc piece after hwhole hp
  · simp at he

theorem clearIn_blank (hv : P.Visible) {c : Char} (hc : Text.isBlank c = true)
    (h : P.ClearIn (before ++ c :: rest) before) : P.ClearIn (before ++ [c] ++ rest) (before ++ [c]) := by
  apply clearIn_concat h
  intro piece after hwhole hp
  obtain ⟨-, -, hd⟩ := head_of_visible hv hwhole hp
  rw [CharClass.of_blank hc] at hd
  split at hd <;> simp at hd

theorem clearIn_comment (hv : P.Visible) {body : List Char} (hbody : '\n' ∉ body)
    (h : P.ClearIn (before ++ '#' :: (body ++ rest)) before) :
    P.ClearIn (before ++ '#' :: body ++ rest) (before ++ '#' :: body) := by
  apply clearIn_append h
  intro passed d more hitem piece after hwhole hp
  obtain ⟨hopen, -, hd⟩ := head_of_visible hv hwhole hp
  obtain ⟨rfl, he⟩ | ⟨passed, rfl, he⟩ := List.cons_eq_append_iff.1 hitem
  · obtain ⟨rfl, -⟩ := List.cons.inj he
    have hclass : CharClass.of '#' = .commentMarker := by decide
    simp [hclass] at hd
  · refine not_uncommented_comment ?_ hopen
    rw [he] at hbody
    exact fun hm => hbody (List.mem_append_left _ hm)

end Pattern

def Stray : Pattern :=
  fun before piece _ => Uncommented before ∧ ∃ c, piece = [c] ∧ CharClass.of c = .other

/-- A run of separator characters outside of comments, as long as can be. -/
structure SeparatorRun (before run after : List Char) : Prop where
  uncommented : Uncommented before
  nonempty : run ≠ []
  separators : ∀ c ∈ run, CharClass.of c = .separator
  first : ∀ c ∈ before.getLast?, CharClass.of c ≠ .separator
  last : ∀ c ∈ after.head?, CharClass.of c ≠ .separator

theorem visible_stray : Stray.Visible := by
  rintro before piece after ⟨hopen, c, rfl, ho⟩
  exact ⟨hopen, c, [], rfl, .inl ho⟩

theorem visible_of_separatorRun {P : Pattern}
    (h : ∀ {before run after}, P before run after → SeparatorRun before run after) : P.Visible := by
  intro before run after hp
  have hr := h hp
  cases run with
  | nil => exact absurd rfl hr.nonempty
  | cons c others => exact ⟨hr.uncommented, c, others, rfl, .inr (hr.separators c List.mem_cons_self)⟩

/-- The text behind this beginning of it is the end of a line, or no comment is open and no run of
separator characters goes on. -/
structure Parted (before rest : List Char) : Prop where
  uncommented : ∀ c ∈ rest.head?, c ≠ '\n' → Uncommented before
  apart : ∀ c ∈ rest.head?, CharClass.of c = .separator →
    ∀ d ∈ before.getLast?, CharClass.of d ≠ .separator

section

variable {before rest : List Char} {c : Char}

theorem parted_nil (rest : List Char) : Parted [] rest where
  uncommented := fun _ _ _ => uncommented_nil
  apart := nofun

theorem parted_concat (h : Parted before (c :: rest)) (hm : c ≠ '#')
    (hs : CharClass.of c ≠ .separator) : Parted (before ++ [c]) rest where
  uncommented := by
    intro _ _ _
    rw [uncommented_concat]
    by_cases hn : c = '\n'
    · exact .inl hn
    · exact .inr ⟨hm, h.uncommented c rfl hn⟩
  apart := by
    intro _ _ _ d hd
    rw [List.getLast?_concat] at hd
    cases hd
    exact hs

theorem parted_blank (h : Parted before (c :: rest)) (hc : Text.isBlank c = true) :
    Parted (before ++ [c]) rest := by
  apply parted_concat h
  · rintro rfl
    exact absurd hc (by decide)
  · rw [CharClass.of_blank hc]
    split <;> exact nofun

theorem parted_refused (h : Parted before (c :: rest)) (ho : CharClass.of c = .other) :
    Parted (before ++ [c]) rest := by
  apply parted_concat h (CharClass.ne_of_other ho).2
  rw [ho]
  exact nofun

theorem parted_comment {body : List Char} (hend : ∀ c ∈ rest.head?, c = '\n') :
    Parted (before ++ '#' :: body) rest where
  uncommented := fun c hc hn => absurd (hend c hc) hn
  apart := by
    intro c hc hs
    rw [hend c hc] at hs
    exact absurd hs (by decide)

theorem parted_lexeme {lexeme : Lexeme} (hwell : lexeme.WellFormed)
    (hend : lexeme.category.EndsBefore rest) (h : Parted before (lexeme.value.toList ++ rest)) :
    Parted (before ++ lexeme.value.toList) rest where
  uncommented := by
    have hmarker : '#' ∉ lexeme.value.toList := hwell.not_mem_of_class (by decide)
    have hline : '\n' ∉ lexeme.value.toList := hwell.not_mem_of_class (by decide)
    obtain ⟨first, others, hvalue, -, -⟩ := hwell
    rw [hvalue] at h hmarker hline ⊢
    intro _ _ _
    apply uncommented_append _ hmarker
    exact h.uncommented first rfl fun he => hline (he ▸ List.mem_cons_self)
  apart := by
    intro c hc hs d hd hd'
    have hmem : d ∈ lexeme.value.toList := by
      obtain ⟨first, others, hvalue, -, -⟩ := hwell
      rw [hvalue, List.getLast?_append, List.getLast?_cons, Option.some_or] at hd
      rw [hvalue]
      exact List.mem_of_getLast? (by rwa [List.getLast?_cons])
    by_cases hcategory : lexeme.category = .separator
    · exact hend.not_separator hcategory c hc hs
    · exact hwell.not_separators hcategory d hmem hd'

end

/-- The first error of a layout is about the leftmost stray character. -/
theorem Layout.first_stray {before text : List Char} {lexemes : List Lexeme}
    {errors : List LexicalError} (h : Layout before text lexemes errors) (hparted : Parted before text)
    (hclear : Stray.ClearIn (before ++ text) before) :
    errors = [] ∧ Stray.Absent (before ++ text) ∨
      ∃ front c back more, Stray.First (before ++ text) front [c] back ∧
        errors = .unexpected c (.behind front) :: more := by
  induction h with
  | done => exact .inl ⟨rfl, Pattern.absent_of_clearIn visible_stray hclear⟩
  | @blank before rest lexemes errors c hc _ ih =>
    have hnext := ih (parted_blank hparted hc) (Pattern.clearIn_blank visible_stray hc hclear)
    rwa [List.append_assoc, List.singleton_append] at hnext
  | @comment before rest lexemes errors body hbody hend _ ih =>
    have hnext := ih (parted_comment hend) (Pattern.clearIn_comment visible_stray hbody hclear)
    rwa [List.append_assoc, List.cons_append] at hnext
  | @refused before rest lexemes errors c ho _ ih =>
    have hopen : Uncommented before := hparted.uncommented c rfl (CharClass.ne_of_other ho).1
    have hfirst : Stray.First (before ++ ([c] ++ rest)) before [c] rest :=
      Pattern.first_of_clearIn hclear ⟨hopen, c, rfl, ho⟩
    exact .inr ⟨before, c, rest, errors, hfirst, rfl⟩
  | @lexeme before rest lexemes errors lexeme hwell hend hplace _ ih =>
    have hnext := ih (parted_lexeme hwell hend hparted) ?_
    · rwa [List.append_assoc] at hnext
    · apply Pattern.clearIn_append hclear
      rintro passed c more hitem piece after hwhole ⟨-, d, rfl, ho⟩
      obtain ⟨rfl, -⟩ := List.cons.inj hwhole
      refine hwell.not_mem_of_class (by simp [ho]) (?_ : c ∈ _)
      rw [hitem]
      exact List.mem_append_right _ List.mem_cons_self

end Lexicon
