import Lexicon.Position

namespace Lexicon

attribute [ext] Position

namespace Position

/-- The place behind a beginning of a text: how many line ends it has, and how many characters it
has since the last of them. -/
def behind (before : List Char) : Position where
  line := 1 + before.count '\n'
  column := 1 + (before.reverse.takeWhile (· ≠ '\n')).length

theorem behind_concat (before : List Char) (c : Char) :
    behind (before ++ [c]) = (behind before).after (some c) := by
  by_cases hc : c = '\n'
  · subst hc
    simp [behind, after, Int.add_assoc]
  · have hs : some c ≠ some '\n' := fun h => hc (Option.some.inj h)
    simp [behind, after, hc, Int.add_assoc]

theorem behind_append_congr {before other : List Char} (h : behind before = behind other)
    (more : List Char) : behind (before ++ more) = behind (other ++ more) := by
  induction more generalizing before other with
  | nil => simpa using h
  | cons c more ih =>
    have hnext : behind (before ++ [c]) = behind (other ++ [c]) := by
      rw [behind_concat, behind_concat, h]
    simpa using ih hnext

theorem line_behind_append (before more : List Char) :
    (behind (before ++ more)).line = (behind before).line + more.count '\n' := by
  simp only [behind, List.count_append]
  omega

theorem column_behind_append (before : List Char) {more : List Char} (h : '\n' ∉ more) :
    (behind (before ++ more)).column = (behind before).column + more.length := by
  have hpass : ∀ c ∈ more.reverse, decide (c ≠ '\n') = true :=
    fun c hc => decide_eq_true fun he => h (he ▸ List.mem_reverse.1 hc)
  simp only [behind, List.reverse_append, List.takeWhile_append_of_pos hpass, List.length_append,
    List.length_reverse]
  omega

theorem behind_append_blanks {before other piece : List Char} (h : behind before = behind other)
    (hline : '\n' ∉ piece) :
    behind (before ++ List.replicate piece.length ' ') = behind (other ++ piece) := by
  have hblanks : '\n' ∉ List.replicate piece.length ' ' := by
    intro hm
    exact absurd (List.eq_of_mem_replicate hm) (by decide)
  apply Position.ext
  · rw [line_behind_append, line_behind_append, List.count_eq_zero.2 hblanks, List.count_eq_zero.2 hline, h]
  · rw [column_behind_append before hblanks, column_behind_append other hline, List.length_replicate, h]

/-- Behind the one beginning a text stands where it does behind the other. Of a line end only the
line counts. -/
structure Abreast (before other text : List Char) : Prop where
  line : (behind before).line = (behind other).line
  place : ∀ c ∈ text.head?, c ≠ '\n' → behind before = behind other

theorem abreast_of_eq {before other : List Char} (h : behind before = behind other) (text : List Char) :
    Abreast before other text :=
  ⟨by rw [h], fun _ _ _ => h⟩

theorem Abreast.concat {before other text : List Char} {c : Char} (h : Abreast before other (c :: text)) :
    behind (before ++ [c]) = behind (other ++ [c]) := by
  rw [behind_concat, behind_concat]
  by_cases hc : c = '\n'
  · simp only [after, hc, if_true, h.line]
  · rw [h.place c rfl hc]

theorem Abreast.append {before other piece text : List Char} (h : Abreast before other (piece ++ text))
    (hpiece : piece ≠ []) : Abreast (before ++ piece) (other ++ piece) text := by
  obtain ⟨c, more, rfl⟩ := List.exists_cons_of_ne_nil hpiece
  apply abreast_of_eq
  have hmore := behind_append_congr h.concat more
  rwa [List.append_assoc, List.append_assoc] at hmore

def below (position : Position) (lines : Nat) : Position :=
  { position with line := position.line + lines }

theorem behind_lineEnd (lead before : List Char) :
    behind (lead ++ '\n' :: before) = (behind before).below (1 + lead.count '\n') := by
  have hcount : (lead ++ '\n' :: before).count '\n' = lead.count '\n' + (before.count '\n' + 1) := by
    rw [List.count_append, List.count_cons_self]
  have hline : (before.reverse ++ '\n' :: lead.reverse).takeWhile (· ≠ '\n') =
      before.reverse.takeWhile (· ≠ '\n') := by
    rw [List.takeWhile_append]
    split
    · next h =>
      have hall := (List.takeWhile_prefix (decide <| · ≠ '\n')).eq_of_length h
      rw [hall, List.takeWhile_cons_of_neg (by simp), List.append_nil]
    · rfl
  apply Position.ext
  · simp only [behind, below, hcount]
    omega
  · simp only [behind, below, List.reverse_append, List.reverse_cons, List.append_assoc,
      List.singleton_append, hline]

def Precedes (position other : Position) : Prop :=
  position.line < other.line ∨ position.line = other.line ∧ position.column < other.column

instance (position other : Position) : Decidable (position.Precedes other) :=
  inferInstanceAs (Decidable (_ ∨ _ ∧ _))

theorem not_precedes_of_precedes {position other : Position} (h : position.Precedes other) :
    ¬ other.Precedes position := by
  unfold Precedes at h ⊢
  omega

theorem not_precedes_self (position : Position) : ¬ position.Precedes position := by
  unfold Precedes
  omega

theorem precedes_behind (before : List Char) {passed : List Char} (h : passed ≠ []) :
    (behind before).Precedes (behind (before ++ passed)) := by
  have hlength : 0 < passed.length := List.length_pos_iff.2 h
  have hl := line_behind_append before passed
  unfold Precedes
  by_cases hline : '\n' ∈ passed
  · have hcount : 0 < passed.count '\n' := List.count_pos_iff.2 hline
    omega
  · have hc := column_behind_append before hline
    rw [List.count_eq_zero.2 hline] at hl
    omega

theorem precedes_take {text : List Char} {i j : Nat} (hlt : i < j) (hj : j ≤ text.length) :
    (behind (text.take i)).Precedes (behind (text.take j)) := by
  have hsplit : text.take j = text.take i ++ (text.take j).drop i := by
    have htake : (text.take j).take i = text.take i := by
      rw [List.take_take, Nat.min_eq_left (Nat.le_of_lt hlt)]
    rw [← htake, List.take_append_drop]
  have hne : (text.take j).drop i ≠ [] := by
    intro hn
    have hle := List.drop_eq_nil_iff.1 hn
    rw [List.length_take] at hle
    omega
  rw [hsplit]
  exact precedes_behind _ hne

theorem behind_take_inj {text : List Char} {i j : Nat} (hi : i ≤ text.length) (hj : j ≤ text.length) :
    behind (text.take i) = behind (text.take j) ↔ i = j := by
  constructor
  · intro h
    rcases Nat.lt_trichotomy i j with hlt | heq | hlt
    · have hp := precedes_take hlt hj
      rw [h] at hp
      exact absurd hp (not_precedes_self _)
    · exact heq
    · have hp := precedes_take hlt hi
      rw [h] at hp
      exact absurd hp (not_precedes_self _)
  · intro h
    rw [h]

def lineStart (before : List Char) : Nat :=
  (before.reverse.dropWhile (· ≠ '\n')).length

theorem lineStart_concat (before : List Char) (c : Char) :
    lineStart (before ++ [c]) = if c = '\n' then before.length + 1 else lineStart before := by
  by_cases hc : c = '\n'
  · simp [lineStart, hc]
  · simp [lineStart, hc]

def reached (text : List Char) (offset : Nat) : Position where
  line := 1 + (text.take offset).count '\n'
  column := 1 + offset - lineStart (text.take offset)

theorem reached_zero (text : List Char) : reached text 0 = {} := by
  simp [reached, lineStart]

theorem reached_eq_behind {text : List Char} {offset : Nat} (h : offset ≤ text.length) :
    reached text offset = behind (text.take offset) := by
  have hlength := congrArg List.length
    (List.takeWhile_append_dropWhile (p := (· ≠ '\n')) (l := (text.take offset).reverse))
  rw [List.length_append, List.length_reverse, List.length_take, Nat.min_eq_left h] at hlength
  simp only [reached, behind, lineStart, mk.injEq, true_and]
  omega

theorem reached_succ (text : List Char) (offset : Nat) :
    reached text (offset + 1) = (reached text offset).after text[offset]? := by
  cases hc : text[offset]? with
  | none =>
    have hle : text.length ≤ offset := List.getElem?_eq_none_iff.1 hc
    simp only [reached, after, List.take_of_length_le hle, List.take_of_length_le (Nat.le_succ_of_le hle),
      reduceCtorEq, if_false, mk.injEq, true_and]
    omega
  | some c =>
    have htake : text.take (offset + 1) = text.take offset ++ [c] := by
      rw [List.take_add_one, hc, Option.toList_some]
    have hlen : (text.take offset).length = offset := by
      obtain ⟨hlt, -⟩ := List.getElem?_eq_some_iff.1 hc
      rw [List.length_take]
      omega
    simp only [reached, after, htake, List.count_append, lineStart_concat, hlen, Option.some.injEq]
    by_cases hn : c = '\n'
    · simp only [hn, if_true, List.count_singleton_self, mk.injEq]
      omega
    · have hcount : [c].count '\n' = 0 := List.count_eq_zero.2 (by simpa using Ne.symm hn)
      simp only [hn, if_false, hcount, mk.injEq]
      omega

end Position

end Lexicon
