import Lexicon.Proofs.Json.Reading

namespace Lexicon.Json

open Text

theorem skip_of_not_space {c : Char} (h : isSpace c = false) (rest : List Char) :
    skip (c :: rest) = c :: rest :=
  List.dropWhile_cons_of_neg (by simp [h])

theorem isSpace_newline (depth : Nat) : ∀ c ∈ (newline depth).toList, isSpace c = true := by
  intro c hc
  rw [newline, String.toList_ofList] at hc
  obtain rfl | hc := List.mem_cons.1 hc
  · rfl
  · rw [List.eq_of_mem_replicate hc]
    rfl

theorem endsNumber_newline (depth : Nat) (rest : List Char) :
    EndsNumber ((newline depth).toList ++ rest) := by
  rw [newline, String.toList_ofList]
  exact endsNumber_cons rfl _

theorem skip_newline {c : Char} (h : isSpace c = false) (depth : Nat) (rest : List Char) :
    skip ((newline depth).toList ++ c :: rest) = c :: rest := by
  rw [skip, List.dropWhile_append_of_pos (isSpace_newline depth)]
  exact skip_of_not_space h rest

def Opens (chars : List Char) : Prop :=
  ∃ c more, chars = c :: more ∧ isSpace c = false ∧ c ≠ ']' ∧ c ≠ '}'

theorem Opens.ne_nil {chars : List Char} (h : Opens chars) : chars ≠ [] := by
  obtain ⟨c, more, rfl, -⟩ := h
  exact List.cons_ne_nil c more

theorem Opens.append {chars : List Char} (h : Opens chars) (rest : List Char) :
    Opens (chars ++ rest) := by
  obtain ⟨c, more, rfl, hc⟩ := h
  exact ⟨c, more ++ rest, rfl, hc⟩

theorem Opens.skip_newline {chars : List Char} (h : Opens chars) (depth : Nat) :
    skip ((newline depth).toList ++ chars) = chars := by
  obtain ⟨c, more, rfl, hc, -⟩ := h
  exact Json.skip_newline hc depth more

def enclosed (depth : Nat) (closing : Char) (items : List (List Char)) : List Char :=
  match items with
  | [] => [closing]
  | items =>
    (newline (depth + 1)).toList ++ ((',' :: (newline (depth + 1)).toList).intercalate items ++
      ((newline depth).toList ++ [closing]))

theorem toList_enclose (depth : Nat) (opening : String) (closing : Char) (items : List String) :
    (enclose depth opening (String.singleton closing) items).toList =
      opening.toList ++ enclosed depth closing (items.map String.toList) := by
  unfold enclose
  split
  · simp [enclosed]
  · next hne =>
    have hne' : items.map String.toList ≠ [] := by simpa using hne
    have hcomma : ("," ++ newline (depth + 1)).toList = ',' :: (newline (depth + 1)).toList := by simp
    unfold enclosed
    split
    · next hnil => exact absurd hnil hne'
    · simp only [String.toList_append, String.toList_intercalate, hcomma, String.toList_singleton,
        List.append_assoc]

section

variable {sep : List Char} {texts : List (List Char)}

theorem Opens.intercalate {first : List Char} (h : Opens first) (sep : List Char)
    (texts : List (List Char)) : Opens (sep.intercalate (first :: texts)) := by
  cases texts with
  | nil =>
    rw [List.intercalate_singleton]
    exact h
  | cons next texts =>
    rw [List.intercalate_cons_cons, List.append_assoc]
    exact h.append _

theorem length_le_intercalate {part : List Char} (h : part ∈ texts) :
    part.length ≤ (sep.intercalate texts).length := by
  induction texts with
  | nil => cases h
  | cons first texts ih =>
    cases texts with
    | nil =>
      have hsame : sep.intercalate [first] = part := by
        rw [List.mem_singleton.1 h, List.intercalate_singleton]
      exact Nat.le_of_eq (congrArg List.length hsame.symm)
    | cons next texts =>
      rw [List.intercalate_cons_cons, List.length_append, List.length_append]
      obtain rfl | h := List.mem_cons.1 h
      · omega
      · have hle := ih h
        omega

theorem length_le_length_intercalate (h : ∀ part ∈ texts, part ≠ []) :
    texts.length ≤ (sep.intercalate texts).length := by
  induction texts with
  | nil => exact Nat.zero_le _
  | cons first texts ih =>
    obtain ⟨hfirst, h⟩ := List.forall_mem_cons.1 h
    have hpos : 0 < first.length := List.length_pos_iff.2 hfirst
    cases texts with
    | nil =>
      rw [List.intercalate_singleton, List.length_singleton]
      exact hpos
    | cons next texts =>
      have hle := ih h
      rw [List.intercalate_cons_cons, List.length_append, List.length_append, List.length_cons]
      omega

end

theorem length_le_enclosed {part : List Char} {parts : List (List Char)} (h : part ∈ parts)
    (depth : Nat) (closing : Char) : part.length ≤ (enclosed depth closing parts).length := by
  unfold enclosed
  split
  · cases h
  · have hle : part.length ≤ ((',' :: (newline (depth + 1)).toList).intercalate parts).length :=
      length_le_intercalate h
    simp only [List.length_append]
    omega

section

variable {α : Type} {readItem : List Char → Option (α × List Char)} {written : α → List Char}
  {closing : Char} {items : List α}

/-- Items that are read one by one are read with commas between them. -/
theorem readItems_join (hclosing : closing = ']' ∨ closing = '}') (hne : items ≠ [])
    (hread : ∀ item ∈ items, ∀ rest, EndsNumber rest →
      readItem (written item ++ rest) = some (item, rest))
    (hopens : ∀ item ∈ items, Opens (written item)) {limit : Nat} (hlimit : items.length ≤ limit)
    (depth outer : Nat) (rest : List Char) :
    readItems readItem closing limit
        ((',' :: (newline depth).toList).intercalate (items.map written) ++
          ((newline outer).toList ++ closing :: rest)) =
      some (items, rest) := by
  have hspace : isSpace closing = false ∧ ',' ≠ closing := by
    obtain rfl | rfl := hclosing <;> decide
  induction items generalizing limit with
  | nil => exact absurd rfl hne
  | cons item items ih =>
    obtain ⟨hitem, hread⟩ := List.forall_mem_cons.1 hread
    obtain ⟨-, hopens⟩ := List.forall_mem_cons.1 hopens
    obtain ⟨limit, rfl⟩ : ∃ n, limit = n + 1 := ⟨limit - 1, by simp at hlimit; omega⟩
    have hlimit' : items.length ≤ limit := by simpa using hlimit
    cases items with
    | nil =>
      rw [List.map_singleton, List.intercalate_singleton, readItems,
        hitem _ (endsNumber_newline outer _)]
      simp only [Option.bind_some, skip_newline hspace.1, if_true]
    | cons next items =>
      let behind := (',' :: (newline depth).toList).intercalate ((next :: items).map written) ++
        ((newline outer).toList ++ closing :: rest)
      have hbehind : Opens behind :=
        ((hopens next List.mem_cons_self).intercalate _ (items.map written)).append _
      have hrest := ih (List.cons_ne_nil next items) hread hopens hlimit'
      have hends : EndsNumber (',' :: ((newline depth).toList ++ behind)) := endsNumber_cons rfl _
      have hitem' := hitem _ hends
      rw [List.map_cons, List.map_cons, List.intercalate_cons_cons, ← List.map_cons, List.append_assoc,
        List.append_assoc, List.cons_append, readItems, hitem']
      simp only [Option.bind_some, skip_of_not_space (c := ',') rfl, if_neg hspace.2, if_true,
        hbehind.skip_newline, behind, hrest, Option.map_some]

theorem readEnclosed_enclosed (hclosing : closing = ']' ∨ closing = '}')
    (hread : ∀ item ∈ items, ∀ rest, EndsNumber rest →
      readItem (written item ++ rest) = some (item, rest))
    (hopens : ∀ item ∈ items, Opens (written item)) (depth : Nat) (rest : List Char) :
    readEnclosed readItem closing (enclosed depth closing (items.map written) ++ rest) =
      some (items, rest) := by
  have hspace : isSpace closing = false := by
    obtain rfl | rfl := hclosing <;> decide
  cases items with
  | nil =>
    have hnone : enclosed depth closing ([].map written) ++ rest = closing :: rest := rfl
    rw [hnone, readEnclosed, skip_of_not_space hspace]
    simp only [if_true]
  | cons item items =>
    have hne : ∀ part ∈ (item :: items).map written, part ≠ [] := by
      intro part hp
      obtain ⟨other, ho, rfl⟩ := List.mem_map.1 hp
      exact (hopens other ho).ne_nil
    let sep := ',' :: (newline (depth + 1)).toList
    let behind := sep.intercalate ((item :: items).map written) ++
      ((newline depth).toList ++ closing :: rest)
    have hbehind : Opens behind :=
      ((hopens item List.mem_cons_self).intercalate sep (items.map written)).append _
    have hchars : enclosed depth closing ((item :: items).map written) ++ rest =
        (newline (depth + 1)).toList ++ behind := by
      simp only [enclosed, List.map_cons, behind, sep, List.append_assoc, List.singleton_append]
    -- each item has a character, so there are no more items than the limit allows
    have hlimit : (item :: items).length ≤ ((newline (depth + 1)).toList ++ behind).length := by
      have hle : ((item :: items).map written).length ≤
        (sep.intercalate ((item :: items).map written)).length := length_le_length_intercalate hne
      rw [List.length_map] at hle
      simp only [behind, List.length_append]
      omega
    rw [hchars, readEnclosed, hbehind.skip_newline]
    obtain ⟨c, more, hc, -, hbracket, hbrace⟩ := hbehind
    have hopen : c ≠ closing := by
      obtain rfl | rfl := hclosing
      · exact hbracket
      · exact hbrace
    rw [hc]
    dsimp only
    rw [if_neg hopen, ← hc]
    exact readItems_join hclosing (List.cons_ne_nil item items) hread hopens hlimit (depth + 1) depth rest

end

end Lexicon.Json
