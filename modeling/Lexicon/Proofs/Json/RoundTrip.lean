import Lexicon.Proofs.Json.Enclosed

namespace Lexicon.Json

open Text

theorem writeItems_eq_map (depth : Nat) (items : List Json) :
    writeItems depth items = items.map (write depth) := by
  induction items with
  | nil => rfl
  | cons item items ih => rw [writeItems, ih, List.map_cons]

def writeField (depth : Nat) (field : String × Json) : String :=
  quote field.1 ++ ": " ++ write depth field.2

theorem length_le_writeField (depth : Nat) (field : String × Json) :
    (write depth field.2).toList.length ≤ (writeField depth field).toList.length := by
  simp only [writeField, String.toList_append, List.length_append]
  omega

theorem writeFields_eq_map (depth : Nat) (fields : List (String × Json)) :
    writeFields depth fields = fields.map (writeField depth) := by
  induction fields with
  | nil => rfl
  | cons field fields ih => rw [writeFields, ih, List.map_cons, writeField]

theorem toList_write_list (depth : Nat) (items : List Json) :
    ((Json.list items).write depth).toList =
      '[' :: enclosed depth ']' (items.map fun item => (item.write (depth + 1)).toList) := by
  have hl := toList_enclose depth "[" ']' (writeItems (depth + 1) items)
  rw [writeItems_eq_map, List.map_map] at hl
  rw [write, writeItems_eq_map]
  exact hl

theorem toList_write_object (depth : Nat) (fields : List (String × Json)) :
    ((Json.object fields).write depth).toList =
      '{' :: enclosed depth '}' (fields.map fun field => (writeField (depth + 1) field).toList) := by
  have hl := toList_enclose depth "\x7b" '}' (writeFields (depth + 1) fields)
  rw [writeFields_eq_map, List.map_map] at hl
  rw [write, writeFields_eq_map]
  exact hl

theorem head_toString (n : Int) : ∃ c more, (toString n).toList = c :: more ∧
    ∀ d : Char, d.isDigit = false → d ≠ '-' → c ≠ d := by
  rw [Int.toString_eq_repr, Int.repr_eq_if]
  split
  · rw [Nat.toList_repr]
    obtain ⟨c, digits, hdigits⟩ := List.exists_cons_of_ne_nil (toDigits_ne_nil n.toNat)
    have hc : c.isDigit = true := isDigit_toDigits n.toNat c (hdigits ▸ List.mem_cons_self)
    refine ⟨c, digits, hdigits, ?_⟩
    rintro d hd - rfl
    rw [hc] at hd
    cases hd
  · exact ⟨'-', _, String.toList_append, fun _ _ hd => hd.symm⟩

theorem opens_write (depth : Nat) (value : Json) : Opens (value.write depth).toList := by
  cases value with
  | text value =>
    rw [write, toList_quote]
    exact ⟨'"', _, rfl, by decide⟩
  | number n =>
    obtain ⟨c, more, hc, hne⟩ := head_toString n
    have hspace : isSpace c = false := by
      simp only [isSpace, hne ' ' rfl (by decide), hne '\n' rfl (by decide),
        hne '\r' rfl (by decide), hne '\t' rfl (by decide), decide_false, Bool.or_self]
    exact ⟨c, more, hc, hspace, hne ']' rfl (by decide), hne '}' rfl (by decide)⟩
  | list items =>
    exact ⟨'[', _, toList_write_list depth items, by decide⟩
  | object fields =>
    exact ⟨'{', _, toList_write_object depth fields, by decide⟩

theorem readField_write {limit depth : Nat} {field : String × Json} {rest : List Char}
    (h : readValue limit ((field.2.write depth).toList ++ rest) = some (field.2, rest)) :
    readField (readValue limit) ((writeField depth field).toList ++ rest) = some (field, rest) := by
  obtain ⟨name, value⟩ := field
  let behind := (value.write depth).toList ++ rest
  have hchars : (writeField depth (name, value)).toList ++ rest =
      '"' :: (name.toList.flatMap escape ++ '"' :: ':' :: ' ' :: behind) := by
    simp [writeField, toList_quote, behind]
  have hvalue : skip (' ' :: behind) = behind := by
    obtain ⟨c, more, hc, hspace, -⟩ := (opens_write depth value).append rest
    have hskip : skip (' ' :: behind) = skip behind := rfl
    rw [hskip, show behind = c :: more from hc, skip_of_not_space hspace]
  simp only [hchars, readField, readText_quote, Option.bind_some, skip_of_not_space (c := ':') rfl,
    hvalue, behind, h, Option.map_some]

theorem readValue_write {value : Json} {limit depth : Nat} {rest : List Char}
    (hlimit : (value.write depth).toList.length ≤ limit) (hrest : EndsNumber rest) :
    readValue limit ((value.write depth).toList ++ rest) = some (value, rest) := by
  -- whatever is written inside a value is shorter, as it lacks the brackets
  induction limit generalizing value depth rest with
  | zero =>
    have hempty : (value.write depth).toList = [] := List.eq_nil_of_length_eq_zero (by omega)
    exact absurd hempty (opens_write depth value).ne_nil
  | succ limit ih =>
    cases value with
    | text value =>
      rw [write, toList_quote, List.cons_append, List.append_assoc, List.singleton_append, readValue,
        readText_quote, Option.map_some]
    | number n =>
      obtain ⟨c, more, hc, hne⟩ := head_toString n
      have hread := readInt_toString n hrest
      rw [hc, List.cons_append] at hread
      rw [write, hc, List.cons_append, readValue, hread, Option.map_some]
      · rintro chars h
        exact hne '"' rfl (by decide) (List.cons.inj h).1
      · rintro chars h
        exact hne '[' rfl (by decide) (List.cons.inj h).1
      · rintro chars h
        exact hne '{' rfl (by decide) (List.cons.inj h).1
    | list items =>
      rw [toList_write_list, List.length_cons] at hlimit
      rw [toList_write_list, List.cons_append, readValue, readEnclosed_enclosed (.inl rfl),
        Option.map_some]
      · intro item hitem rest hrest
        have hmem : (item.write (depth + 1)).toList ∈
          items.map fun item => (item.write (depth + 1)).toList := List.mem_map_of_mem hitem
        have hle := length_le_enclosed hmem depth ']'
        exact ih (by omega) hrest
      · exact fun item _ => opens_write (depth + 1) item
    | object fields =>
      rw [toList_write_object, List.length_cons] at hlimit
      rw [toList_write_object, List.cons_append, readValue, readEnclosed_enclosed (.inr rfl),
        Option.map_some]
      · intro field hfield rest hrest
        have hmem : (writeField (depth + 1) field).toList ∈
          fields.map fun field => (writeField (depth + 1) field).toList := List.mem_map_of_mem hfield
        have hle := length_le_enclosed hmem depth '}'
        have hvalue := length_le_writeField (depth + 1) field
        exact readField_write (ih (by omega) hrest)
      · intro field _
        rw [writeField, String.toList_append, String.toList_append, toList_quote]
        exact ⟨'"', _, rfl, by decide⟩

/-- To read what was written of a value gives the value. -/
theorem read_render (value : Json) : read value.render = some value := by
  have hopens := opens_write 0 value
  have hskip : skip (value.write 0).toList = (value.write 0).toList := by
    obtain ⟨c, more, hc, hspace, -⟩ := hopens
    rw [hc, skip_of_not_space hspace]
  have hread : readValue _ ((value.write 0).toList ++ []) = some (value, []) :=
    readValue_write (Nat.le_refl _) nofun
  rw [List.append_nil] at hread
  rw [read, render, hskip, hread]
  rfl

example : (read "[\n  \"\\\"😀\\t/é\",\n  -10,\n  []\n]").map render =
    some "[\n  \"\\\"😀\\t/é\",\n  -10,\n  []\n]" := by
  decide +kernel

end Lexicon.Json
