import Lexicon.Vocabulary

namespace Lexicon

theorem Kind.name_injective : Function.Injective Kind.name := by
  intro kind other h
  cases kind <;> cases other <;> first | rfl | exact absurd h (by decide)

namespace Vocabulary

variable {kind : Kind} {v w : Vocabulary kind} {value : String}

theorem toList_inj (h : v.toList = w.toList) : v = w := by
  apply Vocabulary.ext
  exact Array.toList_inj.1 h

theorem length_toList (v : Vocabulary kind) : v.toList.length = v.size := by
  rfl

theorem index?_eq_some {i : Nat} : v.index? value = some i ↔ v.toList[i]? = some value := by
  rw [index?_eq_some_iff, toList, Array.getElem?_toList]

theorem index?_eq_none : v.index? value = none ↔ value ∉ v.toList := by
  rw [List.mem_iff_getElem?, Option.eq_none_iff_forall_not_mem]
  simp only [Option.mem_def, index?_eq_some, not_exists]

theorem contains_iff : v.contains value = true ↔ value ∈ v.toList := by
  have h : v.index? value = none ↔ value ∉ v.toList := index?_eq_none
  rw [contains, Std.ExtTreeMap.contains_eq_isSome_getElem?, ← Option.ne_none_iff_isSome]
  exact (not_congr h).trans Decidable.not_not

theorem nodup_toList (v : Vocabulary kind) : v.toList.Nodup := by
  apply List.pairwise_iff_getElem.2
  intro i j hi hj hlt he
  have h : v.index? v.toList[i] = some i := index?_eq_some.2 (List.getElem?_eq_getElem hi)
  have h' : v.index? v.toList[i] = some j :=
    index?_eq_some.2 (by rw [he, List.getElem?_eq_getElem hj])
  have hij : i = j := Option.some.inj (h.symm.trans h')
  omega

theorem intern_of_mem {i : Nat} (h : v.toList[i]? = some value) : v.intern value = (i, v) := by
  have hi : v.index[value]? = some i := index?_eq_some.2 h
  unfold intern
  split
  · simp_all
  · simp_all

theorem intern_of_not_mem (h : value ∉ v.toList) :
    (v.intern value).1 = v.size ∧ (v.intern value).2.toList = v.toList ++ [value] := by
  have hi : v.index[value]? = none := index?_eq_none.2 h
  unfold intern
  split
  · simp_all
  · exact ⟨rfl, Array.toList_push⟩

theorem toList_intern (v : Vocabulary kind) (value : String) :
    (v.intern value).2.toList = if value ∈ v.toList then v.toList else v.toList ++ [value] := by
  split
  · next h =>
    obtain ⟨i, hi⟩ := List.mem_iff_getElem?.1 h
    rw [intern_of_mem hi]
  · next h => exact (intern_of_not_mem h).2

theorem mem_intern (v : Vocabulary kind) (value : String) {other : String} :
    other ∈ (v.intern value).2.toList ↔ other ∈ v.toList ∨ other = value := by
  rw [toList_intern]
  split
  · next h => exact ⟨.inl, fun ho => ho.elim id fun he => he ▸ h⟩
  · rw [List.mem_append, List.mem_singleton]

theorem getElem?_intern (v : Vocabulary kind) (value : String) :
    (v.intern value).2.toList[(v.intern value).1]? = some value := by
  by_cases h : value ∈ v.toList
  · obtain ⟨i, hi⟩ := List.mem_iff_getElem?.1 h
    rw [intern_of_mem hi]
    exact hi
  · obtain ⟨hfirst, hlist⟩ := intern_of_not_mem h
    rw [hfirst, hlist, ← length_toList, List.getElem?_concat_length]

theorem prefix_intern (v : Vocabulary kind) (value : String) :
    v.toList <+: (v.intern value).2.toList := by
  rw [toList_intern]
  split
  · exact List.prefix_rfl
  · exact List.prefix_append _ _

theorem getElem?_of_prefix (h : v.toList <+: w.toList) {i : Nat} (hi : v.toList[i]? = some value) :
    w.toList[i]? = some value := by
  obtain ⟨hlt, hget⟩ := List.getElem?_eq_some_iff.1 hi
  rw [List.prefix_iff_getElem?.1 h i hlt, hget]

theorem toList_truncate (v : Vocabulary kind) (length : Int) :
    (v.truncate length).toList = v.toList.take (v.remaining length) := by
  simp [truncate, toList]

/-- To truncate undoes what was interned since the vocabulary had that length. -/
theorem truncate_of_prefix (h : v.toList <+: w.toList) : w.truncate v.size = v := by
  have hle : v.size ≤ w.size := h.length_le
  have hremaining : w.remaining v.size = v.size := by
    simp only [remaining]
    omega
  apply toList_inj
  rw [toList_truncate, hremaining, ← length_toList]
  exact (List.prefix_iff_eq_take.1 h).symm

theorem get_of_getElem? {i : Nat} (h : v.toList[i]? = some value) : v.get i = .ok value := by
  rw [toList, Array.getElem?_toList] at h
  have hi : ¬ (i : Int) < 0 := by omega
  simp [get, hi, h]

def FirstRepeated (values : List String) (value : String) : Prop :=
  ∃ before after, values = before ++ value :: after ∧ before.Nodup ∧ value ∈ before

theorem not_nodup_of_firstRepeated {values : List String} (h : FirstRepeated values value) :
    ¬ values.Nodup := by
  obtain ⟨before, after, rfl, -, hm⟩ := h
  intro hnodup
  exact (List.nodup_append.1 hnodup).2.2 value hm value List.mem_cons_self rfl

theorem foldlM_intern (values : List String) (v : Vocabulary kind) :
    match values.foldlM (m := Except Duplicate) (fun v value =>
      if v.contains value then .error ⟨kind, value⟩ else .ok (v.intern value).2) v with
    | .ok w => w.toList = v.toList ++ values
    | .error duplicate => duplicate.kind = kind ∧
      ∃ before after, values = before ++ duplicate.value :: after ∧
        (v.toList ++ before).Nodup ∧ duplicate.value ∈ v.toList ++ before := by
  induction values generalizing v with
  | nil => exact (List.append_nil _).symm
  | cons value values ih =>
    by_cases hm : value ∈ v.toList
    · simp only [List.foldlM_cons, contains_iff.2 hm, if_true]
      exact ⟨rfl, [], values, rfl, by simpa using v.nodup_toList, by simpa using hm⟩
    · have hc : v.contains value = false := by
        rw [← Bool.not_eq_true, contains_iff]
        exact hm
      have hlist := (intern_of_not_mem hm).2
      have hrest := ih (v.intern value).2
      simp only [List.foldlM_cons, hc, Bool.false_eq_true, if_false, bind, Except.bind]
      simp only [hlist, List.append_assoc, List.singleton_append] at hrest
      split
      · next w hw =>
        rw [hw] at hrest
        exact hrest
      · next duplicate hd =>
        rw [hd] at hrest
        obtain ⟨hkind, before, after, hvalues, hnodup, hin⟩ := hrest
        exact ⟨hkind, value :: before, after, by rw [hvalues, List.cons_append], hnodup, hin⟩

theorem ofList_eq_ok {values : List String} (h : ofList kind values = .ok v) : v.toList = values := by
  have hfold := foldlM_intern values (empty : Vocabulary kind)
  rw [ofList] at h
  rw [h] at hfold
  exact hfold

theorem ofList_eq_error {values : List String} {duplicate : Duplicate}
    (h : ofList kind values = .error duplicate) :
    duplicate.kind = kind ∧ FirstRepeated values duplicate.value := by
  have hfold := foldlM_intern values (empty : Vocabulary kind)
  rw [ofList] at h
  rw [h] at hfold
  exact hfold

theorem ofList_of_nodup (kind : Kind) {values : List String} (h : values.Nodup) :
    ∃ v : Vocabulary kind, v.toList = values ∧ ofList kind values = .ok v := by
  cases hv : ofList kind values with
  | ok v => exact ⟨v, ofList_eq_ok hv, rfl⟩
  | error duplicate => exact absurd h (not_nodup_of_firstRepeated (ofList_eq_error hv).2)

end Vocabulary

end Lexicon
