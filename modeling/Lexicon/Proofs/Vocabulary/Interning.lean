import Lexicon.Proofs.Vocabulary.Refinement

namespace Lexicon.Vocabulary

variable {kind : Kind} {value : String}

def newcomers (v : Vocabulary kind) (values : List String) : List String :=
  (values.filter (· ∉ v.toList)).eraseDups

theorem append_newcomers_cons (v : Vocabulary kind) (value : String) (values : List String) :
    v.toList ++ v.newcomers (value :: values) =
      (v.intern value).2.toList ++ (v.intern value).2.newcomers values := by
  by_cases h : value ∈ v.toList
  · obtain ⟨i, hi⟩ := List.mem_iff_getElem?.1 h
    rw [intern_of_mem hi, newcomers, List.filter_cons_of_neg (by simpa using h), newcomers]
  · have hlist := (intern_of_not_mem h).2
    -- The later repetitions of a new text are left out either way: as such, or as an entry by then.
    have hothers : (values.filter (· ∉ v.toList)).filter (fun other => !other == value) =
        values.filter (· ∉ v.toList ++ [value]) := by
      rw [List.filter_filter]
      apply List.filter_congr
      intro other _
      by_cases he : other = value <;> simp [he]
    rw [hlist, newcomers, List.filter_cons_of_pos (by simpa using h), List.eraseDups_cons, hothers,
      newcomers, hlist, List.append_assoc, List.singleton_append]

theorem toList_internAll (v : Vocabulary kind) (values : List String) :
    (v.internAll values).toList = v.toList ++ v.newcomers values := by
  induction values generalizing v with
  | nil => exact (List.append_nil _).symm
  | cons value values ih =>
    rw [append_newcomers_cons, ← ih]
    rfl

theorem prefix_internAll (v : Vocabulary kind) (values : List String) :
    v.toList <+: (v.internAll values).toList := by
  rw [toList_internAll]
  exact List.prefix_append _ _

theorem mem_internAll (v : Vocabulary kind) {values : List String} (h : value ∈ values) :
    value ∈ (v.internAll values).toList := by
  rw [toList_internAll, List.mem_append]
  by_cases hv : value ∈ v.toList
  · exact .inl hv
  · refine .inr (List.mem_eraseDups.2 (List.mem_filter.2 ⟨h, ?_⟩))
    simpa using hv

theorem idxOf_of_getElem? {v : Vocabulary kind} {i : Nat} (h : v.toList[i]? = some value) :
    v.toList.idxOf value = i := by
  obtain ⟨hlt, rfl⟩ := List.getElem?_eq_some_iff.1 h
  exact v.nodup_toList.idxOf_getElem i hlt

/-- The place that a text is given is where it stands when all others are interned, too. -/
theorem run_intern (v : Vocabulary kind) (values : List String) :
    runWith perform (values.map .intern) v =
      (values.map fun value => .place ((v.internAll values).toList.idxOf value),
        v.internAll values) := by
  induction values generalizing v with
  | nil => rfl
  | cons value values ih =>
    have hplace : ((v.intern value).2.internAll values).toList.idxOf value = (v.intern value).1 := by
      apply idxOf_of_getElem?
      exact getElem?_of_prefix (prefix_internAll _ values) (getElem?_intern v value)
    have hrest := ih (v.intern value).2
    simp only [List.map_cons, runWith, perform, hrest]
    rw [← hplace]
    rfl

theorem runWith_append {σ : Type} (perform : σ → Call → Answer × σ) (front back : List Call)
    (state : σ) :
    runWith perform (front ++ back) state =
      let (answers, middle) := runWith perform front state
      (answers ++ (runWith perform back middle).1, (runWith perform back middle).2) := by
  induction front generalizing state with
  | nil => rfl
  | cons call front ih => simp only [List.cons_append, runWith, ih]

/-- The length that a vocabulary had takes back whatever was interned since. Each text is where it was,
and what is asked from then on is answered as if nothing had been interned. -/
theorem truncate_interned (v : Vocabulary kind) (values : List String) :
    let (places, grown) := runWith perform (values.map .intern) v
    let added := v.newcomers values
    let cut := grown.truncate v.size
    grown.toList = v.toList ++ added ∧
      (∀ value ∈ values, value ∈ grown.toList) ∧
      places = values.map (fun value => .place (grown.toList.idxOf value)) ∧
      (∀ front value back, added = front ++ value :: back →
        value ∈ front.foldl (fun index dropped => index.erase dropped) grown.index) ∧
      cut.toList = v.toList ∧ (∀ value, cut.index? value = v.index? value) ∧
      ∀ calls, runWith perform (values.map .intern ++ .truncate v.size :: calls) v =
        (places ++ .done :: (runWith perform calls v).1, (runWith perform calls v).2) := by
  have hlist := toList_internAll v values
  have hcut : (v.internAll values).truncate v.size = v :=
    truncate_of_prefix (prefix_internAll v values)
  rw [run_intern]
  refine ⟨hlist, fun _ => mem_internAll v, rfl, ?_, by rw [hcut], fun _ => by rw [hcut], ?_⟩
  · intro front value back hadded
    apply mem_index_of_front
    rw [hlist, hadded]
  · intro calls
    rw [runWith_append, run_intern]
    simp only [runWith, perform, hcut]

end Lexicon.Vocabulary
