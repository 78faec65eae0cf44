import Mathlib.Data.List.DropRight
import Lexicon.Proofs.Vocabulary

namespace Lexicon.Vocabulary

def upTo (entries : List String) (length : Int) : List String :=
  if 0 ≤ length then entries.take length.toNat else entries.rdrop length.natAbs

def entryAt (entries : List String) (place : Int) : Option String :=
  if 0 ≤ place then entries[place.toNat]? else entries.reverse[place.natAbs - 1]?

/-- Carry out a call on a mere list, which is searched from its beginning. -/
def performPlain (entries : List String) : Call → Answer × List String
  | .intern value =>
    match entries.idxOf? value with
    | some i => (.place i, entries)
    | none => (.place entries.length, entries ++ [value])
  | .index value => (.place (entries.idxOf? value), entries)
  | .contains value => (.truth (entries.contains value), entries)
  | .get place =>
    match entryAt entries place with
    | some value => (.entry (.ok value), entries)
    | none => (.entry (.error (.ofPlace place)), entries)
  | .size => (.place entries.length, entries)
  | .toList => (.entries entries, entries)
  | .truncate length => (.done, upTo entries length)

def runWith {σ : Type} (perform : σ → Call → Answer × σ) : List Call → σ → List Answer × σ
  | [], state => ([], state)
  | call :: calls, state =>
    let (answer, next) := perform state call
    let (answers, last) := runWith perform calls next
    (answer :: answers, last)

variable {kind : Kind} {value : String}

theorem index?_eq_idxOf? (v : Vocabulary kind) (value : String) :
    v.index? value = v.toList.idxOf? value := by
  cases hi : v.index? value with
  | none => exact (List.idxOf?_eq_none_iff.2 (index?_eq_none.1 hi)).symm
  | some i =>
    obtain ⟨hlt, hget⟩ := List.getElem?_eq_some_iff.1 (index?_eq_some.1 hi)
    refine (List.idxOf?_eq_some_iff.2 ⟨hlt, hget, ?_⟩).symm
    intro j hj he
    have hj' : v.index? value = some j := index?_eq_some.2 (List.getElem?_eq_some_iff.2 ⟨_, he⟩)
    have hij : i = j := Option.some.inj (hi.symm.trans hj')
    omega

theorem toList_truncate_eq (v : Vocabulary kind) (length : Int) :
    (v.truncate length).toList = upTo v.toList length := by
  rw [toList_truncate, upTo, remaining]
  split
  · have hneg : ¬ 0 ≤ length := by omega
    have hleft : (v.size + length).toNat = v.toList.length - length.natAbs := by
      rw [length_toList]
      omega
    rw [if_neg hneg, hleft, List.rdrop]
  · have hpos : 0 ≤ length := by omega
    rw [if_pos hpos, List.take_eq_take_iff, length_toList]
    omega

theorem get_eq (v : Vocabulary kind) (place : Int) :
    v.get place = match entryAt v.toList place with
      | some value => .ok value
      | none => .error (.ofPlace place) := by
  have hsize := length_toList v
  have hentry : entryAt v.toList place =
      if (if place < 0 then place + v.size else place) < 0 then none
      else v.entries[(if place < 0 then place + v.size else place).toNat]? := by
    rw [entryAt, ← Array.getElem?_toList, ← toList]
    by_cases hneg : place < 0
    · rw [if_neg (by omega), if_pos hneg]
      split
      · next hout =>
        apply List.getElem?_eq_none
        rw [List.length_reverse]
        omega
      · next hin =>
        rw [List.getElem?_reverse (by omega)]
        congr 1
        omega
    · rw [if_pos (by omega), if_neg hneg, if_neg hneg]
  cases hfound : entryAt v.toList place with
  | some value =>
    rw [hfound] at hentry
    simp only [get, ← hentry]
  | none =>
    rw [hfound] at hentry
    simp only [get, ← hentry]

/-- What is asked of a vocabulary is answered as by its list, and leads to the list to which that leads. -/
theorem perform_eq_plain (v : Vocabulary kind) (call : Call) :
    ((v.perform call).1, (v.perform call).2.toList) = performPlain v.toList call := by
  cases call with
  | intern value =>
    cases hi : v.toList.idxOf? value with
    | none =>
      obtain ⟨hfirst, hlist⟩ := intern_of_not_mem (List.idxOf?_eq_none_iff.1 hi)
      simp only [perform, performPlain, hi, hfirst, hlist, length_toList]
    | some i =>
      rw [← index?_eq_idxOf?] at hi
      have hintern := intern_of_mem (index?_eq_some.1 hi)
      rw [index?_eq_idxOf?] at hi
      simp only [perform, performPlain, hi, hintern]
  | index value => simp only [perform, performPlain, index?_eq_idxOf?]
  | contains value =>
    have hc : v.contains value = v.toList.contains value := by
      rw [Bool.eq_iff_iff, contains_iff, List.contains_iff_mem]
    simp only [perform, performPlain, hc]
  | get place =>
    simp only [perform, performPlain, get_eq]
    split <;> rfl
  | size => simp only [perform, performPlain, length_toList]
  | toList => rfl
  | truncate length => simp only [perform, performPlain, toList_truncate_eq]

theorem run_eq_plain (v : Vocabulary kind) (calls : List Call) :
    ((runWith perform calls v).1, (runWith perform calls v).2.toList) =
      runWith performPlain calls v.toList := by
  induction calls generalizing v with
  | nil => rfl
  | cons call calls ih =>
    have hstep := perform_eq_plain v call
    have hrest := ih (v.perform call).2
    simp only [runWith, ← hstep, ← hrest]

theorem mem_index_of_front {v : Vocabulary kind} {kept front back : List String}
    (h : v.toList = kept ++ (front ++ value :: back)) :
    value ∈ front.foldl (fun index dropped => index.erase dropped) v.index := by
  have hnodup := v.nodup_toList
  rw [h] at hnodup
  have hnot : value ∉ front := by
    intro hm
    exact (List.nodup_append.1 (List.nodup_append.1 hnodup).2.1).2.2 value hm value List.mem_cons_self rfl
  have hindex : v.index[value]? ≠ none := by
    intro hnone
    apply index?_eq_none.1 hnone
    rw [h]
    simp
  rw [Std.ExtTreeMap.mem_iff_isSome_getElem?, getElem?_erase_all, if_neg hnot,
    ← Option.ne_none_iff_isSome]
  exact hindex

/-- What a length drops is in the index until its turn comes. Then it is unknown, and may be interned
once more, at the new end. -/
theorem truncate_forgets (v : Vocabulary kind) (length : Int) :
    ∃ dropped, v.toList = upTo v.toList length ++ dropped ∧
      (∀ front value back, dropped = front ++ value :: back →
        value ∈ front.foldl (fun index dropped => index.erase dropped) v.index) ∧
      ∀ value ∈ dropped,
        (v.truncate length).index? value = none ∧ (v.truncate length).contains value = false ∧
          ((v.truncate length).intern value).1 = (v.truncate length).size ∧
          ((v.truncate length).intern value).2.toList = (v.truncate length).toList ++ [value] := by
  have hkept := toList_truncate v length
  rw [toList_truncate_eq] at hkept
  have hsplit : v.toList = upTo v.toList length ++ v.toList.drop (v.remaining length) := by
    rw [hkept, List.take_append_drop]
  refine ⟨v.toList.drop (v.remaining length), hsplit, ?_, ?_⟩
  · intro front value back hd
    rw [hd] at hsplit
    exact mem_index_of_front hsplit
  · intro value hd
    have hnot : value ∉ (v.truncate length).toList := by
      rw [toList_truncate_eq]
      intro hm
      have hnodup := v.nodup_toList
      rw [hsplit] at hnodup
      exact (List.nodup_append.1 hnodup).2.2 value hm value hd rfl
    obtain ⟨hplace, hlist⟩ := intern_of_not_mem hnot
    refine ⟨index?_eq_none.2 hnot, ?_, hplace, hlist⟩
    rw [← Bool.not_eq_true, contains_iff]
    exact hnot

/-- A vocabulary is a list without repetitions, and nothing that can be asked of it tells it from one. -/
theorem ofList_refines_list (kind : Kind) (values : List String) :
    match ofList kind values with
    | .error duplicate =>
      ¬ values.Nodup ∧ duplicate.kind = kind ∧ FirstRepeated values duplicate.value
    | .ok v =>
      values.Nodup ∧ v.toList = values ∧ ∀ calls,
        let (answers, later) := runWith perform calls v
        (answers, later.toList) = runWith performPlain calls values ∧ later.toList.Nodup ∧
          ∀ length, ∃ dropped, later.toList = upTo later.toList length ++ dropped ∧
            (∀ front value back, dropped = front ++ value :: back →
              value ∈ front.foldl (fun index dropped => index.erase dropped) later.index) ∧
            ∀ value ∈ dropped,
              let cut := later.truncate length
              cut.index? value = none ∧ cut.contains value = false ∧
                (cut.intern value).1 = cut.size ∧ (cut.intern value).2.toList = cut.toList ++ [value] := by
  cases hv : ofList kind values with
  | error duplicate =>
    obtain ⟨hkind, hfirst⟩ := ofList_eq_error hv
    exact ⟨not_nodup_of_firstRepeated hfirst, hkind, hfirst⟩
  | ok v =>
    have hlist : v.toList = values := ofList_eq_ok hv
    refine ⟨hlist ▸ v.nodup_toList, hlist, ?_⟩
    intro calls
    have hrun := run_eq_plain v calls
    rw [hlist] at hrun
    exact ⟨hrun, nodup_toList _, truncate_forgets _⟩

end Lexicon.Vocabulary
