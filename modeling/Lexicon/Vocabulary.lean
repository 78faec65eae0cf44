import Std.Data.ExtTreeMap

namespace Lexicon

inductive Kind
  | keyword
  | separator
  | literal
  | identifier
deriving DecidableEq

def Kind.name : Kind → String
  | .keyword => "keyword"
  | .separator => "separator"
  | .literal => "literal"
  | .identifier => "identifier"

/-- Texts without repetition, each known by the place at which it stands. The index leads from
a text back to its place. -/
structure Vocabulary (kind : Kind) where
  entries : Array String := #[]
  index : Std.ExtTreeMap String Nat := ∅
  index_eq_some_iff : ∀ (value : String) (i : Nat),
    index[value]? = some i ↔ entries[i]? = some value := by simp

namespace Vocabulary

variable {kind : Kind}

def empty : Vocabulary kind :=
  {}

@[ext]
theorem ext {v w : Vocabulary kind} (h : v.entries = w.entries) : v = w := by
  obtain ⟨entries, index, hv⟩ := v
  obtain ⟨_, index', hw⟩ := w
  subst h
  have : index = index' := Std.ExtTreeMap.ext_getElem? fun value => by
    apply Option.ext
    intro i
    rw [hv, hw]
  subst this
  rfl

def size (v : Vocabulary kind) : Nat :=
  v.entries.size

def toList (v : Vocabulary kind) : List String :=
  v.entries.toList

def index? (v : Vocabulary kind) (value : String) : Option Nat :=
  v.index[value]?

def contains (v : Vocabulary kind) (value : String) : Bool :=
  v.index.contains value

theorem index?_eq_some_iff {v : Vocabulary kind} {value : String} {i : Nat} :
    v.index? value = some i ↔ v.entries[i]? = some value :=
  v.index_eq_some_iff value i

theorem index_push {v : Vocabulary kind} {value : String} (h : v.index[value]? = none)
    (other : String) (i : Nat) :
    (v.index.insert value v.entries.size)[other]? = some i ↔
      (v.entries.push value)[i]? = some other := by
  rw [Std.ExtTreeMap.getElem?_insert, Array.getElem?_push]
  have hv := v.index_eq_some_iff
  by_cases he : value = other
  · subst he
    have habsent : v.entries[i]? ≠ some value := fun hi => by simp [(hv value i).2 hi] at h
    by_cases hi : i = v.entries.size <;> simp [hi, habsent, eq_comm]
  · have hsize : v.index[other]? = some v.entries.size → False := fun hi => by
      simpa using (hv other _).1 hi
    by_cases hi : i = v.entries.size
    · simpa [hi, he] using hsize
    · simp [hi, he, hv]

def intern (v : Vocabulary kind) (value : String) : Nat × Vocabulary kind :=
  match h : v.index[value]? with
  | some i => (i, v)
  | none =>
    (v.entries.size,
      { entries := v.entries.push value
        index := v.index.insert value v.entries.size
        index_eq_some_iff := index_push h })

def internAll (v : Vocabulary kind) (values : List String) : Vocabulary kind :=
  values.foldl (fun v value => (v.intern value).2) v

/-- How many entries a length leaves. A negative one counts from the end, and none leaves fewer
than no entries or more than there are. -/
def remaining (v : Vocabulary kind) (length : Int) : Nat :=
  (if length < 0 then v.size + length else min length v.size).toNat

theorem getElem?_erase_all (values : List String) (index : Std.ExtTreeMap String Nat)
    (value : String) :
    (values.foldl (fun index dropped => index.erase dropped) index)[value]? =
      if value ∈ values then none else index[value]? := by
  induction values generalizing index with
  | nil => simp
  | cons first values ih =>
    rw [List.foldl_cons, ih, Std.ExtTreeMap.getElem?_erase]
    by_cases h : value ∈ values
    · simp [h]
    · by_cases hf : value = first
      · simp [hf]
      · simp [h, hf, Ne.symm hf]

theorem getElem?_take (entries : Array String) (n i : Nat) :
    (entries.take n)[i]? = if i < n then entries[i]? else none := by
  simp only [Array.take, Array.getElem?_extract, Nat.sub_zero, Nat.zero_add]
  grind

theorem index_truncate (v : Vocabulary kind) (n : Nat) (value : String) (i : Nat) :
    ((v.entries.toList.drop n).foldl (fun index dropped => index.erase dropped) v.index)[value]? =
        some i ↔ (v.entries.take n)[i]? = some value := by
  rw [getElem?_erase_all, getElem?_take]
  have hv := v.index_eq_some_iff value
  by_cases hd : value ∈ v.entries.toList.drop n
  · obtain ⟨j, hj⟩ := List.mem_iff_getElem?.1 hd
    rw [List.getElem?_drop, Array.getElem?_toList] at hj
    have : i < n → v.entries[i]? ≠ some value := fun hi he => by
      have := ((hv i).2 he).symm.trans ((hv _).2 hj)
      simp only [Option.some.injEq] at this
      omega
    simpa [hd] using this
  · have : v.entries[i]? = some value → i < n := fun he => by
      refine Decidable.byContradiction fun hi => hd (List.mem_iff_getElem?.2 ⟨i - n, ?_⟩)
      rw [List.getElem?_drop, Array.getElem?_toList, Nat.add_sub_cancel' (by omega), he]
    by_cases hi : i < n
    · simp [hd, hi, hv]
    · simpa [hd, hi, hv] using fun he => hi (this he)

def truncate (v : Vocabulary kind) (length : Int) : Vocabulary kind :=
  { entries := v.entries.take (v.remaining length)
    index := (v.entries.toList.drop (v.remaining length)).foldl (·.erase ·) v.index
    index_eq_some_iff := index_truncate v _ }

inductive Missing
  | notAddressable
  | outOfRange
deriving DecidableEq

/-- Places are counted in words of 64 bits, one of which is the sign. -/
def placeBound : Int :=
  0x8000000000000000

def Missing.ofPlace (place : Int) : Missing :=
  if place < -placeBound || placeBound ≤ place then .notAddressable else .outOfRange

def get (v : Vocabulary kind) (place : Int) : Except Missing String :=
  let i := if place < 0 then place + v.size else place
  match if i < 0 then none else v.entries[i.toNat]? with
  | some value => .ok value
  | none => .error (.ofPlace place)

structure Duplicate where
  kind : Kind
  value : String
deriving DecidableEq

def Duplicate.message (duplicate : Duplicate) : String :=
  s!"Duplicate {duplicate.kind.name} table entry '{duplicate.value}'"

def ofList (kind : Kind) (values : List String) : Except Duplicate (Vocabulary kind) :=
  values.foldlM (fun v value =>
    if v.contains value then .error ⟨kind, value⟩ else .ok (v.intern value).2) empty

inductive Call
  | intern (value : String)
  | index (value : String)
  | contains (value : String)
  | get (place : Int)
  | size
  | toList
  | truncate (length : Int)
deriving DecidableEq

inductive Answer
  | done
  | place (i : Option Nat)
  | truth (b : Bool)
  | entry (value : Except Missing String)
  | entries (values : List String)

def perform (v : Vocabulary kind) : Call → Answer × Vocabulary kind
  | .intern value =>
    let (i, v) := v.intern value
    (.place i, v)
  | .index value => (.place (v.index? value), v)
  | .contains value => (.truth (v.contains value), v)
  | .get place => (.entry (v.get place), v)
  | .size => (.place v.size, v)
  | .toList => (.entries v.toList, v)
  | .truncate length => (.done, v.truncate length)

end Vocabulary

end Lexicon
