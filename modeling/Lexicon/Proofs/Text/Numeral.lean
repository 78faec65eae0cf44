import Lexicon.Proofs.Classes

namespace Lexicon.Text

def readNat (text : List Char) : Option (Nat × List Char) :=
  match text.takeWhile Char.isDigit with
  | [] | '0' :: _ :: _ => none
  | digits => some (Nat.ofDigitChars 10 digits 0, text.dropWhile Char.isDigit)

def readInt : List Char → Option (Int × List Char)
  | '-' :: text => (readNat text).map fun (n, rest) => (-n, rest)
  | text => (readNat text).map fun (n, rest) => (n, rest)

def EndsNumber (text : List Char) : Prop :=
  ∀ c ∈ text.head?, c.isDigit = false

theorem endsNumber_cons {c : Char} (h : c.isDigit = false) (text : List Char) :
    EndsNumber (c :: text) := by
  intro d hd
  cases hd
  exact h

theorem toDigits_ne_nil (n : Nat) : Nat.toDigits 10 n ≠ [] := by
  rw [Nat.toDigits_eq_if (by decide)]
  split
  · exact List.cons_ne_nil _ _
  · exact List.append_ne_nil_of_right_ne_nil _ (List.cons_ne_nil _ _)

theorem isDigit_toDigits (n : Nat) : ∀ c ∈ Nat.toDigits 10 n, c.isDigit = true :=
  fun _ hc => Nat.isDigit_of_mem_toDigits (by decide) (by decide) hc

theorem head_toDigits {n : Nat} (h : 0 < n) : (Nat.toDigits 10 n).head? ≠ some '0' := by
  induction n using Nat.strongRecOn with
  | ind n ih =>
    rw [Nat.toDigits_eq_if (by decide)]
    split
    · intro hc
      have hzero := Nat.digitChar_eq_zero.1 (Option.some.inj hc)
      omega
    · obtain ⟨c, digits, hdigits⟩ := List.exists_cons_of_ne_nil (toDigits_ne_nil (n / 10))
      have hc := ih (n / 10) (by omega) (by omega)
      rw [hdigits] at hc ⊢
      exact hc

theorem toDigits_ne_zero_cons (n : Nat) (c : Char) (digits : List Char) :
    Nat.toDigits 10 n ≠ '0' :: c :: digits := by
  intro h
  by_cases hn : 0 < n
  · apply head_toDigits hn
    rw [h]
    rfl
  · obtain rfl : n = 0 := by omega
    cases h

variable {rest : List Char}

theorem takeWhile_toDigits (n : Nat) (h : EndsNumber rest) :
    (Nat.toDigits 10 n ++ rest).takeWhile Char.isDigit = Nat.toDigits 10 n ∧
      (Nat.toDigits 10 n ++ rest).dropWhile Char.isDigit = rest := by
  rw [List.takeWhile_append_of_pos (isDigit_toDigits n), List.dropWhile_append_of_pos (isDigit_toDigits n)]
  cases rest with
  | nil => exact ⟨List.append_nil _, rfl⟩
  | cons c rest =>
    have hc : ¬ c.isDigit = true := by simp [h c rfl]
    rw [List.takeWhile_cons_of_neg hc, List.dropWhile_cons_of_neg hc]
    exact ⟨List.append_nil _, rfl⟩

theorem readNat_toDigits (n : Nat) (h : EndsNumber rest) :
    readNat (Nat.toDigits 10 n ++ rest) = some (n, rest) := by
  obtain ⟨htake, hdrop⟩ := takeWhile_toDigits n h
  rw [readNat, htake, hdrop]
  split
  · next hnil => exact absurd hnil (toDigits_ne_nil n)
  · next c digits hzero => exact absurd hzero (toDigits_ne_zero_cons n c digits)
  · rw [Nat.ofDigitChars_ten_toDigits]

theorem readInt_toDigits (n : Nat) (h : EndsNumber rest) :
    readInt (Nat.toDigits 10 n ++ rest) = some ((n : Int), rest) := by
  have hread := readNat_toDigits n h
  obtain ⟨c, digits, hdigits⟩ := List.exists_cons_of_ne_nil (toDigits_ne_nil n)
  have hc : c.isDigit = true := isDigit_toDigits n c (hdigits ▸ List.mem_cons_self)
  rw [hdigits, List.cons_append] at hread ⊢
  unfold readInt
  split
  · next hminus =>
    cases hminus
    cases hc
  · rw [hread]
    rfl

/-- An integer is read as it was written. -/
theorem readInt_toString (n : Int) (h : EndsNumber rest) :
    readInt ((toString n).toList ++ rest) = some (n, rest) := by
  rw [Int.toString_eq_repr, Int.repr_eq_if]
  split
  · next hn =>
    rw [Nat.toList_repr, readInt_toDigits _ h, Int.toNat_of_nonneg hn]
  · next hn =>
    have hneg : -((-n).toNat : Int) = n := by omega
    rw [String.toList_append, Nat.toList_repr, List.append_assoc]
    calc readInt ('-' :: (Nat.toDigits 10 (-n).toNat ++ rest))
      _ = (readNat (Nat.toDigits 10 (-n).toNat ++ rest)).map fun (n, rest) => (-n, rest) := rfl
      _ = some (-((-n).toNat : Int), rest) := by rw [readNat_toDigits _ h]; rfl
      _ = some (n, rest) := by rw [hneg]

theorem not_mem_repr {c : Char} (hc : c.isDigit = false) (n : Nat) : c ∉ n.repr.toList := by
  intro hm
  rw [Nat.toList_repr] at hm
  rw [isDigit_toDigits n c hm] at hc
  cases hc

theorem not_mem_toString {c : Char} (hc : c.isDigit = false) (hminus : c ≠ '-') (n : Int) :
    c ∉ (toString n).toList := by
  rw [Int.toString_eq_repr, Int.repr_eq_if]
  split
  · exact not_mem_repr hc n.toNat
  · intro hm
    rw [String.toList_append] at hm
    obtain hm | hm := List.mem_append.1 hm
    · exact hminus (List.mem_singleton.1 hm)
    · exact not_mem_repr hc (-n).toNat hm

end Lexicon.Text
