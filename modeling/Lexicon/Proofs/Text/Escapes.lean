import Mathlib.Algebra.Ring.Nat
import Lexicon.Proofs.Classes
import Lexicon.Text.Quoted

namespace Lexicon.Text

def hexValue? (c : Char) : Option Nat :=
  if c.isDigit then some (c.toNat - 0x30)
  else if 0x61 ≤ c.toNat && c.toNat ≤ 0x66 then some (c.toNat - 0x57)
  else if 0x41 ≤ c.toNat && c.toNat ≤ 0x46 then some (c.toNat - 0x37)
  else none

/-- How a text is written between quotes. Behind a backslash some letters stand for a character, and
others say how many hexadecimal digits of a code follow. -/
structure Quoting where
  quote : Char
  bare : Char → Bool
  letter : Char → Option Char
  width : Char → Option Nat

namespace Quoting

/-- Whether what comes next stands for itself, is behind a backslash, or is one of the missing digits
of a code with the given beginning. -/
inductive Place
  | bare
  | escaped
  | digit (missing code : Nat)

def putBefore (code : Nat) : Option (List Nat × List Char) → Option (List Nat × List Char) :=
  Option.map fun (codes, rest) => (code :: codes, rest)

def read (quoting : Quoting) : Place → List Char → Option (List Nat × List Char)
  | _, [] => none
  | .bare, c :: text =>
    if c = quoting.quote then some ([], text)
    else if c = '\\' then quoting.read .escaped text
    else if quoting.bare c then putBefore c.toNat (quoting.read .bare text)
    else none
  | .escaped, c :: text =>
    match quoting.letter c with
    | some meant => putBefore meant.toNat (quoting.read .bare text)
    | none => (quoting.width c).bind fun width => quoting.read (.digit width 0) text
  | .digit missing code, c :: text =>
    (hexValue? c).bind fun value =>
      if missing ≤ 1 then putBefore (0x10 * code + value) (quoting.read .bare text)
      else quoting.read (.digit (missing - 1) (0x10 * code + value)) text

variable {quoting : Quoting} {c : Char} {text : List Char}

theorem read_quote : quoting.read .bare (quoting.quote :: text) = some ([], text) := by
  rw [read, if_pos rfl]

theorem read_bare (hquote : c ≠ quoting.quote) (hslash : c ≠ '\\') (hbare : quoting.bare c = true) :
    quoting.read .bare (c :: text) = putBefore c.toNat (quoting.read .bare text) := by
  rw [read, if_neg hquote, if_neg hslash, if_pos hbare]

theorem read_escape (hquote : '\\' ≠ quoting.quote) :
    quoting.read .bare ('\\' :: text) = quoting.read .escaped text := by
  rw [read, if_neg hquote, if_pos rfl]

theorem read_letter (hquote : '\\' ≠ quoting.quote) {meant : Char}
    (h : quoting.letter c = some meant) :
    quoting.read .bare ('\\' :: c :: text) = putBefore meant.toNat (quoting.read .bare text) := by
  rw [read_escape hquote, read, h]

theorem hexValue_digitChar {n : Nat} (h : n < 0x10) : hexValue? n.digitChar = some n := by
  revert n
  decide

theorem read_hex (width : Nat) {missing n : Nat} (hmissing : 0 < missing) (hn : n < 0x10 ^ width)
    (code : Nat) :
    quoting.read (.digit (width + missing) code) (hex width n ++ text) =
      quoting.read (.digit missing (0x10 ^ width * code + n)) text := by
  induction width generalizing missing n text with
  | zero =>
    obtain rfl : n = 0 := by omega
    simp [hex]
  | succ width ih =>
    have hhigh : n / 0x10 < 0x10 ^ width := by
      rw [Nat.pow_succ] at hn
      omega
    have hmore : ¬ missing + 1 ≤ 1 := by omega
    have hcode : 0x10 * (0x10 ^ width * code + n / 0x10) + n % 0x10 = 0x10 ^ (width + 1) * code + n := by
      have hpow : 0x10 ^ (width + 1) * code = 0x10 * (0x10 ^ width * code) := by
        rw [Nat.pow_succ, Nat.mul_comm (0x10 ^ width), Nat.mul_assoc]
      omega
    rw [hex, List.append_assoc, List.singleton_append, Nat.add_right_comm, Nat.add_assoc,
      ih (Nat.succ_pos missing) hhigh, read, hexValue_digitChar (Nat.mod_lt n (by decide)),
      Option.bind_some, if_neg hmore, hcode, Nat.succ_sub_one]

theorem read_code (hquote : '\\' ≠ quoting.quote) {width n : Nat} (hletter : quoting.letter c = none)
    (hwidth : quoting.width c = some (width + 1)) (hn : n < 0x10 ^ (width + 1)) :
    quoting.read .bare ('\\' :: c :: (hex (width + 1) n ++ text)) =
      putBefore n (quoting.read .bare text) := by
  have hhigh : n / 0x10 < 0x10 ^ width := by
    rw [Nat.pow_succ] at hn
    omega
  have hcode : 0x10 * (0x10 ^ width * 0 + n / 0x10) + n % 0x10 = n := by omega
  rw [read_escape hquote, read, hletter]
  dsimp only
  rw [hwidth, Option.bind_some, hex, List.append_assoc, List.singleton_append,
    read_hex width Nat.one_pos hhigh, read, hexValue_digitChar (Nat.mod_lt n (by decide)),
    Option.bind_some, if_pos (Nat.le_refl 1), hcode]

/-- If each character is read as it is escaped, so is a text. -/
theorem read_flatMap {escape : Char → List Char}
    (h : ∀ c text, quoting.read .bare (escape c ++ text) = putBefore c.toNat (quoting.read .bare text))
    (chars rest : List Char) :
    quoting.read .bare (chars.flatMap escape ++ quoting.quote :: rest) =
      some (chars.map Char.toNat, rest) := by
  induction chars with
  | nil => exact read_quote
  | cons c chars ih =>
    rw [List.flatMap_cons, List.append_assoc, h, ih]
    rfl

end Quoting

end Lexicon.Text
