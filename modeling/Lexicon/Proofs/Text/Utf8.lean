import Lexicon.Text.Utf8
import Mathlib.Algebra.Order.Ring.Nat

namespace Lexicon.Text.Utf8

def following (number : Nat) : Nat → List UInt8
  | 0 => []
  | n + 1 => .ofNat (number / 64 ^ n % 64 + 0x80) :: following number n

/-- The number of a character can be the one that is pending: it begins with the bits taken so far, and
its next byte is in bounds. -/
def Pending.Reaches (pending : Pending) (number : Nat) : Prop :=
  number / 64 ^ pending.needed = pending.bits ∧
    ∀ n, pending.needed = n + 1 → pending.low.toNat ≤ number / 64 ^ n % 64 + 0x80 ∧
      number / 64 ^ n % 64 + 0x80 ≤ pending.high.toNat

def Pending.Follows (pending : Pending) : Prop :=
  0x80 ≤ pending.low.toNat ∧ pending.high.toNat ≤ 0xBF

def resume (offset : Nat) (text : String) (pending : Pending) (bytes : List UInt8) :
    Except Fault String :=
  if pending.needed = 0 then decodeFrom offset (text.push (.ofNat pending.bits)) none bytes
  else decodeFrom offset text (some pending) bytes

variable {offset number : Nat} {text result : String} {pending next : Pending} {lead byte : UInt8}
  {bytes : List UInt8}

theorem decodeFrom_begin (offset : Nat) (text : String) (bytes : List UInt8)
    (h : begin? lead = some pending) :
    decodeFrom offset text none (lead :: bytes) = resume (offset + 1) text pending bytes := by
  rw [decodeFrom, h]
  rfl

theorem decodeFrom_continue (offset : Nat) (text : String) (bytes : List UInt8)
    (h : pending.continue? byte = some next) :
    decodeFrom offset text (some pending) (byte :: bytes) = resume (offset + 1) text next bytes := by
  rw [decodeFrom, h]
  rfl

theorem continue?_eq_some : pending.continue? byte = some next ↔
    (pending.low ≤ byte ∧ byte ≤ pending.high) ∧
      (⟨pending.lead, pending.taken + 1, pending.needed - 1, 0x80, 0xBF,
        pending.bits * 0x40 + byte.toNat % 0x40⟩ : Pending) = next := by
  simp only [Pending.continue?, Bool.and_eq_true, decide_eq_true_eq, Option.ite_none_right_eq_some,
    Option.some.injEq]

theorem toNat_followingByte (number n : Nat) :
    (UInt8.ofNat (number / 64 ^ n % 64 + 0x80)).toNat = number / 64 ^ n % 64 + 0x80 := by
  rw [UInt8.toNat_ofNat', Nat.mod_eq_of_lt (by omega)]

theorem div_pow_succ (number n : Nat) : number / 64 ^ (n + 1) = number / 64 ^ n / 64 := by
  rw [Nat.pow_succ, Nat.div_div_eq_div_mul]

variable {n : Nat}

theorem Pending.Reaches.step (h : pending.Reaches number) (hn : pending.needed = n + 1) :
    ∃ next, pending.continue? (.ofNat (number / 64 ^ n % 64 + 0x80)) = some next ∧
      next.needed = n ∧ next.Reaches number := by
  obtain ⟨hbits, hbounds⟩ := h
  have hbyte := toNat_followingByte number n
  have hbound := hbounds n hn
  rw [← hbyte] at hbound
  refine ⟨_, continue?_eq_some.2 ⟨hbound, rfl⟩, by simp only [hn, Nat.add_sub_cancel], ?_, ?_⟩
  · rw [hn, div_pow_succ] at hbits
    simp only [hbyte, hn, Nat.add_sub_cancel, ← hbits]
    omega
  · intro m _
    have hlow : (0x80 : UInt8).toNat = 0x80 := rfl
    have hhigh : (0xBF : UInt8).toNat = 0xBF := rfl
    simp only [hlow, hhigh]
    omega

/-- The bytes that are needed complete the character, whichever can be pending. -/
theorem resume_following (offset : Nat) (text : String) (bytes : List UInt8)
    (h : pending.Reaches number) :
    resume offset text pending (following number pending.needed ++ bytes) =
      decodeFrom (offset + pending.needed) (text.push (.ofNat number)) none bytes := by
  induction hn : pending.needed generalizing pending offset with
  | zero =>
    have hbits := h.1
    rw [hn, Nat.pow_zero, Nat.div_one] at hbits
    rw [resume, if_pos hn, hbits]
    rfl
  | succ n ih =>
    obtain ⟨next, hnext, hneeded, hreaches⟩ := h.step hn
    rw [resume, if_neg (by omega), following, List.cons_append, decodeFrom_continue _ _ _ hnext,
      ih _ hreaches hneeded, Nat.add_assoc, Nat.add_comm 1]

theorem reaches_of_continue (h : pending.continue? byte = some next) (hf : pending.Follows)
    (hn : pending.needed = n + 1) (hreaches : next.Reaches number) :
    pending.Reaches number ∧ byte = .ofNat (number / 64 ^ n % 64 + 0x80) := by
  obtain ⟨⟨hlow, hhigh⟩, rfl⟩ := continue?_eq_some.1 h
  have hlow' : pending.low.toNat ≤ byte.toNat := hlow
  have hhigh' : byte.toNat ≤ pending.high.toNat := hhigh
  obtain ⟨hfirst, hlast⟩ := hf
  have hbits : number / 64 ^ n = pending.bits * 0x40 + byte.toNat % 0x40 := by
    simpa only [hn, Nat.add_sub_cancel] using hreaches.1
  have hbyte : byte.toNat = number / 64 ^ n % 64 + 0x80 := by omega
  refine ⟨⟨?_, ?_⟩, ?_⟩
  · rw [hn, div_pow_succ, hbits]
    omega
  · intro m hm
    obtain rfl : m = n := by omega
    omega
  · rw [← UInt8.toNat_inj, toNat_followingByte, hbyte]

theorem follows_of_continue (h : pending.continue? byte = some next) : next.Follows := by
  obtain ⟨-, rfl⟩ := continue?_eq_some.1 h
  exact ⟨Nat.le_refl _, Nat.le_refl _⟩

theorem resume_eq_ok (hf : pending.Follows) (h : resume offset text pending bytes = .ok result) :
    ∃ number rest, pending.Reaches number ∧ bytes = following number pending.needed ++ rest ∧
      decodeFrom (offset + pending.needed) (text.push (.ofNat number)) none rest = .ok result := by
  induction hn : pending.needed generalizing pending offset bytes with
  | zero =>
    rw [resume, if_pos hn] at h
    refine ⟨pending.bits, bytes, ⟨?_, ?_⟩, rfl, h⟩
    · rw [hn, Nat.pow_zero, Nat.div_one]
    · intro n he
      omega
  | succ n ih =>
    rw [resume, if_neg (by omega)] at h
    cases bytes with
    | nil => cases h
    | cons byte bytes =>
      rw [decodeFrom] at h
      cases hc : pending.continue? byte with
      | none =>
        rw [hc] at h
        cases h
      | some next =>
        rw [hc] at h
        have hneeded : next.needed = n := by
          rw [← (continue?_eq_some.1 hc).2, hn, Nat.add_sub_cancel]
        obtain ⟨number, rest, hreaches, rfl, hrest⟩ := ih (follows_of_continue hc) h hneeded
        obtain ⟨hpending, rfl⟩ := reaches_of_continue hc hf hn hreaches
        refine ⟨number, rest, hpending, rfl, ?_⟩
        rwa [Nat.add_assoc, Nat.add_comm 1] at hrest

def behind (number : Nat) : Nat :=
  if number ≤ 0x7F then 0 else if number ≤ 0x7FF then 1 else if number ≤ 0xFFFF then 2 else 3

theorem behind_cases (number : Nat) :
    behind number = 0 ∧ number ≤ 0x7F ∨ behind number = 1 ∧ 0x7F < number ∧ number ≤ 0x7FF ∨
      behind number = 2 ∧ 0x7FF < number ∧ number ≤ 0xFFFF ∨ behind number = 3 ∧ 0xFFFF < number := by
  unfold behind
  split_ifs <;> omega

def mark : Nat → Nat
  | 0 => 0
  | 1 => 0xC0
  | 2 => 0xE0
  | _ => 0xF0

theorem mark_three : mark 3 = 0xF0 := rfl

theorem utf8EncodeChar_eq (c : Char) : ∃ lead : UInt8,
    lead.toNat = c.toNat / 64 ^ behind c.toNat + mark (behind c.toNat) ∧
      String.utf8EncodeChar c = lead :: following c.toNat (behind c.toNat) := by
  have hvalid : c.toNat.isValidChar := c.valid
  have hval : c.val.toNat = c.toNat := rfl
  have hbyte : ∀ m < 0x100, (UInt8.ofNat m).toNat = m := fun m hm => by
    rw [UInt8.toNat_ofNat', Nat.mod_eq_of_lt hm]
  unfold Nat.isValidChar at hvalid
  simp only [String.utf8EncodeChar, behind, hval]
  generalize c.toNat = number at hvalid ⊢
  split_ifs
  · refine ⟨_, ?_, rfl⟩
    rw [hbyte _ (by omega), mark, Nat.pow_zero]
    omega
  · refine ⟨.ofNat (number / 64 % 0x20 + 0xC0), ?_, ?_⟩
    · rw [hbyte _ (by omega), mark]
      omega
    · simp only [following, Nat.pow_zero, Nat.div_one]
  · refine ⟨.ofNat (number / 4096 % 0x10 + 0xE0), ?_, ?_⟩
    · rw [hbyte _ (by omega), mark]
      omega
    · simp only [following, Nat.pow_zero, Nat.div_one, Nat.pow_one]
  · refine ⟨.ofNat (number / 262144 % 8 + 0xF0), ?_, ?_⟩
    · rw [hbyte _ (by omega), mark_three]
      omega
    · simp only [following, Nat.pow_zero, Nat.div_one, Nat.pow_one, Nat.reducePow]

theorem begin?_eq_none (h : begin? lead = none) :
    0x80 ≤ lead.toNat ∧ lead.toNat < 0xC2 ∨ 0xF5 ≤ lead.toNat := by
  simp only [begin?, UInt8.lt_iff_toNat_lt, ← UInt8.toNat_inj, UInt8.reduceToNat] at h
  split_ifs at h <;> omega

theorem begin?_eq_some (h : begin? lead = some pending) :
    (pending.needed = 0 ∧ lead.toNat < 0x80 ∧ pending.bits = lead.toNat ∨
      pending.needed = 1 ∧ 0xC2 ≤ lead.toNat ∧ lead.toNat < 0xE0 ∧ pending.bits = lead.toNat - 0xC0 ∨
      pending.needed = 2 ∧ 0xE0 ≤ lead.toNat ∧ lead.toNat < 0xF0 ∧ pending.bits = lead.toNat - 0xE0 ∨
      pending.needed = 3 ∧ 0xF0 ≤ lead.toNat ∧ lead.toNat < 0xF5 ∧ pending.bits = lead.toNat - 0xF0) ∧
      pending.low.toNat = (if lead.toNat = 0xE0 then 0xA0 else if lead.toNat = 0xF0 then 0x90 else 0x80) ∧
      pending.high.toNat =
        if lead.toNat = 0xED then 0x9F else if lead.toNat = 0xF4 then 0x8F else 0xBF := by
  simp only [begin?, UInt8.lt_iff_toNat_lt, ← UInt8.toNat_inj, UInt8.reduceToNat] at h
  split_ifs at h <;> cases h <;> grind

theorem follows_of_begin (h : begin? lead = some pending) : pending.Follows := by
  obtain ⟨-, hlow, hhigh⟩ := begin?_eq_some h
  unfold Pending.Follows
  rw [hlow, hhigh]
  split_ifs <;> omega

theorem reaches_zero (hn : pending.needed = 0) : pending.Reaches number ↔ number = pending.bits := by
  simp [Pending.Reaches, hn]

theorem reaches_succ (hn : pending.needed = n + 1) :
    pending.Reaches number ↔ number / 64 ^ (n + 1) = pending.bits ∧
      pending.low.toNat ≤ number / 64 ^ n % 64 + 0x80 ∧
        number / 64 ^ n % 64 + 0x80 ≤ pending.high.toNat := by
  simp [Pending.Reaches, hn]

/-- The characters that can be pending with a first byte are those whose encodings begin with it. -/
theorem reaches_iff (h : begin? lead = some pending) :
    pending.Reaches number ↔ number.isValidChar ∧ pending.needed = behind number ∧
      lead.toNat = number / 64 ^ pending.needed + mark pending.needed := by
  obtain ⟨hshape, hlow, hhigh⟩ := begin?_eq_some h
  have hbehind := behind_cases number
  unfold Nat.isValidChar
  obtain ⟨hn, hlead⟩ | ⟨hn, hlead⟩ | ⟨hn, hlead⟩ | ⟨hn, hlead⟩ := hshape
  · rw [reaches_zero hn, hn, mark, Nat.pow_zero]
    omega
  · rw [reaches_succ hn, hlow, hhigh, hn, mark]
    simp only [Nat.reduceAdd, Nat.reducePow]
    split_ifs <;> omega
  · rw [reaches_succ hn, hlow, hhigh, hn, mark]
    simp only [Nat.reduceAdd, Nat.reducePow]
    split_ifs <;> omega
  · rw [reaches_succ hn, hlow, hhigh, hn, mark_three]
    simp only [Nat.reduceAdd, Nat.reducePow]
    split_ifs <;> omega

theorem exists_begin (c : Char) :
    ∃ lead pending, begin? lead = some pending ∧ pending.Reaches c.toNat ∧
      String.utf8EncodeChar c = lead :: following c.toNat pending.needed := by
  have hvalid : c.toNat.isValidChar := c.valid
  have hrange : c.toNat < 0xD800 ∨ 0xDFFF < c.toNat ∧ c.toNat < 0x110000 := hvalid
  obtain ⟨lead, hlead, hc⟩ := utf8EncodeChar_eq c
  cases hb : begin? lead with
  | none =>
    have hnone := begin?_eq_none hb
    obtain ⟨hn, h⟩ | ⟨hn, h⟩ | ⟨hn, h⟩ | ⟨hn, h⟩ := behind_cases c.toNat <;>
      simp only [hn, mark, Nat.reducePow] at hlead <;> omega
  | some pending =>
    have hn : pending.needed = behind c.toNat := by
      obtain ⟨hshape, -⟩ := begin?_eq_some hb
      obtain ⟨hn, h⟩ | ⟨hn, h⟩ | ⟨hn, h⟩ | ⟨hn, h⟩ := behind_cases c.toNat <;>
        simp only [hn, mark, Nat.reducePow] at hlead <;> omega
    rw [← hn] at hlead hc
    exact ⟨lead, pending, hb, (reaches_iff hb).2 ⟨hvalid, hn, hlead⟩, hc⟩

theorem encode_of_begin (h : begin? lead = some pending) (hr : pending.Reaches number) :
    String.utf8EncodeChar (.ofNat number) = lead :: following number pending.needed := by
  obtain ⟨hvalid, hn, hlead⟩ := (reaches_iff h).1 hr
  have hnumber : (Char.ofNat number).toNat = number := by
    rw [Char.ofNat, dif_pos hvalid]
    rfl
  obtain ⟨lead', hlead', hc⟩ := utf8EncodeChar_eq (.ofNat number)
  rw [hnumber, ← hn, ← hlead, UInt8.toNat_inj] at hlead'
  rw [hc, hnumber, hn, hlead']

theorem decodeFrom_flatMap (chars : List Char) (offset : Nat) (text : String) :
    decodeFrom offset text none (chars.flatMap String.utf8EncodeChar) =
      .ok (text ++ String.ofList chars) := by
  induction chars generalizing offset text with
  | nil => rw [List.flatMap_nil, decodeFrom, String.ofList_nil, String.append_empty]
  | cons c chars ih =>
    obtain ⟨lead, pending, hbegin, hreaches, hc⟩ := exists_begin c
    have hpush : text.push c ++ String.ofList chars = text ++ String.ofList (c :: chars) := by
      rw [← String.toList_inj]
      simp only [String.toList_append, String.toList_push, String.toList_ofList, List.append_assoc,
        List.singleton_append]
    rw [List.flatMap_cons, hc, List.cons_append, decodeFrom_begin _ _ _ hbegin,
      resume_following _ _ _ hreaches, ih, Char.ofNat_toNat, hpush]

theorem decodeFrom_eq_ok (h : decodeFrom offset text none bytes = .ok result) :
    ∃ chars : List Char, bytes = chars.flatMap String.utf8EncodeChar := by
  -- a character takes up to four bytes, so the rest is no tail of the list by one
  induction hlen : bytes.length using Nat.strongRecOn generalizing offset text bytes with
  | ind length ih =>
    cases bytes with
    | nil => exact ⟨[], rfl⟩
    | cons lead bytes =>
      cases hb : begin? lead with
      | none =>
        rw [decodeFrom, hb] at h
        cases h
      | some pending =>
        rw [decodeFrom_begin _ _ _ hb] at h
        obtain ⟨number, rest, hreaches, rfl, hrest⟩ := resume_eq_ok (follows_of_begin hb) h
        rw [List.length_cons, List.length_append] at hlen
        obtain ⟨chars, rfl⟩ := ih rest.length (by omega) hrest rfl
        refine ⟨.ofNat number :: chars, ?_⟩
        rw [List.flatMap_cons, encode_of_begin hb hreaches, List.cons_append]

theorem toList_loop (bytes : ByteArray) (i : Nat) (read : List UInt8) :
    ByteArray.toList.loop bytes i read = read.reverse ++ bytes.data.toList.drop i := by
  fun_induction ByteArray.toList.loop bytes i read with
  | case1 i read hi ih =>
    have hi' : i < bytes.data.size := hi
    have hget : bytes.get! i = bytes.data.toList[i] := by
      rw [Array.getElem_toList]
      exact getElem!_pos bytes.data i hi'
    rw [ih, List.drop_eq_getElem_cons hi', hget, List.reverse_cons, List.append_assoc,
      List.singleton_append]
  | case2 i read hi =>
    have hi' : bytes.data.size ≤ i := Nat.not_lt.1 hi
    rw [List.drop_of_length_le hi', List.append_nil]

theorem toList_eq (bytes : ByteArray) : bytes.toList = bytes.data.toList := by
  rw [ByteArray.toList, toList_loop, List.reverse_nil, List.nil_append, List.drop_zero]

theorem toList_inj {bytes other : ByteArray} : bytes.toList = other.toList ↔ bytes = other := by
  rw [toList_eq, toList_eq, Array.toList_inj, ByteArray.ext_iff]

theorem toList_toUTF8 (text : String) :
    text.toUTF8.toList = text.toList.flatMap String.utf8EncodeChar := by
  rw [toList_eq, String.toUTF8_eq_toByteArray, ← String.utf8Encode_toList]
  exact List.toList_data_toByteArray

/-- What can be decoded is what is the encoding of a text, and it is decoded as that text. -/
theorem decode_eq_ok_iff (bytes : ByteArray) (text : String) :
    decode bytes.toList = .ok text ↔ bytes = text.toUTF8 := by
  have hdecode : ∀ chars : List Char,
      decode (chars.flatMap String.utf8EncodeChar) = .ok (String.ofList chars) :=
    fun chars => (decodeFrom_flatMap chars 0 "").trans (by rw [String.empty_append])
  constructor
  · intro h
    obtain ⟨chars, hchars⟩ := decodeFrom_eq_ok h
    rw [hchars, hdecode, Except.ok.injEq] at h
    rw [← toList_inj, toList_toUTF8, ← h, String.toList_ofList, hchars]
  · rintro rfl
    rw [toList_toUTF8, hdecode, String.ofList_toList]

end Lexicon.Text.Utf8
