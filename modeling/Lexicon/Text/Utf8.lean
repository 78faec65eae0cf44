import Lexicon.Text.Quoted

namespace Lexicon.Text.Utf8

inductive Reason
  | invalidStart
  | invalidContinuation
  | unexpectedEnd
deriving DecidableEq

structure Fault where
  lead : UInt8
  offset : Nat
  length : Nat
  reason : Reason
deriving DecidableEq

/-- A character whose encoding has begun. The next byte lies between `low` and `high`, and
`needed` bytes are still to come; `bits` holds what the `taken` ones say. -/
structure Pending where
  lead : UInt8
  taken : Nat
  needed : Nat
  low : UInt8
  high : UInt8
  bits : Nat

/-- The bounds on the second byte rule out surrogates, numbers past the last code point, and
encodings longer than they need to be. -/
def begin? (lead : UInt8) : Option Pending :=
  let bits := lead.toNat
  if lead < 0x80 then some ⟨lead, 1, 0, 0x80, 0xBF, bits⟩
  else if lead < 0xC2 then none
  else if lead < 0xE0 then some ⟨lead, 1, 1, 0x80, 0xBF, bits % 0x20⟩
  else if lead = 0xE0 then some ⟨lead, 1, 2, 0xA0, 0xBF, bits % 0x10⟩
  else if lead = 0xED then some ⟨lead, 1, 2, 0x80, 0x9F, bits % 0x10⟩
  else if lead < 0xF0 then some ⟨lead, 1, 2, 0x80, 0xBF, bits % 0x10⟩
  else if lead = 0xF0 then some ⟨lead, 1, 3, 0x90, 0xBF, bits % 8⟩
  else if lead < 0xF4 then some ⟨lead, 1, 3, 0x80, 0xBF, bits % 8⟩
  else if lead = 0xF4 then some ⟨lead, 1, 3, 0x80, 0x8F, bits % 8⟩
  else none

def Pending.continue? (pending : Pending) (byte : UInt8) : Option Pending :=
  if pending.low ≤ byte && byte ≤ pending.high then
    some ⟨pending.lead, pending.taken + 1, pending.needed - 1, 0x80, 0xBF,
      pending.bits * 0x40 + byte.toNat % 0x40⟩
  else none

def Pending.broken (pending : Pending) (offset : Nat) (reason : Reason) : Fault :=
  ⟨pending.lead, offset - pending.taken, pending.taken, reason⟩

def decodeFrom (offset : Nat) (text : String) :
    Option Pending → List UInt8 → Except Fault String
  | none, [] => .ok text
  | some pending, [] => .error (pending.broken offset .unexpectedEnd)
  | none, byte :: bytes =>
    match begin? byte with
    | none => .error ⟨byte, offset, 1, .invalidStart⟩
    | some pending =>
      if pending.needed = 0 then decodeFrom (offset + 1) (text.push (.ofNat pending.bits)) none bytes
      else decodeFrom (offset + 1) text (some pending) bytes
  | some pending, byte :: bytes =>
    match pending.continue? byte with
    | none => .error (pending.broken offset .invalidContinuation)
    | some pending =>
      if pending.needed = 0 then decodeFrom (offset + 1) (text.push (.ofNat pending.bits)) none bytes
      else decodeFrom (offset + 1) text (some pending) bytes

def decode (bytes : List UInt8) : Except Fault String :=
  decodeFrom 0 "" none bytes

def Reason.text : Reason → String
  | .invalidStart => "invalid start byte"
  | .invalidContinuation => "invalid continuation byte"
  | .unexpectedEnd => "unexpected end of data"

def Fault.message (fault : Fault) : String :=
  let place :=
    if fault.length = 1 then
      s!"byte 0x{String.ofList (hex 2 fault.lead.toNat)} in position {fault.offset}"
    else s!"bytes in position {fault.offset}-{fault.offset + fault.length - 1}"
  s!"'utf-8' codec can't decode {place}: {fault.reason.text}"

end Lexicon.Text.Utf8
