import BasicOutline.Text.Numeral

/-! UTF-8: texts as bytes, and the first byte at which a reading fails. -/

namespace BasicOutline.Utf8

abbrev Bytes := List UInt8

def encode (t : Text) : Bytes := t.flatMap String.utf8EncodeChar

inductive Fault where
  | start
  | continuation
  | ending
  deriving DecidableEq, Repr

structure DecodeError where
  fault : Fault
  position : Nat
  first : UInt8
  count : Nat
  deriving DecidableEq, Repr

/-- A character that is read in part: its first byte, the bytes read, those missing, the bounds
of the next one, and the bits so far. -/
structure Pending where
  first : UInt8
  count : Nat
  missing : Nat
  low : Nat
  high : Nat
  bits : Nat
  deriving DecidableEq, Repr

/-- A first byte after which `missing` more make up a character. The second byte is bounded so
that neither overlong forms nor surrogates nor numbers past the last character are read. -/
def beginChar (byte : UInt8) : Option Pending :=
  let n := byte.toNat
  if n < 0xC2 then none
  else if n < 0xE0 then some ⟨byte, 1, 1, 0x80, 0xBF, n - 0xC0⟩
  else if n < 0xF0 then
    some ⟨byte, 1, 2, if n = 0xE0 then 0xA0 else 0x80, if n = 0xED then 0x9F else 0xBF, n - 0xE0⟩
  else if n < 0xF5 then
    some ⟨byte, 1, 3, if n = 0xF0 then 0x90 else 0x80, if n = 0xF4 then 0x8F else 0xBF, n - 0xF0⟩
  else none

def Pending.push (pending : Pending) (byte : UInt8) : Pending :=
  { pending with
    count := pending.count + 1
    missing := pending.missing - 1
    low := 0x80
    high := 0xBF
    bits := pending.bits * 64 + (byte.toNat - 0x80) }

/-- Reads on at `position`, which counts the bytes of whole characters. -/
def decodeFrom (position : Nat) : Option Pending → Bytes → Except DecodeError Text
  | none, [] => .ok []
  | some pending, [] => .error ⟨.ending, position, pending.first, pending.count⟩
  | none, byte :: rest =>
    if byte.toNat < 0x80 then
      (decodeFrom (position + 1) none rest).map (Char.ofNat byte.toNat :: ·)
    else if (beginChar byte).isSome then decodeFrom position (beginChar byte) rest
    else .error ⟨.start, position, byte, 1⟩
  | some pending, byte :: rest =>
    if pending.low ≤ byte.toNat ∧ byte.toNat ≤ pending.high then
      if pending.missing = 1 then
        (decodeFrom (position + pending.count + 1) none rest).map
          (Char.ofNat (pending.push byte).bits :: ·)
      else decodeFrom position (some (pending.push byte)) rest
    else .error ⟨.continuation, position, pending.first, pending.count⟩

def decode (bytes : Bytes) : Except DecodeError Text := decodeFrom 0 none bytes

def Fault.message : Fault → Text
  | .start => "invalid start byte".toList
  | .continuation => "invalid continuation byte".toList
  | .ending => "unexpected end of data".toList

def DecodeError.message (e : DecodeError) : Text :=
  "'utf-8' codec can't decode byte".toList ++
    (if e.count = 1 then
      " 0x".toList ++ Text.hexDigits 2 e.first.toNat ++ " in position ".toList ++
        Text.natDigits e.position
    else
      "s in position ".toList ++ Text.natDigits e.position ++ '-' ::
        Text.natDigits (e.position + e.count - 1)) ++
    ": ".toList ++ e.fault.message

end BasicOutline.Utf8
