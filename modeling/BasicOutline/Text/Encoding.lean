import BasicOutline.Text.Utf8

/-! Encodings of JSON texts: how one is told from the first bytes, and the text that bytes or code
units hold. -/

namespace BasicOutline

namespace Text

def isHighSurrogate (code : Nat) : Bool := 0xD800 ≤ code && code < 0xDC00

def isLowSurrogate (code : Nat) : Bool := 0xDC00 ≤ code && code < 0xE000

def charOfCode (code : Nat) : Char :=
  if isHighSurrogate code || isLowSurrogate code then '\uFFFD' else Char.ofNat code

def charOfPair (high low : Nat) : Char :=
  Char.ofNat (0x10000 + (high - 0xD800) * 0x400 + (low - 0xDC00))

def ofCodes : List Nat → Text
  | [] => []
  | high :: low :: rest =>
    if isHighSurrogate high && isLowSurrogate low then charOfPair high low :: ofCodes rest
    else charOfCode high :: ofCodes (low :: rest)
  | [code] => [charOfCode code]

end Text

open Utf8 (Bytes)

inductive ByteOrder where
  | big
  | little
  deriving DecidableEq, Repr

inductive Encoding where
  | utf8
  | utf16 (order : ByteOrder)
  | utf32 (order : ByteOrder)
  deriving DecidableEq, Repr

namespace Encoding

/-- The marks that a text may begin with. The longer ones come first, since one of them begins
with a shorter one. -/
def marks : List (Bytes × Encoding) :=
  [([0x00, 0x00, 0xFE, 0xFF], .utf32 .big), ([0xFF, 0xFE, 0x00, 0x00], .utf32 .little),
    ([0xFE, 0xFF], .utf16 .big), ([0xFF, 0xFE], .utf16 .little), ([0xEF, 0xBB, 0xBF], .utf8)]

/-- The encoding of a text without a mark. A JSON text begins with an ASCII character, so the
zeros among the first bytes tell how wide the units are and which end comes first. -/
def ofZeros : Bytes → Encoding
  | [first, second] =>
    if first = 0 then .utf16 .big else if second = 0 then .utf16 .little else .utf8
  | first :: second :: third :: fourth :: _ =>
    if first = 0 then if second = 0 then .utf32 .big else .utf16 .big
    else if second = 0 then
      if third = 0 ∧ fourth = 0 then .utf32 .little else .utf16 .little
    else .utf8
  | _ => .utf8

def detect (bytes : Bytes) : Encoding × Bytes :=
  match marks.find? fun entry => entry.1.isPrefixOf bytes with
  | some (mark, encoding) => (encoding, bytes.drop mark.length)
  | none => (ofZeros bytes, bytes)

def unit (order : ByteOrder) (bytes : Bytes) : Nat :=
  let ordered := match order with
    | .big => bytes
    | .little => bytes.reverse
  ordered.foldl (fun n byte => 256 * n + byte.toNat) 0

def units16 (order : ByteOrder) : Bytes → Option (List Nat)
  | [] => some []
  | first :: second :: rest => (units16 order rest).map (unit order [first, second] :: ·)
  | _ => none

def units32 (order : ByteOrder) : Bytes → Option (List Nat)
  | [] => some []
  | first :: second :: third :: fourth :: rest =>
    (units32 order rest).map (unit order [first, second, third, fourth] :: ·)
  | _ => none

def decode (encoding : Encoding) (bytes : Bytes) : Option Text :=
  match encoding with
  | .utf8 => (Utf8.decode bytes).toOption
  | .utf16 order => (units16 order bytes).map Text.ofCodes
  | .utf32 order =>
    match units32 order bytes with
    | some codes => if codes.all (· < 0x110000) then some (codes.map Text.charOfCode) else none
    | none => none

end Encoding

end BasicOutline
