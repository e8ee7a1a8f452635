import BasicOutline.Text.Blank

/-! Numerals: how integers are written, and which texts are read as integers. -/

namespace BasicOutline.Text

/-- The zeros of the scripts; the other nine digits of a script follow its zero. -/
def digitZeros : List Nat :=
  [ 0x30,
    0x660, 0x6F0, 0x7C0, 0x966, 0x9E6, 0xA66, 0xAE6, 0xB66, 0xBE6, 0xC66, 0xCE6, 0xD66, 0xDE6,
    0xE50, 0xED0, 0xF20, 0x1040, 0x1090, 0x17E0, 0x1810, 0x1946, 0x19D0, 0x1A80, 0x1A90, 0x1B50,
    0x1BB0, 0x1C40, 0x1C50, 0xA620, 0xA8D0, 0xA900, 0xA9D0, 0xA9F0, 0xAA50, 0xABF0, 0xFF10,
    0x104A0, 0x10D30, 0x11066, 0x110F0, 0x11136, 0x111D0, 0x112F0, 0x11450, 0x114D0, 0x11650,
    0x116C0, 0x11730, 0x118E0, 0x11950, 0x11C50, 0x11D50, 0x11DA0, 0x16A60, 0x16AC0, 0x16B50,
    0x1D7CE, 0x1D7D8, 0x1D7E2, 0x1D7EC, 0x1D7F6, 0x1E140, 0x1E2F0, 0x1E950, 0x1FBF0
  ]

def digitValue? (c : Char) : Option Nat :=
  (digitZeros.find? fun least => least ≤ c.toNat && c.toNat < least + 10).map (c.toNat - ·)

def digitChar (n : Nat) : Char := Char.ofNat (48 + n)

def natDigits (n : Nat) : Text :=
  if n < 10 then [digitChar n] else natDigits (n / 10) ++ [digitChar (n % 10)]

def numeral : Int → Text
  | .ofNat n => natDigits n
  | .negSucc n => '-' :: natDigits (n + 1)

def hexDigit (n : Nat) : Char :=
  if n < 10 then digitChar n else Char.ofNat (87 + n)

def hexDigits : Nat → Nat → Text
  | 0, _ => []
  | width + 1, n => hexDigits width (n / 16) ++ [hexDigit (n % 16)]

def ofDigits (values : List Nat) : Nat := values.foldl (fun n value => 10 * n + value) 0

def digitsOf (t : Text) : Nat := ofDigits (t.map fun c => c.toNat - 48)

def hexValue? (c : Char) : Option Nat :=
  if c.isDigit then some (c.toNat - 48)
  else if 'a' ≤ c ∧ c ≤ 'f' then some (c.toNat - 87)
  else if 'A' ≤ c ∧ c ≤ 'F' then some (c.toNat - 55)
  else none

def digitLimit : Nat := 4300

inductive NumeralError where
  | malformed
  | tooLong (digits : Nat)
  deriving DecidableEq, Repr

def takeMoreDigits (digit? : Char → Option Nat) : Text → Option (List Nat × Text)
  | [] => some ([], [])
  | '_' :: [] => none
  | '_' :: c :: rest =>
    match digit? c with
    | none => none
    | some value => (takeMoreDigits digit? rest).map fun taken => (value :: taken.1, taken.2)
  | c :: rest =>
    match digit? c with
    | none => some ([], c :: rest)
    | some value => (takeMoreDigits digit? rest).map fun taken => (value :: taken.1, taken.2)

/-- Takes digits with single underscores between them from the beginning of a text. Gives their
values and the rest, or `none` where an underscore is out of place. -/
def takeDigits (digit? : Char → Option Nat) : Text → Option (List Nat × Text)
  | [] => some ([], [])
  | '_' :: _ => none
  | c :: rest =>
    match digit? c with
    | none => some ([], c :: rest)
    | some value => (takeMoreDigits digit? rest).map fun taken => (value :: taken.1, taken.2)

def splitSign : Text → Bool × Text
  | '+' :: rest => (false, rest)
  | '-' :: rest => (true, rest)
  | t => (false, t)

def signed (negative : Bool) (n : Nat) : Int := if negative then -(n : Int) else n

/-- Reads an integer: spaces around it, a sign, and decimal digits of any script with single
underscores between them. A numeral that is too long is refused as such even before other
characters. -/
def readInt (t : Text) : Except NumeralError Int :=
  let (negative, body) := splitSign (t.dropWhile isSpace)
  match takeDigits digitValue? body with
  | none => .error .malformed
  | some ([], _) => .error .malformed
  | some (values, rest) =>
    if digitLimit < values.length then .error (.tooLong values.length)
    else if rest.dropWhile isSpace = [] then .ok (signed negative (ofDigits values))
    else .error .malformed

def tooLongMessage (digits : Nat) : Text :=
  "Exceeds the limit (".toList ++ natDigits digitLimit ++
    " digits) for integer string conversion: value has ".toList ++ natDigits digits ++
    " digits; use sys.set_int_max_str_digits() to increase the limit".toList

end BasicOutline.Text
