import BasicOutline.Json.Value
import BasicOutline.Text.Encoding

/-! Reading JSON texts, with the place and the reason of the first error. -/

namespace BasicOutline.Json

open Text

inductive Problem where
  | byteOrderMark
  | value
  | propertyName
  | colon
  | comma
  | extraData
  | unterminatedString
  | controlCharacter
  | escape
  | unicodeEscape
  deriving DecidableEq, Repr

def Problem.message : Problem → Text
  | .byteOrderMark => "Unexpected UTF-8 BOM (decode using utf-8-sig)".toList
  | .value => "Expecting value".toList
  | .propertyName => "Expecting property name enclosed in double quotes".toList
  | .colon => "Expecting ':' delimiter".toList
  | .comma => "Expecting ',' delimiter".toList
  | .extraData => "Extra data".toList
  | .unterminatedString => "Unterminated string starting at".toList
  | .controlCharacter => "Invalid control character at".toList
  | .escape => "Invalid \\escape".toList
  | .unicodeEscape => "Invalid \\uXXXX escape".toList

/-- What stops a reading. A problem is noted with the text that is left at it. -/
inductive Stop where
  | problem (problem : Problem) (rest : Text)
  | tooManyDigits (count : Nat)
  deriving DecidableEq, Repr

abbrev Reading (α : Type) := Except Stop (α × Text)

def isSeparator (c : Char) : Bool := c == ' ' || c == '\t' || c == '\n' || c == '\r'

def skipBlanks (t : Text) : Text := t.dropWhile isSeparator

def hexCode? (a b c d : Char) : Option Nat := do
  return (((← hexValue? a) * 16 + (← hexValue? b)) * 16 + (← hexValue? c)) * 16 + (← hexValue? d)

def escaped? : Char → Option Char
  | '"' => some '"'
  | '\\' => some '\\'
  | '/' => some '/'
  | 'b' => some '\x08'
  | 'f' => some '\x0c'
  | 'n' => some '\n'
  | 'r' => some '\r'
  | 't' => some '\t'
  | _ => none

/-- The codes of a string's characters up to its closing quote. `opening` is the text from the
opening quote on. -/
def readCodes (opening : Text) : Text → Reading (List Nat)
  | [] => .error (.problem .unterminatedString opening)
  | '"' :: rest => .ok ([], rest)
  | ['\\'] => .error (.problem .unterminatedString opening)
  | '\\' :: 'u' :: a :: b :: c :: d :: e :: rest =>
    match hexCode? a b c d with
    | none => .error (.problem .unicodeEscape ('u' :: a :: b :: c :: d :: e :: rest))
    | some code => (readCodes opening (e :: rest)).map fun read => (code :: read.1, read.2)
  | '\\' :: 'u' :: rest => .error (.problem .unicodeEscape ('u' :: rest))
  | '\\' :: c :: rest =>
    match escaped? c with
    | none => .error (.problem .escape ('\\' :: c :: rest))
    | some plain => (readCodes opening rest).map fun read => (plain.toNat :: read.1, read.2)
  | c :: rest =>
    if c.toNat < 32 then .error (.problem .controlCharacter (c :: rest))
    else (readCodes opening rest).map fun read => (c.toNat :: read.1, read.2)

def readString (opening : Text) : Reading Text :=
  (readCodes opening opening.tail).map fun read => (ofCodes read.1, read.2)

def splitFraction : Text → Text × Text
  | '.' :: c :: rest =>
    if c.isDigit then ((c :: rest).takeWhile Char.isDigit, (c :: rest).dropWhile Char.isDigit)
    else ([], '.' :: c :: rest)
  | t => ([], t)

def splitExponent (t : Text) : Option Int × Text :=
  match t with
  | mark :: rest =>
    let (negative, body) := splitSign rest
    let digits := body.takeWhile Char.isDigit
    if (mark == 'e' || mark == 'E') && !digits.isEmpty then
      (some (signed negative (digitsOf digits)), body.dropWhile Char.isDigit)
    else (none, t)
  | [] => (none, t)

def readNumber (t : Text) : Reading Json :=
  let (negative, body) := match t with
    | '-' :: rest => (true, rest)
    | _ => (false, t)
  let (whole, rest) := match body with
    | '0' :: rest => (['0'], rest)
    | _ => (body.takeWhile Char.isDigit, body.dropWhile Char.isDigit)
  if whole.isEmpty then .error (.problem .value t)
  else
    let (places, rest) := splitFraction rest
    let (exponent, rest) := splitExponent rest
    if places.isEmpty && exponent.isNone then
      if digitLimit < whole.length then .error (.tooManyDigits whole.length)
      else .ok (.int (signed negative (digitsOf whole)), rest)
    else
      .ok (.float (Double.ofDecimal negative (digitsOf (whole ++ places))
        (exponent.getD 0 - places.length)), rest)

def constants : List (Text × Json) :=
  [("null".toList, .null), ("true".toList, .bool true), ("false".toList, .bool false),
    ("NaN".toList, .float .notANumber), ("Infinity".toList, .float (.infinite false)),
    ("-Infinity".toList, .float (.infinite true))]

def readScalar (t : Text) : Reading Json :=
  match constants.find? fun constant => constant.1.isPrefixOf t with
  | some (word, value) => .ok (value, t.drop word.length)
  | none => readNumber t

mutual

/-- Reads a value. Every call spends one unit of `fuel`. -/
def readValue (fuel : Nat) (t : Text) : Reading Json :=
  match fuel, t with
  | 0, _ => .error (.problem .value t)
  | _ + 1, '"' :: _ => (readString t).map fun read => (.text read.1, read.2)
  | fuel + 1, '\x7b' :: rest =>
    match skipBlanks rest with
    | '\x7d' :: after => .ok (.object [], after)
    | fields => (readFields fuel [] fields).map fun read => (.object read.1, read.2)
  | fuel + 1, '[' :: rest =>
    match skipBlanks rest with
    | ']' :: after => .ok (.list [], after)
    | items => (readItems fuel items).map fun read => (.list read.1, read.2)
  | _ + 1, _ => readScalar t

def readFields (fuel : Nat) (fields : Fields) (t : Text) : Reading Fields :=
  match fuel, t with
  | 0, _ => .error (.problem .value t)
  | fuel + 1, '"' :: _ => Except.bind (readString t) fun key =>
    match skipBlanks key.2 with
    | ':' :: rest => Except.bind (readValue fuel (skipBlanks rest)) fun value =>
      match skipBlanks value.2 with
      | '\x7d' :: after => .ok (fields.put key.1 value.1, after)
      | ',' :: rest => readFields fuel (fields.put key.1 value.1) (skipBlanks rest)
      | rest => .error (.problem .comma rest)
    | rest => .error (.problem .colon rest)
  | _ + 1, _ => .error (.problem .propertyName t)

def readItems (fuel : Nat) (t : Text) : Reading (List Json) :=
  match fuel with
  | 0 => .error (.problem .value t)
  | fuel + 1 => Except.bind (readValue fuel t) fun item =>
    match skipBlanks item.2 with
    | ']' :: after => .ok ([item.1], after)
    | ',' :: rest =>
      (readItems fuel (skipBlanks rest)).map fun read => (item.1 :: read.1, read.2)
    | rest => .error (.problem .comma rest)

end

def readText (t : Text) : Except Stop Json :=
  if t.head? = some '\uFEFF' then .error (.problem .byteOrderMark t)
  else
    match readValue (2 * t.length + 2) (skipBlanks t) with
    | .error stop => .error stop
    | .ok (value, rest) =>
      if skipBlanks rest = [] then .ok value else .error (.problem .extraData (skipBlanks rest))

inductive ReadError where
  | problem (problem : Problem) (position line column : Nat)
  | tooManyDigits (count : Nat)
  deriving DecidableEq, Repr

def locate (t : Text) (position : Nat) : Nat × Nat :=
  let before := t.take position
  (before.count '\n' + 1, (before.reverse.takeWhile (· != '\n')).length + 1)

def Stop.toError (t : Text) : Stop → ReadError
  | .problem found rest =>
    let position := t.length - rest.length
    let (line, column) := locate t position
    .problem found position line column
  | .tooManyDigits count => .tooManyDigits count

def ReadError.message : ReadError → Text
  | .problem found position line column =>
    found.message ++ ": line ".toList ++ natDigits line ++ " column ".toList ++ natDigits column ++
      " (char ".toList ++ natDigits position ++ ")".toList
  | .tooManyDigits count => tooLongMessage count

def read (t : Text) : Except ReadError Json := (readText t).mapError (Stop.toError t)

end BasicOutline.Json
