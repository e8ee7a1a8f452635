import BasicOutline.Text.Quoted

/-! Outline records: the declarations that a scan finds, and their entries, `display|line|kind`. -/

namespace BasicOutline

inductive Kind where
  | cls
  | function
  | field
  deriving DecidableEq, Repr

namespace Kind

def all : List Kind := [.cls, .function, .field]

def name : Kind → Text
  | .cls => "class".toList
  | .function => "function".toList
  | .field => "field".toList

def ofName? (name : Text) : Option Kind := all.find? fun kind => kind.name == name

theorem ofName?_name (kind : Kind) : ofName? kind.name = some kind := by
  cases kind <;> decide

end Kind

structure Record where
  display : Text
  line : Int
  kind : Kind
  deriving DecidableEq, Repr

namespace Record

def separator : Char := '|'

def toEntry (record : Record) : Text :=
  record.display ++ separator :: Text.numeral record.line ++ separator :: record.kind.name

inductive EntryError where
  /-- Only so many of the three parts are there. -/
  | missingParts (found : Nat)
  | malformedLine (text : Text)
  | lineTooLong (digits : Nat)
  | unknownKind (text : Text)
  deriving DecidableEq, Repr

def splitLast? (t : Text) : Option (Text × Text) :=
  match t.reverse.dropWhile (· != separator) with
  | _ :: before => some (before.reverse, (t.reverse.takeWhile (· != separator)).reverse)
  | [] => none

/-- The three parts of an entry. The text shown may itself hold separators, so the entry is split
from its end. -/
def parts (entry : Text) : Except EntryError (Text × Text × Text) :=
  match splitLast? entry with
  | none => .error (.missingParts 1)
  | some (before, kind) =>
    match splitLast? before with
    | none => .error (.missingParts 2)
    | some (display, line) => .ok (display, line, kind)

def ofEntry (entry : Text) : Except EntryError Record :=
  match parts entry with
  | .error error => .error error
  | .ok (display, line, kind) =>
    match Text.readInt line with
    | .error .malformed => .error (.malformedLine line)
    | .error (.tooLong digits) => .error (.lineTooLong digits)
    | .ok number =>
      match Kind.ofName? kind with
      | none => .error (.unknownKind kind)
      | some kind => .ok ⟨display, number, kind⟩

def quoteLimit : Nat := 200

def EntryError.message : EntryError → Text
  | .missingParts found =>
    "not enough values to unpack (expected 3, got ".toList ++ Text.natDigits found ++ ")".toList
  | .malformedLine text =>
    "invalid literal for int() with base 10: ".toList ++ (Text.quote text).take quoteLimit
  | .lineTooLong digits => Text.tooLongMessage digits
  | .unknownKind text => Text.quote text ++ " is not a valid RecordKind".toList

end Record

end BasicOutline
