import BasicOutline.Json.Value
import BasicOutline.Number.Shortest

/-! Writing JSON texts in ASCII, on one line or with a field to a line. -/

namespace BasicOutline.Json

open Text

def escapeUnit (n : Nat) : Text := '\\' :: 'u' :: hexDigits 4 n

def writeChar (c : Char) : Text :=
  if c == '"' || c == '\\' then ['\\', c]
  else if c == '\n' then ['\\', 'n']
  else if c == '\r' then ['\\', 'r']
  else if c == '\t' then ['\\', 't']
  else if c == '\x08' then ['\\', 'b']
  else if c == '\x0c' then ['\\', 'f']
  else if 32 ≤ c.toNat ∧ c.toNat < 127 then [c]
  else if c.toNat < 0x10000 then escapeUnit c.toNat
  else escapeUnit (0xD800 + (c.toNat - 0x10000) / 0x400) ++
    escapeUnit (0xDC00 + (c.toNat - 0x10000) % 0x400)

def writeString (t : Text) : Text := '"' :: t.flatMap writeChar ++ ['"']

def writeDouble (x : Double) : Text := x.render "Infinity".toList "NaN".toList

structure Layout where
  /-- What stands before an item at a depth, and before the closing bracket. -/
  lineBreak : Nat → Text
  /-- What stands after a comma and before the break. -/
  afterComma : Text

def Layout.compact : Layout := ⟨fun _ => [], [' ']⟩

def Layout.indented : Layout := ⟨fun depth => '\n' :: spaces (2 * depth), []⟩

def bracket (layout : Layout) (depth : Nat) (opening closing : Char) : List Text → Text
  | [] => [opening, closing]
  | items =>
    opening :: layout.lineBreak (depth + 1) ++
      List.intercalate (',' :: layout.afterComma ++ layout.lineBreak (depth + 1)) items ++
      layout.lineBreak depth ++ [closing]

mutual

def write (layout : Layout) (depth : Nat) : Json → Text
  | .null => "null".toList
  | .bool value => if value then "true".toList else "false".toList
  | .int value => numeral value
  | .float value => writeDouble value
  | .text value => writeString value
  | .list items => bracket layout depth '[' ']' (writeItems layout (depth + 1) items)
  | .object fields => bracket layout depth '\x7b' '\x7d' (writeFields layout (depth + 1) fields)

def writeItems (layout : Layout) (depth : Nat) : List Json → List Text
  | [] => []
  | item :: rest => write layout depth item :: writeItems layout depth rest

def writeFields (layout : Layout) (depth : Nat) : List (Text × Json) → List Text
  | [] => []
  | (key, value) :: rest =>
    (writeString key ++ ": ".toList ++ write layout depth value) :: writeFields layout depth rest

end

def compact (value : Json) : Text := write .compact 0 value

def indented (value : Json) : Text := write .indented 0 value

end BasicOutline.Json
