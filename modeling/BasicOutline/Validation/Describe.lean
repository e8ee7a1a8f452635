import BasicOutline.Number.Shortest
import BasicOutline.Text.Quoted
import BasicOutline.Text.Utf8
import BasicOutline.Validation.Issue

/-! How issues are told: the faulty values, and the text of a whole list of issues. -/

namespace BasicOutline.Validation

open Text

mutual

def showValue : Json → Text
  | .null => "None".toList
  | .bool value => if value then "True".toList else "False".toList
  | .int value => numeral value
  | .float value => value.render "inf".toList "nan".toList
  | .text value => quote value
  | .list items => '[' :: List.intercalate ", ".toList (showItems items) ++ [']']
  | .object fields => '\x7b' :: List.intercalate ", ".toList (showFields fields) ++ ['\x7d']

def showItems : List Json → List Text
  | [] => []
  | item :: rest => showValue item :: showItems rest

def showFields : List (Text × Json) → List Text
  | [] => []
  | (key, value) :: rest => (quote key ++ ": ".toList ++ showValue value) :: showFields rest

end

def typeName : Json → Text
  | .null => "NoneType".toList
  | .bool _ => "bool".toList
  | .int _ => "int".toList
  | .float _ => "float".toList
  | .text _ => "str".toList
  | .list _ => "list".toList
  | .object _ => "dict".toList

def takeBytes : Nat → Text → Text
  | _, [] => []
  | bytes, c :: rest =>
    if c.utf8Size ≤ bytes then c :: takeBytes (bytes - c.utf8Size) rest else []

/-- Shortens a text of more than 50 bytes to its first 25 and its last 24. -/
def abbreviate (t : Text) : Text :=
  if (Utf8.encode t).length ≤ 50 then t
  else takeBytes 25 t ++ "...".toList ++ (takeBytes 24 t.reverse).reverse

def Segment.text : Segment → Text
  | .field name => name
  | .item index => natDigits index

def Issue.describe (issue : Issue) : Text :=
  List.intercalate ['.'] (issue.location.map Segment.text) ++ "\n  ".toList ++
    issue.problem.message ++ " [type=".toList ++ issue.problem.code ++ ", input_value=".toList ++
    abbreviate (showValue issue.input) ++ ", input_type=".toList ++ typeName issue.input ++
    "]\n    For further information visit https://errors.pydantic.dev/2.14/v/".toList ++
    issue.problem.code

def headline (model : Text) (issues : List Issue) : Text :=
  natDigits issues.length ++ " validation error".toList ++
    (if issues.length = 1 then [] else ['s']) ++ " for ".toList ++ model

def describe (model : Text) (issues : List Issue) : Text :=
  List.intercalate ['\n'] (headline model issues :: issues.map Issue.describe)

end BasicOutline.Validation
