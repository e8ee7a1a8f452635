import BasicOutline.Json.Value

/-! Issues: what is wrong with a value, and where. -/

namespace BasicOutline.Validation

open Text

inductive Problem where
  /-- The value is no object, where one of the named model is asked for. -/
  | notModel (model : Text)
  | notAttributes
  | missing
  | boolUnclear
  | notBool
  | intUnclear
  | intTooLarge
  | fractional
  | notFinite
  | notInt
  | negative
  | notText
  | notKind
  | notList
  deriving DecidableEq, Repr

namespace Problem

def code : Problem → Text
  | .notModel _ => "model_type".toList
  | .notAttributes => "model_attributes_type".toList
  | .missing => "missing".toList
  | .boolUnclear => "bool_parsing".toList
  | .notBool => "bool_type".toList
  | .intUnclear => "int_parsing".toList
  | .intTooLarge => "int_parsing_size".toList
  | .fractional => "int_from_float".toList
  | .notFinite => "finite_number".toList
  | .notInt => "int_type".toList
  | .negative => "greater_than_equal".toList
  | .notText => "string_type".toList
  | .notKind => "enum".toList
  | .notList => "list_type".toList

def message : Problem → Text
  | .notModel model => "Input should be a valid dictionary or instance of ".toList ++ model
  | .notAttributes =>
    "Input should be a valid dictionary or object to extract fields from".toList
  | .missing => "Field required".toList
  | .boolUnclear => "Input should be a valid boolean, unable to interpret input".toList
  | .notBool => "Input should be a valid boolean".toList
  | .intUnclear =>
    "Input should be a valid integer, unable to parse string as an integer".toList
  | .intTooLarge =>
    "Unable to parse input string as an integer, exceeded maximum size".toList
  | .fractional =>
    "Input should be a valid integer, got a number with a fractional part".toList
  | .notFinite => "Input should be a finite number".toList
  | .notInt => "Input should be a valid integer".toList
  | .negative => "Input should be greater than or equal to 0".toList
  | .notText => "Input should be a valid string".toList
  | .notKind => "Input should be 'class', 'function' or 'field'".toList
  | .notList => "Input should be a valid list".toList

end Problem

inductive Segment where
  | field (name : Text)
  | item (index : Nat)
  deriving DecidableEq, Repr

structure Issue where
  problem : Problem
  location : List Segment
  input : Json
  deriving Repr

def Issue.under (segment : Segment) (issue : Issue) : Issue :=
  { issue with location := segment :: issue.location }

abbrev Check (α : Type) := Except (List Issue) α

namespace Check

def ofResult {α : Type} (input : Json) (result : Except Problem α) : Check α :=
  result.mapError fun problem => [⟨problem, [], input⟩]

def under {α : Type} (segment : Segment) (check : Check α) : Check α :=
  check.mapError fun issues => issues.map (Issue.under segment)

/-- Applies a checked function to a checked value; the issues of both are kept, in order. -/
def ap {α β : Type} (function : Check (α → β)) (check : Check α) : Check β :=
  match function, check with
  | .ok f, .ok a => .ok (f a)
  | .ok _, .error issues => .error issues
  | .error issues, .ok _ => .error issues
  | .error issues, .error more => .error (issues ++ more)

def items {α : Type} (check : Json → Check α) (start : Nat) : List Json → Check (List α)
  | [] => .ok []
  | item :: rest =>
    ap (((check item).under (.item start)).map List.cons) (items check (start + 1) rest)

def required {α : Type} (fields : Json.Fields) (key : Text) (check : Json → Check α) : Check α :=
  match fields.get? key with
  | some value => (check value).under (.field key)
  | none => .error [⟨.missing, [.field key], .object fields⟩]

def optional {α : Type} (fields : Json.Fields) (key : Text) (default : α)
    (check : Json → Check α) : Check α :=
  match fields.get? key with
  | some value => (check value).under (.field key)
  | none => .ok default

def object {α : Type} (problem : Problem) (check : Json.Fields → Check α) : Json → Check α
  | .object fields => check fields
  | input => .error [⟨problem, [], input⟩]

end Check

end BasicOutline.Validation
