import BasicOutline.Record
import BasicOutline.Validation.IntText
import BasicOutline.Validation.Issue

/-! Checks of single values. What can only mean one value of a type is taken for it. -/

namespace BasicOutline.Validation

open Text

def wordBound : Int := 9223372036854775808

def falseWords : List Text :=
  ["0".toList, "off".toList, "f".toList, "false".toList, "n".toList, "no".toList]

def trueWords : List Text :=
  ["1".toList, "on".toList, "t".toList, "true".toList, "y".toList, "yes".toList]

def boolOfInt (inRange : Bool) (n : Int) : Except Problem Bool :=
  if n = 0 then .ok false
  else if n = 1 then .ok true
  else if inRange then .error .boolUnclear
  else .error .notBool

def boolOfWord (t : Text) : Except Problem Bool :=
  let word := t.map Char.toLower
  if falseWords.contains word then .ok false
  else if trueWords.contains word then .ok true
  else .error .boolUnclear

def boolOf : Json → Except Problem Bool
  | .bool value => .ok value
  | .int n => boolOfInt (-wordBound ≤ n && n < wordBound) n
  | .float x =>
    match x.toInt? with
    | some n => boolOfInt (-wordBound < n && n < wordBound) n
    | none => .error .notBool
  | .text t => boolOfWord t
  | _ => .error .notBool

def intOf : Json → Except Problem Int
  | .int n => .ok n
  | .bool value => .ok (if value then 1 else 0)
  | .float (.finite negative mantissa exponent) =>
    match (Double.finite negative mantissa exponent).toInt? with
    | some n => if -wordBound < n ∧ n < wordBound then .ok n else .error .intTooLarge
    | none => .error .fractional
  | .float _ => .error .notFinite
  | .text t =>
    match intOfText t with
    | .ok n => .ok n
    | .error .malformed => .error .intUnclear
    | .error (.tooLong _) => .error .intTooLarge
  | _ => .error .notInt

def natOf (value : Json) : Except Problem Nat := do
  match ← intOf value with
  | .ofNat n => .ok n
  | .negSucc _ => .error .negative

def textOf : Json → Except Problem Text
  | .text t => .ok t
  | _ => .error .notText

def optionalTextOf : Json → Except Problem (Option Text)
  | .null => .ok none
  | .text t => .ok (some t)
  | _ => .error .notText

def kindOf : Json → Except Problem Kind
  | .text t =>
    match Kind.ofName? t with
    | some kind => .ok kind
    | none => .error .notKind
  | _ => .error .notKind

def bool (value : Json) : Check Bool := .ofResult value (boolOf value)

def int (value : Json) : Check Int := .ofResult value (intOf value)

def nat (value : Json) : Check Nat := .ofResult value (natOf value)

def text (value : Json) : Check Text := .ofResult value (textOf value)

def optionalText (value : Json) : Check (Option Text) := .ofResult value (optionalTextOf value)

def kind (value : Json) : Check Kind := .ofResult value (kindOf value)

def list {α : Type} (check : Json → Check α) : Json → Check (List α)
  | .list items => .items check 0 items
  | input => .error [⟨.notList, [], input⟩]

end BasicOutline.Validation
