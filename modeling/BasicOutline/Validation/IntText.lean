import BasicOutline.Text.Numeral

/-! Integers given as texts: exact numerals, and looser ones that are cleaned first. -/

namespace BasicOutline.Validation

open Text

/-- Reads an exact numeral: a minus or none, and ASCII digits without zeros in front. One that
takes up more than `digitLimit` characters is refused as such, even before other characters. -/
def exactInt (t : Text) : Except NumeralError Int :=
  let negative := t.head? = some '-'
  let body := if negative then t.tail else t
  let digits := body.takeWhile Char.isDigit
  let length := t.length - (body.dropWhile Char.isDigit).length
  if digits = [] ∨ (digits.head? = some '0' ∧ digits ≠ ['0']) then .error .malformed
  else if digitLimit < length then .error (.tooLong digits.length)
  else if length = t.length then .ok (signed negative (digitsOf digits))
  else .error .malformed

/-- Drops zeros in front, with the underscores among them, where a digit, a minus or a point
follows; of zeros alone the last character stays. -/
def dropLeadingZeros : Text → Option Text
  | [] => none
  | first :: rest =>
    if first = '0' then
      let inZeros := fun c => c == '0' || c == '_'
      let last := ((first :: rest.takeWhile inZeros).getLast?).getD '0'
      match rest.dropWhile inZeros with
      | [] => some [last]
      | c :: more =>
        if c = '.' then some (last :: c :: more)
        else if c.isDigit || c == '-' then some (c :: more)
        else none
    else if first.isDigit then some (first :: rest)
    else none

def dropZeroPlaces (t : Text) : Text :=
  match t.dropWhile (· != '.') with
  | _ :: places =>
    if !places.isEmpty && places.all (· == '0') then t.takeWhile (· != '.') else t
  | [] => t

def dropUnderscores (t : Text) : Text :=
  if t.head? = some '_' ∨ t.getLast? = some '_' ∨ occurs "__".toList t then t
  else t.filter (· != '_')

/-- The exact numeral that a looser one is read as: the sign is set aside while the digits are
cleaned, and of the signs a minus comes back. -/
def cleanNumeral (t : Text) : Option Text := do
  let (negative, body) := splitSign (trimWhile isSpace t)
  let digits := dropUnderscores (dropZeroPlaces (← dropLeadingZeros body))
  return if negative then '-' :: digits else digits

def intOfText (t : Text) : Except NumeralError Int :=
  match exactInt t with
  | .error .malformed =>
    match (cleanNumeral t).map exactInt with
    | some (.ok n) => .ok n
    | _ => .error .malformed
  | result => result

end BasicOutline.Validation
