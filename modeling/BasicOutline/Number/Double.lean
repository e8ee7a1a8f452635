import BasicOutline.Text.Numeral

/-! Binary floating-point numbers of double precision, as exact values. -/

namespace BasicOutline

/-- A finite number is `mantissa * 2 ^ exponent`, with the sign in front. -/
inductive Double where
  | finite (negative : Bool) (mantissa : Nat) (exponent : Int)
  | infinite (negative : Bool)
  | notANumber
  deriving DecidableEq, Repr

namespace Double

def leastExponent : Int := -1074

def greatestExponent : Int := 971

def mantissaBound : Nat := 9007199254740992

def zero (negative : Bool) : Double := .finite negative 0 leastExponent

def isFinite : Double → Bool
  | .finite .. => true
  | _ => false

def roundDiv (num den : Nat) : Nat :=
  let quotient := num / den
  let twice := 2 * (num % den)
  if twice < den then quotient
  else if den < twice then quotient + 1
  else quotient + quotient % 2

def inUnits (num den : Nat) (exponent : Int) : Nat × Nat :=
  if exponent < 0 then (num * Nat.pow 2 (-exponent).toNat, den)
  else (num, den * Nat.pow 2 exponent.toNat)

def exponentOf (num den : Nat) : Int :=
  let guess := max leastExponent ((num.log2 : Int) - den.log2 - 53)
  let (scaled, unit) := inUnits num den guess
  if scaled / unit < mantissaBound then guess else guess + 1

/-- The number nearest to the magnitude `num / den`; of two, the one with an even mantissa. -/
def nearest (negative : Bool) (num den : Nat) : Double :=
  let exponent := exponentOf num den
  let (scaled, unit) := inUnits num den exponent
  let mantissa := roundDiv scaled unit
  let (mantissa, exponent) :=
    if mantissa = mantissaBound then (mantissa / 2, exponent + 1) else (mantissa, exponent)
  if greatestExponent < exponent then .infinite negative else .finite negative mantissa exponent

/-- The number nearest to `digits * 10 ^ exponent`. Magnitudes far outside the range are settled
by their order alone. -/
def ofDecimal (negative : Bool) (digits : Nat) (exponent : Int) : Double :=
  let order := exponent + (Text.natDigits digits).length
  if digits = 0 ∨ order < -330 then zero negative
  else if 310 < order then .infinite negative
  else if exponent < 0 then nearest negative digits (Nat.pow 10 (-exponent).toNat)
  else nearest negative (digits * Nat.pow 10 exponent.toNat) 1

def fraction (mantissa : Nat) (exponent : Int) : Nat × Nat :=
  if exponent < 0 then (mantissa, Nat.pow 2 (-exponent).toNat)
  else (mantissa * Nat.pow 2 exponent.toNat, 1)

def toInt? : Double → Option Int
  | .finite negative mantissa exponent =>
    let (num, den) := fraction mantissa exponent
    if num % den = 0 then some (Text.signed negative (num / den)) else none
  | _ => none

end Double

end BasicOutline
