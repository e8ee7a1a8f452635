import BasicOutline.Number.Double

/-! The shortest decimals of floating-point numbers, and how they are written. -/

namespace BasicOutline.Double

def decimalOrder (num den : Nat) : Int :=
  if den ≤ num then (Text.natDigits (num / den)).length
  else
    match (List.range 400).find? fun places => den ≤ num * Nat.pow 10 (places + 1) with
    | some places => -(places : Int)
    | none => -400

def inTens (num den : Nat) (exponent : Int) : Nat × Nat :=
  if exponent < 0 then (num * Nat.pow 10 (-exponent).toNat, den)
  else (num, den * Nat.pow 10 exponent.toNat)

structure Decimal where
  digits : Nat
  exponent : Int
  deriving DecidableEq, Repr

/-- The neighbours of a magnitude among the decimals with `count` digits that read back as it, the
nearer one first. -/
def readBack (mantissa : Nat) (exponent : Int) (count : Nat) : List Decimal :=
  let (num, den) := fraction mantissa exponent
  let unit := decimalOrder num den - count
  let (scaled, one) := inTens num den unit
  let below := scaled / one
  let rounded := roundDiv scaled one
  let candidates := if rounded = below then [below, below + 1] else [below + 1, below]
  (candidates.filter fun digits =>
    ofDecimal false digits unit == .finite false mantissa exponent).map (⟨·, unit⟩)

def shortest (mantissa : Nat) (exponent : Int) : Decimal :=
  ((List.range 17).findSome? fun count => (readBack mantissa exponent (count + 1)).head?).getD
    ⟨0, 0⟩

def positional (digits : Text) (order : Int) : Text :=
  if order ≤ 0 then "0.".toList ++ List.replicate (-order).toNat '0' ++ digits
  else if digits.length ≤ order.toNat then
    digits ++ List.replicate (order.toNat - digits.length) '0' ++ ".0".toList
  else digits.take order.toNat ++ '.' :: digits.drop order.toNat

def scientific (digits : Text) (order : Int) : Text :=
  let power := order - 1
  let places := Text.natDigits power.natAbs
  digits.take 1 ++ (if digits.length ≤ 1 then [] else '.' :: digits.drop 1) ++
    'e' :: (if power < 0 then '-' else '+') :: (if places.length < 2 then '0' :: places else places)

/-- Positional from `10 ^ -4` on and below `10 ^ 16`, scientific elsewhere. -/
def magnitudeText (mantissa : Nat) (exponent : Int) : Text :=
  if mantissa = 0 then "0.0".toList
  else
    let decimal := shortest mantissa exponent
    let digits := Text.natDigits decimal.digits
    let order := decimal.exponent + digits.length
    let kept := Text.trimEndWhile (· == '0') digits
    if -4 < order ∧ order ≤ 16 then positional kept order else scientific kept order

def render (infinity nan : Text) : Double → Text
  | .finite negative mantissa exponent =>
    (if negative then ['-'] else []) ++ magnitudeText mantissa exponent
  | .infinite negative => (if negative then ['-'] else []) ++ infinity
  | .notANumber => nan

end BasicOutline.Double
