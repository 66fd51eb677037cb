import ScriptCheck.Number.Reading

/-!
# Writing numbers

A finite number is written with the fewest significant digits that read back to
it. Of two such decimals the nearer one is taken, and the larger one when both
are equally near. The notation is always positional.
-/

namespace ScriptCheck.Number

/-- A positive decimal `digits * 10 ^ power`. -/
structure Decimal where
  /-- All digits as one natural number. -/
  digits : Nat
  /-- Power of ten they are multiplied by. -/
  power : Int
deriving DecidableEq

/-- A positive binary value `significand * 2 ^ exponent` as a fraction, and the
ends of the interval of reals that round to it, all in quarters of a unit. -/
structure Interval where
  /-- Four times the value's numerator. -/
  center : Nat
  /-- Four times the lower end's numerator. -/
  low : Nat
  /-- Four times the upper end's numerator. -/
  high : Nat
  /-- Four times the common denominator. -/
  denominator : Nat
  /-- Whether the ends themselves round to the value. -/
  inclusive : Bool

/-- The interval of reals that round to `significand * 2 ^ exponent`. Below a power
of two the neighbouring values are twice as dense. -/
def Interval.of (significand : Nat) (exponent : Int) : Interval :=
  let below := if significand = powerOfTwo 52 ∧ leastExponent < exponent then 1 else 2
  let scaled := scaleDown 1 1 (-exponent)
  let up := scaled.1
  let down := scaled.2
  { center := 4 * significand * up
    low := (4 * significand - below) * up
    high := (4 * significand + 2) * up
    denominator := 4 * down
    inclusive := significand % 2 == 0 }

/-- Compares a fraction, given by numerator and denominator, with a decimal. -/
def Decimal.compareFraction (decimal : Decimal) (numerator denominator : Nat) : Ordering :=
  match decimal.power with
  | .ofNat power => compare numerator (decimal.digits * powerOfTen power * denominator)
  | .negSucc below => compare (numerator * powerOfTen (below + 1)) (decimal.digits * denominator)

/-- Whether the decimal lies in the interval. -/
def Interval.admits (interval : Interval) (decimal : Decimal) : Bool :=
  let low := decimal.compareFraction interval.low interval.denominator
  let high := decimal.compareFraction interval.high interval.denominator
  (low == .lt || (low == .eq && interval.inclusive)) &&
    (high == .gt || (high == .eq && interval.inclusive))

/-- Digits of the largest multiple of `10 ^ power` that is at most the value. -/
def Interval.floorDigits (interval : Interval) : Int → Nat
  | .ofNat power => interval.center / (interval.denominator * powerOfTen power)
  | .negSucc below => interval.center * powerOfTen (below + 1) / interval.denominator

/-- Least power of ten, by exponent, that exceeds the value. -/
def Interval.decimalOrder (interval : Interval) : Int :=
  if interval.denominator ≤ interval.center then
    (digitCount (interval.center / interval.denominator) : Int)
  else
    match (List.range 400).find? fun shift =>
        decide (interval.denominator ≤ interval.center * powerOfTen (shift + 1)) with
    | some shift => -(shift : Int)
    | none => -400

/-- The decimal with `count` significant digits that reads back to the value, if
there is one. A neighbour that is a power of ten is written with one digit less. -/
def Interval.withDigits? (interval : Interval) (count : Nat) : Option Decimal :=
  let power := interval.decimalOrder - count
  let digits := interval.floorDigits power
  let lower : Decimal := ⟨digits, power⟩
  let upper : Decimal :=
    if digits + 1 = powerOfTen count then ⟨powerOfTen (count - 1), power + 1⟩
    else ⟨digits + 1, power⟩
  let middle : Decimal := ⟨2 * digits + 1, power⟩
  match interval.admits lower, interval.admits upper with
  | true, true =>
    some (if middle.compareFraction (2 * interval.center) interval.denominator == .lt then lower
      else upper)
  | true, false => some lower
  | false, true => some upper
  | false, false => none

/-- The shortest decimal that reads back to a positive finite value. Seventeen
significant digits always suffice. -/
def shortest (significand : Nat) (exponent : Int) : Decimal :=
  let interval := Interval.of significand exponent
  match (List.range 17).findSome? fun index => interval.withDigits? (index + 1) with
  | some decimal => decimal
  | none => ⟨0, 0⟩

/-- A run of zeros. -/
def zeros (count : Nat) : String := String.ofList (List.replicate count '0')

/-- Positional notation of a decimal, without a point where no fraction is left. -/
def Decimal.text (decimal : Decimal) : String :=
  let digits := Nat.toDigits 10 decimal.digits
  match decimal.power with
  | .ofNat power => String.ofList digits ++ zeros power
  | .negSucc below =>
    let places := below + 1
    if digits.length ≤ places then
      "0." ++ zeros (places - digits.length) ++ String.ofList digits
    else
      String.ofList (digits.take (digits.length - places)) ++ "." ++
        String.ofList (digits.drop (digits.length - places))

/-- Written form of a number. The negative zero keeps its sign. -/
def text : Number → String
  | nan => "NaN"
  | infinite negative => if negative then "-inf" else "inf"
  | finite negative significand exponent =>
    let magnitude := if significand = 0 then "0" else (shortest significand exponent).text
    if negative then "-" ++ magnitude else magnitude

end ScriptCheck.Number
