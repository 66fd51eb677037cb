import ScriptCheck.Number.Basic

/-!
# Reading decimal numbers

A decimal denotes the binary64 value nearest to it. Of two equally near values
the one with the even significand is taken, and what lies beyond the largest
finite value is infinite.
-/

namespace ScriptCheck.Number

/-- The natural number nearest to a quotient, the even one of two equally near. -/
def nearest (numerator denominator : Nat) : Nat :=
  let quotient := numerator / denominator
  let rest := numerator % denominator
  if 2 * rest < denominator then quotient
  else if denominator < 2 * rest then quotient + 1
  else if quotient % 2 = 0 then quotient
  else quotient + 1

/-- `numerator / (denominator * 2 ^ exponent)` as a single fraction. -/
def scaleDown (numerator denominator : Nat) : Int → Nat × Nat
  | .ofNat power => (numerator, denominator * powerOfTwo power)
  | .negSucc below => (numerator * powerOfTwo (below + 1), denominator)

/-- Largest power of two, by exponent, that is at most a positive fraction. -/
def topPower (numerator denominator : Nat) : Int :=
  let guess : Int := (numerator.log2 : Int) - (denominator.log2 : Int)
  let scaled := scaleDown numerator denominator guess
  if scaled.2 ≤ scaled.1 then guess else guess - 1

/-- The value nearest to a fraction with the given sign. -/
def ofFraction (negative : Bool) (numerator denominator : Nat) : Number :=
  if numerator = 0 then zero negative
  else
    let exponent := max (topPower numerator denominator - 52) leastExponent
    let scaled := scaleDown numerator denominator exponent
    let rounded := nearest scaled.1 scaled.2
    let significand := if rounded = powerOfTwo 53 then powerOfTwo 52 else rounded
    let settled := if rounded = powerOfTwo 53 then exponent + 1 else exponent
    if greatestExponent < settled then infinite negative
    else finite negative significand settled

/-- Number of decimal digits of a natural number. -/
def digitCount (value : Nat) : Nat := (Nat.toDigits 10 value).length

/-- The value nearest to `digits * 10 ^ exponent`. Decimals far outside the range
of finite values are settled before any power of ten is computed. -/
def ofDecimal (negative : Bool) (digits : Nat) (exponent : Int) : Number :=
  if digits = 0 then zero negative
  else if 400 < exponent then infinite negative
  else if exponent + digitCount digits < -400 then zero negative
  else
    match exponent with
    | .ofNat power => ofFraction negative (digits * powerOfTen power) 1
    | .negSucc below => ofFraction negative digits (powerOfTen (below + 1))

/-- Value of a list of ASCII decimal digits, most significant first. -/
def digitsValue (digits : List Char) : Nat :=
  digits.foldl (fun value digit => 10 * value + (digit.toNat - '0'.toNat)) 0

/-- The value of a literal with the given whole digits, fraction digits and
written exponent. -/
def ofParts (negative : Bool) (whole fraction : List Char) (exponent : Int) : Number :=
  ofDecimal negative (digitsValue (whole ++ fraction)) (exponent - fraction.length)

/-- The exponent part `e…` of a decimal, or zero where nothing is left. -/
def exponentOf? : List Char → Option Int
  | [] => some 0
  | mark :: rest =>
    if mark.toLower = 'e' then
      let negative := rest.head? == some '-'
      let digits := if negative || rest.head? == some '+' then rest.drop 1 else rest
      if digits.isEmpty || !digits.all Char.isDigit then none
      else
        let value : Int := digitsValue digits
        some (if negative then -value else value)
    else none

/-- Reads an unsigned number: digits with an optional point and exponent, where
at least one digit stands before the exponent, or one of the words `inf`,
`infinity` and `nan` in any case. -/
def unsigned? (negative : Bool) (chars : List Char) : Option Number :=
  match String.ofList (chars.map Char.toLower) with
  | "inf" => some (infinite negative)
  | "infinity" => some (infinite negative)
  | "nan" => some nan
  | _ =>
    let whole := chars.takeWhile Char.isDigit
    let afterWhole := chars.dropWhile Char.isDigit
    let pointed := afterWhole.head? == some '.'
    let fraction := if pointed then (afterWhole.drop 1).takeWhile Char.isDigit else []
    let rest := if pointed then (afterWhole.drop 1).dropWhile Char.isDigit else afterWhole
    if whole.isEmpty && fraction.isEmpty then none
    else (exponentOf? rest).map (ofParts negative whole fraction)

/-- Reads a number with an optional sign. -/
def ofText? (text : String) : Option Number :=
  match text.toList with
  | '-' :: rest => unsigned? true rest
  | '+' :: rest => unsigned? false rest
  | chars => unsigned? false chars

end ScriptCheck.Number
