/-!
# Numbers

Number literals denote binary64 values. A finite value is a sign, a natural
significand and a power of two, so comparing, reading and writing one is exact
natural-number arithmetic.
-/

namespace ScriptCheck

/-- A binary64 value. A finite one is in normal form: the significand is below
`2 ^ 53`, and at least `2 ^ 52` unless the exponent is the least one. -/
inductive Number where
  /-- Not a number. -/
  | nan
  /-- An infinity of either sign. -/
  | infinite (negative : Bool)
  /-- The value `± significand * 2 ^ exponent`. -/
  | finite (negative : Bool) (significand : Nat) (exponent : Int)
deriving DecidableEq, Inhabited

namespace Number

/-- Two to the given power. -/
def powerOfTwo (power : Nat) : Nat := Nat.pow 2 power

/-- Ten to the given power. -/
def powerOfTen (power : Nat) : Nat := Nat.pow 10 power

/-- Exponent of the smallest positive value, shared by both zeros. -/
def leastExponent : Int := -1074

/-- Largest exponent of a finite value. -/
def greatestExponent : Int := 971

/-- Zero of the given sign. -/
def zero (negative : Bool) : Number := .finite negative 0 leastExponent

/-- The value with its sign changed. -/
def negate : Number → Number
  | nan => nan
  | infinite negative => infinite (!negative)
  | finite negative significand exponent => finite (!negative) significand exponent

/-- Equality of values: the two zeros are equal, and `nan` equals nothing. Finite values
are in normal form, so they are equal only part by part. -/
def equals : Number → Number → Bool
  | infinite left, infinite right => left == right
  | finite leftSign leftSignificand leftExponent,
      finite rightSign rightSignificand rightExponent =>
    leftSignificand == rightSignificand && leftExponent == rightExponent &&
      (leftSign == rightSign || leftSignificand == 0)
  | _, _ => false

instance : BEq Number := ⟨equals⟩

/-- The natural number equal to this value, if there is one. -/
def toNat? : Number → Option Nat
  | finite negative significand exponent =>
    if significand = 0 then some 0
    else if negative then none
    else
      match exponent with
      | .ofNat power => some (significand * powerOfTwo power)
      | .negSucc below =>
        let divisor := powerOfTwo (below + 1)
        if significand % divisor = 0 then some (significand / divisor) else none
  | _ => none

end Number

end ScriptCheck
