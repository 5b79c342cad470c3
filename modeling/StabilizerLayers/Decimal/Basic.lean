/-!
# Decimal numbers and the nearest double

Arguments of instructions are IEEE doubles, written and read in decimal. This
module rounds a decimal to the nearest double, a tie going to the even
significand.

Everything is exact arithmetic on natural numbers. A nonnegative double is
counted in units of 2^-1074, the smallest positive one: its bit pattern
`shift * 2^52 + significand` stands for `significand * 2^shift` units, where
`significand < 2^53`, and a carry out of the significand moves to the next
binade by itself.
-/

namespace StabilizerLayers

/-- The number `coefficient * 10^exponent`. -/
structure Decimal where
  coefficient : Nat
  exponent : Int
deriving DecidableEq, Repr

/-- A power of two. -/
def twoTo (exponent : Nat) : Nat := Nat.pow 2 exponent

/-- A power of ten. -/
def tenTo (exponent : Nat) : Nat := Nat.pow 10 exponent

namespace Binary64

/-- Bit pattern of positive infinity; larger patterns below the sign are not
    numbers. -/
def infinityBits : Nat := 2047 * twoTo 52

/-- The quotient rounded to the nearest natural number, a tie to the even one. -/
def roundQuotient (numerator denominator : Nat) : Nat :=
  let quotient := numerator / denominator
  let doubled := 2 * (numerator % denominator)
  if doubled < denominator then quotient
  else if denominator < doubled then quotient + 1
  else quotient + quotient % 2

/-- Bit pattern of the double nearest to a nonnegative quotient. -/
def nearestBits (numerator denominator : Nat) : Nat :=
  let units := numerator * twoTo 1074
  let shift := (units / denominator).log2 - 52
  min (shift * twoTo 52 + roundQuotient units (denominator * twoTo shift)) infinityBits

/-- Number of units of 2^-1074 in the double with a finite bit pattern. -/
def units (bits : Nat) : Nat :=
  let field := bits / twoTo 52
  let fraction := bits % twoTo 52
  if field = 0 then fraction else (fraction + twoTo 52) * twoTo (field - 1)

/-- Whether the sign bit is set. -/
def isNegative (value : Float) : Bool := value.toBits.toNat ≥ twoTo 63

/-- Bit pattern without the sign. -/
def magnitudeBits (value : Float) : Nat := value.toBits.toNat % twoTo 63

end Binary64

namespace Decimal

/-- Number of decimal digits of a natural number. -/
def digitCount (number : Nat) : Nat := (Nat.toDigits 10 number).length

/-- Bit pattern of the nearest double. Numbers far outside the range of doubles
    are settled by their size alone, so no huge power is computed for them. -/
def toBits (decimal : Decimal) : Nat :=
  let size : Int := digitCount decimal.coefficient + decimal.exponent
  if decimal.coefficient = 0 ∨ size < -400 then 0
  else if 400 < size then Binary64.infinityBits
  else
    match decimal.exponent with
    | .ofNat power => Binary64.nearestBits (decimal.coefficient * tenTo power) 1
    | .negSucc power => Binary64.nearestBits decimal.coefficient (tenTo (power + 1))

/-- The nearest double. -/
def toFloat (decimal : Decimal) : Float := Float.ofBits (UInt64.ofNat decimal.toBits)

/-- The number written with these digits before and after the point and this
    power of ten. -/
def ofDigits (whole fraction : List Char) (exponent : Int) : Decimal where
  coefficient := Nat.ofDigitChars 10 (whole ++ fraction) 0
  exponent := exponent - fraction.length

/-- Splits off the leading decimal digits. -/
def spanDigits (characters : List Char) : List Char × List Char :=
  characters.span Char.isDigit

/-- Reads an exponent mark `e` or `E` with an optional sign and at least one
    digit, and returns what follows it. -/
def exponent? : List Char → Option (Int × List Char)
  | mark :: rest =>
    if mark = 'e' ∨ mark = 'E' then
      let (negative, unsigned) :=
        match rest with
        | '-' :: digits => (true, digits)
        | '+' :: digits => (false, digits)
        | digits => (false, digits)
      match spanDigits unsigned with
      | ([], _) => none
      | (digits, rest) =>
        let power : Int := Nat.ofDigitChars 10 digits 0
        some (if negative then -power else power, rest)
    else none
  | [] => none

/-- Reads a whole text as an unsigned decimal: digits with at most one point,
    at least one digit, and an optional exponent. -/
def ofChars? (characters : List Char) : Option Decimal :=
  let (whole, afterWhole) := spanDigits characters
  let (fraction, afterFraction) :=
    match afterWhole with
    | '.' :: rest => spanDigits rest
    | rest => ([], rest)
  if whole.isEmpty && fraction.isEmpty then none
  else
    match afterFraction with
    | [] => some (ofDigits whole fraction 0)
    | rest =>
      match exponent? rest with
      | some (power, []) => some (ofDigits whole fraction power)
      | _ => none

end Decimal

namespace Binary64

/-- Reads a double: an optional sign, then a decimal or a word for infinity or
    for no number at all, in any letter case. -/
def ofText? (text : String) : Option Float :=
  let (negative, unsigned) :=
    match text.toList with
    | '-' :: rest => (true, rest)
    | '+' :: rest => (false, rest)
    | rest => (false, rest)
  let magnitude : Option Float :=
    match String.ofList (unsigned.map Char.toLower) with
    | "inf" | "infinity" => some (Float.ofBits (UInt64.ofNat infinityBits))
    | "nan" => some (Float.ofBits (UInt64.ofNat (infinityBits + twoTo 51)))
    | _ => (Decimal.ofChars? unsigned).map Decimal.toFloat
  magnitude.map fun value => if negative then -value else value

end Binary64

end StabilizerLayers
