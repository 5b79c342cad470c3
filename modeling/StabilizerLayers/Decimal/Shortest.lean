import StabilizerLayers.Decimal.Basic

/-!
# Shortest decimals

A finite double is written with the fewest digits that read back as the same
double; of two such decimals the nearer one is taken, and of two equally near
ones the larger. The text is positional: it never has an exponent, an integer
has no point, and a negative zero keeps its sign.

A candidate is accepted only after it has been read back, and the last resort
is the exact value, so the text of a finite double names that double by
construction.
-/

namespace StabilizerLayers

namespace Binary64

/-- Of the two neighbours of a double on the grid of decimals with `exponent`,
    the one that reads back as the double. -/
def neighbour? (bits : Nat) (exponent : Int) : Option Decimal :=
  let numerator := units bits * tenTo (-exponent).toNat
  let unit := twoTo 1074 * tenTo exponent.toNat
  let lower : Decimal := ⟨numerator / unit, exponent⟩
  let upper : Decimal := ⟨numerator / unit + 1, exponent⟩
  let nearerFirst :=
    if 2 * (numerator % unit) < unit then [lower, upper] else [upper, lower]
  nearerFirst.find? fun candidate => candidate.toBits == bits

/-- Position of the leading digit: the double is below ten to this power and not
    below a tenth of that. -/
def leadingPlace (bits : Nat) : Int :=
  (Decimal.digitCount (units bits * tenTo 330 / twoTo 1074) : Int) - 330

/-- The exact value of a double as a decimal. -/
def exactDecimal (bits : Nat) : Decimal := ⟨units bits * Nat.pow 5 1074, -1074⟩

/-- The decimal with the fewest digits that reads back as the double. Seventeen
    digits always suffice; the exact value stands behind them. -/
def shortest (bits : Nat) : Decimal :=
  let place := leadingPlace bits
  ((List.range 17).findSome? fun (extra : Nat) => neighbour? bits (place - 1 - extra)).getD
    (exactDecimal bits)

end Binary64

namespace Decimal

/-- Digits of a decimal without an exponent: zeros fill the places up to the
    point, and zeros at the end of the fraction are dropped with the point if
    nothing is left behind it. -/
def positional (decimal : Decimal) : List Char :=
  let digits := Nat.toDigits 10 decimal.coefficient
  match decimal.exponent with
  | .ofNat power => digits ++ List.replicate power '0'
  | .negSucc power =>
    let places := power + 1
    let padded := List.replicate (places + 1 - digits.length) '0' ++ digits
    let whole := padded.take (padded.length - places)
    let fraction := ((padded.drop (padded.length - places)).reverse.dropWhile (· == '0')).reverse
    if fraction.isEmpty then whole else whole ++ '.' :: fraction

end Decimal

namespace Binary64

/-- Text of a nonnegative double given by its bit pattern. -/
def magnitudeText (bits : Nat) : String :=
  if bits = 0 then "0"
  else if bits = infinityBits then "inf"
  else String.ofList (shortest bits).positional

/-- Text of a double. -/
def text (value : Float) : String :=
  let bits := magnitudeBits value
  if infinityBits < bits then "NaN"
  else if isNegative value then "-" ++ magnitudeText bits
  else magnitudeText bits

end Binary64

end StabilizerLayers
