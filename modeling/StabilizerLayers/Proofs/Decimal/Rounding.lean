import StabilizerLayers.Decimal.Shortest

/-!
# Rounding to the nearest double

The double nearest to a quotient depends on the quotient alone, and a double is nearest
to itself: its number of units leads back to its pattern. Hence so does its exact value
in decimal, and since every shorter candidate is read back before it is taken, so does
the shortest decimal.

Whole numbers below 2^64 are not rounded above it and those from it on are not rounded
below it, so the pattern `limitBits` of 2^64 separates the doubles below it.
-/

namespace StabilizerLayers

/-! ### Powers -/

/-- Powers of two are positive. -/
theorem twoTo_pos (exponent : Nat) : 0 < twoTo exponent := Nat.two_pow_pos exponent

/-- Exponents of two are added. -/
theorem twoTo_add (first second : Nat) : twoTo (first + second) = twoTo first * twoTo second :=
  Nat.pow_add 2 first second

/-- Powers of two grow with the exponent. -/
theorem twoTo_le_twoTo {first second : Nat} (le : first ≤ second) : twoTo first ≤ twoTo second :=
  Nat.pow_le_pow_right (by decide) le

/-- The leading bit of a number. -/
theorem le_log2_iff {number exponent : Nat} (nonzero : number ≠ 0) :
    exponent ≤ number.log2 ↔ twoTo exponent ≤ number := Nat.le_log2 nonzero

/-- A number is below a power of two exactly if its logarithm is below the exponent. -/
theorem log2_lt_iff {number exponent : Nat} (nonzero : number ≠ 0) :
    number.log2 < exponent ↔ number < twoTo exponent := Nat.log2_lt nonzero

/-- Powers of ten are positive. -/
theorem tenTo_pos (exponent : Nat) : 0 < tenTo exponent := Nat.pow_pos (by decide)

/-- Exponents of ten are added. -/
theorem tenTo_add (first second : Nat) : tenTo (first + second) = tenTo first * tenTo second :=
  Nat.pow_add 10 first second

/-- A power of ten is a power of five times one of two. -/
theorem exists_tenTo_eq (exponent : Nat) :
    ∃ fives, Nat.pow 5 exponent = fives ∧ tenTo exponent = fives * twoTo exponent :=
  ⟨Nat.pow 5 exponent, rfl, Nat.mul_pow 5 2 exponent⟩

namespace Binary64

/-! ### Rounding a quotient -/

/-- A quotient is rounded to one of the two numbers next to it. -/
theorem roundQuotient_bounds (numerator denominator : Nat) :
    numerator / denominator ≤ roundQuotient numerator denominator ∧
      roundQuotient numerator denominator ≤ numerator / denominator + 1 := by
  simp only [roundQuotient]
  split
  · omega
  · split
    · omega
    · have parity := Nat.mod_lt (numerator / denominator) (show 0 < 2 by decide)
      omega

/-- Rounding depends on the quotient alone. -/
theorem roundQuotient_mul {factor : Nat} (positive : 0 < factor) (numerator denominator : Nat) :
    roundQuotient (factor * numerator) (factor * denominator) =
      roundQuotient numerator denominator := by
  have scaled : 2 * (factor * (numerator % denominator)) =
      factor * (2 * (numerator % denominator)) := Nat.mul_left_comm _ _ _
  simp only [roundQuotient, Nat.mul_div_mul_left _ _ positive, Nat.mul_mod_mul_left, scaled,
    Nat.mul_lt_mul_left positive]

/-- A whole quotient is not changed. -/
theorem roundQuotient_exact {denominator : Nat} (positive : 0 < denominator) (quotient : Nat) :
    roundQuotient (quotient * denominator) denominator = quotient := by
  simp only [roundQuotient, Nat.mul_div_cancel _ positive, Nat.mul_mod_left, Nat.mul_zero,
    if_pos positive]

/-- A quotient is not rounded across a whole number below it. -/
theorem le_roundQuotient {quotient numerator denominator : Nat} (positive : 0 < denominator)
    (le : quotient * denominator ≤ numerator) : quotient ≤ roundQuotient numerator denominator :=
  Nat.le_trans ((Nat.le_div_iff_mul_le positive).mpr le) (roundQuotient_bounds _ _).1

/-- A quotient is not rounded across a whole number above it. -/
theorem roundQuotient_le {quotient numerator denominator : Nat} (positive : 0 < denominator)
    (le : numerator < quotient * denominator) : roundQuotient numerator denominator ≤ quotient := by
  have below := (Nat.div_lt_iff_lt_mul positive).mpr le
  have bound := (roundQuotient_bounds numerator denominator).2
  omega

/-! ### The nearest double -/

/-- The nearest double depends on the quotient alone. -/
theorem nearestBits_mul {factor : Nat} (positive : 0 < factor) (numerator denominator : Nat) :
    nearestBits (factor * numerator) (factor * denominator) =
      nearestBits numerator denominator := by
  simp only [nearestBits, Nat.mul_assoc, Nat.mul_div_mul_left _ _ positive,
    roundQuotient_mul positive]

/-- Equal fractions have one nearest double. -/
theorem nearestBits_eq_of_mul_eq {numerator denominator other divisor : Nat}
    (positive : 0 < denominator) (otherPositive : 0 < divisor)
    (same : numerator * divisor = other * denominator) :
    nearestBits numerator denominator = nearestBits other divisor := by
  rw [← nearestBits_mul otherPositive numerator, ← nearestBits_mul positive other,
    Nat.mul_comm divisor numerator, same, Nat.mul_comm other, Nat.mul_comm divisor]

/-- The pattern of 2^64. -/
def limitBits : Nat := 1087 * twoTo 52

/-- Units with their leading bit at a place or above it are rounded into the binade of
    that place or above it. -/
theorem le_roundUnits {units place : Nat} (nonzero : units ≠ 0) (wide : place + 52 ≤ units.log2) :
    (place + 1) * twoTo 52 ≤
      (units.log2 - 52) * twoTo 52 + roundQuotient units (twoTo (units.log2 - 52)) := by
  have quotient : twoTo 52 * twoTo (units.log2 - 52) ≤ units := by
    rw [← twoTo_add, ← le_log2_iff nonzero]
    omega
  have rounded := le_roundQuotient (twoTo_pos _) quotient
  have shifted : place * twoTo 52 ≤ (units.log2 - 52) * twoTo 52 :=
    Nat.mul_le_mul_right _ (by omega)
  rw [Nat.succ_mul]
  omega

/-- Units with their leading bit at a place or below it are rounded to the end of the
    binade of that place at most. -/
theorem roundUnits_le {units place : Nat} (narrow : units.log2 ≤ place + 52) :
    (units.log2 - 52) * twoTo 52 + roundQuotient units (twoTo (units.log2 - 52)) ≤
      (place + 2) * twoTo 52 := by
  have quotient : units < twoTo 53 * twoTo (units.log2 - 52) := by
    rw [← twoTo_add]
    by_cases zero : units = 0
    · rw [zero]
      exact twoTo_pos _
    · rw [← log2_lt_iff zero]
      omega
  have rounded := roundQuotient_le (twoTo_pos _) quotient
  have shifted : (units.log2 - 52) * twoTo 52 ≤ place * twoTo 52 :=
    Nat.mul_le_mul_right _ (by omega)
  have double : twoTo 53 = 2 * twoTo 52 := by decide
  rw [Nat.add_mul, ← double]
  exact Nat.add_le_add shifted rounded

/-- A whole number in units. -/
theorem nearestBits_one (number : Nat) :
    nearestBits number 1 =
      min (((number * twoTo 1074).log2 - 52) * twoTo 52 +
        roundQuotient (number * twoTo 1074) (twoTo ((number * twoTo 1074).log2 - 52)))
        infinityBits := by
  simp only [nearestBits, Nat.div_one, Nat.one_mul]

/-- Numbers from 2^64 on are not rounded below it. -/
theorem limitBits_le_nearestBits {number : Nat} (large : twoTo 64 ≤ number) :
    limitBits ≤ nearestBits number 1 := by
  have units : twoTo (1086 + 52) ≤ number * twoTo 1074 := by
    rw [show 1086 + 52 = 64 + 1074 from rfl, twoTo_add]
    exact Nat.mul_le_mul_right _ large
  have nonzero : number * twoTo 1074 ≠ 0 :=
    Nat.ne_of_gt (Nat.lt_of_lt_of_le (twoTo_pos _) units)
  rw [nearestBits_one]
  exact Nat.le_min.mpr
    ⟨le_roundUnits nonzero ((le_log2_iff nonzero).mpr units), by decide⟩

/-- Numbers below 2^64 are not rounded above it. -/
theorem nearestBits_le_limitBits {number : Nat} (small : number < twoTo 64) :
    nearestBits number 1 ≤ limitBits := by
  have units : number * twoTo 1074 < twoTo (1085 + 53) := by
    rw [show 1085 + 53 = 64 + 1074 from rfl, twoTo_add]
    exact Nat.mul_lt_mul_of_pos_right small (twoTo_pos 1074)
  have narrow : (number * twoTo 1074).log2 ≤ 1085 + 52 := by
    by_cases zero : number * twoTo 1074 = 0
    · rw [zero]
      decide
    · exact Nat.le_of_lt_succ ((log2_lt_iff zero).mpr units)
  rw [nearestBits_one]
  exact Nat.le_trans (Nat.min_le_left _ _) (roundUnits_le narrow)

/-- A number of units. -/
theorem nearestBits_twoTo (amount : Nat) :
    nearestBits amount (twoTo 1074) =
      min ((amount.log2 - 52) * twoTo 52 + roundQuotient amount (twoTo (amount.log2 - 52)))
        infinityBits := by
  simp only [nearestBits, Nat.mul_div_cancel _ (twoTo_pos 1074)]
  rw [Nat.mul_comm amount, roundQuotient_mul (twoTo_pos 1074)]

/-- Whole multiples of a power of two are rounded to themselves. -/
theorem roundUnits_exact {units significand shift : Nat}
    (product : units = significand * twoTo shift) (width : units.log2 - 52 = shift) :
    (units.log2 - 52) * twoTo 52 + roundQuotient units (twoTo (units.log2 - 52)) =
      shift * twoTo 52 + significand := by
  rw [width, product, roundQuotient_exact (twoTo_pos shift)]

/-- The number of units of a double leads back to it. -/
theorem nearestBits_units {bits : Nat} (finite : bits < infinityBits) :
    nearestBits (units bits) (twoTo 1074) = bits := by
  have parts := Nat.div_add_mod bits (twoTo 52)
  have fraction : bits % twoTo 52 < twoTo 52 := Nat.mod_lt _ (twoTo_pos 52)
  rw [nearestBits_twoTo, units]
  -- Subnormal numbers have no leading bit, and their units are their fraction.
  by_cases small : bits / twoTo 52 = 0
  · have narrow : (bits % twoTo 52).log2 - 52 = 0 := by
      by_cases zero : bits % twoTo 52 = 0
      · rw [zero]
        decide
      · have width := (log2_lt_iff zero).mpr fraction
        omega
    rw [if_pos small]
    rw [roundUnits_exact (Nat.mul_one _).symm narrow]
    rw [small] at parts
    omega
  · obtain ⟨place, field⟩ := Nat.exists_eq_succ_of_ne_zero small
    rw [if_neg small, field, Nat.succ_sub_one]
    have nonzero : (bits % twoTo 52 + twoTo 52) * twoTo place ≠ 0 :=
      Nat.ne_of_gt (Nat.mul_pos (by omega) (twoTo_pos _))
    have wide : 52 + place ≤ ((bits % twoTo 52 + twoTo 52) * twoTo place).log2 := by
      rw [le_log2_iff nonzero, twoTo_add]
      exact Nat.mul_le_mul_right _ (by omega)
    have narrow : ((bits % twoTo 52 + twoTo 52) * twoTo place).log2 < 53 + place := by
      rw [log2_lt_iff nonzero, twoTo_add]
      refine Nat.mul_lt_mul_of_pos_right ?_ (twoTo_pos _)
      have double : twoTo 53 = twoTo 52 + twoTo 52 := by decide
      omega
    rw [roundUnits_exact rfl (by omega)]
    rw [field, Nat.mul_succ, Nat.mul_comm] at parts
    omega

end Binary64

/-! ### The double nearest to a decimal -/

namespace Decimal

/-- A power of ten adds zeros at the end. -/
theorem toDigits_mul_tenTo {number : Nat} (positive : 0 < number) (places : Nat) :
    Nat.toDigits 10 (number * tenTo places) =
      Nat.toDigits 10 number ++ List.replicate places '0' := by
  induction places with
  | zero =>
    rw [show tenTo 0 = 1 from rfl, Nat.mul_one]
    exact (List.append_nil _).symm
  | succ places inductionHypothesis =>
    have more : number * tenTo (places + 1) = 10 * (number * tenTo places) + 0 := by
      rw [tenTo_add, show tenTo 1 = 10 from rfl, ← Nat.mul_assoc, Nat.mul_comm, Nat.add_zero]
    rw [more, ← Nat.toDigits_append_toDigits (by decide)
      (Nat.mul_pos positive (tenTo_pos places)) (by decide), inductionHypothesis,
      List.append_assoc, List.replicate_succ']
    rfl

/-- Each factor of ten adds a digit. -/
theorem digitCount_mul_tenTo {number : Nat} (positive : 0 < number) (places : Nat) :
    digitCount (number * tenTo places) = digitCount number + places := by
  rw [digitCount, toDigits_mul_tenTo positive, List.length_append, List.length_replicate,
    digitCount]

/-- The number of digits bounds a number. -/
theorem digitCount_le_iff {number places : Nat} (positive : 0 < places) :
    digitCount number ≤ places ↔ number < tenTo places :=
  Nat.length_toDigits_le_iff (by decide) positive

/-- The nearest double of a decimal whose size is not out of range. -/
theorem toBits_of_size {coefficient : Nat} {exponent : Int} (nonzero : coefficient ≠ 0)
    (large : -400 ≤ (digitCount coefficient : Int) + exponent)
    (small : (digitCount coefficient : Int) + exponent ≤ 400) :
    toBits ⟨coefficient, exponent⟩ =
      Binary64.nearestBits (coefficient * tenTo exponent.toNat) (tenTo (-exponent).toNat) := by
  simp only [toBits]
  rw [if_neg (by omega), if_neg (by omega)]
  cases exponent with
  | ofNat power =>
    have none : (-Int.ofNat power).toNat = 0 := by
      simp only [Int.ofNat_eq_natCast]
      omega
    rw [none, Int.ofNat_eq_natCast, Int.toNat_natCast, show tenTo 0 = 1 from rfl]
  | negSucc power =>
    rw [Int.toNat_negSucc, Int.neg_negSucc, show tenTo 0 = 1 from rfl, Nat.mul_one]
    rfl

/-- Zeros at the end of the digits do not change the number. -/
theorem toBits_rescaled (coefficient : Nat) (exponent : Int) (places : Nat) :
    toBits ⟨coefficient * tenTo places, exponent - places⟩ = toBits ⟨coefficient, exponent⟩ := by
  by_cases zero : coefficient = 0
  · subst zero
    simp only [toBits, Nat.zero_mul, true_or, if_true]
  · have count := digitCount_mul_tenTo (Nat.pos_of_ne_zero zero) places
    have size : (digitCount (coefficient * tenTo places) : Int) + (exponent - places) =
        digitCount coefficient + exponent := by
      omega
    have nonzero : coefficient * tenTo places ≠ 0 :=
      Nat.ne_of_gt (Nat.mul_pos (Nat.pos_of_ne_zero zero) (tenTo_pos places))
    by_cases inRange : -400 ≤ (digitCount coefficient : Int) + exponent ∧
        (digitCount coefficient : Int) + exponent ≤ 400
    · rw [toBits_of_size nonzero (by omega) (by omega),
        toBits_of_size zero inRange.1 inRange.2]
      have powers : places + (exponent - places).toNat + (-exponent).toNat =
          exponent.toNat + (-(exponent - places)).toNat := by
        omega
      refine Binary64.nearestBits_eq_of_mul_eq (tenTo_pos _) (tenTo_pos _) ?_
      calc coefficient * tenTo places * tenTo (exponent - places).toNat * tenTo (-exponent).toNat
        _ = coefficient * tenTo (places + (exponent - places).toNat + (-exponent).toNat) := by
          simp only [tenTo_add, Nat.mul_assoc]
        _ = coefficient * tenTo exponent.toNat * tenTo (-(exponent - places)).toNat := by
          rw [powers, tenTo_add, Nat.mul_assoc]
    · -- Both decimals are so large or so small that their digits are not looked at.
      simp only [toBits, size, nonzero, zero, false_or]
      split
      · rfl
      · rw [if_pos (by omega), if_pos (by omega)]

end Decimal

/-! ### Units -/

namespace Binary64

/-- A double that is not zero has units. -/
theorem units_ne_zero {bits : Nat} (nonzero : bits ≠ 0) : units bits ≠ 0 := by
  have parts := Nat.div_add_mod bits (twoTo 52)
  have positive := twoTo_pos 52
  rw [units]
  by_cases small : bits / twoTo 52 = 0
  · rw [small, Nat.mul_zero, Nat.zero_add] at parts
    rwa [if_pos small, parts]
  · rw [if_neg small]
    exact Nat.ne_of_gt (Nat.mul_pos (by omega) (twoTo_pos _))

/-- Finite doubles are below 2^1024. -/
theorem units_lt {bits : Nat} (finite : bits < infinityBits) :
    units bits < twoTo (1024 + 1074) := by
  have fraction : bits % twoTo 52 < twoTo 52 := Nat.mod_lt _ (twoTo_pos 52)
  have field : bits / twoTo 52 < 2047 := Nat.div_lt_of_lt_mul (by rwa [Nat.mul_comm])
  rw [units]
  split
  · exact Nat.lt_of_lt_of_le fraction (twoTo_le_twoTo (by decide))
  · have double : twoTo 53 = twoTo 52 + twoTo 52 := by decide
    calc (bits % twoTo 52 + twoTo 52) * twoTo (bits / twoTo 52 - 1)
      _ < twoTo 53 * twoTo (bits / twoTo 52 - 1) :=
        Nat.mul_lt_mul_of_pos_right (by omega) (twoTo_pos _)
      _ = twoTo (53 + (bits / twoTo 52 - 1)) := (twoTo_add _ _).symm
      _ ≤ twoTo (1024 + 1074) := twoTo_le_twoTo (by omega)

/-- The limit is 2^64 in units of 2^-1074. -/
theorem units_limitBits : units limitBits = twoTo (64 + 1074) := by
  have field : limitBits / twoTo 52 = 1087 := by decide
  have fraction : limitBits % twoTo 52 = 0 := by decide
  rw [units, field, fraction, if_neg (by decide), Nat.zero_add, ← twoTo_add]

/-- Finite doubles below 2^64 are told by their units or by their patterns. -/
theorem units_lt_iff {bits : Nat} (finite : bits < infinityBits) :
    units bits < twoTo (64 + 1074) ↔ bits < limitBits := by
  have back := nearestBits_units finite
  rw [nearestBits_twoTo] at back
  constructor
  · intro few
    have narrow : (units bits).log2 ≤ 1085 + 52 := by
      by_cases zero : units bits = 0
      · rw [zero]
        decide
      · exact Nat.le_of_lt_succ ((log2_lt_iff zero).mpr few)
    have most := Nat.le_trans (Nat.min_le_left _ infinityBits) (roundUnits_le narrow)
    rw [back] at most
    refine Nat.lt_of_le_of_ne most fun same => ?_
    rw [same, units_limitBits] at few
    exact Nat.lt_irrefl _ few
  · intro below
    apply Nat.lt_of_not_le
    intro many
    have nonzero : units bits ≠ 0 := Nat.ne_of_gt (Nat.lt_of_lt_of_le (twoTo_pos _) many)
    have wide : 1086 + 52 ≤ (units bits).log2 := (le_log2_iff nonzero).mpr many
    have finiteLimit : limitBits ≤ infinityBits := by decide
    have least := Nat.le_min.mpr ⟨le_roundUnits nonzero wide, finiteLimit⟩
    rw [back] at least
    exact absurd below (Nat.not_lt.mpr least)

/-- Whether a double is finite and its magnitude is below 2^64. -/
def IsSmall (value : Float) : Prop :=
  magnitudeBits value < infinityBits ∧ units (magnitudeBits value) < twoTo (64 + 1074)

instance : DecidablePred IsSmall := fun value =>
  inferInstanceAs (Decidable (magnitudeBits value < infinityBits ∧
    units (magnitudeBits value) < twoTo (64 + 1074)))

/-- A double is small exactly if its magnitude is below the limit. -/
theorem isSmall_iff {value : Float} : IsSmall value ↔ magnitudeBits value < limitBits := by
  constructor
  · rintro ⟨finite, few⟩
    exact (units_lt_iff finite).mp few
  · intro small
    have finite : magnitudeBits value < infinityBits := Nat.lt_trans small (by decide)
    exact ⟨finite, (units_lt_iff finite).mpr small⟩

/-! ### Shortest decimals -/

/-- The exact value of a double is nearest to it. -/
theorem toBits_exactDecimal {bits : Nat} (nonzero : bits ≠ 0) (finite : bits < infinityBits) :
    (exactDecimal bits).toBits = bits := by
  obtain ⟨scale, fives, tens⟩ := exists_tenTo_eq 1074
  have least : tenTo 673 ≤ scale := by
    rw [← fives]
    decide +kernel
  have most : twoTo (1024 + 1074) * scale ≤ tenTo 1474 := by
    rw [← fives]
    decide +kernel
  have some := units_ne_zero nonzero
  have positive : 0 < scale := Nat.lt_of_lt_of_le (tenTo_pos 673) least
  have large : 673 < Decimal.digitCount (units bits * scale) := by
    apply Nat.lt_of_not_le
    rw [Decimal.digitCount_le_iff (by decide), Nat.not_lt]
    exact Nat.le_trans least (Nat.le_mul_of_pos_left _ (Nat.pos_of_ne_zero some))
  have small : Decimal.digitCount (units bits * scale) ≤ 1474 := by
    rw [Decimal.digitCount_le_iff (by decide)]
    exact Nat.lt_of_lt_of_le (Nat.mul_lt_mul_of_pos_right (units_lt finite) positive) most
  rw [exactDecimal, fives,
    Decimal.toBits_of_size (Nat.mul_ne_zero some (Nat.ne_of_gt positive)) (by omega) (by omega)]
  calc nearestBits (units bits * scale * tenTo 0) (tenTo 1074)
    _ = nearestBits (scale * units bits) (scale * twoTo 1074) := by
      rw [tens, show tenTo 0 = 1 from rfl, Nat.mul_one, Nat.mul_comm]
    _ = bits := by rw [nearestBits_mul positive, nearestBits_units finite]

/-- A neighbour is only taken if it reads back. -/
theorem toBits_of_neighbour? {bits : Nat} {exponent : Int} {decimal : Decimal}
    (found : neighbour? bits exponent = some decimal) : decimal.toBits = bits := by
  rw [neighbour?] at found
  have reads := List.find?_some found
  exact eq_of_beq reads

/-- The shortest decimal of a double reads back as the double. -/
theorem toBits_shortest {bits : Nat} (nonzero : bits ≠ 0) (finite : bits < infinityBits) :
    (shortest bits).toBits = bits := by
  simp only [shortest]
  cases found : (List.range 17).findSome?
    fun (extra : Nat) => neighbour? bits (leadingPlace bits - 1 - extra) with
  | none => exact toBits_exactDecimal nonzero finite
  | some decimal =>
    obtain ⟨extra, -, neighbour⟩ := List.exists_of_findSome?_eq_some found
    exact toBits_of_neighbour? neighbour

end Binary64

end StabilizerLayers
