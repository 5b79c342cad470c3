import StabilizerLayers.Proofs.Decimal.Rounding

/-!
# Positional decimals

The text of a decimal without an exponent is a whole part of at least one digit and,
unless nothing is left of it, a point and a fraction. Filling up with zeros and dropping
zeros at the end moves powers of ten between the digits and the exponent, so both parts
together still stand for the decimal, and for a finite double they name that double.

Doubles from 2^64 on are whole numbers. They are written without a fraction, and the
number that is written is not below 2^64 either.
-/

namespace StabilizerLayers

namespace Decimal

/-! ### Whole part and fraction -/

/-- Digits of a coefficient, with zeros in front up to the place before the point. -/
def paddedDigits (coefficient places : Nat) : List Char :=
  List.replicate (places + 1 - digitCount coefficient) '0' ++ Nat.toDigits 10 coefficient

/-- Digits without the zeros at their end. -/
def withoutFinalZeros (digits : List Char) : List Char :=
  (digits.reverse.dropWhile (· == '0')).reverse

/-- Padded digits before the point. -/
def wholePart (coefficient places : Nat) : List Char :=
  (paddedDigits coefficient places).take ((paddedDigits coefficient places).length - places)

/-- Padded digits behind the point. -/
def fractionPart (coefficient places : Nat) : List Char :=
  withoutFinalZeros
    ((paddedDigits coefficient places).drop ((paddedDigits coefficient places).length - places))

/-- Digits before the point. -/
def wholeDigits (decimal : Decimal) : List Char :=
  match decimal.exponent with
  | .ofNat power => Nat.toDigits 10 decimal.coefficient ++ List.replicate power '0'
  | .negSucc power => wholePart decimal.coefficient (power + 1)

/-- Digits behind the point. -/
def fractionDigits (decimal : Decimal) : List Char :=
  match decimal.exponent with
  | .ofNat _ => []
  | .negSucc power => fractionPart decimal.coefficient (power + 1)

/-- A point with the digits behind it, and nothing where there are none. -/
def pointed : List Char → List Char
  | [] => []
  | first :: rest => '.' :: first :: rest

/-- A decimal is written with its digits before the point and those behind it. -/
theorem positional_eq (decimal : Decimal) :
    decimal.positional = decimal.wholeDigits ++ pointed decimal.fractionDigits := by
  obtain ⟨coefficient, power | power⟩ := decimal
  · exact (List.append_nil _).symm
  · change (if (fractionPart coefficient (power + 1)).isEmpty then wholePart coefficient (power + 1)
        else wholePart coefficient (power + 1) ++ '.' :: fractionPart coefficient (power + 1)) =
      wholePart coefficient (power + 1) ++ pointed (fractionPart coefficient (power + 1))
    cases fractionPart coefficient (power + 1) with
    | nil => exact (List.append_nil _).symm
    | cons first rest => rfl

/-! ### Digits -/

/-- Padded digits are decimal digits. -/
theorem isDigit_of_mem_paddedDigits {coefficient places : Nat} {character : Char}
    (member : character ∈ paddedDigits coefficient places) : character.isDigit = true := by
  obtain zero | digit := List.mem_append.mp member
  · rw [(List.mem_replicate.mp zero).2]
    decide
  · exact Nat.isDigit_of_mem_toDigits (by decide) (by decide) digit

/-- Leaving final zeros out adds no digit. -/
theorem mem_of_mem_withoutFinalZeros {digits : List Char} {character : Char}
    (member : character ∈ withoutFinalZeros digits) : character ∈ digits := by
  have dropped := (List.dropWhile_sublist _).mem (List.mem_reverse.mp member)
  exact List.mem_reverse.mp dropped

/-- Only zeros are dropped. -/
theorem exists_withoutFinalZeros_append (digits : List Char) :
    ∃ dropped, digits = withoutFinalZeros digits ++ List.replicate dropped '0' := by
  refine ⟨(digits.reverse.takeWhile (· == '0')).length, ?_⟩
  have zeros : digits.reverse.takeWhile (· == '0') =
      List.replicate (digits.reverse.takeWhile (· == '0')).length '0' := by
    refine List.eq_replicate_iff.mpr ⟨rfl, ?_⟩
    intro character member
    exact eq_of_beq (List.all_eq_true.mp List.all_takeWhile character member)
  have parts := List.takeWhile_append_dropWhile (p := (· == '0')) (l := digits.reverse)
  rw [zeros] at parts
  have reversed := congrArg List.reverse parts
  rw [List.reverse_append, List.reverse_reverse, List.reverse_replicate] at reversed
  exact reversed.symm

/-- Digits are padded to one more than the places behind the point. -/
theorem length_paddedDigits (coefficient places : Nat) :
    (paddedDigits coefficient places).length =
      places + 1 - digitCount coefficient + digitCount coefficient := by
  rw [paddedDigits, List.length_append, List.length_replicate, digitCount]

/-- What stands before the point are decimal digits. -/
theorem isDigit_of_mem_wholeDigits {decimal : Decimal} {character : Char}
    (member : character ∈ decimal.wholeDigits) : character.isDigit = true := by
  obtain ⟨coefficient, power | power⟩ := decimal
  · obtain digit | zero := List.mem_append.mp member
    · exact Nat.isDigit_of_mem_toDigits (by decide) (by decide) digit
    · rw [(List.mem_replicate.mp zero).2]
      decide
  · exact isDigit_of_mem_paddedDigits (List.mem_of_mem_take member)

/-- What stands behind the point are decimal digits. -/
theorem isDigit_of_mem_fractionDigits {decimal : Decimal} {character : Char}
    (member : character ∈ decimal.fractionDigits) : character.isDigit = true := by
  obtain ⟨coefficient, power | power⟩ := decimal
  · exact absurd member List.not_mem_nil
  · exact isDigit_of_mem_paddedDigits (List.mem_of_mem_drop (mem_of_mem_withoutFinalZeros member))

/-- Some digit stands before the point. -/
theorem wholeDigits_ne_nil (decimal : Decimal) : decimal.wholeDigits ≠ [] := by
  obtain ⟨coefficient, power | power⟩ := decimal
  · exact fun empty => Nat.toDigits_ne_nil (List.append_eq_nil_iff.mp empty).1
  · intro empty
    have taken : (wholePart coefficient (power + 1)).length = 0 := congrArg List.length empty
    have length := length_paddedDigits coefficient (power + 1)
    rw [wholePart, List.length_take] at taken
    omega

/-! ### Value -/

/-- Zeros at the end multiply by a power of ten. -/
theorem ofDigitChars_append_zeros (digits : List Char) (places : Nat) :
    Nat.ofDigitChars 10 (digits ++ List.replicate places '0') 0 =
      Nat.ofDigitChars 10 digits 0 * tenTo places := by
  rw [Nat.ofDigitChars_append, Nat.ofDigitChars_replicate_zero]
  exact Nat.mul_comm _ _

/-- Padding does not change the number. -/
theorem ofDigitChars_paddedDigits (coefficient places : Nat) :
    Nat.ofDigitChars 10 (paddedDigits coefficient places) 0 = coefficient := by
  rw [paddedDigits, Nat.ofDigitChars_append, Nat.ofDigitChars_replicate_zero, Nat.mul_zero,
    Nat.ofDigitChars_ten_toDigits]

/-- The digits behind the point take all places but those of the zeros dropped, and these
    zeros are what the number loses. -/
theorem exists_dropped (coefficient places : Nat) :
    ∃ dropped, (fractionPart coefficient places).length + dropped = places ∧
      Nat.ofDigitChars 10 (wholePart coefficient places ++ fractionPart coefficient places) 0 *
        tenTo dropped = coefficient := by
  obtain ⟨dropped, fraction⟩ := exists_withoutFinalZeros_append
    ((paddedDigits coefficient places).drop ((paddedDigits coefficient places).length - places))
  refine ⟨dropped, ?_, ?_⟩
  · have length := length_paddedDigits coefficient places
    have behind := congrArg List.length fraction
    rw [List.length_drop, List.length_append, List.length_replicate] at behind
    rw [fractionPart]
    omega
  · calc Nat.ofDigitChars 10 (wholePart coefficient places ++ fractionPart coefficient places) 0 *
          tenTo dropped
      _ = Nat.ofDigitChars 10 (wholePart coefficient places ++
            (fractionPart coefficient places ++ List.replicate dropped '0')) 0 := by
        rw [← ofDigitChars_append_zeros, List.append_assoc]
      _ = Nat.ofDigitChars 10 (paddedDigits coefficient places) 0 := by
        rw [fractionPart, ← fraction, wholePart, List.take_append_drop]
      _ = coefficient := ofDigitChars_paddedDigits coefficient places

/-- Whole part and fraction stand for the decimal. -/
theorem toBits_ofDigits_parts (decimal : Decimal) :
    (ofDigits decimal.wholeDigits decimal.fractionDigits 0).toBits = decimal.toBits := by
  obtain ⟨coefficient, power | power⟩ := decimal
  · have digits : ofDigits (wholeDigits ⟨coefficient, .ofNat power⟩)
        (fractionDigits ⟨coefficient, .ofNat power⟩) 0 =
          ⟨coefficient * tenTo power, (power : Int) - power⟩ := by
      simp only [ofDigits, wholeDigits, fractionDigits, List.append_nil, ofDigitChars_append_zeros,
        Nat.ofDigitChars_ten_toDigits, List.length_nil, mk.injEq, true_and]
      omega
    rw [digits, toBits_rescaled]
    rfl
  · obtain ⟨dropped, places, value⟩ := exists_dropped coefficient (power + 1)
    have exponent : (0 : Int) - (fractionPart coefficient (power + 1)).length - dropped =
        .negSucc power := by
      omega
    calc (ofDigits (wholePart coefficient (power + 1)) (fractionPart coefficient (power + 1))
          0).toBits
      _ = toBits ⟨Nat.ofDigitChars 10 (wholePart coefficient (power + 1) ++
            fractionPart coefficient (power + 1)) 0 * tenTo dropped,
          0 - (fractionPart coefficient (power + 1)).length - dropped⟩ :=
        (toBits_rescaled _ _ dropped).symm
      _ = toBits ⟨coefficient, .negSucc power⟩ := by rw [exponent, value]

/-- A decimal that is a whole number has no fraction. -/
theorem fractionDigits_eq_nil {number : Nat} (positive : 0 < number) (power : Nat) :
    fractionDigits ⟨number * tenTo (power + 1), .negSucc power⟩ = [] := by
  have digits := toDigits_mul_tenTo positive (power + 1)
  have padded : paddedDigits (number * tenTo (power + 1)) (power + 1) =
      Nat.toDigits 10 number ++ List.replicate (power + 1) '0' := by
    have count : power + 1 + 1 - digitCount (number * tenTo (power + 1)) = 0 := by
      have some : digitCount number ≠ 0 := fun none =>
        Nat.toDigits_ne_nil (List.length_eq_zero_iff.mp none)
      rw [digitCount_mul_tenTo positive]
      omega
    rw [paddedDigits, count, digits]
    rfl
  simp only [fractionDigits, fractionPart, padded, List.length_append, List.length_replicate,
    Nat.add_sub_cancel, List.drop_left, withoutFinalZeros, List.reverse_replicate,
    List.dropWhile_replicate]
  rfl

/-! ### Whole numbers around 2^64 -/

/-- A whole number is rounded, or is infinite if it has more than 400 digits. -/
theorem toBits_whole (number : Nat) :
    toBits ⟨number, 0⟩ =
      if 400 < (digitCount number : Int) then Binary64.infinityBits
      else Binary64.nearestBits number 1 := by
  by_cases zero : number = 0
  · subst zero
    decide +kernel
  · have none : ¬ (digitCount number : Int) < -400 := by omega
    simp only [toBits, zero, none, false_or, if_false, Int.add_zero]
    change (if _ then _ else Binary64.nearestBits (number * tenTo 0) 1) = _
    rw [show tenTo 0 = 1 from rfl, Nat.mul_one]

/-- Numbers from 2^64 on are not read as doubles below it. -/
theorem limitBits_le_toBits {number : Nat} (large : twoTo 64 ≤ number) :
    Binary64.limitBits ≤ toBits ⟨number, 0⟩ := by
  rw [toBits_whole]
  split
  · decide
  · exact Binary64.limitBits_le_nearestBits large

/-- Numbers below 2^64 are not read as doubles above it. -/
theorem toBits_le_limitBits {number : Nat} (small : number < twoTo 64) :
    toBits ⟨number, 0⟩ ≤ Binary64.limitBits := by
  have short : digitCount number ≤ 20 := by
    rw [digitCount_le_iff (by decide)]
    exact Nat.lt_of_lt_of_le small (by decide)
  rw [toBits_whole, if_neg (by omega)]
  exact Binary64.nearestBits_le_limitBits small

end Decimal

namespace Binary64

/-! ### Doubles -/

/-- The decimal that is written for a finite double. -/
def writtenDecimal (bits : Nat) : Decimal := if bits = 0 then ⟨0, 0⟩ else shortest bits

/-- A finite magnitude is written with its digits before the point and those behind it. -/
theorem toList_magnitudeText {bits : Nat} (finite : bits < infinityBits) :
    (magnitudeText bits).toList = (writtenDecimal bits).wholeDigits ++
      Decimal.pointed (writtenDecimal bits).fractionDigits := by
  rw [← Decimal.positional_eq, magnitudeText, writtenDecimal]
  split
  · decide
  · rw [if_neg (Nat.ne_of_lt finite), String.toList_ofList]

/-- What is written for a finite double names that double. -/
theorem toBits_writtenDecimal {bits : Nat} (finite : bits < infinityBits) :
    (writtenDecimal bits).toBits = bits := by
  rw [writtenDecimal]
  by_cases zero : bits = 0
  · rw [if_pos zero, zero]
    decide
  · rw [if_neg zero]
    exact toBits_shortest zero finite

/-- The digits that are written for a finite double are read as that double. -/
theorem toBits_ofDigits_writtenDecimal {bits : Nat} (finite : bits < infinityBits) :
    (Decimal.ofDigits (writtenDecimal bits).wholeDigits (writtenDecimal bits).fractionDigits
      0).toBits = bits := by
  rw [Decimal.toBits_ofDigits_parts, toBits_writtenDecimal finite]

/-- The leading digit of a double from 2^64 on stands at the twentieth place or above. -/
theorem twenty_le_leadingPlace {bits : Nat} (large : twoTo (64 + 1074) ≤ units bits) :
    20 ≤ leadingPlace bits := by
  have digits : 349 < Decimal.digitCount (units bits * tenTo 330 / twoTo 1074) := by
    apply Nat.lt_of_not_le
    rw [Decimal.digitCount_le_iff (by decide), Nat.not_lt, Nat.le_div_iff_mul_le (twoTo_pos _)]
    calc tenTo 349 * twoTo 1074
      _ ≤ twoTo (64 + 1074) * tenTo 330 := by decide +kernel
      _ ≤ units bits * tenTo 330 := Nat.mul_le_mul_right _ large
  rw [leadingPlace]
  omega

/-- A double from 2^64 on is a whole number. -/
theorem exists_units_eq {bits : Nat} (large : limitBits ≤ bits) :
    ∃ number, 0 < number ∧ units bits = number * twoTo 1074 := by
  have field : 1087 ≤ bits / twoTo 52 := (Nat.le_div_iff_mul_le (twoTo_pos 52)).mpr large
  have shift : bits / twoTo 52 - 1 = bits / twoTo 52 - 1075 + 1074 := by omega
  refine ⟨(bits % twoTo 52 + twoTo 52) * twoTo (bits / twoTo 52 - 1075), ?_, ?_⟩
  · exact Nat.mul_pos (Nat.add_pos_right _ (twoTo_pos 52)) (twoTo_pos _)
  · rw [units, if_neg (by omega), shift, twoTo_add, Nat.mul_assoc]

/-- A large magnitude is written without a fraction. -/
theorem fractionDigits_exactDecimal {bits : Nat} (large : limitBits ≤ bits) :
    (exactDecimal bits).fractionDigits = [] := by
  obtain ⟨number, positive, whole⟩ := exists_units_eq large
  obtain ⟨scale, fives, tens⟩ := exists_tenTo_eq 1074
  have value : exactDecimal bits = ⟨number * tenTo (1073 + 1), .negSucc 1073⟩ := by
    rw [exactDecimal, whole, fives, show 1073 + 1 = 1074 from rfl, tens, Nat.mul_assoc,
      Nat.mul_comm scale]
    rfl
  rw [value]
  exact Decimal.fractionDigits_eq_nil positive 1073

/-- A neighbour with some exponent has that exponent. -/
theorem exponent_of_neighbour? {bits : Nat} {exponent : Int} {decimal : Decimal}
    (found : neighbour? bits exponent = some decimal) : decimal.exponent = exponent := by
  rw [neighbour?] at found
  have member := List.mem_of_find?_eq_some found
  split at member
  · simp only [List.mem_cons, List.not_mem_nil, or_false] at member
    obtain rfl | rfl := member <;> rfl
  · simp only [List.mem_cons, List.not_mem_nil, or_false] at member
    obtain rfl | rfl := member <;> rfl

/-- Doubles from 2^64 on are written without a fraction: seventeen digits end before the
    point, and the exact value is whole. -/
theorem fractionDigits_shortest {bits : Nat} (finite : bits < infinityBits)
    (large : limitBits ≤ bits) : (shortest bits).fractionDigits = [] := by
  have many : twoTo (64 + 1074) ≤ units bits := by
    apply Nat.le_of_not_lt
    rw [units_lt_iff finite]
    exact Nat.not_lt.mpr large
  have place := twenty_le_leadingPlace many
  simp only [shortest]
  cases found : (List.range 17).findSome?
    fun (extra : Nat) => neighbour? bits (leadingPlace bits - 1 - extra) with
  | none => exact fractionDigits_exactDecimal large
  | some decimal =>
    obtain ⟨extra, few, neighbour⟩ := List.exists_of_findSome?_eq_some found
    have exponent := exponent_of_neighbour? neighbour
    rw [List.mem_range] at few
    obtain ⟨coefficient, power | power⟩ := decimal
    · rfl
    · exfalso
      have sign : Int.negSucc power = leadingPlace bits - 1 - extra := exponent
      omega

/-- Below 2^64 a whole number is written below 2^64. -/
theorem ofDigitChars_wholeDigits_lt {bits : Nat} (small : bits < limitBits)
    (whole : (writtenDecimal bits).fractionDigits = []) :
    Nat.ofDigitChars 10 (writtenDecimal bits).wholeDigits 0 < twoTo 64 := by
  have finite : bits < infinityBits := Nat.lt_trans small (by decide)
  have reads := toBits_ofDigits_writtenDecimal finite
  rw [whole, Decimal.ofDigits, List.append_nil] at reads
  apply Nat.lt_of_not_le
  intro large
  have most : limitBits ≤ bits := reads ▸ Decimal.limitBits_le_toBits large
  exact absurd small (Nat.not_lt.mpr most)

/-- From 2^64 on a whole number is written that is not below 2^64. -/
theorem le_ofDigitChars_wholeDigits {bits : Nat} (finite : bits < infinityBits)
    (large : limitBits ≤ bits) :
    (writtenDecimal bits).fractionDigits = [] ∧
      twoTo 64 ≤ Nat.ofDigitChars 10 (writtenDecimal bits).wholeDigits 0 := by
  have nonzero : bits ≠ 0 := Nat.ne_of_gt (Nat.lt_of_lt_of_le (by decide) large)
  have whole : (writtenDecimal bits).fractionDigits = [] := by
    rw [writtenDecimal, if_neg nonzero]
    exact fractionDigits_shortest finite large
  refine ⟨whole, ?_⟩
  have reads := toBits_ofDigits_writtenDecimal finite
  rw [whole, Decimal.ofDigits, List.append_nil] at reads
  apply Nat.le_of_not_lt
  intro small
  have least : bits ≤ limitBits := reads ▸ Decimal.toBits_le_limitBits small
  -- Numbers slightly below 2^64 are read as 2^64, but they are not how it is written.
  obtain rfl : bits = limitBits := Nat.le_antisymm least large
  have written : twoTo 64 ≤ Nat.ofDigitChars 10 (writtenDecimal limitBits).wholeDigits 0 := by
    decide +kernel
  exact absurd small (Nat.not_lt.mpr written)

end Binary64

end StabilizerLayers
