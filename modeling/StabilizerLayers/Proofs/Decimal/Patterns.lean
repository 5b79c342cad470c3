import Mathlib
import StabilizerLayers.Decimal.Basic

/-!
# Bit patterns of doubles

A double is its bit pattern: a sign bit, eleven bits of exponent and fifty-two bits of
mantissa. All operations unpack a pattern into the number that it stands for and pack
the result. Packing undoes unpacking on every pattern of a number, infinities and zeros
of either sign included, and negation changes the sign bit alone.

So a double is known from its magnitude and its sign. Only what is not a number is left
out, because all its patterns are packed into one.
-/

namespace StabilizerLayers

namespace Binary64

open Float.Model (Format)
open Float.Model.UnpackedFloat

/-! ### Fields -/

/-- The mantissa is the lowest 52 bits. -/
theorem toNat_unpackMantissa (pattern : BitVec Format.binary64.numBits) :
    (unpackMantissa pattern).toNat = pattern.toNat % twoTo 52 := by
  simp [unpackMantissa, BitVec.extractLsb_toNat, twoTo]

/-- The exponent is the next 11 bits. -/
theorem toNat_unpackExponent (pattern : BitVec Format.binary64.numBits) :
    (unpackExponent pattern).toNat = pattern.toNat / twoTo 52 % 2048 := by
  simp [unpackExponent, BitVec.extractLsb_toNat, twoTo, Nat.shiftRight_eq_div_pow]

/-- The sign is the highest bit. -/
theorem toNat_unpackSign (pattern : BitVec Format.binary64.numBits) :
    (unpackSign pattern).toNat = pattern.toNat / twoTo 63 := by
  have bound : pattern.toNat < 18446744073709551616 := pattern.isLt
  rw [unpackSign, BitVec.toNat_cast, BitVec.extractLsb_toNat, Nat.shiftRight_eq_div_pow]
  change pattern.toNat / twoTo 63 % 2 = _
  simp only [twoTo, Nat.pow_eq]
  omega

/-! ### Numbers -/

/-- Unpacking loses nothing of the pattern of a number: with the largest exponent field it
    has no mantissa. -/
theorem pack_unpack_of_number {pattern : BitVec Format.binary64.numBits}
    (number : pattern.toNat % twoTo 63 ≤ infinityBits) :
    pack .binary64 (unpack .binary64 pattern) = pattern := by
  have isNumber : isNaNBits pattern = false := by
    rw [isNaNBits, decide_eq_false_iff_not]
    rintro ⟨full, some⟩
    apply some
    have all : pattern.toNat / twoTo 52 % 2048 = 2047 := by
      rw [← toNat_unpackExponent, full]
      rfl
    apply BitVec.eq_of_toNat_eq
    rw [toNat_unpackMantissa]
    simp only [infinityBits, twoTo, Nat.pow_eq] at number all ⊢
    change _ = 0
    omega
  rw [pack_unpack, isNumber]
  rfl

/-- Setting the sign bit negates what a pattern stands for. -/
theorem unpack_negated {pattern negated : BitVec Format.binary64.numBits}
    (positive : pattern.toNat < twoTo 63) (set : negated.toNat = pattern.toNat + twoTo 63) :
    unpack .binary64 negated = (unpack .binary64 pattern).neg := by
  have exponent : unpackExponent negated = unpackExponent pattern := by
    apply BitVec.eq_of_toNat_eq
    rw [toNat_unpackExponent, toNat_unpackExponent, set]
    simp only [twoTo, Nat.pow_eq]
    omega
  have mantissa : unpackMantissa negated = unpackMantissa pattern := by
    apply BitVec.eq_of_toNat_eq
    rw [toNat_unpackMantissa, toNat_unpackMantissa, set]
    simp only [twoTo, Nat.pow_eq]
    omega
  have clear : unpackSign pattern = 0#1 := by
    apply BitVec.eq_of_toNat_eq
    rw [toNat_unpackSign, Nat.div_eq_of_lt positive]
    rfl
  have one : unpackSign negated = 1#1 := by
    apply BitVec.eq_of_toNat_eq
    rw [toNat_unpackSign, set]
    simp only [twoTo, Nat.pow_eq] at *
    change _ = 1
    omega
  simp only [unpack, exponent, mantissa, clear, one]
  split
  · split <;> rfl
  · split
    · split <;> rfl
    · rfl

/-- Negation sets the sign bit of a pattern without it. -/
theorem neg_ofBits {bits : Nat} (number : bits ≤ infinityBits) :
    -(Float.ofBits (UInt64.ofNat bits)) = Float.ofBits (UInt64.ofNat (bits + twoTo 63)) := by
  have positive : bits < twoTo 63 := Nat.lt_of_le_of_lt number (by decide)
  have small : bits + twoTo 63 < UInt64.size := by
    have all : twoTo 63 + twoTo 63 = UInt64.size := by decide
    omega
  have plain : (UInt64.ofNat bits).toBitVec.toNat = bits :=
    UInt64.toNat_ofNat_of_lt' (by omega)
  have signed : (UInt64.ofNat (bits + twoTo 63)).toBitVec.toNat = bits + twoTo 63 :=
    UInt64.toNat_ofNat_of_lt' small
  have kept : pack .binary64 (unpack .binary64 (UInt64.ofNat bits).toBitVec) =
      (UInt64.ofNat bits).toBitVec := by
    apply pack_unpack_of_number
    rw [plain, Nat.mod_eq_of_lt positive]
    exact number
  have negated : unpack .binary64 (UInt64.ofNat (bits + twoTo 63)).toBitVec =
      (unpack .binary64 (UInt64.ofNat bits).toBitVec).neg :=
    unpack_negated (by rwa [plain]) (by rw [signed, plain])
  change Float.ofModel (Float.Model.pack
    (unpack .binary64 (pack .binary64 (unpack .binary64 (UInt64.ofNat bits).toBitVec))).neg) =
    Float.ofModel (Float.Model.pack (unpack .binary64 (UInt64.ofNat (bits + twoTo 63)).toBitVec))
  rw [kept, negated]

/-- A double that is a number is its magnitude with its sign. -/
theorem eq_signed {value : Float} (number : magnitudeBits value ≤ infinityBits) :
    (if isNegative value then -(Float.ofBits (UInt64.ofNat (magnitudeBits value)))
      else Float.ofBits (UInt64.ofNat (magnitudeBits value))) = value := by
  have whole := Float.ofBits_toBits value
  have bound : value.toBits.toNat < twoTo 63 + twoTo 63 := value.toBits.toNat_lt
  rw [neg_ofBits number]
  by_cases negative : value.toBits.toNat ≥ twoTo 63
  · have bits : magnitudeBits value + twoTo 63 = value.toBits.toNat := by
      rw [magnitudeBits, Nat.mod_eq_sub_mod negative, Nat.mod_eq_of_lt (by omega)]
      omega
    rw [isNegative, if_pos (decide_eq_true negative), bits, UInt64.ofNat_toNat, whole]
  · have bits : magnitudeBits value = value.toBits.toNat := Nat.mod_eq_of_lt (by omega)
    rw [isNegative, if_neg (by simpa using negative), bits, UInt64.ofNat_toNat, whole]

end Binary64

end StabilizerLayers
