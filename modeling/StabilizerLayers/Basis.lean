/-!
# Pauli bases

A stabilizer circuit measures, resets and couples qubits along one of three
axes. This module holds the axes, their letters and positions, and the
exchange of the X and Z axes that leaves Y in place.
-/

namespace StabilizerLayers

/-- A qubit is named by a 32-bit index, so an out-of-range qubit cannot occur
    inside a circuit; readers refuse it at the boundary. -/
abbrev Qubit := UInt32

/-- The qubit with the given index, when the index fits into 32 bits. -/
def Qubit.ofNat? (index : Nat) : Option Qubit :=
  if index < UInt32.size then some (UInt32.ofNat index) else none

/-- One of the three single-qubit Pauli axes. -/
inductive Basis where
  | X
  | Y
  | Z
deriving DecidableEq, Repr

namespace Basis

/-- The axes in their fixed order. -/
def all : List Basis := [X, Y, Z]

/-- Position of an axis in the fixed order. -/
def index : Basis → Nat
  | X => 0
  | Y => 1
  | Z => 2

/-- The axis at a position of the fixed order. -/
def ofIndex? (position : Nat) : Option Basis := all[position]?

/-- The letter that writes an axis. -/
def letter : Basis → Char
  | X => 'X'
  | Y => 'Y'
  | Z => 'Z'

/-- Reads an axis from its letter in either case. -/
def ofChar? (character : Char) : Option Basis :=
  match character.toUpper with
  | 'X' => some X
  | 'Y' => some Y
  | 'Z' => some Z
  | _ => none

/-- Exchanges the X and Z axes and keeps Y. -/
def flipped : Basis → Basis
  | X => Z
  | Y => Y
  | Z => X

/-- Writing order of axes: Z before X before Y. -/
def rank : Basis → Nat
  | Z => 0
  | X => 1
  | Y => 2

/-- The axes by ascending rank. -/
def byRank : List Basis := [Z, X, Y]

/-- Flipping an axis twice gives the axis back. -/
@[simp]
theorem flipped_flipped (basis : Basis) : basis.flipped.flipped = basis := by
  cases basis <;> rfl

/-- An axis is found by its index. -/
@[simp]
theorem ofIndex?_index (basis : Basis) : ofIndex? basis.index = some basis := by
  cases basis <;> rfl

/-- An axis is found by its letter. -/
@[simp]
theorem ofChar?_letter (basis : Basis) : ofChar? basis.letter = some basis := by
  cases basis <;> decide

/-- The rank tells the axes apart. -/
theorem rank_injective {first second : Basis} (same : first.rank = second.rank) :
    first = second := by
  cases first <;> cases second <;> simp_all [rank]

end Basis

end StabilizerLayers
