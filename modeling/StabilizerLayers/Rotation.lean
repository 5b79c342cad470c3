import StabilizerLayers.Basis

/-!
# Axis rotations

A single-qubit Clifford gate, with Pauli signs forgotten, permutes the three
axes. There are six such rotations: the identity, three exchanges that each
fix one axis, and the two cycles. Composition runs in time order, so
`first.followedBy second` applies `first` and then `second`.

The composite is defined by the images of the axes and not by a table; the
group laws below are decided on the six elements.
-/

namespace StabilizerLayers

/-- A single-qubit Clifford rotation up to Pauli signs. -/
inductive Rotation where
  /-- Leaves every axis in place. -/
  | identity
  /-- Fixes one axis and exchanges the other two. -/
  | exchange (fixed : Basis)
  /-- Sends X to Y, Y to Z and Z to X. -/
  | cycleXYZ
  /-- Sends Z to Y, Y to X and X to Z. -/
  | cycleZYX
deriving DecidableEq, Repr

namespace Rotation

/-- The six rotations in label order: the identity, the exchanges that fix Y,
    Z and X, and the two cycles. -/
def all : List Rotation :=
  [identity, exchange .Y, exchange .Z, exchange .X, cycleXYZ, cycleZYX]

/-- Label of a rotation, its position in `all`. -/
def index : Rotation → Nat
  | identity => 0
  | exchange .Y => 1
  | exchange .Z => 2
  | exchange .X => 3
  | cycleXYZ => 4
  | cycleZYX => 5

/-- The rotation with a label. -/
def ofIndex? (label : Nat) : Option Rotation := all[label]?

/-- Whether the rotation leaves every axis in place. -/
def isIdentity : Rotation → Bool
  | identity => true
  | _ => false

/-- Image of an axis. -/
def apply : Rotation → Basis → Basis
  | identity, basis => basis
  | exchange .X, .X => .X
  | exchange .X, .Y => .Z
  | exchange .X, .Z => .Y
  | exchange .Y, .X => .Z
  | exchange .Y, .Y => .Y
  | exchange .Y, .Z => .X
  | exchange .Z, .X => .Y
  | exchange .Z, .Y => .X
  | exchange .Z, .Z => .Z
  | cycleXYZ, .X => .Y
  | cycleXYZ, .Y => .Z
  | cycleXYZ, .Z => .X
  | cycleZYX, .X => .Z
  | cycleZYX, .Y => .X
  | cycleZYX, .Z => .Y

/-- The rotation that sends X and Z to two given distinct axes. Equal axes have
    no such rotation and give the identity. -/
def ofImages : (ofX : Basis) → (ofZ : Basis) → Rotation
  | .X, .Z => identity
  | .X, .Y => exchange .X
  | .Z, .X => exchange .Y
  | .Y, .Z => exchange .Z
  | .Y, .X => cycleXYZ
  | .Z, .Y => cycleZYX
  | _, _ => identity

/-- The rotation that does `first` and then `second`. -/
def followedBy (first second : Rotation) : Rotation :=
  ofImages (second.apply (first.apply .X)) (second.apply (first.apply .Z))

/-- The rotation that undoes a rotation. -/
def inverse : Rotation → Rotation
  | identity => identity
  | exchange fixed => exchange fixed
  | cycleXYZ => cycleZYX
  | cycleZYX => cycleXYZ

/-- The rotation done a number of times in a row. -/
def iterate (rotation : Rotation) : Nat → Rotation
  | 0 => identity
  | times + 1 => (rotation.iterate times).followedBy rotation

/-- The rotation done `times` times in a row. The order of every rotation
    divides six, so only the remainder modulo six is carried out. -/
def pow (rotation : Rotation) (times : Nat) : Rotation :=
  rotation.iterate (times % 6)

/-- The rotation that carries an axis onto Z. -/
def toZ : Basis → Rotation
  | .X => exchange .Y
  | .Y => exchange .X
  | .Z => identity

/-- The identity leaves every axis in place. -/
@[simp]
theorem apply_identity (basis : Basis) : identity.apply basis = basis := rfl

/-- A composite acts by its parts in time order. -/
@[simp]
theorem apply_followedBy (first second : Rotation) (basis : Basis) :
    (first.followedBy second).apply basis = second.apply (first.apply basis) := by
  rcases first with _ | (_ | _ | _) | _ | _ <;>
    rcases second with _ | (_ | _ | _) | _ | _ <;> cases basis <;> rfl

/-- Two images give a rotation back. -/
theorem ofImages_apply (rotation : Rotation) :
    ofImages (rotation.apply .X) (rotation.apply .Z) = rotation := by
  rcases rotation with _ | (_ | _ | _) | _ | _ <;> rfl

/-- A rotation is determined by its action on the axes. -/
theorem ext_apply {first second : Rotation}
    (same : ∀ basis, first.apply basis = second.apply basis) : first = second := by
  rw [← ofImages_apply first, ← ofImages_apply second, same, same]

/-- Composition is associative. -/
theorem followedBy_assoc (first second third : Rotation) :
    (first.followedBy second).followedBy third =
      first.followedBy (second.followedBy third) :=
  ext_apply fun basis => by simp

/-- The identity in front does nothing. -/
@[simp]
theorem identity_followedBy (rotation : Rotation) :
    identity.followedBy rotation = rotation :=
  ext_apply fun basis => by simp

/-- The identity behind does nothing. -/
@[simp]
theorem followedBy_identity (rotation : Rotation) :
    rotation.followedBy identity = rotation :=
  ext_apply fun basis => by simp

/-- A rotation and then its inverse do nothing. -/
@[simp]
theorem followedBy_inverse (rotation : Rotation) :
    rotation.followedBy rotation.inverse = identity := by
  rcases rotation with _ | (_ | _ | _) | _ | _ <;> rfl

/-- The inverse of a rotation and then the rotation do nothing. -/
@[simp]
theorem inverse_followedBy (rotation : Rotation) :
    rotation.inverse.followedBy rotation = identity := by
  rcases rotation with _ | (_ | _ | _) | _ | _ <;> rfl

/-- A rotation is found by its index. -/
@[simp]
theorem ofIndex?_index (rotation : Rotation) : ofIndex? rotation.index = some rotation := by
  rcases rotation with _ | (_ | _ | _) | _ | _ <;> rfl

/-- The test for the identity is right where it succeeds. -/
@[simp]
theorem isIdentity_iff (rotation : Rotation) :
    rotation.isIdentity = true ↔ rotation = identity := by
  cases rotation <;> simp [isIdentity]

/-- The test for the identity is right where it fails. -/
@[simp]
theorem isIdentity_eq_false_iff (rotation : Rotation) :
    rotation.isIdentity = false ↔ rotation ≠ identity := by
  cases rotation <;> simp [isIdentity]

/-- `toZ` does carry its axis onto Z. -/
@[simp]
theorem apply_toZ (basis : Basis) : (toZ basis).apply basis = .Z := by
  cases basis <;> rfl

end Rotation

end StabilizerLayers
