import StabilizerLayers.Instruction
import StabilizerLayers.QubitMap

/-!
# Rotation layers

A rotation per qubit; a qubit without an entry is left in place. An entry may
hold the identity, which changes nothing but is kept until it is dropped on
purpose. Composition drops identities, so the composite of a layer and its
inverse has no entries at all.
-/

namespace StabilizerLayers

/-- Rotations of distinct qubits in one timing slot. -/
structure RotationLayer where
  rotations : QubitMap Rotation

namespace RotationLayer

instance : BEq RotationLayer := ⟨fun first second => first.rotations == second.rotations⟩

/-- The layer that rotates nothing. -/
def empty : RotationLayer := ⟨.empty⟩

/-- The rotation of a qubit. -/
def get (layer : RotationLayer) (id : Qubit) : Rotation :=
  (layer.rotations.get? id).getD .identity

/-- Rotates a qubit after what the layer does to it already. -/
def append (layer : RotationLayer) (id : Qubit) (rotation : Rotation) : RotationLayer :=
  ⟨layer.rotations.upsert id fun earlier => (earlier.getD .identity).followedBy rotation⟩

/-- Rotates qubits one after the other. -/
def appendAll (layer : RotationLayer) : List (Qubit × Rotation) → RotationLayer
  | [] => layer
  | (id, rotation) :: rest => (layer.append id rotation).appendAll rest

/-- The layer of a list of rotations in time order. -/
def ofList (entries : List (Qubit × Rotation)) : RotationLayer := empty.appendAll entries

/-- Qubits that are really rotated, ascending. -/
def touched (layer : RotationLayer) : List Qubit :=
  layer.rotations.keysWhere fun rotation => !rotation.isIdentity

/-- Whether no qubit is really rotated. -/
def isVacuous (layer : RotationLayer) : Bool := layer.rotations.values.all Rotation.isIdentity

/-- Drops identity entries. -/
def withoutIdentities (layer : RotationLayer) : RotationLayer :=
  ⟨layer.rotations.filter fun _ rotation => !rotation.isIdentity⟩

/-- Drops the entries of some qubits. -/
def without (layer : RotationLayer) (ids : List Qubit) : RotationLayer :=
  ⟨layer.rotations.without ids⟩

/-- This layer and then the next, without identity entries. -/
def followedBy (layer next : RotationLayer) : RotationLayer :=
  (layer.appendAll next.rotations.entries).withoutIdentities

/-- The layer that undoes this one. -/
def inverse (layer : RotationLayer) : RotationLayer :=
  ⟨layer.rotations.mapValues Rotation.inverse⟩

/-- This layer a number of times in a row, without identity entries. -/
def pow (layer : RotationLayer) (times : Nat) : RotationLayer :=
  withoutIdentities ⟨layer.rotations.mapValues fun rotation => rotation.pow times⟩

/-- One instruction per rotation that occurs, in label order, its qubits
    ascending. -/
def instructions (layer : RotationLayer) : List Instruction :=
  Rotation.all.filterMap fun rotation =>
    rotation.gate?.bind fun gate =>
      match layer.rotations.keysWhere (· == rotation) with
      | [] => none
      | ids => some (.onQubits gate ids)

/-- A qubit of an appended rotation is rotated further, and no other one is. -/
theorem get_append (layer : RotationLayer) (id tested : Qubit) (rotation : Rotation) :
    (layer.append id rotation).get tested =
      if tested = id then (layer.get id).followedBy rotation else layer.get tested := by
  simp only [get, append, QubitMap.get?_upsert]
  split <;> rfl

/-- Identity entries do not show. -/
@[simp]
theorem get_withoutIdentities (layer : RotationLayer) (id : Qubit) :
    layer.withoutIdentities.get id = layer.get id := by
  simp only [get, withoutIdentities, QubitMap.get?_filter]
  cases layer.rotations.get? id with
  | none => rfl
  | some rotation => cases rotation <;> rfl

/-- The inverse layer undoes each qubit. -/
@[simp]
theorem get_inverse (layer : RotationLayer) (id : Qubit) :
    layer.inverse.get id = (layer.get id).inverse := by
  simp only [get, inverse, QubitMap.get?_mapValues]
  cases layer.rotations.get? id <;> rfl

end RotationLayer

end StabilizerLayers
