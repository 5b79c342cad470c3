import Mathlib.Logic.Function.Iterate
import StabilizerLayers.Proofs.Trace.Rotations

/-!
# Laws of rotation layers

Rotation layers act on each qubit by the rotation that they hold for it, and the six rotations
of a qubit are a group. The laws of the group are laws of layers, with one reservation: layers
that rotate all qubits alike need not be equal, as one of them may hold the identity for a
qubit that the other leaves out.

Composition and repetition leave identities out. Their results are reduced, and reduced layers
are told apart by what they do to the qubits, so equations between such results are read off
one qubit at a time.
-/

namespace StabilizerLayers

namespace Rotation

/-- Rounds and then more rounds. -/
theorem iterate_followedBy (rotation : Rotation) (times more : Nat) :
    (rotation.iterate times).followedBy (rotation.iterate more) =
      rotation.iterate (times + more) := by
  induction more with
  | zero => exact followedBy_identity _
  | succ more inductionHypothesis =>
    rw [iterate, ← followedBy_assoc, inductionHypothesis, ← Nat.add_assoc, iterate]

/-- Only the identity has the identity for an inverse. -/
theorem inverse_eq_identity_iff {rotation : Rotation} :
    rotation.inverse = identity ↔ rotation = identity := by
  cases rotation <;> simp [inverse]

end Rotation

namespace RotationLayer

/-! ### Reduced layers -/

/-- Whether a layer holds no identity. -/
def Reduced (layer : RotationLayer) : Prop :=
  ∀ id, layer.rotations.get? id ≠ some .identity

variable {layer first second : RotationLayer}

/-- A reduced layer holds what it does to a qubit unless it leaves the qubit in place. -/
theorem Reduced.get?_eq (reduced : layer.Reduced) (id : Qubit) :
    layer.rotations.get? id = if layer.get id = .identity then none else some (layer.get id) := by
  have held := reduced id
  rw [get]
  cases found : layer.rotations.get? id with
  | none => rfl
  | some rotation =>
    rw [found] at held
    rw [Option.getD_some, if_neg fun same => held (congrArg some same)]

/-- Reduced layers that rotate all qubits alike are equal. -/
theorem Reduced.ext (firstReduced : first.Reduced) (secondReduced : second.Reduced)
    (same : ∀ id, first.get id = second.get id) : first = second := by
  have rotations : first.rotations = second.rotations := QubitMap.ext_get? fun id => by
    rw [firstReduced.get?_eq, secondReduced.get?_eq, same]
  cases first
  cases second
  exact congrArg mk rotations

/-- The layer without rotations is reduced. -/
theorem reduced_empty : empty.Reduced := nofun

/-- A layer without its identities is reduced. -/
theorem reduced_withoutIdentities (layer : RotationLayer) : layer.withoutIdentities.Reduced := by
  intro id
  rw [withoutIdentities, QubitMap.get?_filter]
  cases layer.rotations.get? id with
  | none => simp
  | some rotation => cases rotation <;> simp [Option.filter, Rotation.isIdentity]

/-- A composition is reduced. -/
theorem reduced_followedBy (layer next : RotationLayer) : (layer.followedBy next).Reduced :=
  reduced_withoutIdentities _

/-- A repetition is reduced. -/
theorem reduced_pow (layer : RotationLayer) (times : Nat) : (layer.pow times).Reduced :=
  reduced_withoutIdentities _

/-- The inverse of a reduced layer is reduced. -/
theorem Reduced.inverse (reduced : layer.Reduced) : layer.inverse.Reduced := by
  intro id held
  rw [RotationLayer.inverse, QubitMap.get?_mapValues, Option.map_eq_some_iff] at held
  obtain ⟨rotation, found, undone⟩ := held
  obtain rfl := Rotation.inverse_eq_identity_iff.mp undone
  exact reduced id found

/-! ### Laws -/

/-- The layer without rotations leaves all qubits in place. -/
@[simp]
theorem get_empty (id : Qubit) : empty.get id = .identity := rfl

/-- Composition of layers is associative. -/
theorem followedBy_assoc (first second third : RotationLayer) :
    (first.followedBy second).followedBy third = first.followedBy (second.followedBy third) :=
  (reduced_followedBy _ _).ext (reduced_followedBy _ _) fun id => by
    simp [Rotation.followedBy_assoc]

/-- A layer and then its inverse do nothing. -/
theorem followedBy_inverse (layer : RotationLayer) : layer.followedBy layer.inverse = empty :=
  (reduced_followedBy _ _).ext reduced_empty fun id => by simp

/-- The inverse of a layer and then the layer do nothing. -/
theorem inverse_followedBy (layer : RotationLayer) : layer.inverse.followedBy layer = empty :=
  (reduced_followedBy _ _).ext reduced_empty fun id => by simp

/-- Undoing two layers undoes the later one first. -/
theorem inverse_of_followedBy (first second : RotationLayer) :
    (first.followedBy second).inverse = second.inverse.followedBy first.inverse :=
  (reduced_followedBy _ _).inverse.ext (reduced_followedBy _ _) fun id => by
    simp [Rotation.inverse_of_followedBy]

/-- Repetition is composition time after time. -/
theorem pow_eq_iterate (layer : RotationLayer) (times : Nat) :
    layer.pow times = (fun done : RotationLayer => done.followedBy layer)^[times] empty := by
  induction times with
  | zero => exact (reduced_pow _ _).ext reduced_empty fun id => get_pow layer 0 id
  | succ times inductionHypothesis =>
    rw [Function.iterate_succ_apply', ← inductionHypothesis]
    refine (reduced_pow _ _).ext (reduced_followedBy _ _) fun id => ?_
    rw [get_pow, get_followedBy, get_pow, Rotation.iterate]

/-- Numbers of repetitions are added. -/
theorem pow_followedBy (layer : RotationLayer) (times more : Nat) :
    (layer.pow times).followedBy (layer.pow more) = layer.pow (times + more) :=
  (reduced_followedBy _ _).ext (reduced_pow _ _) fun id => by
    simp [Rotation.iterate_followedBy]

/-- Rotation layers compose, are undone and are repeated as the rotations of each qubit are. -/
theorem acts_as_group (first second third : RotationLayer) (id : Qubit) (times more : Nat) :
    (first.followedBy second).get id = (first.get id).followedBy (second.get id) ∧
      (first.followedBy second).followedBy third = first.followedBy (second.followedBy third) ∧
      first.followedBy first.inverse = empty ∧
      first.inverse.followedBy first = empty ∧
      (first.followedBy second).inverse.get id =
        (second.inverse.followedBy first.inverse).get id ∧
      first.pow times = (fun done : RotationLayer => done.followedBy first)^[times] empty ∧
      (first.pow times).followedBy (first.pow more) = first.pow (times + more) :=
  ⟨get_followedBy first second id, followedBy_assoc first second third, followedBy_inverse first,
    inverse_followedBy first, by rw [inverse_of_followedBy], pow_eq_iterate first times,
    pow_followedBy first times more⟩

end RotationLayer

end StabilizerLayers
