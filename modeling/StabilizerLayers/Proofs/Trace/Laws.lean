import StabilizerLayers.Layer.ZForm
import StabilizerLayers.Proofs.Trace.Rotations

/-!
# Laws of single actions

Every rewrite of schedules comes down to a few laws:

* a rotation by the identity does nothing, a reset forgets the rotation before
  it, and feedback turns back with the rotation that it passes;
* an operation along another axis is the one along Z between a rotation that
  carries the axis onto Z and its inverse;
* exchanges cancel, and carry couplings to the other qubit;
* the operands of an operation on two qubits have no order.
-/

namespace StabilizerLayers

/-- Rotations that undo the given ones, qubit by qubit. -/
def undone (entries : List (Qubit × Rotation)) : List (Qubit × Rotation) :=
  entries.map fun entry => (entry.1, entry.2.inverse)

/-- Undoing rotations names the same qubits. -/
@[simp]
theorem map_fst_undone (entries : List (Qubit × Rotation)) :
    (undone entries).map Prod.fst = entries.map Prod.fst := by
  rw [undone, List.map_map]
  rfl

namespace Agrees

/-- Lists with the same placements and the very same events and records agree. -/
theorem of_same_events {first second : List Action}
    (after : ∀ placement : Placement, placement.after first = placement.after second)
    (events : ∀ placement : Placement, placement.events first = placement.events second)
    (recorded : StabilizerLayers.records first = StabilizerLayers.records second) :
    Agrees first second :=
  ⟨after, fun placement => events placement ▸ .refl _, recorded⟩

/-! ### Single qubits -/

/-- A rotation by the identity does nothing. -/
theorem rotate_identity (id : Qubit) : Agrees [.rotate id .identity] [] := by
  refine of_same_events (fun placement => ?_) (fun _ => rfl) rfl
  refine Placement.ext_cell fun tested => ?_
  exact Action.cell_move_of_not_mem placement (.rotate id .identity) (by
    simp [Action.qubits, Rotation.isIdentity])

/-- A reset forgets the rotation before it. -/
theorem rotate_reset (id : Qubit) (rotation : Rotation) (basis : Basis) :
    Agrees [.rotate id rotation, .reset id basis] [.reset id basis] := by
  refine of_same_events (fun placement => ?_) (fun _ => rfl) rfl
  simp [Placement.after, Action.move, Placement.rotate, Placement.withFrame]

/-- A reset is one along Z between rotations. -/
theorem reset_toZ (id : Qubit) (basis : Basis) :
    Agrees [.reset id basis]
      ([.rotate id (.toZ basis)] ++ ([.reset id .Z] ++ [.rotate id (Rotation.toZ basis).inverse])) := by
  refine of_same_events (fun placement => ?_) (fun _ => rfl) rfl
  have plain : (Rotation.toZ .Z).inverse = .identity := rfl
  simp [Placement.after, Action.move, Placement.rotate, Placement.withFrame, plain]

/-- A measurement is one along Z between rotations. -/
theorem measure_toZ (target : Measurement) :
    Agrees [.measure target]
      ([.rotate target.id (.toZ target.basis)] ++ ([.measure { target with basis := .Z }] ++
        [.rotate target.id (Rotation.toZ target.basis).inverse])) := by
  refine of_same_events (fun placement => ?_) (fun placement => ?_) rfl
  · simp [Placement.after, Action.move, Placement.rotate, Placement.withFrame,
      Rotation.followedBy_assoc]
  · simp [Placement.events, Action.event?, Action.move, Placement.rotate, Placement.withFrame,
      Placement.leg]

/-! ### Pairs of qubits -/

/-- The operands of a coupling have no order. -/
theorem couple_reversed (coupling : Coupling) :
    Agrees [.couple coupling.reversed] [.couple coupling] := by
  refine of_same_events (fun _ => rfl) (fun placement => ?_) rfl
  simp [Placement.events, Action.event?, Coupling.reversed, Sym2.eq_swap]

/-- The qubits of a square root have no order. -/
theorem sqrtProduct_reversed (pair : SqrtPair) :
    Agrees [.sqrtProduct { pair with first := pair.second, second := pair.first }]
      [.sqrtProduct pair] := by
  refine of_same_events (fun _ => rfl) (fun placement => ?_) rfl
  simp [Placement.events, Action.event?, Sym2.eq_swap]

/-- The qubits of an exchange have no order. -/
theorem exchange_comm (first second : Qubit) :
    Agrees [.exchange second first] [.exchange first second] := by
  refine of_same_events (fun placement => ?_) (fun _ => rfl) rfl
  simp [Placement.after, Action.move, Placement.exchange, Equiv.swap_comm second first]

/-- The qubits of an exchange with a phase have no order. -/
theorem iswap_comm (first second : Qubit) :
    Agrees [.iswap second first] [.iswap first second] := by
  refine of_same_events (fun placement => ?_) (fun placement => ?_) rfl
  · refine Placement.ext_cell fun id => ?_
    by_cases here : id = first <;> by_cases there : id = second <;>
      simp [Placement.after, Action.move, Placement.withFrame, Placement.cell,
        Function.update_apply, here, there]
  · simp [Placement.events, Action.event?, Sym2.eq_swap]

/-- Exchanges cancel. -/
theorem exchange_exchange (first second : Qubit) :
    Agrees [.exchange first second, .exchange first second] [] := by
  refine of_same_events (fun placement => ?_) (fun _ => rfl) rfl
  refine Placement.ext_cell fun id => ?_
  simp [Placement.after, Action.move, Placement.exchange, Placement.cell]

/-- An exchange carries a coupling to the other qubits. -/
theorem exchange_couple (first second : Leg) :
    Agrees [.exchange first.id second.id, .couple ⟨first, second⟩]
      [.couple ⟨⟨second.id, first.basis⟩, ⟨first.id, second.basis⟩⟩,
        .exchange first.id second.id] := by
  refine of_same_events (fun _ => rfl) (fun placement => ?_) rfl
  simp [Placement.events, Action.event?, Action.move, Placement.exchange, Placement.leg]

/-- A coupling is one along Z between rotations. -/
theorem couple_toZ {coupling : Coupling} (apart : coupling.first.id ≠ coupling.second.id) :
    Agrees [.couple coupling]
      (turns (Layer.couplingRotations coupling) ++ ([.couple coupling.toZ] ++
        turns (undone (Layer.couplingRotations coupling)))) := by
  refine of_same_events (fun placement => ?_) (fun placement => ?_) rfl
  · refine Placement.ext_cell fun id => ?_
    by_cases here : id = coupling.first.id <;> by_cases there : id = coupling.second.id <;>
      simp_all [Placement.after, Action.move, Placement.rotate, Placement.withFrame,
        Placement.cell, turns, undone, Layer.couplingRotations, Function.update_apply,
        Rotation.followedBy_assoc]
  · simp [Placement.events, Action.event?, Action.move, Placement.rotate,
      Placement.withFrame, Placement.leg, turns, undone, Layer.couplingRotations,
      Coupling.toZ, apart, apart.symm]

/-- A square root is one along Z between rotations. -/
theorem sqrtProduct_toZ {pair : SqrtPair} (apart : pair.first ≠ pair.second) :
    Agrees [.sqrtProduct pair]
      (turns (Layer.sqrtRotations pair) ++ ([.sqrtProduct { pair with basis := .Z }] ++
        turns (undone (Layer.sqrtRotations pair)))) := by
  refine of_same_events (fun placement => ?_) (fun placement => ?_) rfl
  · refine Placement.ext_cell fun id => ?_
    by_cases here : id = pair.first <;> by_cases there : id = pair.second <;>
      simp_all [Placement.after, Action.move, Placement.rotate, Placement.withFrame,
        Placement.cell, turns, undone, Layer.sqrtRotations, Function.update_apply,
        Rotation.followedBy_assoc]
  · simp [Placement.events, Action.event?, Action.move, Placement.rotate,
      Placement.withFrame, Placement.leg, turns, undone, Layer.sqrtRotations,
      apart, apart.symm]

/-- A coupling and an exchange are those along Z between rotations. The exchange
    has carried each inverse rotation to the partner. -/
theorem coupleSwap_toZ {coupling : Coupling} (apart : coupling.first.id ≠ coupling.second.id) :
    Agrees (Layer.coupleSwap coupling)
      (turns (Layer.couplingRotations coupling) ++ (Layer.coupleSwap coupling.toZ ++
        turns (Layer.crossedRotations coupling))) := by
  refine of_same_events (fun placement => ?_) (fun placement => ?_) rfl
  · have flipped : coupling.second.id ≠ coupling.first.id := apart.symm
    refine Placement.ext_cell fun id => ?_
    by_cases here : id = coupling.first.id <;> by_cases there : id = coupling.second.id <;>
      simp_all [Placement.after, Action.move, Placement.rotate, Placement.withFrame,
        Placement.exchange, Placement.cell, turns, Layer.couplingRotations,
        Layer.crossedRotations, Layer.coupleSwap, Coupling.toZ, Equiv.swap_apply_def, Rotation.followedBy_assoc]
  · simp [Placement.events, Action.event?, Action.move, Placement.rotate,
      Placement.withFrame, Placement.leg, turns, Layer.couplingRotations,
      Layer.crossedRotations, Layer.coupleSwap, Coupling.toZ, apart, apart.symm]

end Agrees

/-! ### Forgotten rotations -/

/-- Whether some actions forget every rotation of a qubit before them. -/
def Forgets (id : Qubit) (actions : List Action) : Prop :=
  ∀ rotation, Agrees (.rotate id rotation :: actions) actions

namespace Forgets

variable {id : Qubit} {actions rest : List Action}

/-- A reset forgets the rotations of its qubit. -/
theorem reset (id : Qubit) (basis : Basis) (rest : List Action) :
    Forgets id (.reset id basis :: rest) :=
  fun rotation => (Agrees.rotate_reset id rotation basis).append (.refl rest)

/-- Actions that agree forget the same. -/
theorem of_agrees (forgets : Forgets id actions) (same : Agrees rest actions) : Forgets id rest :=
  fun rotation => (((Agrees.refl [.rotate id rotation]).append same).trans
    (forgets rotation)).trans same.symm

/-- What comes after changes nothing about what is forgotten. -/
theorem append (forgets : Forgets id actions) (rest : List Action) : Forgets id (actions ++ rest) :=
  fun rotation => (forgets rotation).append (.refl rest)

/-- Actions on other qubits pass a rotation on. -/
theorem append_left (apart : ∀ action ∈ actions, id ∉ action.qubits) (forgets : Forgets id rest) :
    Forgets id (actions ++ rest) := by
  intro rotation
  have passed : Agrees (.rotate id rotation :: actions) (actions ++ [.rotate id rotation]) := by
    refine Agrees.cons_comm fun next member => ⟨fun tested mine => ?_, fun recorded => ?_⟩
    · obtain rfl : tested = id := by
        rw [Action.qubits] at mine
        split at mine <;> simp_all
      exact apart next member
    · simp [Action.isRecord] at recorded
  have moved := passed.append (.refl rest)
  have forgotten := (Agrees.refl actions).append (forgets rotation)
  rw [List.append_assoc] at moved
  exact moved.trans forgotten

/-- Rotations before what forgets a rotation forget it too. -/
theorem turns (forgets : Forgets id rest) (entries : List (Qubit × Rotation)) :
    Forgets id (turns entries ++ rest) := by
  induction entries with
  | nil => exact forgets
  | cons entry later inductionHypothesis =>
    obtain ⟨key, turn⟩ := entry
    by_cases same : key = id
    · subst same
      intro rotation
      have both := (Agrees.refl [.rotate key rotation]).append (inductionHypothesis turn)
      have first := inductionHypothesis rotation
      exact both.trans (first.trans (inductionHypothesis turn).symm)
    · have apart : ∀ action ∈ [Action.rotate key turn], id ∉ action.qubits := by
        intro action member
        obtain rfl := List.mem_singleton.mp member
        rw [Action.qubits]
        split <;> simp [Ne.symm same]
      have passed := append_left apart inductionHypothesis
      exact passed

end Forgets

/-- Rotations of qubits whose rotations are forgotten can be left out. -/
theorem Agrees.turns_filter {ids : List Qubit} {rest : List Action}
    (forgets : ∀ id ∈ ids, Forgets id rest) (entries : List (Qubit × Rotation)) :
    Agrees (turns (entries.filter fun entry => !ids.contains entry.1) ++ rest)
      (turns entries ++ rest) := by
  induction entries with
  | nil => exact .refl _
  | cons entry later inductionHypothesis =>
    by_cases gone : entry.1 ∈ ids
    · have forgotten := (forgets entry.1 gone).turns later entry.2
      simpa [gone, turns] using inductionHypothesis.trans forgotten.symm
    · have kept := (Agrees.refl [.rotate entry.1 entry.2]).append inductionHypothesis
      simpa [gone, turns] using kept

end StabilizerLayers
