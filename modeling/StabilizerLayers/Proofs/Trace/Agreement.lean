import StabilizerLayers.Proofs.Trace.Reading

/-!
# Actions that agree

Two lists of actions agree when, from every placement, they lead to the same
placement, leave aligned events, and make the same record stream. Agreement is
kept by everything that circuits and schedules are built with, so a rewrite of a
part is a rewrite of the whole.

An action sees and changes only the cells of its own qubits. Actions on distinct
qubits therefore change places, unless both write or read records: the events of
distinct qubits lie on distinct wires, because no two qubits hold the same wire.
-/

namespace StabilizerLayers

namespace Action

/-! ### What an action sees and changes -/

/-- An action leaves the cells of other qubits alone. -/
theorem cell_move_of_not_mem (placement : Placement) (action : Action) {id : Qubit}
    (apart : id ∉ action.qubits) : (action.move placement).cell id = placement.cell id := by
  cases action with
  | rotate rotated rotation =>
    by_cases idle : rotation.isIdentity
    · have same : rotation = .identity := (Rotation.isIdentity_iff rotation).mp idle
      by_cases here : id = rotated
      · subst here
        simp [move, Placement.rotate, Placement.withFrame, Placement.cell, same]
      · simp [move, Placement.rotate, Placement.withFrame, Placement.cell, here]
    · have here : id ≠ rotated := by simpa [qubits, idle] using apart
      simp [move, Placement.rotate, Placement.withFrame, Placement.cell, here]
  | exchange first second =>
    obtain ⟨notFirst, notSecond⟩ : id ≠ first ∧ id ≠ second := by simpa [qubits] using apart
    simp [move, Placement.exchange, Placement.cell,
      Equiv.swap_apply_of_ne_of_ne notFirst notSecond]
  | reset reset basis =>
    have here : id ≠ reset := by simpa [qubits] using apart
    simp [move, Placement.withFrame, Placement.cell, here]
  | iswap first second =>
    obtain ⟨notFirst, notSecond⟩ : id ≠ first ∧ id ≠ second := by simpa [qubits] using apart
    simp [move, Placement.withFrame, Placement.cell, notFirst, notSecond]
  | measure _ | product _ | parity _ | feedback _ | couple _ | sqrtProduct _ => rfl

/-- The new cells of an action's qubits depend on their old cells only. -/
theorem cell_move_congr {first second : Placement} {action : Action}
    (same : ∀ id ∈ action.qubits, first.cell id = second.cell id) {id : Qubit}
    (member : id ∈ action.qubits) :
    (action.move first).cell id = (action.move second).cell id := by
  have here := same id member
  have wires : first.wire id = second.wire id := congrArg Prod.fst here
  have frames : first.frame id = second.frame id := congrArg Prod.snd here
  cases action with
  | rotate rotated rotation =>
    by_cases idle : rotation.isIdentity
    · simp [qubits, idle] at member
    · obtain rfl : id = rotated := by simpa [qubits, idle] using member
      simp [move, Placement.rotate, Placement.withFrame, Placement.cell, wires, frames]
  | exchange one two =>
    have firstCell : first.cell one = second.cell one := same one (by simp [qubits])
    have secondCell : first.cell two = second.cell two := same two (by simp [qubits])
    obtain rfl | rfl : id = one ∨ id = two := by simpa [qubits] using member
    · simpa [move, Placement.exchange, Placement.cell] using secondCell
    · simpa [move, Placement.exchange, Placement.cell] using firstCell
  | reset reset basis =>
    obtain rfl : id = reset := by simpa [qubits] using member
    simp [move, Placement.withFrame, Placement.cell, wires]
  | iswap one two =>
    obtain rfl | rfl : id = one ∨ id = two := by simpa [qubits] using member
    · by_cases equal : id = two
      · subst equal
        simp [move, Placement.withFrame, Placement.cell, wires]
      · simp [move, Placement.withFrame, Placement.cell, wires, equal]
    · simp [move, Placement.withFrame, Placement.cell, wires]
  | measure _ | product _ | parity _ | feedback _ | couple _ | sqrtProduct _ => exact here

end Action

namespace Placement

/-- Equal cells make equal legs. -/
theorem leg_congr {first second : Placement} {id : Qubit} (basis : Basis)
    (same : first.cell id = second.cell id) : first.leg id basis = second.leg id basis := by
  have wires : first.wire id = second.wire id := congrArg Prod.fst same
  have frames : first.frame id = second.frame id := congrArg Prod.snd same
  simp [leg, wires, frames]

/-- A Pauli operator among targets names one of their qubits. -/
theorem mem_pauliQubits {targets : List Target} {basis : Basis} {id : Qubit} {inverted : Bool}
    (member : .pauli basis id inverted ∈ targets) : id ∈ pauliQubits targets :=
  List.mem_filterMap.mpr ⟨.pauli basis id inverted, List.mem_filter.mpr ⟨member, rfl⟩, rfl⟩

/-- Targets are told alike where the cells of their Pauli operators are equal. -/
theorem map_target_congr {first second : Placement} {targets : List Target}
    (same : ∀ id ∈ pauliQubits targets, first.cell id = second.cell id) :
    targets.map first.target = targets.map second.target := by
  refine List.map_congr_left fun target member => ?_
  cases target with
  | pauli basis id inverted =>
    simp [Placement.target, leg_congr basis (same id (mem_pauliQubits member))]
  | qubit _ _ | record _ | sweep _ | combiner => rfl

end Placement

namespace Action

/-- The event of an action depends on the cells of its qubits only. -/
theorem event?_congr {first second : Placement} {action : Action}
    (same : ∀ id ∈ action.qubits, first.cell id = second.cell id) :
    action.event? first = action.event? second := by
  cases action with
  | rotate _ _ | exchange _ _ => rfl
  | reset id _ =>
    have here : first.cell id = second.cell id := same id (by simp [qubits])
    have wires : first.wire id = second.wire id := congrArg Prod.fst here
    simp [event?, wires]
  | measure target =>
    have here : first.cell target.id = second.cell target.id := same _ (by simp [qubits])
    simp [event?, Placement.leg_congr _ here]
  | product factors => simp [event?, Placement.map_target_congr same]
  | parity instruction => simp [event?, Placement.map_target_congr same]
  | feedback entry =>
    have here : first.cell entry.id = second.cell entry.id := same _ (by simp [qubits])
    simp [event?, Placement.leg_congr _ here]
  | couple coupling =>
    have one := same coupling.first.id (by simp [qubits, Coupling.qubits])
    have two := same coupling.second.id (by simp [qubits, Coupling.qubits])
    simp [event?, Placement.leg_congr _ one, Placement.leg_congr _ two]
  | sqrtProduct pair =>
    have one := same pair.first (by simp [qubits, SqrtPair.qubits])
    have two := same pair.second (by simp [qubits, SqrtPair.qubits])
    simp [event?, Placement.leg_congr _ one, Placement.leg_congr _ two]
  | iswap one two =>
    simp [event?, same one (by simp [qubits]), same two (by simp [qubits])]

/-- Pauli operators name the wires of their qubits. -/
theorem any_namedBy_target (placement : Placement) (targets : List Target) {wire : Qubit}
    (named : (targets.map placement.target).any (Event.namedBy wire) = true) :
    ∃ id ∈ pauliQubits targets, placement.wire id = wire := by
  obtain ⟨told, toldMember, named⟩ := List.any_eq_true.mp named
  obtain ⟨target, member, rfl⟩ := List.mem_map.mp toldMember
  cases target with
  | pauli basis id inverted =>
    refine ⟨id, Placement.mem_pauliQubits member, ?_⟩
    simpa [Placement.target, Event.namedBy, Placement.leg] using named
  | qubit _ _ | record _ | sweep _ | combiner =>
    simp [Placement.target, Event.namedBy] at named

/-- An event names no wire but those of its action's qubits. -/
theorem exists_wire_of_names {placement : Placement} {action : Action} {event : Event}
    (left : action.event? placement = some event) {wire : Qubit}
    (named : event.names wire = true) : ∃ id ∈ action.qubits, placement.wire id = wire := by
  cases action with
  | rotate _ _ | exchange _ _ => simp [event?] at left
  | reset id _ =>
    obtain rfl := Option.some.inj left
    exact ⟨id, by simp [qubits], by simpa [Event.names] using named⟩
  | measure target =>
    obtain rfl := Option.some.inj left
    exact ⟨target.id, by simp [qubits], by simpa [Event.names, Placement.leg] using named⟩
  | product factors =>
    obtain rfl := Option.some.inj left
    exact any_namedBy_target placement factors named
  | parity instruction =>
    obtain rfl := Option.some.inj left
    exact any_namedBy_target placement instruction.targets named
  | feedback entry =>
    obtain rfl := Option.some.inj left
    exact ⟨entry.id, by simp [qubits], by simpa [Event.names, Placement.leg] using named⟩
  -- An event on two qubits names the wire of one or of the other.
  | couple coupling =>
    obtain rfl := Option.some.inj left
    obtain same | same : wire = placement.wire coupling.first.id ∨
        wire = placement.wire coupling.second.id := by
      simpa [Event.names, Placement.leg] using named
    · exact ⟨_, by simp [qubits, Coupling.qubits], same.symm⟩
    · exact ⟨coupling.second.id, by simp [qubits, Coupling.qubits], same.symm⟩
  | sqrtProduct pair =>
    obtain rfl := Option.some.inj left
    obtain same | same : wire = placement.wire pair.first ∨
        wire = placement.wire pair.second := by
      simpa [Event.names, Placement.leg] using named
    · exact ⟨_, by simp [qubits, SqrtPair.qubits], same.symm⟩
    · exact ⟨pair.second, by simp [qubits, SqrtPair.qubits], same.symm⟩
  | iswap first second =>
    obtain rfl := Option.some.inj left
    obtain same | same : wire = placement.wire first ∨ wire = placement.wire second := by
      simpa [Event.names, Placement.cell] using named
    · exact ⟨first, by simp [qubits], same.symm⟩
    · exact ⟨second, by simp [qubits], same.symm⟩

/-- An event belongs to the records when its action does. -/
theorem isRecord_of_event? {placement : Placement} {action : Action} {event : Event}
    (left : action.event? placement = some event) : event.isRecord = action.isRecord := by
  cases action <;> first
    | (simp [event?] at left; done)
    | (obtain rfl := Option.some.inj left; rfl)

/-- Only an action of the records makes an entry of the record stream. -/
theorem record?_of_not_isRecord {action : Action} (silent : action.isRecord = false) :
    action.record? = none := by
  cases action <;> simp_all [isRecord, record?]

end Action

/-! ### Agreement -/

/-- Whether two lists of actions can stand for each other. -/
structure Agrees (first second : List Action) : Prop where
  after : ∀ placement : Placement, placement.after first = placement.after second
  events : ∀ placement : Placement,
    Aligned Event.on (placement.events first) (placement.events second)
  records : records first = records second

namespace Agrees

variable {first second third other : List Action}

/-- Actions agree with themselves. -/
protected theorem refl (actions : List Action) : Agrees actions actions :=
  ⟨fun _ => rfl, fun _ => .refl _, rfl⟩

/-- Agreement goes both ways. -/
protected theorem symm (agrees : Agrees first second) : Agrees second first :=
  ⟨fun placement => (agrees.after placement).symm, fun placement => (agrees.events placement).symm,
    agrees.records.symm⟩

/-- Agreement is passed on. -/
protected theorem trans (left : Agrees first second) (right : Agrees second third) :
    Agrees first third :=
  ⟨fun placement => (left.after placement).trans (right.after placement),
    fun placement => (left.events placement).trans (right.events placement),
    left.records.trans right.records⟩

/-- What agrees has equivalent traces. -/
theorem equivalent (agrees : Agrees first second) :
    Trace.Equivalent ⟨Placement.start.after first, Placement.start.events first⟩
      ⟨Placement.start.after second, Placement.start.events second⟩ where
  wires := by rw [agrees.after]
  frames := by rw [agrees.after]
  onWire wire := agrees.events Placement.start (.wire wire)
  recordOrder := agrees.events Placement.start .records

/-- Parts can be replaced by parts that agree with them. -/
theorem append (left : Agrees first second) (right : Agrees third other) :
    Agrees (first ++ third) (second ++ other) where
  after placement := by
    rw [Placement.after_append, Placement.after_append, left.after, right.after]
  events placement := by
    rw [Placement.events_append, Placement.events_append, left.after]
    exact (left.events placement).append (right.events _)
  records := by
    rw [records_append, records_append, left.records, right.records]

/-- Entries can be replaced one by one. -/
theorem flatMap {α : Type} {entries : List α} {before after : α → List Action}
    (each : ∀ entry ∈ entries, Agrees (before entry) (after entry)) :
    Agrees (entries.flatMap before) (entries.flatMap after) := by
  induction entries with
  | nil => exact .refl _
  | cons entry rest inductionHypothesis =>
    rw [List.flatMap_cons, List.flatMap_cons]
    exact (each entry (.head _)).append
      (inductionHypothesis fun later member => each later (.tail _ member))

/-- What agrees once agrees any number of times in a row. -/
theorem repeated (times : Nat) (agrees : Agrees first second) :
    Agrees (repeated times first) (repeated times second) := by
  induction times with
  | zero => exact .refl _
  | succ times inductionHypothesis =>
    rw [StabilizerLayers.repeated, StabilizerLayers.repeated, List.replicate_succ,
      List.replicate_succ, List.flatten_cons, List.flatten_cons]
    exact agrees.append inductionHypothesis

end Agrees

/-! ### Actions on distinct qubits -/

/-- Whether two actions share no qubit and do not both belong to the records. -/
def Independent (first second : Action) : Prop :=
  (∀ id ∈ first.qubits, id ∉ second.qubits) ∧
    (first.isRecord = true → second.isRecord = false)

namespace Independent

variable {first second : Action}

/-- Independence goes both ways. -/
protected theorem symm (apart : Independent first second) : Independent second first := by
  refine ⟨fun id member shared => apart.1 id shared member, fun recorded => ?_⟩
  by_contra other
  have silent := apart.2 (by simpa using other)
  simp [recorded] at silent

/-- An action does not see what an independent one has done before it. -/
theorem event?_move (apart : Independent first second) (placement : Placement) :
    second.event? (first.move placement) = second.event? placement :=
  Action.event?_congr fun _ member =>
    first.cell_move_of_not_mem placement fun shared => apart.1 _ shared member

/-- Independent actions lead to the same placement in either order. -/
theorem move_move (apart : Independent first second) (placement : Placement) :
    second.move (first.move placement) = first.move (second.move placement) := by
  refine Placement.ext_cell fun id => ?_
  by_cases mine : id ∈ first.qubits
  · have notOther : id ∉ second.qubits := apart.1 id mine
    rw [second.cell_move_of_not_mem _ notOther]
    refine Action.cell_move_congr (fun tested member => ?_) mine
    exact (second.cell_move_of_not_mem placement (apart.1 tested member)).symm
  · rw [first.cell_move_of_not_mem _ mine]
    by_cases theirs : id ∈ second.qubits
    · refine Action.cell_move_congr (fun tested member => ?_) theirs
      exact first.cell_move_of_not_mem placement fun shared => apart.1 tested shared member
    · rw [second.cell_move_of_not_mem _ theirs, second.cell_move_of_not_mem _ theirs,
        first.cell_move_of_not_mem _ mine]

/-- The events of independent actions at one placement share no channel. -/
theorem channels_apart (apart : Independent first second) (placement : Placement)
    {one two : Event} (firstLeft : first.event? placement = some one)
    (secondLeft : second.event? placement = some two) (channel : Channel)
    (lies : one.on channel = true) : two.on channel = false := by
  rw [Bool.eq_false_iff]
  intro alsoLies
  cases channel with
  | wire wire =>
    obtain ⟨id, mine, here⟩ := Action.exists_wire_of_names firstLeft lies
    obtain ⟨other, theirs, there⟩ := Action.exists_wire_of_names secondLeft alsoLies
    have same : id = other := placement.wire.injective (here.trans there.symm)
    exact apart.1 id mine (same ▸ theirs)
  | records =>
    have recorded : first.isRecord = true := (Action.isRecord_of_event? firstLeft) ▸ lies
    have alsoRecorded : second.isRecord = true :=
      (Action.isRecord_of_event? secondLeft) ▸ alsoLies
    simp [apart.2 recorded] at alsoRecorded

/-- Independent actions change places. -/
theorem agrees (apart : Independent first second) : Agrees [first, second] [second, first] where
  after placement := apart.move_move placement
  events placement := by
    simp only [Placement.events, List.append_nil, apart.event?_move, apart.symm.event?_move]
    refine Aligned.append_comm fun one oneLeft two twoLeft channel lies => ?_
    exact apart.channels_apart placement (Option.mem_toList.mp oneLeft)
      (Option.mem_toList.mp twoLeft) channel lies
  records := by
    by_cases recorded : first.isRecord = true
    · have silent := Action.record?_of_not_isRecord (apart.2 recorded)
      cases made : first.record? <;> simp [records, silent, made]
    · have silent := Action.record?_of_not_isRecord (Bool.eq_false_iff.mpr recorded)
      cases made : second.record? <;> simp [records, silent, made]

end Independent

namespace Agrees

variable {first second : List Action}

/-- An action passes actions that are all independent of it. -/
theorem cons_comm {action : Action} (apart : ∀ next ∈ second, Independent action next) :
    Agrees (action :: second) (second ++ [action]) := by
  induction second with
  | nil => exact .refl _
  | cons next rest inductionHypothesis =>
    have passed : Agrees ([action, next] ++ rest) ([next, action] ++ rest) :=
      (apart next (.head _)).agrees.append (.refl rest)
    have onward : Agrees ([next] ++ (action :: rest)) ([next] ++ (rest ++ [action])) :=
      (Agrees.refl [next]).append
        (inductionHypothesis fun later member => apart later (.tail _ member))
    exact passed.trans onward

/-- Actions that are all independent of each other's change places. -/
theorem append_comm
    (apart : ∀ action ∈ first, ∀ next ∈ second, Independent action next) :
    Agrees (first ++ second) (second ++ first) := by
  induction first with
  | nil => simpa using Agrees.refl second
  | cons action rest inductionHypothesis =>
    have later : Agrees ([action] ++ (rest ++ second)) ([action] ++ (second ++ rest)) :=
      (Agrees.refl [action]).append
        (inductionHypothesis fun other member => apart other (.tail _ member))
    have passed : Agrees ((action :: second) ++ rest) ((second ++ [action]) ++ rest) :=
      (cons_comm (apart action (.head _))).append (.refl rest)
    simpa using later.trans passed

/-- Groups of actions that are independent of each other can stand in any
    order. -/
theorem flatMap_of_perm {α : Type} {entries sorted : List α} {actions : α → List Action}
    (perm : entries.Perm sorted)
    (apart : entries.Pairwise fun entry other =>
      ∀ action ∈ actions entry, ∀ next ∈ actions other, Independent action next) :
    Agrees (entries.flatMap actions) (sorted.flatMap actions) := by
  have symmetric : ∀ {entry other : α},
      (∀ action ∈ actions entry, ∀ next ∈ actions other, Independent action next) →
      ∀ action ∈ actions other, ∀ next ∈ actions entry, Independent action next :=
    fun apart action member next later => (apart next later action member).symm
  induction perm with
  | nil => exact .refl _
  | cons entry _ inductionHypothesis =>
    rw [List.flatMap_cons, List.flatMap_cons]
    exact (Agrees.refl _).append (inductionHypothesis (List.pairwise_cons.mp apart).2)
  | swap entry other rest =>
    have pair := (List.pairwise_cons.mp apart).1 entry (.head _)
    simp only [List.flatMap_cons, ← List.append_assoc]
    exact (append_comm pair).append (.refl _)
  | trans left _ leftHypothesis rightHypothesis =>
    exact (leftHypothesis apart).trans
      (rightHypothesis ((left.pairwise_iff symmetric).mp apart))

/-- Two rounds over entries are one round that does both to each entry, if what
    the second round does to an entry is independent of what the first does to a
    later one. -/
theorem flatMap_append {α : Type} {entries : List α} {before after : α → List Action}
    (apart : entries.Pairwise fun entry later =>
      ∀ action ∈ after entry, ∀ next ∈ before later, Independent action next) :
    Agrees (entries.flatMap fun entry => before entry ++ after entry)
      (entries.flatMap before ++ entries.flatMap after) := by
  induction entries with
  | nil => exact .refl _
  | cons entry rest inductionHypothesis =>
    obtain ⟨here, later⟩ := List.pairwise_cons.mp apart
    have passed : Agrees (after entry ++ rest.flatMap before) (rest.flatMap before ++ after entry) := by
      refine append_comm fun action made next member => ?_
      obtain ⟨other, listed, member⟩ := List.mem_flatMap.mp member
      exact here other listed action made next member
    have rounds := (Agrees.refl (before entry ++ after entry)).append (inductionHypothesis later)
    have moved := ((Agrees.refl (before entry)).append passed).append (.refl (rest.flatMap after))
    simp only [List.flatMap_cons, List.append_assoc] at rounds moved ⊢
    exact rounds.trans moved

end Agrees

/-- Entries on distinct qubits act independently, if one of two actions is none
    of the records. -/
theorem pairwise_independent {α : Type} {entries : List α} {qubits : α → List Qubit}
    {first second : α → List Action} (once : (entries.flatMap qubits).Nodup)
    (firstWithin : ∀ entry, ∀ action ∈ first entry, action.qubits ⊆ qubits entry)
    (secondWithin : ∀ entry, ∀ action ∈ second entry, action.qubits ⊆ qubits entry)
    (silent : ∀ entry other, ∀ action ∈ first entry, ∀ next ∈ second other,
      action.isRecord = false ∨ next.isRecord = false) :
    entries.Pairwise fun entry other =>
      ∀ action ∈ first entry, ∀ next ∈ second other, Independent action next := by
  refine (List.nodup_flatMap.mp once).2.imp fun {entry other} apart action made next later => ?_
  refine ⟨fun id member shared => ?_, fun recorded => ?_⟩
  · exact apart (firstWithin entry action made member) (secondWithin other next later shared)
  · rcases silent entry other action made next later with quiet | quiet
    · simp [quiet] at recorded
    · exact quiet

end StabilizerLayers
