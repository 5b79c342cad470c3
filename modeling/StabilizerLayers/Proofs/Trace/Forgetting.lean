import StabilizerLayers.Proofs.Trace.Action
import StabilizerLayers.Proofs.Trace.Marks

/-!
# Forgotten tails

Events after the last measurement of a whole circuit can be left out, except for
detectors and observables. A list of events forgets a tail if it splits into what
is seen and a quiet tail, and only the tail loses events.

Forgetting twice is forgetting once. The two splits of the events in between need
not be at the same place; but what one split has in its tail and the other has
not shares no wire with what stands on the wrong side of it, so both tails
together are a tail of the first list.
-/

namespace StabilizerLayers

namespace Event

/-- Whether an event is a reset, an operation on two qubits, or feedback. -/
def isUnseen : Event → Bool
  | reset _ | feedback .. | couple _ | sqrtProduct .. | iswap _ => true
  | measure .. | product _ | parity _ => false

/-- Whether an event neither measures nor names Pauli operators of an
    observable. -/
def isQuiet : Event → Bool
  | measure .. | product _ => false
  | parity instruction => !instruction.targets.any Target.isPauli
  | reset _ | feedback .. | couple _ | sqrtProduct .. | iswap _ => true

/-- An event that can be left out is quiet. -/
theorem isQuiet_of_isUnseen {event : Event} (unseen : event.isUnseen = true) :
    event.isQuiet = true := by
  cases event <;> simp_all [isUnseen, isQuiet]

/-- Every event lies on a wire or among the records. -/
theorem exists_on (event : Event) : ∃ channel, event.on channel = true := by
  cases event with
  | reset wire => exact ⟨.wire wire, by simp [on, names]⟩
  | measure _ _ _ | product _ | parity _ | feedback _ _ _ => exact ⟨.records, rfl⟩
  | couple legs | sqrtProduct legs _ =>
    induction legs with
    | _ first second => exact ⟨.wire first.1, by simp [on, names]⟩
  | iswap cells =>
    induction cells with
    | _ first second => exact ⟨.wire first.1, by simp [on, names]⟩

end Event

/-! ### Events left out -/

/-- Whether a list of events is another one with some resets, operations on two
    qubits and feedback left out. -/
inductive Thinned : (full thin : List Event) → Prop
  | nil : Thinned [] []
  | keep (event : Event) {full thin : List Event} :
    Thinned full thin → Thinned (event :: full) (event :: thin)
  | drop {event : Event} {full thin : List Event} (unseen : event.isUnseen = true) :
    Thinned full thin → Thinned (event :: full) thin

namespace Thinned

variable {full thin first second third : List Event}

/-- Leaving nothing out is thinning. -/
protected theorem refl (events : List Event) : Thinned events events := by
  induction events with
  | nil => exact .nil
  | cons event rest inductionHypothesis => exact .keep event inductionHypothesis

/-- Thinning again is thinning. -/
protected theorem trans (left : Thinned first second) (right : Thinned second third) :
    Thinned first third := by
  induction left generalizing third with
  | nil => exact right
  | keep event _ inductionHypothesis =>
    cases right with
    | keep _ later => exact .keep event (inductionHypothesis later)
    | drop unseen later => exact .drop unseen (inductionHypothesis later)
  | drop unseen _ inductionHypothesis => exact .drop unseen (inductionHypothesis right)

/-- Parts can be thinned. -/
theorem append (left : Thinned full thin) (right : Thinned first second) :
    Thinned (full ++ first) (thin ++ second) := by
  induction left with
  | nil => exact right
  | keep event _ inductionHypothesis => exact .keep event inductionHypothesis
  | drop unseen _ inductionHypothesis => exact .drop unseen inductionHypothesis

/-- What is thinned is thinned part by part. -/
theorem exists_append (thinned : Thinned (first ++ second) thin) :
    ∃ one two, thin = one ++ two ∧ Thinned first one ∧ Thinned second two := by
  induction first generalizing thin with
  | nil => exact ⟨[], thin, rfl, .nil, thinned⟩
  | cons event rest inductionHypothesis =>
    cases thinned with
    | keep _ later =>
      obtain ⟨one, two, rfl, restThinned, secondThinned⟩ := inductionHypothesis later
      exact ⟨event :: one, two, rfl, .keep event restThinned, secondThinned⟩
    | drop unseen later =>
      obtain ⟨one, two, rfl, restThinned, secondThinned⟩ := inductionHypothesis later
      exact ⟨one, two, rfl, .drop unseen restThinned, secondThinned⟩

/-- Unseen events can all be left out. -/
theorem of_isUnseen (unseen : ∀ event ∈ full, event.isUnseen = true) : Thinned full [] := by
  induction full with
  | nil => exact .nil
  | cons event rest inductionHypothesis =>
    exact .drop (unseen event (.head _))
      (inductionHypothesis fun later member => unseen later (.tail _ member))

/-- Thinning brings in no events. -/
theorem mem_of_mem (thinned : Thinned full thin) {event : Event} (member : event ∈ thin) :
    event ∈ full := by
  induction thinned with
  | nil => exact member
  | keep kept _ inductionHypothesis =>
    rcases List.mem_cons.mp member with rfl | later
    · exact .head _
    · exact .tail _ (inductionHypothesis later)
  | drop _ _ inductionHypothesis => exact .tail _ (inductionHypothesis member)

/-- Each event can be marked as kept or not. -/
theorem exists_marked (thinned : Thinned full thin) :
    ∃ marked : List (Event × Bool), marked.map Prod.fst = full ∧
      (marked.filter fun entry => entry.2).map Prod.fst = thin ∧
      ∀ entry ∈ marked, entry.2 = false → entry.1.isUnseen = true := by
  induction thinned with
  | nil => exact ⟨[], rfl, rfl, by simp⟩
  | keep event _ inductionHypothesis =>
    obtain ⟨marked, rfl, rfl, unseen⟩ := inductionHypothesis
    refine ⟨(event, true) :: marked, rfl, rfl, fun entry member unmarked => ?_⟩
    rcases List.mem_cons.mp member with rfl | later
    · cases unmarked
    · exact unseen entry later unmarked
  | @drop event _ _ here _ inductionHypothesis =>
    obtain ⟨marked, rfl, rfl, unseen⟩ := inductionHypothesis
    refine ⟨(event, false) :: marked, rfl, rfl, fun entry member unmarked => ?_⟩
    rcases List.mem_cons.mp member with rfl | later
    · exact here
    · exact unseen entry later unmarked

/-- Marked events are kept. -/
theorem of_marked {marked : List (Event × Bool)}
    (unseen : ∀ entry ∈ marked, entry.2 = false → entry.1.isUnseen = true) :
    Thinned (marked.map Prod.fst) ((marked.filter fun entry => entry.2).map Prod.fst) := by
  induction marked with
  | nil => exact .nil
  | cons entry rest inductionHypothesis =>
    have later := inductionHypothesis fun other member => unseen other (.tail _ member)
    cases mark : entry.2 with
    | true => simpa [mark] using Thinned.keep entry.1 later
    | false => simpa [mark] using Thinned.drop (unseen entry (.head _) mark) later

/-- Aligned lists can be thinned alike. -/
theorem of_aligned (thinned : Thinned full thin) (aligned : Aligned Event.on first full) :
    ∃ other, Thinned first other ∧ Aligned Event.on other thin := by
  obtain ⟨marked, rfl, rfl, unseen⟩ := thinned.exists_marked
  obtain ⟨carried, rfl, same⟩ := aligned.carry Event.exists_on
  refine ⟨_, of_marked fun entry member unmarked => ?_, (same.filter fun entry => entry.2).map⟩
  exact unseen entry (same.mem_of_mem (fun entry => entry.1.exists_on) member) unmarked

end Thinned

/-! ### Tails left out -/

/-- Whether a list of events splits into what is seen and a quiet tail, of which
    another list leaves out some events. -/
def ForgetsTail (full short : List Event) : Prop :=
  ∃ seen tail rest, Aligned Event.on full (seen ++ tail) ∧
    Aligned Event.on short (seen ++ rest) ∧ (∀ event ∈ tail, event.isQuiet = true) ∧
    Thinned tail rest

namespace ForgetsTail

variable {full short first second third : List Event}

/-- Events without a tail forget nothing. -/
protected theorem refl (events : List Event) : ForgetsTail events events :=
  ⟨events, [], [], by simpa using Aligned.refl _, by simpa using Aligned.refl _, by simp, .nil⟩

/-- Aligned lists forget alike. -/
theorem of_aligned (forgets : ForgetsTail full short) (fullSame : Aligned Event.on first full)
    (shortSame : Aligned Event.on second short) : ForgetsTail first second := by
  obtain ⟨seen, tail, rest, fullParts, shortParts, quiet, thinned⟩ := forgets
  exact ⟨seen, tail, rest, fullSame.trans fullParts, shortSame.trans shortParts, quiet, thinned⟩

/-- Forgetting twice is forgetting once. -/
protected theorem trans (left : ForgetsTail first second) (right : ForgetsTail second third) :
    ForgetsTail first third := by
  obtain ⟨seen, tail, rest, firstParts, secondParts, quiet, thinned⟩ := left
  obtain ⟨seenLater, tailLater, restLater, secondCut, thirdParts, quietLater, thinnedLater⟩ := right
  obtain ⟨both, left, right, neither, seenCut, restCut, laterCut, tailCut, apart⟩ :=
    (secondParts.symm.trans secondCut).crossing Event.exists_on
  -- What the second run leaves out of its tail, in the order of the four parts.
  obtain ⟨remaining, remainingThinned, remainingSame⟩ := thinnedLater.of_aligned tailCut.symm
  obtain ⟨leftKept, neitherKept, rfl, leftThinned, neitherThinned⟩ :=
    remainingThinned.exists_append
  -- And in the order of what the first run had kept of its own tail.
  obtain ⟨restKept, restThinned, restSame⟩ :=
    ((Thinned.refl right).append neitherThinned).of_aligned restCut
  refine ⟨both, left ++ tail, leftKept ++ restKept, ?_, ?_, ?_, ?_⟩
  · have split := firstParts.trans (seenCut.append (.refl tail))
    rwa [List.append_assoc] at split
  · have passed : Aligned Event.on (leftKept ++ right) (right ++ leftKept) :=
      Aligned.append_comm fun event member next following channel lies =>
        apart event (leftThinned.mem_of_mem member) next following channel lies
    have split := thirdParts.trans (laterCut.append remainingSame.symm)
    have moved := ((Aligned.refl both).append passed.symm).append (.refl neitherKept)
    have joined := (Aligned.refl (both ++ leftKept)).append restSame.symm
    simp only [List.append_assoc] at split moved joined
    exact (split.trans moved).trans joined
  · intro event member
    rcases List.mem_append.mp member with moved | here
    · refine quietLater event ?_
      exact tailCut.symm.mem_of_mem Event.exists_on (List.mem_append_left _ moved)
    · exact quiet event here
  · exact leftThinned.append (thinned.trans restThinned)

end ForgetsTail

end StabilizerLayers
