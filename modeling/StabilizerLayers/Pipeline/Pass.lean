import StabilizerLayers.Pipeline.Properties
import StabilizerLayers.Schedule.Census
import StabilizerLayers.Schedule.Coordinates
import StabilizerLayers.Schedule.Rolling
import StabilizerLayers.Schedule.RotationCleanup
import StabilizerLayers.Schedule.Tail
import StabilizerLayers.TransformError

/-!
# Passes

A pass takes a schedule to the one that the next pass sees, and may add a
finding. Only one pass looks instead of changing: it refuses a schedule that
still acts along other axes than Z, and otherwise records the census.
-/

namespace StabilizerLayers

/-- What passes find out about a schedule. -/
inductive Finding where
  /-- The census of the schedule that was checked. -/
  | census
deriving DecidableEq, Repr

/-- What a finding consists of. -/
def Finding.Value : Finding → Type
  | census => Census

/-- What the passes of a pipeline know. -/
abbrev Findings := Properties Finding Finding.Value

/-- One pass over a schedule. -/
inductive Pass where
  /-- Declares qubit coordinates at the start. -/
  | hoistCoords
  /-- Sweeps up to this many times. -/
  | sweep (rounds : Nat)
  /-- Puts every layer into its Z-basis form. -/
  | zForm
  /-- Rolls final rotations out of loops. -/
  | rollLoops
  /-- Drops rotation layers that rotate nothing. -/
  | dropIdleRotations
  /-- Merges rotations into earlier rotation layers. -/
  | mergeRotations
  /-- Drops rotations that resets forget. -/
  | dropRotationsBeforeResets
  /-- Drops what follows the last measurement. -/
  | dropTail
  /-- Checks that only operations along Z are left, and takes the census. -/
  | verify
deriving DecidableEq, Repr

namespace Pass

/-- Sweeps up to a number of times, at least once. -/
def sweeps (rounds : Nat) : Pass := sweep (max 1 rounds)

/-- The name of a pass. -/
def name : Pass → String
  | hoistCoords => "hoist_qubit_coords"
  | sweep _ => "local_optimization"
  | zForm => "z_basis_canonicalization"
  | rollLoops => "roll_loop_rotations"
  | dropIdleRotations => "remove_vacuous_rotations"
  | mergeRotations => "merge_rotations_earlier"
  | dropRotationsBeforeResets => "remove_rotations_before_resets"
  | dropTail => "remove_irrelevant_tail"
  | verify => "canonical_vocabulary_verification"

/-- The passes, with a single round of sweeping. -/
def all : List Pass :=
  [hoistCoords, sweep 1, zForm, rollLoops, dropIdleRotations, mergeRotations,
   dropRotationsBeforeResets, dropTail, verify]

/-- The pass of a name, with a single round of sweeping. -/
def ofName? (name : String) : Option Pass := all.find? fun pass => pass.name == name

/-- Whether a pass only looks. -/
def isAnalysis : Pass → Bool
  | verify => true
  | _ => false

/-- Whether a pass applies. The tail of a fragment stays. -/
def applies (findings : Findings) : Pass → Bool
  | dropTail => findings.wholeCircuit
  | _ => true

/-- The schedule after a pass that changes it. -/
def transform : Pass → Schedule → Schedule
  | hoistCoords => Schedule.hoistCoords
  | sweep rounds => Schedule.sweepUpTo rounds
  | zForm => Schedule.zForm
  | rollLoops => Schedule.rollLoops
  | dropIdleRotations => Schedule.withoutIdleRotations
  | mergeRotations => Schedule.mergeRotations
  | dropRotationsBeforeResets => Schedule.withoutRotationsBeforeResets
  | dropTail => Schedule.withoutTail
  | verify => id

/-- A pass at work. It changes the findings in place, so they are there afterwards whether it
    succeeds or fails. -/
abbrev Work (α : Type) : Type := ExceptT TransformError (StateM Findings) α

/-- Refuses a schedule that acts along other axes than Z; records the census of
    any other. -/
def check (schedule : Schedule) : Work Unit :=
  match schedule.outsideZBasis? with
  | some layer => throw (.outsideZBasis layer)
  | none => modify fun findings => findings.insert .census schedule.census

/-- What a pass does, whether it applies or not. -/
def work (pass : Pass) (schedule : Schedule) : Work Schedule :=
  match pass with
  | verify => do
    check schedule
    return schedule
  | pass => return pass.transform schedule

/-- Runs a pass, whether it applies or not. -/
def run (pass : Pass) (schedule : Schedule) (findings : Findings) :
    Except TransformError (Schedule × Findings) :=
  match (pass.work schedule).run.run findings with
  | (.ok next, noted) => .ok (next, noted)
  | (.error fault, _) => .error fault

/-- The pass that only looks hands back the schedule, or the layer at which it stops. The
    findings change only if it finds none. -/
theorem work_verify (schedule : Schedule) (findings : Findings) :
    (verify.work schedule).run.run findings =
      match schedule.outsideZBasis? with
      | some layer => (.error (.outsideZBasis layer), findings)
      | none => (.ok schedule, findings.insert .census schedule.census) := by
  rw [work, check]
  cases schedule.outsideZBasis? with
  | some layer => rfl
  | none => rfl

/-- A pass that changes the schedule leaves the findings alone. -/
theorem run_of_ne_verify {pass : Pass} (changes : pass ≠ .verify) (schedule : Schedule)
    (findings : Findings) : pass.run schedule findings = .ok (pass.transform schedule, findings) := by
  cases pass with
  | verify => exact absurd rfl changes
  | hoistCoords | sweep _ | zForm | rollLoops | dropIdleRotations | mergeRotations
  | dropRotationsBeforeResets | dropTail => rfl

/-- Runs passes one after the other, without those that do not apply. -/
def runAll : List Pass → Schedule → Findings → Except TransformError (Schedule × Findings)
  | [], schedule, findings => .ok (schedule, findings)
  | pass :: rest, schedule, findings =>
    if pass.applies findings then
      match pass.run schedule findings with
      | .ok (schedule, findings) => runAll rest schedule findings
      | .error fault => .error fault
    else runAll rest schedule findings

end Pass

end StabilizerLayers
