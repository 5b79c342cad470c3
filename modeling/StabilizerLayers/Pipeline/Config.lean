import StabilizerLayers.Pipeline.Pass

/-!
# Pipeline configuration

Some passes of the canonicalization pipeline can be left out. Sweeping, Z-basis
forms and the removal of idle rotations are always in it.
-/

namespace StabilizerLayers

/-- The switches of the pipeline. -/
structure Config where
  /-- Whether what follows the last measurement may be dropped. -/
  wholeCircuit : Bool := true
  hoistCoords : Bool := true
  rollLoops : Bool := true
  mergeRotations : Bool := true
  dropRotationsBeforeResets : Bool := true
  verify : Bool := true
  /-- Sweeps after the Z-basis forms, at most. -/
  finalRounds : Nat := 1
deriving DecidableEq, Repr

namespace Config

/-- Most sweeps that can be asked for. -/
def maxRounds : Nat := 16

/-- Refuses a number of sweeps out of range. -/
def validate (config : Config) : Except TransformError Unit :=
  if 1 ≤ config.finalRounds ∧ config.finalRounds ≤ maxRounds then .ok ()
  else .error (.invalidRounds 1 maxRounds config.finalRounds)

/-- The pass if it is switched on. -/
def optional (on : Bool) (pass : Pass) : List Pass := if on then [pass] else []

/-- The passes in the order in which they run. -/
def passes (config : Config) : List Pass :=
  optional config.hoistCoords .hoistCoords ++ [.sweep 1, .zForm] ++
    optional config.rollLoops .rollLoops ++ [.sweeps config.finalRounds, .dropIdleRotations] ++
    optional config.mergeRotations .mergeRotations ++
    optional config.dropRotationsBeforeResets .dropRotationsBeforeResets ++ [.dropTail] ++
    optional config.verify .verify

/-- The findings that a run starts with. -/
def findings (config : Config) : Findings := .fresh config.wholeCircuit

end Config

end StabilizerLayers
