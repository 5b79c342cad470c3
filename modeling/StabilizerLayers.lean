import StabilizerLayers.Circuit.Interchange
import StabilizerLayers.Main
import StabilizerLayers.Proofs.Circuit.BuilderCalls
import StabilizerLayers.Proofs.Pipeline.Cycles
import StabilizerLayers.Proofs.Pipeline.Verification
import StabilizerLayers.Proofs.Schedule.FlippedCircuits
import StabilizerLayers.Proofs.Schedule.ForgottenRotations
import StabilizerLayers.Proofs.Schedule.GreedyRuns
import StabilizerLayers.Proofs.Schedule.HoistedCoords
import StabilizerLayers.Proofs.Schedule.MergedRotations
import StabilizerLayers.Proofs.Schedule.RoundTrip
import StabilizerLayers.Proofs.Schedule.Traces
import StabilizerLayers.Proofs.Schedule.WrittenPairs
import StabilizerLayers.Proofs.Text.Composition
import StabilizerLayers.Proofs.Text.Derivations
import StabilizerLayers.Proofs.Text.LineNumbers
import StabilizerLayers.Proofs.Text.Numerals
import StabilizerLayers.Proofs.Trace.RotationLayers
