import NumericControl.Launch
import NumericControl.Main
import NumericControl.Proofs.Restart
import NumericControl.Proofs.SettingsLine
import NumericControl.Proofs.CancelledMotion
import NumericControl.Proofs.FeedLimit
import NumericControl.Proofs.NamedAxes
import NumericControl.Proofs.RedoLog
import NumericControl.Proofs.Whereabouts
import NumericControl.Proofs.WordOrder
import NumericControl.Proofs.Grammar
import NumericControl.Proofs.NormalForm
import NumericControl.Proofs.CarriedAction
import NumericControl.Proofs.MachineLimits
import NumericControl.Proofs.StateLayout
import NumericControl.Proofs.RunAccount
import NumericControl.Proofs.UnreadableLine
import NumericControl.Proofs.ShiftedOrigin
import NumericControl.Proofs.MetricTranslation
import NumericControl.Proofs.AxisPermutation
import NumericControl.Proofs.LaunchOutcome
import NumericControl.Proofs.CleanCommand
import NumericControl.Proofs.Layout
import NumericControl.Proofs.DistanceMode
import NumericControl.Proofs.LeftmostFault
import NumericControl.Proofs.LastAssignment
import NumericControl.Proofs.BinaryValue
import NumericControl.Proofs.ByteReader
import NumericControl.Proofs.FiniteValues
import NumericControl.Proofs.WholeCodes
