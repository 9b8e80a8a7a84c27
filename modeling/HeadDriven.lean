import HeadDriven.Main
import HeadDriven.Model.Adjusted
import HeadDriven.Proofs.Replay
import HeadDriven.Proofs.Discharge
import HeadDriven.Proofs.Context
import HeadDriven.Proofs.VerbPaths
import HeadDriven.Proofs.Congruence
import HeadDriven.Proofs.Chart.Verdict
import HeadDriven.Proofs.Reuse
import HeadDriven.Proofs.Answering
import HeadDriven.Proofs.Futures
import HeadDriven.Proofs.Words
import HeadDriven.Proofs.Yield
import HeadDriven.Proofs.Sessions
import HeadDriven.Proofs.BaseNps
import HeadDriven.Proofs.FixedPoint
import HeadDriven.Proofs.FrameKinds
import HeadDriven.Proofs.Model.RoundTrip
import HeadDriven.Proofs.Commas
import HeadDriven.Proofs.Model.Composition
import HeadDriven.Proofs.Model.Projections
import HeadDriven.Proofs.KnownWords
import HeadDriven.Proofs.Bracketing
import HeadDriven.Proofs.Settings.Assignments
import HeadDriven.Proofs.Descent
import HeadDriven.Proofs.Frames
import HeadDriven.Proofs.Histories
import HeadDriven.Proofs.Symbols
