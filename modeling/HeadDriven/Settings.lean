import HeadDriven.Frame
import HeadDriven.Settings.Equivalence

/-! Settings of a search: how much of the chart is kept, how much of the past an
event sees, and which constraints are switched on. -/
namespace HeadDriven

structure Settings where
  pruneFactor : Float
  maxCellSize : Nat
  historyWindow : Nat
  prevWordWindow : Nat
  commaConstraint : Bool
  futureCheck : Bool
  equivalence : Equivalence
  frames : FrameKind
  maxSentenceLength : Nat
  baseNpVerbBarrier : Bool
  deriving DecidableEq, Repr

namespace Settings

def default : Settings where
  pruneFactor := 4.0
  maxCellSize := 100
  historyWindow := 2
  prevWordWindow := 1
  commaConstraint := true
  futureCheck := true
  equivalence := .standard
  frames := .bag
  maxSentenceLength := 100
  baseNpVerbBarrier := true

def logTen : Float := 2.302585092994046

/-- The width of the beam in natural logarithms; the prune factor counts powers of ten. -/
def beamWidth (s : Settings) : Float := s.pruneFactor * logTen

/-- Whether two settings agree; prune factors agree as numbers. -/
def agrees (s t : Settings) : Bool :=
  s.pruneFactor == t.pruneFactor && { s with pruneFactor := 0.0 } = { t with pruneFactor := 0.0 }

end Settings

end HeadDriven
