import HeadDriven.Event

/-! The statistical model as the search sees it: a natural log probability for
every event, and the finite choices that the search has to enumerate. -/
namespace HeadDriven

def logOfZero : Float := -1.0e300

def isImpossible (logProb : Float) : Bool := logProb.isNaN || logProb ≤ logOfZero

structure Model where
  nonterminals : List Symbol
  tags : Symbol → List Symbol
  prior : PriorEvent → Float
  head : HeadEvent → Float
  possibleFrames : Side → HeadContext → List Frame
  modifier : ModifierEvent → Float
  stop : ModifierEvent → Float
  futurePossible : CoarseHistory → ModifierFuture → Bool

end HeadDriven
