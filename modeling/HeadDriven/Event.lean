import HeadDriven.Frame
import HeadDriven.History

/-! The events of a derivation, each with everything its probability may depend
on: the prior of a constituent, the choice of a head child together with the two
frames, and the choice of one modifier or of none on one side of the head. -/
namespace HeadDriven

inductive Side where
  | left
  | right
  deriving DecidableEq, Repr

namespace Side

def opposite : Side → Side
  | .left => .right
  | .right => .left

def name : Side → String
  | .left => "left"
  | .right => "right"

def ofName? : String → Option Side
  | "left" => some .left
  | "right" => some .right
  | _ => none

end Side

/-- A constituent with this label and head word. The label of a single word is its tag. -/
structure PriorEvent where
  word : TaggedWord
  label : Symbol
  deriving DecidableEq, Repr

structure HeadContext where
  word : TaggedWord
  parent : Symbol
  headLabel : Symbol
  deriving DecidableEq, Repr

structure HeadEvent where
  context : HeadContext
  left : Frame
  right : Frame
  deriving DecidableEq, Repr

/-- One more modifier on one side. In a stop event the modifier is the stop word. -/
structure ModifierEvent where
  modWord : TaggedWord
  headWord : TaggedWord
  modLabel : Symbol
  history : History
  parent : Symbol
  headLabel : Symbol
  frame : Frame
  verbIntervening : Bool
  side : Side
  deriving DecidableEq, Repr

structure CoarseHistory where
  side : Side
  parent : Symbol
  headLabel : Symbol
  deriving DecidableEq, Repr

structure ModifierFuture where
  label : Symbol
  tag : Symbol
  deriving DecidableEq, Repr

def ModifierEvent.coarseHistory (e : ModifierEvent) : CoarseHistory :=
  ⟨e.side, e.parent, e.headLabel⟩

def ModifierEvent.future (e : ModifierEvent) : ModifierFuture := ⟨e.modLabel, e.modWord.tag⟩

end HeadDriven
