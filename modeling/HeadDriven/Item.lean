import HeadDriven.Event
import HeadDriven.Language

/-! Items: partial constituents over an inclusive span of words. An item knows
its head word, the stored item that is its head child, and for each side of the
head the pending frame, the modifiers and the window of what they looked like.
Growing an item makes a new one; links to children are arena positions. -/
namespace HeadDriven

structure SideInfo where
  frame : Frame
  /-- Arena positions of the modifiers, outermost first. -/
  children : List Nat
  prevMods : History
  prevWords : List TaggedWord
  verb : Bool
  deriving DecidableEq, Repr

def SideInfo.fresh (frame : Frame) (prevMods : History) (prevWords : List TaggedWord) :
    SideInfo :=
  ⟨frame, [], prevMods, prevWords, false⟩

structure Item where
  label : Symbol
  headWord : TaggedWord
  headChild : Option Nat
  left : SideInfo
  right : SideInfo
  /-- A stopped item is a finished constituent and takes no more modifiers. -/
  stopped : Bool
  first : Nat
  last : Nat
  logTree : Float
  logPrior : Float
  /-- Garbage has lost its place in the chart and takes part in nothing new. -/
  garbage : Bool
  deriving DecidableEq, Repr

namespace Item

def preterminal (word : TaggedWord) (position : Nat) (side : SideInfo) (logPrior : Float) :
    Item where
  label := word.tag
  headWord := word
  headChild := none
  left := side
  right := side
  stopped := true
  first := position
  last := position
  logTree := 0.0
  logPrior
  garbage := false

def unary (label : Symbol) (index : Nat) (head : Item) (left right : SideInfo) : Item where
  label
  headWord := head.headWord
  headChild := some index
  left
  right
  stopped := false
  first := head.first
  last := head.last
  logTree := head.logTree
  logPrior := 0.0
  garbage := false

def score (item : Item) : Float := item.logTree + item.logPrior

def isPreterminal (item : Item) : Bool := item.headChild.isNone

def side (item : Item) : Side → SideInfo
  | .left => item.left
  | .right => item.right

def edge (item : Item) : Side → Nat
  | .left => item.first
  | .right => item.last

def copy (item : Item) : Item := { item with garbage := false }

def withSide (item : Item) (side : Side) (info : SideInfo) (edge : Nat) : Item :=
  match side with
  | .left => { item with left := info, first := edge }
  | .right => { item with right := info, last := edge }

def withHistory (item : Item) (side : Side) (prevMods : History) : Item :=
  match side with
  | .left => { item with left := { item.left with prevMods } }
  | .right => { item with right := { item.right with prevMods } }

def withVerb (item : Item) (side : Side) (verb : Bool) : Item :=
  match side with
  | .left => { item with left := { item.left with verb } }
  | .right => { item with right := { item.right with verb } }

/-- Left modifiers attach once the right frame is discharged, right modifiers as long as
there is no left one. -/
def canTake (item : Item) (side : Side) : Bool :=
  !item.stopped && match side with
    | .left => item.right.frame.isEmpty
    | .right => item.left.children.isEmpty

inductive VerbClue where
  | settled (verb : Bool)
  | atHead (child : Nat)

/-- A base noun phrase hides its verbs behind the barrier; otherwise the modifiers settle the
question, or the head child does, or the tag of the only word. -/
def verbClue (item : Item) (language : Language) (barrier : Bool) : VerbClue :=
  if barrier && language.isBaseNp item.label then .settled false
  else if item.left.verb || item.right.verb then .settled true
  else match item.headChild with
    | some child => .atHead child
    | none => .settled (language.isVerbTag item.headWord.tag)

end Item

end HeadDriven
