import HeadDriven.Fault
import HeadDriven.Item
import HeadDriven.Settings

/-! Keys of items. Two items of one label and span compete for one place when
their keys are equal. Of a finished constituent a key holds what later events
can see of it; of a growing one it holds, side by side, what its next modifier
will be conditioned on. -/
namespace HeadDriven

inductive RecentLabel where
  | missing
  | exact (label : Symbol)
  | isStart (start : Bool)
  | canonical (label : Symbol)
  deriving DecidableEq, Repr

structure HistoryKey where
  recent : RecentLabel
  older : List Symbol
  deriving DecidableEq, Repr

def HistoryKey.ofHistory (equivalence : Equivalence) (language : Language) :
    History → HistoryKey
  | [] => ⟨.missing, []⟩
  | label :: older =>
    match equivalence with
    | .standard | .baseNp => ⟨.exact label, older⟩
    | .startCollapsed => ⟨.isStart (label = language.startLabel), older⟩
    | .canonicalMods => ⟨.canonical (language.canonicalLabel label), older⟩

inductive Shape where
  | stopped (label : Symbol) (headWord : TaggedWord) (preterminal verb : Bool)
  | growing (label : Symbol) (headWord : TaggedWord) (headLabel : Option Symbol)
      (frames : Frame × Frame) (histories : HistoryKey × HistoryKey) (verbs : Bool × Bool)
      (leftModified : Bool)
  | baseNp (label : Symbol) (headWord : TaggedWord) (headLabel : Option Symbol)
      (prevWords : List TaggedWord × List TaggedWord) (histories : HistoryKey × HistoryKey)
      (verbs : Bool × Bool) (leftModified : Bool)
  deriving DecidableEq, Repr

structure Key where
  equivalence : Equivalence
  shape : Shape
  deriving DecidableEq, Repr

namespace Key

/-- The key of an item with the given head child label; `verb` tells whether it dominates a
verb and counts only if the item is stopped. -/
def ofItem (equivalence : Equivalence) (language : Language) (item : Item)
    (headLabel : Option Symbol) (verb : Bool) : Key :=
  let histories := (HistoryKey.ofHistory equivalence language item.left.prevMods,
    HistoryKey.ofHistory equivalence language item.right.prevMods)
  let verbs := (item.left.verb, item.right.verb)
  let leftModified := !item.left.children.isEmpty
  if item.stopped then
    ⟨equivalence, .stopped item.label item.headWord item.isPreterminal verb⟩
  else if equivalence = .baseNp && language.isBaseNp item.label then
    ⟨equivalence, .baseNp item.label item.headWord headLabel
      (item.left.prevWords, item.right.prevWords) histories verbs leftModified⟩
  else
    ⟨equivalence, .growing item.label item.headWord headLabel
      (item.left.frame, item.right.frame) histories verbs leftModified⟩

/-- Whether two keys are equal. Keys under different equivalences must not meet. -/
def matches? (a b : Key) : Except Fault Bool :=
  if a.equivalence = b.equivalence then .ok (a.shape = b.shape) else .error .mixedPolicies

end Key

end HeadDriven
