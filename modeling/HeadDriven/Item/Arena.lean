import HeadDriven.Fault
import HeadDriven.Item

/-! The store of all items of one sentence. Positions are given out in order and
never reused. Beside the items stand the remembered answers to whether an item
dominates a verb: a question to one item is handed on along head children, and
every item on the way remembers the answer. -/
namespace HeadDriven

structure Arena where
  items : Array Item
  verbs : Array (Option Bool)
  deriving DecidableEq, Repr

namespace Arena

def empty : Arena := ⟨#[], #[]⟩

def size (a : Arena) : Nat := a.items.size

/-- The number of positions, which have 32 bits. -/
def capacity : Nat := 0x100000000

def isEmpty (a : Arena) : Bool := a.size == 0

def get (a : Arena) (index : Nat) : Except Fault Item :=
  match a.items[index]? with
  | some item => .ok item
  | none => .error .danglingLink

def push (a : Arena) (item : Item) (verb : Option Bool) : Arena :=
  ⟨a.items.push item, a.verbs.push verb⟩

def markGarbage (a : Arena) (index : Nat) : Arena :=
  { a with items := a.items.modify index fun item => { item with garbage := true } }

def headChildLabel? (a : Arena) (item : Item) : Except Fault (Option Symbol) :=
  match item.headChild with
  | none => .ok none
  | some index => (a.get index).map fun head => some head.label

/-- The label that events take for the head: that of the head child, or of the item itself. -/
def headLabel (a : Arena) (item : Item) : Except Fault Symbol :=
  (a.headChildLabel? item).map (·.getD item.label)

/-- Whether the stored item at `index` dominates a verb, and the positions that were asked
without remembering an answer. Head children lie before their parents. -/
def askVerb (a : Arena) (language : Language) (barrier : Bool) (index : Nat) :
    Except Fault (Bool × List Nat) := do
  match a.verbs.getD index none with
  | some verb => return (verb, [])
  | none =>
    match (← a.get index).verbClue language barrier with
    | .settled verb => return (verb, [index])
    | .atHead child =>
      if child < index then
        let (verb, asked) ← a.askVerb language barrier child
        return (verb, index :: asked)
      else throw .danglingLink
termination_by index

/-- The same question to an item that need not be stored, of which `known` is remembered. -/
def verbOf (a : Arena) (language : Language) (barrier : Bool) (item : Item)
    (known : Option Bool) : Except Fault (Bool × List Nat) :=
  match known with
  | some verb => .ok (verb, [])
  | none =>
    match item.verbClue language barrier with
    | .settled verb => .ok (verb, [])
    | .atHead child => a.askVerb language barrier child

def remember (a : Arena) (asked : List Nat) (verb : Bool) : Arena :=
  { a with verbs := asked.foldl (fun verbs index => verbs.setIfInBounds index (some verb)) a.verbs }

end Arena

end HeadDriven
