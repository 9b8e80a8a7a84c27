import HeadDriven.Chart.LabelGroup
import HeadDriven.Item.Arena

/-! The chart of a sentence: for every inclusive span of words a cell, and in it
for every label a group of competing items. The labels of a cell are kept and
walked in order of their ids; a hash map would walk them in an order of its own,
which is not specified. Items offered to the chart are stored in its arena if they
find a place; an item that loses its place stays stored as garbage. -/
namespace HeadDriven

abbrev Cell := List (Symbol × LabelGroup)

namespace Cell

def group? (cell : Cell) (label : Symbol) : Option LabelGroup := cell.lookup label

def put (label : Symbol) (group : LabelGroup) : Cell → Cell
  | [] => [(label, group)]
  | (other, held) :: rest =>
    if label = other then (label, group) :: rest
    else if label.id < other.id then (label, group) :: (other, held) :: rest
    else (other, held) :: put label group rest

def indices (cell : Cell) : List Nat := cell.flatMap fun (_, group) => group.indices

end Cell

structure Chart where
  settings : Settings
  size : Nat
  cells : Array Cell
  arena : Arena

namespace Chart

def empty (settings : Settings) : Chart := ⟨settings, 0, #[], Arena.empty⟩

/-- The chart for a sentence of `size` words, without any item. All cells are cleared; as many
as the sentence needs are kept, and the missing ones added. -/
def resized (c : Chart) (size : Nat) : Chart :=
  let cleared := c.cells.map fun _ => ([] : Cell)
  let missing := Array.replicate (size * size - cleared.size) []
  ⟨c.settings, size, cleared.take (size * size) ++ missing, Arena.empty⟩

def isEmpty (c : Chart) : Bool := c.size == 0

def item (c : Chart) (index : Nat) : Except Fault Item := c.arena.get index

def cell (c : Chart) (first last : Nat) : Except Fault Cell :=
  if first ≤ last ∧ last < c.size then .ok (c.cells.getD (first * c.size + last) [])
  else .error (.outsideChart first last c.size)

def cellItems (c : Chart) (first last : Nat) : Except Fault (List Nat) :=
  (c.cell first last).map Cell.indices

def group? (c : Chart) (first last : Nat) (label : Symbol) :
    Except Fault (Option LabelGroup) :=
  (c.cell first last).map (·.group? label)

def containsVerb (c : Chart) (language : Language) (barrier : Bool) (item : Item)
    (known : Option Bool) : Except Fault (Bool × Chart) := do
  let (verb, asked) ← c.arena.verbOf language barrier item known
  return (verb, { c with arena := c.arena.remember asked verb })

/-- The key of an item, and what is remembered of its verbs from then on. -/
def key (c : Chart) (language : Language) (equivalence : Equivalence) (item : Item)
    (known : Option Bool) : Except Fault (Key × Option Bool × Chart) := do
  let headLabel ← c.arena.headChildLabel? item
  if item.stopped then
    let (verb, c) ← c.containsVerb language c.settings.baseNpVerbBarrier item known
    return (Key.ofItem equivalence language item headLabel verb, some verb, c)
  else return (Key.ofItem equivalence language item headLabel false, known, c)

def outdoes (c : Chart) (group : LabelGroup) (key : Key) (score : Float) : Except Fault Bool :=
  match group.holder? key with
  | none => .ok false
  | some index => (c.item index).map fun held => decide (score ≤ held.score)

/-- Offers an item, of whose verbs `known` is remembered, to a cell. The result is its
position if the chart takes it. -/
def offer (c : Chart) (language : Language) (first last : Nat) (item : Item)
    (known : Option Bool) : Except Fault (Chart × Option Nat) := do
  let cell ← c.cell first last
  if item.first ≠ first ∨ item.last ≠ last then
    throw (.spanMismatch item.first item.last first last)
  let (key, known, c) ← c.key language c.settings.equivalence item known
  let beam := c.settings.beamWidth
  let cap := c.settings.maxCellSize
  let group := (cell.group? item.label).getD LabelGroup.empty
  if group.excludes beam cap item.score then return (c, none)
  if ← c.outdoes group key item.score then return (c, none)
  let index := c.arena.size
  let (group, lost) := group.accept beam cap ⟨index, item.score, key⟩
  return ({ c with
    cells := c.cells.setIfInBounds (first * c.size + last) (cell.put item.label group)
    arena := lost.foldl Arena.markGarbage (c.arena.push item known) }, some index)

def add (c : Chart) (language : Language) (first last : Nat) (item : Item) :
    Except Fault (Chart × Option Nat) :=
  c.offer language first last item none

def addAll (c : Chart) (language : Language) (first last : Nat) (items : List Item) :
    Except Fault (Chart × List Nat) := do
  let (c, taken) ← items.foldlM (fun (c, taken) item => do
    let (c, index) ← c.add language first last item
    return (c, taken ++ index.toArray)) (c, (#[] : Array Nat))
  return (c, taken.toList)

end Chart

end HeadDriven
