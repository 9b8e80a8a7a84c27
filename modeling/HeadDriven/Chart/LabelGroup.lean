import HeadDriven.Item.Key

/-! The items of one label in one cell, best score first and equal scores in the
order of their arrival. A group holds at most one item per key, at most as many
as its cap, and none that falls out of the beam below its best. Beside its entries
stands an index from keys to the items that hold their places. -/
namespace HeadDriven

structure Entry where
  index : Nat
  score : Float
  key : Key
  deriving DecidableEq, Repr

structure LabelGroup where
  entries : List Entry
  byKey : List (Key × Nat)
  deriving DecidableEq, Repr

namespace LabelGroup

def empty : LabelGroup := ⟨[], []⟩

def size (g : LabelGroup) : Nat := g.entries.length

def isEmpty (g : LabelGroup) : Bool := g.entries.isEmpty

def indices (g : LabelGroup) : List Nat := g.entries.map Entry.index

def best? (g : LabelGroup) : Option Entry := g.entries.head?

def worst? (g : LabelGroup) : Option Entry := g.entries.getLast?

def holder? (g : LabelGroup) (key : Key) : Option Nat := g.byKey.lookup key

/-- Whether a score has no place in a group: it falls out of the beam, or it is no better than
the last of a full group. -/
def excludes (g : LabelGroup) (beam : Float) (cap : Nat) (score : Float) : Bool :=
  g.best?.any (fun best => score < best.score - beam)
    || (cap ≤ g.size && g.worst?.any fun worst => score ≤ worst.score)

def insert (g : LabelGroup) (e : Entry) : LabelGroup :=
  let above := fun other : Entry => decide (e.score ≤ other.score)
  ⟨g.entries.takeWhile above ++ e :: g.entries.dropWhile above,
    (e.key, e.index) :: g.byKey.filter (·.1 ≠ e.key)⟩

def remove (g : LabelGroup) (index : Nat) : LabelGroup :=
  match g.entries.find? (·.index = index) with
  | none => g
  | some e => ⟨g.entries.eraseP (·.index = index), g.byKey.filter (·.1 ≠ e.key)⟩

/-- Drops entries from the end, as long as there are more than the cap allows or the last is
out of the beam, and lists what is dropped. -/
def prune (g : LabelGroup) (beam : Float) (cap : Nat) : LabelGroup × List Nat :=
  match g.best? with
  | none => (g, [])
  | some best =>
    let outside := fun e : Entry => !decide (best.score - beam ≤ e.score)
    let kept := ((g.entries.take cap).reverse.dropWhile outside).reverse
    let dropped := g.entries.drop kept.length
    (⟨kept, g.byKey.filter fun (key, _) => dropped.all (·.key ≠ key)⟩, dropped.map Entry.index)

/-- Gives an entry its place, that of the holder of its key if there is one, and lists the
positions of the items that lose theirs. -/
def accept (g : LabelGroup) (beam : Float) (cap : Nat) (e : Entry) : LabelGroup × List Nat :=
  let replaced := g.holder? e.key
  let (group, evicted) := ((replaced.elim g g.remove).insert e).prune beam cap
  (group, replaced.toList ++ evicted)

end LabelGroup

end HeadDriven
