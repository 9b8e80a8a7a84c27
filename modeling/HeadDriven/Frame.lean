import HeadDriven.Symbol

/-! Subcategorization frames: the argument labels that one side of a head still
requires. A bag keeps its labels sorted by id, so two bags are equal exactly
when they hold the same labels equally often; a list keeps the order in which
they were required. -/
namespace HeadDriven

inductive FrameKind where
  | bag
  | list
  deriving DecidableEq, Repr

def FrameKind.name : FrameKind → String
  | .bag => "bag"
  | .list => "list"

def FrameKind.ofName? : String → Option FrameKind
  | "bag" => some .bag
  | "list" => some .list
  | _ => none

structure Frame where
  kind : FrameKind
  labels : List Symbol
  deriving DecidableEq, Repr

namespace Frame

def empty (kind : FrameKind) : Frame := ⟨kind, []⟩

def insertSorted (label : Symbol) : List Symbol → List Symbol
  | [] => [label]
  | s :: rest => if s.id ≤ label.id then s :: insertSorted label rest else label :: s :: rest

def add (f : Frame) (label : Symbol) : Frame :=
  match f.kind with
  | .bag => { f with labels := insertSorted label f.labels }
  | .list => { f with labels := f.labels ++ [label] }

def ofList (kind : FrameKind) (labels : List Symbol) : Frame :=
  labels.foldl add (empty kind)

def contains (f : Frame) (label : Symbol) : Bool := f.labels.contains label

/-- Discharges the first occurrence of a label and tells whether there was one. -/
def remove (f : Frame) (label : Symbol) : Bool × Frame :=
  match f.labels.idxOf? label with
  | some place => (true, { f with labels := f.labels.eraseIdx place })
  | none => (false, f)

/-- The frame after a label was discharged, or the same frame if it does not require the label. -/
def erase (f : Frame) (label : Symbol) : Frame := (f.remove label).2

theorem remove_eq (f : Frame) (label : Symbol) :
    f.remove label = (f.contains label, { f with labels := f.labels.erase label }) := by
  have held : f.contains label = (f.labels.idxOf? label).isSome := by
    rw [contains, Bool.eq_iff_iff, List.contains_iff_mem, List.isSome_idxOf?]
  rw [remove, held, List.erase_eq_eraseIdx]
  cases f.labels.idxOf? label <;> rfl

theorem erase_eq (f : Frame) (label : Symbol) :
    f.erase label = { f with labels := f.labels.erase label } := by
  rw [erase, remove_eq]

/-- Puts a bag's labels in order; a list keeps its own. -/
def canonicalize (f : Frame) : Frame :=
  match f.kind with
  | .bag => ofList .bag f.labels
  | .list => f

def isEmpty (f : Frame) : Bool := f.labels.isEmpty

def size (f : Frame) : Nat := f.labels.length

def toList (f : Frame) : List Symbol := f.labels

def shown (f : Frame) : String := shownSymbols "\x7b" "\x7d" f.labels

end Frame

end HeadDriven
