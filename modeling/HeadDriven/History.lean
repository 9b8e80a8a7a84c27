import HeadDriven.Fault
import HeadDriven.Symbol

/-! Modifier histories: the labels of the latest modifiers on one side of a
head, latest first, in a window of fixed width that starts out filled with the
start symbol. A `HistoryCache` hands histories out, remembers the shifts it has
made and counts the distinct histories it has seen. -/
namespace HeadDriven

abbrev History := List Symbol

namespace History

def start (window : Nat) : History := List.replicate window Symbol.start

def shift (window : Nat) (h : History) (label : Symbol) : History :=
  if 0 < window then label :: h.take (window - 1) else []

theorem shift_eq (window : Nat) (h : History) (label : Symbol) :
    shift window h label = (label :: h).take window := by
  cases window <;> rfl

def mostRecent? (h : History) : Option Symbol := h.head?

def shown (h : History) : String := shownSymbols "<" ">" h

end History

structure HistoryCache where
  window : Nat
  known : List History
  shifts : List ((History × Symbol) × History)
  deriving Repr

namespace HistoryCache

def empty (window : Nat) : HistoryCache := ⟨window, [History.start window], []⟩

def start (c : HistoryCache) : History := History.start c.window

def size (c : HistoryCache) : Nat := c.known.length

def isEmpty (c : HistoryCache) : Bool := c.known.isEmpty

def enter (c : HistoryCache) (h : History) : HistoryCache :=
  if h ∈ c.known then c else { c with known := c.known ++ [h] }

/-- The history of the given labels, which must fill the window exactly. -/
def intern (c : HistoryCache) (labels : List Symbol) : Except Fault (HistoryCache × History) :=
  if labels.length = c.window then .ok (c.enter labels, labels) else .error .wrongWindow

def shift (c : HistoryCache) (h : History) (label : Symbol) :
    Except Fault (HistoryCache × History) :=
  match c.shifts.lookup (h, label) with
  | some shifted => .ok (c, shifted)
  | none => do
    let (c, shifted) ← c.intern (History.shift c.window h label)
    return ({ c with shifts := ((h, label), shifted) :: c.shifts }, shifted)

end HistoryCache

end HeadDriven
