/-! Sets of characters as runs of code points, white space as the Unicode
property of that name, and cutting a text into lines and words. A run holds every
`step`-th code point from `first` through `last`. -/
namespace HeadDriven.Text

structure CodeRun where
  first : Nat
  last : Nat
  step : Nat
  deriving Repr

def CodeRun.holds (r : CodeRun) (code : Nat) : Bool :=
  r.first ≤ code && code ≤ r.last && (code - r.first) % r.step == 0

def inRuns (runs : List CodeRun) (c : Char) : Bool := runs.any (·.holds c.toNat)

def blanks : List CodeRun := [
    ⟨0x9, 0xd, 1⟩, ⟨0x20, 0x20, 1⟩, ⟨0x85, 0x85, 1⟩, ⟨0xa0, 0xa0, 1⟩, ⟨0x1680, 0x1680, 1⟩,
    ⟨0x2000, 0x200a, 1⟩, ⟨0x2028, 0x2029, 1⟩, ⟨0x202f, 0x202f, 1⟩, ⟨0x205f, 0x205f, 1⟩,
    ⟨0x3000, 0x3000, 1⟩]

def isBlank (c : Char) : Bool := inRuns blanks c

def dropBlanks (text : List Char) : List Char := text.dropWhile isBlank

/-- The lines of a text. A line ends at a line feed, with the carriage return right before
it if there is one; after the last line feed another line follows only if it is not empty. -/
def lines : List Char → List (List Char)
  | [] => []
  | '\n' :: rest => [] :: lines rest
  | '\r' :: '\n' :: rest => [] :: lines rest
  | c :: rest =>
    match lines rest with
    | [] => [[c]]
    | line :: more => (c :: line) :: more

def pieces : List Char → List (List Char)
  | [] => [[]]
  | c :: rest =>
    if isBlank c then [] :: pieces rest
    else match pieces rest with
      | [] => [[c]]
      | piece :: more => (c :: piece) :: more

def words (text : List Char) : List (List Char) := (pieces text).filter (!·.isEmpty)

end HeadDriven.Text
