import HeadDriven.Chart
import HeadDriven.Decimal.Printing
import HeadDriven.Symbol.Table

/-! The text of a chart: its filled cells from the narrowest to the widest, each
with its items in the order of their groups. -/
namespace HeadDriven.Chart

def itemLine (symbols : SymbolTable) (item : Item) : Except Fault String := do
  let label ← symbols.name item.label
  let word ← symbols.name item.headWord.word
  let tag ← symbols.name item.headWord.tag
  let stop := if item.stopped then " stop" else ""
  return "  " ++ label ++ " [" ++ word ++ "/" ++ tag ++ "]" ++ stop ++ " "
    ++ Decimal.fixed 4 item.score ++ "\n"

def cellText (c : Chart) (symbols : SymbolTable) (first last : Nat) : Except Fault String := do
  let indices ← c.cellItems first last
  if indices.isEmpty then return ""
  let lines ← indices.mapM fun index => do itemLine symbols (← c.item index)
  return s!"Cell {first}..{last}:\n" ++ String.join lines

def spans (size : Nat) : List (Nat × Nat) :=
  (List.range size).flatMap fun width =>
    (List.range (size - width)).map fun first => (first, first + width)

def display (c : Chart) (symbols : SymbolTable) : Except Fault String := do
  let texts ← (spans c.size).mapM fun (first, last) => c.cellText symbols first last
  return String.join texts

end HeadDriven.Chart
