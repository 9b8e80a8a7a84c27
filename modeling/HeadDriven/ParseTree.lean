import HeadDriven.Text.Blank

/-! Parse trees over half-open spans of words, with labels on the branches and
words at the leaves, and their two texts: the bracketing on one line, in which
labels and words stand alone, and the outline, which also shows the spans. -/
namespace HeadDriven

/-- From the first word up to, and without, the second. -/
abbrev Span := Nat × Nat

inductive ParseTree (α β : Type) where
  | branch (value : α) (span : Span) (children : List (ParseTree α β))
  | leaf (value : β) (span : Span)
  deriving Repr

namespace ParseTree

variable {α β γ δ : Type}

def span : ParseTree α β → Span
  | branch _ span _ => span
  | leaf _ span => span

def isLeaf : ParseTree α β → Bool
  | branch .. => false
  | leaf .. => true

def isBranch : ParseTree α β → Bool
  | branch .. => true
  | leaf .. => false

mutual

def equal [DecidableEq α] [DecidableEq β] : ParseTree α β → ParseTree α β → Bool
  | branch a s ts, branch b t us => a = b && s = t && equalRow ts us
  | leaf a s, leaf b t => a = b && s = t
  | _, _ => false

def equalRow [DecidableEq α] [DecidableEq β] : List (ParseTree α β) → List (ParseTree α β) → Bool
  | [], [] => true
  | t :: ts, u :: us => equal t u && equalRow ts us
  | _, _ => false

end

mutual

def leaves : ParseTree α β → List (β × Span)
  | branch _ _ children => rowLeaves children
  | leaf value span => [(value, span)]

def rowLeaves : List (ParseTree α β) → List (β × Span)
  | [] => []
  | t :: rest => leaves t ++ rowLeaves rest

end

mutual

def map (onBranch : α → Span → γ) (onLeaf : β → Span → δ) : ParseTree α β → ParseTree γ δ
  | branch value span children =>
    branch (onBranch value span) span (mapRow onBranch onLeaf children)
  | leaf value span => leaf (onLeaf value span) span

def mapRow (onBranch : α → Span → γ) (onLeaf : β → Span → δ) :
    List (ParseTree α β) → List (ParseTree γ δ)
  | [] => []
  | t :: rest => map onBranch onLeaf t :: mapRow onBranch onLeaf rest

end

mutual

def mapM? {ε : Type} (onBranch : α → Span → Except ε γ) (onLeaf : β → Span → Except ε δ) :
    ParseTree α β → Except ε (ParseTree γ δ)
  | branch value span children => do
    let children ← mapRowM? onBranch onLeaf children
    return branch (← onBranch value span) span children
  | leaf value span => return leaf (← onLeaf value span) span

def mapRowM? {ε : Type} (onBranch : α → Span → Except ε γ) (onLeaf : β → Span → Except ε δ) :
    List (ParseTree α β) → Except ε (List (ParseTree γ δ))
  | [] => return []
  | t :: rest => return (← mapM? onBranch onLeaf t) :: (← mapRowM? onBranch onLeaf rest)

end

def spanned (value : String) (span : Span) : String := s!"{span.1}..{span.2}: {value}"

mutual

def bracketed : ParseTree String String → String
  | branch value _ children => "(" ++ value ++ " " ++ bracketedRow children ++ ")"
  | leaf value _ => value

def bracketedRow : List (ParseTree String String) → String
  | [] => ""
  | [t] => bracketed t
  | t :: u :: rest => bracketed t ++ " " ++ bracketedRow (u :: rest)

end

mutual

/-- An only child follows its parent on the same line; of several children each starts a
line of its own, and all their lines are indented. -/
def outline : ParseTree String String → String
  | leaf value span => spanned value span
  | branch value span [t] => "(" ++ spanned value span ++ " (" ++ outline t ++ "))"
  | branch value span children => "(" ++ spanned value span ++ outlineRow children ++ ")"

def outlineRow : List (ParseTree String String) → String
  | [] => ""
  | t :: rest =>
    let lines := (Text.lines (outline t).toList).map fun line => "\n  " ++ String.ofList line
    String.join lines ++ outlineRow rest

end

end ParseTree

end HeadDriven
