import HeadDriven.Item.Arena
import HeadDriven.ParseTree
import HeadDriven.Sentence
import HeadDriven.Symbol.Table

/-! Derivations as trees. The tree under a stored item follows its links to head
child and modifiers; in a derivation it is kept with its score and its sentence. -/
namespace HeadDriven

/-- The best derivation of a sentence. Its tree leaves out the top label; its score is the
log probability of the whole derivation, the top transition included. -/
structure Derivation where
  tree : ParseTree Symbol Symbol
  score : Float
  sentence : Sentence

/-- The derivation's tree in names. An unknown word shows the text it came with. -/
def Derivation.resolve (d : Derivation) (symbols : SymbolTable) :
    Except Fault (ParseTree String String) :=
  d.tree.mapM? (fun label _ => symbols.name label) fun word span =>
    match d.sentence[span.1]? with
    | some (.unknown text _ _) => .ok text
    | _ => symbols.name word

/-- The tree under a stored item. On the left the outermost modifier comes first, on the
right the innermost. Children lie before their parents. -/
def Arena.tree (a : Arena) (index : Nat) : Except Fault (ParseTree Symbol Symbol) := do
  let item ← a.get index
  let span := (item.first, item.last + 1)
  match item.headChild with
  | none => return .branch item.label span [.leaf item.headWord.word span]
  | some head =>
    let children := item.left.children ++ head :: item.right.children.reverse
    let trees ← children.mapM fun child =>
      if child < index then a.tree child else throw .danglingLink
    return .branch item.label span trees
termination_by index

end HeadDriven
