import HeadDriven.Language
import HeadDriven.Symbol.Table
import HeadDriven.Text.Quoted

/-! Input sentences. A raw word may carry its tag behind its last slash; a word
outside the vocabulary keeps its text and stands for the class of words like
it. -/
namespace HeadDriven

inductive Token where
  | known (word : Symbol) (tags : List Symbol)
  | unknown (text : String) (wordClass : Symbol) (tags : List Symbol)
  deriving DecidableEq, Repr

namespace Token

def word : Token → Symbol
  | .known word _ => word
  | .unknown _ wordClass _ => wordClass

def tags : Token → List Symbol
  | .known _ tags => tags
  | .unknown _ _ tags => tags

def isUnknown : Token → Bool
  | .known .. => false
  | .unknown .. => true

end Token

abbrev Sentence := List Token

namespace Sentence

inductive Error where
  | emptyWord (raw : String)
  | unknownTag (tag word : String)
  deriving DecidableEq, Repr

def Error.message : Error → String
  | .emptyWord raw => s!"empty word in {Text.quoted raw}"
  | .unknownTag tag word => s!"unknown tag {tag} on word {word}"

/-- Splits a raw word at its last slash. Without text on both sides of it there is no tag. -/
def splitTag (raw : List Char) : List Char × Option (List Char) :=
  let tag := (raw.reverse.takeWhile (· ≠ '/')).reverse
  match raw.reverse.dropWhile (· ≠ '/') with
  | _ :: c :: front => if tag.isEmpty then (raw, none) else ((c :: front).reverse, some tag)
  | _ => (raw, none)

def tokenOf (symbols : SymbolTable) (language : Language) (raw : String) :
    Except Error Token := do
  let (text, tag) := splitTag raw.toList
  let word := String.ofList text
  if text.isEmpty then throw (.emptyWord raw)
  let tags ← match tag with
    | none => pure []
    | some tag =>
      match symbols.get? (String.ofList tag) with
      | some s => pure [s]
      | none => throw (.unknownTag (String.ofList tag) word)
  match symbols.get? word with
  | some s => return .known s tags
  | none =>
    return .unknown word ((symbols.get? (language.wordClass word)).getD Symbol.unknown) tags

def ofWords (symbols : SymbolTable) (language : Language) (words : List String) :
    Except Error Sentence :=
  words.mapM (tokenOf symbols language)

end Sentence

end HeadDriven
