import HeadDriven.Language
import HeadDriven.Symbol.Table
import HeadDriven.Text.Case

/-! Treebank conventions. Base noun phrases are labelled `NPB`, verb tags are
`MD` and the `VB` family, comma and colon count as commas, and an argument label
is a bare label followed by `-A`. An unseen word is classed by its capitals,
digits, hyphens and ending. -/
namespace HeadDriven.Treebank

def verbTags : List String := ["VB", "VBD", "VBG", "VBN", "VBP", "VBZ", "MD"]

def isCommaName (name : String) : Bool := name == "," || name == ":"

/-- The bare label of an argument label. It has at least one character and no line feed. -/
def bareName? (name : String) : Option String :=
  match name.toList.reverse with
  | 'A' :: '-' :: bare =>
    if bare ≠ [] ∧ '\n' ∉ bare then some (String.ofList bare.reverse) else none
  | _ => none

/-- A capital in front is marked, with `C` if no lower case letter follows it and with `c`
otherwise. -/
def capitalMark : List Char → List Char
  | [] => []
  | c :: rest =>
    if !Text.isUppercase c then [] else if rest.any Text.isLowercase then ['c'] else ['C']

def endings : List (List Char) :=
  [['i', 'n', 'g'], ['e', 'd'], ['l', 'y'], ['t', 'i', 'o', 'n'], ['s']]

/-- The ending of a word, written after a hyphen. Case does not matter; no character other
than an ASCII capital has one of the letters of `endings` as its lower case form. -/
def endingMark (word : List Char) : List Char :=
  match endings.find? (·.isSuffixOf (word.map Char.toLower)) with
  | some ending => '-' :: ending
  | none => []

def wordClass (word : String) : String :=
  let chars := word.toList
  let digitMark := if chars.any Char.isDigit then ['d'] else []
  let hyphenMark := if chars.contains '-' then ['h'] else []
  "+UNKNOWN+" ++ String.ofList (capitalMark chars ++ digitMark ++ hyphenMark ++ endingMark chars)

end HeadDriven.Treebank

namespace HeadDriven

def Language.treebank (symbols : SymbolTable) : Language :=
  let baseNp := symbols.get? "NPB"
  let verbs := symbols.names.map Treebank.verbTags.contains
  let commas := symbols.names.map Treebank.isCommaName
  let bareNames := symbols.names.map Treebank.bareName?
  let canonical := bareNames.map (·.bind symbols.get?)
  { Language.plain with
    isBaseNp := fun label => baseNp == some label
    isVerbTag := fun tag => verbs.getD tag.id false
    isComma := fun word => commas.getD word.id false
    isArgument := fun label => (bareNames.getD label.id none).isSome
    canonicalLabel := fun label => (canonical.getD label.id none).getD label
    wordClass := Treebank.wordClass }

end HeadDriven
