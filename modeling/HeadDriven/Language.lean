import HeadDriven.Symbol

/-! What the search has to know about the language of a treebank: which labels
and tags play a part of their own, how unseen words are classed, and the labels
and words that stand at the borders of a constituent. -/
namespace HeadDriven

structure Language where
  isBaseNp : Symbol → Bool
  isVerbTag : Symbol → Bool
  isComma : Symbol → Bool
  isArgument : Symbol → Bool
  canonicalLabel : Symbol → Symbol
  wordClass : String → String
  startLabel : Symbol
  stopLabel : Symbol
  topLabel : Symbol
  startWord : TaggedWord
  stopWord : TaggedWord

def Language.plain : Language where
  isBaseNp _ := false
  isVerbTag _ := false
  isComma _ := false
  isArgument _ := false
  canonicalLabel label := label
  wordClass _ := "+UNKNOWN+"
  startLabel := Symbol.start
  stopLabel := Symbol.stop
  topLabel := Symbol.top
  startWord := ⟨Symbol.start, Symbol.start⟩
  stopWord := ⟨Symbol.stop, Symbol.stop⟩

end HeadDriven
