/-! Symbols stand for names of labels, tags and words. The first four are the
same in every table: the borders of a constituent, the top label and the unknown
word. -/
namespace HeadDriven

structure Symbol where
  id : Nat
  deriving DecidableEq, Repr

namespace Symbol

def start : Symbol := ⟨0⟩
def stop : Symbol := ⟨1⟩
def top : Symbol := ⟨2⟩
def unknown : Symbol := ⟨3⟩

def shown (s : Symbol) : String := "#" ++ toString s.id

end Symbol

def shownSymbols (opening closing : String) (symbols : List Symbol) : String :=
  opening ++ " ".intercalate (symbols.map Symbol.shown) ++ closing

structure TaggedWord where
  word : Symbol
  tag : Symbol
  deriving DecidableEq, Repr

def TaggedWord.shown (w : TaggedWord) : String := w.word.shown ++ "/" ++ w.tag.shown

end HeadDriven
