import HeadDriven.Derivation
import HeadDriven.Search

/-! Decoding: the best derivation of a sentence, read off a filled chart. A
decoder keeps the chart, the commas, the questions and the winning score of its last
sentence, and the histories of all its sentences. -/
namespace HeadDriven

inductive Decoded where
  | parse (derivation : Derivation)
  | noParse (sentence : Sentence)

structure Decoder where
  grammar : Grammar
  chart : Chart
  histories : HistoryCache
  commas : Array Bool
  asked : Array Query
  lastTopScore : Option Float

namespace Decoder

def ofGrammar (g : Grammar) : Decoder where
  grammar := g
  chart := Chart.empty g.settings
  histories := HistoryCache.empty g.settings.historyWindow
  commas := #[]
  asked := #[]
  lastTopScore := none

def top? (g : Grammar) (chart : Chart) : Except Fault (Option Nat) :=
  (chart.group? 0 (chart.size - 1) g.language.topLabel).map fun group =>
    (group.bind LabelGroup.best?).map Entry.index

def derivation (chart : Chart) (sentence : Sentence) (top : Nat) : Except Fault Derivation := do
  let root ← chart.item top
  match root.headChild with
  | none => throw .headlessTop
  | some head => return ⟨← chart.arena.tree head, root.score, sentence⟩

def best? (g : Grammar) (chart : Chart) (sentence : Sentence) :
    Except Fault (Option Derivation) := do
  match ← top? g chart with
  | none => return none
  | some top => return some (← derivation chart sentence top)

def skips (g : Grammar) (sentence : Sentence) : Bool :=
  sentence.isEmpty || g.settings.maxSentenceLength < sentence.length

def prepare (d : Decoder) (sentence : Sentence) : Decoder :=
  { d with
    chart := d.chart.resized sentence.length
    commas := d.grammar.commas sentence }

/-- Decodes a sentence. A sentence that is skipped leaves the chart as it was. -/
def decode (d : Decoder) (sentence : Sentence) : Decoder × Except Fault Decoded :=
  let idle := { d with asked := #[], lastTopScore := none }
  if skips d.grammar sentence then (idle, .ok (.noParse sentence))
  else
    let ready := idle.prepare sentence
    match Search.fill d.grammar ready.chart d.histories ready.commas sentence with
    | .error fault => (ready, .error fault)
    | .ok (search, histories) =>
      let filled := { ready with chart := search.chart, histories, asked := search.asked }
      match best? d.grammar search.chart sentence with
      | .error fault => (filled, .error fault)
      | .ok none => (filled, .ok (.noParse sentence))
      | .ok (some found) =>
        ({ filled with lastTopScore := some found.score }, .ok (.parse found))

end Decoder

end HeadDriven
