import HeadDriven.Chart.Display
import HeadDriven.Grammar

/-! Filling the chart. Single words are seeded with their tags, wider cells with
every attachment across every split; each cell is then closed under projections
and stops. A `Search` is the chart together with the questions asked so far. -/
namespace HeadDriven

structure Search where
  chart : Chart
  asked : Array Query

namespace Search

def offerAll (s : Search) (g : Grammar) (first last : Nat) (items : List Item) :
    Except Fault (Search × List Nat) := do
  let (chart, taken) ← s.chart.addAll g.language first last items
  return ({ s with chart }, taken)

def offerTrials (s : Search) (g : Grammar) (first last : Nat) (trials : List Trial) :
    Except Fault (Search × List Nat) :=
  let asked := trials.foldl (fun asked trial => asked ++ trial.asked) s.asked
  { s with asked }.offerAll g first last (trials.filterMap Trial.built)

def stored (s : Search) (index : Nat) : Except Fault (Nat × Item) :=
  (s.chart.item index).map (index, ·)

def modificand (s : Search) (index : Nat) : Except Fault Modificand := do
  let item ← s.chart.item index
  return ⟨index, item, ← s.chart.arena.headLabel item⟩

def modifier (s : Search) (g : Grammar) (index : Nat) : Except Fault Modifier := do
  let item ← s.chart.item index
  let (verb, _) ← s.chart.arena.askVerb g.language g.settings.baseNpVerbBarrier index
  return ⟨index, item, verb⟩

/-- One round of closing a cell: projects the given items, then stops whatever of them and
of the new items can be stopped. The result lists the new stopped items. -/
def round (s : Search) (g : Grammar) (first last : Nat) (frontier : List Nat) :
    Except Fault (Search × List Nat) := do
  let sources ← frontier.mapM s.stored
  let unaries := sources.flatMap fun (index, item) => g.projections index item
  let (s, grown) ← s.offerAll g first last unaries
  let candidates ← (frontier ++ grown).mapM s.modificand
  s.offerTrials g first last (candidates.map g.stop)

/-- Rounds until one of them stops nothing new. Every round before that stores an item. -/
def settle (g : Grammar) (first last : Nat) :
    (rounds : Nat) → Search → (frontier : List Nat) → Except Fault Search
  | _, s, [] => .ok s
  | 0, _, _ :: _ => .error .arenaOverflow
  | rounds + 1, s, frontier => do
    let (s, fresh) ← s.round g first last frontier
    settle g first last rounds s fresh

/-- More rounds than an arena has positions, and than a cell has finished constituents to tell
apart: one for each choice of a nonterminal, the head word of a present item and whether a verb
is dominated. -/
def roundLimit (g : Grammar) (present : List Nat) : Nat :=
  Arena.capacity + 2 * g.model.nonterminals.length * present.length + 2

def close (s : Search) (g : Grammar) (first last : Nat) : Except Fault Search := do
  let present ← s.chart.cellItems first last
  settle g first last (roundLimit g present) s present

def seed (s : Search) (g : Grammar) (position : Nat) (token : Token) : Except Fault Search := do
  let (s, _) ← s.offerAll g position position (g.preterminals position token)
  s.close g position position

def live (s : Search) (first last : Nat) (test : Item → Bool) : Except Fault (List Nat) := do
  let items ← (← s.chart.cellItems first last).mapM s.stored
  return (items.filter fun (_, item) => !item.garbage && test item).map Prod.fst

def pairs (s : Search) (g : Grammar) (side : Side) (heads modifiers : Nat × Nat) :
    Except Fault (List (Modificand × Modifier × Side)) := do
  let heads ← s.live heads.1 heads.2 (·.canTake side)
  let heads ← heads.mapM s.modificand
  let modifiers ← s.live modifiers.1 modifiers.2 Item.stopped
  let modifiers ← modifiers.mapM (s.modifier g)
  return heads.flatMap fun m => modifiers.map fun d => (m, d, side)

def pairsAt (s : Search) (g : Grammar) (first split last : Nat) :
    Except Fault (List (Modificand × Modifier × Side)) := do
  let toLeft ← s.pairs g .left (split + 1, last) (first, split)
  let toRight ← s.pairs g .right (first, split) (split + 1, last)
  return toLeft ++ toRight

/-- The last words of the left parts into which a span may be split. -/
def splits (g : Grammar) (commas : Array Bool) (first last : Nat) : List Nat :=
  (List.range' first (last - first)).filter fun split =>
    !(g.settings.commaConstraint && Grammar.commaBlocks commas split last)

def fillCell (g : Grammar) (commas : Array Bool) :
    Search × HistoryCache → Nat × Nat → Except Fault (Search × HistoryCache)
  | (s, histories), (first, last) => do
    let pairs ← (splits g commas first last).mapM fun split => s.pairsAt g first split last
    let (histories, trials) ← g.attachAll histories pairs.flatten
    let (s, _) ← s.offerTrials g first last trials
    return (← s.close g first last, histories)

def finish (s : Search) (g : Grammar) (last : Nat) : Except Fault Search := do
  let items ← (← s.chart.cellItems 0 last).mapM s.stored
  let roots := items.filterMap fun (index, item) => g.root? index item
  let (s, _) ← s.offerAll g 0 last roots
  return s

def fill (g : Grammar) (chart : Chart) (histories : HistoryCache) (commas : Array Bool)
    (sentence : Sentence) : Except Fault (Search × HistoryCache) := do
  let size := sentence.length
  let start : Search := ⟨chart, #[]⟩
  let seeded ← sentence.zipIdx.foldlM (fun s (token, position) => s.seed g position token) start
  let wide := (Chart.spans size).filter fun (first, last) => first < last
  let (filled, histories) ← wide.foldlM (fillCell g commas) (seeded, histories)
  return (← filled.finish g (size - 1), histories)

end Search

end HeadDriven
