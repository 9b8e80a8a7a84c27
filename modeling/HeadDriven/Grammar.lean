import HeadDriven.Item.Key
import HeadDriven.Model
import HeadDriven.Sentence

/-! The steps of a derivation. A `Grammar` is what a search consults: the model,
the language and the settings. Each step takes stored items, asks the model for
the events of the step and builds the items that the model allows; none of them
looks at the chart. -/
namespace HeadDriven

structure Grammar where
  model : Model
  language : Language
  settings : Settings

inductive Query where
  | modifier (event : ModifierEvent)
  | stop (event : ModifierEvent)
  deriving DecidableEq, Repr

/-- What comes of trying one step: the questions it asked, in order, and the item it built. -/
structure Trial where
  asked : List Query
  built : Option Item

structure Modificand where
  index : Nat
  item : Item
  headLabel : Symbol

structure Modifier where
  index : Nat
  item : Item
  verb : Bool

namespace Grammar

def startHistory (g : Grammar) : History := History.start g.settings.historyWindow

def startWords (g : Grammar) : List TaggedWord :=
  List.replicate g.settings.prevWordWindow g.language.startWord

def freshSide (g : Grammar) (frame : Frame) : SideInfo :=
  SideInfo.fresh frame g.startHistory g.startWords

def emptyFrame (g : Grammar) : Frame := Frame.empty g.settings.frames

/-- The tags that came with a word, else those of the word or its class, else those of the
unknown word. -/
def candidateTags (g : Grammar) (token : Token) : List Symbol :=
  let tags := if token.tags.isEmpty then g.model.tags token.word else token.tags
  if tags.isEmpty then g.model.tags Symbol.unknown else tags

def preterminal? (g : Grammar) (position : Nat) (word : TaggedWord) : Option Item :=
  let logPrior := g.model.prior ⟨word, word.tag⟩
  if isImpossible logPrior then none
  else some (Item.preterminal word position (g.freshSide g.emptyFrame) logPrior)

def preterminals (g : Grammar) (position : Nat) (token : Token) : List Item :=
  (g.candidateTags token).filterMap fun tag => g.preterminal? position ⟨token.word, tag⟩

def projection? (g : Grammar) (index : Nat) (item : Item) (parent : Symbol)
    (left right : Frame) : Option Item :=
  let logHead := g.model.head ⟨⟨item.headWord, parent, item.label⟩, left, right⟩
  if isImpossible logHead then none
  else
    let unary := Item.unary parent index item (g.freshSide left) (g.freshSide right)
    some { unary with
      logTree := item.logTree + logHead
      logPrior := g.model.prior ⟨item.headWord, parent⟩ }

/-- The projections of a finished constituent to every nonterminal, once for each pair of
frames that the model knows. -/
def projections (g : Grammar) (index : Nat) (item : Item) : List Item :=
  if item.garbage || !item.stopped then []
  else
    let parents := g.model.nonterminals.filter fun parent =>
      parent ≠ g.language.topLabel && !isImpossible (g.model.prior ⟨item.headWord, parent⟩)
    parents.flatMap fun parent =>
      let context : HeadContext := ⟨item.headWord, parent, item.label⟩
      (g.model.possibleFrames .left context).flatMap fun left =>
        (g.model.possibleFrames .right context).filterMap fun right =>
          g.projection? index item parent left right

def root? (g : Grammar) (index : Nat) (item : Item) : Option Item :=
  let top := g.language.topLabel
  if item.garbage || !item.stopped || item.label = top then none
  else
    let logHead := g.model.head ⟨⟨item.headWord, top, item.label⟩, g.emptyFrame, g.emptyFrame⟩
    if isImpossible logHead then none
    else
      let side := g.freshSide g.emptyFrame
      some { Item.unary top index item side side with
        stopped := true
        logTree := item.logTree + logHead }

def stopEvent (g : Grammar) (m : Modificand) (side : Side) : ModifierEvent where
  modWord := g.language.stopWord
  headWord := m.item.headWord
  modLabel := g.language.stopLabel
  history := (m.item.side side).prevMods
  parent := m.item.label
  headLabel := m.headLabel
  frame := (m.item.side side).frame
  verbIntervening := (m.item.side side).verb
  side

def stop (g : Grammar) (m : Modificand) : Trial :=
  if m.item.garbage || m.item.stopped || !m.item.left.frame.isEmpty
      || !m.item.right.frame.isEmpty then ⟨[], none⟩
  else
    let left := g.stopEvent m .left
    let logLeft := g.model.stop left
    if isImpossible logLeft then ⟨[.stop left], none⟩
    else
      let right := g.stopEvent m .right
      let logRight := g.model.stop right
      if isImpossible logRight then ⟨[.stop left, .stop right], none⟩
      else ⟨[.stop left, .stop right], some { m.item.copy with
        stopped := true
        logTree := m.item.logTree + (0.0 + logLeft + logRight) }⟩

def attachmentEvent (m : Modificand) (d : Modifier) (side : Side) : ModifierEvent where
  modWord := d.item.headWord
  headWord := m.item.headWord
  modLabel := d.item.label
  history := (m.item.side side).prevMods
  parent := m.item.label
  headLabel := m.headLabel
  frame := (m.item.side side).frame
  verbIntervening := (m.item.side side).verb
  side

def extendSide (g : Grammar) (info : SideInfo) (d : Modifier) : SideInfo where
  frame := info.frame.erase d.item.label
  children := d.index :: info.children
  prevMods := History.shift g.settings.historyWindow info.prevMods d.item.label
  prevWords := (d.item.headWord :: info.prevWords).take g.settings.prevWordWindow
  verb := info.verb || d.verb

def attached (g : Grammar) (m : Modificand) (d : Modifier) (side : Side) (logMod : Float) :
    Item :=
  let info := g.extendSide (m.item.side side) d
  { m.item.copy.withSide side info (d.item.edge side) with
    logTree := m.item.logTree + d.item.logTree + logMod }

/-- Attaches a modifier. An argument must discharge a requirement; the event must be possible
and, if the settings ask for it, its future must have been seen. -/
def attach (g : Grammar) (m : Modificand) (d : Modifier) (side : Side) : Trial :=
  if g.language.isArgument d.item.label && !(m.item.side side).frame.contains d.item.label then
    ⟨[], none⟩
  else
    let event := attachmentEvent m d side
    let logMod := g.model.modifier event
    if isImpossible logMod
        || (g.settings.futureCheck
          && !g.model.futurePossible event.coarseHistory event.future) then
      ⟨[.modifier event], none⟩
    else ⟨[.modifier event], some (g.attached m d side logMod)⟩

/-- An attachment whose new history is handed out by a cache. The cache is asked only if there
is something built. -/
def attachFrom (g : Grammar) (histories : HistoryCache) (m : Modificand) (d : Modifier)
    (side : Side) : Except Fault (HistoryCache × Trial) := do
  let trial := g.attach m d side
  match trial.built with
  | none => return (histories, trial)
  | some item =>
    let (histories, prevMods) ← histories.shift (m.item.side side).prevMods d.item.label
    return (histories, { trial with built := some (item.withHistory side prevMods) })

def attachAll (g : Grammar) (histories : HistoryCache) :
    List (Modificand × Modifier × Side) → Except Fault (HistoryCache × List Trial)
  | [] => return (histories, [])
  | (m, d, side) :: rest => do
    let (histories, trial) ← g.attachFrom histories m d side
    let (histories, trials) ← g.attachAll histories rest
    return (histories, trial :: trials)

/-- Whether cutting after word `split` would leave a comma inside a constituent that ends at
`last`: neither its last word nor the end of the sentence excuses it. -/
def commaBlocks (commas : Array Bool) (split last : Nat) : Bool :=
  commas.getD split false && !commas.getD last false && last + 1 < commas.size

def commas (g : Grammar) (sentence : Sentence) : Array Bool :=
  (sentence.map fun token => g.language.isComma token.word).toArray

end Grammar

end HeadDriven
