import HeadDriven.Model
import HeadDriven.Model.Reader
import HeadDriven.Symbol.Table

/-! Tables of probabilities, filled statement by statement. Head events are
looked up by labels and frames, modifier and stop events by labels and side; a
missing event is impossible, a missing prior is certain. Each map lists its
latest binding first, so a later statement overrides an earlier one. -/
namespace HeadDriven.Model

structure PriorKey where
  label : Symbol
  word : Option Symbol
  deriving DecidableEq, Repr

structure HeadKey where
  parent : Symbol
  headLabel : Symbol
  left : Frame
  right : Frame
  deriving DecidableEq, Repr

structure ModifierKey where
  context : CoarseHistory
  modLabel : Symbol
  deriving DecidableEq, Repr

def seenAt {α : Type} (seen : List (CoarseHistory × List α)) (context : CoarseHistory) : List α :=
  (seen.lookup context).getD []

/-- Every modifier with a log probability was seen in its context. -/
def Foreseen (modifiers : List (ModifierKey × Float))
    (futures : List (CoarseHistory × List Symbol)) : Prop :=
  ∀ r ∈ modifiers, r.1.modLabel ∈ seenAt futures r.1.context

structure Table where
  symbols : SymbolTable
  frames : FrameKind
  nonterminals : List Symbol
  tags : List (Symbol × List Symbol)
  priors : List (PriorKey × Float)
  heads : List (HeadKey × Float)
  possibleFrames : List (CoarseHistory × List Frame)
  modifiers : List (ModifierKey × Float)
  /-- The modifier labels of each context, apart from their log probabilities. -/
  futures : List (CoarseHistory × List Symbol)
  stops : List (CoarseHistory × Float)
  foreseen : Foreseen modifiers futures
  deriving Repr

namespace Table

def empty (frames : FrameKind) : Table where
  symbols := SymbolTable.empty
  frames
  nonterminals := []
  tags := []
  priors := []
  heads := []
  possibleFrames := []
  modifiers := []
  futures := []
  stops := []
  foreseen := fun _ h => absurd h List.not_mem_nil

def appendNew {α : Type} [DecidableEq α] (xs : List α) (x : α) : List α :=
  if x ∈ xs then xs else xs ++ [x]

theorem mem_appendNew {α : Type} [DecidableEq α] {xs : List α} {x y : α} :
    y ∈ appendNew xs x ↔ y ∈ xs ∨ y = x := by
  unfold appendNew
  split
  · rename_i hx
    exact ⟨Or.inl, fun h => h.elim id fun hy => hy ▸ hx⟩
  · simp

def insertNew (label : Symbol) : List Symbol → List Symbol
  | [] => [label]
  | s :: rest =>
    if s.id < label.id then s :: insertNew label rest
    else if s = label then s :: rest
    else label :: s :: rest

def addSeen {α : Type} [DecidableEq α] (seen : List (CoarseHistory × List α))
    (context : CoarseHistory) (x : α) : List (CoarseHistory × List α) :=
  (context, appendNew (seenAt seen context) x) :: seen

theorem mem_seenAt_addSeen {α : Type} [DecidableEq α] {seen : List (CoarseHistory × List α)}
    {context other : CoarseHistory} {x y : α} :
    y ∈ seenAt (addSeen seen context x) other ↔
      y ∈ seenAt seen other ∨ other = context ∧ y = x := by
  unfold seenAt addSeen
  rw [List.lookup_cons]
  split
  · rename_i h
    rw [eq_of_beq h, Option.getD_some, mem_appendNew]
    simp [seenAt]
  · rename_i h
    have hne : other ≠ context := ne_of_beq_false h
    simp [hne]

theorem foreseen_cons {modifiers : List (ModifierKey × Float)}
    {futures : List (CoarseHistory × List Symbol)} (h : Foreseen modifiers futures)
    (key : ModifierKey) (logProb : Float) :
    Foreseen ((key, logProb) :: modifiers) (addSeen futures key.context key.modLabel) := by
  intro r hr
  rw [mem_seenAt_addSeen]
  rcases List.mem_cons.mp hr with rfl | hr
  · exact Or.inr ⟨rfl, rfl⟩
  · exact Or.inl (h r hr)

def addTags (t : Table) (word : String) (tags : List String) : Table :=
  let (symbols, word) := t.symbols.intern word
  let (symbols, tags) := symbols.internAll tags
  { t with
    symbols
    tags := (word, tags.foldl appendNew ((t.tags.lookup word).getD [])) :: t.tags }

def addPrior (t : Table) (label : String) (word : Option String) (logProb : Float) : Table :=
  let (symbols, label) := t.symbols.intern label
  match word with
  | none => { t with symbols, priors := (⟨label, none⟩, logProb) :: t.priors }
  | some word =>
    let (symbols, word) := symbols.intern word
    { t with symbols, priors := (⟨label, some word⟩, logProb) :: t.priors }

def addHead (t : Table) (parent headLabel : String) (left right : List String)
    (logProb : Float) : Table :=
  let (symbols, parent) := t.symbols.intern parent
  let (symbols, headLabel) := symbols.intern headLabel
  let (symbols, left) := symbols.internAll left
  let (symbols, right) := symbols.internAll right
  let left := Frame.ofList t.frames left
  let right := Frame.ofList t.frames right
  let seen := addSeen t.possibleFrames ⟨.left, parent, headLabel⟩ left
  { t with
    symbols
    nonterminals :=
      if parent = Symbol.top then t.nonterminals else insertNew parent t.nonterminals
    possibleFrames := addSeen seen ⟨.right, parent, headLabel⟩ right
    heads := (⟨parent, headLabel, left, right⟩, logProb) :: t.heads }

def addModifier (t : Table) (parent headLabel : String) (side : Side) (modLabel : String)
    (logProb : Float) : Table :=
  let (symbols, parent) := t.symbols.intern parent
  let (symbols, headLabel) := symbols.intern headLabel
  let (symbols, modLabel) := symbols.intern modLabel
  let key : ModifierKey := ⟨⟨side, parent, headLabel⟩, modLabel⟩
  { t with
    symbols
    modifiers := (key, logProb) :: t.modifiers
    futures := addSeen t.futures key.context modLabel
    foreseen := foreseen_cons t.foreseen key logProb }

def addStop (t : Table) (parent headLabel : String) (side : Side) (logProb : Float) : Table :=
  let (symbols, parent) := t.symbols.intern parent
  let (symbols, headLabel) := symbols.intern headLabel
  { t with symbols, stops := (⟨side, parent, headLabel⟩, logProb) :: t.stops }

def add (t : Table) : Statement → Table
  | .tags word tags => t.addTags word tags
  | .prior label word logProb => t.addPrior label word logProb
  | .head parent headLabel left right logProb => t.addHead parent headLabel left right logProb
  | .modifier parent headLabel side modLabel logProb =>
    t.addModifier parent headLabel side modLabel logProb
  | .stop parent headLabel side logProb => t.addStop parent headLabel side logProb

def ofStatements (frames : FrameKind) (statements : List Statement) : Table :=
  statements.foldl add (empty frames)

def ofText (frames : FrameKind) (text : String) : Except Error Table :=
  (statements text).map (ofStatements frames)

/-- The prior of a label with a word of its own, else with any word, else that of certainty. -/
def prior (t : Table) (e : PriorEvent) : Float :=
  ((t.priors.lookup ⟨e.label, some e.word.word⟩).or (t.priors.lookup ⟨e.label, none⟩)).getD 0.0

/-- The model that a table stands for. A future is possible if its modifier label was seen in
its context. -/
def model (t : Table) : Model where
  nonterminals := t.nonterminals
  tags word := (t.tags.lookup word).getD []
  prior := t.prior
  head e :=
    (t.heads.lookup ⟨e.context.parent, e.context.headLabel, e.left, e.right⟩).getD logOfZero
  possibleFrames side context :=
    seenAt t.possibleFrames ⟨side, context.parent, context.headLabel⟩
  modifier e := (t.modifiers.lookup ⟨e.coarseHistory, e.modLabel⟩).getD logOfZero
  stop e := (t.stops.lookup e.coarseHistory).getD logOfZero
  futurePossible context future := (seenAt t.futures context).contains future.label

end Table

end HeadDriven.Model
