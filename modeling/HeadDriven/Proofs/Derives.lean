import HeadDriven.Proofs.Building
import HeadDriven.Proofs.Model.Licences

/-! Derivations that a table licenses. They are told apart from any chart: by the span, the
labels and the pending frames, with the log probability of all their steps. An item of a
decode stands for such a derivation, whose log probability is that of the item's tree. -/
namespace HeadDriven

/-- What a derivation has made of a span: a finished constituent, or one that may still take
modifiers, on the right as long as it has none on the left. -/
inductive Form where
  | finished (label : Symbol)
  | growing (label headLabel : Symbol) (left right : Frame) (leftModified : Bool)
  deriving DecidableEq, Repr

def Model.Table.grammar (t : Model.Table) (language : Language) (settings : Settings) : Grammar :=
  ⟨t.model, language, settings⟩

section Derivations

open Model (Licensed)

variable (t : Model.Table) (language : Language) (settings : Settings) (sentence : Sentence)

/-- The licensed derivations of a span, each with its log probability. -/
inductive Derives : (first last : Nat) → Form → (logProb : Float) → Prop where
  | word {position : Nat} {token : Token} {tag : Symbol} (word : sentence[position]? = some token)
      (candidate : tag ∈ (t.grammar language settings).candidateTags token) :
      Derives position position (.finished tag) 0.0
  | project {first last : Nat} {head parent : Symbol} {left right : Frame} {v logHead : Float}
      (under : Derives first last (.finished head) v) (nonterminal : parent ∈ t.nonterminals)
      (notTop : parent ≠ language.topLabel)
      (event : Licensed (t.heads.lookup ⟨parent, head, left, right⟩) logHead) :
      Derives first last (.growing parent head left right false) (v + logHead)
  | attachRight {first split last : Nat} {label parent head : Symbol} {left right : Frame}
      {v w logMod : Float} (under : Derives first split (.growing parent head left right false) v)
      (modifier : Derives (split + 1) last (.finished label) w)
      (uncut : (t.grammar language settings).MayCut sentence split last)
      (argument : language.isArgument label = true → right.contains label = true)
      (event : Licensed (t.modifiers.lookup ⟨⟨.right, parent, head⟩, label⟩) logMod) :
      Derives first last (.growing parent head left (right.erase label) false) (v + w + logMod)
  | attachLeft {first split last : Nat} {label parent head : Symbol} {left right : Frame}
      {leftModified : Bool} {v w logMod : Float}
      (under : Derives (split + 1) last (.growing parent head left right leftModified) v)
      (modifier : Derives first split (.finished label) w)
      (uncut : (t.grammar language settings).MayCut sentence split last)
      (discharged : right.isEmpty = true)
      (argument : language.isArgument label = true → left.contains label = true)
      (event : Licensed (t.modifiers.lookup ⟨⟨.left, parent, head⟩, label⟩) logMod) :
      Derives first last (.growing parent head (left.erase label) right true) (v + w + logMod)
  | stop {first last : Nat} {parent head : Symbol} {left right : Frame} {leftModified : Bool}
      {v logLeft logRight : Float}
      (under : Derives first last (.growing parent head left right leftModified) v)
      (leftDischarged : left.isEmpty = true) (rightDischarged : right.isEmpty = true)
      (leftEvent : Licensed (t.stops.lookup ⟨.left, parent, head⟩) logLeft)
      (rightEvent : Licensed (t.stops.lookup ⟨.right, parent, head⟩) logRight) :
      Derives first last (.finished parent) (v + (0.0 + logLeft + logRight))

/-- The licensed derivations of a whole sentence: a finished constituent and a top transition. -/
inductive DerivesSentence : (logProb : Float) → Prop where
  | top {last : Nat} {label : Symbol} {v logHead : Float} (whole : last + 1 = sentence.length)
      (under : Derives t language settings sentence 0 last (.finished label) v)
      (event : Licensed (t.heads.lookup ⟨language.topLabel, label, Frame.empty settings.frames,
        Frame.empty settings.frames⟩) logHead) :
      DerivesSentence (v + logHead)

end Derivations

def Arena.form (a : Arena) (item : Item) : Form :=
  if item.stopped then .finished item.label
  else .growing item.label (a.headLabelOf item) item.left.frame item.right.frame
    (!item.left.children.isEmpty)

namespace Arena

variable {g : Grammar} {a : Arena} {bound index : Nat} {item head m d : Item} {side : Side}

theorem form_of_stopped (h : item.stopped = true) : a.form item = .finished item.label := by
  simp [form, h]

theorem form_of_growing (h : item.stopped = false) : a.form item =
    .growing item.label (a.headLabelOf item) item.left.frame item.right.frame
      (!item.left.children.isEmpty) := by
  simp [form, h]

theorem form_projected (h : a.Holds bound index head) (parent : Symbol) (left right : Frame) :
    a.form (g.projected index head parent left right) =
      .growing parent head.label left right false := by
  rw [form_of_growing rfl]
  simp [headLabelOf, headLabelOf?, Grammar.projected, Item.unary, Grammar.freshSide,
    SideInfo.fresh, h.built]

theorem headLabelOf_attachment (i : Nat) (m : Item) (d : Modifier) (side : Side) :
    a.headLabelOf (g.attachment (a.modificand i m) d side) = a.headLabelOf m := by
  unfold headLabelOf headLabelOf?
  rw [Grammar.headChild_attachment, Grammar.label_attachment]
  rfl

theorem form_attachRight (h : m.stopped = false) (i j : Nat) :
    a.form (g.attachment (a.modificand i m) (g.modifier a j d) .right) =
      .growing m.label (a.headLabelOf m) m.left.frame (m.right.frame.erase d.label)
        (!m.left.children.isEmpty) := by
  rw [form_of_growing (by rw [Grammar.stopped_attachment]; exact h), headLabelOf_attachment]
  rfl

theorem form_attachLeft (h : m.stopped = false) (i j : Nat) :
    a.form (g.attachment (a.modificand i m) (g.modifier a j d) .left) =
      .growing m.label (a.headLabelOf m) (m.left.frame.erase d.label) m.right.frame true := by
  rw [form_of_growing (by rw [Grammar.stopped_attachment]; exact h), headLabelOf_attachment]
  rfl

end Arena

open Model (Licensed)

section Items

variable {t : Model.Table} {language : Language} {settings : Settings} {sentence : Sentence}
  {a : Arena} {index : Nat} {item : Item}

/-- Every item of a chart without top items stands for a derivation. -/
theorem Arena.Built.derives (built : a.Built (t.grammar language settings) sentence)
    (rootless : ∀ i x, a.built? i = some x → x.label ≠ language.topLabel)
    (h : a.built? index = some item) :
    Derives t language settings sentence item.first item.last (a.form item) item.logTree := by
  refine built.induction (P := fun _ item => item.label ≠ language.topLabel →
    Derives t language settings sentence item.first item.last (a.form item) item.logTree)
    (fun index item h before notTop => ?_) h (rootless index item h)
  have below (i : Nat) (x : Item) (under : a.Holds index i x) :=
    before i x under (rootless i x under.built)
  cases h with
  | seed word h => exact .word word h.candidate
  | project under h =>
    have head := below _ _ under
    rw [form_of_stopped h.stopped] at head
    rw [form_projected under]
    exact .project head h.nonterminal h.notTop (Model.licensed_iff.mpr ⟨h.event, rfl⟩)
  | attach under modifier joins h =>
    have head := below _ _ under
    have part := below _ _ modifier
    have adjacent := joins.adjacent
    have event := Model.licensed_iff.mpr ⟨h.event, rfl⟩
    rename_i i j m d side
    rw [form_of_growing joins.growing] at head
    rw [form_of_stopped joins.stopped] at part
    cases side with
    | left =>
      simp only [Side.leftPart, Side.rightPart] at adjacent
      rw [form_attachLeft joins.growing]
      exact .attachLeft (adjacent ▸ head) part joins.uncut joins.discharged h.argument event
    | right =>
      simp only [Side.leftPart, Side.rightPart] at adjacent
      have unmodified : m.left.children.isEmpty = true := List.isEmpty_iff.mpr joins.unmodified
      rw [form_attachRight joins.growing]
      rw [unmodified] at head ⊢
      exact .attachRight head (adjacent ▸ part) joins.uncut h.argument event
  | stop under h =>
    have head := below _ _ under
    rename_i i m
    have growing : m.stopped = false := h.growing
    rw [form_of_growing growing] at head
    rw [form_of_stopped rfl]
    exact .stop head (h.frame .left) (h.frame .right)
      (Model.licensed_iff.mpr ⟨h.event .left, rfl⟩) (Model.licensed_iff.mpr ⟨h.event .right, rfl⟩)
  | root under whole h => exact absurd rfl notTop

end Items

end HeadDriven
