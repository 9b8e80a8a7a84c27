import HeadDriven.Grammar

/-! What the steps of a derivation build, and when. Each step has a condition, in
which its events are possible, and a result; a step builds its result exactly under
its condition. The garbage marks of items count for nothing in either. -/
namespace HeadDriven

/-- Of a head and a modifier on one side of it, the one on the left. -/
def Side.leftPart (side : Side) (m d : Item) : Item :=
  match side with
  | .left => d
  | .right => m

def Side.rightPart (side : Side) (m d : Item) : Item :=
  match side with
  | .left => m
  | .right => d

namespace Grammar

def MayCut (g : Grammar) (sentence : Sentence) (split last : Nat) : Prop :=
  (g.settings.commaConstraint && commaBlocks (g.commas sentence) split last) = false

/-- A head that takes modifiers on a side and a finished constituent next to it there. -/
structure Joins (g : Grammar) (sentence : Sentence) (side : Side) (m d : Item) : Prop where
  takes : m.canTake side = true
  stopped : d.stopped = true
  adjacent : (side.leftPart m d).last + 1 = (side.rightPart m d).first
  uncut : g.MayCut sentence (side.leftPart m d).last (side.rightPart m d).last

section Joins

variable {g : Grammar} {sentence : Sentence} {side : Side} {m d : Item}

theorem Joins.growing (h : g.Joins sentence side m d) : m.stopped = false := by
  have takes := h.takes
  simp only [Item.canTake, Bool.and_eq_true, Bool.not_eq_true'] at takes
  exact takes.1

theorem Joins.discharged (h : g.Joins sentence .left m d) : m.right.frame.isEmpty = true := by
  have takes := h.takes
  simp only [Item.canTake, Bool.and_eq_true] at takes
  exact takes.2

theorem Joins.unmodified (h : g.Joins sentence .right m d) : m.left.children = [] := by
  have takes := h.takes
  simp only [Item.canTake, Bool.and_eq_true, List.isEmpty_iff] at takes
  exact takes.2

end Joins

structure Seeds (g : Grammar) (token : Token) (tag : Symbol) : Prop where
  candidate : tag ∈ g.candidateTags token
  prior : isImpossible (g.model.prior ⟨⟨token.word, tag⟩, tag⟩) = false

def seeded (g : Grammar) (position : Nat) (token : Token) (tag : Symbol) : Item :=
  Item.preterminal ⟨token.word, tag⟩ position (g.freshSide g.emptyFrame)
    (g.model.prior ⟨⟨token.word, tag⟩, tag⟩)

def headEvent (head : Item) (parent : Symbol) (left right : Frame) : HeadEvent :=
  ⟨⟨head.headWord, parent, head.label⟩, left, right⟩

structure Projects (g : Grammar) (head : Item) (parent : Symbol) (left right : Frame) :
    Prop where
  stopped : head.stopped = true
  nonterminal : parent ∈ g.model.nonterminals
  notTop : parent ≠ g.language.topLabel
  prior : isImpossible (g.model.prior ⟨head.headWord, parent⟩) = false
  leftFrame : left ∈ g.model.possibleFrames .left ⟨head.headWord, parent, head.label⟩
  rightFrame : right ∈ g.model.possibleFrames .right ⟨head.headWord, parent, head.label⟩
  event : isImpossible (g.model.head (headEvent head parent left right)) = false

def projected (g : Grammar) (index : Nat) (head : Item) (parent : Symbol)
    (left right : Frame) : Item :=
  { Item.unary parent index head (g.freshSide left) (g.freshSide right) with
    logTree := head.logTree + g.model.head (headEvent head parent left right)
    logPrior := g.model.prior ⟨head.headWord, parent⟩ }

/-- Attachment: an argument discharges a requirement, the event is possible, and its future
has been seen if the settings ask for it. -/
structure Attaches (g : Grammar) (m : Modificand) (d : Modifier) (side : Side) : Prop where
  argument : g.language.isArgument d.item.label = true →
    (m.item.side side).frame.contains d.item.label = true
  event : isImpossible (g.model.modifier (attachmentEvent m d side)) = false
  future : g.settings.futureCheck = true →
    g.model.futurePossible (attachmentEvent m d side).coarseHistory
      (attachmentEvent m d side).future = true

def attachment (g : Grammar) (m : Modificand) (d : Modifier) (side : Side) : Item :=
  g.attached m d side (g.model.modifier (attachmentEvent m d side))

structure Stops (g : Grammar) (m : Modificand) : Prop where
  growing : m.item.stopped = false
  frame : ∀ side, (m.item.side side).frame.isEmpty = true
  event : ∀ side, isImpossible (g.model.stop (g.stopEvent m side)) = false

def logStop (g : Grammar) (m : Modificand) : Float :=
  0.0 + g.model.stop (g.stopEvent m .left) + g.model.stop (g.stopEvent m .right)

def stoppedCopy (g : Grammar) (m : Modificand) : Item :=
  { m.item.copy with
    stopped := true
    logTree := m.item.logTree + g.logStop m }

structure Roots (g : Grammar) (head : Item) : Prop where
  stopped : head.stopped = true
  notTop : head.label ≠ g.language.topLabel
  event : isImpossible
    (g.model.head (headEvent head g.language.topLabel g.emptyFrame g.emptyFrame)) = false

def rooted (g : Grammar) (index : Nat) (head : Item) : Item :=
  let side := g.freshSide g.emptyFrame
  { Item.unary g.language.topLabel index head side side with
    stopped := true
    logTree := head.logTree +
      g.model.head (headEvent head g.language.topLabel g.emptyFrame g.emptyFrame) }

variable {g : Grammar} {item head : Item} {index position : Nat} {token : Token}
  {m : Modificand} {d : Modifier} {side : Side}

theorem mem_preterminals_iff : item ∈ g.preterminals position token ↔
    ∃ tag, g.Seeds token tag ∧ item = g.seeded position token tag := by
  simp only [preterminals, List.mem_filterMap, preterminal?]
  constructor
  · rintro ⟨tag, htag, hitem⟩
    split at hitem
    · cases hitem
    · rename_i hprior
      exact ⟨tag, ⟨htag, by simpa using hprior⟩, (Option.some.inj hitem).symm⟩
  · rintro ⟨tag, h, rfl⟩
    exact ⟨tag, h.candidate, by simp [h.prior, seeded]⟩

theorem projection?_eq_some_iff {parent : Symbol} {left right : Frame} :
    g.projection? index head parent left right = some item ↔
      isImpossible (g.model.head (headEvent head parent left right)) = false ∧
        item = g.projected index head parent left right := by
  unfold projection? projected headEvent
  simp only
  split
  · simp [*]
  · simp [*, eq_comm]

theorem mem_projections_iff : item ∈ g.projections index head ↔
    head.garbage = false ∧ ∃ parent left right, g.Projects head parent left right ∧
      item = g.projected index head parent left right := by
  unfold projections
  split
  · rename_i h
    simp only [List.not_mem_nil, false_iff, not_and]
    rintro hg ⟨parent, left, right, hp, -⟩
    simp [hg, hp.stopped] at h
  · rename_i h
    simp only [Bool.or_eq_true, Bool.not_eq_true', not_or, Bool.not_eq_true,
      Bool.not_eq_false] at h
    simp only [List.mem_flatMap, List.mem_filter, List.mem_filterMap, projection?_eq_some_iff]
    constructor
    · rintro ⟨parent, ⟨hparent, hok⟩, left, hleft, right, hright, hevent, rfl⟩
      simp only [ne_eq, decide_not, Bool.and_eq_true, Bool.not_eq_true', decide_eq_false_iff_not]
        at hok
      exact ⟨h.1, parent, left, right, ⟨h.2, hparent, hok.1, hok.2, hleft, hright, hevent⟩, rfl⟩
    · rintro ⟨-, parent, left, right, hp, rfl⟩
      exact ⟨parent, ⟨hp.nonterminal, by simp [hp.notTop, hp.prior]⟩, left, hp.leftFrame, right,
        hp.rightFrame,
        hp.event, rfl⟩

theorem attach_built_iff : (g.attach m d side).built = some item ↔
    g.Attaches m d side ∧ item = g.attachment m d side := by
  unfold attach
  split
  · rename_i h
    simp only [Bool.and_eq_true, Bool.not_eq_true'] at h
    simp only [reduceCtorEq, false_iff, not_and]
    intro ha
    rw [ha.argument h.1] at h
    cases h.2
  · rename_i h
    simp only [Bool.and_eq_true, Bool.not_eq_true', not_and, Bool.not_eq_false] at h
    simp only
    split
    · rename_i hno
      simp only [Bool.or_eq_true, Bool.and_eq_true, Bool.not_eq_true'] at hno
      simp only [reduceCtorEq, false_iff, not_and]
      intro ha
      rcases hno with hno | ⟨hcheck, hno⟩
      · rw [ha.event] at hno
        cases hno
      · rw [ha.future hcheck] at hno
        cases hno
    · rename_i hyes
      simp only [Bool.or_eq_true, Bool.and_eq_true, Bool.not_eq_true', not_or, not_and,
        Bool.not_eq_true, Bool.not_eq_false] at hyes
      simp only [Option.some.injEq, eq_comm (b := item)]
      exact ⟨fun hitem => ⟨⟨h, hyes.1, hyes.2⟩, hitem⟩, fun hitem => hitem.2⟩

theorem stop_built_iff : (g.stop m).built = some item ↔
    m.item.garbage = false ∧ g.Stops m ∧ item = g.stoppedCopy m := by
  unfold stop
  split
  · rename_i h
    simp only [Bool.or_eq_true, Bool.not_eq_true'] at h
    simp only [reduceCtorEq, false_iff, not_and]
    intro hg hs
    have hl : m.item.left.frame.isEmpty = true := hs.frame .left
    have hr : m.item.right.frame.isEmpty = true := hs.frame .right
    simp [hg, hs.growing, hl, hr] at h
  · rename_i h
    simp only [Bool.or_eq_true, Bool.not_eq_true', not_or, Bool.not_eq_true,
      Bool.not_eq_false] at h
    simp only
    split
    · rename_i hno
      simp only [reduceCtorEq, false_iff, not_and]
      intro _ hs
      rw [hs.event .left] at hno
      cases hno
    · rename_i hleft
      split
      · rename_i hno
        simp only [reduceCtorEq, false_iff, not_and]
        intro _ hs
        rw [hs.event .right] at hno
        cases hno
      · rename_i hright
        simp only [Option.some.injEq, eq_comm (b := item)]
        refine ⟨fun hitem => ⟨h.1.1.1, ⟨h.1.1.2, fun side => ?_, fun side => ?_⟩, hitem⟩,
          fun hitem => hitem.2.2⟩
        · cases side
          · exact h.1.2
          · exact h.2
        · cases side
          · exact eq_false_of_ne_true hleft
          · exact eq_false_of_ne_true hright

theorem root?_eq_some_iff : g.root? index head = some item ↔
    head.garbage = false ∧ g.Roots head ∧ item = g.rooted index head := by
  unfold root?
  simp only
  split
  · rename_i h
    simp only [Bool.or_eq_true, Bool.not_eq_true', decide_eq_true_eq] at h
    simp only [reduceCtorEq, false_iff, not_and]
    intro hg hr
    simp [hg, hr.stopped, hr.notTop] at h
  · rename_i h
    simp only [Bool.or_eq_true, Bool.not_eq_true', decide_eq_true_eq, not_or, Bool.not_eq_true,
      Bool.not_eq_false] at h
    split
    · rename_i hno
      simp only [reduceCtorEq, false_iff, not_and]
      intro _ hr
      have hevent := hr.event
      rw [headEvent, hno] at hevent
      cases hevent
    · rename_i hyes
      simp only [Option.some.injEq, eq_comm (b := item)]
      exact ⟨fun hitem => ⟨h.1.1, ⟨h.1.2, h.2, eq_false_of_ne_true hyes⟩, hitem⟩,
        fun hitem => hitem.2.2⟩

/-! What an attachment leaves of the item that it grows. -/

@[simp] theorem label_attachment (m : Modificand) (d : Modifier) (side : Side) :
    (g.attachment m d side).label = m.item.label := by
  cases side <;> rfl

@[simp] theorem headWord_attachment (m : Modificand) (d : Modifier) (side : Side) :
    (g.attachment m d side).headWord = m.item.headWord := by
  cases side <;> rfl

@[simp] theorem headChild_attachment (m : Modificand) (d : Modifier) (side : Side) :
    (g.attachment m d side).headChild = m.item.headChild := by
  cases side <;> rfl

@[simp] theorem stopped_attachment (m : Modificand) (d : Modifier) (side : Side) :
    (g.attachment m d side).stopped = m.item.stopped := by
  cases side <;> rfl

theorem span_attachment (m : Modificand) (d : Modifier) (side : Side) :
    (g.attachment m d side).first = (side.leftPart m.item d.item).first ∧
      (g.attachment m d side).last = (side.rightPart m.item d.item).last := by
  cases side <;> exact ⟨rfl, rfl⟩

theorem side_attachment_self (m : Modificand) (d : Modifier) (side : Side) :
    (g.attachment m d side).side side = g.extendSide (m.item.side side) d := by
  cases side <;> rfl

theorem side_attachment_of_ne (m : Modificand) (d : Modifier) {side other : Side}
    (h : other ≠ side) : (g.attachment m d side).side other = m.item.side other := by
  cases side <;> cases other <;> first | rfl | exact absurd rfl h

end Grammar

end HeadDriven
