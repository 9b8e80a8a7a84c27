import HeadDriven.Language.Treebank
import HeadDriven.Model.Adjusted
import HeadDriven.Proofs.Visits

/-! What the standard keys keep apart. Two items with equal keys take modifiers on the
same sides, ask the same events in every step of a derivation, and are allowed it
together. What the step builds of them has equal keys again, with one exception:
growing items that dominate a verb through their head child only have the keys of
those that do not, and their stopped copies have not. -/
namespace HeadDriven

namespace HistoryKey

variable {language : Language}

theorem ofHistory_standard_inj {h h' : History}
    (same : ofHistory .standard language h = ofHistory .standard language h') : h = h' := by
  cases h <;> cases h' <;> simp_all [ofHistory]

end HistoryKey

def Grammar.standardKey (g : Grammar) (a : Arena) (item : Item) : Key :=
  a.keyOf g.language g.settings.baseNpVerbBarrier .standard item

def Grammar.itemVerb (g : Grammar) (a : Arena) (item : Item) : Bool :=
  a.itemVerb g.language g.settings.baseNpVerbBarrier item

/-- Growing items of which every later step sees the same. -/
structure SameGrowing (a : Arena) (x y : Item) : Prop where
  label : x.label = y.label
  headWord : x.headWord = y.headWord
  headLabel : a.headLabelOf? x = a.headLabelOf? y
  frame : ∀ side, (x.side side).frame = (y.side side).frame
  history : ∀ side, (x.side side).prevMods = (y.side side).prevMods
  verb : ∀ side, (x.side side).verb = (y.side side).verb
  leftModified : x.left.children.isEmpty = y.left.children.isEmpty

structure SameStopped (g : Grammar) (a : Arena) (x y : Item) : Prop where
  label : x.label = y.label
  headWord : x.headWord = y.headWord
  preterminal : x.isPreterminal = y.isPreterminal
  verb : g.itemVerb a x = g.itemVerb a y

variable {g : Grammar} {a : Arena} {x y : Item}

theorem stopped_eq_of_key (same : g.standardKey a x = g.standardKey a y) :
    x.stopped = y.stopped := by
  have shape := congrArg Key.shape same
  cases hx : x.stopped <;> cases hy : y.stopped <;>
    simp_all [Grammar.standardKey, Arena.keyOf, Key.ofItem]

theorem standardKey_eq_iff_stopped (hx : x.stopped = true) (hy : y.stopped = true) :
    g.standardKey a x = g.standardKey a y ↔ SameStopped g a x y := by
  simp only [Grammar.standardKey, Arena.keyOf, Key.ofItem, hx, hy, if_true, Key.mk.injEq,
    true_and, Shape.stopped.injEq]
  exact ⟨fun h => ⟨h.1, h.2.1, h.2.2.1, h.2.2.2⟩,
    fun h => ⟨h.label, h.headWord, h.preterminal, h.verb⟩⟩

theorem standardKey_eq_iff_growing (hx : x.stopped = false) (hy : y.stopped = false) :
    g.standardKey a x = g.standardKey a y ↔ SameGrowing a x y := by
  simp only [Grammar.standardKey, Arena.keyOf, Key.ofItem, hx, hy, Bool.false_eq_true, if_false,
    reduceCtorEq, decide_false, Bool.false_and, Key.mk.injEq, true_and, Shape.growing.injEq,
    Prod.mk.injEq, Bool.not_inj_iff]
  constructor
  · rintro ⟨label, headWord, headLabel, ⟨fl, fr⟩, ⟨hl, hr⟩, ⟨vl, vr⟩, leftModified⟩
    refine ⟨label, headWord, headLabel, ?_, ?_, ?_, leftModified⟩
    · rintro (_ | _)
      · exact fl
      · exact fr
    · rintro (_ | _)
      · exact HistoryKey.ofHistory_standard_inj hl
      · exact HistoryKey.ofHistory_standard_inj hr
    · rintro (_ | _)
      · exact vl
      · exact vr
  · intro h
    have hl : x.left.prevMods = y.left.prevMods := h.history .left
    have hr : x.right.prevMods = y.right.prevMods := h.history .right
    exact ⟨h.label, h.headWord, h.headLabel, ⟨h.frame .left, h.frame .right⟩,
      ⟨congrArg _ hl, congrArg _ hr⟩, ⟨h.verb .left, h.verb .right⟩, h.leftModified⟩

theorem SameGrowing.canTake (h : SameGrowing a x y) (hx : x.stopped = false)
    (hy : y.stopped = false) (side : Side) : x.canTake side = y.canTake side := by
  cases side with
  | left =>
    have frame : x.right.frame = y.right.frame := h.frame .right
    simp [Item.canTake, hx, hy, frame]
  | right => simp [Item.canTake, hx, hy, h.leftModified]

/-- Two trials that ask the same and build for both or for neither, items of equal keys. -/
structure Trial.Agrees (key : Item → Key) (s t : Trial) : Prop where
  asked : s.asked = t.asked
  keys : s.built.map key = t.built.map key

theorem map_key_eq {key : Item → Key} {o o' : Option Item} {P P' : Prop} {z z' : Item}
    (h : ∀ item, o = some item ↔ P ∧ item = z) (h' : ∀ item, o' = some item ↔ P' ∧ item = z')
    (together : P ↔ P') (keys : P → key z = key z') : o.map key = o'.map key := by
  by_cases hP : P
  · rw [(h z).mpr ⟨hP, rfl⟩, (h' z').mpr ⟨together.mp hP, rfl⟩, Option.map_some, Option.map_some,
      keys hP]
  · have hnone : o = none := Option.eq_none_iff_forall_ne_some.mpr fun item hitem =>
      hP ((h item).mp hitem).1
    have hnone' : o' = none := Option.eq_none_iff_forall_ne_some.mpr fun item hitem =>
      hP (together.mpr ((h' item).mp hitem).1)
    rw [hnone, hnone']

variable {m m' : Modificand} {d d' : Modifier} {side : Side}

structure SameModificand (a : Arena) (m m' : Modificand) : Prop where
  item : SameGrowing a m.item m'.item
  headLabel : m.headLabel = m'.headLabel

structure SameModifier (d d' : Modifier) : Prop where
  label : d.item.label = d'.item.label
  headWord : d.item.headWord = d'.item.headWord
  verb : d.verb = d'.verb

theorem SameModifier.refl (d : Modifier) : SameModifier d d := ⟨rfl, rfl, rfl⟩

theorem SameGrowing.refl (x : Item) : SameGrowing a x x :=
  ⟨rfl, rfl, rfl, fun _ => rfl, fun _ => rfl, fun _ => rfl, rfl⟩

theorem attachmentEvent_congr (hm : SameModificand a m m') (hd : SameModifier d d') :
    Grammar.attachmentEvent m d side = Grammar.attachmentEvent m' d' side := by
  simp only [Grammar.attachmentEvent, hd.label, hd.headWord, hm.item.headWord, hm.item.history,
    hm.item.label, hm.headLabel, hm.item.frame, hm.item.verb]

theorem asked_attach : (g.attach m d side).asked =
    if g.language.isArgument d.item.label && !(m.item.side side).frame.contains d.item.label
    then [] else [.modifier (Grammar.attachmentEvent m d side)] := by
  unfold Grammar.attach
  split
  · rfl
  · simp only
    split <;> rfl

theorem attaches_congr (hm : SameModificand a m m') (hd : SameModifier d d') :
    g.Attaches m d side ↔ g.Attaches m' d' side := by
  have event : Grammar.attachmentEvent m d side = Grammar.attachmentEvent m' d' side :=
    attachmentEvent_congr hm hd
  constructor
  · intro h
    exact ⟨hd.label ▸ hm.item.frame side ▸ h.argument, event ▸ h.event, event ▸ h.future⟩
  · intro h
    refine ⟨?_, event.symm ▸ h.event, event.symm ▸ h.future⟩
    rw [hd.label, hm.item.frame side]
    exact h.argument

theorem headLabelOf?_attachment :
    a.headLabelOf? (g.attachment m d side) = a.headLabelOf? m.item := by
  rw [Arena.headLabelOf?, Grammar.headChild_attachment, Arena.headLabelOf?]

theorem SameGrowing.attachment (h : SameGrowing a m.item m'.item) (hd : SameModifier d d') :
    SameGrowing a (g.attachment m d side) (g.attachment m' d' side) where
  label := by
    rw [Grammar.label_attachment, Grammar.label_attachment, h.label]
  headWord := by
    rw [Grammar.headWord_attachment, Grammar.headWord_attachment, h.headWord]
  headLabel := by rw [headLabelOf?_attachment, headLabelOf?_attachment, h.headLabel]
  frame other := by
    by_cases hside : other = side
    · subst hside
      simp only [Grammar.side_attachment_self, Grammar.extendSide, h.frame, hd.label]
    · rw [Grammar.side_attachment_of_ne _ _ hside, Grammar.side_attachment_of_ne _ _ hside, h.frame]
  history other := by
    by_cases hside : other = side
    · subst hside
      simp only [Grammar.side_attachment_self, Grammar.extendSide, h.history, hd.label]
    · rw [Grammar.side_attachment_of_ne _ _ hside, Grammar.side_attachment_of_ne _ _ hside,
        h.history]
  verb other := by
    by_cases hside : other = side
    · subst hside
      simp only [Grammar.side_attachment_self, Grammar.extendSide, h.verb, hd.verb]
    · rw [Grammar.side_attachment_of_ne _ _ hside, Grammar.side_attachment_of_ne _ _ hside, h.verb]
  leftModified := by
    cases side with
    | left => rfl
    | right => exact h.leftModified

theorem attach_agrees (hm : SameModificand a m m') (hd : SameModifier d d')
    (growing : m.item.stopped = false) (growing' : m'.item.stopped = false) :
    (g.attach m d side).Agrees (g.standardKey a) (g.attach m' d' side) where
  asked := by
    rw [asked_attach, asked_attach, hd.label, hm.item.frame side, attachmentEvent_congr hm hd]
  keys := by
    refine map_key_eq (fun _ => Grammar.attach_built_iff) (fun _ => Grammar.attach_built_iff)
      (attaches_congr hm hd) fun _ => ?_
    refine (standardKey_eq_iff_growing ?_ ?_).mpr (hm.item.attachment hd)
    · rw [Grammar.stopped_attachment, growing]
    · rw [Grammar.stopped_attachment, growing']

theorem stopEvent_congr (hm : SameModificand a m m') :
    g.stopEvent m side = g.stopEvent m' side := by
  simp only [Grammar.stopEvent, hm.item.headWord, hm.item.history, hm.item.label, hm.headLabel,
    hm.item.frame, hm.item.verb]

theorem stops_congr (hm : SameModificand a m m') (growing : m.item.stopped = m'.item.stopped) :
    g.Stops m ↔ g.Stops m' := by
  constructor
  · intro h
    exact ⟨growing ▸ h.growing, fun side => hm.item.frame side ▸ h.frame side,
      fun side => stopEvent_congr hm ▸ h.event side⟩
  · intro h
    exact ⟨growing ▸ h.growing, fun side => hm.item.frame side ▸ h.frame side,
      fun side => stopEvent_congr hm ▸ h.event side⟩

theorem asked_stop_congr (hm : SameModificand a m m')
    (growing : m.item.stopped = m'.item.stopped) (garbage : m.item.garbage = m'.item.garbage) :
    (g.stop m).asked = (g.stop m').asked := by
  have left : m.item.left.frame = m'.item.left.frame := hm.item.frame .left
  have right : m.item.right.frame = m'.item.right.frame := hm.item.frame .right
  unfold Grammar.stop
  rw [garbage, growing, left, right, stopEvent_congr hm, stopEvent_congr hm]
  split
  · rfl
  · simp only
    split
    · rfl
    · split <;> rfl

theorem isPreterminal_eq (hx : a.HasHead x) : x.isPreterminal = (a.headLabelOf? x).isNone := by
  unfold Item.isPreterminal Arena.headLabelOf?
  cases hc : x.headChild with
  | none => rfl
  | some child =>
    obtain ⟨head, hhead⟩ := Arena.exists_built? (hx child hc)
    simp [hhead]

/-- Stopped copies of items that look the same look the same exactly when both items dominate
a verb or neither does. -/
theorem stoppedCopy_key_iff (hm : SameModificand a m m') (head : a.HasHead m.item)
    (head' : a.HasHead m'.item) :
    g.standardKey a (g.stoppedCopy m) = g.standardKey a (g.stoppedCopy m') ↔
      g.itemVerb a m.item = g.itemVerb a m'.item := by
  rw [standardKey_eq_iff_stopped rfl rfl]
  constructor
  · exact fun h => h.verb
  · intro verb
    refine ⟨hm.item.label, hm.item.headWord, ?_, verb⟩
    show m.item.isPreterminal = m'.item.isPreterminal
    rw [isPreterminal_eq head, isPreterminal_eq head', hm.item.headLabel]

theorem projection_key {i j : Nat} (hx : a.built? i = some x) (hy : a.built? j = some y)
    (h : SameStopped g a x y) (parent : Symbol) (left right : Frame) :
    (g.projection? i x parent left right).map (g.standardKey a) =
      (g.projection? j y parent left right).map (g.standardKey a) := by
  have event : Grammar.headEvent x parent left right = Grammar.headEvent y parent left right := by
    rw [Grammar.headEvent, h.headWord, h.label, Grammar.headEvent]
  refine map_key_eq (fun _ => Grammar.projection?_eq_some_iff)
    (fun _ => Grammar.projection?_eq_some_iff) (by rw [event]) fun _ => ?_
  refine (standardKey_eq_iff_growing rfl rfl).mpr ⟨rfl, h.headWord, ?_, ?_, ?_, ?_, rfl⟩
  · simp [Arena.headLabelOf?, Grammar.projected, Item.unary, hx, hy, h.label]
  all_goals
    rintro (_ | _) <;> rfl

theorem projections_keys {i j : Nat} (hx : a.built? i = some x) (hy : a.built? j = some y)
    (h : SameStopped g a x y) (stopped : x.stopped = y.stopped)
    (garbage : x.garbage = y.garbage) :
    (g.projections i x).map (g.standardKey a) = (g.projections j y).map (g.standardKey a) := by
  unfold Grammar.projections
  rw [stopped, garbage, h.headWord, h.label]
  split
  · rfl
  · simp only [List.map_flatMap, List.map_filterMap, projection_key hx hy h]

/-- What no later step tells apart of two items at positions `i` and `j`: the sides on which
they take modifiers, attachments to them and of them, projections and stops. Only the keys of
their stopped copies may differ, and do so exactly when one of them dominates a verb and the
other does not. -/
structure Interchangeable (g : Grammar) (a : Arena) (i j : Nat) (x y : Item) : Prop where
  takes : ∀ side, x.canTake side = y.canTake side
  head : x.stopped = false → ∀ side d,
    (g.attach (a.modificand i x) d side).Agrees (g.standardKey a)
      (g.attach (a.modificand j y) d side)
  modifier : x.stopped = true → ∀ side (m : Modificand), m.item.stopped = false →
    (g.attach m (g.modifier a i x) side).Agrees (g.standardKey a)
      (g.attach m (g.modifier a j y) side)
  headEvents : x.stopped = true → ∀ parent left right,
    Grammar.headEvent x parent left right = Grammar.headEvent y parent left right
  projections : (g.projections i x).map (g.standardKey a) =
    (g.projections j y).map (g.standardKey a)
  stopEvents : (g.stop (a.modificand i x)).asked = (g.stop (a.modificand j y)).asked
  stops : (g.stop (a.modificand i x)).built.isSome = (g.stop (a.modificand j y)).built.isSome
  stopped : ∀ x' y', (g.stop (a.modificand i x)).built = some x' →
    (g.stop (a.modificand j y)).built = some y' →
      (g.standardKey a x' = g.standardKey a y' ↔ g.itemVerb a x = g.itemVerb a y)

theorem Arena.garbage_of_built? {index : Nat} (h : a.built? index = some x) :
    x.garbage = false := by
  obtain ⟨stored, -, rfl⟩ := Arena.built?_eq_some_iff.mp h
  rfl

theorem isSome_stop_iff (fresh : m.item.garbage = false) :
    (g.stop m).built.isSome = true ↔ g.Stops m := by
  rw [Option.isSome_iff_exists]
  constructor
  · rintro ⟨item, hitem⟩
    exact (Grammar.stop_built_iff.mp hitem).2.1
  · exact fun h => ⟨_, Grammar.stop_built_iff.mpr ⟨fresh, h, rfl⟩⟩

theorem SameGrowing.interchangeable {i j : Nat} (h : SameGrowing a x y)
    (hx : x.stopped = false) (hy : y.stopped = false) (fresh : x.garbage = false)
    (fresh' : y.garbage = false) (head : a.HasHead x) (head' : a.HasHead y) :
    Interchangeable g a i j x y := by
  have hm : SameModificand a (a.modificand i x) (a.modificand j y) := by
    refine ⟨h, ?_⟩
    show a.headLabelOf x = a.headLabelOf y
    rw [Arena.headLabelOf, h.headLabel, h.label, Arena.headLabelOf]
  refine ⟨h.canTake hx hy, fun _ side d => attach_agrees hm (.refl d) hx hy, ?_, ?_, ?_, ?_, ?_, ?_⟩
  · intro hstopped
    rw [hx] at hstopped
    cases hstopped
  · intro hstopped
    rw [hx] at hstopped
    cases hstopped
  · simp [Grammar.projections, hx, hy]
  · exact asked_stop_congr hm (hx.trans hy.symm) (fresh.trans fresh'.symm)
  · exact Bool.eq_iff_iff.mpr ((isSome_stop_iff fresh).trans
      ((stops_congr hm (hx.trans hy.symm)).trans (isSome_stop_iff fresh').symm))
  · intro x' y' hx' hy'
    obtain ⟨-, -, rfl⟩ := Grammar.stop_built_iff.mp hx'
    obtain ⟨-, -, rfl⟩ := Grammar.stop_built_iff.mp hy'
    exact stoppedCopy_key_iff hm head head'

theorem SameStopped.interchangeable {i j : Nat} (h : SameStopped g a x y)
    (linked : a.Linked) (hx : a.built? i = some x) (hy : a.built? j = some y)
    (stopped : x.stopped = true) (stopped' : y.stopped = true) :
    Interchangeable g a i j x y := by
  have hd : SameModifier (g.modifier a i x) (g.modifier a j y) := by
    refine ⟨h.label, h.headWord, ?_⟩
    show a.dominatesVerb _ _ i = a.dominatesVerb _ _ j
    rw [Arena.dominatesVerb_eq_itemVerb linked hx, Arena.dominatesVerb_eq_itemVerb linked hy]
    exact h.verb
  have unstoppable {k : Nat} {z : Item} (hz : z.stopped = true) :
      g.stop (a.modificand k z) = ⟨[], none⟩ := by
    simp [Grammar.stop, Arena.modificand, hz]
  refine ⟨fun side => ?_, ?_, fun _ side m growing => ?_, fun _ parent left right => ?_, ?_, ?_, ?_,
    ?_⟩
  · simp [Item.canTake, stopped, stopped']
  · intro hgrowing
    rw [stopped] at hgrowing
    cases hgrowing
  · exact attach_agrees ⟨.refl m.item, rfl⟩ hd growing growing
  · rw [Grammar.headEvent, h.headWord, h.label, Grammar.headEvent]
  · exact projections_keys hx hy h (stopped.trans stopped'.symm)
      ((Arena.garbage_of_built? hx).trans (Arena.garbage_of_built? hy).symm)
  · rw [unstoppable stopped, unstoppable stopped']
  · rw [unstoppable stopped, unstoppable stopped']
  · intro x' y' hx'
    rw [unstoppable stopped] at hx'
    cases hx'

/-- Items with equal standard keys, among items that steps built, are interchangeable up to
the verbs under their head children. -/
theorem standard_keys_interchangeable (g : Grammar) (sentence : Sentence) (a : Arena)
    (built : a.Built g sentence) (i j : Nat) (x y : Item) (hx : a.built? i = some x)
    (hy : a.built? j = some y) (same : g.standardKey a x = g.standardKey a y) :
    Interchangeable g a i j x y := by
  have stopped := stopped_eq_of_key same
  have linked := built.linked
  cases hs : x.stopped with
  | false =>
    have hs' : y.stopped = false := stopped ▸ hs
    exact ((standardKey_eq_iff_growing hs hs').mp same).interchangeable hs hs'
      (Arena.garbage_of_built? hx) (Arena.garbage_of_built? hy) (linked.hasHead hx)
      (linked.hasHead hy)
  | true =>
    have hs' : y.stopped = true := stopped ▸ hs
    exact ((standardKey_eq_iff_stopped hs hs').mp same).interchangeable linked hx hy hs hs'

namespace Sample

/-- Over `w v` the constituent `X` may have a verb or a noun for its modifier. A `Y` over it
shows neither, but its modificand `Z` sees the verb before it takes a `D`. -/
def verbTable : Model.Table := Model.Table.ofStatements .bag [
  .tags "a" ["A"], .tags "w" ["B"], .tags "v" ["VB", "N"], .tags "d" ["D"],
  .head "X" "B" [] [] 0.0, .modifier "X" "B" .right "VB" (-2.0),
  .modifier "X" "B" .right "N" (-1.0), .stop "X" "B" .left 0.0, .stop "X" "B" .right (-3.0),
  .head "Y" "X" [] [] 0.0, .stop "Y" "X" .left 0.0, .stop "Y" "X" .right 0.0,
  .head "Z" "A" [] [] 0.0, .modifier "Z" "A" .right "Y" (-1.0),
  .modifier "Z" "A" .right "D" (-1.0), .stop "Z" "A" .left 0.0, .stop "Z" "A" .right (-3.0),
  .head "+TOP+" "Z" [] [] 0.0]

/-- Attachments across a verb are impossible, stops behind one are cheaper. -/
def verbGrammar : Grammar where
  model := verbTable.model.adjusted ⟨none, none, some (-1.0e300), none⟩
    ⟨none, none, some 2.0, none⟩
  language := Language.treebank verbTable.symbols
  settings := Settings.default

def verbSentence : Sentence := [.known ⟨4⟩ [], .known ⟨6⟩ [], .known ⟨8⟩ [], .known ⟨11⟩ []]

def nounSentence : Sentence := [.known ⟨4⟩ [], .known ⟨6⟩ [], .known ⟨8⟩ [⟨10⟩], .known ⟨11⟩ []]

end Sample

/-- The items at two positions fill one span and have equal standard keys, yet their stopped
copies have not. -/
def Forgets (g : Grammar) (a : Arena) (i j : Nat) : Prop :=
  ∃ x ∈ a.built? i, ∃ y ∈ a.built? j, x.first = y.first ∧ x.last = y.last ∧
    g.standardKey a x = g.standardKey a y ∧
    ∃ x' ∈ (g.stop (a.modificand i x)).built, ∃ y' ∈ (g.stop (a.modificand j y)).built,
      g.standardKey a x' ≠ g.standardKey a y'

instance (g : Grammar) (a : Arena) (i j : Nat) : Decidable (Forgets g a i j) := by
  unfold Forgets
  infer_instance

/-- The two items `Y` over `w v` have equal keys, so the better one, with the verb, is kept.
It bars `D` from `Z`, and there is no parse, though there is one with the noun. -/
theorem verb_under_head_forgotten :
    (∃ chart, (Decoder.after Sample.verbGrammar []).Visits Sample.verbSentence chart ∧
      Forgets Sample.verbGrammar chart.arena 17 18) ∧
    ((Decoder.after Sample.verbGrammar []).decode Sample.verbSentence).2.toOption.map
      Decoded.score? = some none ∧
    ((Decoder.after Sample.verbGrammar []).decode Sample.nounSentence).2.toOption.map
      Decoded.score? = some (some (-9.0)) := by
  refine ⟨?_, by decide +kernel, by decide +kernel⟩
  obtain ⟨chart, visited, h⟩ := Decoder.exists_visited Sample.verbGrammar
    Sample.verbSentence (fun chart => decide (Forgets Sample.verbGrammar chart.arena 17 18))
    (by decide +kernel) (by decide +kernel)
  exact ⟨chart, visited, of_decide_eq_true h⟩

/-- The same two items, which differ in nothing else. -/
theorem sample_interchangeable :
    ∃ chart x y, (Decoder.after Sample.verbGrammar []).Visits Sample.verbSentence chart ∧
      chart.arena.built? 17 = some x ∧ chart.arena.built? 18 = some y ∧
      Sample.verbGrammar.standardKey chart.arena x =
        Sample.verbGrammar.standardKey chart.arena y ∧
      Interchangeable Sample.verbGrammar chart.arena 17 18 x y := by
  obtain ⟨chart, visited, h⟩ := Decoder.exists_visited Sample.verbGrammar
    Sample.verbSentence (fun chart => decide (Forgets Sample.verbGrammar chart.arena 17 18))
    (by decide +kernel) (by decide +kernel)
  obtain ⟨x, hx, y, hy, -, -, same, -⟩ := of_decide_eq_true h
  exact ⟨chart, x, y, visited, hx, hy, same, standard_keys_interchangeable Sample.verbGrammar
    Sample.verbSentence chart.arena visited.sound_after.built 17 18 x y hx hy same⟩

end HeadDriven
