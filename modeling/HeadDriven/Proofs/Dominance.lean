import HeadDriven.Proofs.Derives
import HeadDriven.Proofs.Search.Filling

/-! A full chart dominates every licensed derivation: some live item over its span has its
form and no smaller log probability. Each step of a derivation has its own case. What the
step builds over dominating items is covered in the chart; so its key is held by an item
that is no worse, and items with equal keys have equal forms. -/
namespace HeadDriven

variable {t : Model.Table} {language : Language} {settings : Settings} {sentence : Sentence}

/-- A key tells the form, but for the frames of base noun phrases that have keys of their own. -/
theorem Arena.form_eq_of_keyOf {a : Arena} {barrier : Bool} {equivalence : Equivalence}
    {x y : Item}
    (h : a.keyOf language barrier equivalence x = a.keyOf language barrier equivalence y)
    (framed : equivalence = .baseNp → x.stopped = false → y.stopped = false →
      language.isBaseNp x.label = true → language.isBaseNp y.label = true →
      x.left.frame = y.left.frame ∧ x.right.frame = y.right.frame) : a.form x = a.form y := by
  unfold keyOf Key.ofItem at h
  cases sx : x.stopped <;> cases sy : y.stopped
  case true.true =>
    simp only [sx, sy, if_true, Key.mk.injEq, Shape.stopped.injEq, true_and] at h
    rw [form_of_stopped sx, form_of_stopped sy, h.1]
  case true.false | false.true =>
    simp only [sx, sy, Bool.false_eq_true, if_true, if_false] at h
    split at h <;> simp at h
  case false.false =>
    simp only [sx, sy, Bool.false_eq_true, if_false] at h
    rw [form_of_growing sx, form_of_growing sy]
    split at h <;> split at h <;> simp at h
    · rename_i basex basey
      simp only [Bool.and_eq_true, decide_eq_true_eq] at basex basey
      obtain ⟨left, right⟩ := framed basex.1 sx sy basex.2 basey.2
      simp [headLabelOf, h, left, right]
    · simp [headLabelOf, h]

namespace Arena

variable {a : Arena} {item : Item} {label headLabel : Symbol} {left right : Frame}
  {leftModified : Bool}

theorem form_eq_finished_iff :
    a.form item = .finished label ↔ item.stopped = true ∧ item.label = label := by
  unfold form
  split <;> simp [*]

theorem form_eq_growing_iff : a.form item = .growing label headLabel left right leftModified ↔
    item.stopped = false ∧ item.label = label ∧ a.headLabelOf item = headLabel ∧
      item.left.frame = left ∧ item.right.frame = right ∧
        (!item.left.children.isEmpty) = leftModified := by
  unfold form
  split <;> simp [*]

end Arena

/-- Some live item over a span has a given form and no smaller log probability. -/
def Chart.Dominates (c : Chart) (first last : Nat) (form : Form) (v : Float) : Prop :=
  ∃ index item, c.Live first last index item ∧ c.arena.form item = form ∧ v ≤ item.logTree

namespace Search

/-- A point of a decode that prunes nothing at which every cell is filled, and nothing has the
top label yet. -/
structure Saturated (t : Model.Table) (language : Language) (settings : Settings)
    (sentence : Sentence) (chart : Chart) (p : Progress) : Prop where
  unpruned : Unpruned (t.grammar language settings) chart sentence
  passes : Passes (t.grammar language settings) chart sentence p
  discounting : t.Discounting
  filled : ∀ first last, first ≤ last → last < sentence.length →
    p.search.Filled (t.grammar language settings) sentence first last
  rootless : p.search.chart.Rootless (t.grammar language settings)

/-- Such a point at which an item that may be offered has the form of every live item with its
key. -/
structure Telling (t : Model.Table) (language : Language) (settings : Settings)
    (sentence : Sentence) (chart : Chart) (p : Progress) : Prop
    extends Saturated t language settings sentence chart p where
  tells : ∀ first last index x y,
    Offerable (t.grammar language settings) sentence p.search.chart.arena first last y →
    p.search.chart.Live first last index x →
    p.search.chart.keyOf language x = p.search.chart.keyOf language y →
    p.search.chart.arena.form x = p.search.chart.arena.form y

/-- Such a point under an equivalence by which keys tell forms. -/
structure Full (t : Model.Table) (language : Language) (settings : Settings) (sentence : Sentence)
    (chart : Chart) (p : Progress) : Prop where
  unpruned : Unpruned (t.grammar language settings) chart sentence
  passes : Passes (t.grammar language settings) chart sentence p
  discounting : t.Discounting
  standard : settings.equivalence ≠ .baseNp
  filled : ∀ first last, first ≤ last → last < sentence.length →
    p.search.Filled (t.grammar language settings) sentence first last
  rootless : p.search.chart.Rootless (t.grammar language settings)

variable {chart : Chart} {p : Progress} {first last split i j : Nat} {v w logProb : Float}
  {x y m d : Item} {side : Side} {label head parent : Symbol} {left right : Frame}
  {leftModified : Bool}

namespace Saturated

theorem sound (f : Saturated t language settings sentence chart p) :
    p.search.chart.Sound (t.grammar language settings) sentence :=
  f.unpruned.sound f.passes.visits

theorem inside_whole (f : Saturated t language settings sentence chart p) {q : Progress}
    (passes : Passes (t.grammar language settings) chart sentence q) :
    q.search.chart.Inside 0 (sentence.length - 1) := by
  have := List.length_pos_iff.mpr f.unpruned.words
  refine ⟨Nat.zero_le _, ?_⟩
  rw [(f.unpruned.sound passes.visits).size]
  omega

theorem logTree_le_zero (f : Saturated t language settings sentence chart p)
    (live : p.search.chart.Live first last i x) : x.logTree ≤ 0.0 :=
  (f.unpruned.weighed f.passes.visits (live.built? f.sound.consistent)).logTree

theorem cell (f : Saturated t language settings sentence chart p)
    (inside : p.search.chart.Inside first last) :
    p.search.Filled (t.grammar language settings) sentence first last :=
  f.filled first last inside.1 (f.sound.size ▸ inside.2)

theorem prior (f : Saturated t language settings sentence chart p) (word : TaggedWord)
    (label : Symbol) : isImpossible (t.model.prior ⟨word, label⟩) = false := by
  have certain : t.model.prior ⟨word, label⟩ = 0.0 := f.unpruned.certain _
  rw [certain]
  decide +kernel

theorem derives_top (f : Saturated t language settings sentence chart p)
    (live : p.search.chart.Live 0 (sentence.length - 1) i x)
    (hroot : (t.grammar language settings).root? i x = some y) :
    DerivesSentence t language settings sentence y.logTree := by
  have resides := live.resides f.sound.consistent
  obtain ⟨-, roots, rfl⟩ := Grammar.root?_eq_some_iff.mp hroot
  have under := f.sound.built.derives f.rootless (live.built? f.sound.consistent)
  rw [Arena.form_of_stopped roots.stopped, resides.first, resides.last] at under
  have whole := List.length_pos_iff.mpr f.unpruned.words
  exact .top (by omega) under (Model.licensed_iff.mpr ⟨roots.event, rfl⟩)

theorem telling_of_standard (f : Saturated t language settings sentence chart p)
    (standard : settings.equivalence ≠ .baseNp) :
    Telling t language settings sentence chart p where
  toSaturated := f
  tells _ _ _ _ _ _ _ key := Arena.form_eq_of_keyOf key fun baseNp =>
    absurd baseNp (f.sound.settings ▸ standard)

end Saturated

namespace Telling

theorem dominates_of_covers (f : Telling t language settings sentence chart p)
    (inside : p.search.chart.Inside first last)
    (offerable : Offerable (t.grammar language settings) sentence p.search.chart.arena first last y)
    (covers : p.search.chart.Covers language y) (hle : v ≤ y.logTree) :
    p.search.chart.Dominates first last (p.search.chart.arena.form y) v := by
  have ok := f.sound.consistent
  obtain ⟨i, other, resides, ⟨e, he, rfl⟩, key, score⟩ :=
    covers.exists_resides ok (offerable.inside inside)
  have certain := f.unpruned.certain_of_offerable f.passes.visits offerable
  obtain ⟨builds, rfl, rfl⟩ := offerable
  have live : p.search.chart.Live y.first y.last e.index other :=
    ⟨inside, ⟨y.label, e, he, rfl⟩, resides.stored⟩
  have certain' := f.unpruned.certain_at f.passes.visits (live.built? ok)
  refine ⟨e.index, other, live, f.tells _ _ _ _ _ ⟨builds, rfl, rfl⟩ live key, ?_⟩
  exact LogProb.numbers_le_trans hle (certain.logTree_le_logTree certain' score)

theorem dominates_word (f : Telling t language settings sentence chart p) {position : Nat}
    {token : Token} {tag : Symbol} (word : sentence[position]? = some token)
    (candidate : tag ∈ (t.grammar language settings).candidateTags token) :
    p.search.chart.Dominates position position (.finished tag) 0.0 := by
  have hlt := (List.getElem?_eq_some_iff.mp word).choose
  have cell := f.filled position position (Nat.le_refl _) hlt
  have seeds : (t.grammar language settings).Seeds token tag := ⟨candidate, f.prior _ _⟩
  have zero := LogProb.zero_le_zero
  exact f.dominates_of_covers cell.inside ⟨.seed word seeds, rfl, rfl⟩
    (cell.seeds rfl token tag word seeds) (LogProb.le_refl zero)

theorem dominates_projection (f : Telling t language settings sentence chart p)
    (under : p.search.chart.Dominates first last (.finished head) v)
    (nonterminal : parent ∈ t.nonterminals) (notTop : parent ≠ language.topLabel)
    (event : Model.Licensed (t.heads.lookup ⟨parent, head, left, right⟩) logProb) :
    p.search.chart.Dominates first last (.growing parent head left right false)
      (v + logProb) := by
  have hhead := event.le_zero f.discounting.heads
  have ok := f.sound.consistent
  obtain ⟨i, x, live, hform, hle⟩ := under
  obtain ⟨stopped, rfl⟩ := Arena.form_eq_finished_iff.mp hform
  have resides := live.resides ok
  obtain ⟨leftFrame, rightFrame⟩ := f.discounting.possibleFrames event x.headWord
  obtain ⟨possible, rfl⟩ := Model.licensed_iff.mp event
  have projects : (t.grammar language settings).Projects x parent left right :=
    ⟨stopped, nonterminal, notTop, f.prior _ _, leftFrame, rightFrame, possible⟩
  have built : (t.grammar language settings).projected i x parent left right ∈
      (t.grammar language settings).projections i x :=
    Grammar.mem_projections_iff.mpr ⟨resides.live, parent, left, right, projects, rfl⟩
  rw [← Arena.form_projected (live.holds ok)]
  exact f.dominates_of_covers live.inside
    (offerable_of_projection live.stored resides.first resides.last built)
    (((f.cell live.inside).closed i x live).projections _ built)
    (LogProb.add_le_add (f.logTree_le_zero live) hhead hle (LogProb.le_refl hhead))

theorem dominates_attachment (f : Telling t language settings sentence chart p)
    (pair : p.search.Pair first split last side i m j d) (wide : first < last)
    (inside : p.search.chart.Inside first last)
    (uncut : (t.grammar language settings).MayCut sentence split last)
    (argument : language.isArgument d.label = true → (m.side side).frame.contains d.label = true)
    (event : Model.Licensed (t.modifiers.lookup
      ⟨⟨side, m.label, p.search.chart.arena.headLabelOf m⟩, d.label⟩) logProb)
    (hvm : v ≤ m.logTree) (hwd : w ≤ d.logTree) :
    p.search.chart.Dominates first last
      (p.search.chart.arena.form ((t.grammar language settings).attachment
        (p.search.chart.arena.modificand i m)
        ((t.grammar language settings).modifier p.search.chart.arena j d) side))
      (v + w + logProb) := by
  have hmod := event.le_zero f.discounting.modifiers
  have hm := f.logTree_le_zero pair.head
  have hd := f.logTree_le_zero pair.modifier
  obtain ⟨possible, rfl⟩ := Model.licensed_iff.mp event
  have attaches : (t.grammar language settings).Attaches (p.search.chart.arena.modificand i m)
      ((t.grammar language settings).modifier p.search.chart.arena j d) side :=
    ⟨argument, possible, fun _ => t.futurePossible_of_possible possible⟩
  have built := Grammar.attach_built_iff.mpr ⟨attaches, rfl⟩
  refine f.dominates_of_covers inside (offerable_of_pair f.sound pair uncut built)
    ((f.cell inside).attachments wide split side i m j d pair uncut _ built) ?_
  exact LogProb.add_le_add (LogProb.add_le_zero hm hd) hmod (LogProb.add_le_add hm hd hvm hwd)
    (LogProb.le_refl hmod)

theorem dominates_right (f : Telling t language settings sentence chart p)
    (under : p.search.chart.Dominates first split (.growing parent head left right false) v)
    (modifier : p.search.chart.Dominates (split + 1) last (.finished label) w)
    (uncut : (t.grammar language settings).MayCut sentence split last)
    (argument : language.isArgument label = true → right.contains label = true)
    (event : Model.Licensed (t.modifiers.lookup ⟨⟨.right, parent, head⟩, label⟩) logProb) :
    p.search.chart.Dominates first last
      (.growing parent head left (right.erase label) false) (v + w + logProb) := by
  obtain ⟨i, m, liveM, hm, hvm⟩ := under
  obtain ⟨j, d, liveD, hd, hwd⟩ := modifier
  obtain ⟨growing, rfl, rfl, rfl, rfl, unmodified⟩ := Arena.form_eq_growing_iff.mp hm
  obtain ⟨stopped, rfl⟩ := Arena.form_eq_finished_iff.mp hd
  have takes : m.canTake .right = true := by simpa [Item.canTake, growing] using unmodified
  have pair := pair_of_right f.sound.consistent liveM takes liveD stopped
  have wide : first < last := Nat.lt_of_le_of_lt liveM.inside.1 liveD.inside.1
  rw [← unmodified, ← Arena.form_attachRight growing]
  exact f.dominates_attachment pair wide ⟨Nat.le_of_lt wide, liveD.inside.2⟩ uncut argument event
    hvm hwd

theorem dominates_left (f : Telling t language settings sentence chart p)
    (under : p.search.chart.Dominates (split + 1) last
      (.growing parent head left right leftModified) v)
    (modifier : p.search.chart.Dominates first split (.finished label) w)
    (uncut : (t.grammar language settings).MayCut sentence split last)
    (discharged : right.isEmpty = true)
    (argument : language.isArgument label = true → left.contains label = true)
    (event : Model.Licensed (t.modifiers.lookup ⟨⟨.left, parent, head⟩, label⟩) logProb) :
    p.search.chart.Dominates first last
      (.growing parent head (left.erase label) right true) (v + w + logProb) := by
  obtain ⟨i, m, liveM, hm, hvm⟩ := under
  obtain ⟨j, d, liveD, hd, hwd⟩ := modifier
  obtain ⟨growing, rfl, rfl, rfl, rfl, -⟩ := Arena.form_eq_growing_iff.mp hm
  obtain ⟨stopped, rfl⟩ := Arena.form_eq_finished_iff.mp hd
  have takes : m.canTake .left = true := by simp [Item.canTake, growing, discharged]
  have pair := pair_of_left f.sound.consistent liveM takes liveD stopped
  have wide : first < last := Nat.lt_of_le_of_lt liveD.inside.1 liveM.inside.1
  rw [← Arena.form_attachLeft growing]
  exact f.dominates_attachment pair wide ⟨Nat.le_of_lt wide, liveM.inside.2⟩ uncut argument event
    hvm hwd

theorem dominates_stopped (f : Telling t language settings sentence chart p)
    {logLeft logRight : Float}
    (under : p.search.chart.Dominates first last (.growing parent head left right leftModified) v)
    (leftDischarged : left.isEmpty = true) (rightDischarged : right.isEmpty = true)
    (leftEvent : Model.Licensed (t.stops.lookup ⟨.left, parent, head⟩) logLeft)
    (rightEvent : Model.Licensed (t.stops.lookup ⟨.right, parent, head⟩) logRight) :
    p.search.chart.Dominates first last (.finished parent)
      (v + (0.0 + logLeft + logRight)) := by
  obtain ⟨i, x, live, hform, hle⟩ := under
  obtain ⟨growing, rfl, rfl, rfl, rfl, -⟩ := Arena.form_eq_growing_iff.mp hform
  have resides := live.resides f.sound.consistent
  obtain ⟨possibleLeft, rfl⟩ := Model.licensed_iff.mp leftEvent
  obtain ⟨possibleRight, rfl⟩ := Model.licensed_iff.mp rightEvent
  have stops : (t.grammar language settings).Stops (p.search.chart.arena.modificand i x) := by
    refine ⟨growing, fun side => ?_, fun side => ?_⟩
    · cases side
      · exact leftDischarged
      · exact rightDischarged
    · cases side
      · exact possibleLeft
      · exact possibleRight
  have built := Grammar.stop_built_iff.mpr ⟨resides.live, stops, rfl⟩
  have hstop := f.unpruned.discounts.damps.logStop stops
  have hcopy : p.search.chart.arena.form ((t.grammar language settings).stoppedCopy
      (p.search.chart.arena.modificand i x)) = .finished x.label := Arena.form_of_stopped rfl
  rw [← hcopy]
  exact f.dominates_of_covers live.inside
    (offerable_of_stop live.stored resides.first resides.last built)
    (((f.cell live.inside).closed i x live).stop _ built)
    (LogProb.add_le_add (f.logTree_le_zero live) hstop hle (LogProb.le_refl hstop))

/-- A full chart dominates every licensed derivation. -/
theorem dominates (f : Telling t language settings sentence chart p) {form : Form}
    (h : Derives t language settings sentence first last form v) :
    p.search.chart.Dominates first last form v := by
  induction h with
  | word word candidate => exact f.dominates_word word candidate
  | project under nonterminal notTop event ih =>
    exact f.dominates_projection ih nonterminal notTop event
  | attachRight under modifier uncut argument event ih ihd =>
    exact f.dominates_right ih ihd uncut argument event
  | attachLeft under modifier uncut discharged argument event ih ihd =>
    exact f.dominates_left ih ihd uncut discharged argument event
  | stop under leftDischarged rightDischarged leftEvent rightEvent ih =>
    exact f.dominates_stopped ih leftDischarged rightDischarged leftEvent rightEvent

theorem exists_top (f : Telling t language settings sentence chart p) {s : Search}
    (finishes : Finishes (t.grammar language settings) p.search s (sentence.length - 1))
    (h : DerivesSentence t language settings sentence v) :
    ∃ e ∈ (s.chart.groupAt 0 (sentence.length - 1) language.topLabel).entries,
      v ≤ e.score := by
  obtain @⟨last, label, v, logHead, whole, under, event⟩ := h
  obtain rfl : last = sentence.length - 1 := by omega
  have hhead := event.le_zero f.discounting.heads
  obtain ⟨i, x, live, hform, hle⟩ := f.dominates under
  obtain ⟨stopped, rfl⟩ := Arena.form_eq_finished_iff.mp hform
  have resides := live.resides f.sound.consistent
  have notTop := f.rootless i x (live.built? f.sound.consistent)
  obtain ⟨possible, rfl⟩ := Model.licensed_iff.mp event
  have hroot : (t.grammar language settings).root? i x =
      some ((t.grammar language settings).rooted i x) :=
    Grammar.root?_eq_some_iff.mpr ⟨resides.live, ⟨stopped, notTop, possible⟩, rfl⟩
  have offerable := offerable_of_root live.stored resides.first resides.last whole hroot
  have certain := f.unpruned.certain_of_offerable f.passes.visits offerable
  obtain ⟨e, he, -, hscore⟩ := finishes.covers i x live _ hroot
  rw [Chart.groupOf, offerable.first, offerable.last] at he
  refine ⟨e, he, LogProb.numbers_le_trans ?_ hscore⟩
  refine LogProb.numbers_le_trans ?_ certain.logTree_le_score
  exact LogProb.add_le_add (f.logTree_le_zero live) hhead hle (LogProb.le_refl hhead)

end Telling

theorem Full.saturated (f : Full t language settings sentence chart p) :
    Saturated t language settings sentence chart p :=
  ⟨f.unpruned, f.passes, f.discounting, f.filled, f.rootless⟩

theorem Full.telling (f : Full t language settings sentence chart p) :
    Telling t language settings sentence chart p :=
  f.saturated.telling_of_standard f.standard

end Search

end HeadDriven
