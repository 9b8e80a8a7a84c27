import HeadDriven.Proofs.Search.Uncached
import HeadDriven.Proofs.Chart.Offer
import HeadDriven.Proofs.Grammar.Steps

/-! What the search reads off a chart. In a consistent chart the positions of a cell
are those its groups list, each of a live item; questions about them never fail.
So the trials of a cell are exactly those of the live items of its parts. -/
namespace HeadDriven

namespace Chart

structure Live (c : Chart) (first last : Nat) (index : Nat) (item : Item) : Prop where
  inside : c.Inside first last
  listed : ∃ label, ∃ e ∈ (c.groupAt first last label).entries, e.index = index
  stored : c.arena.items[index]? = some item

variable {c : Chart} {language : Language} {first last index : Nat} {item : Item}

theorem Live.resides (ok : c.Consistent language) (h : c.Live first last index item) :
    c.Resides first last item.label index item := by
  obtain ⟨inside, ⟨label, e, he, rfl⟩, stored⟩ := h
  obtain ⟨held, resides, -⟩ := ok.placed first last inside label e he
  have same : held = item := Option.some.inj (resides.stored.symm.trans stored)
  subst same
  exact { resides with label := rfl }

theorem Live.built? (ok : c.Consistent language) (h : c.Live first last index item) :
    c.arena.built? index = some item := by
  rw [Arena.built?_of_items h.stored, Item.copy_of_fresh (h.resides ok).live]

theorem Live.lt_size (h : c.Live first last index item) : index < c.arena.size :=
  (Array.getElem?_eq_some_iff.mp h.stored).choose

theorem Live.before {next : Chart} {f l : Nat} (live : next.Live f l index item)
    (grows : c.Grows next) (ok : c.Consistent language) (ok' : next.Consistent language)
    (listed : ∃ label, ∃ e ∈ (c.groupAt f l label).entries, e.index = index) :
    c.Live f l index item := by
  have resides := live.resides ok'
  obtain ⟨label, e, he, rfl⟩ := listed
  have inside := grows.inside.mp live.inside
  obtain ⟨held, hheld, -⟩ := ok.placed f l inside label e he
  have before := grows.arena.holds (Arena.built?_of_items hheld.stored)
  rw [Item.copy_of_fresh hheld.live, Arena.built?_of_items live.stored,
    Item.copy_of_fresh resides.live, Option.some.injEq] at before
  exact ⟨inside, ⟨label, e, he, rfl⟩, before ▸ hheld.stored⟩

theorem cellItems_eq (ok : c.Consistent language) (inside : c.Inside first last) :
    ∃ indices, c.cellItems first last = .ok indices ∧
      ∀ index, index ∈ indices ↔ ∃ item, c.Live first last index item := by
  refine ⟨_, by rw [cellItems, cell_of_inside inside, Outcome.map_ok], fun index => ?_⟩
  rw [(ok.sorted _).mem_indices_iff]
  constructor
  · rintro ⟨label, e, he, rfl⟩
    obtain ⟨item, resides, -⟩ := ok.placed first last inside label e he
    exact ⟨item, inside, ⟨label, e, he, rfl⟩, resides.stored⟩
  · rintro ⟨item, h⟩
    exact h.listed

end Chart

namespace Arena

def modificand (a : Arena) (index : Nat) (item : Item) : Modificand :=
  ⟨index, item, a.headLabelOf item⟩

end Arena

namespace Grammar

def modifier (g : Grammar) (a : Arena) (index : Nat) (item : Item) : Modifier :=
  ⟨index, item, a.dominatesVerb g.language g.settings.baseNpVerbBarrier index⟩

end Grammar

namespace Search

variable {g : Grammar} {s : Search} {first last index : Nat} {item : Item} {side : Side}

theorem stored_eq_ok_iff {r : Nat × Item} : s.stored index = .ok r ↔
    s.chart.arena.items[index]? = some r.2 ∧ r.1 = index := by
  obtain ⟨i, item⟩ := r
  unfold stored Chart.item
  cases h : s.chart.arena.get index with
  | error fault =>
    simp only [Except.map, reduceCtorEq, false_iff, not_and]
    intro hs
    rw [Arena.get_eq_ok_iff.mpr hs] at h
    cases h
  | ok held =>
    rw [Arena.get_eq_ok_iff.mp h]
    simp [eq_comm, and_comm]

theorem stored_row (indices : List Nat) (h : ∀ index ∈ indices, index < s.chart.arena.size) :
    ∃ row, indices.mapM s.stored = .ok row ∧
      ∀ r, r ∈ row ↔ r.1 ∈ indices ∧ s.chart.arena.items[r.1]? = some r.2 := by
  have each (index : Nat) (hi : index ∈ indices) : ∃ r, s.stored index = .ok r :=
    ⟨(index, _), stored_eq_ok_iff.mpr ⟨Array.getElem?_eq_getElem (h index hi), rfl⟩⟩
  obtain ⟨row, hrow⟩ := Outcome.mapM_succeeds each
  refine ⟨row, hrow, fun r => ?_⟩
  rw [Outcome.mem_mapM hrow]
  simp only [stored_eq_ok_iff]
  constructor
  · rintro ⟨index, hi, hs, rfl⟩
    exact ⟨hi, hs⟩
  · rintro ⟨hi, hs⟩
    exact ⟨r.1, hi, hs, rfl⟩

theorem modificand_eq (linked : s.chart.arena.Linked)
    (h : s.chart.arena.items[index]? = some item) :
    s.modificand index = .ok (s.chart.arena.modificand index item) := by
  have head : s.chart.arena.HasHead item := fun child hc =>
    linked.hasHead (Arena.built?_of_items h) child hc
  simp [modificand, Chart.item, Arena.get_eq_ok_iff.mpr h, Arena.headLabel_eq head,
    Arena.modificand, pure, Except.pure]

theorem modificand_row (linked : s.chart.arena.Linked) (indices : List Nat)
    (h : ∀ index ∈ indices, index < s.chart.arena.size) :
    ∃ row, indices.mapM s.modificand = .ok row ∧
      ∀ m, m ∈ row ↔ ∃ index ∈ indices, ∃ item,
        s.chart.arena.items[index]? = some item ∧ m = s.chart.arena.modificand index item := by
  have each (index : Nat) (hi : index ∈ indices) := modificand_eq (s := s) linked
    (Array.getElem?_eq_getElem (h index hi))
  obtain ⟨row, hrow⟩ := Outcome.mapM_succeeds fun index hi => ⟨_, each index hi⟩
  refine ⟨row, hrow, fun m => ?_⟩
  rw [Outcome.mem_mapM hrow]
  constructor
  · rintro ⟨index, hi, hm⟩
    rw [each index hi, Except.ok.injEq] at hm
    exact ⟨index, hi, _, Array.getElem?_eq_getElem (h index hi), hm.symm⟩
  · rintro ⟨index, hi, item, hs, rfl⟩
    exact ⟨index, hi, modificand_eq linked hs⟩

theorem modifier_eq (ok : s.chart.Consistent g.language) (settings : s.chart.settings = g.settings)
    (h : s.chart.arena.items[index]? = some item) :
    s.modifier g index = .ok (g.modifier s.chart.arena index item) := by
  have hlt : index < s.chart.arena.size := (Array.getElem?_eq_some_iff.mp h).choose
  obtain ⟨asked, hask, -⟩ := Arena.askVerb_eq (settings ▸ ok.remembers) ok.linked hlt
  simp [modifier, Chart.item, Arena.get_eq_ok_iff.mpr h, hask, Grammar.modifier, pure,
    Except.pure]

theorem live_eq (ok : s.chart.Consistent g.language) (inside : s.chart.Inside first last)
    (test : Item → Bool) :
    ∃ indices, s.live first last test = .ok indices ∧
      ∀ index, index ∈ indices ↔
        ∃ item, s.chart.Live first last index item ∧ test item = true := by
  obtain ⟨indices, hcell, hindices⟩ := Chart.cellItems_eq ok inside
  obtain ⟨row, hrow, hmem⟩ := stored_row (s := s) indices fun index hi =>
    ((hindices index).mp hi).elim fun _ live => live.lt_size
  refine ⟨_, by rw [live, hcell, Outcome.ok_bind, hrow, Outcome.ok_bind]; rfl, fun index => ?_⟩
  simp only [List.mem_map, List.mem_filter, hmem, hindices, Bool.and_eq_true, Bool.not_eq_true']
  constructor
  · rintro ⟨⟨i, item⟩, ⟨⟨⟨held, live⟩, hs⟩, -, htest⟩, rfl⟩
    have same : held = item := Option.some.inj (live.stored.symm.trans hs)
    exact ⟨item, same ▸ live, htest⟩
  · rintro ⟨item, live, htest⟩
    exact ⟨(index, item), ⟨⟨⟨item, live⟩, live.stored⟩, (live.resides ok).live, htest⟩, rfl⟩

theorem attachments_eq (ok : s.chart.Consistent g.language)
    (settings : s.chart.settings = g.settings) (side : Side) (heads modifiers : Nat × Nat)
    (hheads : s.chart.Inside heads.1 heads.2)
    (hmodifiers : s.chart.Inside modifiers.1 modifiers.2) :
    ∃ trials, s.attachments g side heads modifiers = .ok trials ∧
      ∀ trial, trial ∈ trials ↔ ∃ i m j d,
        s.chart.Live heads.1 heads.2 i m ∧ m.canTake side = true ∧
        s.chart.Live modifiers.1 modifiers.2 j d ∧ d.stopped = true ∧
        trial = g.attach (s.chart.arena.modificand i m) (g.modifier s.chart.arena j d) side := by
  obtain ⟨is, his, hmemi⟩ := live_eq ok hheads (·.canTake side)
  obtain ⟨js, hjs, hmemj⟩ := live_eq ok hmodifiers Item.stopped
  obtain ⟨ms, hms, hmemm⟩ := modificand_row (s := s) ok.linked is fun i hi =>
    ((hmemi i).mp hi).elim fun _ h => h.1.lt_size
  have each (j : Nat) (d : Item) (hd : s.chart.arena.items[j]? = some d) :=
    modifier_eq ok settings hd
  have row (j : Nat) (hj : j ∈ js) : ∃ d, s.modifier g j = .ok d := by
    obtain ⟨item, live, -⟩ := (hmemj j).mp hj
    exact ⟨_, each j item live.stored⟩
  obtain ⟨ds, hds⟩ := Outcome.mapM_succeeds row
  refine ⟨_, by rw [attachments, his, Outcome.ok_bind, hms, Outcome.ok_bind, hjs,
    Outcome.ok_bind, hds, Outcome.ok_bind]; rfl, fun trial => ?_⟩
  simp only [List.mem_flatMap, List.mem_map, hmemm, Outcome.mem_mapM hds, hmemi, hmemj]
  constructor
  · rintro ⟨_, ⟨i, ⟨m', hm', htakes⟩, m, hm, rfl⟩, _, ⟨j, ⟨d, hd, hstopped⟩, hj⟩, rfl⟩
    have same : m' = m := Option.some.inj (hm'.stored.symm.trans hm)
    subst same
    rw [each j d hd.stored, Except.ok.injEq] at hj
    exact ⟨i, m', j, d, hm', htakes, hd, hstopped, by rw [hj]⟩
  · rintro ⟨i, m, j, d, hm, htakes, hd, hstopped, rfl⟩
    exact ⟨_, ⟨i, ⟨m, hm, htakes⟩, m, hm.stored, rfl⟩, _,
      ⟨j, ⟨d, hd, hstopped⟩, each j d hd.stored⟩, rfl⟩

theorem mem_splits_iff {sentence : Sentence} {split : Nat} :
    split ∈ splits g (g.commas sentence) first last ↔
      first ≤ split ∧ split < last ∧ g.MayCut sentence split last := by
  have hrange : (first ≤ split ∧ split < first + (last - first)) ↔
      first ≤ split ∧ split < last := by omega
  simp only [splits, List.mem_filter, List.mem_range'_1, Bool.not_eq_true', Grammar.MayCut,
    hrange, and_assoc]

/-- A live head and a live finished constituent beside it, which together fill a span. -/
structure Pair (s : Search) (first split last : Nat) (side : Side) (i : Nat) (m : Item)
    (j : Nat) (d : Item) : Prop where
  head : s.chart.Live m.first m.last i m
  modifier : s.chart.Live d.first d.last j d
  takes : m.canTake side = true
  stopped : d.stopped = true
  left : (side.leftPart m d).first = first ∧ (side.leftPart m d).last = split
  right : (side.rightPart m d).first = split + 1 ∧ (side.rightPart m d).last = last

theorem pair_of_left (ok : s.chart.Consistent g.language) {split i j : Nat} {m d : Item}
    (hm : s.chart.Live (split + 1) last i m) (takes : m.canTake .left = true)
    (hd : s.chart.Live first split j d) (stopped : d.stopped = true) :
    s.Pair first split last .left i m j d := by
  have rm := hm.resides ok
  have rd := hd.resides ok
  refine ⟨?_, ?_, takes, stopped, ⟨rd.first, rd.last⟩, ⟨rm.first, rm.last⟩⟩
  · rw [rm.first, rm.last]
    exact hm
  · rw [rd.first, rd.last]
    exact hd

theorem pair_of_right (ok : s.chart.Consistent g.language) {split i j : Nat} {m d : Item}
    (hm : s.chart.Live first split i m) (takes : m.canTake .right = true)
    (hd : s.chart.Live (split + 1) last j d) (stopped : d.stopped = true) :
    s.Pair first split last .right i m j d := by
  have rm := hm.resides ok
  have rd := hd.resides ok
  refine ⟨?_, ?_, takes, stopped, ⟨rm.first, rm.last⟩, ⟨rd.first, rd.last⟩⟩
  · rw [rm.first, rm.last]
    exact hm
  · rw [rd.first, rd.last]
    exact hd

theorem attachmentsAt_eq (ok : s.chart.Consistent g.language)
    (settings : s.chart.settings = g.settings) {split : Nat} (hfirst : first ≤ split)
    (hsplit : split < last) (hlast : last < s.chart.size) :
    ∃ trials, s.attachmentsAt g first split last = .ok trials ∧
      ∀ trial, trial ∈ trials ↔ ∃ side i m j d, s.Pair first split last side i m j d ∧
        trial = g.attach (s.chart.arena.modificand i m) (g.modifier s.chart.arena j d) side := by
  have hleft : s.chart.Inside first split := ⟨hfirst, Nat.lt_trans hsplit hlast⟩
  have hright : s.chart.Inside (split + 1) last := ⟨hsplit, hlast⟩
  obtain ⟨toLeft, hl, hmeml⟩ := attachments_eq ok settings .left (split + 1, last) (first, split)
    hright hleft
  obtain ⟨toRight, hr, hmemr⟩ := attachments_eq ok settings .right (first, split) (split + 1, last)
    hleft hright
  refine ⟨_, by rw [attachmentsAt, hl, Outcome.ok_bind, hr, Outcome.ok_bind]; rfl,
    fun trial => ?_⟩
  rw [List.mem_append, hmeml, hmemr]
  constructor
  · rintro (⟨i, m, j, d, hm, htakes, hd, hstopped, rfl⟩ | ⟨i, m, j, d, hm, htakes, hd, hstopped,
      rfl⟩)
    · exact ⟨.left, i, m, j, d, pair_of_left ok hm htakes hd hstopped, rfl⟩
    · exact ⟨.right, i, m, j, d, pair_of_right ok hm htakes hd hstopped, rfl⟩
  · rintro ⟨side, i, m, j, d, h, rfl⟩
    obtain ⟨hm, hd, htakes, hstopped, ⟨hlf, hll⟩, ⟨hrf, hrl⟩⟩ := h
    cases side with
    | left =>
      simp only [Side.leftPart, Side.rightPart] at hlf hll hrf hrl
      rw [hrf, hrl] at hm
      rw [hlf, hll] at hd
      exact Or.inl ⟨i, m, j, d, hm, htakes, hd, hstopped, rfl⟩
    | right =>
      simp only [Side.leftPart, Side.rightPart] at hlf hll hrf hrl
      rw [hrf, hrl] at hd
      rw [hlf, hll] at hm
      exact Or.inr ⟨i, m, j, d, hm, htakes, hd, hstopped, rfl⟩

theorem trials_eq (ok : s.chart.Consistent g.language)
    (settings : s.chart.settings = g.settings) (sentence : Sentence) (first : Nat)
    (hlast : last < s.chart.size) :
    ∃ rows, ((splits g (g.commas sentence) first last).mapM fun split =>
        s.attachmentsAt g first split last) = .ok rows ∧
      ∀ trial, trial ∈ rows.flatten ↔ ∃ split side i m j d,
        s.Pair first split last side i m j d ∧ g.MayCut sentence split last ∧
        trial = g.attach (s.chart.arena.modificand i m) (g.modifier s.chart.arena j d) side := by
  have each (split : Nat) (h : split ∈ splits g (g.commas sentence) first last) :=
    attachmentsAt_eq ok settings (mem_splits_iff.mp h).1 (mem_splits_iff.mp h).2.1 hlast
  obtain ⟨rows, hrows⟩ := Outcome.mapM_succeeds fun split h =>
    (each split h).imp fun _ h => h.1
  refine ⟨rows, hrows, fun trial => ?_⟩
  simp only [List.mem_flatten, Outcome.mem_mapM hrows]
  constructor
  · rintro ⟨row, ⟨split, hsplit, hrow⟩, htrial⟩
    obtain ⟨trials, htrials, hmem⟩ := each split hsplit
    rw [hrow, Except.ok.injEq] at htrials
    subst htrials
    obtain ⟨side, i, m, j, d, h, rfl⟩ := (hmem trial).mp htrial
    exact ⟨split, side, i, m, j, d, h, (mem_splits_iff.mp hsplit).2.2, rfl⟩
  · rintro ⟨split, side, i, m, j, d, h, hcut, rfl⟩
    have hspan : first ≤ split ∧ split < last := by
      have hm := h.head.inside.1
      have hd := h.modifier.inside.1
      obtain ⟨-, -, -, -, ⟨hlf, hll⟩, ⟨hrf, hrl⟩⟩ := h
      cases side <;> simp only [Side.leftPart, Side.rightPart] at hlf hll hrf hrl <;> omega
    have hsplit := mem_splits_iff.mpr ⟨hspan.1, hspan.2, hcut⟩
    obtain ⟨trials, htrials, hmem⟩ := each split hsplit
    exact ⟨trials, ⟨split, hsplit, htrials⟩, (hmem _).mpr ⟨side, i, m, j, d, h, rfl⟩⟩

end Search

end HeadDriven
