import HeadDriven.Proofs.LogProb.Order
import HeadDriven.Proofs.Soundness

/-! Rows of offers under a model that discounts. Such a model gives no event a positive log
probability, so no item that steps build scores above zero. A row of offers is made in
charts that the decode comes through; whatever it takes was not turned away. A round of
closing a cell makes two rows, and stores an item unless it is the last; under any model a
search only fails once there are more items than positions. -/
namespace HeadDriven

/-- A model that gives no possible event a positive log probability. -/
structure Model.Discounts (m : Model) : Prop where
  prior : ∀ e, isImpossible (m.prior e) = false → m.prior e ≤ 0.0
  head : ∀ e, isImpossible (m.head e) = false → m.head e ≤ 0.0
  modifier : ∀ e, isImpossible (m.modifier e) = false → m.modifier e ≤ 0.0
  stop : ∀ e, isImpossible (m.stop e) = false → m.stop e ≤ 0.0

structure Model.Damps (m : Model) : Prop where
  head : ∀ e, isImpossible (m.head e) = false → m.head e ≤ 0.0
  stop : ∀ e, isImpossible (m.stop e) = false → m.stop e ≤ 0.0

theorem Model.Discounts.damps {m : Model} (discounts : m.Discounts) : m.Damps :=
  ⟨discounts.head, discounts.stop⟩

structure Item.Weighed (item : Item) : Prop where
  logTree : item.logTree ≤ 0.0
  logPrior : item.logPrior ≤ 0.0

namespace Item.Weighed

variable {item other : Item}

theorem score_le_zero (h : item.Weighed) : item.score ≤ 0.0 :=
  LogProb.add_le_zero h.logTree h.logPrior

theorem bounded (h : item.Weighed) : LogProb.Bounded item.score :=
  LogProb.numbers_lt_of_le_of_lt h.score_le_zero (by decide +kernel)

end Item.Weighed

variable {g : Grammar} {sentence : Sentence} {a : Arena} {bound index : Nat} {item : Item}

theorem Model.Damps.logStop (damps : g.model.Damps) {m : Modificand} (h : g.Stops m) :
    g.logStop m ≤ 0.0 :=
  LogProb.add_le_zero (LogProb.add_le_zero LogProb.zero_le_zero
    (damps.stop _ (h.event .left))) (damps.stop _ (h.event .right))

theorem Builds.weighed (h : Builds g sentence a bound item) (discounts : g.model.Discounts)
    (before : ∀ i other, a.Holds bound i other → other.Weighed) : item.Weighed := by
  have zero := LogProb.zero_le_zero
  cases h with
  | seed word h => exact ⟨zero, discounts.prior _ h.prior⟩
  | project under h =>
    exact ⟨LogProb.add_le_zero (before _ _ under).logTree (discounts.head _ h.event),
      discounts.prior _ h.prior⟩
  | attach under modifier joins h =>
    have hm := before _ _ under
    have hd := before _ _ modifier
    refine ⟨LogProb.add_le_zero (LogProb.add_le_zero hm.logTree hd.logTree)
      (discounts.modifier _ h.event), ?_⟩
    rename_i side
    cases side <;> exact hm.logPrior
  | stop under h =>
    have hm := before _ _ under
    exact ⟨LogProb.add_le_zero hm.logTree (discounts.damps.logStop h), hm.logPrior⟩
  | root under whole h =>
    exact ⟨LogProb.add_le_zero (before _ _ under).logTree (discounts.head _ h.event), zero⟩

theorem Arena.Built.weighed (built : a.Built g sentence) (discounts : g.model.Discounts)
    (h : a.built? index = some item) : item.Weighed :=
  built.induction (P := fun _ => Item.Weighed) (fun _ _ h => h.weighed discounts) h

theorem Arena.Built.logPrior (built : a.Built g sentence) (h : a.built? index = some item)
    (notTop : item.label ≠ g.language.topLabel) :
    item.logPrior = g.model.prior ⟨item.headWord, item.label⟩ := by
  refine built.induction (P := fun _ item => item.label ≠ g.language.topLabel →
    item.logPrior = g.model.prior ⟨item.headWord, item.label⟩)
    (fun index item h before notTop => ?_) h notTop
  cases h with
  | seed | project => rfl
  | attach under =>
    have hm := before _ _ under
    rename_i side _ _ _
    cases side <;> exact hm notTop
  | stop under =>
    have hm := before _ _ under
    exact hm notTop
  | root => exact absurd rfl notTop

theorem Arena.Built.growing (built : a.Built g sentence) (h : a.built? index = some item)
    (growing : item.stopped = false) :
    item.headChild.isSome = true ∧ item.label ∈ g.model.nonterminals ∧
      item.label ≠ g.language.topLabel := by
  refine built.induction (P := fun _ item => item.stopped = false →
    item.headChild.isSome = true ∧ item.label ∈ g.model.nonterminals ∧
      item.label ≠ g.language.topLabel) (fun index item h before growing => ?_) h growing
  cases h with
  | seed | stop | root => cases growing
  | project under h => exact ⟨rfl, h.nonterminal, h.notTop⟩
  | attach under =>
    rw [Grammar.stopped_attachment] at growing
    rw [Grammar.headChild_attachment, Grammar.label_attachment]
    exact before _ _ under growing

namespace Search

variable {chart c mid next : Chart} {p q : Progress} {s : Search} {commas : Array Bool}
  {first last : Nat} {items : List Item} {frontier grown fresh taken : List Nat} {kind : Next}
  {rest : List Task}

/-- The charts that the decode of a sentence comes through. -/
def Visits (g : Grammar) (chart : Chart) (sentence : Sentence) (c : Chart) : Prop :=
  ∃ p, Passes g chart sentence p ∧ p.search.chart = c

theorem step_chart (h : p.step g commas = .ok q) : q.search.chart = p.search.chart ∨
    ∃ first last item index, p.Offers first last item ∧
      p.search.chart.add g.language first last item = .ok (q.search.chart, index) := by
  obtain ⟨s, agenda⟩ := p
  cases agenda with
  | nil =>
    cases h
    exact Or.inl rfl
  | cons task rest =>
    obtain ⟨⟨t, tasks⟩, htask, hq⟩ := Outcome.bind_eq_ok.mp h
    cases hq
    cases task with
    | seed =>
      cases htask
      exact Or.inl rfl
    | complete | close | stop =>
      obtain ⟨_, -, hr⟩ := Outcome.bind_eq_ok.mp htask
      cases hr
      exact Or.inl rfl
    | finish =>
      obtain ⟨_, -, hr⟩ := Outcome.bind_eq_ok.mp htask
      obtain ⟨_, -, hr⟩ := Outcome.bind_eq_ok.mp hr
      cases hr
      exact Or.inl rfl
    | round first last frontier =>
      cases frontier with
      | nil =>
        cases htask
        exact Or.inl rfl
      | cons =>
        obtain ⟨_, -, hr⟩ := Outcome.bind_eq_ok.mp htask
        cases hr
        exact Or.inl rfl
    | offers first last items taken next =>
      cases items with
      | nil =>
        cases htask
        exact Or.inl rfl
      | cons item items =>
        obtain ⟨⟨chart, index⟩, hadd, hr⟩ := Outcome.bind_eq_ok.mp htask
        cases hr
        exact Or.inr ⟨first, last, item, index, ⟨items, taken, next, rest, rfl⟩, hadd⟩

theorem Offerable.weighed {a : Arena} (h : Offerable g sentence a first last item)
    (built : a.Built g sentence) (discounts : g.model.Discounts) : item.Weighed :=
  h.builds.weighed discounts fun _ _ holds => built.weighed discounts holds.built

theorem Offerable.hasHead {a : Arena} (h : Offerable g sentence a first last item)
    (built : a.Built g sentence) : a.HasHead item :=
  fun _ hc => h.builds.headChild_lt built.linked hc

theorem Offerable.inside {c : Chart} (h : Offerable g sentence c.arena first last item)
    (inside : c.Inside first last) : c.Inside item.first item.last := by
  rw [h.first, h.last]
  exact inside

theorem Passes.visits (h : Passes g chart sentence p) : Visits g chart sentence p.search.chart :=
  ⟨p, h, rfl⟩

def Offering (g : Grammar) (chart : Chart) (sentence : Sentence) (c : Chart) (first last : Nat)
    (item : Item) : Prop :=
  ∃ p, Passes g chart sentence p ∧ p.search.chart = c ∧ p.Offers first last item

theorem Offering.visits (h : Offering g chart sentence c first last item) :
    Visits g chart sentence c :=
  h.imp fun _ h => ⟨h.1, h.2.1⟩

/-- A row of offers to a cell, one after the other. Each of them is in order when it is made. -/
inductive Row (g : Grammar) (chart : Chart) (sentence : Sentence) (first last : Nat) :
    Chart → List Item → List Nat → Chart → Prop where
  | nil {c : Chart} (visited : Visits g chart sentence c) :
      Row g chart sentence first last c [] [] c
  | cons {c mid next : Chart} {item : Item} {items : List Item} {index : Option Nat}
      {taken : List Nat} (offering : Offering g chart sentence c first last item)
      (inside : c.Inside first last)
      (offerable : Offerable g sentence c.arena first last item)
      (added : c.add g.language first last item = .ok (mid, index)) (grows : c.Grows mid)
      (outcome : Chart.Outcome c g.language item mid index)
      (row : Row g chart sentence first last mid items taken next) :
      Row g chart sentence first last c (item :: items) (index.toList ++ taken) next

theorem Row.visited (h : Row g chart sentence first last c items taken next) :
    Visits g chart sentence c := by
  cases h with
  | nil visited => exact visited
  | cons offering => exact offering.visits

theorem Row.grows (h : Row g chart sentence first last c items taken next) : c.Grows next := by
  induction h with
  | nil => exact .refl _
  | cons _ _ _ _ grows _ _ ih => exact grows.trans ih

theorem Row.size_eq (h : Row g chart sentence first last c items taken next) :
    next.arena.size = c.arena.size + taken.length := by
  induction h with
  | nil => rfl
  | cons _ _ _ _ _ outcome row ih =>
    rw [ih, List.length_append]
    cases outcome with
    | refused refused =>
      rw [Arena.size, refused.items]
      simp [Arena.size]
    | taken taken =>
      rw [taken.size]
      simp [Nat.add_assoc]

/-- Whatever a row takes was offered to a chart that did not turn it away. -/
theorem Row.of_taken (h : Row g chart sentence first last c items taken next) {i : Nat}
    (hi : i ∈ taken) : ∃ item ∈ items, ∃ mid, Visits g chart sentence mid ∧ c.Grows mid ∧
      mid.Grows next ∧ mid.turnsAway g.language item = false ∧
        next.arena.built? i = some item := by
  induction h with
  | nil => exact absurd hi List.not_mem_nil
  | cons offering _ _ _ grows outcome row ih =>
    rcases List.mem_append.mp hi with hi | hi
    · cases outcome with
      | refused => exact absurd hi List.not_mem_nil
      | taken taken =>
        obtain rfl := List.mem_singleton.mp hi
        exact ⟨_, List.mem_cons_self, _, offering.visits, .refl _, grows.trans row.grows,
          taken.refuses, row.grows.arena.holds taken.built⟩
    · obtain ⟨item, hitem, mid, visited, before, after, opens, built⟩ := ih hi
      exact ⟨item, List.mem_cons_of_mem _ hitem, mid, visited, grows.trans before, after, opens,
        built⟩

section Passing

variable (settings : chart.settings = g.settings) (words : sentence ≠ [])
include settings words

theorem Visits.sound (h : Visits g chart sentence c) : c.Sound g sentence := by
  obtain ⟨p, passes, rfl⟩ := h
  exact (passes.sound settings words).chart

theorem Passes.offers
    (h : Passes g chart sentence ⟨s, .offers first last items taken kind :: rest⟩) :
    ∃ t more, s.offerAll g first last items = .ok (t, more) ∧
      Passes g chart sentence ⟨t, kind.tasks first last (taken ++ more) ++ rest⟩ ∧
      Row g chart sentence first last s.chart items more t.chart := by
  induction items generalizing s taken with
  | nil =>
    refine ⟨s, [], rfl, ?_, .nil h.visits⟩
    rw [List.append_nil]
    exact .step h rfl
  | cons item items ih =>
    have sound := h.sound settings words
    obtain ⟨inside, offerable, -⟩ :=
      sound.ready (.offers first last (item :: items) taken kind) List.mem_cons_self
    have one := offerable item List.mem_cons_self
    obtain ⟨mid, index, hadd, -, grows, outcome⟩ := sound_add sound.chart inside one
    have next : Passes g chart sentence ⟨{ s with chart := mid },
        .offers first last items (taken ++ index.toList) kind :: rest⟩ := by
      refine .step h ?_
      simp only [Progress.step, Task.step, hadd]
      rfl
    obtain ⟨t, more, hrow, passes, row⟩ := ih next
    have offering : Offering g chart sentence s.chart first last item :=
      ⟨_, h, rfl, items, taken, kind, rest, rfl⟩
    refine ⟨t, index.toList ++ more, ?_, ?_, .cons offering inside one hadd grows outcome row⟩
    · rw [offerAll] at hrow ⊢
      obtain ⟨⟨c, row⟩, hall, hr⟩ := Outcome.bind_eq_ok.mp hrow
      cases hr
      rw [Chart.addAll_cons, hadd]
      simp only [Outcome.ok_bind, hall]
      rfl
    · rw [← List.append_assoc]
      exact passes

theorem Passes.listing (h : Passes g chart sentence ⟨s, .close first last :: rest⟩) :
    ∃ present, s.chart.cellItems first last = .ok present ∧
      (∀ i, i ∈ present ↔ ∃ x, s.chart.Live first last i x) ∧
      Passes g chart sentence ⟨s, .round first last present :: rest⟩ := by
  obtain ⟨sound, ready⟩ := h.sound settings words
  have inside : s.chart.Inside first last := ready (.close first last) List.mem_cons_self
  obtain ⟨present, hpresent, mem⟩ := Chart.cellItems_eq sound.consistent inside
  refine ⟨present, hpresent, mem, .step h ?_⟩
  simp only [Progress.step, Task.step, hpresent]
  rfl

end Passing

/-- The two rows of offers of a round: first what the given items project to, then what comes
of stopping them and the new projections. -/
structure Rows (g : Grammar) (chart : Chart) (sentence : Sentence) (c mid next : Chart)
    (first last : Nat) (frontier grown fresh : List Nat) : Prop where
  projecting : ∃ items, Row g chart sentence first last c items grown mid ∧
    ∀ y, y ∈ items ↔ ∃ k ∈ frontier, ∃ head, c.arena.items[k]? = some head ∧
      y ∈ g.projections k head
  stopping : ∃ items, Row g chart sentence first last mid items fresh next ∧
    ∀ y, y ∈ items ↔ ∃ j ∈ frontier ++ grown, ∃ m, mid.arena.items[j]? = some m ∧
      (g.stop (mid.arena.modificand j m)).built = some y

section Round

variable (settings : chart.settings = g.settings) (words : sentence ≠ [])
include settings words

theorem Passes.projecting (hne : frontier ≠ [])
    (h : Passes g chart sentence ⟨s, .round first last frontier :: rest⟩) :
    ∃ sources mid grown, frontier.mapM s.stored = .ok sources ∧
      s.offerAll g first last (sources.flatMap fun source => g.projections source.1 source.2) =
        .ok (mid, grown) ∧
      Passes g chart sentence ⟨mid, .stop first last (frontier ++ grown) :: rest⟩ ∧
      ∃ items, Row g chart sentence first last s.chart items grown mid.chart ∧
        ∀ y, y ∈ items ↔ ∃ k ∈ frontier, ∃ head, s.chart.arena.items[k]? = some head ∧
          y ∈ g.projections k head := by
  obtain ⟨-, ready⟩ := h.sound settings words
  obtain ⟨-, fills⟩ := ready (.round first last frontier) List.mem_cons_self
  obtain ⟨sources, hsources, mem⟩ :=
    stored_row (s := s) frontier fun i hi => Fills.lt_size fills hi
  have offering : Passes g chart sentence ⟨s, .offers first last
      (sources.flatMap fun source => g.projections source.1 source.2) [] (.stop frontier) ::
        rest⟩ := by
    refine .step h ?_
    obtain ⟨index, others, rfl⟩ := List.exists_cons_of_ne_nil hne
    simp only [Progress.step, Task.step, hsources]
    rfl
  obtain ⟨mid, grown, hgrown, stopping, row⟩ := offering.offers settings words
  rw [List.nil_append] at stopping
  refine ⟨sources, mid, grown, hsources, hgrown, stopping, _, row, fun y => ?_⟩
  simp only [List.mem_flatMap, Prod.exists, mem]
  constructor
  · rintro ⟨k, head, ⟨hk, stored⟩, hy⟩
    exact ⟨k, hk, head, stored, hy⟩
  · rintro ⟨k, hk, head, stored, hy⟩
    exact ⟨k, head, ⟨hk, stored⟩, hy⟩

theorem Passes.stopping (h : Passes g chart sentence ⟨s, .stop first last frontier :: rest⟩) :
    ∃ row t fresh, frontier.mapM s.modificand = .ok row ∧
      s.offerTrials g first last (row.map g.stop) = .ok (t, fresh) ∧
      Passes g chart sentence ⟨t, .round first last fresh :: rest⟩ ∧
      ∃ items, Row g chart sentence first last s.chart items fresh t.chart ∧
        ∀ y, y ∈ items ↔ ∃ j ∈ frontier, ∃ m, s.chart.arena.items[j]? = some m ∧
          (g.stop (s.chart.arena.modificand j m)).built = some y := by
  obtain ⟨sound, ready⟩ := h.sound settings words
  obtain ⟨-, fills⟩ := ready (.stop first last frontier) List.mem_cons_self
  obtain ⟨row, hrow, mem⟩ := modificand_row (s := s) sound.consistent.linked frontier
    fun i hi => Fills.lt_size fills hi
  have offering : Passes g chart sentence ⟨s.noting (row.map g.stop),
      .trials first last (row.map g.stop) .round :: rest⟩ := by
    refine .step h ?_
    simp only [Progress.step, Task.step, hrow]
    rfl
  obtain ⟨t, fresh, hfresh, passes, offered⟩ := offering.offers settings words
  refine ⟨row, t, fresh, hrow, hfresh, passes, _, offered, fun y => ?_⟩
  simp only [List.mem_filterMap, List.mem_map, exists_exists_and_eq_and, mem]
  constructor
  · rintro ⟨_, ⟨j, hj, m, stored, rfl⟩, hy⟩
    exact ⟨j, hj, m, stored, hy⟩
  · rintro ⟨j, hj, m, stored, hy⟩
    exact ⟨_, ⟨j, hj, m, stored, rfl⟩, hy⟩

theorem Passes.round (hne : frontier ≠ [])
    (h : Passes g chart sentence ⟨s, .round first last frontier :: rest⟩) :
    ∃ mid grown t fresh, s.round g first last frontier = .ok (t, fresh) ∧
      Passes g chart sentence ⟨mid, .stop first last (frontier ++ grown) :: rest⟩ ∧
      Passes g chart sentence ⟨t, .round first last fresh :: rest⟩ ∧
      Rows g chart sentence s.chart mid.chart t.chart first last frontier grown fresh := by
  obtain ⟨sources, mid, grown, hsources, hgrown, stopping, offered⟩ :=
    h.projecting settings words hne
  obtain ⟨row, t, fresh, hrow, hfresh, passes, offered'⟩ := stopping.stopping settings words
  refine ⟨mid, grown, t, fresh, ?_, stopping, passes, offered, offered'⟩
  refine Outcome.bind_eq_ok.mpr ⟨sources, hsources, ?_⟩
  refine Outcome.bind_eq_ok.mpr ⟨(mid, grown), hgrown, ?_⟩
  exact Outcome.bind_eq_ok.mpr ⟨row, hrow, hfresh⟩

/-- Rounds are only used up by storing an item in each of them. -/
theorem Passes.settle_overflows {rounds : Nat}
    (h : Passes g chart sentence ⟨s, .round first last frontier :: rest⟩)
    (fails : settle g first last rounds s frontier = .error .arenaOverflow) :
    ∃ c, Visits g chart sentence c ∧ s.chart.arena.size + rounds ≤ c.arena.size := by
  induction rounds generalizing s frontier with
  | zero => exact ⟨s.chart, h.visits, Nat.le_refl _⟩
  | succ rounds ih =>
    cases frontier with
    | nil => cases fails
    | cons i others =>
      obtain ⟨mid, grown, t, fresh, hround, -, passes, rows⟩ :=
        h.round settings words (List.cons_ne_nil i others)
      simp only [settle, hround, Outcome.ok_bind] at fails
      have stores : s.chart.arena.size < t.chart.arena.size := by
        obtain ⟨⟨_, row, -⟩, ⟨_, row', -⟩⟩ := rows
        have nonempty : 0 < fresh.length := by
          cases fresh with
          | nil => cases rounds <;> cases fails
          | cons => exact Nat.succ_pos _
        rw [row'.size_eq, row.size_eq]
        omega
      obtain ⟨c, visited, size⟩ := ih passes fails
      exact ⟨c, visited, by omega⟩

/-- A search only fails in a chart with more items than there are positions. -/
theorem run_overflows {fault : Fault} (fails : run g chart sentence = .error fault) :
    fault = .arenaOverflow ∧ ∃ c, Visits g chart sentence c ∧ Arena.capacity < c.arena.size := by
  rcases run_passes settings words with ⟨s, hrun, -⟩ | ⟨hrun, s, first, last, rest, closing, full⟩
  · rw [hrun] at fails
    cases fails
  · rw [hrun, Except.error.injEq] at fails
    obtain ⟨present, hpresent, -, rounds⟩ := closing.listing settings words
    rw [close, hpresent, Outcome.ok_bind] at full
    obtain ⟨c, visited, size⟩ := rounds.settle_overflows settings words full
    unfold roundLimit at size
    exact ⟨fails.symm, c, visited, by omega⟩

end Round

theorem Rows.of_grown {i : Nat}
    (rows : Rows g chart sentence c mid next first last frontier grown fresh) (hi : i ∈ grown) :
    ∃ k ∈ frontier, ∃ head parent left right,
      c.arena.built? k = some head ∧ g.Projects head parent left right ∧
      mid.arena.built? i = some (g.projected k head parent left right) := by
  obtain ⟨items, row, mem⟩ := rows.projecting
  obtain ⟨y, hy, -, -, -, -, -, hbuilt⟩ := row.of_taken hi
  obtain ⟨k, hk, head, stored, hy⟩ := (mem y).mp hy
  obtain ⟨alive, parent, left, right, projects, rfl⟩ := Grammar.mem_projections_iff.mp hy
  have held := Arena.built?_of_items stored
  rw [Item.copy_of_fresh alive] at held
  exact ⟨k, hk, head, parent, left, right, held, projects, hbuilt⟩

end Search

end HeadDriven
