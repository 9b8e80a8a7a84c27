import HeadDriven.Proofs.Search.Settling

/-! Closed cells are exhausted. Every item that has a place in a cell when its last round is
over was projected and stopped in some round, while it had its place. All that came of it was
offered then, and is turned away ever since, whether it was taken or not. So closing the cell
once more makes offers only that are turned away. -/
namespace HeadDriven

namespace Chart

/-- All that projections and stopping make of an item has been offered. -/
structure Spent (c : Chart) (g : Grammar) (offers : Offers) (index : Nat) (item : Item) :
    Prop where
  projections : ∀ y ∈ g.projections index item, c.Made g.language offers y
  stop : ∀ y, (g.stop (c.arena.modificand index item)).built = some y →
    c.Made g.language offers y

/-- All that projections and stopping make of the items of a cell is turned away. -/
structure Exhausted (c : Chart) (g : Grammar) (first last : Nat) : Prop where
  projections : ∀ index item, c.Live first last index item → ∀ y ∈ g.projections index item,
    c.turnsAway g.language y = true
  stop : ∀ index item, c.Live first last index item → ∀ y,
    (g.stop (c.arena.modificand index item)).built = some y → c.turnsAway g.language y = true

structure Retains (c next : Chart) : Prop where
  grows : c.Grows next
  cells : next.cells = c.cells
  items : next.arena.items = c.arena.items

variable {c mid next : Chart} {g : Grammar} {sentence : Sentence} {language : Language}
  {first last index : Nat} {item : Item} {offers later : Offers}

namespace Retains

theorem refl (c : Chart) : c.Retains c := ⟨.refl c, rfl, rfl⟩

theorem trans (h : c.Retains mid) (h' : mid.Retains next) : c.Retains next :=
  ⟨h.grows.trans h'.grows, h'.cells.trans h.cells, h'.items.trans h.items⟩

theorem groupAt (h : c.Retains next) (first last : Nat) (label : Symbol) :
    next.groupAt first last label = c.groupAt first last label := by
  rw [Chart.groupAt, Chart.groupAt, h.cells, h.grows.size]

theorem turnsAway (h : c.Retains next) (head : c.arena.HasHead item) :
    next.turnsAway language item = c.turnsAway language item := by
  rw [Chart.turnsAway, Chart.turnsAway, groupOf, groupOf, h.groupAt, h.grows.settings,
    h.grows.keyOf head]

end Retains

end Chart

namespace Search

variable {g : Grammar} {sentence : Sentence} {chart c mid next : Chart} {s : Search}
  {first last i : Nat} {frontier grown fresh taken : List Nat} {rest : List Task} {x item : Item}
  {items : List Item} {offers later : Offers}

theorem projections_of_growing (h : x.stopped = false) : g.projections i x = [] := by
  refine List.eq_nil_iff_forall_not_mem.mpr fun y hy => ?_
  obtain ⟨-, parent, left, right, projects, -⟩ := Grammar.mem_projections_iff.mp hy
  have stopped := projects.stopped
  rw [h] at stopped
  cases stopped

theorem offerable_projection (sound : c.Sound g sentence) (live : c.Live first last i x) {y : Item}
    (hy : y ∈ g.projections i x) : Offerable g sentence c.arena first last y :=
  have resides := live.resides sound.consistent
  offerable_of_projection live.stored resides.first resides.last hy

theorem offerable_stop (sound : c.Sound g sentence) (live : c.Live first last i x) {y : Item}
    (hy : (g.stop (c.arena.modificand i x)).built = some y) :
    Offerable g sentence c.arena first last y :=
  have resides := live.resides sound.consistent
  offerable_of_stop live.stored resides.first resides.last hy

theorem spent_grows (sound : c.Sound g sentence) (live : c.Live first last i x)
    (grows : c.Grows next) (includes : later.Includes offers) (spent : c.Spent g offers i x) :
    next.Spent g later i x where
  projections y hy := (spent.projections y hy).grows grows
    ((offerable_projection sound live hy).hasHead sound.built) includes
  stop y hy := by
    have ok := sound.consistent
    rw [grows.arena.modificand ok.linked (live.holds ok)] at hy
    exact (spent.stop y hy).grows grows ((offerable_stop sound live hy).hasHead sound.built)
      includes

theorem exhausted_of_spent (sound : c.Sound g sentence) (room : 1 ≤ g.settings.maxCellSize)
    (entered : c.Entered g.language offers)
    (spent : ∀ i x, c.Live first last i x → c.Spent g offers i x) : c.Exhausted g first last where
  projections i x live y hy := entered.turnsAway (sound.settings ▸ room)
    ((spent i x live).projections y hy) ((offerable_projection sound live hy).inside live.inside)
  stop i x live y hy := entered.turnsAway (sound.settings ▸ room)
    ((spent i x live).stop y hy) ((offerable_stop sound live hy).inside live.inside)

theorem add_of_turnsAway (sound : c.Sound g sentence) (inside : c.Inside first last)
    (one : Offerable g sentence c.arena first last item)
    (refused : c.turnsAway g.language item = true) :
    ∃ next, c.add g.language first last item = .ok (next, none) ∧ c.Retains next ∧
      next.Sound g sentence := by
  obtain ⟨next, taken, hadd, sound', grows, outcome⟩ := sound_add sound inside one
  cases outcome with
  | refused h => exact ⟨next, hadd, ⟨grows, h.cells, h.items⟩, sound'⟩
  | taken h =>
    rw [h.refuses] at refused
    cases refused

theorem offerAll_of_turnsAway (items : List Item) (sound : s.chart.Sound g sentence)
    (inside : s.chart.Inside first last)
    (refused : ∀ y ∈ items, Offerable g sentence s.chart.arena first last y ∧
      s.chart.turnsAway g.language y = true) :
    ∃ u, s.offerAll g first last items = .ok (u, []) ∧ s.chart.Retains u.chart ∧
      u.chart.Sound g sentence := by
  induction items generalizing s with
  | nil => exact ⟨s, rfl, .refl _, sound⟩
  | cons y items ih =>
    obtain ⟨⟨one, hy⟩, others⟩ := List.forall_mem_cons.mp refused
    obtain ⟨mid, hadd, retains, sound'⟩ := add_of_turnsAway sound inside one hy
    have still : ∀ z ∈ items, Offerable g sentence mid.arena first last z ∧
        mid.turnsAway g.language z = true := fun z hz => by
      obtain ⟨offerable, hz⟩ := others z hz
      rw [retains.turnsAway (offerable.hasHead sound.built)]
      exact ⟨offerable.extends sound.consistent.linked retains.grows.arena, hz⟩
    obtain ⟨u, hrow, retains', sound''⟩ := ih (s := { s with chart := mid }) sound'
      (retains.grows.inside.mpr inside) still
    refine ⟨u, ?_, retains.trans retains', sound''⟩
    rw [offerAll] at hrow ⊢
    obtain ⟨⟨chart, taken⟩, hall, hr⟩ := Outcome.bind_eq_ok.mp hrow
    cases hr
    rw [Chart.addAll_cons, hadd]
    simp only [Outcome.ok_bind, hall]
    rfl

theorem round_of_exhausted (sound : s.chart.Sound g sentence) (inside : s.chart.Inside first last)
    (exhausted : s.chart.Exhausted g first last) (present : List Nat)
    (listed : ∀ i ∈ present, ∃ x, s.chart.Live first last i x) :
    ∃ u, s.round g first last present = .ok (u, []) ∧ s.chart.Retains u.chart := by
  have live {i : Nat} {x : Item} (hi : i ∈ present) (stored : s.chart.arena.items[i]? = some x) :
      s.chart.Live first last i x := by
    obtain ⟨y, live⟩ := listed i hi
    exact Option.some.inj (stored.symm.trans live.stored) ▸ live
  have below (i : Nat) (hi : i ∈ present) : i < s.chart.arena.size :=
    (listed i hi).elim fun _ live => live.lt_size
  obtain ⟨sources, hsources, memSources⟩ := stored_row (s := s) present below
  -- The projections are all refused, so the stops are those of the items present.
  obtain ⟨mid, hgrown, retains, midSound⟩ := offerAll_of_turnsAway
    (sources.flatMap fun source => g.projections source.1 source.2) sound inside fun y hy => by
      obtain ⟨⟨i, x⟩, hsource, hy⟩ := List.mem_flatMap.mp hy
      obtain ⟨hi, stored⟩ := (memSources _).mp hsource
      have live := live hi stored
      exact ⟨offerable_projection sound live hy, exhausted.projections i x live y hy⟩
  have ok := sound.consistent
  obtain ⟨row, hrow, memRow⟩ := modificand_row (s := mid) midSound.consistent.linked present
    fun i hi => retains.grows.arena.size_le.trans_lt' (below i hi)
  obtain ⟨u, hfresh, retains', -⟩ := offerAll_of_turnsAway (s := mid.noting (row.map g.stop))
    ((row.map g.stop).filterMap Trial.built) midSound (retains.grows.inside.mpr inside)
    fun y hy => by
      obtain ⟨_, htrial, hy⟩ := List.mem_filterMap.mp hy
      obtain ⟨_, hm, rfl⟩ := List.mem_map.mp htrial
      obtain ⟨i, hi, x, stored, rfl⟩ := (memRow _).mp hm
      rw [retains.items] at stored
      have live := live hi stored
      rw [retains.grows.arena.modificand ok.linked (live.holds ok)] at hy
      have offerable := offerable_stop sound live hy
      refine ⟨offerable.extends ok.linked retains.grows.arena, ?_⟩
      have refused := exhausted.stop i x live y hy
      rwa [← retains.turnsAway (offerable.hasHead sound.built)] at refused
  refine ⟨u, ?_, retains.trans retains'⟩
  refine Outcome.bind_eq_ok.mpr ⟨sources, hsources, ?_⟩
  refine Outcome.bind_eq_ok.mpr ⟨(mid, []), hgrown, ?_⟩
  exact Outcome.bind_eq_ok.mpr ⟨row, (List.append_nil present).symm ▸ hrow, hfresh⟩

theorem close_of_exhausted (sound : s.chart.Sound g sentence)
    (inside : s.chart.Inside first last) (exhausted : s.chart.Exhausted g first last) :
    ∃ u, s.close g first last = .ok u ∧ s.chart.Retains u.chart := by
  obtain ⟨present, hpresent, mem⟩ := Chart.cellItems_eq sound.consistent inside
  obtain ⟨u, hround, retains⟩ := round_of_exhausted sound inside exhausted present
    fun i hi => (mem i).mp hi
  rw [Search.close, hpresent, Outcome.ok_bind]
  cases present with
  | nil => exact ⟨s, by cases roundLimit g [] <;> rfl, .refl _⟩
  | cons i others =>
    exact ⟨u, (Settles.round (List.cons_ne_nil i others) hround (.done u)).settle
      (by unfold roundLimit; omega), retains⟩

namespace Tempered

variable (t : Tempered g chart sentence)
include t

theorem live_before_row (row : Row g chart sentence first last c items taken next)
    (live : next.Live first last i x) : c.Live first last i x ∨ i ∈ taken := by
  induction row with
  | nil => exact Or.inl live
  | cons offering inside _ _ grows outcome row ih =>
    have ok := (t.sound offering.visits).consistent
    rcases ih live with midLive | taken
    · obtain ⟨label, e, he, hindex⟩ := midLive.listed
      rcases outcome.listed ok grows inside he with old | new
      · exact Or.inl (midLive.before grows ok (t.sound row.visited).consistent
          ⟨label, e, old, hindex⟩)
      · exact Or.inr (List.mem_append_left _ (hindex ▸ new))
    · exact Or.inr (List.mem_append_right _ taken)

/-- What is live after a round is new and finished, or spent. -/
theorem spends (hc : Visits g chart sentence c) (hm : Visits g chart sentence mid)
    (rows : Rows g chart sentence c mid next first last frontier grown fresh)
    (entered : c.Entered g.language offers)
    (pending : ∀ i x, c.Live first last i x → i ∈ frontier ∨ c.Spent g offers i x) :
    ∃ later, next.Entered g.language later ∧
      ∀ i x, next.Live first last i x → i ∈ fresh ∨ next.Spent g later i x := by
  obtain ⟨items, row, mem⟩ := rows.projecting
  obtain ⟨stops, row', mem'⟩ := rows.stopping
  obtain ⟨more, midEntered, included, made⟩ := t.enter_row row entered
  obtain ⟨later, nextEntered, includes, made'⟩ := t.enter_row row' midEntered
  have sc := t.sound hc
  have sm := t.sound hm
  refine ⟨later, nextEntered, fun i x live => ?_⟩
  rcases t.live_before_row row' live with midLive | hfresh
  swap
  · exact Or.inl hfresh
  have stopped (hi : i ∈ frontier ++ grown) (y : Item)
      (hy : (g.stop (next.arena.modificand i x)).built = some y) :
      next.Made g.language later y := by
    rw [row'.grows.arena.modificand sm.consistent.linked (midLive.holds sm.consistent)] at hy
    exact (made' y ((mem' y).mpr ⟨i, hi, x, midLive.stored, hy⟩)).1
  rcases t.live_before_row row midLive with before | hgrown
  · rcases pending i x before with hi | spent
    · refine Or.inr ⟨fun y hy => ?_, stopped (List.mem_append_left _ hi)⟩
      have offered := (made y ((mem y).mpr ⟨i, hi, x, before.stored, hy⟩)).1
      exact offered.grows row'.grows ((offerable_projection sm midLive hy).hasHead sm.built)
        includes
    · exact Or.inr (spent_grows sm midLive row'.grows includes
        (spent_grows sc before row.grows included spent))
  · -- What the first row took still grows, so it has no projections.
    obtain ⟨k, -, head, parent, left, right, -, -, hbuilt⟩ := rows.of_grown hgrown
    rw [midLive.built? sm.consistent, Option.some.injEq] at hbuilt
    refine Or.inr ⟨fun y hy => ?_, stopped (List.mem_append_right _ hgrown)⟩
    rw [projections_of_growing (hbuilt ▸ rfl)] at hy
    exact absurd hy List.not_mem_nil

theorem exhausts {n : Nat} {u : Search} (settles : Settles g first last s frontier n u)
    (h : Passes g chart sentence ⟨s, .round first last frontier :: rest⟩)
    (entered : s.chart.Entered g.language offers)
    (pending : ∀ i x, s.chart.Live first last i x → i ∈ frontier ∨ s.chart.Spent g offers i x) :
    u.chart.Exhausted g first last := by
  induction settles generalizing offers with
  | done => exact exhausted_of_spent (t.sound h.visits) t.room entered fun i x live =>
      (pending i x live).resolve_left List.not_mem_nil
  | round opens hround _ ih =>
    obtain ⟨mid, grown, next, fresh, hround', stopping, passes, rows⟩ :=
      h.round t.settings t.words opens
    rw [hround, Except.ok.injEq, Prod.mk.injEq] at hround'
    obtain ⟨rfl, rfl⟩ := hround'
    obtain ⟨later, entered', pending'⟩ := t.spends h.visits stopping.visits rows entered pending
    exact ih passes entered' pending'

theorem close_exhausts {n : Nat} {u : Search}
    (h : Passes g chart sentence ⟨s, .close first last :: rest⟩)
    (closure : Closure g s first last n u) : u.chart.Exhausted g first last := by
  obtain ⟨⟨present, hpresent, settles⟩, -⟩ := closure
  obtain ⟨_, hpresent', mem, next⟩ := h.listing t.settings t.words
  rw [hpresent, Except.ok.injEq] at hpresent'
  subst hpresent'
  obtain ⟨offers, entered⟩ := t.entered h.visits
  exact t.exhausts settles next entered fun i x live => Or.inl ((mem i).mpr ⟨x, live⟩)

end Tempered

end Search

end HeadDriven
