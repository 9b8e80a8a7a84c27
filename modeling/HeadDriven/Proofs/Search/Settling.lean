import HeadDriven.Proofs.Chart.Entering
import HeadDriven.Proofs.LogProb.Bounded
import HeadDriven.Proofs.Search.Rows
import Mathlib.Data.List.Perm.Subperm
import Mathlib.Data.List.ProdSigma
import Mathlib.Data.Finset.Card

/-! Cells settle. A finished constituent that is new in some round of closing a cell has a
ladder of others below it, one from every round before, none of which does worse; so they
all have keys of their own, and there are no more rounds than keys. For this head and stop
events must discount and all scores be numbers; other events may be of any kind, and the beam
and the cap may evict whatever they like. -/
namespace HeadDriven

namespace Chart

variable {c next : Chart} {item held : Item}

/-- A finished constituent over the span and the head word of an item, in its tree no worse,
which has the label and dominates a verb as told. -/
structure Rung (c : Chart) (g : Grammar) (item : Item) (r : Symbol × Bool) (held : Item) :
    Prop where
  nonterminal : r.1 ∈ g.model.nonterminals
  label : held.label = r.1
  word : held.headWord = item.headWord
  span : held.first = item.first ∧ held.last = item.last
  stopped : held.stopped = true
  key : c.keyOf g.language held =
    ⟨c.settings.equivalence, .stopped r.1 item.headWord false r.2⟩
  logTree : item.logTree ≤ held.logTree

/-- Stored rungs below an item, no two of them for the same key. -/
def Ladder (c : Chart) (g : Grammar) (n : Nat) (item : Item) : Prop :=
  ∃ rungs : List (Symbol × Bool), rungs.Nodup ∧ rungs.length = n ∧
    ∀ r ∈ rungs, ∃ index held, c.arena.built? index = some held ∧ c.Rung g item r held

variable {g : Grammar} {n : Nat}

/-- Each rung has a nonterminal of its own and tells whether a verb is dominated. -/
theorem Ladder.le (h : c.Ladder g n item) : n ≤ 2 * g.model.nonterminals.length := by
  obtain ⟨rungs, nodup, rfl, hrungs⟩ := h
  have sub : rungs ⊆ g.model.nonterminals ×ˢ [false, true] := by
    rintro ⟨label, verb⟩ hr
    obtain ⟨_, _, -, rung⟩ := hrungs _ hr
    rw [List.mem_product]
    exact ⟨rung.nonterminal, by cases verb <;> simp⟩
  have := (List.Nodup.subperm nodup sub).length_le
  rw [List.length_product] at this
  simpa [Nat.mul_comm] using this

theorem Ladder.le_card (h : c.Ladder g n item) {keys : Finset Key}
    (all : ∀ r index held, c.arena.built? index = some held → c.Rung g item r held →
      ⟨c.settings.equivalence, .stopped r.1 item.headWord false r.2⟩ ∈ keys) :
    n ≤ keys.card := by
  obtain ⟨rungs, nodup, rfl, hrungs⟩ := h
  let key (r : Symbol × Bool) : Key :=
    ⟨c.settings.equivalence, .stopped r.1 item.headWord false r.2⟩
  have apart : Function.Injective key := fun r r' same => by
    simp only [key, Key.mk.injEq, Shape.stopped.injEq, true_and] at same
    exact Prod.ext same.1 same.2
  have sub : (rungs.map key).toFinset ⊆ keys := fun k hk => by
    obtain ⟨r, hr, rfl⟩ := List.mem_map.mp (List.mem_toFinset.mp hk)
    obtain ⟨index, held, stored, rung⟩ := hrungs r hr
    exact all r index held stored rung
  calc
    rungs.length = (rungs.map key).toFinset.card := by
      rw [List.toFinset_card_of_nodup (nodup.map apart), List.length_map]
    _ ≤ keys.card := Finset.card_le_card sub

theorem Rung.grows {index : Nat} {x : Item} {r : Symbol × Bool} (h : c.Rung g held r x)
    (grows : c.Grows next) (linked : c.arena.Linked) (stored : c.arena.built? index = some x) :
    next.Rung g held r x :=
  { h with key := by rw [grows.keyOf (linked.hasHead stored), h.key, grows.settings] }

theorem Rung.below {x : Item} {r : Symbol × Bool} (h : c.Rung g held r x)
    (word : item.headWord = held.headWord)
    (span : item.first = held.first ∧ item.last = held.last)
    (logTree : item.logTree ≤ held.logTree) : c.Rung g item r x where
  nonterminal := h.nonterminal
  label := h.label
  word := h.word.trans word.symm
  span := ⟨h.span.1.trans span.1.symm, h.span.2.trans span.2.symm⟩
  stopped := h.stopped
  key := word ▸ h.key
  logTree := LogProb.numbers_le_trans logTree h.logTree

theorem Ladder.grows (h : c.Ladder g n held) (grows : c.Grows next) (linked : c.arena.Linked)
    (word : item.headWord = held.headWord)
    (span : item.first = held.first ∧ item.last = held.last)
    (logTree : item.logTree ≤ held.logTree) : next.Ladder g n item := by
  obtain ⟨rungs, nodup, hlength, hrungs⟩ := h
  refine ⟨rungs, nodup, hlength, fun r hr => ?_⟩
  obtain ⟨index, x, stored, rung⟩ := hrungs r hr
  exact ⟨index, x, grows.arena.holds stored,
    (rung.grows grows linked stored).below word span logTree⟩

end Chart

namespace Search

variable {g : Grammar} {sentence : Sentence} {chart c mid next : Chart} {s : Search}
  {first last i n : Nat} {frontier grown fresh : List Nat} {rest : List Task} {item : Item}

/-- The decode of a sentence under a model whose head and stop events discount, with a beam and
room for an item, in which no item is offered whose score is plus infinity or no number. -/
structure Tempered (g : Grammar) (chart : Chart) (sentence : Sentence) : Prop where
  settings : chart.settings = g.settings
  words : sentence ≠ []
  damps : g.model.Damps
  bounded : ∀ c first last item, Offering g chart sentence c first last item →
    LogProb.Bounded item.score
  beam : 0.0 ≤ g.settings.beamWidth
  room : 1 ≤ g.settings.maxCellSize

/-- The rounds of a cell until one of them stops nothing new, and their number. -/
inductive Settles (g : Grammar) (first last : Nat) :
    Search → (frontier : List Nat) → Nat → Search → Prop where
  | done (s : Search) : Settles g first last s [] 0 s
  | round {s mid t : Search} {frontier fresh : List Nat} {rounds : Nat} (opens : frontier ≠ [])
      (hround : s.round g first last frontier = .ok (mid, fresh))
      (others : Settles g first last mid fresh rounds t) :
      Settles g first last s frontier (rounds + 1) t

/-- How an item that a round stops has come to it: it was given, or it is a projection of an
item that was. -/
def Origin (g : Grammar) (c : Chart) (frontier : List Nat) (j : Nat) (m : Item) : Prop :=
  j ∈ frontier ∨ ∃ k ∈ frontier, ∃ head parent left right,
    c.arena.built? k = some head ∧ g.Projects head parent left right ∧
      m = g.projected k head parent left right

structure Found (g : Grammar) (c mid next : Chart) (frontier : List Nat) (i j : Nat) (m : Item) :
    Prop where
  before : c.Grows mid
  after : mid.Grows next
  under : mid.arena.built? j = some m
  stops : g.Stops (mid.arena.modificand j m)
  built : next.arena.built? i = some (g.stoppedCopy (mid.arena.modificand j m))
  opens : mid.turnsAway g.language (g.stoppedCopy (mid.arena.modificand j m)) = false
  origin : Origin g c frontier j m

theorem Rows.found (rows : Rows g chart sentence c mid next first last frontier grown fresh)
    (linked : mid.arena.Linked) (hi : i ∈ fresh) :
    ∃ taking, Visits g chart sentence taking ∧ ∃ j m, Found g c taking next frontier i j m := by
  obtain ⟨_, row, -⟩ := rows.projecting
  obtain ⟨stops, row', mem⟩ := rows.stopping
  obtain ⟨y, hy, taking, visited, before, after, opens, built⟩ := row'.of_taken hi
  obtain ⟨j, hj, m, stored, hstop⟩ := (mem y).mp hy
  obtain ⟨alive, stops, rfl⟩ := Grammar.stop_built_iff.mp hstop
  have held := Arena.built?_of_items stored
  rw [Item.copy_of_fresh (show m.garbage = false from alive)] at held
  have same := before.arena.modificand linked ⟨Arena.lt_size_of_built? held, held⟩
  have origin : Origin g c frontier j m := by
    rcases List.mem_append.mp hj with hj | hj
    · exact Or.inl hj
    · obtain ⟨k, hk, head, parent, left, right, hhead, projects, hm⟩ := rows.of_grown hj
      rw [held, Option.some.injEq] at hm
      exact Or.inr ⟨k, hk, head, parent, left, right, hhead, projects, hm⟩
  exact ⟨taking, visited, j, m, row.grows.trans before, after, before.arena.holds held,
    same.symm ▸ stops, same.symm ▸ built, same.symm ▸ opens, origin⟩

theorem keyOf_stoppedCopy (c : Chart) {m : Modificand} (child : m.item.headChild.isSome = true) :
    c.keyOf g.language (g.stoppedCopy m) = ⟨c.settings.equivalence,
      .stopped m.item.label m.item.headWord false
        (c.arena.itemVerb g.language c.settings.baseNpVerbBarrier (g.stoppedCopy m))⟩ := by
  have under : (g.stoppedCopy m).isPreterminal = false := by
    rw [Item.isPreterminal, Option.isNone_eq_false_iff]
    exact child
  simp only [Chart.keyOf, Arena.keyOf, Key.ofItem, under]
  exact if_pos rfl

/-- Each of the given items is finished and has a ladder of `n` others below it. -/
def Laddered (g : Grammar) (c : Chart) (n : Nat) (frontier : List Nat) : Prop :=
  ∀ i ∈ frontier, ∃ x, c.arena.built? i = some x ∧ x.stopped = true ∧ c.Ladder g n x

/-- A cell that is closed: how many rounds that takes, and the search after them. -/
structure Closure (g : Grammar) (s : Search) (first last rounds : Nat) (u : Search) : Prop where
  present : ∃ present, s.chart.cellItems first last = .ok present ∧
    Settles g first last s present rounds u
  result : s.close g first last = .ok u

def FinishedKey (g : Grammar) (chart : Chart) (sentence : Sentence) (first last : Nat)
    (key : Key) : Prop :=
  ∃ c i x, Visits g chart sentence c ∧ c.arena.built? i = some x ∧ x.first = first ∧
    x.last = last ∧ x.stopped = true ∧ c.keyOf g.language x = key

theorem Settles.unique {t u : Search} {n m : Nat} (h : Settles g first last s frontier n t)
    (h' : Settles g first last s frontier m u) : n = m ∧ t = u := by
  induction h generalizing m with
  | done => cases h' with
    | done => exact ⟨rfl, rfl⟩
    | round opens => exact absurd rfl opens
  | round opens hround _ ih => cases h' with
    | done => exact absurd rfl opens
    | round _ hround' others =>
      rw [hround, Except.ok.injEq, Prod.mk.injEq] at hround'
      obtain ⟨rfl, rfl⟩ := hround'
      obtain ⟨rfl, rfl⟩ := ih others
      exact ⟨rfl, rfl⟩

theorem Settles.settle {t : Search} {n rounds : Nat} (h : Settles g first last s frontier n t)
    (enough : n ≤ rounds) : settle g first last rounds s frontier = .ok t := by
  induction h generalizing rounds with
  | done => cases rounds <;> rfl
  | round opens hround _ ih =>
    obtain ⟨rounds, rfl⟩ := Nat.exists_eq_succ_of_ne_zero (Nat.ne_of_gt (Nat.zero_lt_of_lt enough))
    obtain ⟨i, others, rfl⟩ := List.exists_cons_of_ne_nil opens
    simp only [Search.settle, hround, Outcome.ok_bind]
    exact ih (Nat.le_of_succ_le_succ enough)

namespace Tempered

variable (t : Tempered g chart sentence)
include t

theorem sound (h : Visits g chart sentence c) : c.Sound g sentence := h.sound t.settings t.words

theorem enter_row {items : List Item} {taken : List Nat} {offers : Offers}
    (row : Row g chart sentence first last c items taken next)
    (entered : c.Entered g.language offers) :
    ∃ later : Offers, next.Entered g.language later ∧ later.Includes offers ∧
      ∀ item ∈ items, next.Made g.language later item ∧ next.Inside item.first item.last := by
  induction row generalizing offers with
  | nil => exact ⟨offers, entered, fun _ _ _ => List.Subset.refl _, by simp⟩
  | cons offering inside one added grows outcome row ih =>
    have sound := t.sound offering.visits
    have linked := (t.sound row.visited).consistent.linked
    obtain ⟨more, after, included, made⟩ := entered.add (sound.settings ▸ t.beam)
      (sound.settings ▸ t.room) one.builds.fresh (t.bounded _ _ _ _ offering) added
      (t.sound row.visited).consistent outcome
    obtain ⟨later, done, includes, others⟩ := ih after
    refine ⟨later, done,
      fun f l label => List.Subset.trans (included f l label) (includes f l label),
      List.forall_mem_cons.mpr ⟨⟨?_, ?_⟩, others⟩⟩
    · exact made.grows row.grows ((one.hasHead sound.built).extends grows.arena) includes
    · exact row.grows.inside.mpr (grows.inside.mpr (one.inside inside))

theorem entered (h : Visits g chart sentence c) : ∃ offers, c.Entered g.language offers := by
  obtain ⟨p, passes, rfl⟩ := h
  refine Leads.rec (motive := fun p _ => ∃ offers, p.search.chart.Entered g.language offers)
    ?_ ?_ passes
  · exact ⟨_, Chart.entered_resized chart g.language _ (sound_resized t.settings).consistent⟩
  · rintro p q before next ⟨offers, entered⟩
    have sound := before.sound (sound_start t.settings t.words)
    rcases step_chart next with same | ⟨first, last, item, index, offering, hadd⟩
    · exact same ▸ ⟨offers, entered⟩
    · have one : Offering g chart sentence p.search.chart first last item :=
        ⟨p, before, rfl, offering⟩
      obtain ⟨items, taken, kind, rest, hagenda⟩ := offering
      obtain ⟨inside, offerable, -⟩ :=
        sound.ready (.offers first last (item :: items) taken kind) (by simp [hagenda])
      obtain ⟨_, _, hadd', after, -, outcome⟩ :=
        sound_add sound.chart inside (offerable item List.mem_cons_self)
      rw [hadd', Except.ok.injEq, Prod.mk.injEq] at hadd
      obtain ⟨rfl, rfl⟩ := hadd
      have settings := sound.chart.settings
      obtain ⟨later, entered', -⟩ := entered.add (settings ▸ t.beam) (settings ▸ t.room)
        (offerable item List.mem_cons_self).builds.fresh (t.bounded _ _ _ _ one) hadd'
        after.consistent outcome
      exact ⟨later, entered'⟩

theorem bounded_at (h : Visits g chart sentence c) (hx : c.arena.built? i = some item) :
    LogProb.Bounded item.logTree ∧ LogProb.Bounded item.logPrior := by
  obtain ⟨offers, entered⟩ := t.entered h
  have sound := t.sound h
  have located := sound.built.located hx
  have score := entered.bounded (entered.made_of_stored hx)
    ⟨located.first_le_last, sound.size ▸ located.last_lt⟩
  exact score.of_add

theorem turnsAway_of_rung (visited : Visits g chart sentence c) {j k : Nat} {m held : Item}
    (under : c.arena.built? j = some m) (stops : g.Stops (c.arena.modificand j m))
    (stored : c.arena.built? k = some held)
    (rung : c.Rung g (g.stoppedCopy (c.arena.modificand j m)) (m.label,
      c.arena.itemVerb g.language c.settings.baseNpVerbBarrier
        (g.stoppedCopy (c.arena.modificand j m))) held) :
    c.turnsAway g.language (g.stoppedCopy (c.arena.modificand j m)) = true := by
  have sound := t.sound visited
  obtain ⟨offers, entered⟩ := t.entered visited
  obtain ⟨child, label, notTop⟩ := sound.built.growing under stops.growing
  have located := sound.built.located under
  have inside : c.Inside m.first m.last := ⟨located.first_le_last, sound.size ▸ located.last_lt⟩
  have key := keyOf_stoppedCopy (g := g) c (m := c.arena.modificand j m) child
  have samePrior : m.logPrior = held.logPrior := by
    rw [sound.built.logPrior under notTop, sound.built.logPrior stored (rung.label ▸ notTop),
      rung.word, rung.label]
    rfl
  obtain ⟨heldTree, heldPrior⟩ := t.bounded_at visited stored
  have hscore : (g.stoppedCopy (c.arena.modificand j m)).score ≤ held.score :=
    heldTree.add_le_add heldPrior rung.logTree
      (samePrior.symm ▸ LogProb.numbers_le_refl heldPrior.number)
  exact entered.turnsAway_of_made (sound.settings ▸ t.room) (entered.made_of_stored stored) inside
    ⟨rung.span.1, rung.span.2, rung.label⟩ (rung.key.trans key.symm) hscore

/-- A finished constituent that a chart takes is one more rung on the ladder below it. -/
theorem ladder_succ (visited : Visits g chart sentence mid) {j : Nat} {m : Item}
    (under : mid.arena.built? j = some m) (stops : g.Stops (mid.arena.modificand j m))
    (opens : mid.turnsAway g.language (g.stoppedCopy (mid.arena.modificand j m)) = false)
    (grows : mid.Grows next)
    (built : next.arena.built? i = some (g.stoppedCopy (mid.arena.modificand j m)))
    (ladder : mid.Ladder g n (g.stoppedCopy (mid.arena.modificand j m))) :
    next.Ladder g (n + 1) (g.stoppedCopy (mid.arena.modificand j m)) := by
  have sound := t.sound visited
  have linked := sound.consistent.linked
  obtain ⟨child, label, -⟩ := sound.built.growing under stops.growing
  have key := keyOf_stoppedCopy (g := g) mid (m := mid.arena.modificand j m) child
  have logTree : (g.stoppedCopy (mid.arena.modificand j m)).logTree ≤ m.logTree :=
    (t.bounded_at visited under).1.add_le (t.damps.logStop stops)
  have head : mid.arena.HasHead (g.stoppedCopy (mid.arena.modificand j m)) :=
    show mid.arena.HasHead m from linked.hasHead under
  obtain ⟨rungs, nodup, hlength, hrungs⟩ := ladder
  set y := g.stoppedCopy (mid.arena.modificand j m) with hy
  set verb := mid.arena.itemVerb g.language mid.settings.baseNpVerbBarrier y with hverb
  -- The new rung is not among the old: a holder of its key would have turned the copy away.
  have other : (m.label, verb) ∉ rungs := fun hr => by
    obtain ⟨k, held, stored, rung⟩ := hrungs _ hr
    rw [t.turnsAway_of_rung visited under stops stored rung] at opens
    cases opens
  refine ⟨(m.label, verb) :: rungs, List.nodup_cons.mpr ⟨other, nodup⟩, by simp [hlength], ?_⟩
  intro r hr
  rcases List.mem_cons.mp hr with rfl | hr
  · refine ⟨i, y, built, label, rfl, rfl, ⟨rfl, rfl⟩, rfl, ?_,
      LogProb.numbers_le_refl (LogProb.numbers_of_le logTree).1⟩
    rw [grows.keyOf head, grows.settings]
    exact key
  · obtain ⟨k, held, stored, rung⟩ := hrungs r hr
    exact ⟨k, held, grows.arena.holds stored, rung.grows grows linked stored⟩

theorem stopped_le {k : Nat} {h : Item} {m : Modificand} {parent : Symbol} {left right : Frame}
    (projects : g.Projects h parent left right) (hm : m.item = g.projected k h parent left right)
    (stops : g.Stops m) (below : LogProb.Bounded h.logTree)
    (between : LogProb.Bounded m.item.logTree) : (g.stoppedCopy m).logTree ≤ h.logTree := by
  have first : (g.stoppedCopy m).logTree ≤ m.item.logTree :=
    between.add_le (t.damps.logStop stops)
  have second : m.item.logTree ≤ h.logTree := by
    rw [hm]
    exact below.add_le (t.damps.head _ projects.event)
  exact LogProb.numbers_le_trans first second

theorem laddered (hc : Visits g chart sentence c) (hmid : Visits g chart sentence mid)
    (rows : Rows g chart sentence c mid next first last frontier grown fresh)
    (ladders : n = 0 ∨ Laddered g c n frontier) : Laddered g next (n + 1) fresh := by
  intro i hi
  obtain ⟨taking, visited, j, m, found⟩ := rows.found (t.sound hmid).consistent.linked hi
  refine ⟨_, found.built, rfl, ?_⟩
  refine t.ladder_succ visited found.under found.stops found.opens found.after found.built ?_
  rcases ladders with rfl | ladders
  · exact ⟨[], List.nodup_nil, rfl, by simp⟩
  · rcases found.origin with hj | ⟨k, hk, h, parent, left, right, hh, projects, hm⟩
    · obtain ⟨x, hx, stopped, -⟩ := ladders j hj
      have same := found.before.arena.holds hx
      rw [found.under, Option.some.injEq] at same
      have growing := found.stops.growing
      rw [show (taking.arena.modificand j m).item = x from same, stopped] at growing
      cases growing
    · obtain ⟨x, hx, -, ladder⟩ := ladders k hk
      obtain rfl : h = x := Option.some.inj (hh.symm.trans hx)
      have hle := t.stopped_le projects hm found.stops (t.bounded_at hc hh).1
        (t.bounded_at visited found.under).1
      refine ladder.grows found.before (t.sound hc).consistent.linked ?_ ?_ hle
      · show m.headWord = h.headWord
        rw [hm]
        rfl
      · show m.first = h.first ∧ m.last = h.last
        rw [hm]
        exact ⟨rfl, rfl⟩

/-- There are no more rounds than rungs of the longest ladder in the cell. -/
theorem settles {longest : Nat} (short : ∀ {c : Chart} {i n : Nat} {x : Item},
      Visits g chart sentence c → c.arena.built? i = some x → x.first = first → x.last = last →
        c.Ladder g n x → n ≤ longest)
    (n rounds : Nat) (h : Passes g chart sentence ⟨s, .round first last frontier :: rest⟩)
    (ladders : n = 0 ∨ Laddered g s.chart n frontier)
    (enough : frontier ≠ [] → longest < n + rounds) :
    ∃ m ≤ rounds, ∃ u, Settles g first last s frontier m u ∧ Passes g chart sentence ⟨u, rest⟩ := by
  -- Each round adds a rung, and no ladder has more than the longest.
  induction rounds generalizing s frontier n with
  | zero =>
    cases frontier with
    | nil => exact ⟨0, Nat.le_refl _, s, .done s, .step h rfl⟩
    | cons i others =>
      have room := enough (List.cons_ne_nil i others)
      rcases ladders with rfl | ladders
      · omega
      · obtain ⟨x, hx, -, ladder⟩ := ladders i List.mem_cons_self
        obtain ⟨-, fills⟩ := (h.sound t.settings t.words).ready
          (.round first last (i :: others)) List.mem_cons_self
        obtain ⟨item, hitem, hfirst, hlast⟩ := fills i List.mem_cons_self
        obtain rfl : item = x := Option.some.inj (hitem.symm.trans hx)
        have := short h.visits hx hfirst hlast ladder
        omega
  | succ rounds ih =>
    cases frontier with
    | nil => exact ⟨0, Nat.zero_le _, s, .done s, .step h rfl⟩
    | cons i others =>
      obtain ⟨mid, grown, next, fresh, hround, stopping, passes, rows⟩ :=
        h.round t.settings t.words (List.cons_ne_nil i others)
      have room := enough (List.cons_ne_nil i others)
      obtain ⟨m, hm, u, settles, done⟩ := ih (n + 1) passes
        (Or.inr (t.laddered h.visits stopping.visits rows ladders)) fun _ => by omega
      exact ⟨m + 1, Nat.succ_le_succ hm, u, .round (List.cons_ne_nil i others) hround settles, done⟩

/-- Every cell settles within the rounds that are allowed to it, which are more than rungs of any
ladder. -/
theorem close (h : Passes g chart sentence ⟨s, .close first last :: rest⟩) :
    ∃ n ≤ 2 * g.model.nonterminals.length + 1, ∃ u, Closure g s first last n u ∧
      Passes g chart sentence ⟨u, rest⟩ := by
  obtain ⟨present, hpresent, -, next⟩ := h.listing t.settings t.words
  obtain ⟨n, hn, u, settles, passes⟩ := t.settles (fun _ _ _ _ ladder => ladder.le) 0
    (2 * g.model.nonterminals.length + 1) next (Or.inl rfl) fun _ => by omega
  refine ⟨n, hn, u, ⟨⟨present, hpresent, settles⟩, ?_⟩, passes⟩
  rw [Search.close, hpresent, Outcome.ok_bind]
  cases settles with
  | done => cases roundLimit g [] <;> rfl
  | round opens hround others =>
    refine (Settles.round opens hround others).settle (Nat.le_trans hn ?_)
    have hpos := List.length_pos_iff.mpr opens
    have := Nat.le_mul_of_pos_right (2 * g.model.nonterminals.length) hpos
    unfold roundLimit
    omega

/-- No more rounds are needed than there are keys for the finished constituents of the span,
apart from a last round that finds none. -/
theorem rounds_le {u : Search} {keys : Finset Key}
    (h : Passes g chart sentence ⟨s, .close first last :: rest⟩)
    (closure : Closure g s first last n u)
    (all : ∀ key, FinishedKey g chart sentence first last key → key ∈ keys) :
    n ≤ keys.card + 1 := by
  obtain ⟨⟨present, hpresent, settles⟩, -⟩ := closure
  obtain ⟨_, hpresent', -, next⟩ := h.listing t.settings t.words
  rw [hpresent, Except.ok.injEq] at hpresent'
  subst hpresent'
  have short {c : Chart} {i n : Nat} {x : Item} (visited : Visits g chart sentence c)
      (_ : c.arena.built? i = some x) (hfirst : x.first = first) (hlast : x.last = last)
      (ladder : c.Ladder g n x) : n ≤ keys.card := by
    refine ladder.le_card fun r index held stored rung => all _ ⟨c, index, held, visited, stored,
      rung.span.1.trans hfirst, rung.span.2.trans hlast, rung.stopped, rung.key⟩
  obtain ⟨m, hm, _, settles', -⟩ := t.settles short 0 (keys.card + 1) next (Or.inl rfl)
    fun _ => by omega
  exact (settles.unique settles').1 ▸ hm

theorem run : ∃ s, Search.run g chart sentence = .ok s ∧ Passes g chart sentence ⟨s, []⟩ := by
  refine (run_passes t.settings t.words).resolve_right ?_
  rintro ⟨-, s, first, last, rest, passes, fails⟩
  obtain ⟨_, -, u, ⟨-, hclose⟩, -⟩ := t.close passes
  rw [hclose] at fails
  cases fails

end Tempered

structure Discounted (g : Grammar) (chart : Chart) (sentence : Sentence) : Prop where
  settings : chart.settings = g.settings
  words : sentence ≠ []
  discounts : g.model.Discounts
  beam : 0.0 ≤ g.settings.beamWidth
  room : 1 ≤ g.settings.maxCellSize

namespace Discounted

variable (d : Discounted g chart sentence)
include d

theorem sound (h : Visits g chart sentence c) : c.Sound g sentence := h.sound d.settings d.words

theorem weighed (h : Visits g chart sentence c) (hx : c.arena.built? i = some item) :
    item.Weighed :=
  (d.sound h).built.weighed d.discounts hx

theorem tempered : Tempered g chart sentence where
  settings := d.settings
  words := d.words
  damps := d.discounts.damps
  bounded := by
    rintro _ first last item ⟨p, passes, rfl, items, taken, kind, rest, hagenda⟩
    have sound := passes.sound d.settings d.words
    obtain ⟨-, offerable, -⟩ :=
      sound.ready (.offers first last (item :: items) taken kind) (by simp [hagenda])
    exact ((offerable item List.mem_cons_self).weighed sound.chart.built d.discounts).bounded
  beam := d.beam
  room := d.room

end Discounted

end Search

end HeadDriven
