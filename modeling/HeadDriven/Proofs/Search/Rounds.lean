import HeadDriven.Proofs.Chart.Covering
import HeadDriven.Proofs.Search.Exhausting

/-! Rounds of closing a cell without pruning. With certain priors the score of an item is
the log probability of its tree. The charts of a decode that prunes nothing are in order, and
a row of offers leaves all its items covered; so every round improves its cell. -/
namespace HeadDriven

/-- An item whose score is the log probability of its tree. -/
structure Item.Certain (item : Item) : Prop extends item.Weighed where
  certain : item.logPrior = 0.0

namespace Item.Certain

variable {item other : Item}

theorem logTree_le_score (h : item.Certain) : item.logTree ≤ item.score := by
  rw [Item.score, h.certain]
  exact LogProb.le_add_zero h.logTree

theorem score_le_logTree (h : item.Certain) : item.score ≤ item.logTree := by
  rw [Item.score, h.certain]
  exact LogProb.add_le h.logTree LogProb.zero_le_zero

theorem logTree_le_logTree (h : item.Certain) (h' : other.Certain)
    (hle : item.score ≤ other.score) : item.logTree ≤ other.logTree :=
  LogProb.numbers_le_trans h.logTree_le_score (LogProb.numbers_le_trans hle h'.score_le_logTree)

end Item.Certain

variable {g : Grammar} {sentence : Sentence} {a : Arena} {bound : Nat} {item : Item}

theorem Builds.certain (h : Builds g sentence a bound item)
    (certain : ∀ e, g.model.prior e = 0.0)
    (before : ∀ i other, a.Holds bound i other → other.logPrior = 0.0) :
    item.logPrior = 0.0 := by
  cases h with
  | seed => exact certain _
  | project => exact certain _
  | attach under =>
    have hm := before _ _ under
    rename_i side _ _ _
    cases side <;> exact hm
  | stop under =>
    have hm := before _ _ under
    exact hm
  | root => rfl

theorem Arena.Built.certain (built : a.Built g sentence) (certain : ∀ e, g.model.prior e = 0.0)
    {index : Nat} (h : a.built? index = some item) : item.logPrior = 0.0 :=
  built.induction (P := fun _ item => item.logPrior = 0.0) (fun _ _ h => h.certain certain) h

namespace Chart

structure Expanded (c : Chart) (g : Grammar) (index : Nat) (item : Item) : Prop where
  projections : ∀ y ∈ g.projections index item, c.Covers g.language y
  stop : ∀ y, (g.stop (c.arena.modificand index item)).built = some y → c.Covers g.language y

def Rootless (c : Chart) (g : Grammar) : Prop :=
  ∀ index item, c.arena.built? index = some item → item.label ≠ g.language.topLabel

variable {c next : Chart} {g : Grammar} {language : Language} {first last : Nat} {item : Item}
  {items : List Item} {taken : List Nat}

theorem Live.elsewhere {f l index : Nat} (live : next.Live f l index item)
    (grows : c.Grows next) (ok : c.Consistent language) (ok' : next.Consistent language)
    (same : ∀ label, next.groupAt f l label = c.groupAt f l label) : c.Live f l index item := by
  obtain ⟨label, e, he, hindex⟩ := live.listed
  exact live.before grows ok ok' ⟨label, e, same label ▸ he, hindex⟩

theorem Offered.rootless (h : Offered c next language first last items taken)
    (rootless : c.Rootless g) (hitems : ∀ item ∈ items, item.label ≠ g.language.topLabel) :
    next.Rootless g := by
  intro index item hitem
  rcases h.contents index item hitem with hitem | htaken
  · exact rootless index item hitem
  · obtain ⟨other, hother, hbuilt⟩ := h.new index htaken
    rw [hitem, Option.some.injEq] at hbuilt
    exact hbuilt ▸ hitems other hother

end Chart

namespace Search

variable {chart c mid next : Chart} {p q r : Progress} {s : Search} {first last i : Nat}
  {items : List Item} {frontier grown fresh taken : List Nat} {kind : Next} {rest : List Task}
  {x : Item}

/-- A decode in which nothing can be pruned. -/
structure Unpruned (g : Grammar) (chart : Chart) (sentence : Sentence) : Prop
    extends Discounted g chart sentence where
  certain : ∀ e, g.model.prior e = 0.0
  wide : g.settings.beamWidth = 1.0 / 0.0
  roomy : ∀ p, Passes g chart sentence p → ∀ first last, p.search.chart.Inside first last →
    ∀ label, (p.search.chart.groupAt first last label).size < g.settings.maxCellSize

structure Rounded (g : Grammar) (c next : Chart) (first last : Nat) : Prop where
  improves : c.Improves next
  rootless : c.Rootless g → next.Rootless g
  others : c.SameBut next first last

theorem Rounded.refl (ordered : c.Ordered g.language) : Rounded g c c first last :=
  ⟨.refl ordered, id, fun _ _ _ _ _ => rfl⟩

theorem Rounded.trans (h : Rounded g c mid first last) (h' : Rounded g mid next first last) :
    Rounded g c next first last where
  improves := h.improves.trans h'.improves
  rootless before := h'.rootless (h.rootless before)
  others := h.others.trans h.improves.grows h'.others

namespace Unpruned

variable (u : Unpruned g chart sentence)
include u

theorem ordered (h : Visits g chart sentence c) : c.Ordered g.language where
  consistent := (u.sound h).consistent
  ranked first last inside label := by
    have sound := u.sound h
    obtain ⟨offers, entered⟩ := u.tempered.entered h
    refine ⟨fun e he => ?_, (entered.contested first last inside label).ordered.imp And.left⟩
    obtain ⟨held, resides, describes⟩ := sound.consistent.placed first last inside label e he
    have weighed := u.weighed h (Arena.built?_of_items resides.stored)
    exact describes.score ▸ weighed.score_le_zero

theorem roomy_at (h : Visits g chart sentence c) : c.Roomy where
  beam := by rw [(u.sound h).settings, u.wide]
  size := by
    rw [(u.sound h).settings]
    obtain ⟨p, passes, rfl⟩ := h
    exact u.roomy p passes

theorem certain_at (h : Visits g chart sentence c) (hx : c.arena.built? i = some x) :
    x.Certain :=
  ⟨u.weighed h hx, (u.sound h).built.certain u.certain hx⟩

theorem certain_of_offerable (h : Visits g chart sentence c)
    (offerable : Offerable g sentence c.arena first last item) : item.Certain :=
  have built := (u.sound h).built
  ⟨offerable.weighed built u.discounts,
    offerable.builds.certain u.certain fun _ _ holds => built.certain u.certain holds.built⟩

theorem offered (row : Row g chart sentence first last c items taken next) :
    c.Offered next g.language first last items taken := by
  induction row with
  | nil visited => exact .refl (u.ordered visited)
  | cons offering inside one _ grows outcome row ih =>
    have visited := offering.visits
    have built := (u.sound visited).built
    have weighed := one.weighed built u.discounts
    have first := outcome.offered (u.ordered visited) (u.roomy_at visited) (one.inside inside)
      weighed.score_le_zero grows (one.hasHead built)
    rw [one.first, one.last] at first
    exact first.append ih
      (List.forall_mem_singleton.mpr ((one.hasHead built).extends grows.arena))
      (List.forall_mem_singleton.mpr (one.inside inside))

theorem covers_keeps (hc : Visits g chart sentence c) (improves : c.Improves next)
    (inside : c.Inside first last) (offerable : Offerable g sentence c.arena first last item)
    (h : c.Covers g.language item) : next.Covers g.language item :=
  h.improves improves (offerable.hasHead (u.sound hc).built) (offerable.inside inside)

theorem expanded_keeps (hc : Visits g chart sentence c) (improves : c.Improves next)
    (live : c.Live first last i item) (h : c.Expanded g i item) : next.Expanded g i item := by
  have sound := u.sound hc
  have resides := live.resides sound.consistent
  refine ⟨fun y hy => ?_, fun y hy => ?_⟩
  · exact u.covers_keeps hc improves live.inside
      (offerable_of_projection live.stored resides.first resides.last hy) (h.projections y hy)
  · rw [improves.grows.arena.modificand sound.consistent.linked (live.holds sound.consistent)] at hy
    exact u.covers_keeps hc improves live.inside
      (offerable_of_stop live.stored resides.first resides.last hy) (h.stop y hy)

theorem rootless (rows : Rows g chart sentence c mid next first last frontier grown fresh)
    (h : c.Rootless g) : next.Rootless g := by
  obtain ⟨items, row, mem⟩ := rows.projecting
  obtain ⟨stops, row', mem'⟩ := rows.stopping
  have before : mid.Rootless g := (u.offered row).rootless h fun y hy => by
    obtain ⟨k, -, head, -, hy⟩ := (mem y).mp hy
    obtain ⟨-, parent, left, right, projects, rfl⟩ := Grammar.mem_projections_iff.mp hy
    exact projects.notTop
  refine (u.offered row').rootless before fun y hy => ?_
  obtain ⟨j, -, m, stored, hstop⟩ := (mem' y).mp hy
  obtain ⟨-, -, rfl⟩ := Grammar.stop_built_iff.mp hstop
  exact before j m.copy (Arena.built?_of_items stored)

theorem rounded (rows : Rows g chart sentence c mid next first last frontier grown fresh) :
    Rounded g c next first last := by
  obtain ⟨_, row, -⟩ := rows.projecting
  obtain ⟨_, row', -⟩ := rows.stopping
  have offered := u.offered row
  have offered' := u.offered row'
  exact ⟨offered.improves.trans offered'.improves, u.rootless rows,
    offered.others.trans offered.improves.grows offered'.others⟩

end Unpruned

end Search

end HeadDriven
