import HeadDriven.Proofs.Derives
import HeadDriven.Proofs.Top

/-! Log probabilities along the links of items. Under a model that discounts an item costs all that
its constituents cost and the events that joined them, so a link never leads to a less probable
constituent. What an item does not pay for, the prior of its label and head word, stays the same
however it grows, and a top transition alone goes without it. -/
namespace HeadDriven

def Item.IsRoot (item : Item) (top : Symbol) : Prop :=
  item.label = top ∧ item.headChild.isSome = true

/-- The tree of an item is no more probable than any constituent it is linked to. -/
def Arena.Descends (a : Arena) (bound : Nat) (item : Item) : Prop :=
  ∀ child ∈ item.constituents, ∃ other, a.Holds bound child other ∧ item.logTree ≤ other.logTree

variable {g : Grammar} {sentence : Sentence} {a : Arena} {bound bound' index : Nat}
  {item other : Item}

theorem Arena.Descends.lower (h : a.Descends bound other) (hle : bound ≤ bound')
    (costs : item.logTree ≤ other.logTree) {child : Nat} (hc : child ∈ other.constituents) :
    ∃ x, a.Holds bound' child x ∧ item.logTree ≤ x.logTree := by
  obtain ⟨x, holds, le⟩ := h child hc
  exact ⟨x, holds.extends (.refl a) hle, LogProb.numbers_le_trans costs le⟩

theorem Builds.descends (h : Builds g sentence a bound item) (discounts : g.model.Discounts)
    (weighed : ∀ i other, a.Holds bound i other → other.Weighed)
    (before : ∀ i other, a.Holds bound i other → a.Descends i other) : a.Descends bound item := by
  intro child hc
  cases h with
  | seed => cases hc
  | project under h | root under _ h =>
    obtain rfl := List.mem_singleton.mp hc
    exact ⟨_, under, LogProb.add_le (weighed _ _ under).logTree (discounts.head _ h.event)⟩
  | @attach i j m d side under modifier joins h =>
    have hm := (weighed _ _ under).logTree
    have hd := (weighed _ _ modifier).logTree
    have costs : (g.attachment (a.modificand i m) (g.modifier a j d) side).logTree ≤
        m.logTree + d.logTree :=
      LogProb.add_le (LogProb.add_le_zero hm hd) (discounts.modifier _ h.event)
    rcases (g.mem_constituents_attachment _ _).mp hc with rfl | hc
    · exact ⟨d, modifier, LogProb.numbers_le_trans costs (LogProb.add_le_right hm hd)⟩
    · have below := LogProb.numbers_le_trans costs (LogProb.add_le hm hd)
      exact (before _ _ under).lower (Nat.le_of_lt under.below) below hc
  | @stop i m under h =>
    have below : (g.stoppedCopy (a.modificand i m)).logTree ≤ m.logTree :=
      LogProb.add_le (weighed _ _ under).logTree (discounts.damps.logStop h)
    exact (before _ _ under).lower (Nat.le_of_lt under.below) below hc

theorem Arena.Built.descends (built : a.Built g sentence) (discounts : g.model.Discounts)
    (h : a.built? index = some item) : a.Descends index item :=
  built.induction (P := a.Descends) (fun _ _ h before => h.descends discounts
    (fun _ _ holds => built.weighed discounts holds.built) before) h

theorem Arena.Built.logPrior_of_not_root (built : a.Built g sentence)
    (h : a.built? index = some item) (notRoot : ¬item.IsRoot g.language.topLabel) :
    item.logPrior = g.model.prior ⟨item.headWord, item.label⟩ := by
  by_cases top : item.label = g.language.topLabel
  · cases built index item h with
    | seed => rfl
    | project => rfl
    | attach under _ joins =>
      rw [Grammar.label_attachment] at top
      exact absurd top (built.label_ne_top under.built joins.growing)
    | stop under stops =>
      have grows := built.label_ne_top under.built stops.growing
      exact absurd top grows
    | root => exact absurd ⟨rfl, rfl⟩ notRoot
  · exact built.logPrior h top

/-- Log probabilities decrease along links: in every decode with a table that was read no log
probability of an item is above zero or undefined, and none is above that of a constituent that the
item is linked to. Two items with the same label and head word have the same prior, unless they are
top transitions. -/
theorem log_probs_decrease_along_links (frames : FrameKind) (text : String) (table : Model.Table)
    (language : Language) (settings : Settings) (earlier : List Sentence) (sentence : Sentence)
    (read : Model.Table.ofText frames text = .ok table) :
    let d := Decoder.after (table.grammar language settings) earlier
    (∀ (chart : Chart) (index : Nat) (item : Item), d.Visits sentence chart →
      chart.arena.items[index]? = some item →
      (item.logTree.isNaN = false ∧ item.logTree ≤ 0.0) ∧
      (item.logPrior.isNaN = false ∧ item.logPrior ≤ 0.0) ∧
      ∀ child ∈ item.constituents, ∃ other, chart.arena.items[child]? = some other ∧
        item.logTree ≤ other.logTree) ∧
    ∀ (chart chart' : Chart) (i j : Nat) (item other : Item), d.Visits sentence chart →
      d.Visits sentence chart' → chart.arena.items[i]? = some item →
      chart'.arena.items[j]? = some other → item.label = other.label →
      item.headWord = other.headWord → ¬item.IsRoot language.topLabel →
      ¬other.IsRoot language.topLabel → item.logPrior = other.logPrior := by
  intro d
  have discounts : (table.grammar language settings).model.Discounts :=
    (Model.Table.discounting_ofText read).model
  refine ⟨fun chart index item visited stored => ?_,
    fun chart chart' i j item other visited visited' stored stored' label word notRoot
      notRoot' => ?_⟩
  · have built := visited.sound_after.built
    have hbuilt := Arena.built?_of_items stored
    have weighed := built.weighed discounts hbuilt
    refine ⟨⟨(LogProb.numbers_of_le weighed.logTree).1, weighed.logTree⟩,
      ⟨(LogProb.numbers_of_le weighed.logPrior).1, weighed.logPrior⟩, fun child hc => ?_⟩
    obtain ⟨x, holds, le⟩ := built.descends discounts hbuilt child hc
    obtain ⟨other, hother, rfl⟩ := Arena.built?_eq_some_iff.mp holds.built
    exact ⟨other, hother, le⟩
  · have prior := visited.sound_after.built.logPrior_of_not_root (Arena.built?_of_items stored)
      notRoot
    have prior' := visited'.sound_after.built.logPrior_of_not_root (Arena.built?_of_items stored')
      notRoot'
    calc
      item.logPrior = table.model.prior ⟨item.headWord, item.label⟩ := prior
      _ = table.model.prior ⟨other.headWord, other.label⟩ := by rw [label, word]
      _ = other.logPrior := prior'.symm

namespace Sample

/-- `X` over the tag `A`, which takes one more `A` on its left, and has a prior. -/
def pricedText : String := "tags a A; prior X * = -5; head X A [] [] = -1;
  mod X A left A = -2; stop X A left = 0; stop X A right = 0;"

def pricedStatements : List Model.Statement := [
  .tags "a" ["A"], .prior "X" none (-5.0), .head "X" "A" [] [] (-1.0),
  .modifier "X" "A" .left "A" (-2.0), .stop "X" "A" .left 0.0, .stop "X" "A" .right 0.0]

def pricedTable : Model.Table := Model.Table.ofStatements .bag pricedStatements

theorem ofText_pricedText : Model.Table.ofText .bag pricedText = .ok pricedTable := by
  have read : Model.statements pricedText = .ok pricedStatements :=
    Outcome.eq_ok_of_toOption (by decide +kernel)
  rw [Model.Table.ofText, read]
  rfl

def pricedGrammar : Grammar := pricedTable.grammar Language.plain Settings.default

def words : Sentence := [.known ⟨4⟩ [], .known ⟨4⟩ []]

end Sample

/-- Over `a a` the item of `X` with a modifier is no more probable than this modifier, and has the
prior of the item without. -/
theorem sample_log_probs_decrease :
    ∃ chart x y modifier, (Decoder.after Sample.pricedGrammar []).Visits Sample.words chart ∧
      chart.arena.items[4]? = some x ∧ chart.arena.items[7]? = some y ∧
      y.constituents = [0, 3] ∧ chart.arena.items[0]? = some modifier ∧
      y.logTree.isNaN = false ∧ y.logTree ≤ 0.0 ∧ y.logTree ≤ modifier.logTree ∧
      x.logPrior = -5.0 ∧ y.logPrior = x.logPrior := by
  obtain ⟨links, priors⟩ := log_probs_decrease_along_links .bag Sample.pricedText
    Sample.pricedTable Language.plain Settings.default [] Sample.words Sample.ofText_pricedText
  obtain ⟨chart, visited, h⟩ := Decoder.exists_visited Sample.pricedGrammar Sample.words
    (fun chart => chart.arena.items[4]?.any fun x => chart.arena.items[7]?.any fun y =>
      x.label ≠ Language.plain.topLabel && x.label = y.label && x.headWord = y.headWord &&
        y.constituents = [0, 3] && x.logPrior = -5.0) (by decide +kernel) (by decide +kernel)
  obtain ⟨x, hx, h⟩ := (Option.any_eq_true _ _).mp h
  obtain ⟨y, hy, h⟩ := (Option.any_eq_true _ _).mp h
  simp only [Bool.and_eq_true, decide_eq_true_eq] at h
  obtain ⟨⟨⟨⟨notTop, label⟩, word⟩, children⟩, prior⟩ := h
  obtain ⟨⟨number, below⟩, -, each⟩ := links chart 7 y visited hy
  obtain ⟨modifier, hmodifier, le⟩ := each 0 (children ▸ by decide)
  have same := priors chart chart 7 4 y x visited visited hy hx label.symm word.symm
    (fun root => notTop (label.trans root.1)) (fun root => notTop root.1)
  exact ⟨chart, x, y, modifier, visited, hx, hy, children, hmodifier, number, below, le, prior,
    same⟩

end HeadDriven
