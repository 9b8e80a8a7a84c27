import HeadDriven.Proofs.Optimality
import HeadDriven.Proofs.Search.Exhausting

/-! Closing a cell ends, and ends for good. This needs no more of a model than that its head
and stop events discount and that all scores are numbers, so that there may be unary cycles,
also of certain events, and whatever is pruned on the way. -/
namespace HeadDriven

open Search

namespace Decoder

/-- Everything that is offered in the decode of a sentence scores a number other than plus
infinity. -/
def ScoresNumbers (d : Decoder) (sentence : Sentence) : Prop :=
  ∀ p, d.Passes sentence p → ∀ first last item, p.Offers first last item →
    LogProb.Bounded item.score

/-- A decode in which every cell that is closed settles. -/
structure Tempers (d : Decoder) (sentence : Sentence) : Prop where
  damps : d.grammar.model.Damps
  scores : d.ScoresNumbers sentence
  beam : 0.0 ≤ d.grammar.settings.beamWidth
  room : 1 ≤ d.grammar.settings.maxCellSize

variable {g : Grammar} {d : Decoder} {sentence : Sentence} {earlier : List Sentence}

theorem Tempers.tempered (h : d.Tempers sentence)
    (settings : d.chart.settings = d.grammar.settings)
    (taken : skips d.grammar sentence = false) : Tempered d.grammar d.chart sentence where
  settings := settings
  words := ne_nil_of_skips taken
  damps := h.damps
  bounded := by
    rintro _ first last item ⟨p, passes, rfl, offers⟩
    exact h.scores p ⟨taken, passes⟩ first last item offers
  beam := h.beam
  room := h.room

theorem tempers_of_discounts (settings : d.chart.settings = d.grammar.settings)
    (discounts : d.grammar.model.Discounts) (beam : 0.0 ≤ d.grammar.settings.beamWidth)
    (room : 1 ≤ d.grammar.settings.maxCellSize) : d.Tempers sentence where
  damps := discounts.damps
  scores := by
    intro p passes first last item offers
    have discounted : Discounted d.grammar d.chart sentence :=
      ⟨settings, ne_nil_of_skips passes.1, discounts, beam, room⟩
    exact discounted.tempered.bounded _ first last item ⟨p, passes.2, rfl, offers⟩
  beam := beam
  room := room

theorem passes_first_close {token : Token} {others : Sentence}
    (settings : d.chart.settings = d.grammar.settings)
    (taken : skips d.grammar (token :: others) = false) :
    ∃ s rest, d.Passes (token :: others) ⟨s, .close 0 0 :: rest⟩ := by
  have words : token :: others ≠ [] := List.cons_ne_nil token others
  have offering : Search.Passes d.grammar d.chart (token :: others)
      ⟨(start d.chart (token :: others)).search,
        .offers 0 0 (d.grammar.preterminals 0 token) [] .close ::
          (start d.chart (token :: others)).agenda.tail⟩ := .step .refl rfl
  obtain ⟨s, more, -, passes, -⟩ := offering.offers settings words
  exact ⟨s, _, taken, passes⟩

end Decoder

namespace Sample

/-- `X` over the tag `A`, and `X` and `Y` over each other at no cost. -/
def cyclicTable : Model.Table := Model.Table.ofStatements .bag [
  .tags "a" ["A"], .head "X" "A" [] [] (-1.0), .head "Y" "X" [] [] 0.0, .head "X" "Y" [] [] 0.0,
  .stop "X" "A" .left 0.0, .stop "X" "A" .right 0.0, .stop "Y" "X" .left 0.0,
  .stop "Y" "X" .right 0.0, .stop "X" "Y" .left 0.0, .stop "X" "Y" .right 0.0,
  .head "+TOP+" "Y" [] [] 0.0]

def narrow : Settings := { Settings.default with pruneFactor := 0.0, maxCellSize := 1 }

def cyclicGrammar : Grammar := cyclicTable.grammar Language.plain narrow

def word : Sentence := [.known ⟨4⟩ []]

theorem cyclic_tempers : (Decoder.after cyclicGrammar []).Tempers word :=
  Decoder.tempers_of_discounts rfl
    (Model.Table.discounting_ofStatements (by decide +kernel)).model (by decide +kernel) (by decide)

end Sample

theorem Model.Table.damps_ofText {frames : FrameKind} {text : String} {table : Model.Table}
    (read : Model.Table.ofText frames text = .ok table) : table.model.Damps :=
  (Model.Table.discounting_ofText read).model.damps

/-- Closing a cell ends, whatever the language policy, unary cycles, beam and cap, under every
model whose head and stop events discount, those that are read among them. The rounds are at
most one more than the keys that finished constituents of the span have in the decode, and of
each label these are at most two for a round to find. -/
theorem cells_settle :
    (∀ frames text table, Model.Table.ofText frames text = .ok table → table.model.Damps) ∧
    ∀ (g : Grammar) (earlier : List Sentence) (sentence : Sentence),
      let d := Decoder.after g earlier
      d.Tempers sentence → ∀ s first last rest,
        d.Passes sentence ⟨s, .close first last :: rest⟩ →
        ∃ present rounds t, s.chart.cellItems first last = .ok present ∧
          Settles g first last s present rounds t ∧
          (∀ keys : Finset Key, (∀ key, FinishedKey g d.chart sentence first last key →
            key ∈ keys) → rounds ≤ keys.card + 1) ∧
          rounds ≤ 2 * g.model.nonterminals.length + 1 ∧
          s.close g first last = .ok t ∧ d.Passes sentence ⟨t, rest⟩ := by
  refine ⟨fun _ _ _ => Model.Table.damps_ofText, fun g earlier sentence => ?_⟩
  intro d tempers s first last rest ⟨taken, passes⟩
  obtain ⟨hg, settings⟩ := Decoder.after_keeps g earlier
  have hg : d.grammar = g := hg
  have tempered := tempers.tempered (hg ▸ settings) taken
  rw [hg] at tempered passes
  obtain ⟨rounds, few, t, closure, done⟩ := tempered.close passes
  obtain ⟨present, listed, settles⟩ := closure.present
  refine ⟨present, rounds, t, listed, settles, fun keys all => ?_, few, closure.result,
    ⟨taken, hg ▸ done⟩⟩
  exact tempered.rounds_le passes closure all

/-- Over the word `a` there are at most seven rounds, though the cycle never ends. -/
theorem sample_settles :
    let d := Decoder.after Sample.cyclicGrammar []
    d.Tempers Sample.word ∧ ∃ s rest, d.Passes Sample.word ⟨s, .close 0 0 :: rest⟩ ∧
      ∃ present rounds t, s.chart.cellItems 0 0 = .ok present ∧
        Settles Sample.cyclicGrammar 0 0 s present rounds t ∧ rounds ≤ 7 := by
  intro d
  obtain ⟨s, rest, passes⟩ := Decoder.passes_first_close (d := d) rfl
    (show Decoder.skips Sample.cyclicGrammar Sample.word = false by decide)
  obtain ⟨present, rounds, t, listed, settles, -, few, -⟩ := cells_settle.2 Sample.cyclicGrammar []
    Sample.word Sample.cyclic_tempers s 0 0 rest passes
  exact ⟨Sample.cyclic_tempers, s, rest, passes, present, rounds, t, listed, settles,
    Nat.le_trans few (by decide +kernel)⟩

/-- A closed cell stays as it is: of each item that has a place in it, all that projections and
stopping make is turned away if it is offered again, so closing the cell once more changes
neither places nor items. -/
theorem closed_cells_stay (g : Grammar) (earlier : List Sentence) (sentence : Sentence)
    (tempers : (Decoder.after g earlier).Tempers sentence) (s : Search) (first last : Nat)
    (rest : List Task)
    (passes : (Decoder.after g earlier).Passes sentence ⟨s, .close first last :: rest⟩) :
    ∃ t, s.close g first last = .ok t ∧
      (∀ index item, t.chart.Live first last index item → ∀ y,
        y ∈ g.projections index item ∨
          (g.stop (t.chart.arena.modificand index item)).built = some y →
        ∃ next, t.chart.add g.language first last y = .ok (next, none) ∧
          next.cells = t.chart.cells ∧ next.arena.items = t.chart.arena.items) ∧
      ∃ u, t.close g first last = .ok u ∧
        u.chart.cells = t.chart.cells ∧ u.chart.arena.items = t.chart.arena.items := by
  obtain ⟨taken, passes⟩ := passes
  obtain ⟨hg, settings⟩ := Decoder.after_keeps g earlier
  have tempered := tempers.tempered (settings.trans (congrArg Grammar.settings hg).symm) taken
  rw [hg] at tempered passes
  obtain ⟨rounds, -, t, closure, done⟩ := tempered.close passes
  have exhausted := tempered.close_exhausts passes closure
  have sound : t.chart.Sound g sentence := tempered.sound done.visits
  have inside : t.chart.Inside first last := by
    obtain ⟨before, ready⟩ := passes.sound tempered.settings tempered.words
    have before : s.chart.Sound g sentence := before
    obtain ⟨hle, hlt⟩ : s.chart.Inside first last :=
      ready (.close first last) List.mem_cons_self
    exact ⟨hle, by rwa [sound.size, ← before.size]⟩
  refine ⟨t, closure.result, fun index item live y hy => ?_, ?_⟩
  · obtain ⟨next, hadd, retains, -⟩ : ∃ next, t.chart.add g.language first last y =
        .ok (next, none) ∧ t.chart.Retains next ∧ next.Sound g sentence := by
      rcases hy with hy | hy
      · exact add_of_turnsAway sound inside (offerable_projection sound live hy)
          (exhausted.projections index item live y hy)
      · exact add_of_turnsAway sound inside (offerable_stop sound live hy)
          (exhausted.stop index item live y hy)
    exact ⟨next, hadd, retains.cells, retains.items⟩
  · obtain ⟨u, hclose, retains⟩ := close_of_exhausted sound inside exhausted
    exact ⟨u, hclose, retains.cells, retains.items⟩

/-- Over the word `a` the cell of the cyclic model is closed once and for all. -/
theorem sample_stays :
    let d := Decoder.after Sample.cyclicGrammar []
    d.Tempers Sample.word ∧ ∃ s rest, d.Passes Sample.word ⟨s, .close 0 0 :: rest⟩ ∧
      ∃ t, s.close Sample.cyclicGrammar 0 0 = .ok t ∧
        ∃ u, t.close Sample.cyclicGrammar 0 0 = .ok u ∧ u.chart.cells = t.chart.cells ∧
          u.chart.arena.items = t.chart.arena.items := by
  intro d
  obtain ⟨s, rest, passes⟩ := Decoder.passes_first_close (d := d) rfl
    (show Decoder.skips Sample.cyclicGrammar Sample.word = false by decide)
  obtain ⟨t, hclose, -, again⟩ := closed_cells_stay Sample.cyclicGrammar [] Sample.word
    Sample.cyclic_tempers s 0 0 rest passes
  exact ⟨Sample.cyclic_tempers, s, rest, passes, t, hclose, again⟩

end HeadDriven
