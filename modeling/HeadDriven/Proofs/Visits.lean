import HeadDriven.Model.Table
import HeadDriven.Proofs.Search.Caching
import HeadDriven.Proofs.Search.Rows

/-! The charts that a decoder goes through. A decoder keeps its grammar, its chart keeps
the grammar's settings and its cache stays sound, whatever it has decoded before. While it
decodes a sentence it visits the charts at all points of that decode; the last of them is
the chart that it is left with. -/
namespace HeadDriven

def Decoded.score? : Decoded → Option Float
  | .parse found => some found.score
  | .noParse _ => none

namespace Decoder

def after (g : Grammar) (sentences : List Sentence) : Decoder :=
  sentences.foldl (fun d sentence => (d.decode sentence).1) (ofGrammar g)

/-- The points of the decode of a sentence. A sentence that is skipped has none. -/
def Passes (d : Decoder) (sentence : Sentence) (p : Search.Progress) : Prop :=
  skips d.grammar sentence = false ∧ Search.Passes d.grammar d.chart sentence p

def Visits (d : Decoder) (sentence : Sentence) (chart : Chart) : Prop :=
  ∃ p, d.Passes sentence p ∧ p.search.chart = chart

variable {g : Grammar} {d : Decoder} {sentence : Sentence} {chart : Chart} {s : Search}
  {p : Search.Progress}

theorem ne_nil_of_skips (h : skips g sentence = false) : sentence ≠ [] := by
  rintro rfl
  cases h

/-- A decoder whose chart has the settings of its grammar and whose cache is sound. -/
structure Coherent (d : Decoder) : Prop where
  settings : d.chart.settings = d.grammar.settings
  histories : d.histories.Sound d.grammar.settings.historyWindow

theorem coherent_ofGrammar (g : Grammar) : (ofGrammar g).Coherent where
  settings := rfl
  histories := HistoryCache.sound_empty g.settings.historyWindow

theorem decode_eq (coherent : d.Coherent) (h : skips d.grammar sentence = false)
    (hrun : Search.run d.grammar d.chart sentence = .ok s) :
    (d.decode sentence).1.grammar = d.grammar ∧ (d.decode sentence).1.chart = s.chart ∧
      (d.decode sentence).2 = (best? d.grammar s.chart sentence).map fun found =>
        found.elim (.noParse sentence) .parse := by
  obtain ⟨next, -, hfill⟩ :=
    Search.fill_eq coherent.settings (ne_nil_of_skips h) coherent.histories
  rw [hrun] at hfill
  simp only [decode, h, prepare, hfill, Outcome.map_ok, Bool.false_eq_true, if_false]
  cases best? d.grammar s.chart sentence with
  | error fault => exact ⟨rfl, rfl, rfl⟩
  | ok found => cases found <;> exact ⟨rfl, rfl, rfl⟩

theorem decode_error (coherent : d.Coherent) (h : skips d.grammar sentence = false)
    {fault : Fault} (hrun : Search.run d.grammar d.chart sentence = .error fault) :
    d.decode sentence =
      ({ d with asked := #[], lastTopScore := none : Decoder }.prepare sentence, .error fault) := by
  obtain ⟨next, -, hfill⟩ :=
    Search.fill_eq coherent.settings (ne_nil_of_skips h) coherent.histories
  rw [hrun] at hfill
  simp only [decode, h, prepare, hfill, Except.map, Bool.false_eq_true, if_false]

theorem decode_skipped (h : skips d.grammar sentence = true) : d.decode sentence =
    ({ d with asked := #[], lastTopScore := none }, .ok (.noParse sentence)) := by
  simp only [decode, h, if_true]

theorem visits_run (h : skips d.grammar sentence = false)
    (settings : d.chart.settings = d.grammar.settings)
    (hrun : Search.run d.grammar d.chart sentence = .ok s) : d.Visits sentence s.chart := by
  rcases Search.run_passes settings (ne_nil_of_skips h) with ⟨t, ht, passes⟩ | ⟨ht, -⟩
  · rw [hrun, Except.ok.injEq] at ht
    exact ⟨_, ⟨h, passes⟩, ht ▸ rfl⟩
  · rw [hrun] at ht
    cases ht

/-- A decode whose search fails visits a chart with more items than there are positions. -/
theorem run_overflows (h : skips d.grammar sentence = false)
    (settings : d.chart.settings = d.grammar.settings) {fault : Fault}
    (fails : Search.run d.grammar d.chart sentence = .error fault) :
    fault = .arenaOverflow ∧
      ∃ chart, d.Visits sentence chart ∧ Arena.capacity < chart.arena.size := by
  obtain ⟨full, chart, ⟨p, passes, rfl⟩, size⟩ :=
    Search.run_overflows settings (ne_nil_of_skips h) fails
  exact ⟨full, _, ⟨p, ⟨h, passes⟩, rfl⟩, size⟩

theorem Passes.sound (h : d.Passes sentence p)
    (settings : d.chart.settings = d.grammar.settings) : p.Sound d.grammar sentence :=
  Search.Passes.sound h.2 settings (ne_nil_of_skips h.1)

theorem Visits.sound (h : d.Visits sentence chart)
    (settings : d.chart.settings = d.grammar.settings) : chart.Sound d.grammar sentence := by
  obtain ⟨p, passes, rfl⟩ := h
  exact (passes.sound settings).chart

theorem decode_histories (coherent : d.Coherent) (sentence : Sentence) :
    (d.decode sentence).1.grammar = d.grammar ∧
      (d.decode sentence).1.histories.Sound d.grammar.settings.historyWindow := by
  cases hskips : skips d.grammar sentence with
  | true =>
    rw [decode_skipped hskips]
    exact ⟨rfl, coherent.histories⟩
  | false =>
    obtain ⟨next, sound, hfill⟩ :=
      Search.fill_eq coherent.settings (ne_nil_of_skips hskips) coherent.histories
    cases hrun : Search.run d.grammar d.chart sentence with
    | error fault =>
      rw [decode_error coherent hskips hrun]
      exact ⟨rfl, coherent.histories⟩
    | ok s =>
      rw [hrun] at hfill
      simp only [decode, hskips, prepare, hfill, Outcome.map_ok, Bool.false_eq_true, if_false]
      cases best? d.grammar s.chart sentence with
      | error fault => exact ⟨rfl, sound⟩
      | ok found => cases found <;> exact ⟨rfl, sound⟩

theorem decode_keeps (coherent : d.Coherent) (sentence : Sentence) :
    (d.decode sentence).1.grammar = d.grammar ∧ (d.decode sentence).1.Coherent := by
  obtain ⟨hg, histories⟩ := decode_histories coherent sentence
  refine ⟨hg, ?_, by rwa [hg]⟩
  rw [hg]
  cases hskips : skips d.grammar sentence with
  | true =>
    rw [decode_skipped hskips]
    exact coherent.settings
  | false =>
    cases hrun : Search.run d.grammar d.chart sentence with
    | error fault =>
      rw [decode_error coherent hskips hrun]
      exact coherent.settings
    | ok s =>
      rw [(decode_eq coherent hskips hrun).2.1]
      exact ((visits_run hskips coherent.settings hrun).sound coherent.settings).settings

theorem coherent_after (g : Grammar) (sentences : List Sentence) :
    (after g sentences).grammar = g ∧ (after g sentences).Coherent := by
  suffices general : ∀ d : Decoder, d.grammar = g → d.Coherent →
      (sentences.foldl (fun d sentence => (d.decode sentence).1) d).grammar = g ∧
        (sentences.foldl (fun d sentence => (d.decode sentence).1) d).Coherent from
    general _ rfl (coherent_ofGrammar g)
  induction sentences with
  | nil => exact fun d hg coherent => ⟨hg, coherent⟩
  | cons sentence sentences ih =>
    rintro d rfl coherent
    obtain ⟨hg, coherent'⟩ := decode_keeps coherent sentence
    exact ih _ hg coherent'

theorem after_keeps (g : Grammar) (sentences : List Sentence) :
    (after g sentences).grammar = g ∧ (after g sentences).chart.settings = g.settings := by
  obtain ⟨hg, coherent⟩ := coherent_after g sentences
  exact ⟨hg, coherent.settings.trans (congrArg Grammar.settings hg)⟩

theorem Visits.sound_after {earlier : List Sentence}
    (h : (after g earlier).Visits sentence chart) : chart.Sound g sentence := by
  obtain ⟨hg, settings⟩ := after_keeps g earlier
  have sound := h.sound (settings.trans (congrArg Grammar.settings hg).symm)
  rwa [hg] at sound

theorem Passes.sound_after {earlier : List Sentence}
    (h : (after g earlier).Passes sentence p) : p.Sound g sentence := by
  obtain ⟨hg, settings⟩ := after_keeps g earlier
  have sound := h.sound (settings.trans (congrArg Grammar.settings hg).symm)
  rwa [hg] at sound

theorem exists_visited (g : Grammar) (sentence : Sentence) (check : Chart → Bool)
    (hskips : skips g sentence = false)
    (h : (Search.run g (ofGrammar g).chart sentence).toOption.any (check ·.chart) = true) :
    ∃ chart, (after g []).Visits sentence chart ∧ check chart = true := by
  cases hrun : Search.run g (ofGrammar g).chart sentence with
  | error fault =>
    rw [hrun] at h
    cases h
  | ok s =>
    rw [hrun] at h
    exact ⟨s.chart, visits_run (d := ofGrammar g) hskips rfl hrun, h⟩

end Decoder

namespace Sample

/-- A constituent `X` over the tag `A`, which requires a `B` on its right and may have another
on its left. -/
def table : Model.Table := Model.Table.ofStatements .bag [
  .tags "a" ["A"], .tags "b" ["B"],
  .head "X" "A" [] ["B"] (-1.0), .modifier "X" "A" .right "B" (-2.0),
  .modifier "X" "A" .left "B" (-3.0), .stop "X" "A" .left (-1.0), .stop "X" "A" .right (-1.0),
  .head "+TOP+" "X" [] [] (-1.0)]

def grammar : Grammar := ⟨table.model, Language.plain, Settings.default⟩

def sentence : Sentence := [.known ⟨6⟩ [], .known ⟨4⟩ [], .known ⟨6⟩ []]

end Sample

end HeadDriven
