import HeadDriven.Proofs.Visits

/-! Decoding one sentence after another. What a decoder has decoded before can be told from
its history cache alone, and nothing it answers depends on that cache. -/
namespace HeadDriven

namespace Search

theorem run_congr (g : Grammar) {c c' : Chart} {sentence : Sentence}
    (h : c.resized sentence.length = c'.resized sentence.length) :
    run g c sentence = run g c' sentence := by
  simp only [run, h]

end Search

theorem Chart.resized_congr {c c' : Chart} (settings : c.settings = c'.settings) (size : Nat) :
    c.resized size = c'.resized size := by
  rw [resized_eq, resized_eq, settings]

namespace Decoder

variable {g : Grammar} {d d' : Decoder} {sentence : Sentence}

/-- Two decoders of one grammar do the same to a sentence that they do not skip, but for their
histories. -/
theorem decode_congr (coherent : d.Coherent) (coherent' : d'.Coherent)
    (same : d.grammar = d'.grammar) (h : skips d.grammar sentence = false) :
    ∃ histories, d.decode sentence =
      ({ (d'.decode sentence).1 with histories }, (d'.decode sentence).2) := by
  have settings : d.chart.settings = d'.chart.settings := by
    rw [coherent.settings, coherent'.settings, same]
  have chart := Chart.resized_congr settings sentence.length
  have words := ne_nil_of_skips h
  have h' : skips d'.grammar sentence = false := same ▸ h
  obtain ⟨next, -, hfill⟩ := Search.fill_eq coherent.settings words coherent.histories
  obtain ⟨next', -, hfill'⟩ := Search.fill_eq coherent'.settings words coherent'.histories
  rw [Search.run_congr _ chart, same, chart] at hfill
  simp only [decode, h', prepare, same, chart, hfill, hfill', Bool.false_eq_true, if_false]
  cases Search.run d'.grammar d'.chart sentence with
  | error fault => exact ⟨d.histories, rfl⟩
  | ok s =>
    refine ⟨next, ?_⟩
    simp only [Outcome.map_ok]
    cases best? d'.grammar s.chart sentence with
    | error fault => rfl
    | ok found => cases found <;> rfl

theorem lastTopScore_decode (d : Decoder) (sentence : Sentence) (score : Float) :
    (d.decode sentence).1.lastTopScore = some score ↔
      ∃ found, (d.decode sentence).2 = .ok (.parse found) ∧ found.score = score := by
  simp only [decode, prepare]
  split
  · simp
  · split
    · simp
    · split <;> simp

/-- A decoder answers as a fresh one does, and is left with the same last score; if the sentence
is not skipped, it is left with the same chart. -/
theorem reused_as_fresh (g : Grammar) (earlier : List Sentence) (sentence : Sentence) :
    let used := (after g earlier).decode sentence
    let fresh := (ofGrammar g).decode sentence
    used.2 = fresh.2 ∧ used.1.lastTopScore = fresh.1.lastTopScore ∧
      (skips g sentence = false → used.1.chart = fresh.1.chart) ∧
      ∀ score, used.1.lastTopScore = some score ↔
        ∃ found, used.2 = .ok (.parse found) ∧ found.score = score := by
  intro used fresh
  obtain ⟨hg, coherent⟩ := coherent_after g earlier
  have scores (score : Float) := lastTopScore_decode (after g earlier) sentence score
  cases h : skips g sentence with
  | true =>
    have hused : used = _ := decode_skipped (d := after g earlier) (by rw [hg]; exact h)
    have hfresh : fresh = _ := decode_skipped (d := ofGrammar g) h
    refine ⟨by rw [hused, hfresh], by rw [hused, hfresh], fun hskips => ?_, scores⟩
    cases hskips
  | false =>
    obtain ⟨histories, same⟩ := decode_congr coherent (coherent_ofGrammar g) hg (hg.symm ▸ h)
    have same : used = ({ fresh.1 with histories }, fresh.2) := same
    rw [same]
    exact ⟨rfl, rfl, fun _ => rfl, same ▸ scores⟩

end Decoder

end HeadDriven
