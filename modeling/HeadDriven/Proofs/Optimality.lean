import HeadDriven.Proofs.Dominance
import HeadDriven.Proofs.Top

/-! Optimality of the search. A decode that prunes nothing fills its chart, finishes with
the top transitions of what fills the whole sentence, and reads the best of them off the
top group. So it finds a parse whenever the table licenses a derivation, and the best one. -/
namespace HeadDriven

variable {language : Language} {sentence : Sentence}

/-- The answer to the question for the best of some derivations, given by their log
probabilities. -/
def AnswersBest (derivations : Float → Prop) : Except Fault Decoded → Prop
  | .ok (.parse found) => (∃ v, derivations v ∧ found.score == v) ∧
    ∀ v, derivations v → v ≤ found.score
  | .ok (.noParse _) => ¬∃ v, derivations v
  | .error _ => False

/-- An answer that is no parse, or a parse with the log probability of some derivation. -/
def AnswersSome (derivations : Float → Prop) : Except Fault Decoded → Prop
  | .ok (.parse found) => ∃ v, derivations v ∧ found.score == v
  | .ok (.noParse _) => True
  | .error _ => False

namespace Search

variable {t : Model.Table} {settings : Settings} {chart : Chart} {p : Progress} {s : Search}
  {reply : Except Fault Decoded}

/-- What is read off the last chart of a decode that prunes nothing: no parse if the top group is
empty, else a parse with the score of its best entry, which is a derivation. -/
theorem Saturated.reads (f : Saturated t language settings sentence chart p)
    (ends : Passes (t.grammar language settings) chart sentence ⟨s, []⟩)
    (finishes : Finishes (t.grammar language settings) p.search s (sentence.length - 1))
    (h : reply = (Decoder.best? (t.grammar language settings) s.chart sentence).map fun found =>
      found.elim (.noParse sentence) .parse) :
    match (s.chart.groupAt 0 (sentence.length - 1) language.topLabel).best? with
    | none => reply = .ok (.noParse sentence)
    | some e => ∃ found, reply = .ok (.parse found) ∧ found.score = e.score ∧
      ∃ v, DerivesSentence t language settings sentence v ∧ found.score == v := by
  have sound : s.chart.Sound (t.grammar language settings) sentence :=
    f.unpruned.sound ends.visits
  have best := Decoder.best?_eq sound f.unpruned.words
  rw [← h] at best
  split at best
  · rename_i none
    simp only [show (s.chart.groupAt 0 (sentence.length - 1) language.topLabel).best? = _ from none]
    exact best
  · rename_i e hbest
    simp only
      [show (s.chart.groupAt 0 (sentence.length - 1) language.topLabel).best? = _ from hbest]
    obtain ⟨root, resides, describes, hroot⟩ := best
    have live : s.chart.Live 0 (sentence.length - 1) e.index root :=
      ⟨f.inside_whole ends, ⟨_, e, List.mem_of_mem_head? hbest, rfl⟩, resides.stored⟩
    obtain ⟨k, x, under, htop⟩ := finishes.roots e.index root live resides.label
    have certain := f.unpruned.certain_at ends.visits (live.built? sound.consistent)
    have hhead : root.headChild = some k := by
      rw [(Grammar.root?_eq_some_iff.mp htop).2.2]
      rfl
    rw [hhead] at hroot
    obtain ⟨tree, -, hreply⟩ := hroot
    refine ⟨_, hreply, describes.score.symm, root.logTree, f.derives_top under htop, ?_⟩
    rw [Item.score, certain.certain]
    exact LogProb.add_zero_beq certain.logTree

theorem Saturated.answers (f : Saturated t language settings sentence chart p)
    (ends : Passes (t.grammar language settings) chart sentence ⟨s, []⟩)
    (finishes : Finishes (t.grammar language settings) p.search s (sentence.length - 1))
    (h : reply = (Decoder.best? (t.grammar language settings) s.chart sentence).map fun found =>
      found.elim (.noParse sentence) .parse) :
    AnswersSome (DerivesSentence t language settings sentence) reply := by
  have reads := f.reads ends finishes h
  split at reads
  · rw [reads]
    trivial
  · obtain ⟨found, hreply, -, derives⟩ := reads
    rw [hreply]
    exact derives

theorem Telling.answer (f : Telling t language settings sentence chart p)
    (ends : Passes (t.grammar language settings) chart sentence ⟨s, []⟩)
    (finishes : Finishes (t.grammar language settings) p.search s (sentence.length - 1))
    (h : reply = (Decoder.best? (t.grammar language settings) s.chart sentence).map fun found =>
      found.elim (.noParse sentence) .parse) :
    AnswersBest (DerivesSentence t language settings sentence) reply := by
  have reads := f.reads ends finishes h
  split at reads
  · rename_i none
    rw [reads]
    rintro ⟨v, h⟩
    obtain ⟨e, he, -⟩ := f.exists_top finishes h
    rw [LabelGroup.best?, List.head?_eq_none_iff] at none
    exact absurd (none ▸ he) List.not_mem_nil
  · rename_i e hbest
    obtain ⟨found, hreply, hscore, derives⟩ := reads
    rw [hreply]
    refine ⟨derives, fun v h => ?_⟩
    obtain ⟨e', he', hle⟩ := f.exists_top finishes h
    have ranked := (f.unpruned.ordered ends.visits).ranked _ _ (f.inside_whole ends)
      language.topLabel
    rw [hscore]
    exact LogProb.numbers_le_trans hle (ranked.le_best hbest he')

theorem Full.answer (f : Full t language settings sentence chart p)
    (ends : Passes (t.grammar language settings) chart sentence ⟨s, []⟩)
    (finishes : Finishes (t.grammar language settings) p.search s (sentence.length - 1))
    (h : reply = (Decoder.best? (t.grammar language settings) s.chart sentence).map fun found =>
      found.elim (.noParse sentence) .parse) :
    AnswersBest (DerivesSentence t language settings sentence) reply :=
  f.telling.answer ends finishes h

end Search

/-- A decode that cannot prune anything: the beam takes in everything, and no group of the
charts it visits is full. -/
structure Decoder.PrunesNothing (d : Decoder) (sentence : Sentence) : Prop where
  beam : d.grammar.settings.beamWidth = 1.0 / 0.0
  roomy : ∀ chart, d.Visits sentence chart → ∀ first last, chart.Inside first last → ∀ label,
    (chart.groupAt first last label).size < d.grammar.settings.maxCellSize

theorem Chart.Consistent.group_size_le {c : Chart} {first last : Nat} (ok : c.Consistent language)
    (inside : c.Inside first last) (label : Symbol) :
    (c.groupAt first last label).size ≤ c.arena.size := by
  have below : (c.groupAt first last label).entries.map Entry.index ⊆
      List.range c.arena.size := by
    intro index hindex
    obtain ⟨e, he, rfl⟩ := List.mem_map.mp hindex
    obtain ⟨item, resides, -⟩ := ok.placed first last inside label e he
    exact List.mem_range.mpr (Array.getElem?_eq_some_iff.mp resides.stored).choose
  have := (List.Nodup.subperm (ok.distinct first last inside label).indices below).length_le
  simpa [LabelGroup.size] using this

theorem Decoder.prunesNothing_of_run {d : Decoder} {s : Search}
    (settings : d.chart.settings = d.grammar.settings)
    (beam : d.grammar.settings.beamWidth = 1.0 / 0.0)
    (hrun : Search.run d.grammar d.chart sentence = .ok s)
    (hsize : s.chart.arena.size < d.grammar.settings.maxCellSize) : d.PrunesNothing sentence where
  beam := beam
  roomy := by
    rintro chart ⟨p, passes, rfl⟩ first last inside label
    have sound := passes.sound settings
    have ends := Search.run_follows d.grammar d.chart sentence
    rw [hrun] at ends
    have grows := (passes.2.leads_end ends rfl).grows sound
    exact Nat.lt_of_le_of_lt (Nat.le_trans (sound.chart.consistent.group_size_le inside label)
      grows.arena.size_le) hsize

theorem Decoder.PrunesNothing.unpruned {d : Decoder} (prunes : d.PrunesNothing sentence)
    (hskips : skips d.grammar sentence = false)
    (settings : d.chart.settings = d.grammar.settings) (discounts : d.grammar.model.Discounts)
    (certain : ∀ e, d.grammar.model.prior e = 0.0) :
    Search.Unpruned d.grammar d.chart sentence := by
  have words := ne_nil_of_skips hskips
  have roomy (p : Search.Progress) (passes : Search.Passes d.grammar d.chart sentence p) :=
    prunes.roomy _ ⟨p, ⟨hskips, passes⟩, rfl⟩
  refine ⟨⟨settings, words, discounts, ?_, ?_⟩, certain, prunes.beam, roomy⟩
  · rw [prunes.beam]
    decide +kernel
  · exact Nat.lt_of_le_of_lt (Nat.zero_le _) (roomy _ .refl 0 0
      ⟨Nat.le_refl 0, List.length_pos_iff.mpr words⟩ d.grammar.language.topLabel)

/-- Without pruning a decode finds a parse exactly when the table licenses a derivation of the
sentence, and its score is the largest log probability of such derivations. -/
theorem decode_finds_best (frames : FrameKind) (text : String) (statements : List Model.Statement)
    (language : Language) (settings : Settings) (earlier : List Sentence) (sentence : Sentence)
    (read : Model.statements text = .ok statements) (noPrior : ∀ s ∈ statements, s.isPrior = false)
    (words : sentence ≠ []) (short : sentence.length ≤ settings.maxSentenceLength)
    (standard : settings.equivalence ≠ .baseNp) :
    let t := Model.Table.ofStatements frames statements
    let g := t.grammar language settings
    let d := Decoder.after g earlier
    (∀ token ∈ sentence, ∀ tag ∈ g.candidateTags token, tag ≠ language.topLabel) →
    d.PrunesNothing sentence →
      AnswersBest (DerivesSentence t language settings sentence) (d.decode sentence).2 := by
  intro t g d tags prunes
  have discounting : t.Discounting :=
    Model.Table.discounting_ofStatements (Model.discounts_of_readStatements read)
  obtain ⟨hg, hsettings⟩ := Decoder.after_keeps g earlier
  have hg : d.grammar = g := hg
  have coherent : d.Coherent := (Decoder.coherent_after g earlier).2
  have hskips : Decoder.skips d.grammar sentence = false := by
    rw [hg, Decoder.skips, Bool.or_eq_false_iff]
    exact ⟨by simpa using words, decide_eq_false (Nat.not_lt.mpr short)⟩
  have u := prunes.unpruned hskips (hg ▸ hsettings) (hg ▸ discounting.model)
    (hg ▸ Model.Table.prior_ofStatements noPrior)
  have answer {s : Search} (hrun : Search.run d.grammar d.chart sentence = .ok s) :=
    (Decoder.decode_eq coherent hskips hrun).2.2
  rw [hg] at u
  simp only [hg] at answer
  obtain ⟨filled, s, hrun, passes, ends, rootless, cells, finishes⟩ := u.run tags
  have full : Search.Full t language settings sentence d.chart _ :=
    ⟨u, passes, discounting, standard, cells, rootless⟩
  exact full.answer ends finishes (answer hrun)

namespace Sample

def towerText : String :=
  "tags a A; tags b B; head X A [] [B] = -1; mod X A right B = -2; mod X A left B = -3;
   stop X A left = 0; stop X A right = -1; head Y X [] [] = -2; stop Y X left = 0;
   stop Y X right = 0; head +TOP+ X [] [] = -4; head +TOP+ Y [] [] = -1;"

def towerStatements : List Model.Statement := [
  .tags "a" ["A"], .tags "b" ["B"],
  .head "X" "A" [] ["B"] (-1.0), .modifier "X" "A" .right "B" (-2.0),
  .modifier "X" "A" .left "B" (-3.0), .stop "X" "A" .left 0.0, .stop "X" "A" .right (-1.0),
  .head "Y" "X" [] [] (-2.0), .stop "Y" "X" .left 0.0, .stop "Y" "X" .right 0.0,
  .head "+TOP+" "X" [] [] (-4.0), .head "+TOP+" "Y" [] [] (-1.0)]

def towerTable : Model.Table := Model.Table.ofStatements .bag towerStatements

theorem statements_towerText : Model.statements towerText = .ok towerStatements :=
  Outcome.eq_ok_of_toOption (by decide +kernel)

def unpruned : Settings := { Settings.default with pruneFactor := 1.0 / 0.0 }

end Sample

/-- Over `b a b` the top transition from `Y` is better than the one from `X` below it. -/
theorem sample_finds_best :
    let d := Decoder.after (Sample.towerTable.grammar Language.plain Sample.unpruned) []
    let Licensed := DerivesSentence Sample.towerTable Language.plain Sample.unpruned Sample.sentence
    Model.statements Sample.towerText = .ok Sample.towerStatements ∧
    d.PrunesNothing Sample.sentence ∧
    ∃ found, (d.decode Sample.sentence).2 = .ok (.parse found) ∧ found.score == -10.0 ∧
      (∃ v, Licensed v ∧ found.score == v) ∧ ∀ v, Licensed v → v ≤ found.score := by
  intro d Licensed
  have prunes : d.PrunesNothing Sample.sentence := by
    have small : (Search.run d.grammar d.chart Sample.sentence).toOption.any
        (·.chart.arena.size < d.grammar.settings.maxCellSize) = true := by decide +kernel
    cases hrun : Search.run d.grammar d.chart Sample.sentence with
    | error fault =>
      rw [hrun] at small
      cases small
    | ok s =>
      rw [hrun] at small
      exact Decoder.prunesNothing_of_run rfl (by decide +kernel) hrun (of_decide_eq_true small)
  have best := decode_finds_best .bag Sample.towerText Sample.towerStatements Language.plain
    Sample.unpruned [] Sample.sentence Sample.statements_towerText (by decide) (by decide)
    (by decide) (by decide) (by decide +kernel) prunes
  have parses : (match (d.decode Sample.sentence).2 with
      | .ok (.parse found) => found.score == -10.0
      | _ => false) = true := by decide +kernel
  refine ⟨Sample.statements_towerText, prunes, ?_⟩
  split at parses
  · rename_i found hfound
    have hfound : (d.decode Sample.sentence).2 = .ok (.parse found) := hfound
    have best : AnswersBest Licensed (d.decode Sample.sentence).2 := best
    rw [hfound] at best
    exact ⟨found, hfound, parses, best⟩
  · cases parses

end HeadDriven
