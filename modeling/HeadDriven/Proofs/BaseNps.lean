import HeadDriven.Language.Treebank
import HeadDriven.Proofs.Optimality

/-! Base noun phrases with keys of their own. Such keys leave the frames out, so of two growing
base noun phrases that have different requirements a decode may lose one. What it then finds is
still a licensed derivation, so it is no better than what a decode by the standard keys finds. If
the table lets base noun phrases require nothing, the keys tell forms, and both find the best. -/
namespace HeadDriven

open Model (Licensed)

variable {t : Model.Table} {language : Language} {settings : Settings} {sentence : Sentence}
  {a : Arena} {bound index : Nat} {item : Item}

/-- No licensed head event gives a base noun phrase a requirement. -/
def Model.Table.BareBaseNps (t : Model.Table) (language : Language) : Prop :=
  ∀ parent head left right logHead, language.isBaseNp parent = true →
    Licensed (t.heads.lookup ⟨parent, head, left, right⟩) logHead →
      left = Frame.empty t.frames ∧ right = Frame.empty t.frames

def Item.BareBaseNp (t : Model.Table) (language : Language) (item : Item) : Prop :=
  item.stopped = false → language.isBaseNp item.label = true →
    ∀ side, (item.side side).frame = Frame.empty t.frames

theorem Frame.erase_empty (kind : FrameKind) (label : Symbol) :
    (Frame.empty kind).erase label = Frame.empty kind := rfl

theorem Builds.bare (h : Builds (t.grammar language settings) sentence a bound item)
    (bare : t.BareBaseNps language)
    (before : ∀ i other, a.Holds bound i other → other.BareBaseNp t language) :
    item.BareBaseNp t language := by
  intro growing base side
  cases h with
  | seed | stop | root => cases growing
  | project under projects =>
    have event := Model.licensed_iff.mpr ⟨projects.event, rfl⟩
    obtain ⟨left, right⟩ := bare _ _ _ _ _ base event
    cases side
    · exact left
    · exact right
  | @attach i j m d grown under modifier joins attaches =>
    rw [Grammar.stopped_attachment] at growing
    rw [Grammar.label_attachment] at base
    have frames := before i m under growing base
    by_cases same : side = grown
    · subst same
      rw [Grammar.side_attachment_self]
      show ((m.side side).frame).erase _ = _
      rw [frames side, Frame.erase_empty]
    · rw [Grammar.side_attachment_of_ne _ _ same]
      exact frames side

theorem Arena.Built.bare (built : a.Built (t.grammar language settings) sentence)
    (bare : t.BareBaseNps language) (h : a.built? index = some item) :
    item.BareBaseNp t language :=
  built.induction (P := fun _ item => item.BareBaseNp t language)
    (fun _ _ builds before => builds.bare bare before) h

/-- Where base noun phrases require nothing, keys tell forms under every equivalence. -/
theorem Search.Saturated.telling_of_bare {chart : Chart} {p : Search.Progress}
    (f : Search.Saturated t language settings sentence chart p) (bare : t.BareBaseNps language) :
    Search.Telling t language settings sentence chart p where
  toSaturated := f
  tells first last index x y offerable live key := by
    have built := f.sound.built
    have hx := built.bare bare (live.built? f.sound.consistent)
    have hy := offerable.builds.bare bare fun i other holds => built.bare bare holds.built
    refine Arena.form_eq_of_keyOf key fun _ growingX growingY baseX baseY => ?_
    have same (side : Side) := (hx growingX baseX side).trans (hy growingY baseY side).symm
    exact ⟨same .left, same .right⟩

def Settings.under (settings : Settings) (equivalence : Equivalence) : Settings :=
  { settings with equivalence }

theorem Derives.under {e : Equivalence} {first last : Nat} {form : Form} {v : Float}
    (h : Derives t language (settings.under e) sentence first last form v) (e' : Equivalence) :
    Derives t language (settings.under e') sentence first last form v := by
  induction h with
  | word word candidate => exact .word word candidate
  | project _ nonterminal notTop event ih => exact .project ih nonterminal notTop event
  | attachRight _ _ uncut argument event ih ihd => exact .attachRight ih ihd uncut argument event
  | attachLeft _ _ uncut discharged argument event ih ihd =>
    exact .attachLeft ih ihd uncut discharged argument event
  | stop _ left right leftEvent rightEvent ih => exact .stop ih left right leftEvent rightEvent

theorem derivesSentence_under (t : Model.Table) (language : Language) (settings : Settings)
    (sentence : Sentence) (e e' : Equivalence) :
    DerivesSentence t language (settings.under e) sentence =
      DerivesSentence t language (settings.under e') sentence := by
  funext v
  refine propext ⟨fun h => ?_, fun h => ?_⟩
  all_goals
    obtain ⟨whole, under, event⟩ := h
    exact .top whole (under.under _) event

/-- A decode that prunes nothing reads its answer off a chart that had its cells filled. -/
theorem decode_saturates {earlier : List Sentence} (discounting : t.Discounting)
    (certain : ∀ e, t.model.prior e = 0.0)
    (hskips : Decoder.skips (t.grammar language settings) sentence = false)
    (tags : ∀ token ∈ sentence, ∀ tag ∈ (t.grammar language settings).candidateTags token,
      tag ≠ language.topLabel)
    (prunes : (Decoder.after (t.grammar language settings) earlier).PrunesNothing sentence) :
    ∃ chart p s, Search.Saturated t language settings sentence chart p ∧
      Search.Passes (t.grammar language settings) chart sentence ⟨s, []⟩ ∧
      Search.Finishes (t.grammar language settings) p.search s (sentence.length - 1) ∧
      ((Decoder.after (t.grammar language settings) earlier).decode sentence).2 =
        (Decoder.best? (t.grammar language settings) s.chart sentence).map fun found =>
          found.elim (.noParse sentence) .parse := by
  obtain ⟨hg, coherent⟩ := Decoder.coherent_after (t.grammar language settings) earlier
  have hskips := hg.symm ▸ hskips
  have u := prunes.unpruned hskips coherent.settings (hg.symm ▸ discounting.model)
    (hg.symm ▸ certain)
  have answer {s : Search} (hrun : Search.run _ _ sentence = .ok s) :=
    (Decoder.decode_eq coherent hskips hrun).2.2
  rw [hg] at u
  simp only [hg] at answer
  obtain ⟨filled, s, hrun, passes, ends, rootless, cells, finishes⟩ := u.run tags
  exact ⟨_, _, s, ⟨u, passes, discounting, cells, rootless⟩, ends, finishes, answer hrun⟩

/-- The log probabilities of what a decode looks for: the derivations of the sentence, unless it
skips the sentence. -/
def Considers (t : Model.Table) (language : Language) (settings : Settings) (sentence : Sentence)
    (v : Float) : Prop :=
  Decoder.skips (t.grammar language settings) sentence = false ∧
    DerivesSentence t language settings sentence v

/-- A decode that prunes nothing answers with a derivation it looks for; with the best, if keys tell
forms. -/
theorem decode_answers (settings : Settings) {earlier : List Sentence}
    (discounting : t.Discounting) (certain : ∀ e, t.model.prior e = 0.0)
    (tags : ∀ token ∈ sentence, ∀ tag ∈ (t.grammar language settings).candidateTags token,
      tag ≠ language.topLabel)
    (prunes : (Decoder.after (t.grammar language settings) earlier).PrunesNothing sentence) :
    AnswersSome (Considers t language settings sentence)
        ((Decoder.after (t.grammar language settings) earlier).decode sentence).2 ∧
      (settings.equivalence ≠ .baseNp ∨ t.BareBaseNps language →
        AnswersBest (Considers t language settings sentence)
          ((Decoder.after (t.grammar language settings) earlier).decode sentence).2) := by
  cases hskips : Decoder.skips (t.grammar language settings) sentence with
  | true =>
    have kept := (Decoder.coherent_after (t.grammar language settings) earlier).1
    have skipped := Decoder.decode_skipped (kept.symm ▸ hskips)
    rw [skipped]
    refine ⟨trivial, fun _ => ?_⟩
    rintro ⟨v, considered, -⟩
    cases hskips.symm.trans considered
  | false =>
    have derivations : Considers t language settings sentence =
        DerivesSentence t language settings sentence := by
      funext v
      simp [Considers, hskips]
    obtain ⟨chart, p, s, f, ends, finishes, answer⟩ :=
      decode_saturates discounting certain hskips tags prunes
    rw [derivations]
    refine ⟨f.answers ends finishes answer, ?_⟩
    rintro (standard | bare)
    · exact (f.telling_of_standard standard).answer ends finishes answer
    · exact (f.telling_of_bare bare).answer ends finishes answer

theorem AnswersBest.answersSome {derivations : Float → Prop} {answer : Except Fault Decoded}
    (best : AnswersBest derivations answer) : AnswersSome derivations answer := by
  match answer, best with
  | .ok (.parse _), best => exact best.1
  | .ok (.noParse _), _ => trivial

theorem AnswersSome.exists_ok {derivations : Float → Prop} {answer : Except Fault Decoded}
    (found : AnswersSome derivations answer) : ∃ x, answer = .ok x := by
  match answer, found with
  | .ok x, _ => exact ⟨x, rfl⟩

theorem AnswersBest.score_le {derivations : Float → Prop} {x y : Decoded}
    (best : AnswersBest derivations (.ok x)) (found : AnswersSome derivations (.ok y))
    {score : Float} (hscore : y.score? = some score) :
    ∃ high, x.score? = some high ∧ score ≤ high := by
  match y, found, hscore with
  | .parse y, found, rfl =>
    obtain ⟨v, derives, equal⟩ := found
    match x, best with
    | .parse x, best =>
      exact ⟨x.score, rfl, LogProb.numbers_le_trans (LogProb.beq_iff_le.mp equal).1
        (best.2 v derives)⟩
    | .noParse _, unlicensed => exact absurd ⟨v, derives⟩ unlicensed

theorem AnswersBest.agree {derivations : Float → Prop} {x y : Decoded}
    (best : AnswersBest derivations (.ok x)) (best' : AnswersBest derivations (.ok y)) :
    x.score? = none ∧ y.score? = none ∨
      ∃ high score, x.score? = some high ∧ y.score? = some score ∧ high == score := by
  rcases hx : x.score? with _ | score
  · refine Or.inl ⟨rfl, Option.eq_none_iff_forall_not_mem.mpr fun score hy => ?_⟩
    obtain ⟨_, h, -⟩ := best.score_le best'.answersSome hy
    rw [hx] at h
    cases h
  · obtain ⟨score', hy, hle⟩ := best'.score_le best.answersSome hx
    obtain ⟨_, h, hle'⟩ := best.score_le best'.answersSome hy
    obtain rfl := Option.some.inj (hx.symm.trans h)
    exact Or.inr ⟨score, score', rfl, hy, LogProb.beq_iff_le.mpr ⟨hle, hle'⟩⟩

/-- Without pruning, a decode by keys that leave out the frames of base noun phrases finds no parse
that is better than that of a decode by the standard keys. Where base noun phrases require nothing,
both find parses of equal scores, or neither finds one. -/
theorem base_np_keys_lose_only_to_frames (frames : FrameKind) (text : String)
    (statements : List Model.Statement) (language : Language) (settings : Settings)
    (earlier earlier' : List Sentence) (sentence : Sentence)
    (read : Model.statements text = .ok statements)
    (noPrior : ∀ s ∈ statements, s.isPrior = false) :
    let t := Model.Table.ofStatements frames statements
    let standard := Decoder.after (t.grammar language (settings.under .standard)) earlier
    let baseNp := Decoder.after (t.grammar language (settings.under .baseNp)) earlier'
    (∀ token ∈ sentence, ∀ tag ∈ (t.grammar language settings).candidateTags token,
      tag ≠ language.topLabel) →
    standard.PrunesNothing sentence → baseNp.PrunesNothing sentence →
    ∃ x y, (standard.decode sentence).2 = .ok x ∧ (baseNp.decode sentence).2 = .ok y ∧
      (∀ score, y.score? = some score → ∃ high, x.score? = some high ∧ score ≤ high) ∧
      (t.BareBaseNps language → x.score? = none ∧ y.score? = none ∨
        ∃ high score, x.score? = some high ∧ y.score? = some score ∧ high == score) := by
  intro t standard baseNp tags prunes prunes'
  have discounting : t.Discounting :=
    Model.Table.discounting_ofStatements (Model.discounts_of_readStatements read)
  have certain (e : PriorEvent) : t.model.prior e = 0.0 :=
    Model.Table.prior_ofStatements noPrior e
  have best := (decode_answers (settings.under .standard) discounting certain tags prunes).2
    (Or.inl (by simp [Settings.under]))
  obtain ⟨found, bestIfBare⟩ :=
    decode_answers (settings.under .baseNp) discounting certain tags prunes'
  have same : Considers t language (settings.under .baseNp) sentence =
      Considers t language (settings.under .standard) sentence := by
    funext v
    rw [Considers, derivesSentence_under t language settings sentence .baseNp .standard]
    rfl
  rw [same] at found bestIfBare
  obtain ⟨x, hx⟩ := best.answersSome.exists_ok
  obtain ⟨y, hy⟩ := found.exists_ok
  rw [hx] at best
  rw [hy] at found bestIfBare
  exact ⟨x, y, hx, hy, fun _ => best.score_le found,
    fun bare => best.agree (bestIfBare (Or.inr bare))⟩

theorem Decoder.prunesNothing_of_small {g : Grammar} (beam : g.settings.beamWidth = 1.0 / 0.0)
    (small : (Search.run g (ofGrammar g).chart sentence).toOption.any
      (·.chart.arena.size < g.settings.maxCellSize) = true) :
    (after g []).PrunesNothing sentence := by
  cases hrun : Search.run g (ofGrammar g).chart sentence with
  | error fault =>
    rw [hrun] at small
    cases small
  | ok s =>
    rw [hrun] at small
    exact prunesNothing_of_run rfl beam hrun (of_decide_eq_true small)

theorem Model.Table.bareBaseNps_of_heads (h : ∀ r ∈ t.heads, language.isBaseNp r.1.parent = true →
    r.1.left = Frame.empty t.frames ∧ r.1.right = Frame.empty t.frames) :
    t.BareBaseNps language :=
  fun _ _ _ _ _ base event => h _ (mem_of_lookup event.found) base

namespace Sample

def nounPhraseText : String :=
  "tags the DT; tags dog NN; head NPB NN [] [] = -1; mod NPB NN left DT = -2;
   stop NPB NN left = 0; stop NPB NN right = 0; head +TOP+ NPB [] [] = 0;"

def nounPhraseStatements : List Model.Statement := [
  .tags "the" ["DT"], .tags "dog" ["NN"], .head "NPB" "NN" [] [] (-1.0),
  .modifier "NPB" "NN" .left "DT" (-2.0), .stop "NPB" "NN" .left 0.0,
  .stop "NPB" "NN" .right 0.0, .head "+TOP+" "NPB" [] [] 0.0]

def nounPhraseTable : Model.Table := Model.Table.ofStatements .bag nounPhraseStatements

end Sample

/-- `the dog`, whose base noun phrase requires nothing. -/
theorem sample_base_np_keys :
    let t := Sample.nounPhraseTable
    let language := Language.treebank t.symbols
    let sentence : Sentence := [.known ⟨4⟩ [], .known ⟨6⟩ []]
    let standard := Decoder.after (t.grammar language (Sample.unpruned.under .standard)) []
    let baseNp := Decoder.after (t.grammar language (Sample.unpruned.under .baseNp)) []
    Model.statements Sample.nounPhraseText = .ok Sample.nounPhraseStatements ∧
    standard.PrunesNothing sentence ∧ baseNp.PrunesNothing sentence ∧ t.BareBaseNps language ∧
    ∃ x y high score, (standard.decode sentence).2 = .ok x ∧
      (baseNp.decode sentence).2 = .ok y ∧
      x.score? = some high ∧ y.score? = some score ∧ high == score := by
  intro t language sentence standard baseNp
  have read : Model.statements Sample.nounPhraseText = .ok Sample.nounPhraseStatements :=
    Outcome.eq_ok_of_toOption (by decide +kernel)
  have prunes : standard.PrunesNothing sentence :=
    Decoder.prunesNothing_of_small (by decide +kernel) (by decide +kernel)
  have prunes' : baseNp.PrunesNothing sentence :=
    Decoder.prunesNothing_of_small (by decide +kernel) (by decide +kernel)
  have bare : t.BareBaseNps language := Model.Table.bareBaseNps_of_heads (by decide +kernel)
  obtain ⟨x, y, hx, hy, -, equal⟩ := base_np_keys_lose_only_to_frames .bag Sample.nounPhraseText
    Sample.nounPhraseStatements language Sample.unpruned [] [] sentence read (by decide)
    (by decide +kernel) prunes prunes'
  have parses : (match (standard.decode sentence).2 with
      | .ok (.parse _) => true
      | _ => false) = true := by decide +kernel
  rcases equal bare with ⟨none, -⟩ | ⟨high, score, both⟩
  · rw [show (standard.decode sentence).2 = .ok x from hx] at parses
    cases x <;> cases parses
    cases none
  · exact ⟨read, prunes, prunes', bare, x, y, high, score, hx, hy, both⟩

/-- A base noun phrase `dog` that may require an `X` or nothing: by keys without frames the better
one, which never gets its `X`, is the one that is kept. -/
theorem base_np_keys_lose_parse :
    let text := "tags dog NN; head NPB NN [] [] = -1; head NPB NN [] [X] = 0;
      stop NPB NN left = 0; stop NPB NN right = 0; head +TOP+ NPB [] [] = 0;"
    let statements : List Model.Statement := [.tags "dog" ["NN"],
      .head "NPB" "NN" [] [] (-1.0), .head "NPB" "NN" [] ["X"] 0.0,
      .stop "NPB" "NN" .left 0.0, .stop "NPB" "NN" .right 0.0, .head "+TOP+" "NPB" [] [] 0.0]
    let t := Model.Table.ofStatements .bag statements
    let language := Language.treebank t.symbols
    let sentence : Sentence := [.known ⟨4⟩ []]
    let standard := Decoder.after (t.grammar language (Sample.unpruned.under .standard)) []
    let baseNp := Decoder.after (t.grammar language (Sample.unpruned.under .baseNp)) []
    Model.statements text = .ok statements ∧ (∀ s ∈ statements, s.isPrior = false) ∧
    (∀ token ∈ sentence, ∀ tag ∈ (t.grammar language Sample.unpruned).candidateTags token,
      tag ≠ language.topLabel) ∧
    standard.PrunesNothing sentence ∧ baseNp.PrunesNothing sentence ∧
    (standard.decode sentence).2.toOption.map Decoded.score? = some (some (-1.0)) ∧
    (baseNp.decode sentence).2.toOption.map Decoded.score? = some none :=
  ⟨Outcome.eq_ok_of_toOption (by decide +kernel), by decide, by decide +kernel,
    Decoder.prunesNothing_of_small (by decide +kernel) (by decide +kernel),
    Decoder.prunesNothing_of_small (by decide +kernel) (by decide +kernel),
    by decide +kernel, by decide +kernel⟩

end HeadDriven
