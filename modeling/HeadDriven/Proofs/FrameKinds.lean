import HeadDriven.Proofs.BaseNps
import HeadDriven.Proofs.Model.Reframed

/-! Bag frames and list frames. A derivation discharges its requirements one by one, and whether
it may does not depend on their order. So what a table licenses with list frames it licenses with
bag frames, at the same log probability, and the other way round; a decode that prunes nothing
finds the best of it either way. -/
namespace HeadDriven

open Model (Licensed)

/-- The same form with frames of one kind that require the same labels. -/
def Form.Recasts (kind : FrameKind) : Form → Form → Prop
  | .finished label, form => form = .finished label
  | .growing label headLabel left right leftModified, form =>
    ∃ left' right', left.Recasts kind left' ∧ right.Recasts kind right' ∧
      form = .growing label headLabel left' right' leftModified

def Settings.framed (settings : Settings) (frames : FrameKind) : Settings :=
  { settings with frames }

section Derivations

variable {t t' : Model.Table} {language : Language} {settings : Settings} {sentence : Sentence}
  {kind : FrameKind} {first last : Nat} {form : Form} {v : Float}

theorem candidateTags_recasts (recasts : t.Recasts t') (token : Token) (kind kind' : FrameKind) :
    (t'.grammar language (settings.framed kind')).candidateTags token =
      (t.grammar language (settings.framed kind)).candidateTags token := by
  have tagsOf : t'.model.tags = t.model.tags := by
    funext word
    simp only [Model.Table.model, recasts.tags]
  simp only [Grammar.candidateTags, Model.Table.grammar, tagsOf]
  rfl

/-- A derivation by one table is a derivation by the other, with its frames recast. -/
theorem Derives.recast (recasts : t.Recasts t')
    (h : Derives t language (settings.framed kind) sentence first last form v) :
    ∃ form', form.Recasts t'.frames form' ∧
      Derives t' language (settings.framed t'.frames) sentence first last form' v := by
  induction h with
  | word word candidate =>
    rw [← candidateTags_recasts recasts _ kind t'.frames] at candidate
    exact ⟨_, rfl, .word word candidate⟩
  | project under nonterminal notTop event ih =>
    obtain ⟨_, rfl, under⟩ := ih
    obtain ⟨left', right', left, right, event⟩ := recasts.heads event
    rw [← recasts.nonterminals] at nonterminal
    exact ⟨_, ⟨left', right', left, right, rfl⟩, .project under nonterminal notTop event⟩
  | attachRight under modifier uncut argument event ih ihd =>
    obtain ⟨_, ⟨left', right', left, right, rfl⟩, under⟩ := ih
    obtain ⟨_, rfl, modifier⟩ := ihd
    rw [← recasts.modifiers] at event
    rw [← right.contains] at argument
    exact ⟨_, ⟨_, _, left, right.erase _, rfl⟩,
      .attachRight under modifier uncut argument event⟩
  | attachLeft under modifier uncut discharged argument event ih ihd =>
    obtain ⟨_, ⟨left', right', left, right, rfl⟩, under⟩ := ih
    obtain ⟨_, rfl, modifier⟩ := ihd
    rw [← recasts.modifiers] at event
    rw [← right.isEmpty] at discharged
    rw [← left.contains] at argument
    exact ⟨_, ⟨_, _, left.erase _, right, rfl⟩,
      .attachLeft under modifier uncut discharged argument event⟩
  | stop under leftDischarged rightDischarged leftEvent rightEvent ih =>
    obtain ⟨_, ⟨left', right', left, right, rfl⟩, under⟩ := ih
    rw [← recasts.stops] at leftEvent rightEvent
    rw [← left.isEmpty] at leftDischarged
    rw [← right.isEmpty] at rightDischarged
    exact ⟨_, rfl, .stop under leftDischarged rightDischarged leftEvent rightEvent⟩

theorem DerivesSentence.recast (recasts : t.Recasts t')
    (h : DerivesSentence t language (settings.framed kind) sentence v) :
    DerivesSentence t' language (settings.framed t'.frames) sentence v := by
  obtain ⟨whole, under, event⟩ := h
  obtain ⟨_, rfl, under⟩ := under.recast recasts
  obtain ⟨left', right', left, right, event⟩ := recasts.heads event
  obtain rfl := left.eq_empty
  obtain rfl := right.eq_empty
  exact .top whole under event

theorem considers_recast (recasts : t.Recasts t') (recasts' : t'.Recasts t) (language : Language)
    (settings : Settings) (sentence : Sentence) :
    Considers t language (settings.framed t.frames) sentence =
      Considers t' language (settings.framed t'.frames) sentence := by
  funext v
  exact propext ⟨fun ⟨skips, h⟩ => ⟨skips, h.recast recasts⟩,
    fun ⟨skips, h⟩ => ⟨skips, h.recast recasts'⟩⟩

end Derivations

/-- Where no two head statements differ in the order of their frames only, decodes that prune
nothing with bag frames and with list frames find parses of equal scores, or neither finds one. -/
theorem frame_kinds_agree (statements : List Model.Statement) (language : Language)
    (settings : Settings) (earlier earlier' : List Sentence) (sentence : Sentence)
    (discounts : ∀ s ∈ statements, s.Discounts) (noPrior : ∀ s ∈ statements, s.isPrior = false)
    (apart : ∀ s ∈ statements, ∀ s' ∈ statements, s.FramesApart s')
    (standard : settings.equivalence ≠ .baseNp) :
    let grammar frames :=
      (Model.Table.ofStatements frames statements).grammar language (settings.framed frames)
    let bags := Decoder.after (grammar .bag) earlier
    let lists := Decoder.after (grammar .list) earlier'
    (∀ token ∈ sentence, ∀ tag ∈ (grammar .bag).candidateTags token, tag ≠ language.topLabel) →
    bags.PrunesNothing sentence → lists.PrunesNothing sentence →
    ∃ x y, (bags.decode sentence).2 = .ok x ∧ (lists.decode sentence).2 = .ok y ∧
      (x.score? = none ∧ y.score? = none ∨
        ∃ score score', x.score? = some score ∧ y.score? = some score' ∧ score == score') := by
  intro grammar bags lists tags prunes prunes'
  obtain ⟨twins, spelled⟩ := Model.Table.twins_ofStatements statements
  have toBags := twins.recasts_bags spelled apart
  have toLists := twins.recasts_lists spelled apart
  have tags' : ∀ token ∈ sentence, ∀ tag ∈ (grammar .list).candidateTags token,
      tag ≠ language.topLabel := fun token htoken => by
    rw [candidateTags_recasts toLists token .bag .list]
    exact tags token htoken
  have best := (decode_answers (settings.framed .bag)
    (Model.Table.discounting_ofStatements discounts) (Model.Table.prior_ofStatements noPrior)
    tags prunes).2 (Or.inl standard)
  have best' := (decode_answers (settings.framed .list)
    (Model.Table.discounting_ofStatements discounts) (Model.Table.prior_ofStatements noPrior)
    tags' prunes').2 (Or.inl standard)
  have same := considers_recast toLists toBags language settings sentence
  rw [twins.bagFrames, twins.listFrames] at same
  rw [same] at best
  obtain ⟨x, hx⟩ := best.answersSome.exists_ok
  obtain ⟨y, hy⟩ := best'.answersSome.exists_ok
  rw [hx] at best
  rw [hy] at best'
  exact ⟨x, y, hx, hy, best.agree best'⟩

namespace Sample

/-- A head that requires two arguments. The bag has them in the other order than the list. -/
def twoArguments : List Model.Statement := [
  .tags "a" ["A"], .tags "b" ["B-A"], .tags "c" ["C-A"],
  .head "X" "A" [] ["C-A", "B-A"] (-1.0), .modifier "X" "A" .right "B-A" (-2.0),
  .modifier "X" "A" .right "C-A" (-3.0), .stop "X" "A" .left 0.0, .stop "X" "A" .right 0.0,
  .head "+TOP+" "X" [] [] (-1.0)]

end Sample

/-- Over `a b c` the argument that the list has last is discharged first. -/
theorem sample_frame_kinds :
    let statements := Sample.twoArguments
    let language := Language.treebank (Model.Table.ofStatements .bag statements).symbols
    let grammar frames := (Model.Table.ofStatements frames statements).grammar language
      (Sample.unpruned.framed frames)
    let bags := Decoder.after (grammar .bag) []
    let lists := Decoder.after (grammar .list) []
    let sentence : Sentence := [.known ⟨4⟩ [], .known ⟨6⟩ [], .known ⟨8⟩ []]
    (∀ s ∈ statements, s.Discounts) ∧
    (∀ s ∈ statements, ∀ s' ∈ statements, s.FramesApart s') ∧
    bags.PrunesNothing sentence ∧ lists.PrunesNothing sentence ∧
    ∃ x y score score', (bags.decode sentence).2 = .ok x ∧ (lists.decode sentence).2 = .ok y ∧
      x.score? = some score ∧ y.score? = some score' ∧ score == score' := by
  intro statements language grammar bags lists sentence
  have discounts : ∀ s ∈ statements, s.Discounts := by decide +kernel
  have apart : ∀ s ∈ statements, ∀ s' ∈ statements, s.FramesApart s' := by decide +kernel
  have prunes : bags.PrunesNothing sentence :=
    Decoder.prunesNothing_of_small (by decide +kernel) (by decide +kernel)
  have prunes' : lists.PrunesNothing sentence :=
    Decoder.prunesNothing_of_small (by decide +kernel) (by decide +kernel)
  obtain ⟨x, y, hx, hy, agree⟩ := frame_kinds_agree statements language Sample.unpruned [] []
    sentence discounts (by decide) apart (by decide) (by decide +kernel) prunes prunes'
  have parses : (match (bags.decode sentence).2 with
      | .ok (.parse _) => true
      | _ => false) = true := by decide +kernel
  rcases agree with ⟨none, -⟩ | ⟨score, score', both⟩
  · rw [show (bags.decode sentence).2 = .ok x from hx] at parses
    cases x <;> cases parses
    cases none
  · exact ⟨discounts, apart, prunes, prunes', x, y, score, score', hx, hy, both⟩

end HeadDriven
