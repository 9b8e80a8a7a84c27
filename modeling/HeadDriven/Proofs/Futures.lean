import HeadDriven.Proofs.Derives
import HeadDriven.Proofs.Visits

/-! Checking futures. A table knows the future of every modifier that it makes possible. With
such a model the check of futures turns nothing away: attachment by attachment, offer by offer
and step by step, a decode with the check goes as the decode without it. -/
namespace HeadDriven

/-- A model that holds the future of every possible modifier possible. -/
def Model.Foresees (m : Model) : Prop :=
  ∀ e, isImpossible (m.modifier e) = false → m.futurePossible e.coarseHistory e.future = true

/-! The same settings, and whatever carries them, with the check of futures on or off. -/

def Settings.checking (s : Settings) (check : Bool) : Settings := { s with futureCheck := check }

def Grammar.checking (g : Grammar) (check : Bool) : Grammar :=
  { g with settings := g.settings.checking check }

def Chart.checking (c : Chart) (check : Bool) : Chart :=
  { c with settings := c.settings.checking check }

def Search.checking (s : Search) (check : Bool) : Search :=
  { s with chart := s.chart.checking check }

def Search.Progress.checking (p : Search.Progress) (check : Bool) : Search.Progress :=
  { p with search := p.search.checking check }

def Decoder.checking (d : Decoder) (check : Bool) : Decoder :=
  { d with grammar := d.grammar.checking check, chart := d.chart.checking check }

variable {g : Grammar} {check : Bool} {c : Chart} {s : Search} {first last : Nat}

namespace Grammar

@[simp] theorem preterminals_checking : (g.checking check).preterminals = g.preterminals := rfl

@[simp] theorem projections_checking : (g.checking check).projections = g.projections := rfl

@[simp] theorem stop_checking : (g.checking check).stop = g.stop := rfl

@[simp] theorem root?_checking : (g.checking check).root? = g.root? := rfl

/-- The check turns away only what is impossible already. -/
theorem attach_checking (foresees : g.model.Foresees) (m : Modificand) (d : Modifier)
    (side : Side) : (g.checking check).attach m d side = g.attach m d side := by
  have same (on : Bool) : (isImpossible (g.model.modifier (attachmentEvent m d side)) ||
      (on && !g.model.futurePossible (attachmentEvent m d side).coarseHistory
        (attachmentEvent m d side).future)) =
      isImpossible (g.model.modifier (attachmentEvent m d side)) := by
    cases possible : isImpossible (g.model.modifier (attachmentEvent m d side)) with
    | true => rfl
    | false => simp [foresees _ possible]
  simp only [attach, checking, same]
  rfl

theorem attachAll_checking (foresees : g.model.Foresees) (histories : HistoryCache)
    (pairs : List (Modificand × Modifier × Side)) :
    (g.checking check).attachAll histories pairs = g.attachAll histories pairs := by
  induction pairs generalizing histories with
  | nil => rfl
  | cons pair pairs ih => simp only [attachAll, attachFrom, attach_checking foresees, ih]

end Grammar

namespace Chart

@[simp] theorem cellItems_checking : (c.checking check).cellItems = c.cellItems := rfl

theorem key_checking (language : Language) (equivalence : Equivalence) (item : Item)
    (known : Option Bool) : (c.checking check).key language equivalence item known =
      (c.key language equivalence item known).map fun (key, verb, c) =>
        (key, verb, c.checking check) := by
  unfold key
  cases hhead : c.arena.headChildLabel? item with
  | error fault => simp only [checking, hhead]; rfl
  | ok headLabel =>
    simp only [checking, hhead, Outcome.ok_bind]
    split
    · unfold containsVerb
      cases hverb : c.arena.verbOf language c.settings.baseNpVerbBarrier item known with
      | error fault => simp only [Settings.checking, hverb]; rfl
      | ok r => simp only [Settings.checking, hverb]; rfl
    · rfl

theorem offer_checking (language : Language) (item : Item) (known : Option Bool) :
    (c.checking check).offer language first last item known =
      (c.offer language first last item known).map fun (c, index) =>
        (c.checking check, index) := by
  unfold offer
  have hcell : (c.checking check).cell first last = c.cell first last := rfl
  have hequiv : (c.checking check).settings.equivalence = c.settings.equivalence := rfl
  rw [hcell, hequiv, key_checking]
  cases c.cell first last with
  | error fault => rfl
  | ok cell =>
    simp only [Outcome.ok_bind]
    split
    · rfl
    · cases c.key language c.settings.equivalence item known with
      | error fault => rfl
      | ok r =>
        obtain ⟨key, verb, c⟩ := r
        simp only [Outcome.ok_bind, Outcome.map_ok]
        have hbeam : (c.checking check).settings.beamWidth = c.settings.beamWidth := rfl
        have hcap : (c.checking check).settings.maxCellSize = c.settings.maxCellSize := rfl
        have houtdoes : (c.checking check).outdoes = c.outdoes := rfl
        rw [hbeam, hcap, houtdoes]
        split
        · rfl
        · cases c.outdoes ((cell.group? item.label).getD LabelGroup.empty) key item.score with
          | error fault => rfl
          | ok outdone => cases outdone <;> rfl

theorem addAll_checking (language : Language) (items : List Item) :
    (c.checking check).addAll language first last items =
      (c.addAll language first last items).map fun (c, taken) => (c.checking check, taken) := by
  induction items generalizing c with
  | nil => rfl
  | cons item items ih =>
    rw [addAll_cons, addAll_cons, add, add, offer_checking]
    cases c.offer language first last item none with
    | error fault => rfl
    | ok r =>
      simp only [Outcome.map_ok, Outcome.ok_bind, ih]
      cases r.1.addAll language first last items <;> rfl

end Chart

namespace Search

@[simp] theorem stored_checking : (s.checking check).stored = s.stored := rfl

@[simp] theorem modificand_checking : (s.checking check).modificand = s.modificand := rfl

@[simp] theorem pairsAt_checking :
    (s.checking check).pairsAt (g.checking check) = s.pairsAt g := rfl

@[simp] theorem splits_checking : splits (g.checking check) = splits g := rfl

theorem offerAll_checking (items : List Item) :
    (s.checking check).offerAll (g.checking check) first last items =
      (s.offerAll g first last items).map fun (s, taken) => (s.checking check, taken) := by
  unfold offerAll
  have hadd : (s.checking check).chart.addAll (g.checking check).language first last items =
      (s.chart.addAll g.language first last items).map fun (c, taken) =>
        (c.checking check, taken) := Chart.addAll_checking g.language items
  rw [hadd]
  cases s.chart.addAll g.language first last items <;> rfl

theorem offerTrials_checking (trials : List Trial) :
    (s.checking check).offerTrials (g.checking check) first last trials =
      (s.offerTrials g first last trials).map fun (s, taken) => (s.checking check, taken) :=
  offerAll_checking (s := s.noting trials) (trials.filterMap Trial.built)

theorem round_checking (frontier : List Nat) :
    (s.checking check).round (g.checking check) first last frontier =
      (s.round g first last frontier).map fun (s, fresh) => (s.checking check, fresh) := by
  simp only [round, stored_checking, Grammar.projections_checking]
  cases frontier.mapM s.stored with
  | error fault => rfl
  | ok sources =>
    simp only [Outcome.ok_bind, offerAll_checking]
    cases s.offerAll g first last (sources.flatMap fun x => g.projections x.1 x.2) with
    | error fault => rfl
    | ok r =>
      simp only [Outcome.map_ok, Outcome.ok_bind, modificand_checking, Grammar.stop_checking]
      cases (frontier ++ r.2).mapM r.1.modificand with
      | error fault => rfl
      | ok candidates => exact offerTrials_checking _

theorem settle_checking (rounds : Nat) (frontier : List Nat) :
    settle (g.checking check) first last rounds (s.checking check) frontier =
      (settle g first last rounds s frontier).map (·.checking check) := by
  induction rounds generalizing s frontier with
  | zero => cases frontier <;> rfl
  | succ rounds ih =>
    cases frontier with
    | nil => rfl
    | cons index others =>
      simp only [settle, round_checking]
      cases s.round g first last (index :: others) with
      | error fault => rfl
      | ok r => exact ih r.2

theorem close_checking : (s.checking check).close (g.checking check) first last =
    (s.close g first last).map (·.checking check) := by
  unfold close
  rw [show (s.checking check).chart.cellItems = s.chart.cellItems from rfl]
  cases s.chart.cellItems first last with
  | error fault => rfl
  | ok present => exact settle_checking _ present

theorem seed_checking (position : Nat) (token : Token) :
    (s.checking check).seed (g.checking check) position token =
      (s.seed g position token).map (·.checking check) := by
  simp only [seed, Grammar.preterminals_checking, offerAll_checking]
  cases s.offerAll g position position (g.preterminals position token) with
  | error fault => rfl
  | ok r => exact close_checking

theorem fillCell_checking (foresees : g.model.Foresees) (commas : Array Bool)
    (histories : HistoryCache) (span : Nat × Nat) :
    fillCell (g.checking check) commas (s.checking check, histories) span =
      (fillCell g commas (s, histories) span).map fun (s, histories) =>
        (s.checking check, histories) := by
  obtain ⟨first, last⟩ := span
  simp only [fillCell, splits_checking, pairsAt_checking]
  cases (splits g commas first last).mapM fun split => s.pairsAt g first split last with
  | error fault => rfl
  | ok pairs =>
    simp only [Outcome.ok_bind, Grammar.attachAll_checking foresees]
    cases g.attachAll histories pairs.flatten with
    | error fault => rfl
    | ok r =>
      simp only [Outcome.ok_bind, offerTrials_checking]
      cases s.offerTrials g first last r.2 with
      | error fault => rfl
      | ok t =>
        simp only [Outcome.map_ok, Outcome.ok_bind, close_checking]
        cases t.1.close g first last <;> rfl

theorem finish_checking : (s.checking check).finish (g.checking check) last =
    (s.finish g last).map (·.checking check) := by
  simp only [finish, stored_checking, Grammar.root?_checking]
  rw [show (s.checking check).chart.cellItems = s.chart.cellItems from rfl]
  cases s.chart.cellItems 0 last with
  | error fault => rfl
  | ok indices =>
    simp only [Outcome.ok_bind]
    cases indices.mapM s.stored with
    | error fault => rfl
    | ok items =>
      simp only [Outcome.ok_bind, offerAll_checking]
      cases s.offerAll g 0 last (items.filterMap fun x => g.root? x.1 x.2) <;> rfl

theorem fill_checking (foresees : g.model.Foresees) (histories : HistoryCache)
    (commas : Array Bool) (sentence : Sentence) :
    fill (g.checking check) (c.checking check) histories commas sentence =
      (fill g c histories commas sentence).map fun (s, histories) =>
        (s.checking check, histories) := by
  let start : Search := ⟨c, #[]⟩
  have seeded : sentence.zipIdx.foldlM
      (fun (s : Search) (word : Token × Nat) => s.seed (g.checking check) word.2 word.1)
        (start.checking check) =
      (sentence.zipIdx.foldlM (fun (s : Search) (word : Token × Nat) => s.seed g word.2 word.1)
        start).map (·.checking check) :=
    Outcome.foldlM_map (h := fun s : Search => s.checking check)
      (fun _ word => seed_checking word.2 word.1) _ _
  let wide := (Chart.spans sentence.length).filter fun span => span.1 < span.2
  have filled (s : Search) :
      wide.foldlM (fillCell (g.checking check) commas) (s.checking check, histories) =
        (wide.foldlM (fillCell g commas) (s, histories)).map fun (s, histories) =>
          (s.checking check, histories) :=
    Outcome.foldlM_map (h := fun r : Search × HistoryCache => (r.1.checking check, r.2))
      (fun r span => fillCell_checking foresees commas r.2 span) _ (s, histories)
  unfold fill
  dsimp only at filled ⊢
  rw [show (⟨c.checking check, #[]⟩ : Search) = start.checking check from rfl, seeded]
  cases sentence.zipIdx.foldlM (fun (s : Search) (word : Token × Nat) => s.seed g word.2 word.1)
      start with
  | error fault => rfl
  | ok s =>
    simp only [Outcome.map_ok, Outcome.ok_bind, filled, wide]
    cases ((Chart.spans sentence.length).filter fun span => span.1 < span.2).foldlM
        (fillCell g commas) (s, histories) with
    | error fault => rfl
    | ok r =>
      simp only [Outcome.map_ok, Outcome.ok_bind, finish_checking]
      cases r.1.finish g (sentence.length - 1) <;> rfl

/-! Step by step. -/

variable {commas : Array Bool} {p q : Progress}

theorem attachmentsAt_checking (foresees : g.model.Foresees) (first split last : Nat) :
    (s.checking check).attachmentsAt (g.checking check) first split last =
      s.attachmentsAt g first split last := by
  have hpair : (g.checking check).attachPair = g.attachPair :=
    funext fun p => Grammar.attach_checking foresees p.1 p.2.1 p.2.2
  rw [attachmentsAt_eq_pairsAt, attachmentsAt_eq_pairsAt, hpair, pairsAt_checking]

theorem Task.step_checking (foresees : g.model.Foresees) (task : Task) :
    task.step (g.checking check) commas (s.checking check) =
      (task.step g commas s).map fun (s, tasks) => (s.checking check, tasks) := by
  have hcell : (s.checking check).chart.cellItems = s.chart.cellItems := rfl
  cases task with
  | seed position token => rfl
  | complete first last =>
    simp only [step, attachmentsAt_checking foresees, splits_checking]
    cases (splits g commas first last).mapM fun split => s.attachmentsAt g first split last <;> rfl
  | finish last =>
    simp only [step, hcell, stored_checking, Grammar.root?_checking]
    cases s.chart.cellItems 0 last with
    | error fault => rfl
    | ok indices =>
      simp only [Outcome.ok_bind]
      cases indices.mapM s.stored <;> rfl
  | close first last =>
    simp only [step, hcell]
    cases s.chart.cellItems first last <;> rfl
  | round first last frontier =>
    cases frontier with
    | nil => rfl
    | cons index others =>
      simp only [step, stored_checking, Grammar.projections_checking]
      cases (index :: others).mapM s.stored <;> rfl
  | stop first last candidates =>
    simp only [step, modificand_checking, Grammar.stop_checking]
    cases candidates.mapM s.modificand <;> rfl
  | offers first last items taken next =>
    cases items with
    | nil => rfl
    | cons item items =>
      have hadd : (s.checking check).chart.add (g.checking check).language first last item =
          (s.chart.add g.language first last item).map fun (c, index) =>
            (c.checking check, index) := Chart.offer_checking g.language item none
      simp only [step, hadd]
      cases s.chart.add g.language first last item <;> rfl

theorem Progress.checking_self (h : p.search.chart.settings.futureCheck = check) :
    p.checking check = p := by
  subst h
  rfl

theorem Progress.step_checking (foresees : g.model.Foresees) :
    (p.checking check).step (g.checking check) commas =
      (p.step g commas).map (·.checking check) := by
  obtain ⟨s, agenda⟩ := p
  cases agenda with
  | nil => rfl
  | cons task rest =>
    simp only [Progress.checking, Progress.step, Task.step_checking foresees]
    cases task.step g commas s <;> rfl

theorem Leads.checking (foresees : g.model.Foresees) (h : Leads g commas p q) (check : Bool) :
    Leads (g.checking check) commas (p.checking check) (q.checking check) := by
  induction h with
  | refl => exact .refl
  | step _ next ih =>
    refine .step ih ?_
    rw [Progress.step_checking foresees, next, Outcome.map_ok]

end Search

namespace Decoder

variable {d : Decoder} {sentence : Sentence}

theorem grammar_decode (d : Decoder) (sentence : Sentence) :
    (d.decode sentence).1.grammar = d.grammar := by
  simp only [decode, prepare]
  split
  · rfl
  · split
    · rfl
    · split <;> rfl

theorem decode_checking (foresees : d.grammar.model.Foresees) (check : Bool) :
    (d.checking check).decode sentence =
      ((d.decode sentence).1.checking check, (d.decode sentence).2) := by
  have hskips : skips (d.checking check).grammar sentence = skips d.grammar sentence := rfl
  have hbest : best? (d.checking check).grammar = best? d.grammar := rfl
  cases h : skips d.grammar sentence with
  | true =>
    rw [decode_skipped h, decode_skipped (hskips.trans h)]
    rfl
  | false =>
    have hready : (d.checking check).chart.resized sentence.length =
        (d.chart.resized sentence.length).checking check := rfl
    have hfill : Search.fill (d.checking check).grammar
          ((d.chart.resized sentence.length).checking check) (d.checking check).histories
          ((d.checking check).grammar.commas sentence) sentence =
        (Search.fill d.grammar (d.chart.resized sentence.length) d.histories
          (d.grammar.commas sentence) sentence).map fun (s, histories) =>
            (s.checking check, histories) :=
      Search.fill_checking foresees d.histories (d.grammar.commas sentence) sentence
    simp only [decode, hskips, h, prepare, hready, hfill, Bool.false_eq_true, if_false]
    cases Search.fill d.grammar (d.chart.resized sentence.length) d.histories
        (d.grammar.commas sentence) sentence with
    | error fault => rfl
    | ok r =>
      have hread : best? (d.checking check).grammar (r.1.checking check).chart sentence =
          best? d.grammar r.1.chart sentence := rfl
      simp only [Outcome.map_ok, hread]
      cases best? d.grammar r.1.chart sentence with
      | error fault => rfl
      | ok found => cases found <;> rfl

theorem after_checking (foresees : g.model.Foresees) (check : Bool) (sentences : List Sentence) :
    after (g.checking check) sentences = (after g sentences).checking check := by
  suffices general : ∀ d : Decoder, d.grammar = g →
      sentences.foldl (fun d sentence => (d.decode sentence).1) (d.checking check) =
        (sentences.foldl (fun d sentence => (d.decode sentence).1) d).checking check from
    general (ofGrammar g) rfl
  induction sentences with
  | nil => exact fun _ _ => rfl
  | cons sentence sentences ih =>
    rintro d rfl
    rw [List.foldl_cons, decode_checking foresees]
    exact ih _ (grammar_decode d sentence)

theorem passes_checking (foresees : d.grammar.model.Foresees) {p : Search.Progress}
    (h : d.Passes sentence p) (check : Bool) :
    (d.checking check).Passes sentence (p.checking check) :=
  ⟨h.1, Search.Leads.checking foresees h.2 check⟩

end Decoder

/-- Whatever the statements of a table are, a decoder that checks futures and one that does not
do the same to every sentence: they answer alike, and are left with the same cells, items,
positions and questions. So they do step by step, also where a cell never settles. -/
theorem futures_redundant (frames : FrameKind) (statements : List Model.Statement)
    (language : Language) (settings : Settings) (earlier : List Sentence) (sentence : Sentence) :
    let g := (Model.Table.ofStatements frames statements).grammar language settings
    let checked := Decoder.after (g.checking true) earlier
    let unchecked := Decoder.after (g.checking false) earlier
    checked.decode sentence =
        ((unchecked.decode sentence).1.checking true, (unchecked.decode sentence).2) ∧
      ∀ p, checked.Passes sentence p ↔
        ∃ q, unchecked.Passes sentence q ∧ p = q.checking true := by
  intro g checked unchecked
  have foresees : g.model.Foresees := fun _ possible =>
    Model.Table.futurePossible_of_possible _ possible
  have on : checked = unchecked.checking true :=
    Decoder.after_checking (g := g.checking false) foresees true earlier
  have off : unchecked = checked.checking false :=
    Decoder.after_checking (g := g.checking true) foresees false earlier
  obtain ⟨hchecked, -⟩ := Decoder.coherent_after (g.checking true) earlier
  obtain ⟨hunchecked, -⟩ := Decoder.coherent_after (g.checking false) earlier
  have foreseesChecked : checked.grammar.model.Foresees := by rwa [hchecked]
  have foreseesUnchecked : unchecked.grammar.model.Foresees := by rwa [hunchecked]
  refine ⟨by rw [on, Decoder.decode_checking foreseesUnchecked], fun p => ⟨fun passes => ?_, ?_⟩⟩
  · refine ⟨p.checking false, off ▸ Decoder.passes_checking foreseesChecked passes false, ?_⟩
    have settings := (Decoder.Passes.sound_after passes).chart.settings
    refine (Search.Progress.checking_self ?_).symm
    exact congrArg Settings.futureCheck settings
  · rintro ⟨q, passes, rfl⟩
    exact on ▸ Decoder.passes_checking foreseesUnchecked passes true

end HeadDriven
