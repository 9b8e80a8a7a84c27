import HeadDriven.Proofs.Arena.Steady
import HeadDriven.Proofs.Chart.Entering
import HeadDriven.Proofs.Chart.InPlace

/-! Verdicts on offers. An offer that is not turned away brings its item into its group; one that
is turned away, or breaks a contract, changes nothing that can be read off the chart. A verdict is
final: what was offered since the chart was cleared, and whatever has its key and does no better,
is turned away from then on, though the group may have changed ever so often in between. -/
namespace HeadDriven

def Shape.label : Shape → Symbol
  | .stopped label .. => label
  | .growing label .. => label
  | .baseNp label .. => label

namespace Chart

/-- The key that a chart finds for an item. -/
def foundKey (c : Chart) (language : Language) (item : Item) (known : Option Bool) :
    Except Fault Key :=
  (c.key language c.settings.equivalence item known).map Prod.fst

/-- A later state of a chart, which answers all questions about stored items alike. -/
structure Lasts (language : Language) (c next : Chart) : Prop extends c.Grows next where
  steady : Arena.Steady language c.settings.baseNpVerbBarrier c.arena next.arena

/-- What comes of an offer, with the chart that it leaves. -/
inductive Verdict (c : Chart) (language : Language) (first last : Nat) (item : Item) :
    Except Fault (Option Nat) × Chart → Prop where
  | taken {next : Chart} (size : next.arena.size = c.arena.size + 1)
      (stored : next.arena.items[c.arena.size]? = some item) (live : item.garbage = false)
      (listed : c.arena.size ∈ (next.groupAt first last item.label).indices) :
      Verdict c language first last item (.ok (some c.arena.size), next)
  | refused {next : Chart} (settings : next.settings = c.settings) (size : next.size = c.size)
      (cells : next.cells = c.cells) (items : next.arena.items = c.arena.items)
      (answers : ∀ index < c.arena.size,
        next.arena.answer language c.settings.baseNpVerbBarrier index =
          c.arena.answer language c.settings.baseNpVerbBarrier index) :
      Verdict c language first last item (.ok none, next)
  | fault (fault : Fault) : Verdict c language first last item (.error fault, c)

variable {c next : Chart} {language : Language} {offers : Offers} {first last : Nat} {item : Item}
  {key : Key} {known known' : Option Bool} {taken : Option Nat}

theorem Verdict.index_eq {result : Except Fault (Option Nat) × Chart} {index : Nat}
    (h : c.Verdict language first last item result) (taken : result.1 = .ok (some index)) :
    index = c.arena.size := by
  cases h with
  | taken =>
    cases taken
    rfl
  | refused | fault => cases taken

theorem Lasts.refl (c : Chart) : Lasts language c c := ⟨.refl c, .refl _⟩

theorem Lasts.trans {third : Chart} (h : Lasts language c next) (h' : Lasts language next third) :
    Lasts language c third where
  toGrows := h.toGrows.trans h'.toGrows
  steady := h.steady.trans (h.settings ▸ h'.steady)

theorem lasts_of_key {equivalence : Equivalence}
    (h : c.key language equivalence item known = .ok (key, known', next)) :
    Lasts language c next := by
  obtain ⟨headLabel, -, h⟩ := Outcome.bind_eq_ok.mp h
  split at h
  · obtain ⟨⟨verb, next'⟩, hverb, h⟩ := Outcome.bind_eq_ok.mp h
    obtain ⟨⟨verb', asked⟩, hask, hverb⟩ := Outcome.bind_eq_ok.mp hverb
    cases h
    cases hverb
    have steady := Arena.steady_remember (Arena.answer_of_asked_for hask)
    exact ⟨⟨rfl, rfl, steady.toExtends⟩, steady⟩
  · cases h
    exact .refl c

theorem lasts_takeAs (filed : c.Filed language) : Lasts language c (c.takeAs item key known) where
  toGrows := grows_takeAs
  steady := grows_takeAs.arena.steady fun index hi => Or.inl <| by
    rw [verbs_takeAs filed, if_neg (Nat.ne_of_lt hi)]

theorem Filed.lasts_offer (filed : c.Filed language)
    (h : c.offer language first last item known = .ok (next, taken)) : Lasts language c next := by
  obtain ⟨inside, rfl, rfl, head⟩ := offered_of_ok h
  obtain ⟨verb, known', arena, hkey, recalls, -⟩ := key_ok filed.linked head known
  have lasts := lasts_of_key hkey
  rw [filed.offer_eq inside recalls hkey] at h
  split at h
  · cases h
    exact lasts
  · cases h
    exact lasts.trans (lasts_takeAs (filed.recalling recalls))

theorem Lasts.foundKey (h : Lasts language c next) (head : c.arena.HasHead item)
    (known : Option Bool) :
    next.foundKey language item known = c.foundKey language item known := by
  have asked (c : Chart) (head : c.arena.HasHead item) : c.foundKey language item known =
      if item.stopped then
        (c.arena.answerOf language c.settings.baseNpVerbBarrier item known).map
          (Key.ofItem c.settings.equivalence language item (c.arena.headLabelOf? item))
      else .ok (Key.ofItem c.settings.equivalence language item (c.arena.headLabelOf? item)
        false) := by
    rw [Chart.foundKey, Chart.key, Arena.headChildLabel?_eq head, Outcome.ok_bind]
    split
    · rw [containsVerb, Arena.answerOf]
      cases c.arena.verbOf language c.settings.baseNpVerbBarrier item known <;> rfl
    · rfl
  rw [asked next (head.extends h.arena), asked c head, h.settings, h.steady.answerOf head,
    h.arena.headLabelOf? head]

theorem Filed.exists_key (filed : c.Filed language)
    (h : c.foundKey language item known = .ok key) :
    ∃ verb known' arena, key = Key.ofItem c.settings.equivalence language item
        (c.arena.headLabelOf? item) verb ∧ c.arena.Recalls arena ∧
      c.key language c.settings.equivalence item known = .ok (key, known', { c with arena }) := by
  obtain ⟨⟨found, _, _⟩, hfound, rfl⟩ := Outcome.map_eq_ok.mp h
  obtain ⟨verb, known', arena, hkey, recalls, -⟩ :=
    key_ok filed.linked (hasHead_of_key hfound) known
  obtain ⟨rfl, -⟩ := Prod.mk.inj (Except.ok.inj (hfound.symm.trans hkey))
  exact ⟨verb, known', arena, rfl, recalls, hkey⟩

theorem Filed.label_of_foundKey (filed : c.Filed language)
    (h : c.foundKey language item known = .ok key) : key.shape.label = item.label := by
  obtain ⟨verb, -, -, rfl, -⟩ := filed.exists_key h
  unfold Key.ofItem
  split
  · rfl
  · split <;> rfl

theorem Kept.turnsAway (kept : c.Kept language offers) (hcap : 1 ≤ c.settings.maxCellSize)
    {o : Entry} (offered : o ∈ offers item.first item.last item.label)
    (inside : c.Inside item.first item.last) (found : c.foundKey language item known = .ok o.key)
    (score : item.score ≤ o.score) :
    ∃ same, c.offer language item.first item.last item known = .ok (same, none) := by
  obtain ⟨-, known', arena, -, recalls, hkey⟩ := kept.filed.exists_key found
  have contested := kept.contested _ _ inside item.label
  have closes := contested.toTrim.refuses_of_settled (contested.scores o offered) hcap
    (contested.settled o offered)
  have lower := LabelGroup.refuses_of_le contested.toDistinct score closes
  exact ⟨_, (kept.filed.offer_eq inside recalls hkey).trans (if_pos lower)⟩

theorem Kept.listed_takeAs (kept : c.Kept language offers)
    (inside : c.Inside item.first item.last) (hcap : 1 ≤ c.settings.maxCellSize)
    (hbeam : 0.0 ≤ c.settings.beamWidth) (score : LogProb.Bounded item.score)
    (opens : (c.groupOf item).refuses c.settings.beamWidth c.settings.maxCellSize item.score key
      = false) :
    (c.takeAs item key known).arena.items[c.arena.size]? = some item ∧
      c.arena.size ∈
        ((c.takeAs item key known).groupAt item.first item.last item.label).indices := by
  have filed := kept.filed
  have listed : (⟨c.arena.size, item.score, key⟩ : Entry) ∈ (c.acceptingAs item key).1.entries :=
    (kept.contested _ _ inside item.label).toTrim.mem_accept score
      (fun x hx => filed.index_lt inside hx) hbeam hcap opens
  refine ⟨items_takeAs_self ((filed.accepted inside key).not_lost _ listed), ?_⟩
  rw [groupAt_takeAs_self filed inside]
  exact List.mem_map_of_mem listed

theorem Kept.verdict (kept : c.Kept language offers) (hcap : 1 ≤ c.settings.maxCellSize)
    (hbeam : 0.0 ≤ c.settings.beamWidth) (fresh : item.garbage = false)
    (score : LogProb.Bounded item.score) :
    c.Verdict language first last item (c.offered language first last item known) := by
  unfold offered
  cases hoffer : c.offer language first last item known with
  | error fault => exact .fault fault
  | ok r =>
    obtain ⟨next, taken⟩ := r
    have lasts := kept.filed.lasts_offer hoffer
    obtain ⟨inside, rfl, rfl, head⟩ := offered_of_ok hoffer
    obtain ⟨verb, known', arena, hkey, recalls, -⟩ := key_ok kept.filed.linked head known
    rw [kept.filed.offer_eq inside recalls hkey] at hoffer
    split at hoffer
    · cases hoffer
      exact .refused rfl rfl rfl recalls.items lasts.steady.answers
    · rename_i opens
      cases hoffer
      have size : arena.size = c.arena.size := by simp [Arena.size, recalls.items]
      obtain ⟨stored, listed⟩ := (kept.recalling recalls).listed_takeAs inside hcap hbeam score
        (Bool.eq_false_iff.mpr opens)
      rw [show ({ c with arena } : Chart).arena.size = c.arena.size from size] at stored listed
      exact .taken (by simp [takeAs_arena, size]) stored fresh listed

end Chart

namespace Ledger

variable {settings : Settings} {language : Language} {calls : List Call} {call : Call}
  {l next third : Ledger}

structure Runs (language : Language) (l next : Ledger) : Prop where
  lasts : Chart.Lasts language l.chart next.chart
  includes : next.offers.Includes l.offers

theorem Runs.refl (l : Ledger) : Runs language l l := ⟨.refl _, fun _ _ _ _ h => h⟩

theorem Runs.trans (h : Runs language l next) (h' : Runs language next third) :
    Runs language l third where
  lasts := h.lasts.trans h'.lasts
  includes first last label _ ho := h'.includes first last label (h.includes first last label ho)

theorem exists_perform_add {c : Chart} {first last : Nat} {item : Item} {known : Option Bool}
    {taken : Option Nat} (kept : l.chart.Kept language l.offers)
    (h : l.chart.offer language first last item known = .ok (c, taken)) :
    ∃ e : Entry, l.perform language (.add first last item known) =
        ⟨c, l.offers.enter first last item.label e⟩ ∧
      e.score = item.score ∧ l.chart.foundKey language item known = .ok e.key := by
  obtain ⟨key, hentry, -⟩ := kept.filed.answered h
  refine ⟨⟨l.chart.arena.size, item.score, key⟩, ?_, rfl, ?_⟩
  · simp only [perform, Chart.perform, h, hentry]
  · unfold Chart.entryOf? at hentry
    rw [Chart.foundKey]
    split at hentry
    · rename_i found _ hkey
      obtain rfl : found = key := congrArg Entry.key (Option.some.inj hentry)
      rw [hkey, Outcome.map_ok]
    · cases hentry

theorem runs_perform (kept : l.chart.Kept language l.offers)
    (stays : ∀ size, call ≠ .clear size) : Runs language l (l.perform language call) := by
  cases call with
  | clear size => exact absurd rfl (stays size)
  | add first last item known =>
    cases hoffer : l.chart.offer language first last item known with
    | error fault =>
      have same : l.perform language (.add first last item known) = l := by
        simp only [perform, Chart.perform, hoffer]
      rw [same]
      exact .refl l
    | ok r =>
      obtain ⟨e, same, -⟩ := exists_perform_add kept hoffer
      rw [same]
      exact ⟨kept.filed.lasts_offer hoffer, Chart.includes_enter⟩

theorem runs_foldl (kept : l.chart.Kept language l.offers)
    (hbeam : 0.0 ≤ l.chart.settings.beamWidth) (hcap : 1 ≤ l.chart.settings.maxCellSize)
    (fair : ∀ call ∈ calls, call.Fair) (stays : ∀ size, Call.clear size ∉ calls) :
    Runs language l (calls.foldl (perform language) l) := by
  induction calls generalizing l with
  | nil => exact .refl l
  | cons call calls ih =>
    have first : Runs language l (l.perform language call) :=
      runs_perform kept fun size same => stays size (same ▸ List.mem_cons_self)
    obtain ⟨kept, same⟩ := kept_perform kept hbeam hcap (fair call List.mem_cons_self)
    exact first.trans (ih kept (same ▸ hbeam) (same ▸ hcap)
      (fun other h => fair other (List.mem_cons_of_mem call h))
      fun size h => stays size (List.mem_cons_of_mem call h))

/-- An offer stays entered, and its key is found again, until the chart is cleared. -/
theorem exists_entered {before later : List Call} {c : Chart} {first last : Nat} {item : Item}
    {known : Option Bool} {taken : Option Nat} (hbeam : 0.0 ≤ settings.beamWidth)
    (hcap : 1 ≤ settings.maxCellSize)
    (fair : ∀ call ∈ before ++ .add first last item known :: later, call.Fair)
    (stays : ∀ size, Call.clear size ∉ later)
    (h : (Chart.after settings language before).offer language first last item known =
      .ok (c, taken)) :
    let l := after settings language (before ++ .add first last item known :: later)
    Chart.Lasts language (Chart.after settings language before) l.chart ∧
      ∃ e ∈ l.offers first last item.label, e.score = item.score ∧
        (Chart.after settings language before).foundKey language item known = .ok e.key := by
  intro l
  obtain ⟨fairBefore, fairAdd, fairLater⟩ :
      (∀ call ∈ before, call.Fair) ∧ (Call.add first last item known).Fair ∧
        ∀ call ∈ later, call.Fair := by
    simpa [or_imp, forall_and] using fair
  obtain ⟨kept, same⟩ := kept_after settings language before hbeam hcap fairBefore
  rw [← same] at hbeam hcap
  rw [← chart_after] at h ⊢
  obtain ⟨e, step, score, found⟩ := exists_perform_add kept h
  obtain ⟨kept', same'⟩ := kept_perform kept hbeam hcap fairAdd
  have first' : Runs language (after settings language before)
      ((after settings language before).perform language (.add first last item known)) :=
    runs_perform kept nofun
  have rest : Runs language
      ((after settings language before).perform language (.add first last item known)) l := by
    have whole : l = later.foldl (perform language)
        ((after settings language before).perform language (.add first last item known)) := by
      simp [l, after, List.foldl_append]
    rw [whole]
    exact runs_foldl kept' (same' ▸ hbeam) (same' ▸ hcap) fairLater stays
  refine ⟨(first'.trans rest).lasts, e, rest.includes _ _ _ ?_, score, found⟩
  rw [step]
  show e ∈ (after settings language before).offers.enter first last item.label e first last
    item.label
  rw [Chart.enter_self]
  exact List.mem_append_right _ (List.mem_singleton_self e)

end Ledger

namespace Chart

/-- Offers in place come to what offers come to. One that is taken has its place, one that is not
changes nothing, and what was offered once is turned away until the chart is cleared. A position
that is given out is one of the arena's as long as the arena is not full. -/
theorem offers_stand (settings : Settings) (language : Language) (calls : List Call)
    (hcap : 1 ≤ settings.maxCellSize) (hbeam : 0.0 ≤ settings.beamWidth)
    (fair : ∀ call ∈ calls, call.Fair) :
    let c := after settings language calls
    (∀ first last item known, (Call.add first last item known).Fair →
      (Edit.offer language first last item known).on c = c.offered language first last item known ∧
      c.Verdict language first last item
        ((Edit.offer language first last item known).on c) ∧
      (c.arena.size < Arena.capacity → ∀ index,
        ((Edit.offer language first last item known).on c).1 = .ok (some index) →
          index < Arena.capacity)) ∧
    ∀ before first last item known later,
      calls = before ++ .add first last item known :: later → (∀ size, Call.clear size ∉ later) →
      let b := after settings language before
      ∀ next taken, b.offer language first last item known = .ok (next, taken) →
        (∃ same, c.offer language first last item known = .ok (same, none)) ∧
        ∀ again known', again.first = first → again.last = last → again.score ≤ item.score →
          c.foundKey language again known' = b.foundKey language item known →
          ∃ same, c.offer language first last again known' = .ok (same, none) := by
  intro c
  obtain ⟨kept, same⟩ := Ledger.kept_after settings language calls hbeam hcap fair
  have hbeam' : 0.0 ≤ (Ledger.after settings language calls).chart.settings.beamWidth := by
    rwa [same]
  have hcap' : 1 ≤ (Ledger.after settings language calls).chart.settings.maxCellSize := by
    rwa [same]
  rw [Ledger.chart_after] at kept hbeam' hcap'
  refine ⟨fun first last item known offered => ?_, ?_⟩
  · rw [kept.filed.offer_on]
    have verdict : c.Verdict language first last item (c.offered language first last item known) :=
      kept.verdict hcap' hbeam' offered.1 offered.2
    exact ⟨rfl, verdict, fun room index taken => verdict.index_eq taken ▸ room⟩
  · rintro before first last item known later rfl stays b next taken made
    obtain ⟨lasts, e, entered, score, found⟩ :=
      Ledger.exists_entered hbeam hcap fair stays made
    rw [Ledger.chart_after] at lasts
    obtain ⟨inside, hfirst, hlast, head⟩ := offered_of_ok made
    have inside' : c.Inside first last := hfirst ▸ hlast ▸ lasts.inside.mpr inside
    have again : ∀ again known', again.first = first → again.last = last →
        again.score ≤ item.score →
        c.foundKey language again known' = b.foundKey language item known →
        ∃ same, c.offer language first last again known' = .ok (same, none) := by
      rintro again known' rfl rfl worse key
      have first : c.foundKey language item known = .ok e.key :=
        (lasts.foundKey head known).trans found
      have label : item.label = again.label :=
        (kept.filed.label_of_foundKey first).symm.trans
          (kept.filed.label_of_foundKey (key.trans found))
      exact kept.turnsAway hcap' (label ▸ entered) inside' (key.trans found) (score ▸ worse)
    have number : LogProb.Bounded item.score :=
      (fair _ (List.mem_append_right before List.mem_cons_self)).2
    exact ⟨again item known hfirst hlast (LogProb.numbers_le_refl number.number)
      (lasts.foundKey head known), again⟩

/-- The first competitor, which a better one of its key has replaced, is turned away when it comes
again; a better item of another key finds its place. -/
theorem sample_offers_stand :
    let c := after Sample.narrowCell Language.plain Sample.competition
    let item (word : Nat) := Item.preterminal ⟨⟨word⟩, ⟨4⟩⟩ 0 (.fresh (.empty .bag) [] [])
    1 ≤ Sample.narrowCell.maxCellSize ∧ 0.0 ≤ Sample.narrowCell.beamWidth ∧
      (∀ call ∈ Sample.competition, call.Fair) ∧
      (Call.add 0 0 (item 9 (-1.0)) none).Fair ∧
      ((Edit.offer Language.plain 0 0 (item 9 (-1.0)) none).on c).1.toOption = some (some 3) ∧
      c.Verdict Language.plain 0 0 (item 9 (-1.0))
        ((Edit.offer Language.plain 0 0 (item 9 (-1.0)) none).on c) ∧
      ∃ same, c.offer Language.plain 0 0 (item 5 (-3.0)) none = .ok (same, none) := by
  intro c item
  have hcap : 1 ≤ Sample.narrowCell.maxCellSize := by decide
  have hbeam : 0.0 ≤ Sample.narrowCell.beamWidth := by decide +kernel
  have fair : ∀ call ∈ Sample.competition, call.Fair := by decide +kernel
  have fair' : (Call.add 0 0 (item 9 (-1.0)) none).Fair := by decide +kernel
  obtain ⟨verdicts, final⟩ := offers_stand Sample.narrowCell Language.plain Sample.competition hcap
    hbeam fair
  have offered : ((after Sample.narrowCell Language.plain [.clear 1]).offer Language.plain 0 0
      (item 5 (-3.0)) none).toOption.isSome = true := by decide +kernel
  obtain ⟨⟨next, taken⟩, made⟩ := Option.isSome_iff_exists.mp offered
  refine ⟨hcap, hbeam, fair, fair', by decide +kernel, (verdicts 0 0 _ none fair').2.1, ?_⟩
  exact (final [.clear 1] 0 0 (item 5 (-3.0)) none _ rfl (by simp [Sample.competitor]) next taken
    (Outcome.eq_ok_of_toOption made)).1

end Chart

end HeadDriven
