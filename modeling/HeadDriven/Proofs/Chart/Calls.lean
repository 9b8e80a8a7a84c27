import HeadDriven.Proofs.Chart.Filing
import HeadDriven.Proofs.Chart.Standing

/-! What calls make of a chart. Whatever is cleared and offered, the groups of a chart stay
trim, and list the items that are no garbage, each of them once. The entries of a group are
those offers that hold its places. -/
namespace HeadDriven

open LogProb

/-- A call that changes a chart. Of the verbs of an offered item something may be remembered. -/
inductive Call where
  | clear (size : Nat)
  | add (first last : Nat) (item : Item) (known : Option Bool)

/-- Offered items are no garbage, and their scores can be placed. -/
def Call.Fair : Call → Prop
  | .clear _ => True
  | .add _ _ item _ => item.garbage = false ∧ Bounded item.score

abbrev Offers := Nat → Nat → Symbol → List Entry

def Offers.enter (offers : Offers) (first last : Nat) (label : Symbol) (e : Entry) : Offers :=
  fun first' last' label' =>
    if first = first' ∧ last = last' ∧ label = label' then offers first' last' label' ++ [e]
    else offers first' last' label'

instance : DecidablePred Call.Fair
  | .clear _ => inferInstanceAs (Decidable True)
  | .add _ _ _ _ => inferInstanceAs (Decidable (_ ∧ _))

/-- A chart with the offers made to it since it was cleared. -/
structure Ledger where
  chart : Chart
  offers : Offers

namespace Chart

/-- A call on a chart. One that breaks a contract changes nothing. -/
def perform (language : Language) (c : Chart) : Call → Chart
  | .clear size => c.resized size
  | .add first last item known =>
    match c.offer language first last item known with
    | .ok (next, _) => next
    | .error _ => c

def after (settings : Settings) (language : Language) (calls : List Call) : Chart :=
  calls.foldl (perform language) (empty settings)

def entryOf? (c : Chart) (language : Language) (item : Item) (known : Option Bool) :
    Option Entry :=
  match c.key language c.settings.equivalence item known with
  | .ok (key, _) => some ⟨c.arena.size, item.score, key⟩
  | .error _ => none

end Chart

namespace Ledger

def empty (settings : Settings) : Ledger := ⟨Chart.empty settings, fun _ _ _ => []⟩

def perform (language : Language) (l : Ledger) (call : Call) : Ledger where
  chart := l.chart.perform language call
  offers := match call with
    | .clear _ => fun _ _ _ => []
    | .add first last item known =>
      match l.chart.offer language first last item known with
      | .ok _ =>
        match l.chart.entryOf? language item known with
        | some e => l.offers.enter first last item.label e
        | none => l.offers
      | .error _ => l.offers

/-- The chart after a row of calls, with the offers made since it was last cleared. -/
def after (settings : Settings) (language : Language) (calls : List Call) : Ledger :=
  calls.foldl (perform language) (empty settings)

end Ledger

namespace Chart

variable {c next : Chart} {language : Language} {first last : Nat} {item : Item} {key : Key}
  {known : Option Bool} {taken : Option Nat}

theorem hasHead_of_key {equivalence : Equivalence} {r : Key × Option Bool × Chart}
    (h : c.key language equivalence item known = .ok r) : c.arena.HasHead item := by
  obtain ⟨label, hlabel, -⟩ := Outcome.bind_eq_ok.mp h
  intro child hchild
  rw [Arena.headChildLabel?, hchild] at hlabel
  cases hget : c.arena.get child with
  | error fault =>
    simp only [hget] at hlabel
    cases hlabel
  | ok head => exact (Array.getElem?_eq_some_iff.mp (Arena.get_eq_ok_iff.mp hget)).choose

theorem offered_of_ok (h : c.offer language first last item known = .ok (next, taken)) :
    c.Inside item.first item.last ∧ item.first = first ∧ item.last = last ∧
      c.arena.HasHead item := by
  obtain ⟨cell, hcell, h⟩ := Outcome.bind_eq_ok.mp h
  have inside : c.Inside first last := by
    unfold Chart.cell at hcell
    split at hcell
    · assumption
    · cases hcell
  split at h
  · cases h
  · rename_i hspan
    obtain ⟨rfl, rfl⟩ : item.first = first ∧ item.last = last := by tauto
    obtain ⟨⟨key, known', asked⟩, hkey, -⟩ := Outcome.bind_eq_ok.mp h
    exact ⟨inside, rfl, rfl, hasHead_of_key hkey⟩

/-- The two outcomes of an offer that breaks no contract. -/
inductive Answered (c : Chart) (language : Language) (item : Item) (known : Option Bool)
    (key : Key) (next : Chart) : Prop where
  | refused (arena : Arena) (recalls : c.arena.Recalls arena)
      (closes : (c.groupOf item).refuses c.settings.beamWidth c.settings.maxCellSize item.score key
        = true) (same : next = { c with arena })
  | taken (arena : Arena) (recalls : c.arena.Recalls arena) (verb : Bool) (known' : Option Bool)
      (opens : (c.groupOf item).refuses c.settings.beamWidth c.settings.maxCellSize item.score key
        = false)
      (found : key =
        Key.ofItem c.settings.equivalence language item (c.arena.headLabelOf? item) verb)
      (remembered : item.stopped = true → known' = some verb)
      (same : next = { c with arena }.takeAs item key known')

theorem Filed.answered (filed : c.Filed language)
    (h : c.offer language first last item known = .ok (next, taken)) :
    ∃ key, c.entryOf? language item known = some ⟨c.arena.size, item.score, key⟩ ∧
      c.Answered language item known key next := by
  obtain ⟨inside, rfl, rfl, head⟩ := offered_of_ok h
  obtain ⟨verb, known', arena, hkey, recalls, remembered⟩ := key_ok filed.linked head known
  refine ⟨_, by rw [entryOf?, hkey], ?_⟩
  rw [filed.offer_eq inside recalls hkey] at h
  split at h
  · rename_i closes
    cases h
    exact .refused arena recalls closes rfl
  · rename_i opens
    cases h
    exact .taken arena recalls verb known' (Bool.eq_false_iff.mpr opens) rfl remembered rfl

/-- What calls keep of a chart and of the offers made to it. -/
structure Kept (c : Chart) (language : Language) (offers : Offers) : Prop where
  filed : c.Filed language
  vacant : ∀ place, (∀ first last, c.Inside first last → place ≠ first * c.size + last) →
    c.cells.getD place [] = []
  contested : ∀ first last, c.Inside first last → ∀ label,
    (c.groupAt first last label).Contested c.settings.beamWidth c.settings.maxCellSize
      (offers first last label)
  arrived : ∀ first last label, ∀ o ∈ offers first last label, o.index ≤ c.arena.size

variable {offers : Offers} {label : Symbol} {e : Entry}

theorem kept_resized (c : Chart) (language : Language) (size : Nat) :
    (c.resized size).Kept language fun _ _ _ => [] where
  filed := filed_resized c language size
  vacant place _ := cells_resized c size place
  contested first last _ label := by
    rw [groupAt_resized]
    exact LabelGroup.contested_empty
  arrived _ _ _ _ h := absurd h List.not_mem_nil

theorem enter_self : offers.enter first last label e first last label =
    offers first last label ++ [e] := if_pos ⟨rfl, rfl, rfl⟩

theorem enter_of_ne {first' last' : Nat} {label' : Symbol}
    (h : ¬(first = first' ∧ last = last' ∧ label = label')) :
    offers.enter first last label e first' last' label' = offers first' last' label' := if_neg h

theorem Kept.arrived_enter (kept : c.Kept language offers) (grows : c.Grows next) (score : Float) :
    ∀ first' last' label', ∀ o ∈ offers.enter first last label ⟨c.arena.size, score, key⟩
      first' last' label', o.index ≤ next.arena.size := by
  intro first' last' label' o ho
  have hle := grows.arena.size_le
  unfold Offers.enter at ho
  split at ho
  · rcases List.mem_append.mp ho with ho | ho
    · exact Nat.le_trans (kept.arrived _ _ _ o ho) hle
    · obtain rfl := List.mem_singleton.mp ho
      exact hle
  · exact Nat.le_trans (kept.arrived _ _ _ o ho) hle

theorem Kept.recalling (kept : c.Kept language offers) {arena : Arena}
    (recalls : c.arena.Recalls arena) : { c with arena }.Kept language offers where
  filed := kept.filed.recalling recalls
  vacant := kept.vacant
  contested := kept.contested
  arrived first last label o ho := by
    have size : arena.size = c.arena.size := by simp [Arena.size, recalls.items]
    exact size ▸ kept.arrived first last label o ho

theorem Kept.refused (kept : c.Kept language offers) (inside : c.Inside item.first item.last)
    (score : Bounded item.score)
    (closes : (c.groupOf item).refuses c.settings.beamWidth c.settings.maxCellSize item.score key
      = true) :
    c.Kept language
      (offers.enter item.first item.last item.label ⟨c.arena.size, item.score, key⟩) where
  filed := kept.filed
  vacant := kept.vacant
  contested first last h label := by
    by_cases same : item.first = first ∧ item.last = last ∧ item.label = label
    · obtain ⟨rfl, rfl, rfl⟩ := same
      rw [enter_self]
      exact (kept.contested _ _ inside item.label).refused score
        (kept.arrived _ _ _) (fun x hx => kept.filed.index_lt inside hx) closes
    · rw [enter_of_ne same]
      exact kept.contested first last h label
  arrived := kept.arrived_enter (.refl c) _

theorem Kept.accepted (kept : c.Kept language offers) (inside : c.Inside item.first item.last)
    (score : Bounded item.score) (hbeam : 0.0 ≤ c.settings.beamWidth)
    (hcap : 1 ≤ c.settings.maxCellSize) (filed : (c.takeAs item key known).Filed language)
    (opens : (c.groupOf item).refuses c.settings.beamWidth c.settings.maxCellSize item.score key
      = false) :
    (c.takeAs item key known).Kept language
      (offers.enter item.first item.last item.label ⟨c.arena.size, item.score, key⟩) where
  filed := filed
  vacant place free := by
    have hne := free item.first item.last inside
    have vacant := kept.vacant place free
    rw [Array.getD_eq_getD_getElem?] at vacant ⊢
    have cells : (c.takeAs item key known).cells[place]? = c.cells[place]? :=
      Array.getElem?_setIfInBounds_ne (Ne.symm hne)
    rw [cells, vacant]
  contested first last h label := by
    have h : c.Inside first last := h
    by_cases same : item.first = first ∧ item.last = last ∧ item.label = label
    · obtain ⟨rfl, rfl, rfl⟩ := same
      rw [enter_self, groupAt_takeAs_self kept.filed inside]
      exact (kept.contested _ _ inside item.label).accept score
        (kept.arrived _ _ _) (fun x hx => kept.filed.index_lt inside hx) hbeam hcap opens
    · rw [enter_of_ne same, groupAt_takeAs_of_ne inside h same]
      exact kept.contested first last h label
  arrived := kept.arrived_enter grows_takeAs _

theorem Kept.offer (kept : c.Kept language offers) (hbeam : 0.0 ≤ c.settings.beamWidth)
    (hcap : 1 ≤ c.settings.maxCellSize) (fresh : item.garbage = false) (score : Bounded item.score)
    (h : c.offer language first last item known = .ok (next, taken)) :
    ∃ e, c.entryOf? language item known = some e ∧ c.Grows next ∧
      next.Kept language (offers.enter first last item.label e) := by
  obtain ⟨key, hentry, outcome⟩ := kept.filed.answered h
  obtain ⟨inside, rfl, rfl, head⟩ := offered_of_ok h
  refine ⟨_, hentry, ?_⟩
  cases outcome with
  | refused arena recalls closes same =>
    subst same
    exact ⟨⟨rfl, rfl, .of_items recalls.items⟩,
      (kept.refused inside score closes).recalling recalls⟩
  | taken arena recalls verb known' opens found remembered same =>
    subst same
    have kept := kept.recalling recalls
    have grows : c.Grows { c with arena } := ⟨rfl, rfl, .of_items recalls.items⟩
    have size : arena.size = c.arena.size := by simp [Arena.size, recalls.items]
    refine ⟨grows.trans grows_takeAs, ?_⟩
    have filed : ({ c with arena }.takeAs item key known').Filed language := by
      refine kept.filed.takeAs inside (head.of_items recalls.items) fresh remembered ?_
      rw [Arena.headLabelOf?_congr recalls.items]
      exact found
    rw [← size]
    exact kept.accepted inside score hbeam hcap filed opens

end Chart

namespace Ledger

variable {settings : Settings} {language : Language} {calls : List Call} {call : Call} {l : Ledger}

theorem kept_perform (kept : l.chart.Kept language l.offers)
    (hbeam : 0.0 ≤ l.chart.settings.beamWidth) (hcap : 1 ≤ l.chart.settings.maxCellSize)
    (fair : call.Fair) :
    (l.perform language call).chart.Kept language (l.perform language call).offers ∧
      (l.perform language call).chart.settings = l.chart.settings := by
  cases call with
  | clear size => exact ⟨Chart.kept_resized l.chart language size, rfl⟩
  | add first last item known =>
    simp only [perform, Chart.perform]
    cases hoffer : l.chart.offer language first last item known with
    | error fault => exact ⟨kept, rfl⟩
    | ok r =>
      obtain ⟨next, taken⟩ := r
      obtain ⟨e, hentry, grows, kept⟩ := kept.offer hbeam hcap fair.1 fair.2 hoffer
      obtain ⟨-, hfirst, hlast, -⟩ := Chart.offered_of_ok hoffer
      subst hfirst hlast
      simp only [hentry]
      exact ⟨kept, grows.settings⟩

theorem kept_foldl (kept : l.chart.Kept language l.offers)
    (hbeam : 0.0 ≤ l.chart.settings.beamWidth) (hcap : 1 ≤ l.chart.settings.maxCellSize)
    (fair : ∀ call ∈ calls, call.Fair) :
    (calls.foldl (perform language) l).chart.Kept language
        (calls.foldl (perform language) l).offers ∧
      (calls.foldl (perform language) l).chart.settings = l.chart.settings := by
  induction calls generalizing l with
  | nil => exact ⟨kept, rfl⟩
  | cons call calls ih =>
    obtain ⟨kept, same⟩ := kept_perform kept hbeam hcap (fair call List.mem_cons_self)
    obtain ⟨kept, same'⟩ := ih kept (same ▸ hbeam) (same ▸ hcap)
      fun other h => fair other (List.mem_cons_of_mem call h)
    exact ⟨kept, same'.trans same⟩

theorem kept_after (settings : Settings) (language : Language) (calls : List Call)
    (hbeam : 0.0 ≤ settings.beamWidth) (hcap : 1 ≤ settings.maxCellSize)
    (fair : ∀ call ∈ calls, call.Fair) :
    (after settings language calls).chart.Kept language (after settings language calls).offers ∧
      (after settings language calls).chart.settings = settings := by
  have start : (empty settings).chart.Kept language (empty settings).offers := by
    have blank := Chart.kept_resized (Chart.empty settings) language 0
    rw [Chart.resized_eq] at blank
    exact blank
  exact kept_foldl start hbeam hcap fair

theorem chart_after (settings : Settings) (language : Language) (calls : List Call) :
    (after settings language calls).chart = Chart.after settings language calls := by
  have step (l : Ledger) : (calls.foldl (perform language) l).chart =
      calls.foldl (Chart.perform language) l.chart := by
    induction calls generalizing l with
    | nil => rfl
    | cons call calls ih => exact ih (l.perform language call)
  exact step (empty settings)

end Ledger

namespace Chart

/-- The groups of a chart and its stored items tell the same story. -/
structure Tidy (c : Chart) (language : Language) : Prop where
  cells : c.cells.size = c.size * c.size
  sorted : ∀ place, Cell.Sorted (c.cells.getD place [])
  vacant : ∀ place, (∀ first last, c.Inside first last → place ≠ first * c.size + last) →
    c.cells.getD place [] = []
  trim : ∀ first last, c.Inside first last → ∀ label,
    (c.groupAt first last label).Trim c.settings.beamWidth c.settings.maxCellSize
  files : ∀ first last, c.Inside first last → ∀ label,
    ∀ e ∈ (c.groupAt first last label).entries,
      ∃ item, c.Resides first last label e.index item ∧ e.score = item.score ∧
        (c.key language c.settings.equivalence item (c.arena.verbs.getD e.index none)).map
          Prod.fst = .ok e.key
  listed : ∀ index item, c.arena.items[index]? = some item →
    (item.garbage = false ↔
      ∃ first last label, c.Inside first last ∧ index ∈ (c.groupAt first last label).indices)
  once : ∀ index first last first' last' label label', c.Inside first last →
    c.Inside first' last' → index ∈ (c.groupAt first last label).indices →
    index ∈ (c.groupAt first' last' label').indices →
    first = first' ∧ last = last' ∧ label = label'

variable {c next : Chart} {language : Language} {offers : Offers}

theorem Filed.resides_of_mem (filed : c.Filed language) {first last index : Nat} {label : Symbol}
    (inside : c.Inside first last) (h : index ∈ (c.groupAt first last label).indices) :
    ∃ item, c.Resides first last label index item := by
  obtain ⟨e, he, rfl⟩ := List.mem_map.mp h
  obtain ⟨item, resides, -⟩ := filed.files first last inside label e he
  exact ⟨item, resides⟩

theorem Kept.tidy (kept : c.Kept language offers) : c.Tidy language where
  cells := kept.filed.cells
  sorted := kept.filed.sorted
  vacant := kept.vacant
  trim first last inside label := (kept.contested first last inside label).toTrim
  files _ _ inside _ _ he := kept.filed.key_eq inside he
  listed index item stored := by
    constructor
    · intro live
      obtain ⟨first, last, label, inside, e, he, rfl⟩ := kept.filed.listed index item stored live
      exact ⟨first, last, label, inside, List.mem_map_of_mem he⟩
    · rintro ⟨first, last, label, inside, h⟩
      obtain ⟨held, resides⟩ := kept.filed.resides_of_mem inside h
      obtain rfl : held = item := Option.some.inj (resides.stored.symm.trans stored)
      exact resides.live
  once index first last first' last' label label' inside inside' h h' := by
    obtain ⟨held, resides⟩ := kept.filed.resides_of_mem inside h
    obtain ⟨held', resides'⟩ := kept.filed.resides_of_mem inside' h'
    obtain rfl : held = held' := Option.some.inj (resides.stored.symm.trans resides'.stored)
    exact ⟨resides.first.symm.trans resides'.first, resides.last.symm.trans resides'.last,
      resides.label.symm.trans resides'.label⟩

theorem Filed.groupAt_offer (filed : c.Filed language) {first last first' last' : Nat} {item : Item}
    {known : Option Bool} {taken : Option Nat} {label : Symbol}
    (h : c.offer language first last item known = .ok (next, taken))
    (inside : c.Inside first' last')
    (others : ¬(first = first' ∧ last = last' ∧ item.label = label)) :
    next.groupAt first' last' label = c.groupAt first' last' label := by
  obtain ⟨key, -, outcome⟩ := filed.answered h
  obtain ⟨inside', rfl, rfl, -⟩ := offered_of_ok h
  cases outcome with
  | refused arena _ _ same =>
    subst same
    rfl
  | taken arena _ _ known' _ _ _ same =>
    subst same
    have inside' : { c with arena }.Inside item.first item.last := inside'
    exact groupAt_takeAs_of_ne inside' inside others

namespace Sample

def competitor (word : Nat) (logPrior : Float) : Call :=
  .add 0 0 (Item.preterminal ⟨⟨word⟩, ⟨4⟩⟩ 0 (.fresh (.empty .bag) [] []) logPrior) none

/-- An item that is replaced, one that is as good, and two that have no place. -/
def competition : List Call :=
  [.clear 1, competitor 5 (-3.0), competitor 6 (-2.0), competitor 5 (-2.0), competitor 7 (-2.0),
    competitor 8 (-20.0)]

def narrowCell : Settings := { Settings.default with maxCellSize := 2 }

def bestOnly : Settings := { narrowCell with pruneFactor := 0.0 }

end Sample

/-- Whatever is cleared and offered, a chart is tidy, and an offer leaves all groups alone but
the one it is made to. -/
theorem after_tidy (settings : Settings) (language : Language) (calls : List Call)
    (hcap : 1 ≤ settings.maxCellSize) (hbeam : 0.0 ≤ settings.beamWidth)
    (fair : ∀ call ∈ calls, call.Fair) :
    let c := Chart.after settings language calls
    c.Tidy language ∧
      ∀ first last item known next taken,
        c.offer language first last item known = .ok (next, taken) →
        ∀ first' last' label, c.Inside first' last' →
          ¬(first = first' ∧ last = last' ∧ item.label = label) →
          next.groupAt first' last' label = c.groupAt first' last' label := by
  intro c
  obtain ⟨kept, -⟩ := Ledger.kept_after settings language calls hbeam hcap fair
  rw [Ledger.chart_after] at kept
  exact ⟨kept.tidy, fun _ _ _ _ _ _ h _ _ _ inside others =>
    kept.filed.groupAt_offer h inside others⟩

theorem sample_after_tidy :
    1 ≤ Sample.narrowCell.maxCellSize ∧ 0.0 ≤ Sample.narrowCell.beamWidth ∧
      (∀ call ∈ Sample.competition, call.Fair) ∧
      (Chart.after Sample.narrowCell Language.plain Sample.competition).Tidy Language.plain ∧
      ((Chart.after Sample.narrowCell Language.plain Sample.competition).groupAt 0 0 ⟨4⟩).indices =
        [1, 2] := by
  have hcap : 1 ≤ Sample.narrowCell.maxCellSize := by decide
  have hbeam : 0.0 ≤ Sample.narrowCell.beamWidth := by decide +kernel
  have fair : ∀ call ∈ Sample.competition, call.Fair := by decide +kernel
  exact ⟨hcap, hbeam, fair, (after_tidy _ _ _ hcap hbeam fair).1, by decide +kernel⟩

end Chart

/-- The entries of a group are the offers that hold its places among all that were made to it
since the chart was cleared. For the same offers and the same cap, a narrower beam leaves the
first of them. -/
theorem Ledger.entries_standing (settings : Settings) (language : Language) (calls : List Call)
    (first last : Nat) (label : Symbol) (hcap : 1 ≤ settings.maxCellSize)
    (hbeam : 0.0 ≤ settings.beamWidth) (fair : ∀ call ∈ calls, call.Fair)
    (inside : (after settings language calls).chart.Inside first last) :
    let offers := (after settings language calls).offers first last label
    let entries := ((after settings language calls).chart.groupAt first last label).entries
    entries.map some = (standing (offers.map Entry.bid) settings.beamWidth
        settings.maxCellSize).map (fun o => offers[o.time]?) ∧
      ∀ (narrow : Settings) (language' : Language) (calls' : List Call) (first' last' : Nat)
        (label' : Symbol),
        narrow.maxCellSize = settings.maxCellSize → 0.0 ≤ narrow.beamWidth →
        narrow.beamWidth ≤ settings.beamWidth → (∀ call ∈ calls', call.Fair) →
        (after narrow language' calls').chart.Inside first' last' →
        let offers' := (after narrow language' calls').offers first' last' label'
        let entries' := ((after narrow language' calls').chart.groupAt first' last' label').entries
        offers'.map Entry.bid = offers.map Entry.bid →
          entries'.map (Entry.among offers') <+: entries.map (Entry.among offers) := by
  intro offers entries
  obtain ⟨kept, same⟩ := kept_after settings language calls hbeam hcap fair
  have contested := kept.contested first last inside label
  rw [same] at contested
  refine ⟨contested.entries_eq hbeam, ?_⟩
  intro narrow language' calls' first' last' label' cap hnarrow narrower fair' inside' offers'
    entries' bids
  obtain ⟨kept', same'⟩ := kept_after narrow language' calls' hnarrow (cap ▸ hcap) fair'
  have contested' := kept'.contested first' last' inside' label'
  rw [same'] at contested'
  show entries'.map (Entry.among offers') <+: entries.map (Entry.among offers)
  rw [contested.entries_among hbeam, contested'.entries_among hnarrow, bids, cap]
  refine standing_prefix (fun p hp => ?_) hnarrow hbeam narrower _
  obtain ⟨o, ho, rfl⟩ := List.mem_map.mp hp
  exact contested.scores o ho

theorem sample_entries_standing :
    let wide := Ledger.after Chart.Sample.narrowCell Language.plain Chart.Sample.competition
    let narrow := Ledger.after Chart.Sample.bestOnly Language.plain Chart.Sample.competition
    1 ≤ Chart.Sample.narrowCell.maxCellSize ∧ 0.0 ≤ Chart.Sample.narrowCell.beamWidth ∧
      (∀ call ∈ Chart.Sample.competition, call.Fair) ∧ wide.chart.Inside 0 0 ∧
      (wide.offers 0 0 ⟨4⟩).length = 5 ∧
      (wide.chart.groupAt 0 0 ⟨4⟩).entries.map some =
        (standing ((wide.offers 0 0 ⟨4⟩).map Entry.bid) Chart.Sample.narrowCell.beamWidth 2).map
          (fun o => (wide.offers 0 0 ⟨4⟩)[o.time]?) ∧
      (narrow.chart.groupAt 0 0 ⟨4⟩).entries.map (Entry.among (narrow.offers 0 0 ⟨4⟩)) <+:
        (wide.chart.groupAt 0 0 ⟨4⟩).entries.map (Entry.among (wide.offers 0 0 ⟨4⟩)) := by
  have hcap : 1 ≤ Chart.Sample.narrowCell.maxCellSize := by decide
  have hbeam : 0.0 ≤ Chart.Sample.narrowCell.beamWidth := by decide +kernel
  have fair : ∀ call ∈ Chart.Sample.competition, call.Fair := by decide +kernel
  have inside : (Ledger.after Chart.Sample.narrowCell Language.plain
      Chart.Sample.competition).chart.Inside 0 0 := ⟨Nat.le_refl 0, by decide +kernel⟩
  have inside' : (Ledger.after Chart.Sample.bestOnly Language.plain
      Chart.Sample.competition).chart.Inside 0 0 := ⟨Nat.le_refl 0, by decide +kernel⟩
  obtain ⟨places, narrower⟩ := Ledger.entries_standing _ Language.plain _ 0 0 ⟨4⟩ hcap hbeam fair
    inside
  exact ⟨hcap, hbeam, fair, inside, by decide +kernel, places,
    narrower Chart.Sample.bestOnly Language.plain _ 0 0 ⟨4⟩ rfl (by decide +kernel)
      (by decide +kernel) fair inside' (by decide +kernel)⟩

end HeadDriven
