import HeadDriven.Proofs.Chart.Filing

/-! What an offer does to a chart. In a consistent chart the entries of a group tell
the truth about the stored items of its label and span. An offer of an item over
stored children to a cell of its own span never fails. It leaves all groups as they
are, or it stores the item and changes the one group in which it has its place. -/
namespace HeadDriven

namespace Chart

def keyOf (c : Chart) (language : Language) (item : Item) : Key :=
  c.arena.keyOf language c.settings.baseNpVerbBarrier c.settings.equivalence item

/-- What an entry says of its item. -/
structure Describes (c : Chart) (language : Language) (e : Entry) (item : Item) : Prop where
  score : e.score = item.score
  key : e.key = c.keyOf language item

structure Consistent (c : Chart) (language : Language) : Prop extends c.Filed language where
  remembers : c.arena.Remembers language c.settings.baseNpVerbBarrier

def turnsAway (c : Chart) (language : Language) (item : Item) : Bool :=
  (c.groupOf item).refuses c.settings.beamWidth c.settings.maxCellSize item.score
    (c.keyOf language item)

/-- What the group of an item comes to when the chart takes it, with the items that lose
their places. -/
def accepting (c : Chart) (language : Language) (item : Item) : LabelGroup × List Nat :=
  c.acceptingAs item (c.keyOf language item)

structure Refused (c : Chart) (language : Language) (item : Item) (next : Chart) : Prop where
  refuses : c.turnsAway language item = true
  cells : next.cells = c.cells
  items : next.arena.items = c.arena.items

structure Taken (c : Chart) (language : Language) (item : Item) (next : Chart) : Prop where
  refuses : c.turnsAway language item = false
  size : next.arena.size = c.arena.size + 1
  built : next.arena.built? c.arena.size = some item
  group : next.groupOf item = (c.accepting language item).1
  others : ∀ first last, c.Inside first last → ∀ label,
    ¬ (item.first = first ∧ item.last = last ∧ item.label = label) →
      next.groupAt first last label = c.groupAt first last label

inductive Outcome (c : Chart) (language : Language) (item : Item) (next : Chart) :
    Option Nat → Prop where
  | refused (h : c.Refused language item next) : Outcome c language item next none
  | taken (h : c.Taken language item next) : Outcome c language item next (some c.arena.size)

variable {c next : Chart} {language : Language} {first last : Nat} {item : Item}

theorem Grows.keyOf (h : c.Grows next) (head : c.arena.HasHead item) :
    next.keyOf language item = c.keyOf language item := by
  rw [Chart.keyOf, h.settings, h.arena.keyOf head, Chart.keyOf]

theorem Consistent.placed (ok : c.Consistent language) (first last : Nat)
    (inside : c.Inside first last) (label : Symbol) (e : Entry)
    (he : e ∈ (c.groupAt first last label).entries) :
    ∃ item, c.Resides first last label e.index item ∧ c.Describes language e item := by
  obtain ⟨item, resides, score, verb, hkey, hverb⟩ := ok.files first last inside label e he
  refine ⟨item, resides, score, ?_⟩
  rw [hkey, keyOf, Arena.keyOf]
  cases hs : item.stopped with
  | false => exact Key.ofItem_of_growing hs _ _
  | true =>
    have walk := ok.remembers.verb e.index verb (hverb hs)
    rw [Arena.dominatesVerb_eq_itemVerb ok.linked (Arena.built?_of_items resides.stored),
      Arena.itemVerb_copy] at walk
    rw [walk]

def offerNext (language : Language) (first last : Nat) (r : Chart × Array Nat) (item : Item) :
    Except Fault (Chart × Array Nat) :=
  (r.1.add language first last item).map fun (c, index) => (c, r.2 ++ index.toArray)

theorem addAll_eq (items : List Item) : c.addAll language first last items =
    (items.foldlM (offerNext language first last) (c, #[])).map
      fun (c, taken) => (c, taken.toList) := by
  have same : offerNext language first last = fun (r : Chart × Array Nat) (item : Item) => do
      let (c, index) ← r.1.add language first last item
      return (c, r.2 ++ index.toArray) :=
    funext fun r => funext fun item => (Outcome.bind_ok _ _).symm
  rw [same]
  exact Outcome.bind_ok _ _

theorem foldlM_offerNext (items : List Item) (front : Array Nat) :
    items.foldlM (offerNext language first last) (c, front) =
      (items.foldlM (offerNext language first last) (c, #[])).map
        fun (c, taken) => (c, front ++ taken) := by
  induction items generalizing c front with
  | nil => simp [pure, Except.pure]
  | cons item items ih =>
    rw [List.foldlM_cons, List.foldlM_cons, offerNext, offerNext]
    cases c.add language first last item with
    | error fault => rfl
    | ok r =>
      rw [Outcome.map_ok, Outcome.map_ok, Outcome.ok_bind, Outcome.ok_bind, ih,
        ih (#[] ++ _)]
      cases items.foldlM (offerNext language first last) (r.1, #[]) <;> simp [Except.map]

theorem addAll_cons (items : List Item) : c.addAll language first last (item :: items) = do
    let (c, index) ← c.add language first last item
    let (c, taken) ← c.addAll language first last items
    return (c, index.toList ++ taken) := by
  rw [addAll_eq, List.foldlM_cons, offerNext]
  cases c.add language first last item with
  | error fault => rfl
  | ok r =>
    simp only [Outcome.map_ok, Outcome.ok_bind, addAll_eq]
    rw [foldlM_offerNext]
    cases items.foldlM (offerNext language first last) (r.1, #[]) with
    | error fault => rfl
    | ok t => cases r.2 <;> simp [pure, Except.pure]

theorem key_eq (linked : c.arena.Linked)
    (remembers : c.arena.Remembers language c.settings.baseNpVerbBarrier)
    (head : c.arena.HasHead item) :
    ∃ known arena, c.key language c.settings.equivalence item none =
        .ok (c.keyOf language item, known, { c with arena }) ∧
      arena.Remembers language c.settings.baseNpVerbBarrier ∧
      ∀ verb, known = some verb →
        c.arena.itemVerb language c.settings.baseNpVerbBarrier item = verb := by
  unfold key
  rw [Arena.headChildLabel?_eq head, Outcome.ok_bind]
  cases hs : item.stopped with
  | true =>
    obtain ⟨asked, hverb, same⟩ := Arena.verbOf_eq remembers linked head
    refine ⟨_, _, ?_, remembers.remember same, fun verb hv => Option.some.inj hv⟩
    simp only [if_true, containsVerb, hverb, Outcome.ok_bind, pure, Except.pure]
    rfl
  | false =>
    refine ⟨none, c.arena, ?_, remembers, by simp⟩
    simp only [Bool.false_eq_true, if_false, pure, Except.pure, keyOf, Arena.keyOf]
    rw [Key.ofItem_of_growing hs]

theorem groupAt_of_refused (h : c.Refused language item next) (grows : c.Grows next)
    (label : Symbol) : next.groupAt first last label = c.groupAt first last label := by
  rw [groupAt, groupAt, h.cells, grows.size]

theorem Outcome.listed {index : Option Nat} (outcome : Outcome c language item next index)
    (ok : c.Consistent language) (grows : c.Grows next) (inside : c.Inside first last)
    {label : Symbol} {e : Entry} (he : e ∈ (next.groupAt first last label).entries) :
    e ∈ (c.groupAt first last label).entries ∨ e.index ∈ index.toList := by
  cases outcome with
  | refused refused =>
    rw [groupAt_of_refused refused grows] at he
    exact Or.inl he
  | taken taken =>
    by_cases same : item.first = first ∧ item.last = last ∧ item.label = label
    · obtain ⟨rfl, rfl, rfl⟩ := same
      rw [← groupOf, taken.group] at he
      rcases (ok.toFiled.accepted inside (c.keyOf language item)).mem e he with rfl | ⟨old, -⟩
      · exact Or.inr (by simp)
      · exact Or.inl old
    · rw [taken.others first last inside label same] at he
      exact Or.inl he

theorem taken_takeAs (filed : c.Filed language) (inside : c.Inside item.first item.last)
    (fresh : item.garbage = false) (known : Option Bool)
    (hrefuses : c.turnsAway language item = false) :
    c.Taken language item (c.takeAs item (c.keyOf language item) known) where
  refuses := hrefuses
  size := by simp [takeAs_arena]
  built := by
    rw [takeAs_arena, Arena.built?_markAll, Arena.built?_push_size, Item.copy_of_fresh fresh]
  group := groupAt_takeAs_self filed inside
  others _ _ h _ hne := groupAt_takeAs_of_ne inside h hne

/-- Offering an item over stored children to a cell of its own span succeeds, and the chart
stays consistent. -/
theorem add_spec (ok : c.Consistent language) (inside : c.Inside item.first item.last)
    (head : c.arena.HasHead item) (fresh : item.garbage = false) :
    ∃ next taken, c.add language item.first item.last item = .ok (next, taken) ∧
      next.Consistent language ∧ c.Grows next ∧ Outcome c language item next taken := by
  obtain ⟨verb, known, arena, hkey, recalls, hverb⟩ := key_ok ok.linked head none
  obtain ⟨known', arena', hkey', remembers, hknown⟩ := key_eq ok.linked ok.remembers head
  obtain ⟨same, rfl, rfl⟩ : Key.ofItem c.settings.equivalence language item
      (c.arena.headLabelOf? item) verb = c.keyOf language item ∧
      known = known' ∧ arena = arena' := by
    simpa using hkey.symm.trans hkey'
  have filed := ok.toFiled.recalling recalls
  have grows : c.Grows { c with arena } := ⟨rfl, rfl, .of_items recalls.items⟩
  have hsize : arena.size = c.arena.size := by simp [Arena.size, recalls.items]
  have hkeyOf : { c with arena }.keyOf language item = c.keyOf language item := grows.keyOf head
  rw [add, ok.toFiled.offer_eq inside recalls hkey']
  cases hrefuses : c.turnsAway language item with
  | true =>
    exact ⟨_, _, if_pos hrefuses, ⟨filed, remembers⟩, grows,
      .refused ⟨hrefuses, rfl, recalls.items⟩⟩
  | false =>
    have hopen : ¬(c.groupOf item).refuses c.settings.beamWidth c.settings.maxCellSize
        item.score (c.keyOf language item) = true := by
      rw [show (c.groupOf item).refuses _ _ _ _ = false from hrefuses]
      exact Bool.false_ne_true
    have head' : arena.HasHead item := head.of_items recalls.items
    have hknown' : ∀ verb, known = some verb →
        arena.itemVerb language c.settings.baseNpVerbBarrier item = verb := fun verb hv => by
      rw [(Arena.Extends.of_items recalls.items).itemVerb head, hknown verb hv]
    have hturns : { c with arena }.turnsAway language item = false := by
      unfold turnsAway
      rw [hkeyOf]
      exact hrefuses
    have taken := taken_takeAs filed inside fresh known hturns
    rw [hkeyOf] at taken
    refine ⟨_, _, if_neg hopen, ⟨?_, ?_⟩, grows.trans grows_takeAs, ?_⟩
    · refine filed.takeAs inside head' fresh hverb ?_
      rw [← same, Arena.headLabelOf?_congr recalls.items]
    · exact remembers.push_markAll _ head' hknown'
    · exact .taken ⟨hrefuses, hsize ▸ taken.size, hsize ▸ taken.built,
        taken.group.trans (by rw [accepting, acceptingAs, hkeyOf, hsize]; rfl), taken.others⟩

end Chart

end HeadDriven
