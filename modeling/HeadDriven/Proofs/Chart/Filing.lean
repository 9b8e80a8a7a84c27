import HeadDriven.Proofs.Arena.Keys
import HeadDriven.Proofs.Chart.Cells

/-! How a chart files its items. The entries of a group name stored items of its label and
span that are no garbage, and every such item has an entry. An entry has the score of its
item and the key that the chart finds for it again; of a finished item the key holds what
is remembered of its verbs, and what is remembered once never changes. An offer of an item
over stored children to a cell of its own span either leaves all groups as they are, or
stores the item and changes the one group in which it has its place. -/
namespace HeadDriven

namespace Arena

variable {a b : Arena} {language : Language} {barrier : Bool} {index : Nat} {item : Item}

/-- The same items, of which at least as much is remembered. -/
structure Recalls (a b : Arena) : Prop where
  items : b.items = a.items
  size : b.verbs.size = a.verbs.size
  verb : ∀ index verb, a.verbs.getD index none = some verb → b.verbs.getD index none = some verb

theorem Recalls.refl (a : Arena) : a.Recalls a := ⟨rfl, rfl, fun _ _ h => h⟩

theorem askVerb_ok (linked : a.Linked) (h : index < a.size) :
    ∃ verb asked, a.askVerb language barrier index = .ok (verb, asked) ∧
      ∀ i ∈ asked, a.verbs.getD i none = none := by
  induction index using Nat.strongRecOn with
  | ind index ih =>
    rw [askVerb]
    split
    · exact ⟨_, [], rfl, by simp⟩
    · rename_i forgotten
      obtain ⟨item, hitem⟩ := exists_get h
      rw [hitem, Outcome.ok_bind]
      split
      · exact ⟨_, [index], rfl, by simpa using forgotten⟩
      · rename_i child clue
        have below := linked index item.copy child (built?_of_get hitem)
          (headChild_of_verbClue clue)
        obtain ⟨verb, asked, hask, hasked⟩ := ih child below (Nat.lt_trans below h)
        refine ⟨verb, index :: asked, ?_, ?_⟩
        · rw [if_pos below, hask]
          rfl
        · exact List.forall_mem_cons.mpr ⟨forgotten, hasked⟩

theorem verbOf_ok (linked : a.Linked) (h : a.HasHead item) (known : Option Bool) :
    ∃ verb asked, a.verbOf language barrier item known = .ok (verb, asked) ∧
      ∀ i ∈ asked, a.verbs.getD i none = none := by
  unfold verbOf
  cases known with
  | some verb => exact ⟨verb, [], rfl, by simp⟩
  | none =>
    cases clue : item.verbClue language barrier with
    | settled verb => exact ⟨verb, [], rfl, by simp⟩
    | atHead child => exact askVerb_ok linked (h child (headChild_of_verbClue clue))

theorem recalls_remember {asked : List Nat} (h : ∀ i ∈ asked, a.verbs.getD i none = none)
    (verb : Bool) : a.Recalls (a.remember asked verb) := by
  obtain ⟨hsize, hget⟩ := verbs_remember (a := a) asked verb
  refine ⟨items_remember asked verb, hsize, fun index v hv => ?_⟩
  rcases hget index with same | ⟨hi, -⟩
  · rw [same, hv]
  · rw [h index hi] at hv
    cases hv

theorem HasHead.of_items (h : a.HasHead item) (same : b.items = a.items) : b.HasHead item :=
  h.extends (.of_items same)

theorem headLabelOf?_congr (same : b.items = a.items) :
    b.headLabelOf? item = a.headLabelOf? item := by
  simp only [headLabelOf?, built?_congr same]

end Arena

namespace Chart

/-- A stored item that is no garbage and has its place in a cell and a group. -/
structure Resides (c : Chart) (first last : Nat) (label : Symbol) (index : Nat) (item : Item) :
    Prop where
  stored : c.arena.items[index]? = some item
  live : item.garbage = false
  label : item.label = label
  first : item.first = first
  last : item.last = last

/-- What an entry holds of its item, given what is remembered of the item's verbs. -/
structure Files (c : Chart) (language : Language) (e : Entry) (item : Item) : Prop where
  score : e.score = item.score
  key : ∃ verb, e.key = Key.ofItem c.settings.equivalence language item
      (c.arena.headLabelOf? item) verb ∧
    (item.stopped = true → c.arena.verbs.getD e.index none = some verb)

structure Filed (c : Chart) (language : Language) : Prop where
  cells : c.cells.size = c.size * c.size
  sorted : ∀ place, Cell.Sorted (c.cells.getD place [])
  linked : c.arena.Linked
  verbs : c.arena.verbs.size = c.arena.items.size
  distinct : ∀ first last, c.Inside first last → ∀ label, (c.groupAt first last label).Distinct
  files : ∀ first last, c.Inside first last → ∀ label,
    ∀ e ∈ (c.groupAt first last label).entries,
      ∃ item, c.Resides first last label e.index item ∧ c.Files language e item
  listed : ∀ index item, c.arena.items[index]? = some item → item.garbage = false →
    ∃ first last label, c.Inside first last ∧
      ∃ e ∈ (c.groupAt first last label).entries, e.index = index

structure Grows (c next : Chart) : Prop where
  settings : next.settings = c.settings
  size : next.size = c.size
  arena : c.arena.Extends next.arena

def groupOf (c : Chart) (item : Item) : LabelGroup := c.groupAt item.first item.last item.label

/-- What the group of an item comes to when the chart takes it under a key, with the items that
lose their places. -/
def acceptingAs (c : Chart) (item : Item) (key : Key) : LabelGroup × List Nat :=
  (c.groupOf item).accept c.settings.beamWidth c.settings.maxCellSize
    ⟨c.arena.size, item.score, key⟩

def takeAs (c : Chart) (item : Item) (key : Key) (known : Option Bool) : Chart :=
  let (group, lost) := c.acceptingAs item key
  { c.setGroup item.first item.last item.label group with
    arena := lost.foldl Arena.markGarbage (c.arena.push item known) }

variable {c next : Chart} {language : Language} {first last : Nat} {item : Item} {key : Key}
  {known : Option Bool}

theorem Grows.refl (c : Chart) : c.Grows c := ⟨rfl, rfl, .refl _⟩

theorem Grows.trans {third : Chart} (h : c.Grows next) (h' : next.Grows third) :
    c.Grows third where
  settings := h'.settings.trans h.settings
  size := h'.size.trans h.size
  arena := h.arena.trans h'.arena

theorem Grows.inside (h : c.Grows next) : next.Inside first last ↔ c.Inside first last := by
  unfold Inside
  rw [h.size]

theorem Resides.lt_size {index : Nat} {label : Symbol}
    (h : c.Resides first last label index item) : index < c.arena.size :=
  (Array.getElem?_eq_some_iff.mp h.stored).choose

theorem Resides.hasHead {index : Nat} {label : Symbol} (linked : c.arena.Linked)
    (h : c.Resides first last label index item) : c.arena.HasHead item := by
  intro child hc
  exact linked.hasHead (Arena.built?_of_items h.stored) child hc

theorem filed_resized (c : Chart) (language : Language) (size : Nat) :
    (c.resized size).Filed language := by
  constructor
  · simp [resized_eq]
  · intro place
    rw [cells_resized]
    exact List.Pairwise.nil
  · intro index item child h
    simp [resized_eq, Arena.empty, Arena.built?] at h
  · rfl
  · intro first last _ label
    rw [groupAt_resized]
    exact LabelGroup.distinct_empty
  · intro first last _ label e he
    rw [groupAt_resized] at he
    exact absurd he List.not_mem_nil
  · intro index item h
    simp [resized_eq, Arena.empty] at h

theorem Filed.key_eq (filed : c.Filed language) {e : Entry} (inside : c.Inside first last)
    {label : Symbol} (he : e ∈ (c.groupAt first last label).entries) :
    ∃ item, c.Resides first last label e.index item ∧ e.score = item.score ∧
      (c.key language c.settings.equivalence item (c.arena.verbs.getD e.index none)).map Prod.fst =
        .ok e.key := by
  obtain ⟨item, resides, score, verb, hkey, hverb⟩ := filed.files first last inside label e he
  refine ⟨item, resides, score, ?_⟩
  rw [Chart.key, Arena.headChildLabel?_eq (resides.hasHead filed.linked), Outcome.ok_bind]
  cases hs : item.stopped with
  | true =>
    simp only [if_true, containsVerb, Arena.verbOf, hverb hs, Outcome.ok_bind, pure, Except.pure,
      Except.map, hkey]
  | false =>
    simp only [Bool.false_eq_true, if_false, pure, Except.pure, Except.map, hkey]
    rw [Key.ofItem_of_growing hs]

theorem key_ok (linked : c.arena.Linked) (head : c.arena.HasHead item) (known : Option Bool) :
    ∃ verb known' arena, c.key language c.settings.equivalence item known =
        .ok (Key.ofItem c.settings.equivalence language item (c.arena.headLabelOf? item) verb,
          known', { c with arena }) ∧
      c.arena.Recalls arena ∧ (item.stopped = true → known' = some verb) := by
  unfold Chart.key
  rw [Arena.headChildLabel?_eq head, Outcome.ok_bind]
  cases hs : item.stopped with
  | true =>
    obtain ⟨verb, asked, hverb, forgotten⟩ : ∃ verb asked, c.arena.verbOf language
        c.settings.baseNpVerbBarrier item known = .ok (verb, asked) ∧
          ∀ i ∈ asked, c.arena.verbs.getD i none = none := Arena.verbOf_ok linked head known
    refine ⟨verb, some verb, _, ?_, Arena.recalls_remember forgotten verb, fun _ => rfl⟩
    simp only [if_true, containsVerb, hverb, Outcome.ok_bind, pure, Except.pure]
  | false =>
    exact ⟨false, known, c.arena, rfl, .refl _, by simp⟩

theorem Filed.recalling (filed : c.Filed language) {arena : Arena}
    (recalls : c.arena.Recalls arena) : { c with arena }.Filed language where
  cells := filed.cells
  sorted := filed.sorted
  linked index item child h :=
    filed.linked index item child (Arena.built?_congr recalls.items ▸ h)
  verbs := by rw [recalls.size, filed.verbs, recalls.items]
  distinct := filed.distinct
  files first last inside label e he := by
    obtain ⟨item, resides, score, verb, hkey, hverb⟩ := filed.files first last inside label e he
    refine ⟨item, ⟨recalls.items ▸ resides.stored, resides.live, resides.label, resides.first,
      resides.last⟩, score, verb, ?_, fun hs => recalls.verb _ _ (hverb hs)⟩
    rw [Arena.headLabelOf?_congr recalls.items]
    exact hkey
  listed index item h := filed.listed index item (recalls.items ▸ h)

theorem Filed.outdoes_eq (filed : c.Filed language) (inside : c.Inside first last)
    (label : Symbol) (key : Key) (score : Float) :
    c.outdoes (c.groupAt first last label) key score =
      .ok (((c.groupAt first last label).lookup? key).any fun holder => score ≤ holder.score) := by
  have distinct := filed.distinct first last inside label
  rw [outdoes, LabelGroup.holder?_eq distinct]
  cases hl : (c.groupAt first last label).lookup? key with
  | none => rfl
  | some e =>
    obtain ⟨he, -⟩ := (LabelGroup.lookup?_eq_some_iff distinct).mp hl
    obtain ⟨item, resides, files⟩ := filed.files first last inside label e he
    have hget : c.item e.index = .ok item := Arena.get_eq_ok_iff.mpr resides.stored
    simp [hget, files.score, Except.map]

theorem takeAs_arena : (c.takeAs item key known).arena =
    (c.acceptingAs item key).2.foldl Arena.markGarbage (c.arena.push item known) := rfl

theorem grows_takeAs : c.Grows (c.takeAs item key known) :=
  ⟨rfl, rfl, Arena.extends_push_markAll item known _⟩

theorem verbs_takeAs (filed : c.Filed language) (index : Nat) :
    (c.takeAs item key known).arena.verbs.getD index none =
      if index = c.arena.size then known else c.arena.verbs.getD index none := by
  have hsize : c.arena.size = c.arena.verbs.size := filed.verbs.symm
  rw [takeAs_arena, Arena.verbs_markAll, Arena.push, hsize]
  by_cases h : index = c.arena.verbs.size
  · simp [Array.getD_eq_getD_getElem?, h]
  · simp [Array.getD_eq_getD_getElem?, Array.getElem?_push, h]

theorem Resides.takeAs {index : Nat} {label : Symbol} {held : Item}
    (h : c.Resides first last label index held) (kept : index ∉ (c.acceptingAs item key).2) :
    (c.takeAs item key known).Resides first last label index held where
  stored := by
    have hne : index ≠ c.arena.items.size := Nat.ne_of_lt h.lt_size
    rw [takeAs_arena, Arena.items_markAll_of_not_mem _ kept, Arena.push, Array.getElem?_push,
      if_neg hne, h.stored]
  live := h.live
  label := h.label
  first := h.first
  last := h.last

theorem groupAt_takeAs_self (filed : c.Filed language)
    (inside : c.Inside item.first item.last) :
    (c.takeAs item key known).groupAt item.first item.last item.label =
      (c.acceptingAs item key).1 :=
  groupAt_setGroup_self filed.cells inside

theorem groupAt_takeAs_of_ne {label : Symbol} (inside : c.Inside item.first item.last)
    (h : c.Inside first last)
    (hne : ¬ (item.first = first ∧ item.last = last ∧ item.label = label)) :
    (c.takeAs item key known).groupAt first last label = c.groupAt first last label :=
  groupAt_setGroup_of_ne inside h hne

theorem Filed.index_lt (filed : c.Filed language) (inside : c.Inside first last) {label : Symbol}
    {e : Entry} (he : e ∈ (c.groupAt first last label).entries) : e.index < c.arena.size := by
  obtain ⟨held, resides, -⟩ := filed.files _ _ inside label e he
  exact resides.lt_size

theorem Filed.accepted (filed : c.Filed language) (inside : c.Inside item.first item.last)
    (key : Key) : (c.groupOf item).Accepted (c.acceptingAs item key).1
      (c.acceptingAs item key).2 ⟨c.arena.size, item.score, key⟩ :=
  LabelGroup.accepted_accept (filed.distinct _ _ inside item.label)
    fun _ he => Nat.ne_of_lt (filed.index_lt inside he)

theorem Filed.not_lost_of_other (filed : c.Filed language) {index : Nat} {label : Symbol}
    {held : Item} (inside : c.Inside item.first item.last)
    (h : c.Resides first last label index held)
    (hne : ¬ (item.first = first ∧ item.last = last ∧ item.label = label)) :
    index ∉ (c.acceptingAs item key).2 := by
  intro hlost
  rcases (filed.accepted inside key).mem_of_lost index hlost with rfl | ⟨x, hx, rfl⟩
  · exact Nat.lt_irrefl _ h.lt_size
  · obtain ⟨other, resides, -⟩ := filed.files _ _ inside item.label x hx
    have same : other = held := Option.some.inj (resides.stored.symm.trans h.stored)
    subst same
    exact hne ⟨resides.first.symm.trans h.first, resides.last.symm.trans h.last,
      resides.label.symm.trans h.label⟩

theorem linked_takeAs (linked : c.arena.Linked) (head : c.arena.HasHead item) :
    (c.takeAs item key known).arena.Linked := by
  intro index held child hheld hc
  rw [takeAs_arena, Arena.built?_markAll] at hheld
  by_cases hlt : index < c.arena.size
  · rw [Arena.built?_push_lt _ _ hlt] at hheld
    exact linked index held child hheld hc
  · have := Arena.lt_size_of_built? hheld
    rw [Arena.size_push] at this
    have heq : index = c.arena.size := by omega
    subst heq
    rw [Arena.built?_push_size, Option.some.injEq] at hheld
    subst hheld
    exact head child hc

theorem stored_takeAs {index : Nat} {held : Item}
    (h : (c.takeAs item key known).arena.items[index]? = some held) (live : held.garbage = false) :
    index ∉ (c.acceptingAs item key).2 ∧
      (index = c.arena.size ∧ held = item ∨ c.arena.items[index]? = some held) := by
  have kept : index ∉ (c.acceptingAs item key).2 := fun hlost => by
    have garbage := Arena.garbage_markAll hlost h
    rw [live] at garbage
    cases garbage
  refine ⟨kept, ?_⟩
  rw [takeAs_arena, Arena.items_markAll_of_not_mem _ kept, Arena.push, Array.getElem?_push] at h
  split at h
  · rename_i heq
    exact Or.inl ⟨heq, (Option.some.inj h).symm⟩
  · exact Or.inr h

theorem Filed.mem_takeAs_iff (filed : c.Filed language) (inside : c.Inside item.first item.last)
    (h : c.Inside first last) {label : Symbol} {e : Entry} :
    e ∈ ((c.takeAs item key known).groupAt first last label).entries ↔
      e.index ∉ (c.acceptingAs item key).2 ∧
        (e = ⟨c.arena.size, item.score, key⟩ ∧
            (item.first = first ∧ item.last = last ∧ item.label = label) ∨
          e ∈ (c.groupAt first last label).entries) := by
  have accepted := filed.accepted inside key
  by_cases same : item.first = first ∧ item.last = last ∧ item.label = label
  · obtain ⟨rfl, rfl, rfl⟩ := same
    rw [groupAt_takeAs_self filed inside]
    constructor
    · intro he
      exact ⟨accepted.not_lost e he, (accepted.mem e he).imp (⟨·, rfl, rfl, rfl⟩) And.left⟩
    · rintro ⟨kept, ⟨rfl, -⟩ | he⟩
      · exact accepted.mem_or_lost.resolve_right kept
      · exact Decidable.byContradiction fun gone => kept (accepted.lost_of_not_mem e he gone)
  · rw [groupAt_takeAs_of_ne inside h same]
    constructor
    · intro he
      obtain ⟨held, resides, -⟩ := filed.files first last h label e he
      exact ⟨filed.not_lost_of_other inside resides same, Or.inr he⟩
    · rintro ⟨-, ⟨-, same'⟩ | he⟩
      · exact absurd same' same
      · exact he

theorem Files.takeAs (filed : c.Filed language) {e : Entry} {label : Symbol} {held : Item}
    (files : c.Files language e held) (resides : c.Resides first last label e.index held) :
    (c.takeAs item key known).Files language e held := by
  have grows : c.Grows (c.takeAs item key known) := grows_takeAs
  obtain ⟨score, verb, hkey, hverb⟩ := files
  refine ⟨score, verb, ?_, fun hs => ?_⟩
  · rw [grows.arena.headLabelOf? (resides.hasHead filed.linked)]
    exact hkey
  · rw [verbs_takeAs filed, if_neg (Nat.ne_of_lt resides.lt_size)]
    exact hverb hs

theorem items_takeAs_self (kept : c.arena.size ∉ (c.acceptingAs item key).2) :
    (c.takeAs item key known).arena.items[c.arena.size]? = some item := by
  rw [takeAs_arena, Arena.items_markAll_of_not_mem _ kept]
  simp [Arena.push, Arena.size]

theorem resides_takeAs_self (fresh : item.garbage = false)
    (kept : c.arena.size ∉ (c.acceptingAs item key).2) :
    (c.takeAs item key known).Resides item.first item.last item.label c.arena.size item where
  stored := items_takeAs_self kept
  live := fresh
  label := rfl
  first := rfl
  last := rfl

theorem files_takeAs_self (filed : c.Filed language) (head : c.arena.HasHead item) {verb : Bool}
    (hverb : item.stopped = true → known = some verb)
    (hkey : key = Key.ofItem c.settings.equivalence language item (c.arena.headLabelOf? item)
      verb) :
    (c.takeAs item key known).Files language ⟨c.arena.size, item.score, key⟩ item := by
  have grows : c.Grows (c.takeAs item key known) := grows_takeAs
  refine ⟨rfl, verb, ?_, fun hs => ?_⟩
  · rw [grows.arena.headLabelOf? head]
    exact hkey
  · rw [verbs_takeAs filed, if_pos rfl]
    exact hverb hs

theorem Filed.takeAs (filed : c.Filed language) (inside : c.Inside item.first item.last)
    (head : c.arena.HasHead item) (fresh : item.garbage = false) {verb : Bool}
    (hverb : item.stopped = true → known = some verb)
    (hkey : key = Key.ofItem c.settings.equivalence language item (c.arena.headLabelOf? item)
      verb) : (c.takeAs item key known).Filed language where
  cells := (size_cells_setGroup c _ _ _ _).trans filed.cells
  sorted := sorted_setGroup filed.sorted
  linked := linked_takeAs filed.linked head
  verbs := by
    have hitems := Arena.size_markAll (a := c.arena.push item known) (c.acceptingAs item key).2
    rw [takeAs_arena, Arena.verbs_markAll]
    refine Eq.trans ?_ hitems.symm
    simp [Arena.push, Arena.size, filed.verbs]
  distinct first last h label := by
    by_cases same : item.first = first ∧ item.last = last ∧ item.label = label
    · obtain ⟨rfl, rfl, rfl⟩ := same
      rw [groupAt_takeAs_self filed inside]
      exact (filed.accepted inside key).distinct
    · rw [groupAt_takeAs_of_ne inside h same]
      exact filed.distinct first last h label
  files first last h label e he := by
    obtain ⟨kept, ⟨rfl, rfl, rfl, rfl⟩ | hold⟩ := (filed.mem_takeAs_iff inside h).mp he
    · exact ⟨item, resides_takeAs_self fresh kept, files_takeAs_self filed head hverb hkey⟩
    · obtain ⟨held, resides, files⟩ := filed.files first last h label e hold
      exact ⟨held, resides.takeAs kept, files.takeAs filed resides⟩
  listed index held hheld live := by
    obtain ⟨kept, ⟨rfl, rfl⟩ | hold⟩ := stored_takeAs hheld live
    · exact ⟨_, _, held.label, inside, ⟨c.arena.size, held.score, key⟩,
        (filed.mem_takeAs_iff inside inside).mpr ⟨kept, Or.inl ⟨rfl, rfl, rfl, rfl⟩⟩, rfl⟩
    · obtain ⟨first, last, label, h, e, he, rfl⟩ := filed.listed index held hold live
      exact ⟨first, last, label, h, e,
        (filed.mem_takeAs_iff inside h).mpr ⟨kept, Or.inr he⟩, rfl⟩

/-- An offer comes down to the key of the item: its group turns it away or takes it. -/
theorem Filed.offer_eq (filed : c.Filed language) (inside : c.Inside item.first item.last)
    {known known' : Option Bool} {arena : Arena} (recalls : c.arena.Recalls arena)
    (hkey : c.key language c.settings.equivalence item known =
      .ok (key, known', { c with arena })) :
    c.offer language item.first item.last item known =
      if (c.groupOf item).refuses c.settings.beamWidth c.settings.maxCellSize item.score key then
        .ok ({ c with arena }, none)
      else .ok ({ c with arena }.takeAs item key known', some c.arena.size) := by
  have outdoes : { c with arena }.outdoes (c.groupOf item) key item.score =
      .ok (((c.groupOf item).lookup? key).any fun holder => item.score ≤ holder.score) :=
    (filed.recalling recalls).outdoes_eq inside item.label key item.score
  have group : (Cell.group? (c.cells.getD (item.first * c.size + item.last) []) item.label).getD
      LabelGroup.empty = c.groupOf item := rfl
  have hsize : arena.size = c.arena.size := by simp [Arena.size, recalls.items]
  unfold offer
  rw [cell_of_inside inside, Outcome.ok_bind]
  simp only [ne_eq, not_true_eq_false, or_self, if_false, Outcome.ok_bind, hkey, pure,
    Except.pure, group, outdoes, hsize]
  split
  · rename_i excluded
    exact (if_pos (LabelGroup.refuses_iff_or.mpr (.inl excluded))).symm
  · rename_i placed
    split
    · rename_i outdone
      exact (if_pos (LabelGroup.refuses_iff_or.mpr (.inr outdone))).symm
    · rename_i better
      have opens := mt LabelGroup.refuses_iff_or.mp (not_or.mpr ⟨placed, better⟩)
      refine Eq.trans ?_ (if_neg opens).symm
      rw [Chart.takeAs, acceptingAs, hsize]
      rfl

end Chart

end HeadDriven
