import HeadDriven.Proofs.Chart.Offer
import HeadDriven.Proofs.Chart.Unpruned

/-! Charts that are not pruned. Such a chart covers an item once it has been offered: the
place of its key is held, by it or by one that is no worse, and stays so. Apart from that
a row of offers only adds items to the one cell that they are offered to. -/
namespace HeadDriven.Chart

structure Ordered (c : Chart) (language : Language) : Prop where
  consistent : c.Consistent language
  ranked : ∀ first last, c.Inside first last → ∀ label, (c.groupAt first last label).Ranked

/-- A chart in which nothing falls out of the beam and no group is full. -/
structure Roomy (c : Chart) : Prop where
  beam : c.settings.beamWidth = 1.0 / 0.0
  size : ∀ first last, c.Inside first last → ∀ label,
    (c.groupAt first last label).size < c.settings.maxCellSize

/-- An item no better than the holder of its key. -/
def Covers (c : Chart) (language : Language) (item : Item) : Prop :=
  ∃ e ∈ (c.groupOf item).entries, e.key = c.keyOf language item ∧ item.score ≤ e.score

/-- A later chart, in which every key is held as well as before or better. -/
structure Improves (c next : Chart) : Prop where
  grows : c.Grows next
  better : ∀ first last, c.Inside first last → ∀ label,
    ∀ e ∈ (c.groupAt first last label).entries,
      ∃ e' ∈ (next.groupAt first last label).entries, e'.key = e.key ∧ e.score ≤ e'.score

def SameBut (c next : Chart) (first last : Nat) : Prop :=
  ∀ f l, c.Inside f l → (f, l) ≠ (first, last) → ∀ label,
    next.groupAt f l label = c.groupAt f l label

/-- What a row of offers to a cell comes to, given the positions of those that are taken. -/
structure Offered (c next : Chart) (language : Language) (first last : Nat) (items : List Item)
    (taken : List Nat) : Prop where
  improves : c.Improves next
  covers : ∀ item ∈ items, next.Covers language item
  contents : ∀ i item, next.arena.built? i = some item →
    c.arena.built? i = some item ∨ i ∈ taken
  new : ∀ i ∈ taken, ∃ item ∈ items, next.arena.built? i = some item
  others : c.SameBut next first last

variable {c mid next : Chart} {language : Language} {first last : Nat} {item : Item}
  {items more : List Item} {taken later : List Nat}

theorem Improves.refl (ordered : c.Ordered language) : c.Improves c where
  grows := .refl c
  better first last inside label e he :=
    ⟨e, he, rfl, LogProb.le_refl ((ordered.ranked first last inside label).scores e he)⟩

theorem Improves.trans (h : c.Improves mid) (h' : mid.Improves next) : c.Improves next where
  grows := h.grows.trans h'.grows
  better first last inside label e he := by
    obtain ⟨e', he', hkey, hle⟩ := h.better first last inside label e he
    obtain ⟨e'', he'', hkey', hle'⟩ :=
      h'.better first last (h.grows.inside.mpr inside) label e' he'
    exact ⟨e'', he'', hkey'.trans hkey, LogProb.numbers_le_trans hle hle'⟩

theorem SameBut.trans (h : c.SameBut mid first last) (grows : c.Grows mid)
    (h' : mid.SameBut next first last) : c.SameBut next first last := by
  intro f l inside hne label
  rw [h' f l (grows.inside.mpr inside) hne label, h f l inside hne label]

theorem Covers.improves (h : c.Covers language item) (improves : c.Improves next)
    (head : c.arena.HasHead item) (inside : c.Inside item.first item.last) :
    next.Covers language item := by
  obtain ⟨e, he, hkey, hle⟩ := h
  obtain ⟨e', he', hkey', hle'⟩ := improves.better _ _ inside _ e he
  refine ⟨e', he', ?_, LogProb.numbers_le_trans hle hle'⟩
  rw [improves.grows.keyOf head, hkey', hkey]

theorem Covers.exists_resides (h : c.Covers language item) (ok : c.Consistent language)
    (inside : c.Inside item.first item.last) :
    ∃ i other, c.Resides item.first item.last item.label i other ∧
      (∃ e ∈ (c.groupOf item).entries, e.index = i) ∧
      c.keyOf language other = c.keyOf language item ∧ item.score ≤ other.score := by
  obtain ⟨e, he, hkey, hle⟩ := h
  obtain ⟨other, resides, describes⟩ := ok.placed _ _ inside _ e he
  exact ⟨e.index, other, resides, ⟨e, he, rfl⟩, describes.key.symm.trans hkey,
    describes.score ▸ hle⟩

/-- A chart with room to spare refuses exactly what it covers. -/
theorem turnsAway_iff (ordered : c.Ordered language) (roomy : c.Roomy)
    (inside : c.Inside item.first item.last) (hscore : item.score ≤ 0.0) :
    c.turnsAway language item = true ↔ c.Covers language item := by
  rw [turnsAway, roomy.beam]
  exact LabelGroup.refuses_iff (ordered.ranked _ _ inside _) (roomy.size _ _ inside _) hscore
    (ordered.consistent.distinct _ _ inside _)

theorem mem_taking_iff (ordered : c.Ordered language) (roomy : c.Roomy)
    (inside : c.Inside item.first item.last) (hscore : item.score ≤ 0.0)
    (h : c.Taken language item next) (e : Entry) : e ∈ (next.groupOf item).entries ↔
      e = ⟨c.arena.size, item.score, c.keyOf language item⟩ ∨
        e ∈ (c.groupOf item).entries ∧ e.key ≠ c.keyOf language item := by
  rw [h.group, accepting, acceptingAs, roomy.beam]
  exact LabelGroup.mem_accept_iff (ordered.consistent.distinct _ _ inside _)
    (ordered.ranked _ _ inside _) (roomy.size _ _ inside _) hscore

theorem Refused.offered (h : c.Refused language item next) (ordered : c.Ordered language)
    (roomy : c.Roomy) (inside : c.Inside item.first item.last) (hscore : item.score ≤ 0.0)
    (grows : c.Grows next) (head : c.arena.HasHead item) :
    Offered c next language item.first item.last [item] [] where
  improves := by
    refine ⟨grows, fun f l inside label e he => ⟨e, ?_, rfl, ?_⟩⟩
    · rw [groupAt_of_refused h grows]
      exact he
    · exact LogProb.le_refl ((ordered.ranked f l inside label).scores e he)
  covers other hother := by
    obtain rfl := List.mem_singleton.mp hother
    obtain ⟨e, he, hkey, hle⟩ := (turnsAway_iff ordered roomy inside hscore).mp h.refuses
    refine ⟨e, ?_, hkey.trans (grows.keyOf head).symm, hle⟩
    rw [groupOf, groupAt_of_refused h grows]
    exact he
  contents i other hother := by
    rw [Arena.built?_congr h.items] at hother
    exact Or.inl hother
  new := by simp
  others _ _ _ _ label := groupAt_of_refused h grows label

theorem Taken.improves (h : c.Taken language item next) (ordered : c.Ordered language)
    (roomy : c.Roomy) (inside : c.Inside item.first item.last) (hscore : item.score ≤ 0.0)
    (grows : c.Grows next) : c.Improves next := by
  have mem := mem_taking_iff ordered roomy inside hscore h
  refine ⟨grows, fun f l inside' label e he => ?_⟩
  have hself := (ordered.ranked f l inside' label).scores e he
  by_cases same : item.first = f ∧ item.last = l ∧ item.label = label
  · obtain ⟨rfl, rfl, rfl⟩ := same
    by_cases hkey : e.key = c.keyOf language item
    · have worse : ¬item.score ≤ e.score := fun hle => by
        have refuses := (turnsAway_iff ordered roomy inside hscore).mpr ⟨e, he, hkey, hle⟩
        rw [h.refuses] at refuses
        cases refuses
      refine ⟨_, (mem _).mpr (Or.inl rfl), hkey.symm, LogProb.le_of_lt ?_⟩
      exact (LogProb.not_le_iff_lt (LogProb.numbers_of_le hscore).1
        (LogProb.numbers_of_le hself).1).mp worse
    · exact ⟨e, (mem e).mpr (Or.inr ⟨he, hkey⟩), rfl, LogProb.le_refl hself⟩
  · refine ⟨e, ?_, rfl, LogProb.le_refl hself⟩
    rw [h.others f l inside' label same]
    exact he

theorem Taken.offered (h : c.Taken language item next) (ordered : c.Ordered language)
    (roomy : c.Roomy) (inside : c.Inside item.first item.last) (hscore : item.score ≤ 0.0)
    (grows : c.Grows next) (head : c.arena.HasHead item) :
    Offered c next language item.first item.last [item] [c.arena.size] where
  improves := h.improves ordered roomy inside hscore grows
  covers other hother := by
    obtain rfl := List.mem_singleton.mp hother
    exact ⟨_, (mem_taking_iff ordered roomy inside hscore h _).mpr (Or.inl rfl),
      (grows.keyOf head).symm, LogProb.le_refl hscore⟩
  contents i other hother := by
    by_cases hlt : i < c.arena.size
    · rw [grows.arena.built? i hlt] at hother
      exact Or.inl hother
    · have below := Arena.lt_size_of_built? hother
      rw [h.size] at below
      right
      rw [List.mem_singleton]
      omega
  new i hi := by
    obtain rfl := List.mem_singleton.mp hi
    exact ⟨item, List.mem_cons_self, h.built⟩
  others f l inside' hne label :=
    h.others f l inside' label fun same => hne (by rw [same.1, same.2.1])

theorem Outcome.offered (ordered : c.Ordered language) (roomy : c.Roomy)
    (inside : c.Inside item.first item.last) (hscore : item.score ≤ 0.0)
    {index : Option Nat} (grows : c.Grows next) (head : c.arena.HasHead item)
    (outcome : Outcome c language item next index) :
    Offered c next language item.first item.last [item] index.toList := by
  cases outcome with
  | refused h => exact h.offered ordered roomy inside hscore grows head
  | taken h => exact h.offered ordered roomy inside hscore grows head

theorem Offered.refl (ordered : c.Ordered language) :
    Offered c c language first last [] [] where
  improves := .refl ordered
  covers := by simp
  contents _ _ h := Or.inl h
  new := by simp
  others _ _ _ _ _ := rfl

theorem Offered.append (h : Offered c mid language first last items taken)
    (h' : Offered mid next language first last more later)
    (head : ∀ item ∈ items, mid.arena.HasHead item)
    (inside : ∀ item ∈ items, c.Inside item.first item.last) :
    Offered c next language first last (items ++ more) (taken ++ later) where
  improves := h.improves.trans h'.improves
  covers item hitem := by
    rcases List.mem_append.mp hitem with hi | hi
    · exact (h.covers item hi).improves h'.improves (head item hi)
        (h.improves.grows.inside.mpr (inside item hi))
    · exact h'.covers item hi
  contents i item hi := by
    rcases h'.contents i item hi with hi | hi
    · exact (h.contents i item hi).imp_right (List.mem_append_left _)
    · exact Or.inr (List.mem_append_right _ hi)
  new i hi := by
    rcases List.mem_append.mp hi with hi | hi
    · obtain ⟨item, hitem, hbuilt⟩ := h.new i hi
      exact ⟨item, List.mem_append_left _ hitem, h'.improves.grows.arena.holds hbuilt⟩
    · obtain ⟨item, hitem, hbuilt⟩ := h'.new i hi
      exact ⟨item, List.mem_append_right _ hitem, hbuilt⟩
  others := h.others.trans h.improves.grows h'.others

end HeadDriven.Chart
