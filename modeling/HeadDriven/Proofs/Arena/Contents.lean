import HeadDriven.Item.Arena
import HeadDriven.Item.Key

/-! What an arena holds. Positions keep the item they were given to; only its
garbage mark may change, so an arena is read here through the items as they were
built. An arena extends another if it holds the same items at all of the other's
positions. -/
namespace HeadDriven

theorem Item.copy_of_fresh {item : Item} (h : item.garbage = false) : item.copy = item := by
  cases item
  simpa [Item.copy] using h.symm

namespace Arena

/-- The item at a position as it was built, whether or not it has lost its place since. -/
def built? (a : Arena) (index : Nat) : Option Item := a.items[index]?.map Item.copy

/-- Head children lie before their parents. -/
def Linked (a : Arena) : Prop :=
  ∀ index item child, a.built? index = some item → item.headChild = some child → child < index

structure Extends (a b : Arena) : Prop where
  size_le : a.size ≤ b.size
  built? : ∀ index < a.size, b.built? index = a.built? index

variable {a b c : Arena} {index : Nat} {item : Item}

theorem built?_eq_some_iff :
    a.built? index = some item ↔ ∃ stored, a.items[index]? = some stored ∧ stored.copy = item := by
  simp [built?]

theorem built?_of_items (h : a.items[index]? = some item) : a.built? index = some item.copy := by
  simp [built?, h]

theorem lt_size_of_built? (h : a.built? index = some item) : index < a.size := by
  obtain ⟨stored, hs, -⟩ := built?_eq_some_iff.mp h
  exact (Array.getElem?_eq_some_iff.mp hs).choose

theorem exists_built? (h : index < a.size) : ∃ item, a.built? index = some item :=
  ⟨_, built?_of_items (Array.getElem?_eq_getElem h)⟩

theorem get_eq_ok_iff : a.get index = .ok item ↔ a.items[index]? = some item := by
  unfold get
  split <;> simp_all

theorem exists_get (h : index < a.size) : ∃ item, a.get index = .ok item :=
  ⟨_, get_eq_ok_iff.mpr (Array.getElem?_eq_getElem h)⟩

theorem built?_of_get (h : a.get index = .ok item) : a.built? index = some item.copy :=
  built?_of_items (get_eq_ok_iff.mp h)

theorem built?_congr (h : b.items = a.items) : b.built? index = a.built? index := by
  simp [built?, h]

@[simp] theorem size_push (item : Item) (verb : Option Bool) :
    (a.push item verb).size = a.size + 1 := by
  simp [push, size]

theorem built?_push_lt (item : Item) (verb : Option Bool) (h : index < a.size) :
    (a.push item verb).built? index = a.built? index := by
  have hne : index ≠ a.items.size := Nat.ne_of_lt h
  simp [built?, push, Array.getElem?_push, hne]

theorem built?_push_size (item : Item) (verb : Option Bool) :
    (a.push item verb).built? a.size = some item.copy := by
  simp [built?, push, size]

@[simp] theorem size_markGarbage (index : Nat) : (a.markGarbage index).size = a.size := by
  simp [markGarbage, size]

@[simp] theorem verbs_markGarbage (index : Nat) : (a.markGarbage index).verbs = a.verbs := rfl

theorem items_markGarbage (marked : Nat) :
    (a.markGarbage marked).items[index]? =
      if marked = index then a.items[index]?.map fun item => { item with garbage := true }
      else a.items[index]? := by
  simp [markGarbage, Array.getElem?_modify]

@[simp] theorem built?_markGarbage (marked : Nat) :
    (a.markGarbage marked).built? index = a.built? index := by
  simp only [built?, items_markGarbage]
  split
  · cases a.items[index]? <;> rfl
  · rfl

theorem items_markAll_of_not_mem (lost : List Nat) (h : index ∉ lost) :
    (lost.foldl markGarbage a).items[index]? = a.items[index]? := by
  induction lost generalizing a with
  | nil => rfl
  | cons marked lost ih =>
    have hne : marked ≠ index := fun e => h (by simp [e])
    rw [List.foldl_cons, ih fun hm => h (by simp [hm]), items_markGarbage, if_neg hne]

theorem garbage_markAll {lost : List Nat} (h : index ∈ lost)
    (hitem : (lost.foldl markGarbage a).items[index]? = some item) : item.garbage = true := by
  induction lost generalizing a with
  | nil => cases h
  | cons marked lost ih =>
    by_cases hl : index ∈ lost
    · exact ih hl hitem
    · obtain rfl : index = marked := (List.mem_cons.mp h).resolve_right hl
      rw [List.foldl_cons, items_markAll_of_not_mem lost hl, items_markGarbage, if_pos rfl] at hitem
      obtain ⟨held, -, rfl⟩ := Option.map_eq_some_iff.mp hitem
      rfl

@[simp] theorem size_markAll (lost : List Nat) : (lost.foldl markGarbage a).size = a.size := by
  induction lost generalizing a with
  | nil => rfl
  | cons marked lost ih => rw [List.foldl_cons, ih, size_markGarbage]

@[simp] theorem verbs_markAll (lost : List Nat) :
    (lost.foldl markGarbage a).verbs = a.verbs := by
  induction lost generalizing a with
  | nil => rfl
  | cons marked lost ih => rw [List.foldl_cons, ih, verbs_markGarbage]

@[simp] theorem built?_markAll (lost : List Nat) :
    (lost.foldl markGarbage a).built? index = a.built? index := by
  induction lost generalizing a with
  | nil => rfl
  | cons marked lost ih => rw [List.foldl_cons, ih, built?_markGarbage]

theorem Extends.refl (a : Arena) : a.Extends a := ⟨Nat.le_refl _, fun _ _ => rfl⟩

theorem Extends.trans (hab : a.Extends b) (hbc : b.Extends c) : a.Extends c where
  size_le := Nat.le_trans hab.size_le hbc.size_le
  built? index h := by
    rw [hbc.built? index (Nat.lt_of_lt_of_le h hab.size_le), hab.built? index h]

theorem Extends.of_items (h : b.items = a.items) : a.Extends b where
  size_le := by simp [size, h]
  built? _ _ := built?_congr h

theorem Extends.holds (hab : a.Extends b) (h : a.built? index = some item) :
    b.built? index = some item := by
  rw [hab.built? index (lt_size_of_built? h), h]

theorem extends_push_markAll (item : Item) (verb : Option Bool) (lost : List Nat) :
    a.Extends (lost.foldl markGarbage (a.push item verb)) where
  size_le := by simp
  built? index h := by rw [built?_markAll, built?_push_lt _ _ h]

end Arena

end HeadDriven
