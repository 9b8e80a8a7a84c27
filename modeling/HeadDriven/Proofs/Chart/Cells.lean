import HeadDriven.Chart
import HeadDriven.Proofs.Chart.Group

/-! The cells of a chart. A cell keeps its labels in order of their ids, so it has
one group for a label, and replacing that group leaves all others as they are. -/
namespace HeadDriven

namespace Cell

def Sorted (cell : Cell) : Prop := cell.Pairwise fun a b => a.1.id < b.1.id

variable {cell : Cell} {label other : Symbol} {group : LabelGroup}

theorem id_ne_of_ne (h : label ≠ other) : label.id ≠ other.id := by
  cases label
  cases other
  simpa using h

theorem group?_put_self : (cell.put label group).group? label = some group := by
  unfold group?
  induction cell with
  | nil => simp [put]
  | cons held rest ih =>
    obtain ⟨l, g⟩ := held
    simp only [put]
    split
    · simp
    · rename_i hne
      split
      · simp
      · rw [List.lookup_cons, beq_false_of_ne hne]
        exact ih

theorem group?_put_of_ne (h : other ≠ label) :
    (cell.put label group).group? other = cell.group? other := by
  unfold group?
  induction cell with
  | nil => simp [put, h]
  | cons held rest ih =>
    obtain ⟨l, g⟩ := held
    simp only [put]
    split
    · rename_i heq
      subst heq
      simp [List.lookup_cons, beq_false_of_ne h]
    · split
      · simp [List.lookup_cons, beq_false_of_ne h]
      · rw [List.lookup_cons, List.lookup_cons, ih]

theorem label_mem_put {p : Symbol × LabelGroup} (h : p ∈ cell.put label group) :
    p = (label, group) ∨ p ∈ cell := by
  induction cell with
  | nil => simpa [put] using h
  | cons held rest ih =>
    obtain ⟨l, g⟩ := held
    simp only [put] at h
    split at h
    · rcases List.mem_cons.mp h with h | h
      · exact Or.inl h
      · exact Or.inr (List.mem_cons_of_mem _ h)
    · split at h
      · rcases List.mem_cons.mp h with h | h
        · exact Or.inl h
        · exact Or.inr h
      · rcases List.mem_cons.mp h with h | h
        · exact Or.inr (h ▸ List.mem_cons_self)
        · rcases ih h with h | h
          · exact Or.inl h
          · exact Or.inr (List.mem_cons_of_mem _ h)

theorem Sorted.put (h : cell.Sorted) : (cell.put label group).Sorted := by
  unfold Sorted at h ⊢
  induction cell with
  | nil => simp [Cell.put]
  | cons held rest ih =>
    obtain ⟨l, g⟩ := held
    rw [List.pairwise_cons] at h
    simp only [Cell.put]
    split
    · rename_i heq
      subst heq
      exact List.pairwise_cons.mpr h
    · rename_i hne
      split
      · rename_i hlt
        refine List.pairwise_cons.mpr ⟨fun p hp => ?_, List.pairwise_cons.mpr h⟩
        rcases List.mem_cons.mp hp with rfl | hp
        · exact hlt
        · exact Nat.lt_trans hlt (h.1 p hp)
      · rename_i hge
        refine List.pairwise_cons.mpr ⟨fun p hp => ?_, ih h.2⟩
        rcases label_mem_put hp with rfl | hp
        · have := id_ne_of_ne hne
          simp only at hge ⊢
          omega
        · exact h.1 p hp

theorem Sorted.mem_iff (h : cell.Sorted) :
    (label, group) ∈ cell ↔ cell.group? label = some group := by
  unfold Sorted at h
  unfold group?
  induction cell with
  | nil => simp
  | cons held rest ih =>
    obtain ⟨l, g⟩ := held
    rw [List.pairwise_cons] at h
    rw [List.mem_cons, List.lookup_cons]
    by_cases hl : label = l
    · subst hl
      have notin : (label, group) ∉ rest := fun hr =>
        Nat.lt_irrefl label.id (h.1 (label, group) hr)
      simp [notin, eq_comm]
    · simp [hl, beq_false_of_ne hl, ih h.2]

theorem Sorted.mem_indices_iff (h : cell.Sorted) {index : Nat} :
    index ∈ cell.indices ↔
      ∃ label, ∃ e ∈ ((cell.group? label).getD LabelGroup.empty).entries, e.index = index := by
  simp only [indices, List.mem_flatMap, Prod.exists, LabelGroup.indices, List.mem_map]
  constructor
  · rintro ⟨label, group, hg, e, he, hi⟩
    exact ⟨label, e, by simpa [h.mem_iff.mp hg] using he, hi⟩
  · rintro ⟨label, e, he, hi⟩
    cases hg : cell.group? label with
    | none => simp [hg, LabelGroup.empty] at he
    | some group => exact ⟨label, group, h.mem_iff.mpr hg, e, by simpa [hg] using he, hi⟩

end Cell

namespace Chart

/-- The group of a label in a cell, without entries if the cell has none for it. -/
def groupAt (c : Chart) (first last : Nat) (label : Symbol) : LabelGroup :=
  ((c.cells.getD (first * c.size + last) []).group? label).getD LabelGroup.empty

def Inside (c : Chart) (first last : Nat) : Prop := first ≤ last ∧ last < c.size

variable {c : Chart} {first last : Nat} {label : Symbol} {group : LabelGroup}

theorem cell_of_inside (h : c.Inside first last) :
    c.cell first last = .ok (c.cells.getD (first * c.size + last) []) := if_pos h

theorem place_lt (h : c.Inside first last) : first * c.size + last < c.size * c.size := by
  have hlt : first < c.size := Nat.lt_of_le_of_lt h.1 h.2
  calc
    first * c.size + last < first * c.size + c.size := Nat.add_lt_add_left h.2 _
    _ = (first + 1) * c.size := (Nat.succ_mul first c.size).symm
    _ ≤ c.size * c.size := Nat.mul_le_mul_right _ hlt

theorem place_inj {first' last' : Nat} (h : c.Inside first last) (h' : c.Inside first' last')
    (heq : first * c.size + last = first' * c.size + last') : first = first' ∧ last = last' := by
  have quotient (x y : Nat) (hy : y < c.size) : (x * c.size + y) / c.size = x := by
    rw [Nat.mul_comm, Nat.mul_add_div (by omega), Nat.div_eq_of_lt hy, Nat.add_zero]
  have hfirst : first = first' := by
    rw [← quotient first last h.2, heq, quotient first' last' h'.2]
  subst hfirst
  exact ⟨rfl, Nat.add_left_cancel heq⟩

def setGroup (c : Chart) (first last : Nat) (label : Symbol) (group : LabelGroup) : Chart :=
  let place := first * c.size + last
  { c with cells := c.cells.setIfInBounds place (Cell.put label group (c.cells.getD place [])) }

theorem size_cells_setGroup (c : Chart) (first last : Nat) (label : Symbol)
    (group : LabelGroup) : (c.setGroup first last label group).cells.size = c.cells.size := by
  simp [setGroup]

theorem sorted_setGroup (h : ∀ place, Cell.Sorted (c.cells.getD place [])) (place : Nat) :
    Cell.Sorted ((c.setGroup first last label group).cells.getD place []) := by
  have hput : Cell.Sorted (Cell.put label group (c.cells.getD (first * c.size + last) [])) :=
    (h _).put
  rw [setGroup, Array.getD_eq_getD_getElem?, Array.getElem?_setIfInBounds]
  by_cases hplace : first * c.size + last = place
  · rw [if_pos hplace]
    by_cases hlt : first * c.size + last < c.cells.size
    · rw [if_pos hlt]
      exact hput
    · rw [if_neg hlt]
      exact List.Pairwise.nil
  · rw [if_neg hplace, ← Array.getD_eq_getD_getElem?]
    exact h place

theorem groupAt_setGroup_self (hcells : c.cells.size = c.size * c.size)
    (h : c.Inside first last) :
    (c.setGroup first last label group).groupAt first last label = group := by
  have hlt := place_lt h
  simp [groupAt, setGroup, Array.getD_eq_getD_getElem?, hcells, hlt, Cell.group?_put_self]

theorem groupAt_setGroup_of_ne {first' last' : Nat} {label' : Symbol}
    (h : c.Inside first last) (h' : c.Inside first' last')
    (hne : ¬ (first = first' ∧ last = last' ∧ label = label')) :
    (c.setGroup first last label group).groupAt first' last' label' =
      c.groupAt first' last' label' := by
  by_cases hplace : first * c.size + last = first' * c.size + last'
  · obtain ⟨rfl, rfl⟩ := place_inj h h' hplace
    have hlabel : label' ≠ label := fun heq => hne ⟨rfl, rfl, heq.symm⟩
    by_cases hlt : first * c.size + last < c.cells.size
    · simp [groupAt, setGroup, Array.getD_eq_getD_getElem?, hlt, Cell.group?_put_of_ne hlabel]
    · simp [groupAt, setGroup, Array.getD_eq_getD_getElem?, hlt]
  · simp [groupAt, setGroup, Array.getD_eq_getD_getElem?, hplace]

theorem resized_eq (c : Chart) (size : Nat) :
    c.resized size = ⟨c.settings, size, Array.replicate (size * size) [], Arena.empty⟩ := by
  simp only [resized, mk.injEq, true_and, and_true, Array.size_map]
  rw [← Array.toList_inj]
  simp only [Array.take_eq_extract, Array.toList_append, Array.toList_extract, Array.toList_map,
    Array.toList_replicate, List.extract_eq_take_drop, List.drop_zero, Nat.sub_zero,
    List.map_const', List.take_replicate, List.replicate_append_replicate, Array.length_toList]
  congr 1
  omega

theorem cells_resized (c : Chart) (size place : Nat) :
    (c.resized size).cells.getD place [] = [] := by
  by_cases h : place < size * size <;>
    simp [resized_eq, Array.getD_eq_getD_getElem?, h]

theorem groupAt_resized (c : Chart) (size : Nat) :
    (c.resized size).groupAt first last label = LabelGroup.empty := by
  rw [groupAt, cells_resized]
  rfl

end Chart

end HeadDriven
