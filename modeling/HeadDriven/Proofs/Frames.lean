import HeadDriven.Proofs.Model.Reframed
import Mathlib.Data.Multiset.AddSub

/-! Frames under changes. Whatever is added to a frame, removed from it and put in order, what was
given to it is discharged or still required. The labels of a bag are in the order of their ids, so
nothing else is to be known of a bag than how often it requires each label; those of a list are in
the order in which they were given, less the first ones that were discharged. -/
namespace HeadDriven.Frame

inductive Change where
  | add (label : Symbol)
  | remove (label : Symbol)
  | canonicalize

def Change.adds : Change → List Symbol
  | .add label => [label]
  | .remove _ | .canonicalize => []

def change (f : Frame) : Change → Frame
  | .add label => f.add label
  | .remove label => (f.remove label).2
  | .canonicalize => f.canonicalize

def drops (f : Frame) : Change → List Symbol
  | .remove label => if (f.remove label).1 then [label] else []
  | .add _ | .canonicalize => []

def after (kind : FrameKind) (labels : List Symbol) (changes : List Change) : Frame :=
  changes.foldl change (ofList kind labels)

def added (changes : List Change) : List Symbol := changes.flatMap Change.adds

def dropped : Frame → List Change → List Symbol
  | _, [] => []
  | f, c :: changes => f.drops c ++ dropped (f.change c) changes

/-- A frame with the labels that were given to it and those of them that were discharged. -/
structure Holds (f : Frame) (given taken : List Symbol) : Prop where
  whole : (taken ++ f.labels).Perm given
  listed : f.kind = .list → f.labels = given.diff taken
  sorted : f.kind = .bag → f.labels.Pairwise (·.id ≤ ·.id)

/-- What a removal of a label tells and leaves. -/
structure Removes (f : Frame) (label : Symbol) (told : Bool) (next : Frame) : Prop where
  told_iff : told = true ↔ f.contains label = true
  first : told = true → ∃ front back, f.labels = front ++ label :: back ∧ label ∉ front ∧
    next = { f with labels := front ++ back }
  own : told = true → next.labels.count label + 1 = f.labels.count label
  others : ∀ other, other ≠ label → next.labels.count other = f.labels.count other
  unchanged : told = false → next = f

variable {f f' : Frame} {labels given taken : List Symbol}

theorem diff_append_of_whole (whole : (taken ++ labels).Perm given) (more : List Symbol) :
    (given ++ more).diff taken = given.diff taken ++ more := by
  induction taken generalizing given with
  | nil => rw [List.diff_nil, List.diff_nil]
  | cons label taken ih =>
    have held : label ∈ given := whole.subset List.mem_cons_self
    have rest : (taken ++ labels).Perm (given.erase label) := by
      simpa using whole.erase label
    rw [List.diff_cons, List.diff_cons, List.erase_append_left _ held, ih rest]

theorem insertSorted_parts (label : Symbol) (sorted : labels.Pairwise (·.id ≤ ·.id)) :
    ∃ front back, labels = front ++ back ∧ (∀ s ∈ front, s.id ≤ label.id) ∧
      (∀ s ∈ back, label.id < s.id) ∧ insertSorted label labels = front ++ label :: back := by
  induction labels with
  | nil => exact ⟨[], [], rfl, nofun, nofun, rfl⟩
  | cons s labels ih =>
    obtain ⟨first, rest⟩ := List.pairwise_cons.mp sorted
    rw [insertSorted]
    split
    · rename_i le
      obtain ⟨front, back, rfl, small, large, placed⟩ := ih rest
      have small : ∀ x ∈ s :: front, x.id ≤ label.id := List.forall_mem_cons.mpr ⟨le, small⟩
      exact ⟨s :: front, back, rfl, small, large, congrArg (s :: ·) placed⟩
    · rename_i large
      have large : label.id < s.id := Nat.lt_of_not_le large
      refine ⟨[], s :: labels, rfl, nofun, List.forall_mem_cons.mpr ⟨large, fun s' hs' => ?_⟩, rfl⟩
      exact Nat.lt_of_lt_of_le large (first s' hs')

theorem insertSorted_sorted (label : Symbol) (sorted : labels.Pairwise (·.id ≤ ·.id)) :
    (insertSorted label labels).Pairwise (·.id ≤ ·.id) := by
  obtain ⟨front, back, rfl, small, large, placed⟩ := insertSorted_parts label sorted
  obtain ⟨hfront, hback, across⟩ := List.pairwise_append.mp sorted
  rw [placed]
  refine List.pairwise_append.mpr ⟨hfront, List.pairwise_cons.mpr ⟨?_, hback⟩, fun s hs => ?_⟩
  · exact fun s hs => Nat.le_of_lt (large s hs)
  · exact List.forall_mem_cons.mpr ⟨small s hs, across s hs⟩

theorem eq_of_sorted {labels' : List Symbol} (sorted : labels.Pairwise (·.id ≤ ·.id))
    (sorted' : labels'.Pairwise (·.id ≤ ·.id)) (perm : labels.Perm labels') : labels = labels' := by
  refine List.Perm.eq_of_pairwise (fun a b _ _ le ge => ?_) sorted sorted' perm
  obtain ⟨a⟩ := a
  obtain ⟨b⟩ := b
  exact congrArg Symbol.mk (Nat.le_antisymm le ge)

theorem kind_add (f : Frame) (label : Symbol) : (f.add label).kind = f.kind := by
  unfold add
  split <;> rfl

theorem labels_add_perm (f : Frame) (label : Symbol) :
    (f.add label).labels.Perm (label :: f.labels) := by
  unfold add
  split
  · exact insertSorted_perm label f.labels
  · exact List.perm_append_singleton label f.labels

theorem Holds.add (h : f.Holds given taken) (label : Symbol) :
    (f.add label).Holds (given ++ [label]) taken where
  whole :=
    calc
      List.Perm (taken ++ (f.add label).labels) (taken ++ label :: f.labels) :=
        (labels_add_perm f label).append_left taken
      List.Perm _ (label :: (taken ++ f.labels)) := List.perm_middle
      List.Perm _ (label :: given) := h.whole.cons label
      List.Perm _ (given ++ [label]) := (List.perm_append_singleton label given).symm
  listed list := by
    rw [kind_add] at list
    rw [diff_append_of_whole h.whole, ← h.listed list, Frame.add, list]
  sorted bag := by
    rw [kind_add] at bag
    rw [Frame.add, bag]
    exact insertSorted_sorted label (h.sorted bag)

theorem holds_ofList (kind : FrameKind) (labels : List Symbol) :
    (ofList kind labels).Holds labels [] := by
  suffices general : ∀ (f : Frame) given, f.Holds given [] →
      (labels.foldl add f).Holds (given ++ labels) [] from
    general (empty kind) [] ⟨.refl _, fun _ => rfl, fun _ => List.Pairwise.nil⟩
  induction labels with
  | nil => simp
  | cons label labels ih =>
    intro f given h
    have := ih _ _ (h.add label)
    rwa [List.append_assoc, List.singleton_append] at this

theorem Holds.remove (h : f.Holds given taken) (label : Symbol) :
    (f.remove label).2.Holds given (taken ++ f.drops (.remove label)) := by
  rw [drops, remove_eq]
  by_cases held : label ∈ f.labels
  · have contained : f.contains label = true := List.contains_iff_mem.mpr held
    rw [if_pos contained]
    refine ⟨?_, fun list => ?_, fun bag => (h.sorted bag).erase label⟩
    · rw [List.append_assoc, List.singleton_append]
      exact ((List.perm_cons_erase held).symm.append_left taken).trans h.whole
    · rw [List.diff_append, ← h.listed list, List.diff_cons, List.diff_nil]
  · have lacking : ¬f.contains label = true := fun contained =>
      held (List.contains_iff_mem.mp contained)
    rw [if_neg lacking, List.append_nil, List.erase_of_not_mem held]
    exact h

theorem Holds.canonicalize (h : f.Holds given taken) : f.canonicalize = f := by
  obtain ⟨kind, labels⟩ := f
  cases kind with
  | list => rfl
  | bag =>
    obtain ⟨same, perm⟩ := ofList_recasts .bag ⟨.bag, labels⟩
    have sorted := (holds_ofList .bag labels).sorted same
    rw [Frame.canonicalize, Frame.mk.injEq]
    exact ⟨same, eq_of_sorted sorted (h.sorted rfl) perm.symm⟩

theorem Holds.change (h : f.Holds given taken) (c : Change) :
    (f.change c).Holds (given ++ c.adds) (taken ++ f.drops c) := by
  cases c with
  | add label => exact (List.append_nil taken).symm ▸ h.add label
  | remove label => exact (List.append_nil given).symm ▸ h.remove label
  | canonicalize =>
    rw [Frame.change, h.canonicalize, Change.adds, drops, List.append_nil, List.append_nil]
    exact h

theorem Holds.foldl_change (h : f.Holds given taken) (changes : List Change) :
    (changes.foldl Frame.change f).Holds (given ++ added changes) (taken ++ f.dropped changes) := by
  induction changes generalizing f given taken with
  | nil => simpa [added, dropped] using h
  | cons c changes ih =>
    have := ih (h.change c)
    rwa [List.append_assoc, List.append_assoc] at this

theorem holds_after (kind : FrameKind) (labels : List Symbol) (changes : List Change) :
    (after kind labels changes).Holds (labels ++ added changes)
      ((ofList kind labels).dropped changes) :=
  (holds_ofList kind labels).foldl_change changes

theorem kind_change (f : Frame) (c : Change) : (f.change c).kind = f.kind := by
  cases c with
  | add label => exact kind_add f label
  | remove label => rw [change, remove_eq]
  | canonicalize =>
    obtain ⟨kind, labels⟩ := f
    cases kind with
    | list => rfl
    | bag => exact (ofList_recasts .bag ⟨.bag, labels⟩).kind

theorem kind_after (kind : FrameKind) (labels : List Symbol) (changes : List Change) :
    (after kind labels changes).kind = kind := by
  suffices general : ∀ f : Frame, (changes.foldl change f).kind = f.kind by
    exact (general _).trans (ofList_recasts kind ⟨kind, labels⟩).kind
  induction changes with
  | nil => exact fun _ => rfl
  | cons c changes ih => exact fun f => (ih _).trans (kind_change f c)

theorem removes_remove (f : Frame) (label : Symbol) :
    f.Removes label (f.remove label).1 (f.remove label).2 := by
  rw [remove_eq]
  refine ⟨Iff.rfl, fun told => ?_, fun told => ?_, fun other differ => ?_, fun told => ?_⟩
  · obtain ⟨front, back, absent, split, rest⟩ :=
      List.exists_erase_eq (List.contains_iff_mem.mp told)
    exact ⟨front, back, split, absent, by rw [rest]⟩
  · have held : 0 < f.labels.count label := List.count_pos_iff.mpr (List.contains_iff_mem.mp told)
    rw [List.count_erase_self, Nat.sub_add_cancel held]
  · rw [List.count_erase_of_ne differ]
  · have absent : label ∉ f.labels := fun held =>
      Bool.false_ne_true (told.symm.trans (List.contains_iff_mem.mpr held))
    rw [List.erase_of_not_mem absent]

theorem Holds.eq_iff {given' taken' : List Symbol} (h : f.Holds given taken)
    (h' : f'.Holds given' taken') (bag : f.kind = .bag) (bag' : f'.kind = .bag) :
    f = f' ↔ (f.labels : Multiset Symbol) = (f'.labels : Multiset Symbol) := by
  refine ⟨fun same => same ▸ rfl, fun same => ?_⟩
  have labels := eq_of_sorted (h.sorted bag) (h'.sorted bag') (Multiset.coe_eq_coe.mp same)
  cases f
  cases f'
  rw [Frame.mk.injEq]
  exact ⟨bag.trans bag'.symm, labels⟩

/-- Frames keep account of their labels. A bag has them in the order of their ids, however it was
built, and equals just the bags that require the same; a list has what was given to it in that
order, less the first ones that were discharged. A removal discharges one requirement if there is
one, and frames of two kinds are never equal. -/
theorem frames_keep_account (kind : FrameKind) (labels : List Symbol) (changes : List Change) :
    let f := after kind labels changes
    let given := labels ++ added changes
    let taken := (ofList kind labels).dropped changes
    (kind = .bag →
      f.labels.Pairwise (·.id ≤ ·.id) ∧ f.canonicalize = f ∧
      (f.labels : Multiset Symbol) = (given : Multiset Symbol) - (taken : Multiset Symbol) ∧
      (∀ labels' changes', f = after .bag labels' changes' ↔
        (f.labels : Multiset Symbol) = ((after .bag labels' changes').labels : Multiset Symbol)) ∧
      ∀ label, ∃ front back, f.labels = front ++ back ∧ (∀ s ∈ front, s.id ≤ label.id) ∧
        (∀ s ∈ back, label.id < s.id) ∧ (f.add label).labels = front ++ label :: back) ∧
    (kind = .list → f.labels = given.diff taken ∧ f.canonicalize = f) ∧
    (∀ label, f.Removes label (f.remove label).1 (f.remove label).2) ∧
    ∀ kind' labels' changes', kind ≠ kind' → f ≠ after kind' labels' changes' := by
  intro f given taken
  have holds : f.Holds given taken := holds_after kind labels changes
  have hkind : f.kind = kind := kind_after kind labels changes
  refine ⟨fun bag => ?_, fun list => ⟨holds.listed (hkind.trans list), holds.canonicalize⟩,
    removes_remove f, fun kind' labels' changes' differ same => ?_⟩
  · have bag : f.kind = .bag := hkind.trans bag
    refine ⟨holds.sorted bag, holds.canonicalize, ?_, fun labels' changes' => ?_, fun label => ?_⟩
    · have whole : ((taken ++ f.labels : List Symbol) : Multiset Symbol) = given :=
        Multiset.coe_eq_coe.mpr holds.whole
      rw [← whole, ← Multiset.coe_add, add_tsub_cancel_left]
    · exact holds.eq_iff (holds_after .bag labels' changes') bag (kind_after .bag labels' changes')
    · rw [add, bag]
      exact insertSorted_parts label (holds.sorted bag)
  · rw [← hkind, same, kind_after] at differ
    exact differ rfl

example : after .bag [⟨11⟩, ⟨10⟩, ⟨10⟩] [.remove ⟨10⟩, .canonicalize, .remove ⟨12⟩] =
    after .bag [⟨10⟩] [.add ⟨11⟩] := by decide

end HeadDriven.Frame
