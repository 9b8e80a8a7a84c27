import HeadDriven.Proofs.Arena.Verbs

/-! Keys of items as the arena determines them. What a key tells of an item beyond
its own fields is the label of its head child and whether it dominates a verb; both
are read off the items as they were built, so a key stays what it was while the
arena grows. -/
namespace HeadDriven

namespace Arena

def HasHead (a : Arena) (item : Item) : Prop :=
  ∀ child, item.headChild = some child → child < a.size

def headLabelOf? (a : Arena) (item : Item) : Option Symbol :=
  item.headChild.bind fun child => (a.built? child).map Item.label

def headLabelOf (a : Arena) (item : Item) : Symbol := (a.headLabelOf? item).getD item.label

/-- The key of an item over stored children, with nothing remembered. -/
def keyOf (a : Arena) (language : Language) (barrier : Bool) (equivalence : Equivalence)
    (item : Item) : Key :=
  Key.ofItem equivalence language item (a.headLabelOf? item) (a.itemVerb language barrier item)

variable {a b : Arena} {language : Language} {barrier : Bool} {equivalence : Equivalence}
  {item : Item}

theorem headChildLabel?_eq (h : a.HasHead item) :
    a.headChildLabel? item = .ok (a.headLabelOf? item) := by
  unfold headChildLabel? headLabelOf?
  cases hc : item.headChild with
  | none => rfl
  | some child =>
    obtain ⟨head, hhead⟩ := exists_get (h child hc)
    simp [hhead, built?_of_get hhead, Item.copy]

theorem headLabel_eq (h : a.HasHead item) : a.headLabel item = .ok (a.headLabelOf item) := by
  rw [headLabel, headChildLabel?_eq h, Outcome.map_ok, headLabelOf]

theorem HasHead.extends (h : a.HasHead item) (grows : a.Extends b) : b.HasHead item :=
  fun child hc => Nat.lt_of_lt_of_le (h child hc) grows.size_le

theorem Extends.headLabelOf? (grows : a.Extends b) (h : a.HasHead item) :
    b.headLabelOf? item = a.headLabelOf? item := by
  unfold Arena.headLabelOf?
  cases hc : item.headChild with
  | none => rfl
  | some child => simp [grows.built? child (h child hc)]

theorem Extends.headLabelOf (grows : a.Extends b) (h : a.HasHead item) :
    b.headLabelOf item = a.headLabelOf item := by
  rw [Arena.headLabelOf, grows.headLabelOf? h, Arena.headLabelOf]

theorem Extends.keyOf (grows : a.Extends b) (h : a.HasHead item) :
    b.keyOf language barrier equivalence item = a.keyOf language barrier equivalence item := by
  rw [Arena.keyOf, grows.headLabelOf? h, grows.itemVerb h, Arena.keyOf]

theorem Linked.hasHead (linked : a.Linked) {index : Nat} (h : a.built? index = some item) :
    a.HasHead item :=
  fun child hc => Nat.lt_trans (linked index item child h hc) (lt_size_of_built? h)

end Arena

namespace Key

theorem ofItem_of_growing {equivalence : Equivalence} {language : Language} {item : Item}
    {headLabel : Option Symbol} (h : item.stopped = false) (verb verb' : Bool) :
    ofItem equivalence language item headLabel verb =
      ofItem equivalence language item headLabel verb' := by
  simp [ofItem, h]

end Key

end HeadDriven
