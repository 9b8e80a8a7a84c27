import HeadDriven.Proofs.Progress
import HeadDriven.Proofs.Search.Reading

/-! How the items of a decode come about. An item is built by one of the steps of a
derivation over items stored before it; nothing else is ever stored. A chart is
sound when this holds of all it has stored, and a task is ready when it will offer
only such items. Every step of a decode succeeds and keeps chart and tasks so. -/
namespace HeadDriven

/-- An item, as it was built, at a position below a bound. -/
structure Arena.Holds (a : Arena) (bound index : Nat) (item : Item) : Prop where
  below : index < bound
  built : a.built? index = some item

/-- The items that one step builds over the items stored below a bound. -/
inductive Builds (g : Grammar) (sentence : Sentence) (a : Arena) (bound : Nat) : Item → Prop where
  | seed {position : Nat} {token : Token} {tag : Symbol} (word : sentence[position]? = some token)
      (h : g.Seeds token tag) : Builds g sentence a bound (g.seeded position token tag)
  | project {index : Nat} {head : Item} {parent : Symbol} {left right : Frame}
      (under : a.Holds bound index head) (h : g.Projects head parent left right) :
      Builds g sentence a bound (g.projected index head parent left right)
  | attach {i j : Nat} {m d : Item} {side : Side} (under : a.Holds bound i m)
      (modifier : a.Holds bound j d) (joins : g.Joins sentence side m d)
      (h : g.Attaches (a.modificand i m) (g.modifier a j d) side) :
      Builds g sentence a bound (g.attachment (a.modificand i m) (g.modifier a j d) side)
  | stop {i : Nat} {m : Item} (under : a.Holds bound i m) (h : g.Stops (a.modificand i m)) :
      Builds g sentence a bound (g.stoppedCopy (a.modificand i m))
  | root {index : Nat} {head : Item} (under : a.Holds bound index head)
      (whole : head.first = 0 ∧ head.last + 1 = sentence.length) (h : g.Roots head) :
      Builds g sentence a bound (g.rooted index head)

/-- Every stored item was built over items stored before it. -/
def Arena.Built (a : Arena) (g : Grammar) (sentence : Sentence) : Prop :=
  ∀ index item, a.built? index = some item → Builds g sentence a index item

variable {g : Grammar} {sentence : Sentence} {a b : Arena} {bound bound' : Nat} {item : Item}

theorem Arena.Holds.extends {index : Nat} (h : a.Holds bound index item) (grows : a.Extends b)
    (hle : bound ≤ bound') : b.Holds bound' index item :=
  ⟨Nat.lt_of_lt_of_le h.below hle, grows.holds h.built⟩

theorem Arena.Extends.modificand {i : Nat} {m : Item} (grows : a.Extends b)
    (linked : a.Linked) (h : a.Holds bound i m) : b.modificand i m = a.modificand i m := by
  rw [Arena.modificand, grows.headLabelOf (linked.hasHead h.built), Arena.modificand]

theorem Arena.Extends.modifier {j : Nat} {d : Item} (grows : a.Extends b)
    (h : a.Holds bound j d) : g.modifier b j d = g.modifier a j d := by
  rw [Grammar.modifier, grows.dominatesVerb (Arena.lt_size_of_built? h.built), Grammar.modifier]

theorem Builds.extends (h : Builds g sentence a bound item) (linked : a.Linked)
    (grows : a.Extends b) (hle : bound ≤ bound') : Builds g sentence b bound' item := by
  cases h with
  | seed word h => exact .seed word h
  | project under h => exact .project (under.extends grows hle) h
  | attach under modifier joins h =>
    rw [← grows.modificand linked under, ← grows.modifier modifier] at h ⊢
    exact .attach (under.extends grows hle) (modifier.extends grows hle) joins h
  | stop under h =>
    rw [← grows.modificand linked under] at h ⊢
    exact .stop (under.extends grows hle) h
  | root under whole h => exact .root (under.extends grows hle) whole h

theorem Builds.fresh (h : Builds g sentence a bound item) : item.garbage = false := by
  cases h with
  | attach =>
    rename_i side _ _ _ _
    cases side <;> rfl
  | _ => rfl

theorem Builds.headChild_lt (h : Builds g sentence a bound item) (linked : a.Linked)
    {child : Nat} (hc : item.headChild = some child) : child < bound := by
  cases h with
  | seed => cases hc
  | project under => exact Option.some.inj hc ▸ under.below
  | attach under modifier joins h =>
    rw [Grammar.headChild_attachment] at hc
    exact Nat.lt_trans (linked _ _ _ under.built hc) under.below
  | stop under h => exact Nat.lt_trans (linked _ _ _ under.built hc) under.below
  | root under => exact Option.some.inj hc ▸ under.below

/-- What one step keeps of the items it builds over holds of all stored items. -/
theorem Arena.Built.induction {P : Nat → Item → Prop} (built : a.Built g sentence)
    (step : ∀ index item, Builds g sentence a index item →
      (∀ i other, a.Holds index i other → P i other) → P index item)
    {index : Nat} (h : a.built? index = some item) : P index item := by
  induction index using Nat.strongRecOn generalizing item with
  | ind index ih =>
    exact step index item (built index item h) fun i other holds => ih i holds.below holds.built

theorem Arena.Built.linked (built : a.Built g sentence) : a.Linked := by
  refine fun index item child h => built.induction
    (P := fun index item => item.headChild = some child → child < index)
    (fun index item h before hc => ?_) h
  cases h with
  | seed => cases hc
  | project under | root under => exact Option.some.inj hc ▸ under.below
  | attach under =>
    rw [Grammar.headChild_attachment] at hc
    exact Nat.lt_trans (before _ _ under hc) under.below
  | stop under => exact Nat.lt_trans (before _ _ under hc) under.below

theorem Arena.Built.extends {b : Arena} (built : a.Built g sentence) (grows : a.Extends b)
    (new : ∀ index item, a.size ≤ index → b.built? index = some item →
      Builds g sentence a index item) : b.Built g sentence := by
  intro index item h
  by_cases hlt : index < a.size
  · rw [grows.built? index hlt] at h
    exact (built index item h).extends built.linked grows (Nat.le_refl _)
  · exact (new index item (Nat.not_lt.mp hlt) h).extends built.linked grows (Nat.le_refl _)

structure Located (sentence : Sentence) (item : Item) : Prop where
  first_le_last : item.first ≤ item.last
  last_lt : item.last < sentence.length

theorem Builds.located (h : Builds g sentence a bound item)
    (before : ∀ i other, a.Holds bound i other → Located sentence other) :
    Located sentence item := by
  cases h with
  | seed word h => exact ⟨Nat.le_refl _, (List.getElem?_eq_some_iff.mp word).choose⟩
  | project under h =>
    obtain ⟨hle, hlt⟩ := before _ _ under
    exact ⟨hle, hlt⟩
  | attach under modifier joins h =>
    obtain ⟨hm, hmn⟩ := before _ _ under
    obtain ⟨hd, hdn⟩ := before _ _ modifier
    have adjacent := joins.adjacent
    rename_i i j m d side
    cases side with
    | left =>
      refine ⟨show d.first ≤ m.last from ?_, hmn⟩
      simp only [Side.leftPart, Side.rightPart] at adjacent
      omega
    | right =>
      refine ⟨show m.first ≤ d.last from ?_, hdn⟩
      simp only [Side.leftPart, Side.rightPart] at adjacent
      omega
  | stop under h =>
    obtain ⟨hle, hlt⟩ := before _ _ under
    exact ⟨hle, hlt⟩
  | root under whole h =>
    obtain ⟨hle, hlt⟩ := before _ _ under
    exact ⟨hle, hlt⟩

theorem Arena.Built.located (built : a.Built g sentence) {index : Nat}
    (h : a.built? index = some item) : Located sentence item :=
  built.induction (P := fun _ => Located sentence) (fun _ _ => Builds.located) h

end HeadDriven
