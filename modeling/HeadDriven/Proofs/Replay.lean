import HeadDriven.Proofs.Visits

/-! Replaying items. An item stores its latest state only, yet its history can be read
back: it is a single word under a tag, or a projection of a stopped head child that
took its right modifiers from the head outwards, then its left ones, and then
perhaps stopped, or the top transition of a stopped item. Its log probability is the
sum of the events of that history, added up in their order. -/
namespace HeadDriven

structure Attachment where
  modifier : Modifier
  logMod : Float

def Grammar.attachmentOf (g : Grammar) (m : Modificand) (d : Modifier) (side : Side) :
    Attachment :=
  ⟨d, g.model.modifier (Grammar.attachmentEvent m d side)⟩

/-- Attaching stored items on one side, one after the other. Each attachment is
conditioned on the stored item as it stood just before. -/
inductive Takes (g : Grammar) (sentence : Sentence) (a : Arena) (bound : Nat) (side : Side)
    (base : Item) : List Attachment → Item → Prop where
  | none : Takes g sentence a bound side base [] base
  | one {i j : Nat} {m d : Item} {steps : List Attachment}
      (before : Takes g sentence a bound side base steps m) (under : a.Holds bound i m)
      (modifier : a.Holds bound j d) (joins : g.Joins sentence side m d)
      (h : g.Attaches (a.modificand i m) (g.modifier a j d) side) :
      Takes g sentence a bound side base
        (steps ++ [g.attachmentOf (a.modificand i m) (g.modifier a j d) side])
        (g.attachment (a.modificand i m) (g.modifier a j d) side)

def attachedChildren (steps : List Attachment) : List Nat :=
  (steps.map (·.modifier.index)).reverse

def logAfter (logTree : Float) (steps : List Attachment) : Float :=
  steps.foldl (fun logTree step => logTree + step.modifier.item.logTree + step.logMod) logTree

/-- An item with the modifiers it took, before it stops. -/
structure Grown (g : Grammar) (sentence : Sentence) (a : Arena) (bound : Nat) (base : Item)
    (rights lefts : List Attachment) (item : Item) : Prop where
  history : ∃ mid, Takes g sentence a bound .right base rights mid ∧
    Takes g sentence a bound .left mid lefts item
  rightChildren : item.right.children = attachedChildren rights
  leftChildren : item.left.children = attachedChildren lefts
  headChild : item.headChild = base.headChild
  stopped : item.stopped = base.stopped
  logTree : item.logTree = logAfter base.logTree (rights ++ lefts)
  logPrior : item.logPrior = base.logPrior

/-- The histories that lead to the item at a position. -/
inductive Replays (g : Grammar) (sentence : Sentence) (a : Arena) (bound : Nat) : Item → Prop where
  | preterminal {position : Nat} {token : Token} {tag : Symbol}
      (word : sentence[position]? = some token) (h : g.Seeds token tag) :
      Replays g sentence a bound (g.seeded position token tag)
  | growing {index : Nat} {head item : Item} {parent : Symbol} {left right : Frame}
      {rights lefts : List Attachment} (under : a.Holds bound index head)
      (projects : g.Projects head parent left right)
      (grown : Grown g sentence a bound (g.projected index head parent left right) rights lefts
        item) :
      Replays g sentence a bound item
  | stopped {index i : Nat} {head item : Item} {parent : Symbol} {left right : Frame}
      {rights lefts : List Attachment} (under : a.Holds bound index head)
      (projects : g.Projects head parent left right)
      (grown : Grown g sentence a bound (g.projected index head parent left right) rights lefts
        item)
      (last : a.Holds bound i item) (stops : g.Stops (a.modificand i item)) :
      Replays g sentence a bound (g.stoppedCopy (a.modificand i item))
  | top {index : Nat} {head : Item} (under : a.Holds bound index head)
      (whole : head.first = 0 ∧ head.last + 1 = sentence.length) (h : g.Roots head) :
      Replays g sentence a bound (g.rooted index head)

variable {g : Grammar} {sentence : Sentence} {a : Arena} {bound bound' : Nat} {side : Side}
  {base item : Item} {rights lefts steps : List Attachment}

theorem Takes.mono (h : Takes g sentence a bound side base steps item) (hle : bound ≤ bound') :
    Takes g sentence a bound' side base steps item := by
  induction h with
  | none => exact .none
  | one before under modifier joins h ih =>
    exact .one ih (under.extends (.refl a) hle) (modifier.extends (.refl a) hle) joins h

theorem Takes.eq_of_nil (h : Takes g sentence a bound side base steps item)
    (hnil : steps = []) : base = item := by
  cases h with
  | none => rfl
  | one => simp at hnil

theorem Grown.mono (h : Grown g sentence a bound base rights lefts item) (hle : bound ≤ bound') :
    Grown g sentence a bound' base rights lefts item :=
  { h with history := h.history.imp fun _ h => ⟨h.1.mono hle, h.2.mono hle⟩ }

theorem attachedChildren_snoc (steps : List Attachment) (step : Attachment) :
    attachedChildren (steps ++ [step]) = step.modifier.index :: attachedChildren steps := by
  simp [attachedChildren]

theorem attachedChildren_eq_nil (h : attachedChildren steps = []) : steps = [] := by
  simpa [attachedChildren] using h

theorem logAfter_snoc (logTree : Float) (steps : List Attachment) (step : Attachment) :
    logAfter logTree (steps ++ [step]) =
      logAfter logTree steps + step.modifier.item.logTree + step.logMod := by
  simp [logAfter]

theorem Grown.attach {i j : Nat} {m d : Item}
    (h : Grown g sentence a bound base rights lefts m) (under : a.Holds bound i m)
    (modifier : a.Holds bound j d) (joins : g.Joins sentence side m d)
    (attaches : g.Attaches (a.modificand i m) (g.modifier a j d) side) :
    ∃ rights lefts, Grown g sentence a bound base rights lefts
      (g.attachment (a.modificand i m) (g.modifier a j d) side) := by
  obtain ⟨mid, toRight, toLeft⟩ := h.history
  cases side with
  | right =>
    have none : lefts = [] := attachedChildren_eq_nil (h.leftChildren ▸ joins.unmodified)
    subst none
    obtain rfl := toLeft.eq_of_nil rfl
    refine ⟨rights ++ [_], [], ⟨_, toRight.one under modifier joins attaches, .none⟩, ?_,
      h.leftChildren,
      h.headChild, h.stopped, ?_, h.logPrior⟩
    · rw [attachedChildren_snoc, ← h.rightChildren]
      rfl
    · have before := h.logTree
      rw [List.append_nil] at before ⊢
      rw [logAfter_snoc, ← before]
      rfl
  | left =>
    refine ⟨rights, lefts ++ [_], ⟨mid, toRight, toLeft.one under modifier joins attaches⟩,
      h.rightChildren, ?_, h.headChild, h.stopped, ?_, h.logPrior⟩
    · rw [attachedChildren_snoc, ← h.leftChildren]
      rfl
    · rw [← List.append_assoc, logAfter_snoc, ← h.logTree]
      rfl

theorem Grown.projection (base : Item) (hleft : base.left.children = [])
    (hright : base.right.children = []) : Grown g sentence a bound base [] [] base where
  history := ⟨base, .none, .none⟩
  rightChildren := hright
  leftChildren := hleft
  headChild := rfl
  stopped := rfl
  logTree := rfl
  logPrior := rfl

theorem Builds.replays {index : Nat} (h : Builds g sentence a index item)
    (before : ∀ i other, a.Holds index i other → Replays g sentence a i other) :
    Replays g sentence a index item := by
  -- An item that still grows is no single word, no stopped copy and no root.
  have growing {i : Nat} {m : Item} (under : a.Holds index i m) (hm : m.stopped = false) :
      ∃ h head parent left right rights lefts, a.Holds index h head ∧
        g.Projects head parent left right ∧
        Grown g sentence a index (g.projected h head parent left right) rights lefts m := by
    cases before i m under with
    | preterminal | stopped | top => cases hm
    | growing head projects grown =>
      have hle := Nat.le_of_lt under.below
      exact ⟨_, _, _, _, _, _, _, head.extends (.refl a) hle, projects, grown.mono hle⟩
  cases h with
  | seed word h => exact .preterminal word h
  | project under h => exact .growing under h (.projection _ rfl rfl)
  | attach under modifier joins h =>
    obtain ⟨_, _, _, _, _, rights, lefts, head, projects, grown⟩ := growing under joins.growing
    obtain ⟨rights, lefts, grown⟩ := grown.attach under modifier joins h
    exact .growing head projects grown
  | stop under h =>
    obtain ⟨_, _, _, _, _, rights, lefts, head, projects, grown⟩ := growing under h.growing
    exact .stopped head projects grown under h
  | root under whole h => exact .top under whole h

/-- Every item that a decode stores, its garbage mark aside, can be replayed. -/
theorem stored_items_replay (g : Grammar) (earlier : List Sentence) (sentence : Sentence)
    (chart : Chart) (visited : (Decoder.after g earlier).Visits sentence chart) (index : Nat)
    (item : Item) (stored : chart.arena.items[index]? = some item) :
    Replays g sentence chart.arena index item.copy := by
  have sound := visited.sound_after
  exact sound.built.induction (P := Replays g sentence chart.arena)
    (fun _ _ => Builds.replays) (Arena.built?_of_items stored)

/-- The stopped item over `b a b`, with a modifier on each side of its head. -/
theorem sample_item_replays : ∃ chart item,
    (Decoder.after Sample.grammar []).Visits Sample.sentence chart ∧
      chart.arena.items[7]? = some item ∧ item.stopped = true ∧ item.left.children = [0] ∧
      item.right.children = [3] ∧
      Replays Sample.grammar Sample.sentence chart.arena 7 item.copy := by
  obtain ⟨chart, visited, h⟩ := Decoder.exists_visited Sample.grammar Sample.sentence
    (fun chart => chart.arena.items[7]?.any fun item =>
      item.stopped && item.left.children = [0] && item.right.children = [3])
    (by decide +kernel) (by decide +kernel)
  obtain ⟨item, stored, hitem⟩ := (Option.any_eq_true _ _).mp h
  simp only [Bool.and_eq_true, decide_eq_true_eq] at hitem
  exact ⟨chart, item, visited, stored, hitem.1.1, hitem.1.2, hitem.2,
    stored_items_replay Sample.grammar [] Sample.sentence chart visited 7 item stored⟩

end HeadDriven
