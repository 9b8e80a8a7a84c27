import HeadDriven.Proofs.Chart.Calls

/-! Offers in place. An offer may be carried out on the chart itself, one store after another: the
group of the item is opened, the holder of its key makes room, the item is stored and entered, and
what the group then has too many of is cut off and marked. What was done before a fault would stay
done. On a chart that files its items there is none after the first store, so the offer comes to
the same as if it were carried out on a copy. -/
namespace HeadDriven

abbrev Edit := ExceptT Fault (StateM Chart)

namespace Edit

variable {α β : Type}

/-- The outcome of changes to a chart, and what they make of it up to their end or their fault. -/
def on (edit : Edit α) (c : Chart) : Except Fault α × Chart := edit.run.run c

def ask (question : Chart → Except Fault α) : Edit α := ExceptT.mk fun c => (question c, c)

def change (f : Chart → Chart) : Edit Unit := ExceptT.mk fun c => (.ok (), f c)

def key (language : Language) (item : Item) (known : Option Bool) : Edit (Key × Option Bool) :=
  ExceptT.mk fun c =>
    match c.key language c.settings.equivalence item known with
    | .ok (key, known, next) => (.ok (key, known), next)
    | .error fault => (.error fault, c)

def mark (index : Nat) : Edit Unit := do
  let _ ← ask (·.item index)
  change fun c => { c with arena := c.arena.markGarbage index }

def setGroup (item : Item) (group : LabelGroup) : Edit Unit :=
  change (·.setGroup item.first item.last item.label group)

def openGroup (item : Item) : Edit Unit :=
  change fun c =>
    match (c.cells.getD (item.first * c.size + item.last) []).group? item.label with
    | some _ => c
    | none => c.setGroup item.first item.last item.label LabelGroup.empty

def release (item : Item) (key : Key) : Edit Unit := do
  let group ← ask fun c => .ok (c.groupOf item)
  match group.holder? key with
  | none => return
  | some index =>
    setGroup item (group.remove index)
    mark index

def store (item : Item) (known : Option Bool) : Edit Nat :=
  ExceptT.mk fun c => (.ok c.arena.size, { c with arena := c.arena.push item known })

def prune (item : Item) : Edit Unit := do
  let (group, evicted) ← ask fun c =>
    .ok ((c.groupOf item).prune c.settings.beamWidth c.settings.maxCellSize)
  setGroup item group
  evicted.forM mark

def enter (item : Item) (key : Key) (known : Option Bool) : Edit Nat := do
  let index ← store item known
  let group ← ask fun c => .ok (c.groupOf item)
  setGroup item (group.insert ⟨index, item.score, key⟩)
  prune item
  return index

def take (item : Item) (key : Key) (known : Option Bool) : Edit Nat := do
  release item key
  enter item key known

def compete (item : Item) (key : Key) (known : Option Bool) : Edit (Option Nat) := do
  openGroup item
  if ← ask fun c => .ok ((c.groupOf item).excludes c.settings.beamWidth c.settings.maxCellSize
      item.score) then return none
  if ← ask fun c => c.outdoes (c.groupOf item) key item.score then return none
  return some (← take item key known)

def offer (language : Language) (first last : Nat) (item : Item) (known : Option Bool) :
    Edit (Option Nat) := do
  let _ ← ask (·.cell first last)
  if item.first ≠ first ∨ item.last ≠ last then
    throw (.spanMismatch item.first item.last first last)
  let (key, known) ← Edit.key language item known
  compete item key known

variable {c : Chart} {language : Language} {item : Item} {index : Nat} {key : Key}
  {known : Option Bool} {group : LabelGroup}

@[simp] theorem on_bind (x : Edit α) (f : α → Edit β) : (x >>= f).on c =
    match x.on c with
    | (.ok a, next) => (f a).on next
    | (.error fault, next) => (.error fault, next) := by
  have step : (x >>= f).on c = (ExceptT.bindCont f (x.on c).1).run (x.on c).2 := rfl
  rw [step]
  cases x.on c with
  | mk outcome next => cases outcome <;> rfl

@[simp] theorem on_pure (a : α) : (pure a : Edit α).on c = (.ok a, c) := rfl

@[simp] theorem on_ask (question : Chart → Except Fault α) :
    (ask question).on c = (question c, c) := rfl

@[simp] theorem on_change (f : Chart → Chart) : (change f).on c = (.ok (), f c) := rfl

@[simp] theorem on_setGroup : (setGroup item group).on c =
    (.ok (), c.setGroup item.first item.last item.label group) := rfl

@[simp] theorem on_store : (store item known).on c =
    (.ok c.arena.size, { c with arena := c.arena.push item known }) := rfl

theorem on_key : (Edit.key language item known).on c =
    match c.key language c.settings.equivalence item known with
    | .ok (key, known, next) => (.ok (key, known), next)
    | .error fault => (.error fault, c) := rfl

theorem on_openGroup : (openGroup item).on c =
    (.ok (), match (c.cells.getD (item.first * c.size + item.last) []).group? item.label with
      | some _ => c
      | none => c.setGroup item.first item.last item.label LabelGroup.empty) := rfl

theorem on_mark (h : index < c.arena.size) :
    (mark index).on c = (.ok (), { c with arena := c.arena.markGarbage index }) := by
  obtain ⟨item, hitem⟩ := Arena.exists_get h
  simp [mark, Chart.item, hitem]

theorem on_marks {lost : List Nat} (h : ∀ index ∈ lost, index < c.arena.size) :
    (lost.forM mark).on c = (.ok (), { c with arena := lost.foldl Arena.markGarbage c.arena }) := by
  induction lost generalizing c with
  | nil => rfl
  | cons index lost ih =>
    obtain ⟨here, rest⟩ := List.forall_mem_cons.mp h
    show (mark index >>= fun _ => lost.forM mark).on c = _
    rw [on_bind, on_mark here]
    exact ih fun i hi => (rest i hi).trans_eq (Arena.size_markGarbage index).symm

end Edit

theorem Cell.put_put (cell : Cell) (label : Symbol) (group group' : LabelGroup) :
    (cell.put label group).put label group' = cell.put label group' := by
  induction cell with
  | nil => simp [put]
  | cons held rest ih =>
    obtain ⟨other, held⟩ := held
    simp only [put]
    split
    · simp [put]
    · rename_i hne
      split
      · simp [put]
      · rename_i hge
        simp [put, hne, hge, ih]

theorem Arena.push_markGarbage {a : Arena} {index : Nat} (h : index < a.size) (item : Item)
    (known : Option Bool) :
    (a.markGarbage index).push item known = (a.push item known).markGarbage index := by
  have items : (a.items.modify index fun item => { item with garbage := true }).push item =
      (a.items.push item).modify index fun item => { item with garbage := true } := by
    refine Array.ext_getElem? fun i => ?_
    have hne : i = a.items.size → index ≠ i := fun hi => hi ▸ Nat.ne_of_lt h
    rw [Array.getElem?_push, Array.getElem?_modify, Array.getElem?_modify, Array.getElem?_push,
      Array.size_modify]
    by_cases last : i = a.items.size
    · rw [if_pos last, if_neg (hne last), if_pos last]
    · rw [if_neg last, if_neg last]
  exact congrArg (Arena.mk · (a.verbs.push known)) items

namespace Chart

variable {c : Chart} {language : Language} {item : Item} {key : Key} {known : Option Bool}
  {first last : Nat} {label : Symbol}

theorem setGroup_setGroup (c : Chart) (first last : Nat) (label : Symbol)
    (group group' : LabelGroup) :
    (c.setGroup first last label group).setGroup first last label group' =
      c.setGroup first last label group' := by
  simp only [setGroup, mk.injEq, true_and, and_true]
  by_cases h : first * c.size + last < c.cells.size
  · simp [Array.getD_eq_getD_getElem?, h, Cell.put_put]
  · simp [Array.getD_eq_getD_getElem?, h]

theorem cells_setGroup_setGroup (c : Chart) (first last : Nat) (label : Symbol)
    (group group' : LabelGroup) (arena : Arena) :
    (({ c.setGroup first last label group with arena := arena } : Chart).setGroup first last label
      group').cells = (c.setGroup first last label group').cells := by
  rw [← setGroup_setGroup c first last label group group']
  rfl

theorem groupOf_setGroup (whole : c.cells.size = c.size * c.size)
    (inside : c.Inside item.first item.last) (group : LabelGroup) :
    (c.setGroup item.first item.last item.label group).groupOf item = group :=
  groupAt_setGroup_self whole inside

end Chart

namespace Edit

variable {c : Chart} {language : Language} {item : Item} {key : Key} {known : Option Bool}

theorem on_release (stored : ∀ index, (c.groupOf item).holder? key = some index →
    index < c.arena.size) : (release item key).on c = (.ok (),
      match (c.groupOf item).holder? key with
      | none => c
      | some index =>
        { c.setGroup item.first item.last item.label ((c.groupOf item).remove index) with
          arena := c.arena.markGarbage index }) := by
  rw [release, on_bind, on_ask]
  dsimp only
  split
  · rw [on_pure]
  · rename_i index hholder
    rw [on_bind, on_setGroup]
    exact on_mark (stored index hholder)

theorem on_prune {group : LabelGroup} {evicted : List Nat}
    (h : (c.groupOf item).prune c.settings.beamWidth c.settings.maxCellSize = (group, evicted))
    (stored : ∀ index ∈ evicted, index < c.arena.size) : (prune item).on c =
      (.ok (), { c.setGroup item.first item.last item.label group with
        arena := evicted.foldl Arena.markGarbage c.arena }) := by
  rw [prune, on_bind, on_ask, h]
  exact on_marks stored

theorem on_enter {group kept : LabelGroup} {evicted : List Nat}
    (whole : c.cells.size = c.size * c.size) (inside : c.Inside item.first item.last)
    (free : c.groupOf item = group)
    (h : (group.insert ⟨c.arena.size, item.score, key⟩).prune c.settings.beamWidth
      c.settings.maxCellSize = (kept, evicted))
    (stored : ∀ index ∈ evicted, index < c.arena.size + 1) : (enter item key known).on c =
      (.ok c.arena.size, { c.setGroup item.first item.last item.label kept with
        arena := evicted.foldl Arena.markGarbage (c.arena.push item known) }) := by
  let entered := group.insert ⟨c.arena.size, item.score, key⟩
  let next : Chart := { c.setGroup item.first item.last item.label entered with
    arena := c.arena.push item known }
  have there : next.groupOf item = entered := Chart.groupOf_setGroup whole inside entered
  have pruned : (prune item).on next = (.ok (), { next.setGroup item.first item.last item.label
      kept with arena := evicted.foldl Arena.markGarbage next.arena }) :=
    on_prune (there ▸ h) fun index hi => by simpa [next] using stored index hi
  have room : ({ c with arena := c.arena.push item known } : Chart).groupOf item = group := free
  rw [enter, on_bind, on_store]
  dsimp only
  rw [on_bind, on_ask]
  dsimp only
  rw [room, on_bind, on_setGroup]
  dsimp only
  rw [on_bind, show Chart.setGroup _ item.first item.last item.label _ = next from rfl, pruned]
  dsimp only
  rw [Chart.cells_setGroup_setGroup]
  rfl

/-- The old holder of a key is marked before the new one is stored, which comes to the same as
if it were marked afterwards. -/
theorem on_enter_released {index : Nat} {kept : LabelGroup} {evicted : List Nat}
    (whole : c.cells.size = c.size * c.size) (inside : c.Inside item.first item.last)
    (holder : (c.groupOf item).holder? key = some index) (below : index < c.arena.size)
    (h : (((c.groupOf item).without key).insert ⟨c.arena.size, item.score, key⟩).prune
      c.settings.beamWidth c.settings.maxCellSize = (kept, evicted))
    (stored : ∀ index ∈ evicted, index < c.arena.size + 1) :
    (enter item key known).on
        { c.setGroup item.first item.last item.label ((c.groupOf item).remove index) with
          arena := c.arena.markGarbage index } =
      (.ok c.arena.size, { c.setGroup item.first item.last item.label kept with
        arena :=
          evicted.foldl Arena.markGarbage ((c.arena.push item known).markGarbage index) }) := by
  let next : Chart :=
    { c.setGroup item.first item.last item.label ((c.groupOf item).remove index) with
      arena := c.arena.markGarbage index }
  have size : next.arena.size = c.arena.size := Arena.size_markGarbage index
  have free : next.groupOf item = (c.groupOf item).without key := by
    rw [LabelGroup.without, holder, Option.elim_some]
    exact Chart.groupOf_setGroup whole inside _
  have entered : (enter item key known).on next =
      (.ok next.arena.size, { next.setGroup item.first item.last item.label kept with
        arena := evicted.foldl Arena.markGarbage (next.arena.push item known) }) :=
    on_enter ((Chart.size_cells_setGroup c _ _ _ _).trans whole) inside free (size ▸ h)
      (size ▸ stored)
  refine entered.trans ?_
  dsimp only
  rw [Chart.cells_setGroup_setGroup, size, Arena.push_markGarbage below]
  rfl

theorem on_take (whole : c.cells.size = c.size * c.size) (inside : c.Inside item.first item.last)
    (distinct : (c.groupOf item).Distinct)
    (stored : ∀ e ∈ (c.groupOf item).entries, e.index < c.arena.size) :
    (take item key known).on c = (.ok c.arena.size, c.takeAs item key known) := by
  have accepted : (c.groupOf item).Accepted (c.acceptingAs item key).1 (c.acceptingAs item key).2
      ⟨c.arena.size, item.score, key⟩ :=
    LabelGroup.accepted_accept distinct fun x hx => Nat.ne_of_lt (stored x hx)
  have lost : ∀ index ∈ (c.acceptingAs item key).2, index < c.arena.size + 1 := by
    intro index hi
    rcases accepted.mem_of_lost index hi with rfl | ⟨x, hx, rfl⟩
    · exact Nat.lt_succ_self _
    · exact Nat.lt_succ_of_lt (stored x hx)
  have below : ∀ index, (c.groupOf item).holder? key = some index → index < c.arena.size := by
    intro index hi
    obtain ⟨e, he, -, rfl⟩ := (LabelGroup.holder?_eq_some_iff distinct).mp hi
    exact stored e he
  let pruned := (((c.groupOf item).without key).insert ⟨c.arena.size, item.score, key⟩).prune
    c.settings.beamWidth c.settings.maxCellSize
  have parts : c.acceptingAs item key =
      (pruned.1, ((c.groupOf item).holder? key).toList ++ pruned.2) := rfl
  have evicted : ∀ index ∈ pruned.2, index < c.arena.size + 1 := fun index hi =>
    lost index (by rw [parts]; exact List.mem_append_right _ hi)
  rw [take, on_bind, on_release below, Chart.takeAs, parts]
  cases hholder : (c.groupOf item).holder? key with
  | none =>
    have free : c.groupOf item = (c.groupOf item).without key := by
      rw [LabelGroup.without, hholder, Option.elim_none]
    exact on_enter whole inside free rfl evicted
  | some index => exact on_enter_released whole inside hholder (below index hholder) rfl evicted

end Edit

theorem LabelGroup.ne_nil_of_refuses {g : LabelGroup} {beam score : Float} {cap : Nat} {key : Key}
    (h : g.refuses beam cap score key = true) : g.entries ≠ [] := by
  intro none
  simp [refuses, excludes, best?, worst?, lookup?, none] at h

namespace Chart

variable {c opened : Chart} {language : Language} {item : Item} {key : Key} {known : Option Bool}
  {first last : Nat}

/-- What opening a group makes of a chart: a group with entries is open already. -/
structure Opens (c opened : Chart) (item : Item) : Prop where
  same : (c.groupOf item).entries ≠ [] → opened = c
  set : ∀ group, opened.setGroup item.first item.last item.label group =
    c.setGroup item.first item.last item.label group
  group : opened.groupOf item = c.groupOf item
  arena : opened.arena = c.arena
  settings : opened.settings = c.settings
  size : opened.size = c.size
  cells : opened.cells.size = c.cells.size

theorem exists_opens (whole : c.cells.size = c.size * c.size)
    (inside : c.Inside item.first item.last) :
    ∃ opened, (Edit.openGroup item).on c = (.ok (), opened) ∧ c.Opens opened item := by
  refine ⟨_, Edit.on_openGroup, ?_⟩
  cases hgroup : (c.cells.getD (item.first * c.size + item.last) []).group? item.label with
  | some group => exact ⟨fun _ => rfl, fun _ => rfl, rfl, rfl, rfl, rfl, rfl⟩
  | none =>
    have none : c.groupOf item = LabelGroup.empty := by
      rw [groupOf, groupAt, hgroup, Option.getD_none]
    refine ⟨fun some => absurd (congrArg LabelGroup.entries none) some,
      fun group => setGroup_setGroup c _ _ _ _ group, ?_, rfl, rfl, rfl,
      size_cells_setGroup c _ _ _ _⟩
    rw [none]
    exact groupOf_setGroup whole inside LabelGroup.empty

theorem Opens.takeAs (h : c.Opens opened item) :
    opened.takeAs item key known = c.takeAs item key known := by
  have accepting : opened.acceptingAs item key = c.acceptingAs item key := by
    rw [acceptingAs, h.group, h.settings, h.arena, acceptingAs]
  rw [Chart.takeAs, Chart.takeAs, accepting, h.arena]
  dsimp only
  rw [h.set]

theorem Opens.outdoes_eq (h : c.Opens opened item) (filed : c.Filed language)
    (inside : c.Inside item.first item.last) :
    opened.outdoes (c.groupOf item) key item.score =
      .ok (((c.groupOf item).lookup? key).any fun holder => item.score ≤ holder.score) := by
  have same : opened.outdoes (c.groupOf item) key item.score =
      c.outdoes (c.groupOf item) key item.score := by
    simp only [Chart.outdoes, Chart.item, h.arena]
  exact same.trans (filed.outdoes_eq inside item.label key item.score)

theorem Opens.take_on (h : c.Opens opened item) (filed : c.Filed language)
    (inside : c.Inside item.first item.last) :
    (Edit.take item key known).on opened = (.ok c.arena.size, c.takeAs item key known) := by
  have whole : opened.cells.size = opened.size * opened.size := by
    rw [h.cells, h.size]
    exact filed.cells
  have inside' : opened.Inside item.first item.last := by rwa [Inside, h.size]
  rw [← h.takeAs, ← h.arena]
  refine Edit.on_take whole inside' ?_ ?_
  · rw [h.group]
    exact filed.distinct _ _ inside item.label
  · rw [h.group, h.arena]
    exact fun e he => filed.index_lt inside he

theorem Filed.compete_on (filed : c.Filed language) (inside : c.Inside item.first item.last) :
    (Edit.compete item key known).on c =
      if (c.groupOf item).refuses c.settings.beamWidth c.settings.maxCellSize item.score key then
        (.ok none, c)
      else (.ok (some c.arena.size), c.takeAs item key known) := by
  obtain ⟨opened, opens, h⟩ := exists_opens filed.cells inside
  have turns := @LabelGroup.refuses_iff_or (c.groupOf item) key c.settings.beamWidth item.score
    c.settings.maxCellSize
  rw [Edit.compete, Edit.on_bind, opens]
  dsimp only
  rw [Edit.on_bind, Edit.on_ask]
  dsimp only
  rw [h.group, h.settings]
  -- A group that turns an item away has entries, so it was open before.
  split
  · rename_i excluded
    have closes := turns.mpr (.inl excluded)
    rw [Edit.on_pure, if_pos closes, h.same (LabelGroup.ne_nil_of_refuses closes)]
  · rename_i placed
    rw [Edit.on_bind, Edit.on_ask, h.group, h.outdoes_eq filed inside]
    dsimp only
    split
    · rename_i outdone
      have closes := turns.mpr (.inr outdone)
      rw [Edit.on_pure, if_pos closes, h.same (LabelGroup.ne_nil_of_refuses closes)]
    · rename_i better
      have opens := mt turns.mp (not_or.mpr ⟨placed, better⟩)
      rw [Edit.on_bind, h.take_on filed inside]
      dsimp only
      rw [Edit.on_pure, if_neg opens]

/-- What comes of an offer, with the chart that it leaves. One that breaks a contract leaves the
chart as it was. -/
def offered (c : Chart) (language : Language) (first last : Nat) (item : Item)
    (known : Option Bool) : Except Fault (Option Nat) × Chart :=
  match c.offer language first last item known with
  | .ok (next, taken) => (.ok taken, next)
  | .error fault => (.error fault, c)

/-- An offer in place comes to what the offer comes to, and a fault finds the chart unchanged. -/
theorem Filed.offer_on (filed : c.Filed language) :
    (Edit.offer language first last item known).on c =
      c.offered language first last item known := by
  rw [Edit.offer, Edit.on_bind, Edit.on_ask, offered]
  cases hcell : c.cell first last with
  | error fault =>
    rw [Chart.offer, hcell]
    rfl
  | ok cell =>
    have inside : c.Inside first last := by
      unfold Chart.cell at hcell
      split at hcell
      · assumption
      · cases hcell
    dsimp only
    by_cases hspan : item.first ≠ first ∨ item.last ≠ last
    · rw [if_pos hspan, Chart.offer, hcell, Outcome.ok_bind, if_pos hspan]
      rfl
    · rw [if_neg hspan]
      obtain ⟨rfl, rfl⟩ : item.first = first ∧ item.last = last := by tauto
      cases hkey : c.key language c.settings.equivalence item known with
      | error fault =>
        rw [Edit.on_bind, Edit.on_key, hkey, Chart.offer, hcell, Outcome.ok_bind, if_neg hspan,
          hkey]
        rfl
      | ok r =>
        obtain ⟨verb, known', arena, hkey', recalls, -⟩ :=
          key_ok filed.linked (hasHead_of_key hkey) known
        rw [Edit.on_bind, Edit.on_key, hkey', filed.offer_eq inside recalls hkey']
        dsimp only
        rw [(filed.recalling recalls).compete_on inside]
        have size : arena.size = c.arena.size := by simp [Arena.size, recalls.items]
        by_cases closes : (c.groupOf item).refuses c.settings.beamWidth c.settings.maxCellSize
            item.score (Key.ofItem c.settings.equivalence language item
              (c.arena.headLabelOf? item) verb) = true
        · rw [if_pos closes]
          exact if_pos closes
        · rw [if_neg closes, ← size]
          exact if_neg closes

end Chart

end HeadDriven
