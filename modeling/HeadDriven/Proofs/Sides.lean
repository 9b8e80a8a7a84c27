import HeadDriven.Proofs.Top

/-! The sides of an item. Of what is attached to it an item keeps, for each side, what the
latest modifier left there. This is what its modifiers, attached one after another from the head
outwards, make of a side to which nothing is attached, so all that a side tells is a function of
the frame that was chosen for it and of its modifiers. -/
namespace HeadDriven

namespace Frame

/-- What is pending of a frame after modifiers with some labels, the outermost first. -/
def pending (f : Frame) (labels : List Symbol) : Frame :=
  labels.foldr (fun label f => f.erase label) f

/-- How many modifiers of a label discharge a requirement of a frame: those that find one
pending when they are attached. -/
def discharged (f : Frame) (a : Symbol) : List Symbol → Nat
  | [] => 0
  | label :: inner =>
    f.discharged a inner + if label = a ∧ (f.pending inner).contains a = true then 1 else 0

theorem pending_cons (f : Frame) (label : Symbol) (inner : List Symbol) :
    f.pending (label :: inner) = (f.pending inner).erase label := rfl

theorem count_erase (f : Frame) (a label : Symbol) :
    f.labels.count a = (f.erase label).labels.count a +
      if label = a ∧ f.contains a = true then 1 else 0 := by
  have erased : (f.erase label).labels.count a =
      f.labels.count a - if label = a then 1 else 0 := by
    simp [erase_eq, List.count_erase]
  have mem : f.contains a = true ↔ 0 < f.labels.count a := by
    rw [contains, List.contains_iff_mem, List.count_pos_iff]
  rw [erased]
  by_cases same : label = a <;> simp only [same, mem, true_and, false_and, if_true, if_false]
  · split <;> omega
  · rfl

theorem count_eq_pending (f : Frame) (a : Symbol) (labels : List Symbol) :
    f.labels.count a = (f.pending labels).labels.count a + f.discharged a labels := by
  induction labels with
  | nil => rfl
  | cons label inner ih =>
    have step := count_erase (f.pending inner) a label
    rw [pending_cons, discharged]
    omega

theorem discharged_le (f : Frame) (a : Symbol) (labels : List Symbol) :
    f.discharged a labels ≤ labels.count a := by
  induction labels with
  | nil => exact Nat.le_refl 0
  | cons label inner ih =>
    rw [discharged, List.count_cons]
    by_cases same : label = a
    · simp only [same, beq_self_eq_true, true_and, if_true]
      split <;> omega
    · simp [same, ih]

end Frame

namespace Grammar

def sideAfter (g : Grammar) (frame : Frame) (modifiers : List Modifier) : SideInfo :=
  modifiers.foldr (fun d info => g.extendSide info d) (g.freshSide frame)

/-- What drops out of a window is no longer told once the window is full again. -/
theorem take_cons_take {α : Type} (a : α) (l : List α) (window : Nat) :
    (a :: l.take window).take window = (a :: l).take window := by
  cases window with
  | zero => rfl
  | succ n =>
    rw [List.take_succ_cons, List.take_succ_cons, List.take_take, Nat.min_eq_left (Nat.le_succ n)]

variable (g : Grammar) (frame : Frame) (modifiers : List Modifier)

theorem frame_sideAfter : (g.sideAfter frame modifiers).frame =
    frame.pending (modifiers.map (·.item.label)) := by
  induction modifiers with
  | nil => rfl
  | cons d inner ih => exact congrArg (·.erase d.item.label) ih

theorem children_sideAfter :
    (g.sideAfter frame modifiers).children = modifiers.map Modifier.index := by
  induction modifiers with
  | nil => rfl
  | cons d inner ih => exact congrArg (d.index :: ·) ih

theorem prevMods_sideAfter : (g.sideAfter frame modifiers).prevMods =
    (modifiers.map (·.item.label) ++ g.startHistory).take g.settings.historyWindow := by
  induction modifiers with
  | nil => simp [sideAfter, freshSide, SideInfo.fresh, startHistory, History.start]
  | cons d inner ih =>
    show History.shift g.settings.historyWindow (g.sideAfter frame inner).prevMods _ = _
    rw [History.shift_eq, ih, List.map_cons, List.cons_append]
    exact take_cons_take _ _ _

theorem prevWords_sideAfter : (g.sideAfter frame modifiers).prevWords =
    (modifiers.map (·.item.headWord) ++ g.startWords).take g.settings.prevWordWindow := by
  induction modifiers with
  | nil => simp [sideAfter, freshSide, SideInfo.fresh, startWords]
  | cons d inner ih =>
    show (d.item.headWord :: (g.sideAfter frame inner).prevWords).take _ = _
    rw [ih, List.map_cons, List.cons_append]
    exact take_cons_take _ _ _

theorem verb_sideAfter :
    (g.sideAfter frame modifiers).verb = modifiers.any Modifier.verb := by
  induction modifiers with
  | nil => rfl
  | cons d inner ih =>
    show ((g.sideAfter frame inner).verb || d.verb) = _
    rw [ih, List.any_cons, Bool.or_comm]

end Grammar

/-- The frames with which an item is put over its head child: those of a projection, or empty
ones under the top label. -/
inductive Grammar.Chooses (g : Grammar) (head : Item) : Symbol → Frame → Frame → Prop where
  | projection {parent : Symbol} {left right : Frame} (h : g.Projects head parent left right) :
      Chooses g head parent left right
  | top (h : g.Roots head) : Chooses g head g.language.topLabel g.emptyFrame g.emptyFrame

/-- A side that modifiers have left behind, finished items stored below a bound, of which those
that are arguments discharged a requirement of the frame. -/
structure Carries (g : Grammar) (a : Arena) (bound : Nat) (frame : Frame)
    (modifiers : List Modifier) (side : SideInfo) : Prop where
  side_eq : side = g.sideAfter frame modifiers
  stored : ∀ d ∈ modifiers, a.Holds bound d.index d.item ∧ d.item.stopped = true ∧
    d = g.modifier a d.index d.item
  arguments : ∀ label, g.language.isArgument label = true →
    frame.discharged label (modifiers.map (·.item.label)) =
      (modifiers.map (·.item.label)).count label

/-- The item with which another began: it is over the same head child, its frames are those that
were chosen for both, and nothing is attached to it. -/
structure Begins (g : Grammar) (frames : Side → Frame) (item base : Item) : Prop where
  label : base.label = item.label
  headChild : base.headChild = item.headChild
  fresh : ∀ side, base.side side = g.freshSide (frames side)

/-- An item over a head child, with the frames that were chosen for its sides and with the
modifiers they took. -/
structure Composed (g : Grammar) (a : Arena) (bound : Nat) (frames : Side → Frame)
    (modifiers : Side → List Modifier) (item : Item) : Prop where
  head : ∃ child head, item.headChild = some child ∧ a.Holds bound child head ∧
    item.headWord = head.headWord ∧ g.Chooses head item.label (frames .left) (frames .right)
  origin : Begins g frames item item ∨ ∃ i base, a.Holds bound i base ∧ Begins g frames item base
  sides : ∀ side, Carries g a bound (frames side) (modifiers side) (item.side side)
  inOrder : modifiers .left ≠ [] → item.right.frame.isEmpty = true
  emptied : item.stopped = true → ∀ side, (item.side side).frame.isEmpty = true

inductive Formed (g : Grammar) (sentence : Sentence) (a : Arena) (bound : Nat) (item : Item) :
    Prop where
  | word {position : Nat} {token : Token} {tag : Symbol} (word : sentence[position]? = some token)
      (h : g.Seeds token tag) (same : item = g.seeded position token tag)
  | compound {frames : Side → Frame} {modifiers : Side → List Modifier}
      (h : Composed g a bound frames modifiers item)

variable {g : Grammar} {sentence : Sentence} {a : Arena} {bound bound' index : Nat} {item : Item}
  {frame : Frame} {frames : Side → Frame} {modifiers : Side → List Modifier} {info : SideInfo}

theorem Carries.mono {ds : List Modifier} (h : Carries g a bound frame ds info)
    (hle : bound ≤ bound') : Carries g a bound' frame ds info :=
  { h with stored := fun d hd => (h.stored d hd).imp_left fun holds =>
      holds.extends (.refl a) hle }

theorem carries_fresh (frame : Frame) : Carries g a bound frame [] (g.freshSide frame) where
  side_eq := rfl
  stored _ h := absurd h List.not_mem_nil
  arguments _ _ := rfl

theorem Carries.children_eq {ds : List Modifier} (h : Carries g a bound frame ds info) :
    info.children = ds.map Modifier.index := by
  rw [h.side_eq, Grammar.children_sideAfter]

theorem Carries.stored_row {ds : List Modifier} (h : Carries g a bound frame ds info) :
    List.Forall₂ (a.Holds bound) info.children (ds.map Modifier.item) := by
  rw [h.children_eq, List.forall₂_map_left_iff, List.forall₂_map_right_iff, List.forall₂_same]
  exact fun d hd => (h.stored d hd).1

theorem Carries.extend {ds : List Modifier} {j : Nat} {d : Item}
    (h : Carries g a bound frame ds info) (modifier : a.Holds bound j d)
    (stopped : d.stopped = true)
    (argument : g.language.isArgument d.label = true → info.frame.contains d.label = true) :
    Carries g a bound frame (g.modifier a j d :: ds) (g.extendSide info (g.modifier a j d)) where
  side_eq := by rw [h.side_eq]; rfl
  stored := List.forall_mem_cons.mpr ⟨⟨modifier, stopped, rfl⟩, h.stored⟩
  arguments label ha := by
    rw [List.map_cons, Frame.discharged, List.count_cons, h.arguments label ha,
      Nat.add_left_cancel_iff, ← Grammar.frame_sideAfter g, ← h.side_eq]
    by_cases same : d.label = label
    · subst same
      simp [Grammar.modifier, argument ha]
    · simp [Grammar.modifier, same]

theorem Composed.mono (h : Composed g a bound frames modifiers item) (hle : bound ≤ bound') :
    Composed g a bound' frames modifiers item where
  head := by
    obtain ⟨child, head, hchild, holds, chosen⟩ := h.head
    exact ⟨child, head, hchild, holds.extends (.refl a) hle, chosen⟩
  origin := h.origin.imp_right fun ⟨i, base, holds, begins⟩ =>
    ⟨i, base, holds.extends (.refl a) hle, begins⟩
  sides side := (h.sides side).mono hle
  inOrder := h.inOrder
  emptied := h.emptied

theorem Composed.begins {i : Nat} {m : Item} (h : Composed g a bound frames modifiers m)
    (under : a.Holds bound i m) (label : item.label = m.label)
    (headChild : item.headChild = m.headChild) :
    ∃ j base, a.Holds bound j base ∧ Begins g frames item base := by
  obtain ⟨j, base, holds, begins⟩ : ∃ j base, a.Holds bound j base ∧ Begins g frames m base :=
    h.origin.elim (fun begins => ⟨i, m, under, begins⟩) id
  exact ⟨j, base, holds, begins.label.trans label.symm, begins.headChild.trans headChild.symm,
    begins.fresh⟩

theorem Composed.attach {i j : Nat} {m d : Item} {side : Side}
    (h : Composed g a bound frames modifiers m) (under : a.Holds bound i m)
    (modifier : a.Holds bound j d)
    (joins : g.Joins sentence side m d)
    (attaches : g.Attaches (a.modificand i m) (g.modifier a j d) side) :
    ∃ modifiers, Composed g a bound frames modifiers
      (g.attachment (a.modificand i m) (g.modifier a j d) side) := by
  refine ⟨Function.update modifiers side (g.modifier a j d :: modifiers side), ?_,
    Or.inr (h.begins under (Grammar.label_attachment _ _ _) (Grammar.headChild_attachment _ _ _)),
    fun other => ?_, fun left => ?_, fun stopped => ?_⟩
  · simpa [Arena.modificand] using h.head
  · by_cases same : other = side
    · subst same
      rw [Function.update_self, Grammar.side_attachment_self]
      exact (h.sides other).extend modifier joins.stopped attaches.argument
    · rw [Function.update_of_ne same, Grammar.side_attachment_of_ne _ _ same]
      exact h.sides other
  · cases side with
    | left => exact joins.discharged
    | right =>
      have none : m.left.children = (modifiers .left).map Modifier.index :=
        (h.sides .left).children_eq
      rw [joins.unmodified, eq_comm, List.map_eq_nil_iff] at none
      rw [Function.update_of_ne (by decide)] at left
      exact absurd none left
  · rw [Grammar.stopped_attachment] at stopped
    cases joins.growing.symm.trans stopped

theorem Builds.formed (h : Builds g sentence a bound item)
    (before : ∀ i other, a.Holds bound i other → Formed g sentence a i other) :
    Formed g sentence a bound item := by
  have composed {i : Nat} {m : Item} (under : a.Holds bound i m) (hm : m.stopped = false) :
      ∃ frames modifiers, Composed g a bound frames modifiers m := by
    cases before i m under with
    | word _ _ same =>
      rw [same] at hm
      cases hm
    | compound h => exact ⟨_, _, h.mono (Nat.le_of_lt under.below)⟩
  cases h with
  | seed word h => exact .word word h rfl
  | @project i head parent left right under h =>
    let projected := g.projected i head parent left right
    have fresh (side : Side) : projected.side side = g.freshSide (projected.side side).frame := by
      cases side <;> rfl
    have chosen : Composed g a bound (fun side => (projected.side side).frame) (fun _ => [])
        projected :=
      ⟨⟨_, _, rfl, under, rfl, .projection h⟩, Or.inl ⟨rfl, rfl, fresh⟩,
        fun side => fresh side ▸ carries_fresh _, fun h => absurd rfl h, nofun⟩
    exact .compound chosen
  | attach under modifier joins h =>
    obtain ⟨frames, modifiers, m⟩ := composed under joins.growing
    exact .compound (m.attach under modifier joins h).choose_spec
  | stop under h =>
    obtain ⟨frames, modifiers, m⟩ := composed under h.growing
    exact .compound ⟨m.head, Or.inr (m.begins under rfl rfl), m.sides, m.inOrder, fun _ => h.frame⟩
  | @root i head under whole h =>
    have fresh (side : Side) : (g.rooted i head).side side = g.freshSide g.emptyFrame := by
      cases side <;> rfl
    have chosen : Composed g a bound (fun _ => g.emptyFrame) (fun _ => []) (g.rooted i head) :=
      ⟨⟨_, _, rfl, under, rfl, .top h⟩, Or.inl ⟨rfl, rfl, fresh⟩,
        fun side => fresh side ▸ carries_fresh _, fun h => absurd rfl h,
        fun _ side => by rw [fresh]; rfl⟩
    exact .compound chosen

theorem Arena.Built.formed (built : a.Built g sentence) (h : a.built? index = some item) :
    Formed g sentence a index item :=
  built.induction (P := fun index item => Formed g sentence a index item)
    (fun _ _ => Builds.formed) h

theorem Formed.exists_carries (h : Formed g sentence a bound item) (side : Side) :
    ∃ frame ds, Carries g a bound frame ds (item.side side) := by
  cases h with
  | word _ _ same =>
    subst same
    exact ⟨_, [], by cases side <;> exact carries_fresh _⟩
  | compound h => exact ⟨_, _, h.sides side⟩

end HeadDriven
