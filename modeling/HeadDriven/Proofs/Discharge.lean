import HeadDriven.Proofs.Sides

/-! The discharge of requirements. The frames that were chosen for an item are not kept in it, yet
they can be accounted for: on each side every requirement is pending or was discharged by a child
of its label, and a child that is an argument has discharged one. Left children come only once the
right frame is discharged, and a finished item has discharged both frames. -/
namespace HeadDriven

/-- The account of one side of an item, given the frame that was chosen for it and its children,
the outermost first. -/
structure Balances (g : Grammar) (a : Arena) (bound : Nat) (chosen : Frame) (side : SideInfo)
    (children : List Item) : Prop where
  stored : List.Forall₂ (a.Holds bound) side.children children
  pending : side.frame = chosen.pending (children.map Item.label)
  balance : ∀ label, chosen.labels.count label =
    side.frame.labels.count label + chosen.discharged label (children.map Item.label)
  atMost : ∀ label, chosen.discharged label (children.map Item.label) ≤
    (children.map Item.label).count label
  arguments : ∀ label, g.language.isArgument label = true →
    chosen.discharged label (children.map Item.label) = (children.map Item.label).count label

variable {g : Grammar} {sentence : Sentence} {a : Arena} {bound : Nat} {chosen : Frame}
  {side : SideInfo} {children : List Item}

theorem Carries.balances {modifiers : List Modifier}
    (h : Carries g a bound chosen modifiers side) :
    Balances g a bound chosen side (modifiers.map Modifier.item) := by
  have labels : (modifiers.map Modifier.item).map Item.label = modifiers.map (·.item.label) :=
    List.map_map
  have pending : side.frame = chosen.pending (modifiers.map (·.item.label)) := by
    rw [h.side_eq, Grammar.frame_sideAfter]
  refine ⟨h.stored_row, ?_, fun label => ?_, fun label => ?_, ?_⟩
  · rw [labels, pending]
  · rw [labels, pending]
    exact chosen.count_eq_pending label _
  · exact chosen.discharged_le label _
  · rw [labels]
    exact h.arguments

theorem Balances.perm_of_isEmpty (h : Balances g a bound chosen side children)
    (done : side.frame.isEmpty = true) :
    ((children.map Item.label).filter g.language.isArgument).Perm
      (chosen.labels.filter g.language.isArgument) := by
  rw [List.perm_iff_count]
  intro label
  cases ha : g.language.isArgument label with
  | true =>
    have none : side.frame.labels = [] := List.isEmpty_iff.mp done
    rw [List.count_filter ha, List.count_filter ha, h.balance, h.arguments label ha, none,
      List.count_nil, Nat.zero_add]
  | false =>
    have absent (l : List Symbol) : (l.filter g.language.isArgument).count label = 0 :=
      List.count_eq_zero.mpr fun mem => by simp [ha] at mem
    rw [absent, absent]

/-- Every item over a head child that a decode stores can be accounted for. -/
theorem requirements_discharged (g : Grammar) (earlier : List Sentence) (sentence : Sentence)
    (chart : Chart) (visited : (Decoder.after g earlier).Visits sentence chart) (index : Nat)
    (item : Item) (stored : chart.arena.items[index]? = some item)
    (composed : item.isPreterminal = false) :
    ∃ child head left right lefts rights,
      item.headChild = some child ∧ chart.arena.Holds index child head ∧
      g.Chooses head item.label left right ∧
      (∃ i ≤ index, ∃ base, chart.arena.built? i = some base ∧ base.label = item.label ∧
        base.headChild = some child ∧ base.left = g.freshSide left ∧
        base.right = g.freshSide right) ∧
      Balances g chart.arena index left item.left lefts ∧
      Balances g chart.arena index right item.right rights ∧
      (item.left.children ≠ [] → item.right.frame.isEmpty = true) ∧
      (item.stopped = true →
        item.left.frame.isEmpty = true ∧ item.right.frame.isEmpty = true ∧
        ((lefts.map Item.label).filter g.language.isArgument).Perm
          (left.labels.filter g.language.isArgument) ∧
        ((rights.map Item.label).filter g.language.isArgument).Perm
          (right.labels.filter g.language.isArgument)) := by
  have built := Arena.built?_of_items stored
  cases visited.sound_after.built.formed built with
  | word _ _ same =>
    have word : item.isPreterminal = true := congrArg Item.isPreterminal same
    rw [word] at composed
    cases composed
  | @compound frames modifiers h =>
    obtain ⟨child, head, hchild, holds, -, chosen⟩ := h.head
    have hchild : item.headChild = some child := hchild
    obtain ⟨i, hi, base, hbase, begins⟩ : ∃ i ≤ index, ∃ base,
        chart.arena.built? i = some base ∧ Begins g frames item.copy base := by
      rcases h.origin with begins | ⟨i, base, holds, begins⟩
      · exact ⟨index, Nat.le_refl _, _, built, begins⟩
      · exact ⟨i, Nat.le_of_lt holds.below, base, holds.built, begins⟩
    have left := (h.sides .left).balances
    have right := (h.sides .right).balances
    refine ⟨child, head, _, _, _, _, hchild, holds, chosen,
      ⟨i, hi, base, hbase, begins.label, begins.headChild.trans hchild, begins.fresh .left,
        begins.fresh .right⟩, left, right, fun hleft => ?_, fun stopped => ?_⟩
    · refine h.inOrder fun none => hleft ?_
      have children : item.left.children = (modifiers .left).map Modifier.index :=
        (h.sides .left).children_eq
      rw [children, none, List.map_nil]
    · have done := h.emptied stopped
      exact ⟨done .left, done .right, left.perm_of_isEmpty (done .left),
        right.perm_of_isEmpty (done .right)⟩

def Sample.argumentGrammar : Grammar :=
  { Sample.grammar with
    language := { Language.plain with isArgument := fun label => label = ⟨7⟩ } }

/-- The stopped item over `a b`, whose head requires the `B` on its right. -/
theorem sample_requirements_discharged : ∃ chart item child head left right lefts rights,
    (Decoder.after Sample.argumentGrammar []).Visits [.known ⟨4⟩ [], .known ⟨6⟩ []] chart ∧
      chart.arena.items[4]? = some item ∧ item.isPreterminal = false ∧
      item.right.children = [2] ∧ item.headChild = some child ∧
      chart.arena.Holds 4 child head ∧
      Sample.argumentGrammar.Chooses head item.label left right ∧
      Balances Sample.argumentGrammar chart.arena 4 left item.left lefts ∧
      Balances Sample.argumentGrammar chart.arena 4 right item.right rights ∧
      ((rights.map Item.label).filter Sample.argumentGrammar.language.isArgument).Perm
        (right.labels.filter Sample.argumentGrammar.language.isArgument) := by
  obtain ⟨chart, visited, h⟩ := Decoder.exists_visited Sample.argumentGrammar
    [.known ⟨4⟩ [], .known ⟨6⟩ []]
    (fun chart => chart.arena.items[4]?.any fun item =>
      item.stopped && !item.isPreterminal && item.right.children = [2])
    (by decide +kernel) (by decide +kernel)
  obtain ⟨item, stored, hitem⟩ := (Option.any_eq_true _ _).mp h
  simp only [Bool.and_eq_true, Bool.not_eq_true', decide_eq_true_eq] at hitem
  obtain ⟨⟨stopped, composed⟩, children⟩ := hitem
  obtain ⟨child, head, left, right, lefts, rights, hchild, holds, chosen, -, hleft, hright, -,
    done⟩ :=
    requirements_discharged Sample.argumentGrammar [] _ chart visited 4 item stored composed
  exact ⟨chart, item, child, head, left, right, lefts, rights, visited, stored, composed, children,
    hchild, holds, chosen, hleft, hright, (done stopped).2.2.2⟩

end HeadDriven
