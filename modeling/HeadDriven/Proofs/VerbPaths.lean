import HeadDriven.Proofs.Sides

/-! Verbs below an item. The question whether an item dominates a verb is answered from the flags
that attachments left on its sides and from its head child. The answer is a property of the tree
under the item: some way down to a verb tag that no base noun phrase bars. -/
namespace HeadDriven

/-- The labels on a way down a tree, to a branch over a single word. -/
inductive ParseTree.Descends {α β : Type} : ParseTree α β → List α → Prop where
  | word {tag : α} {span own : Span} {value : β} :
      Descends (branch tag span [leaf value own]) [tag]
  | child {label : α} {span : Span} {row : List (ParseTree α β)} {t : ParseTree α β}
      {labels : List α} (mem : t ∈ row) (below : Descends t labels) :
      Descends (branch label span row) (label :: labels)

namespace Grammar

/-- The way down to a verb, on which no base noun phrase lies if these are barriers. -/
structure LeadsToVerb (g : Grammar) (labels : List Symbol) : Prop where
  verb : ∃ tag, labels.getLast? = some tag ∧ g.language.isVerbTag tag = true
  unbarred : g.settings.baseNpVerbBarrier = true →
    ∀ label ∈ labels, g.language.isBaseNp label = false

def ShowsVerb (g : Grammar) (t : ParseTree Symbol Symbol) : Prop :=
  ∃ labels, t.Descends labels ∧ g.LeadsToVerb labels

def bars (g : Grammar) (label : Symbol) : Bool :=
  g.settings.baseNpVerbBarrier && g.language.isBaseNp label

variable {g : Grammar} {label : Symbol} {labels : List Symbol} {span own : Span} {word : Symbol}
  {row : List (ParseTree Symbol Symbol)}

theorem bars_eq_false_iff : g.bars label = false ↔
    (g.settings.baseNpVerbBarrier = true → g.language.isBaseNp label = false) := by
  cases h : g.settings.baseNpVerbBarrier <;> simp [bars, h]

theorem leadsToVerb_single :
    g.LeadsToVerb [label] ↔ g.bars label = false ∧ g.language.isVerbTag label = true := by
  rw [bars_eq_false_iff]
  constructor
  · rintro ⟨⟨tag, htag, verb⟩, unbarred⟩
    obtain rfl : label = tag := Option.some.inj htag
    exact ⟨fun barrier => unbarred barrier label List.mem_cons_self, verb⟩
  · rintro ⟨unbarred, verb⟩
    exact ⟨⟨label, rfl, verb⟩, fun barrier => by simpa using unbarred barrier⟩

theorem leadsToVerb_cons (h : labels ≠ []) :
    g.LeadsToVerb (label :: labels) ↔ g.bars label = false ∧ g.LeadsToVerb labels := by
  rw [bars_eq_false_iff]
  have last : (label :: labels).getLast? = labels.getLast? := List.getLast?_cons_of_ne_nil h
  constructor
  · rintro ⟨verb, unbarred⟩
    exact ⟨fun barrier => unbarred barrier label List.mem_cons_self, last ▸ verb,
      fun barrier l hl => unbarred barrier l (List.mem_cons_of_mem _ hl)⟩
  · rintro ⟨top, verb, unbarred⟩
    exact ⟨last ▸ verb, fun barrier => List.forall_mem_cons.mpr ⟨top barrier, unbarred barrier⟩⟩

theorem showsVerb_word : g.ShowsVerb (.branch label span [.leaf word own]) ↔
    g.bars label = false ∧ g.language.isVerbTag label = true := by
  rw [← leadsToVerb_single]
  constructor
  · rintro ⟨labels, descends, leads⟩
    cases descends with
    | word => exact leads
    | child mem below =>
      obtain rfl := List.mem_singleton.mp mem
      cases below
  · exact fun leads => ⟨_, .word, leads⟩

theorem showsVerb_branch (branches : ∀ t ∈ row, t.isBranch = true) :
    g.ShowsVerb (.branch label span row) ↔
      g.bars label = false ∧ ∃ t ∈ row, g.ShowsVerb t := by
  have nonempty {t : ParseTree Symbol Symbol} {labels : List Symbol} (h : t.Descends labels) :
      labels ≠ [] := by
    cases h <;> exact List.cons_ne_nil _ _
  constructor
  · rintro ⟨labels, descends, leads⟩
    cases descends with
    | word => exact absurd (branches _ List.mem_cons_self) Bool.false_ne_true
    | child mem below =>
      obtain ⟨unbarred, leads⟩ := (leadsToVerb_cons (nonempty below)).mp leads
      exact ⟨unbarred, _, mem, _, below, leads⟩
  · rintro ⟨unbarred, t, mem, labels, below, leads⟩
    exact ⟨_, .child mem below, (leadsToVerb_cons (nonempty below)).mpr ⟨unbarred, leads⟩⟩

end Grammar

variable {g : Grammar} {sentence : Sentence} {a : Arena} {bound index : Nat} {item : Item}

theorem Carries.verb_eq {frame : Frame} {modifiers : List Modifier} {side : SideInfo}
    (h : Carries g a bound frame modifiers side) : side.verb =
      side.children.any (a.dominatesVerb g.language g.settings.baseNpVerbBarrier) := by
  have asked : ∀ d ∈ modifiers,
      d.verb = a.dominatesVerb g.language g.settings.baseNpVerbBarrier d.index := by
    intro d hd
    rw [(h.stored d hd).2.2]
    rfl
  rw [h.side_eq, Grammar.verb_sideAfter, Grammar.children_sideAfter, List.any_map]
  refine Bool.eq_iff_iff.mpr ?_
  simp only [List.any_eq_true, Function.comp_apply]
  exact exists_congr fun d => and_congr_right fun hd => by rw [asked d hd]

/-- A composed item dominates a verb when one of its constituents does and its label does not
bar it. -/
theorem Composed.itemVerb_iff {frames : Side → Frame} {modifiers : Side → List Modifier}
    (h : Composed g a bound frames modifiers item) :
    a.itemVerb g.language g.settings.baseNpVerbBarrier item = true ↔
      g.bars item.label = false ∧ ∃ child ∈ item.constituents,
        a.dominatesVerb g.language g.settings.baseNpVerbBarrier child = true := by
  obtain ⟨head, -, link, -⟩ := h.head
  have left := (h.sides .left).verb_eq
  have right := (h.sides .right).verb_eq
  have flags : (∃ child ∈ item.constituents,
      a.dominatesVerb g.language g.settings.baseNpVerbBarrier child = true) ↔
      (item.left.verb || item.right.verb) = true ∨
        a.dominatesVerb g.language g.settings.baseNpVerbBarrier head = true := by
    rw [show item.left.verb = _ from left, show item.right.verb = _ from right]
    simp only [Item.side, Item.constituents, link, Option.toList_some, List.append_assoc,
      List.mem_append, List.mem_singleton, List.mem_reverse, Bool.or_eq_true, List.any_eq_true]
    grind
  rw [flags]
  unfold Arena.itemVerb Item.verbClue
  rw [link, ← Grammar.bars]
  cases g.bars item.label <;> cases item.left.verb || item.right.verb <;> simp

theorem Grammar.itemVerb_seeded (g : Grammar) (a : Arena) (position : Nat) (token : Token)
    (tag : Symbol) :
    a.itemVerb g.language g.settings.baseNpVerbBarrier (g.seeded position token tag) = true ↔
      g.bars tag = false ∧ g.language.isVerbTag tag = true := by
  have clue : (g.seeded position token tag).verbClue g.language g.settings.baseNpVerbBarrier =
      if g.bars tag then .settled false else .settled (g.language.isVerbTag tag) := rfl
  unfold Arena.itemVerb
  rw [clue]
  cases g.bars tag <;> simp

theorem exists_mem_iff_of_row {α β : Type} {p : α → Prop} {q : β → Prop} {xs : List α} {ys : List β}
    (h : List.Forall₂ (fun x y => p x ↔ q y) xs ys) : (∃ x ∈ xs, p x) ↔ ∃ y ∈ ys, q y := by
  induction h with
  | nil => simp
  | cons same _ ih => rw [List.exists_mem_cons_iff, List.exists_mem_cons_iff, same, ih]

theorem Arena.Built.exists_tree_shows (built : a.Built g sentence)
    (h : a.built? index = some item) : ∃ tree, a.tree index = .ok tree ∧ tree.isBranch = true ∧
      (a.itemVerb g.language g.settings.baseNpVerbBarrier item = true ↔ g.ShowsVerb tree) := by
  refine built.exists_tree_of (P := fun item tree => tree.isBranch = true ∧
    (a.itemVerb g.language g.settings.baseNpVerbBarrier item = true ↔ g.ShowsVerb tree))
    (fun index item stored single => ⟨rfl, ?_⟩)
    (fun index item row stored branching hrow => ⟨rfl, ?_⟩) h
  · cases built.formed stored with
    | word _ _ same =>
      subst same
      rw [g.itemVerb_seeded, Grammar.showsVerb_word]
      rfl
    | compound composed =>
      obtain ⟨child, -, link, -⟩ := composed.head
      rw [single.headChild] at link
      cases link
  · cases built.formed stored with
    | word _ _ same =>
      subst same
      cases branching.headChild
    | compound composed =>
      have branches : ∀ t ∈ row, t.isBranch = true := fun t ht => by
        obtain ⟨i, hi⟩ := List.getElem?_of_mem ht
        obtain ⟨child, -, held, -, branch, -⟩ := Outcome.getElem?_of_row hrow.flip hi
        exact branch
      rw [composed.itemVerb_iff, Grammar.showsVerb_branch branches]
      refine and_congr_right fun _ => exists_mem_iff_of_row (hrow.imp fun child tree below => ?_)
      obtain ⟨held, holds, -, shows⟩ := below
      rw [Arena.dominatesVerb_eq_itemVerb built.linked holds.built, shows]

/-- Throughout a decode, an item is said to dominate a verb exactly when its tree shows one, and
the remembered answers are these. -/
theorem dominated_verbs_show (g : Grammar) (earlier : List Sentence) (sentence : Sentence)
    (chart : Chart) (visited : (Decoder.after g earlier).Visits sentence chart) (index : Nat)
    (item : Item) (stored : chart.arena.items[index]? = some item) :
    ∃ tree verb asked, chart.arena.tree index = .ok tree ∧
      chart.arena.askVerb g.language g.settings.baseNpVerbBarrier index = .ok (verb, asked) ∧
      (verb = true ↔ g.ShowsVerb tree) ∧
      ∀ remembered, chart.arena.verbs.getD index none = some remembered → remembered = verb := by
  have sound := visited.sound_after
  have built := Arena.built?_of_items stored
  have linked := sound.consistent.linked
  have remembers := sound.consistent.remembers
  rw [sound.settings] at remembers
  obtain ⟨tree, htree, -, shows⟩ := sound.built.exists_tree_shows built
  obtain ⟨asked, answer, -⟩ := Arena.askVerb_eq remembers linked (Arena.lt_size_of_built? built)
  refine ⟨tree, _, asked, htree, answer, ?_, fun remembered h => (remembers.verb _ _ h).symm⟩
  rw [Arena.dominatesVerb_eq_itemVerb linked built, shows]

def Sample.taggedGrammar : Grammar :=
  { Sample.grammar with language := { Language.plain with isVerbTag := fun tag => tag = ⟨7⟩ } }

/-- The stopped item over `b a b` remembers that it dominates a verb. -/
theorem sample_dominated_verb_shows : ∃ chart item tree,
    (Decoder.after Sample.taggedGrammar []).Visits Sample.sentence chart ∧
      chart.arena.items[7]? = some item ∧ chart.arena.verbs.getD 7 none = some true ∧
      chart.arena.tree 7 = .ok tree ∧ Sample.taggedGrammar.ShowsVerb tree := by
  obtain ⟨chart, visited, h⟩ := Decoder.exists_visited Sample.taggedGrammar Sample.sentence
    (fun chart => chart.arena.items[7]?.isSome && chart.arena.verbs.getD 7 none = some true)
    (by decide +kernel) (by decide +kernel)
  simp only [Bool.and_eq_true, decide_eq_true_eq] at h
  obtain ⟨item, stored⟩ := Option.isSome_iff_exists.mp h.1
  obtain ⟨tree, verb, asked, htree, -, shows, remembered⟩ :=
    dominated_verbs_show Sample.taggedGrammar [] Sample.sentence chart visited 7 item stored
  exact ⟨chart, item, tree, visited, stored, h.2, htree, shows.mp (remembered _ h.2).symm⟩

end HeadDriven
