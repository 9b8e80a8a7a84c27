import HeadDriven.Proofs.Visits

/-! The geometry of items and trees. The constituents of an item, its left modifiers,
its head child and its right modifiers read from left to right, are finished items
stored before it, and their spans tile its span. So the tree under every stored item
can be read off; its branches are tiled by their children, and its leaves are the
words of its span. -/
namespace HeadDriven

/-- Spans that follow one another without gaps from `first` up to `stop`; none is empty. -/
def Tiles (first stop : Nat) : List Span → Prop
  | [] => first = stop
  | span :: rest => span.1 = first ∧ span.1 < span.2 ∧ Tiles span.2 stop rest

theorem tiles_append {first stop : Nat} {xs ys : List Span} :
    Tiles first stop (xs ++ ys) ↔ ∃ mid, Tiles first mid xs ∧ Tiles mid stop ys := by
  induction xs generalizing first with
  | nil => simp [Tiles]
  | cons span xs ih =>
    simp only [List.cons_append, Tiles, ih]
    constructor
    · rintro ⟨hfirst, hlt, mid, hxs, hys⟩
      exact ⟨mid, ⟨hfirst, hlt, hxs⟩, hys⟩
    · rintro ⟨mid, ⟨hfirst, hlt, hxs⟩, hys⟩
      exact ⟨hfirst, hlt, mid, hxs, hys⟩

theorem Tiles.le {first stop : Nat} {spans : List Span} (h : Tiles first stop spans) :
    first ≤ stop := by
  induction spans generalizing first with
  | nil => exact Nat.le_of_eq h
  | cons span spans ih =>
    obtain ⟨rfl, hlt, hrest⟩ := h
    exact Nat.le_trans (Nat.le_of_lt hlt) (ih hrest)

namespace ParseTree

variable {α β : Type}

mutual

/-- The children of every branch tile its span. -/
def Tiled : ParseTree α β → Prop
  | branch _ span children => Tiles span.1 span.2 (children.map ParseTree.span) ∧
      RowTiled children
  | leaf _ _ => True

def RowTiled : List (ParseTree α β) → Prop
  | [] => True
  | t :: rest => Tiled t ∧ RowTiled rest

end

theorem rowTiled_iff {row : List (ParseTree α β)} : RowTiled row ↔ ∀ t ∈ row, Tiled t := by
  induction row with
  | nil => simp [RowTiled]
  | cons t row ih => simp [RowTiled, ih]

end ParseTree

/-- The words of a span as leaves of a tree, each over its own position. -/
def Sentence.leaves (sentence : Sentence) (span : Span) : List (Symbol × Span) :=
  ((sentence.zipIdx.take span.2).drop span.1).map fun (token, i) => (token.word, (i, i + 1))

theorem Sentence.leaves_append (sentence : Sentence) {first mid stop : Nat}
    (hfirst : first ≤ mid) (hmid : mid ≤ stop) :
    sentence.leaves (first, mid) ++ sentence.leaves (mid, stop) =
      sentence.leaves (first, stop) := by
  have parts : (sentence.zipIdx.take mid).drop first ++ (sentence.zipIdx.take stop).drop mid =
      (sentence.zipIdx.take stop).drop first := by
    have hleft : (sentence.zipIdx.take mid).drop first =
        ((sentence.zipIdx.take stop).drop first).take (mid - first) := by
      rw [← List.drop_take, List.take_take, Nat.min_eq_left hmid]
    have hright : (sentence.zipIdx.take stop).drop mid =
        ((sentence.zipIdx.take stop).drop first).drop (mid - first) := by
      rw [List.drop_drop, Nat.add_sub_cancel' hfirst]
    rw [hleft, hright, List.take_append_drop]
  simp only [leaves, ← List.map_append, parts]

theorem Sentence.leaves_single {sentence : Sentence} {position : Nat} {token : Token}
    (word : sentence[position]? = some token) :
    sentence.leaves (position, position + 1) = [(token.word, (position, position + 1))] := by
  obtain ⟨hlt, hword⟩ := List.getElem?_eq_some_iff.mp word
  have hidx : position < sentence.zipIdx.length := by simpa using hlt
  have one : (sentence.zipIdx.take (position + 1)).drop position = [(token, position)] := by
    rw [List.drop_take, Nat.add_sub_cancel_left, List.drop_eq_getElem_cons hidx]
    simp [hword]
  rw [leaves, one]
  rfl

theorem rowLeaves_eq {sentence : Sentence} {row : List (ParseTree Symbol Symbol)}
    {first stop : Nat} (tiles : Tiles first stop (row.map ParseTree.span))
    (h : ∀ t ∈ row, t.leaves = sentence.leaves t.span) :
    ParseTree.rowLeaves row = sentence.leaves (first, stop) := by
  induction row generalizing first with
  | nil =>
    obtain rfl : first = stop := tiles
    simp [ParseTree.rowLeaves, Sentence.leaves]
  | cons t row ih =>
    obtain ⟨rfl, hlt, hrest⟩ := tiles
    rw [ParseTree.rowLeaves, h t List.mem_cons_self,
      ih hrest fun u hu => h u (List.mem_cons_of_mem _ hu)]
    exact sentence.leaves_append (Nat.le_of_lt hlt) hrest.le

namespace Item

def span (item : Item) : Span := (item.first, item.last + 1)

def constituents (item : Item) : List Nat :=
  item.left.children ++ item.headChild.toList ++ item.right.children.reverse

end Item

namespace Grammar

variable (g : Grammar) (m : Modificand) (d : Modifier)

theorem constituents_attachLeft :
    (g.attachment m d .left).constituents = d.index :: m.item.constituents := rfl

theorem constituents_attachRight :
    (g.attachment m d .right).constituents = m.item.constituents ++ [d.index] := by
  show m.item.left.children ++ m.item.headChild.toList ++ (d.index :: m.item.right.children).reverse
    = _
  rw [List.reverse_cons, ← List.append_assoc]
  rfl

theorem mem_constituents_attachment {side : Side} {child : Nat} :
    child ∈ (g.attachment m d side).constituents ↔
      child = d.index ∨ child ∈ m.item.constituents := by
  cases side with
  | left => rw [constituents_attachLeft, List.mem_cons]
  | right =>
    rw [constituents_attachRight, List.mem_append, List.mem_singleton]
    exact or_comm

end Grammar

def Arena.spanOf (a : Arena) (index : Nat) : Span := ((a.built? index).map Item.span).getD (0, 0)

def Arena.Finished (a : Arena) (bound index : Nat) : Prop :=
  ∃ item, a.Holds bound index item ∧ item.stopped = true

/-- A constituent over finished constituents that are stored before it and tile its span. -/
structure Branches (a : Arena) (bound : Nat) (item : Item) : Prop where
  headChild : item.headChild.isSome = true
  finished : ∀ child ∈ item.constituents, a.Finished bound child
  tiles : Tiles item.first (item.last + 1) (item.constituents.map a.spanOf)

structure Single (sentence : Sentence) (item : Item) : Prop where
  headChild : item.headChild = none
  constituents : item.constituents = []
  stopped : item.stopped = true
  last : item.last = item.first
  word : ∃ token, sentence[item.first]? = some token ∧ token.word = item.headWord.word

variable {g : Grammar} {sentence : Sentence} {a : Arena} {bound bound' index : Nat} {item : Item}

theorem Arena.Holds.spanOf (h : a.Holds bound index item) : a.spanOf index = item.span := by
  simp [Arena.spanOf, h.built]

theorem Arena.Finished.mono (h : a.Finished bound index) (hle : bound ≤ bound') :
    a.Finished bound' index :=
  h.imp fun _ h => ⟨h.1.extends (.refl a) hle, h.2⟩

theorem branches_over {head : Item} (under : a.Holds bound index head)
    (stopped : head.stopped = true) (located : Located sentence head)
    (hitem : item.headChild = some index ∧ item.left.children = [] ∧ item.right.children = [] ∧
      item.span = head.span) : Branches a bound item := by
  obtain ⟨hchild, hleft, hright, hspan⟩ := hitem
  have one : item.constituents = [index] := by simp [Item.constituents, hchild, hleft, hright]
  have hfirst : item.first = head.first := congrArg Prod.fst hspan
  have hlast : item.last + 1 = head.last + 1 := congrArg Prod.snd hspan
  refine ⟨by simp [hchild], ?_, ?_⟩
  · rw [one]
    simp only [List.mem_singleton, forall_eq]
    exact ⟨head, under, stopped⟩
  · rw [one, List.map_singleton, under.spanOf, hfirst, hlast]
    exact ⟨rfl, Nat.lt_succ_of_le located.first_le_last, rfl⟩

theorem Branches.attach {i j : Nat} {m d : Item} {side : Side} (h : Branches a i m)
    (under : a.Holds bound i m) (modifier : a.Holds bound j d)
    (joins : g.Joins sentence side m d) (located : Located sentence d) :
    Branches a bound (g.attachment (a.modificand i m) (g.modifier a j d) side) := by
  have adjacent := joins.adjacent
  have hlt : d.first < d.last + 1 := Nat.lt_succ_of_le located.first_le_last
  have hspan : a.spanOf (g.modifier a j d).index = d.span := modifier.spanOf
  refine ⟨?_, fun child hc => ?_, ?_⟩
  · rw [Grammar.headChild_attachment]
    exact h.headChild
  · rcases (g.mem_constituents_attachment _ _).mp hc with rfl | hc
    · exact ⟨d, modifier, joins.stopped⟩
    · exact (h.finished child hc).mono (Nat.le_of_lt under.below)
  · cases side with
    | left =>
      have tiles := h.tiles
      rw [← show d.last + 1 = m.first from adjacent] at tiles
      rw [Grammar.constituents_attachLeft, List.map_cons, hspan]
      exact ⟨rfl, hlt, tiles⟩
    | right =>
      rw [Grammar.constituents_attachRight, List.map_append, tiles_append]
      refine ⟨m.last + 1, h.tiles, ?_⟩
      rw [List.map_singleton, hspan]
      exact ⟨adjacent.symm, hlt, rfl⟩

theorem Builds.arranged (h : Builds g sentence a index item)
    (located : ∀ i other, a.Holds index i other → Located sentence other)
    (before : ∀ i other, a.Holds index i other → Single sentence other ∨ Branches a i other) :
    Single sentence item ∨ Branches a index item := by
  have branches {i : Nat} {m : Item} (under : a.Holds index i m) (hm : m.stopped = false) :
      Branches a i m := by
    rcases before i m under with single | branches
    · rw [single.stopped] at hm
      cases hm
    · exact branches
  cases h with
  | seed word h => exact Or.inl ⟨rfl, rfl, rfl, rfl, _, word, rfl⟩
  | project under h =>
    exact Or.inr (branches_over under h.stopped (located _ _ under) ⟨rfl, rfl, rfl, rfl⟩)
  | attach under modifier joins h =>
    exact Or.inr ((branches under joins.growing).attach under modifier joins (located _ _ modifier))
  | stop under h =>
    obtain ⟨headChild, finished, tiles⟩ := branches under h.growing
    exact Or.inr ⟨headChild, fun child hc => (finished child hc).mono (Nat.le_of_lt under.below),
      tiles⟩
  | root under whole h =>
    exact Or.inr (branches_over under h.stopped (located _ _ under) ⟨rfl, rfl, rfl, rfl⟩)

theorem Arena.Built.arranged (built : a.Built g sentence) (h : a.built? index = some item) :
    Single sentence item ∨ Branches a index item :=
  built.induction (P := fun index item => Single sentence item ∨ Branches a index item)
    (fun _ _ h => h.arranged fun _ _ holds => built.located holds.built) h

/-- The tree of an item: it has the item's span, is tiled, and has the words of the span for
its leaves. -/
structure Pictures (sentence : Sentence) (item : Item) (tree : ParseTree Symbol Symbol) :
    Prop where
  span : tree.span = item.span
  tiled : tree.Tiled
  leaves : tree.leaves = sentence.leaves item.span

theorem spans_of_row {children : List Nat} {row : List (ParseTree Symbol Symbol)}
    (h : List.Forall₂ (fun child tree => ∃ item, a.Holds bound child item ∧
      Pictures sentence item tree) children row) :
    row.map ParseTree.span = children.map a.spanOf ∧
      ∀ tree ∈ row, tree.Tiled ∧ tree.leaves = sentence.leaves tree.span := by
  induction h with
  | nil => simp
  | cons h _ ih =>
    obtain ⟨item, holds, pictures⟩ := h
    refine ⟨by rw [List.map_cons, List.map_cons, ih.1, pictures.span, holds.spanOf],
      fun tree htree => ?_⟩
    rcases List.mem_cons.mp htree with rfl | htree
    · exact ⟨pictures.tiled, by rw [pictures.span, pictures.leaves]⟩
    · exact ih.2 tree htree

theorem Single.pictures (h : Single sentence item) (label : Symbol) :
    Pictures sentence item (.branch label item.span [.leaf item.headWord.word item.span]) := by
  obtain ⟨token, word, hword⟩ := h.word
  have leaves := Sentence.leaves_single word
  rw [← h.last, hword, h.last] at leaves
  have hspan : item.span = (item.first, item.first + 1) := by rw [Item.span, h.last]
  rw [hspan]
  refine ⟨hspan.symm, ⟨⟨rfl, Nat.lt_succ_self _, rfl⟩, trivial, trivial⟩, ?_⟩
  rw [hspan, leaves]
  rfl

theorem Branches.pictures (h : Branches a bound item) (label : Symbol)
    {row : List (ParseTree Symbol Symbol)}
    (hrow : List.Forall₂ (fun child tree => ∃ item, a.Holds bound child item ∧
      Pictures sentence item tree) item.constituents row) :
    Pictures sentence item (.branch label item.span row) := by
  obtain ⟨hspans, htrees⟩ := spans_of_row hrow
  have tiles := h.tiles
  rw [← hspans] at tiles
  exact ⟨rfl, ⟨tiles, ParseTree.rowTiled_iff.mpr fun tree htree => (htrees tree htree).1⟩,
    rowLeaves_eq tiles fun tree htree => (htrees tree htree).2⟩

theorem Arena.tree_of_single (hget : a.get index = .ok item) (h : item.headChild = none) :
    a.tree index =
      .ok (.branch item.label item.span [.leaf item.headWord.word item.span]) := by
  rw [Arena.tree, hget, Outcome.ok_bind]
  simp only [h]
  rfl

theorem Arena.tree_of_branches (hget : a.get index = .ok item)
    (h : item.headChild.isSome = true) {row : List (ParseTree Symbol Symbol)}
    (hrow : List.Forall₂ (fun child tree => child < index ∧ a.tree child = .ok tree)
      item.constituents row) :
    a.tree index = .ok (.branch item.label item.span row) := by
  obtain ⟨head, hhead⟩ := Option.isSome_iff_exists.mp h
  have children : (item.left.children ++ head :: item.right.children.reverse).mapM
      (fun child => if child < index then a.tree child else throw .danglingLink) = .ok row := by
    simp only [Item.constituents, hhead, Option.toList_some, List.append_assoc,
      List.singleton_append] at hrow
    exact Outcome.mapM_eq_ok.mpr (hrow.imp fun child tree h => by rw [if_pos h.1, h.2])
  rw [Arena.tree, hget, Outcome.ok_bind]
  simp only [hhead, children, Outcome.ok_bind]
  rfl

/-- The tree under every stored item can be read off. What holds of the trees of single words,
and of a tree over others of which it holds, holds of all of them. -/
theorem Arena.Built.exists_tree_of {P : Item → ParseTree Symbol Symbol → Prop}
    (built : a.Built g sentence)
    (single : ∀ index item, a.built? index = some item → Single sentence item →
      P item (.branch item.label item.span [.leaf item.headWord.word item.span]))
    (branches : ∀ index item row, a.built? index = some item → Branches a index item →
      List.Forall₂ (fun child tree => ∃ held, a.Holds index child held ∧ P held tree)
        item.constituents row → P item (.branch item.label item.span row))
    (h : a.built? index = some item) : ∃ tree, a.tree index = .ok tree ∧ P item tree := by
  induction index using Nat.strongRecOn generalizing item with
  | ind index ih =>
    obtain ⟨stored, hstored, rfl⟩ := Arena.built?_eq_some_iff.mp h
    have hget : a.get index = .ok stored := Arena.get_eq_ok_iff.mpr hstored
    rcases built.arranged h with one | branching
    · exact ⟨_, Arena.tree_of_single hget one.headChild, single index _ h one⟩
    · -- The trees of the children exist, since children lie before their parents.
      have each (child : Nat) (hc : child ∈ stored.constituents) : ∃ tree,
          (child < index ∧ a.tree child = .ok tree) ∧
            ∃ held, a.Holds index child held ∧ P held tree := by
        obtain ⟨held, holds, -⟩ := branching.finished child hc
        obtain ⟨tree, htree, hp⟩ := ih child holds.below holds.built
        exact ⟨tree, ⟨holds.below, htree⟩, held, holds, hp⟩
      obtain ⟨row, hrow⟩ := Outcome.exists_row each
      exact ⟨_, Arena.tree_of_branches hget branching.headChild (hrow.imp fun _ _ h => h.1),
        branches index _ row h branching (hrow.imp fun _ _ h => h.2)⟩

theorem Arena.Built.exists_tree (built : a.Built g sentence) (h : a.built? index = some item) :
    ∃ tree, a.tree index = .ok tree ∧ Pictures sentence item tree :=
  built.exists_tree_of (fun _ item _ one => one.pictures item.label)
    (fun _ item _ _ branching row => branching.pictures item.label row) h

end HeadDriven
