import HeadDriven.Proofs.Top

/-! Commas inside a constituent. When a cell is filled, a span is not cut behind a comma unless
the span ends with a comma or with the sentence. The constituents that were joined there grow on
and are copied, yet the cut still shows in them: a left modifier never moves the end of an item,
and a right one never comes behind a left one. So the end that an item had when it took a modifier
is the end of that modifier on the right, and its own end on the left. -/
namespace HeadDriven

namespace Grammar

def CommaAt (g : Grammar) (sentence : Sentence) (position : Nat) : Prop :=
  ∃ token, sentence[position]? = some token ∧ g.language.isComma token.word = true

/-- A cut behind a comma in a span that ends neither with a comma nor with the sentence. -/
structure Strands (g : Grammar) (sentence : Sentence) (split last : Nat) : Prop where
  comma : g.CommaAt sentence split
  noComma : ¬g.CommaAt sentence last
  inside : last + 1 < sentence.length

variable {g : Grammar} {sentence : Sentence} {split last : Nat}

theorem getD_commas_iff (position : Nat) :
    (g.commas sentence).getD position false = true ↔ g.CommaAt sentence position := by
  simp only [commas, CommaAt, Array.getD_eq_getD_getElem?, List.getElem?_toArray,
    List.getElem?_map]
  cases sentence[position]? <;> simp

/-- What the constraint forbids are cuts that strand a comma. -/
theorem mayCut_iff (constraint : g.settings.commaConstraint = true) :
    g.MayCut sentence split last ↔ ¬g.Strands sentence split last := by
  have stranded : commaBlocks (g.commas sentence) split last = true ↔
      g.Strands sentence split last := by
    simp only [commaBlocks, Bool.and_eq_true, Bool.not_eq_true', decide_eq_true_eq,
      ← Bool.not_eq_true, getD_commas_iff, and_assoc]
    have size : (g.commas sentence).size = sentence.length := by simp [commas]
    rw [size]
    exact ⟨fun ⟨comma, noComma, inside⟩ => ⟨comma, noComma, inside⟩,
      fun ⟨comma, noComma, inside⟩ => ⟨comma, noComma, inside⟩⟩
  rw [MayCut, constraint, Bool.true_and, ← stranded, Bool.not_eq_true]

end Grammar

/-- An item whose span may be cut between its children. For a child on the right this is the span
that ends with the child, for one on the left the whole span. -/
structure Parted (g : Grammar) (sentence : Sentence) (a : Arena) (bound : Nat) (item : Item) :
    Prop where
  right : ∀ i ∈ item.right.children, ∃ d split, a.Holds bound i d ∧ d.first = split + 1 ∧
    g.MayCut sentence split d.last
  left : ∀ i ∈ item.left.children, ∃ d, a.Holds bound i d ∧ g.MayCut sentence d.last item.last

variable {g : Grammar} {sentence : Sentence} {a : Arena} {bound bound' index : Nat} {item : Item}

theorem Parted.mono (h : Parted g sentence a bound item) (hle : bound ≤ bound') :
    Parted g sentence a bound' item where
  right i hi := by
    obtain ⟨d, split, holds, first, cut⟩ := h.right i hi
    exact ⟨d, split, ⟨Nat.lt_of_lt_of_le holds.below hle, holds.built⟩, first, cut⟩
  left i hi := by
    obtain ⟨d, holds, cut⟩ := h.left i hi
    exact ⟨d, ⟨Nat.lt_of_lt_of_le holds.below hle, holds.built⟩, cut⟩

theorem parted_of_fresh (right : item.right.children = []) (left : item.left.children = []) :
    Parted g sentence a bound item where
  right _ hi := absurd (right ▸ hi) List.not_mem_nil
  left _ hi := absurd (left ▸ hi) List.not_mem_nil

theorem Builds.parted (h : Builds g sentence a bound item)
    (before : ∀ i other, a.Holds bound i other → Parted g sentence a i other) :
    Parted g sentence a bound item := by
  cases h with
  | seed | project | root => exact parted_of_fresh rfl rfl
  | stop under =>
    have kept := (before _ _ under).mono (Nat.le_of_lt under.below)
    exact ⟨kept.right, kept.left⟩
  | attach under modifier joins h =>
    rename_i i j m d side
    have kept := (before _ _ under).mono (Nat.le_of_lt under.below)
    have adjacent := joins.adjacent
    have uncut := joins.uncut
    cases side with
    | left =>
      refine ⟨kept.right, fun child hchild => ?_⟩
      rcases List.mem_cons.mp hchild with rfl | hchild
      · exact ⟨d, modifier, uncut⟩
      · exact kept.left child hchild
    | right =>
      -- There is no left modifier whose cut the new end could strand.
      refine ⟨fun child hchild => ?_, fun child hchild => ?_⟩
      · rcases List.mem_cons.mp hchild with rfl | hchild
        · exact ⟨d, m.last, modifier, adjacent.symm, uncut⟩
        · exact kept.right child hchild
      · have unmodified : child ∈ m.left.children := hchild
        rw [joins.unmodified] at unmodified
        exact absurd unmodified List.not_mem_nil

theorem Arena.Built.parted (built : a.Built g sentence) (h : a.built? index = some item) :
    Parted g sentence a index item :=
  built.induction (P := Parted g sentence a) (fun _ _ => Builds.parted) h

namespace ParseTree

variable {α β : Type}

/-- A tree and those that hang from it, however far down. -/
inductive Below (t : ParseTree α β) : ParseTree α β → Prop where
  | self : Below t t
  | child {value : α} {span : Span} {row : List (ParseTree α β)} {u : ParseTree α β} (mem : u ∈ row)
      (h : Below t u) : Below t (branch value span row)

end ParseTree

def Arena.Reads (a : Arena) (indices : List Nat) (row : List (ParseTree Symbol Symbol)) : Prop :=
  List.Forall₂ (fun i t => a.tree i = .ok t) indices row

theorem Arena.Reads.exists_of_mem {indices : List Nat} {row : List (ParseTree Symbol Symbol)}
    (h : a.Reads indices row) {t : ParseTree Symbol Symbol} (mem : t ∈ row) :
    ∃ i ∈ indices, a.tree i = .ok t :=
  Outcome.exists_mem_of_row h.flip mem

theorem Arena.exists_of_tree {t : ParseTree Symbol Symbol} (h : a.tree index = .ok t) :
    ∃ item, a.built? index = some item := by
  rw [Arena.tree] at h
  obtain ⟨stored, hget, -⟩ := Outcome.bind_eq_ok.mp h
  exact ⟨_, Arena.built?_of_items (Arena.get_eq_ok_iff.mp hget)⟩

/-- The tree of an item over others: those of its head child and of the modifiers on either side. -/
structure Arena.Spreads (a : Arena) (item : Item) (lefts : List (ParseTree Symbol Symbol))
    (center : ParseTree Symbol Symbol) (rights : List (ParseTree Symbol Symbol))
    (tree : ParseTree Symbol Symbol) : Prop where
  eq : tree = .branch item.label item.span (lefts ++ center :: rights)
  head : ∃ head, item.headChild = some head ∧ a.tree head = .ok center
  left : a.Reads item.left.children lefts
  right : a.Reads item.right.children.reverse rights

theorem Arena.Spreads.exists_of_mem {lefts rights : List (ParseTree Symbol Symbol)}
    {center tree t : ParseTree Symbol Symbol} (h : a.Spreads item lefts center rights tree)
    (mem : t ∈ lefts ++ center :: rights) : ∃ i, a.tree i = .ok t := by
  rcases List.mem_append.mp mem with mem | mem
  · obtain ⟨i, -, hi⟩ := h.left.exists_of_mem mem
    exact ⟨i, hi⟩
  · rcases List.mem_cons.mp mem with rfl | mem
    · obtain ⟨i, -, hi⟩ := h.head
      exact ⟨i, hi⟩
    · obtain ⟨i, -, hi⟩ := h.right.exists_of_mem mem
      exact ⟨i, hi⟩

theorem Arena.Built.draws (built : a.Built g sentence) (h : a.built? index = some item)
    {tree : ParseTree Symbol Symbol} (htree : a.tree index = .ok tree) :
    item.headChild = none ∧
        tree = .branch item.label item.span [.leaf item.headWord.word item.span] ∨
      ∃ lefts center rights, a.Spreads item lefts center rights tree := by
  obtain ⟨stored, hstored, rfl⟩ := Arena.built?_eq_some_iff.mp h
  have hget : a.get index = .ok stored := Arena.get_eq_ok_iff.mpr hstored
  rcases built.arranged h with one | branching
  · rw [Arena.tree_of_single hget one.headChild, Except.ok.injEq] at htree
    exact Or.inl ⟨one.headChild, htree.symm⟩
  · obtain ⟨head, link⟩ := Option.isSome_iff_exists.mp branching.headChild
    -- The right children are stored outermost first, so they are drawn backwards.
    have children : stored.copy.constituents =
        stored.left.children ++ head :: stored.right.children.reverse := by
      rw [Item.constituents, link, List.append_assoc]
      rfl
    have each (child : Nat) (hc : child ∈ stored.copy.constituents) :
        ∃ t, child < index ∧ a.tree child = .ok t := by
      obtain ⟨held, holds, -⟩ := branching.finished child hc
      obtain ⟨t, ht, -⟩ := built.exists_tree holds.built
      exact ⟨t, holds.below, ht⟩
    simp only [children, List.forall_mem_append, List.forall_mem_cons] at each
    obtain ⟨ofLeft, ⟨center, below, hcenter⟩, ofRight⟩ := each
    obtain ⟨lefts, hlefts⟩ := Outcome.exists_row ofLeft
    obtain ⟨rights, hrights⟩ := Outcome.exists_row ofRight
    have row : List.Forall₂ (fun child t => child < index ∧ a.tree child = .ok t)
        stored.copy.constituents (lefts ++ center :: rights) := by
      rw [children]
      exact List.rel_append hlefts (.cons ⟨below, hcenter⟩ hrights)
    rw [Arena.tree_of_branches hget branching.headChild row, Except.ok.injEq] at htree
    exact Or.inr ⟨lefts, center, rights, htree.symm, ⟨head, link, hcenter⟩,
      hlefts.imp fun _ _ h => h.2, hrights.imp fun _ _ h => h.2⟩

/-- Every branch in the tree of an item is the tree of an item. -/
theorem Arena.Built.exists_of_below (built : a.Built g sentence) (h : a.built? index = some item)
    {tree t : ParseTree Symbol Symbol} (htree : a.tree index = .ok tree) (below : t.Below tree)
    (branch : t.isBranch = true) :
    ∃ i other, a.built? i = some other ∧ a.tree i = .ok t := by
  induction below generalizing index item with
  | self => exact ⟨index, item, h, htree⟩
  | @child _ _ row u mem below ih =>
    rcases built.draws h htree with ⟨-, same⟩ | ⟨lefts, center, rights, spreads⟩
    · obtain ⟨-, -, rfl⟩ := ParseTree.branch.inj same
      obtain rfl := List.mem_singleton.mp mem
      cases below
      cases branch
    · obtain ⟨-, -, rfl⟩ := ParseTree.branch.inj spreads.eq
      obtain ⟨i, hi⟩ := spreads.exists_of_mem mem
      obtain ⟨other, stored⟩ := Arena.exists_of_tree hi
      exact ih stored hi

/-- Modifiers on both sides of a head, in a span up to `last`, between which no cut strands a
comma. On the left a modifier ends where it is cut off from its neighbour nearer the head, and on
the right it begins there. -/
structure Grammar.Spaces (g : Grammar) (sentence : Sentence) (last : Nat)
    (lefts rights : List (ParseTree Symbol Symbol)) : Prop where
  left : ∀ t ∈ lefts, ∃ first split, t.span = (first, split + 1) ∧ ¬g.Strands sentence split last
  right : ∀ t ∈ rights, ∃ split stop, t.span = (split + 1, stop + 1) ∧
    ¬g.Strands sentence split stop

theorem Arena.Built.span_of_tree (built : a.Built g sentence) (h : a.built? index = some item)
    {tree : ParseTree Symbol Symbol} (htree : a.tree index = .ok tree) : tree.span = item.span := by
  obtain ⟨tree', htree', pictures⟩ := built.exists_tree h
  rw [htree, Except.ok.injEq] at htree'
  exact htree' ▸ pictures.span

theorem Arena.Spreads.spaces {lefts rights : List (ParseTree Symbol Symbol)}
    {center tree : ParseTree Symbol Symbol} (h : a.Spreads item lefts center rights tree)
    (built : a.Built g sentence) (stored : a.built? index = some item)
    (constraint : g.settings.commaConstraint = true) :
    g.Spaces sentence item.last lefts rights := by
  have parted := built.parted stored
  constructor
  · intro t ht
    obtain ⟨i, hi, htree⟩ := h.left.exists_of_mem ht
    obtain ⟨d, holds, cut⟩ := parted.left i hi
    exact ⟨d.first, d.last, built.span_of_tree holds.built htree,
      (Grammar.mayCut_iff constraint).mp cut⟩
  · intro t ht
    obtain ⟨i, hi, htree⟩ := h.right.exists_of_mem ht
    obtain ⟨d, split, holds, first, cut⟩ := parted.right i (List.mem_reverse.mp hi)
    refine ⟨split, d.last, ?_, (Grammar.mayCut_iff constraint).mp cut⟩
    rw [built.span_of_tree holds.built htree, Item.span, first]

/-- With the comma constraint, no item of a decode has a cut between its children that strands a
comma, and none is between the children of a branch of a parse. -/
theorem no_comma_stranded (g : Grammar) (constraint : g.settings.commaConstraint = true)
    (earlier : List Sentence) (sentence : Sentence) :
    (∀ chart index item, (Decoder.after g earlier).Visits sentence chart →
      chart.arena.items[index]? = some item →
        (∀ i ∈ item.right.children, ∃ d split, chart.arena.Holds index i d ∧
          d.first = split + 1 ∧ ¬g.Strands sentence split d.last) ∧
        ∀ i ∈ item.left.children, ∃ d, chart.arena.Holds index i d ∧
          ¬g.Strands sentence d.last item.last) ∧
    ∀ found, ((Decoder.after g earlier).decode sentence).2 = .ok (.parse found) →
      ∃ chart, (Decoder.after g earlier).Visits sentence chart ∧
        ∀ t : ParseTree Symbol Symbol, t.Below found.tree → t.isBranch = true →
          ∃ index item, chart.arena.items[index]? = some item ∧ chart.arena.tree index = .ok t ∧
            (item.headChild = none ∨ ∃ lefts center rights,
              chart.arena.Spreads item lefts center rights t ∧
              g.Spaces sentence item.last lefts rights) := by
  constructor
  · intro chart index item visited stored
    have parted := visited.sound_after.built.parted (Arena.built?_of_items stored)
    refine ⟨fun i hi => ?_, fun i hi => ?_⟩
    · obtain ⟨d, split, holds, first, cut⟩ := parted.right i hi
      exact ⟨d, split, holds, first, (Grammar.mayCut_iff constraint).mp cut⟩
    · obtain ⟨d, holds, cut⟩ := parted.left i hi
      exact ⟨d, holds, (Grammar.mayCut_iff constraint).mp cut⟩
  · intro found h
    obtain ⟨-, coherent⟩ := Decoder.coherent_after g earlier
    obtain ⟨-, chart, i, child, visited, hchild, -, htree⟩ := Decoder.chart_of_parse coherent h
    have built := visited.sound_after.built
    refine ⟨chart, visited, fun t below branch => ?_⟩
    obtain ⟨index, item, hitem, drawn⟩ := built.exists_of_below hchild htree below branch
    obtain ⟨stored, hstored, rfl⟩ := Arena.built?_eq_some_iff.mp hitem
    refine ⟨index, stored, hstored, drawn, ?_⟩
    rcases built.draws hitem drawn with ⟨single, -⟩ | ⟨lefts, center, rights, spreads⟩
    · exact Or.inl single
    · exact Or.inr ⟨lefts, center, rights, ⟨spreads.eq, spreads.head, spreads.left, spreads.right⟩,
        spreads.spaces built hitem constraint⟩

def Sample.commaGrammar : Grammar :=
  { Sample.grammar with language := { Language.plain with isComma := fun word => word = ⟨6⟩ } }

/-- Over `b a b` the left modifier is cut off behind a comma, and the comma at the end allows it. -/
theorem sample_no_comma_stranded :
    Sample.commaGrammar.settings.commaConstraint = true ∧
    (∃ chart item d, (Decoder.after Sample.commaGrammar []).Visits Sample.sentence chart ∧
      chart.arena.items[7]? = some item ∧ item.left.children = [0] ∧ chart.arena.Holds 7 0 d ∧
      ¬Sample.commaGrammar.Strands Sample.sentence d.last item.last) ∧
    ∃ (found : Derivation) (chart : Chart) (index : Nat) (item : Item),
      ((Decoder.after Sample.commaGrammar []).decode Sample.sentence).2 = .ok (.parse found) ∧
      chart.arena.items[index]? = some item ∧ chart.arena.tree index = .ok found.tree ∧
      (item.headChild = none ∨ ∃ lefts center rights,
        chart.arena.Spreads item lefts center rights found.tree ∧
        Sample.commaGrammar.Spaces Sample.sentence item.last lefts rights) := by
  obtain ⟨items, parses⟩ := no_comma_stranded Sample.commaGrammar rfl [] Sample.sentence
  refine ⟨rfl, ?_, ?_⟩
  · obtain ⟨chart, visited, h⟩ := Decoder.exists_visited Sample.commaGrammar Sample.sentence
      (fun chart => chart.arena.items[7]?.any fun item => item.left.children = [0])
      (by decide +kernel) (by decide +kernel)
    obtain ⟨item, stored, hitem⟩ := (Option.any_eq_true _ _).mp h
    have left : item.left.children = [0] := of_decide_eq_true hitem
    obtain ⟨d, holds, spaced⟩ := (items chart 7 item visited stored).2 0
      (left ▸ List.mem_singleton_self 0)
    exact ⟨chart, item, d, visited, stored, left, holds, spaced⟩
  · have h : (match ((Decoder.after Sample.commaGrammar []).decode Sample.sentence).2 with
        | .ok (.parse found) => found.tree.isBranch
        | _ => false) = true := by decide +kernel
    split at h
    · rename_i found hfound
      obtain ⟨chart, -, spaced⟩ := parses found hfound
      obtain ⟨index, item, stored, drawn, spread⟩ := spaced found.tree .self h
      exact ⟨found, chart, index, item, hfound, stored, drawn, spread⟩
    · cases h

end HeadDriven
