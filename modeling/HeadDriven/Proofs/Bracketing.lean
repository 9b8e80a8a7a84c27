import HeadDriven.Proofs.Text.Runs
import HeadDriven.Proofs.Yield

/-! Bracketings determine trees. Where labels and words have no spaces and no parentheses, a name
ends at the space or parenthesis behind it, and a row of children at the parenthesis that closes
it; so a bracketing can be followed by what it likes and still tells which tree it was, up to
spans. The spans too are determined in trees that are tiled over single words from a given one on,
as are all that are read off the items of a decode. -/
namespace HeadDriven

/-- A name that stands alone in a bracketing. -/
structure Unbracketed (name : String) : Prop where
  ne_empty : name ≠ ""
  plain : ∀ c ∈ name.toList, c ≠ ' ' ∧ c ≠ '(' ∧ c ≠ ')'

instance : DecidablePred Unbracketed := fun name =>
  decidable_of_iff (name ≠ "" ∧ name.toList.all fun c => c ≠ ' ' ∧ c ≠ '(' ∧ c ≠ ')') <| by
    simp only [List.all_eq_true, decide_eq_true_eq]
    exact ⟨fun h => ⟨h.1, h.2⟩, fun h => ⟨h.ne_empty, h.plain⟩⟩

namespace ParseTree

variable {α β γ δ ε : Type}

/-- Trees that differ in nothing but their spans. -/
inductive Alike : ParseTree α β → ParseTree α β → Prop where
  | leaf {word : β} {span span' : Span} : Alike (leaf word span) (leaf word span')
  | branch {label : α} {span span' : Span} {row row' : List (ParseTree α β)}
      (children : List.Forall₂ Alike row row') :
      Alike (branch label span row) (branch label span' row')

mutual

/-- Every branch has a child, and all labels and words stand alone. -/
def Plain : ParseTree String String → Prop
  | branch label _ children => Unbracketed label ∧ children ≠ [] ∧ RowPlain children
  | leaf word _ => Unbracketed word

def RowPlain : List (ParseTree String String) → Prop
  | [] => True
  | t :: rest => Plain t ∧ RowPlain rest

end

mutual

def decidePlain : (t : ParseTree String String) → Decidable t.Plain
  | branch label _ row =>
    have := decideRowPlain row
    inferInstanceAs (Decidable (Unbracketed label ∧ row ≠ [] ∧ RowPlain row))
  | leaf word _ => inferInstanceAs (Decidable (Unbracketed word))

def decideRowPlain : (row : List (ParseTree String String)) → Decidable (RowPlain row)
  | [] => inferInstanceAs (Decidable True)
  | t :: rest =>
    have := decidePlain t
    have := decideRowPlain rest
    inferInstanceAs (Decidable (t.Plain ∧ RowPlain rest))

end

instance (t : ParseTree String String) : Decidable t.Plain := decidePlain t

def spaced : List (ParseTree String String) → List Char
  | [] => []
  | t :: rest => ' ' :: (t.bracketed.toList ++ spaced rest)

theorem spaced_eq_bracketedRow (row : List (ParseTree String String)) (h : row ≠ []) :
    spaced row = ' ' :: (bracketedRow row).toList := by
  induction row with
  | nil => exact absurd rfl h
  | cons t rest ih =>
    cases rest with
    | nil => simp [spaced, bracketedRow]
    | cons u rest =>
      rw [spaced, ih (List.cons_ne_nil u rest)]
      simp [bracketedRow]

theorem toList_bracketed_branch (label : String) (span : Span)
    {row : List (ParseTree String String)} (h : row ≠ []) :
    (branch label span row).bracketed.toList = '(' :: (label.toList ++ (spaced row ++ [')'])) := by
  rw [spaced_eq_bracketedRow row h]
  simp [bracketed]

end ParseTree

/-- What may stand behind a name: nothing, a space or a closing parenthesis. -/
def EndsName (rest : List Char) : Prop := ∀ c ∈ rest.head?, c = ' ' ∨ c = ')'

theorem Unbracketed.append_inj {a b : String} {r s : List Char} (ha : Unbracketed a)
    (hb : Unbracketed b) (hr : EndsName r) (hs : EndsName s)
    (h : a.toList ++ r = b.toList ++ s) : a = b ∧ r = s := by
  let within (c : Char) : Bool := c ≠ ' ' && (c ≠ '(' && c ≠ ')')
  have inside {name : String} (plain : Unbracketed name) :
      ∀ c ∈ name.toList, within c = true := fun c hc => by
    simpa [within] using plain.plain c hc
  have outside {rest : List Char} (ends : EndsName rest) :
      ∀ c ∈ rest.head?, within c = false := fun c hc => by
    rcases ends c hc with rfl | rfl <;> decide
  exact (Text.run_append_inj (inside ha) (outside hr) (inside hb) (outside hs) h).imp_left
    String.toList_injective

namespace ParseTree

theorem endsName_spaced (row : List (ParseTree String String)) (rest : List Char) :
    EndsName (spaced row ++ ')' :: rest) := by
  intro c hc
  cases row with
  | nil => exact Or.inr (Option.some.inj hc).symm
  | cons => exact Or.inl (Option.some.inj hc).symm

theorem leaf_ne_branch {word label : String} {span : Span} {row : List (ParseTree String String)}
    {r s : List Char} (hword : Unbracketed word) (hrow : row ≠ []) :
    word.toList ++ r ≠ (branch label span row).bracketed.toList ++ s := by
  intro h
  rw [toList_bracketed_branch label span hrow] at h
  cases hchars : word.toList with
  | nil => exact hword.ne_empty (by simpa using hchars)
  | cons c rest =>
    rw [hchars] at h
    have opens : c = '(' := (List.cons.inj h).1
    exact (hword.plain c (by simp [hchars])).2.1 opens

mutual

theorem bracketed_append_inj {r s : List Char} : (t u : ParseTree String String) →
    t.Plain → u.Plain → EndsName r → EndsName s →
    t.bracketed.toList ++ r = u.bracketed.toList ++ s → t.Alike u ∧ r = s
  | leaf word _, leaf word' _, ht, hu, hr, hs, h => by
    obtain ⟨rfl, hrest⟩ := Unbracketed.append_inj ht hu hr hs h
    exact ⟨.leaf, hrest⟩
  | leaf word _, branch label _ row, ht, hu, _, _, h => absurd h (leaf_ne_branch ht hu.2.1)
  | branch label _ row, leaf word _, ht, hu, _, _, h => absurd h.symm (leaf_ne_branch hu ht.2.1)
  | branch label span row, branch label' span' row', ht, hu, hr, hs, h => by
    rw [toList_bracketed_branch label span ht.2.1, toList_bracketed_branch label' span' hu.2.1] at h
    simp only [List.cons_append, List.append_assoc, List.nil_append, List.cons.injEq,
      true_and] at h
    obtain ⟨rfl, hrows⟩ :=
      ht.1.append_inj hu.1 (endsName_spaced row r) (endsName_spaced row' s) h
    obtain ⟨children, hrest⟩ := spaced_append_inj row row' ht.2.2 hu.2.2 hrows
    exact ⟨.branch children, hrest⟩

/-- Rows are told apart up to the parenthesis that closes them. -/
theorem spaced_append_inj {r s : List Char} : (row row' : List (ParseTree String String)) →
    RowPlain row → RowPlain row' → spaced row ++ ')' :: r = spaced row' ++ ')' :: s →
    List.Forall₂ Alike row row' ∧ r = s
  | [], [], _, _, h => ⟨.nil, (List.cons.inj h).2⟩
  | [], _ :: _, _, _, h => absurd (List.cons.inj h).1 (by decide)
  | _ :: _, [], _, _, h => absurd (List.cons.inj h).1 (by decide)
  | t :: rest, u :: rest', hrow, hrow', h => by
    simp only [spaced, List.cons_append, List.append_assoc, List.cons.injEq, true_and] at h
    obtain ⟨first, hrest⟩ := bracketed_append_inj t u hrow.1 hrow'.1 (endsName_spaced rest r)
      (endsName_spaced rest' s) h
    obtain ⟨others, hend⟩ := spaced_append_inj rest rest' hrow.2 hrow'.2 hrest
    exact ⟨.cons first others, hend⟩

end

mutual

theorem Alike.bracketed_eq : (t u : ParseTree String String) → t.Alike u →
    t.bracketed = u.bracketed
  | leaf _ _, _, .leaf => rfl
  | branch label _ row, branch _ _ row', .branch children => by
    rw [bracketed, bracketed, bracketedRow_eq_of_alike row row' children]

theorem bracketedRow_eq_of_alike : (row row' : List (ParseTree String String)) →
    List.Forall₂ Alike row row' → bracketedRow row = bracketedRow row'
  | [], _, .nil => rfl
  | [t], [u], .cons first .nil => first.bracketed_eq t u
  | t :: t' :: rest, u :: u' :: rest', .cons first (.cons second others) => by
    rw [bracketedRow, bracketedRow, first.bracketed_eq t u,
      bracketedRow_eq_of_alike (t' :: rest) (u' :: rest') (.cons second others)]

end

/-- Single words tiled from a first word on. -/
structure Placed (first : Nat) (t : ParseTree α β) : Prop where
  tiled : t.Tiled
  single : ∀ leaf ∈ t.leaves, leaf.2.2 = leaf.2.1 + 1
  starts : t.leaves.head?.map (·.2.1) = some first

theorem starts_of_tiled : (t : ParseTree α β) → t.Tiled → t.span.1 < t.span.2 →
    t.leaves.head?.map (·.2.1) = some t.span.1
  | leaf _ _, _, _ => rfl
  | branch _ span [], tiled, wide => absurd tiled.1 (Nat.ne_of_lt wide)
  | branch _ span (t :: rest), tiled, _ => by
    obtain ⟨⟨begins, wide, -⟩, first, -⟩ := tiled
    have starts := starts_of_tiled t first wide
    rw [begins] at starts
    obtain ⟨leaf, hleaf, hstart⟩ := Option.map_eq_some_iff.mp starts
    rw [leaves, rowLeaves, List.head?_append, hleaf, Option.some_or, Option.map_some, hstart]
    rfl

theorem Placed.span_fst {first : Nat} {t : ParseTree α β} (h : t.Placed first) :
    t.span.1 = first := by
  cases t with
  | leaf => exact Option.some.inj h.starts
  | branch label span row =>
    cases row with
    | nil => cases h.starts
    | cons t rest =>
      obtain ⟨⟨begins, wide, -⟩, tiled, -⟩ := h.tiled
      have starts := h.starts
      have own := starts_of_tiled t tiled wide
      obtain ⟨leaf, hleaf, hstart⟩ := Option.map_eq_some_iff.mp own
      rw [leaves, rowLeaves, List.head?_append, hleaf, Option.some_or, Option.map_some, hstart,
        begins] at starts
      exact Option.some.inj starts

mutual

/-- Over single words the spans of alike trees that begin together are the same. -/
theorem Alike.eq_of_tiled : (t u : ParseTree α β) → t.Alike u → t.Tiled → u.Tiled →
    (∀ leaf ∈ t.leaves, leaf.2.2 = leaf.2.1 + 1) → (∀ leaf ∈ u.leaves, leaf.2.2 = leaf.2.1 + 1) →
    t.span.1 = u.span.1 → t = u
  | leaf word span, leaf _ span', .leaf, _, _, ht, hu, begins => by
    have hspan : span.2 = span.1 + 1 := ht (word, span) (List.mem_singleton.mpr rfl)
    have hspan' : span'.2 = span'.1 + 1 := hu (word, span') (List.mem_singleton.mpr rfl)
    have begins : span.1 = span'.1 := begins
    rw [show span = span' from Prod.ext begins (by rw [hspan, hspan', begins])]
  | branch label span row, branch _ span' row', .branch children, tiled, tiled', ht, hu,
      begins => by
    have begins : span.1 = span'.1 := begins
    obtain ⟨rfl, ends⟩ := eq_of_rowTiled row row' children tiled.1 (begins ▸ tiled'.1) tiled.2
      tiled'.2 ht hu
    rw [show span = span' from Prod.ext begins ends]

theorem eq_of_rowTiled {first stop stop' : Nat} : (row row' : List (ParseTree α β)) →
    List.Forall₂ Alike row row' → Tiles first stop (row.map ParseTree.span) →
    Tiles first stop' (row'.map ParseTree.span) → RowTiled row → RowTiled row' →
    (∀ leaf ∈ rowLeaves row, leaf.2.2 = leaf.2.1 + 1) →
    (∀ leaf ∈ rowLeaves row', leaf.2.2 = leaf.2.1 + 1) → row = row' ∧ stop = stop'
  | [], _, .nil, ends, ends', _, _, _, _ => ⟨rfl, Eq.trans (Eq.symm ends) ends'⟩
  | t :: rest, u :: rest', .cons alike others, tiles, tiles', tiled, tiled', ht, hu => by
    obtain ⟨begins, -, tiles⟩ := tiles
    obtain ⟨begins', -, tiles'⟩ := tiles'
    rw [rowLeaves, List.forall_mem_append] at ht hu
    obtain rfl := alike.eq_of_tiled t u tiled.1 tiled'.1 ht.1 hu.1 (begins.trans begins'.symm)
    obtain ⟨rfl, ends⟩ := eq_of_rowTiled rest rest' others tiles tiles' tiled.2 tiled'.2 ht.2 hu.2
    exact ⟨rfl, ends⟩

end

theorem Placed.eq_of_alike {first : Nat} {t u : ParseTree α β} (ht : t.Placed first)
    (hu : u.Placed first) (alike : t.Alike u) : t = u :=
  alike.eq_of_tiled t u ht.tiled hu.tiled ht.single hu.single (ht.span_fst.trans hu.span_fst.symm)

variable {onBranch : α → Span → Except ε γ} {onLeaf : β → Span → Except ε δ}

mutual

theorem spans_mapM? : (t : ParseTree α β) → (u : ParseTree γ δ) →
    t.mapM? onBranch onLeaf = .ok u →
    u.span = t.span ∧ (t.Tiled → u.Tiled) ∧ u.leaves.map Prod.snd = t.leaves.map Prod.snd
  | branch label span row, u, h => by
    obtain ⟨label', row', -, hrow, rfl⟩ := mapM?_branch h
    obtain ⟨spans, tiled, leaves⟩ := spans_mapRowM? row row' hrow
    exact ⟨rfl, fun h => ⟨spans ▸ h.1, tiled h.2⟩, leaves⟩
  | leaf word span, u, h => by
    obtain ⟨word', -, rfl⟩ := mapM?_leaf h
    exact ⟨rfl, id, rfl⟩

theorem spans_mapRowM? : (row : List (ParseTree α β)) → (row' : List (ParseTree γ δ)) →
    mapRowM? onBranch onLeaf row = .ok row' →
    row'.map ParseTree.span = row.map ParseTree.span ∧ (RowTiled row → RowTiled row') ∧
      (rowLeaves row').map Prod.snd = (rowLeaves row).map Prod.snd
  | [], row', h => by
    cases h
    exact ⟨rfl, id, rfl⟩
  | t :: rest, row', h => by
    obtain ⟨u, us, hu, hus, rfl⟩ := mapRowM?_cons h
    obtain ⟨span, tiled, leaves⟩ := spans_mapM? t u hu
    obtain ⟨spans, others, rowLeaves⟩ := spans_mapRowM? rest us hus
    refine ⟨by rw [List.map_cons, List.map_cons, span, spans],
      fun h => ⟨tiled h.1, others h.2⟩, ?_⟩
    rw [ParseTree.rowLeaves, ParseTree.rowLeaves, List.map_append, List.map_append, leaves,
      rowLeaves]

end

theorem Placed.mapM? {first : Nat} {t : ParseTree α β} {u : ParseTree γ δ} (ht : t.Placed first)
    (h : t.mapM? onBranch onLeaf = .ok u) : u.Placed first := by
  obtain ⟨-, tiled, leaves⟩ := spans_mapM? t u h
  refine ⟨tiled ht.tiled, fun leaf hleaf => ?_, ?_⟩
  · obtain ⟨other, hother, same⟩ := List.mem_map.mp
      (leaves ▸ List.mem_map_of_mem (f := Prod.snd) hleaf)
    rw [← same, ht.single other hother]
  · have heads := congrArg (fun spans => spans.head?.map Prod.fst) leaves
    simp only [List.head?_map, Option.map_map] at heads
    exact heads.trans ht.starts

end ParseTree

theorem Pictures.placed {sentence : Sentence} {item : Item} {t : ParseTree Symbol Symbol}
    (h : Pictures sentence item t) (located : item.first ≤ item.last) : t.Placed item.first where
  tiled := h.tiled
  single leaf hleaf := by
    obtain ⟨⟨token, i⟩, -, rfl⟩ := List.mem_map.mp (h.leaves ▸ hleaf)
    rfl
  starts := by
    have span : t.span = (item.first, item.last + 1) := h.span
    have starts := t.starts_of_tiled h.tiled (by rw [span]; exact Nat.lt_succ_of_le located)
    rwa [span] at starts

/-- A bracketing of names that stand alone tells the tree up to spans. It tells the spans as well
in trees over single words from a given one on, as all are that are read off the items of a
decode, under whatever names. -/
theorem bracketing_determines_tree :
    (∀ t u : ParseTree String String, t.Plain → u.Plain →
      (t.bracketed = u.bracketed ↔ t.Alike u)) ∧
    (∀ (t u : ParseTree String String) (first : Nat), t.Plain → u.Plain → t.Placed first →
      u.Placed first → t.bracketed = u.bracketed → t = u) ∧
    ∀ (g : Grammar) (earlier : List Sentence) (sentence : Sentence) (chart : Chart) (index : Nat)
      (item : Item) (t : ParseTree Symbol Symbol),
      (Decoder.after g earlier).Visits sentence chart → chart.arena.items[index]? = some item →
      chart.arena.tree index = .ok t →
      t.Placed item.first ∧ ∀ (onBranch onLeaf : Symbol → Span → Except Fault String)
        (u : ParseTree String String), t.mapM? onBranch onLeaf = .ok u → u.Placed item.first := by
  have determines (t u : ParseTree String String) (ht : t.Plain) (hu : u.Plain)
      (h : t.bracketed = u.bracketed) : t.Alike u :=
    (ParseTree.bracketed_append_inj t u ht hu (r := []) (s := []) nofun nofun
      (by rw [h])).1
  refine ⟨fun t u ht hu => ⟨determines t u ht hu, fun alike => alike.bracketed_eq t u⟩,
    fun t u first ht hu placed placed' h => placed.eq_of_alike placed' (determines t u ht hu h),
    fun g earlier sentence chart index item t visited stored htree => ?_⟩
  have built := visited.sound_after.built
  have hbuilt := Arena.built?_of_items stored
  obtain ⟨t', htree', pictures⟩ := built.exists_tree hbuilt
  obtain rfl : t = t' := Except.ok.inj (htree.symm.trans htree')
  have placed : t.Placed item.first := pictures.placed (built.located hbuilt).first_le_last
  exact ⟨placed, fun _ _ _ renamed => placed.mapM? renamed⟩

namespace Sample

def tree (first : Nat) : ParseTree String String :=
  .branch "X" (first, first + 3) [
    .branch "B" (first, first + 1) [.leaf "b" (first, first + 1)],
    .branch "A" (first + 1, first + 2) [.leaf "a" (first + 1, first + 2)],
    .branch "B" (first + 2, first + 3) [.leaf "b" (first + 2, first + 3)]]

end Sample

/-- The tree of the stopped item over `b a b` is known from its bracketing; its bracketing does not
tell it from the same tree further on. -/
theorem sample_bracketing : (Sample.tree 0).Alike (Sample.tree 5) ∧
    ∃ chart item t u, (Decoder.after Sample.grammar []).Visits Sample.sentence chart ∧
      chart.arena.items[7]? = some item ∧ chart.arena.tree 7 = .ok t ∧
      t.mapM? (fun label _ => Sample.table.symbols.name label)
        (fun word _ => Sample.table.symbols.name word) = .ok u ∧
      u.bracketed = "(X (B b) (A a) (B b))" ∧ u = Sample.tree 0 := by
  obtain ⟨alike, determines, extracted⟩ := bracketing_determines_tree
  have shown : (Sample.tree 0).bracketed = "(X (B b) (A a) (B b))" := by decide +kernel
  have plain (first : Nat) : (Sample.tree first).Plain := by
    have names : ∀ name ∈ ["X", "A", "B", "a", "b"], Unbracketed name := by decide
    simp [Sample.tree, ParseTree.Plain, ParseTree.RowPlain, names]
  refine ⟨(alike (Sample.tree 0) (Sample.tree 5) (plain 0) (plain 5)).mp
    (by decide +kernel), ?_⟩
  obtain ⟨chart, visited, h⟩ := Decoder.exists_visited Sample.grammar Sample.sentence
    (fun chart => chart.arena.items[7]?.any fun item => item.first = 0 &&
      match chart.arena.tree 7 with
      | .error _ => false
      | .ok t => match t.mapM? (fun label _ => Sample.table.symbols.name label)
          (fun word _ => Sample.table.symbols.name word) with
        | .error _ => false
        | .ok u => u.Plain && u.bracketed = "(X (B b) (A a) (B b))")
    (by decide +kernel) (by decide +kernel)
  obtain ⟨item, stored, h⟩ := (Option.any_eq_true _ _).mp h
  obtain ⟨begins, h⟩ := (Bool.and_eq_true _ _).mp h
  split at h
  · cases h
  · rename_i t htree
    split at h
    · cases h
    · rename_i u renamed
      simp only [Bool.and_eq_true, decide_eq_true_eq] at begins h
      have placed : u.Placed 0 := begins ▸ (extracted Sample.grammar [] Sample.sentence chart 7 item
        t visited stored htree).2 _ _ u renamed
      have expected : (Sample.tree 0).Placed 0 :=
        ⟨by simp [Sample.tree, ParseTree.Tiled, ParseTree.RowTiled, Tiles, ParseTree.span],
          by decide, rfl⟩
      exact ⟨chart, item, t, u, visited, stored, htree, renamed, h.2,
        determines u (Sample.tree 0) 0 h.1 (plain 0) placed expected
          (h.2.trans shown.symm)⟩

end HeadDriven
