import HeadDriven.Proofs.Model.Resolving

/-! What a statement enters into a table, told with the symbols that the filled table has for the
names of the statement. A table is filled statement by statement, so what holds of the empty table
and goes on to hold with one more statement holds of every table. -/
namespace HeadDriven.Model

def Statement.names : Statement → List String
  | .tags word all => word :: all
  | .prior label word _ => label :: word.toList
  | .head parent headLabel left right _ => parent :: headLabel :: (left ++ right)
  | .modifier parent headLabel _ modLabel _ => [parent, headLabel, modLabel]
  | .stop parent headLabel _ _ => [parent, headLabel]

namespace Table

variable {t : Table} {s : Statement} {sym : String → Symbol} {kind : FrameKind}
  {statements : List Statement}

theorem frames_add (t : Table) (s : Statement) : (t.add s).frames = t.frames := by
  cases s with
  | prior label word => cases word <;> rfl
  | tags | head | modifier | stop => rfl

theorem symbols_add (t : Table) (s : Statement) :
    (t.add s).symbols = (t.symbols.internAll s.names).1 := by
  cases s with
  | prior label word => cases word <;> rfl
  | head parent headLabel left right => exact (SymbolTable.internAll_append _ left right).symm
  | tags | modifier | stop => rfl

theorem resolves_of_add (h : (t.add s).symbols.Resolves sym) : t.symbols.Resolves sym := by
  rw [symbols_add] at h
  exact h.internAll.1

theorem knows_names (h : (t.add s).symbols.Resolves sym) :
    ∀ name ∈ s.names, (t.add s).symbols.Knows (sym name) := by
  rw [symbols_add] at h ⊢
  intro name hname
  refine (SymbolTable.internAll_spec s.names t.symbols).2 _ ?_
  rw [h.internAll.2]
  exact List.mem_map_of_mem hname

/-- What holds of the empty table, and of each table with one more statement, holds of all. -/
theorem ofStatements_induction {P : Table → List Statement → Prop} (start : P (empty kind) [])
    (step : ∀ t seen s, t.frames = kind → (t.add s).symbols.Resolves sym → P t seen →
      P (t.add s) (seen ++ [s]))
    (h : (ofStatements kind statements).symbols.Resolves sym) :
    P (ofStatements kind statements) statements := by
  suffices general : (ofStatements kind statements).frames = kind ∧
      P (ofStatements kind statements) statements from general.2
  induction statements using List.reverseRecOn with
  | nil => exact ⟨rfl, start⟩
  | append_singleton seen s ih =>
    have last : ofStatements kind (seen ++ [s]) = (ofStatements kind seen).add s :=
      List.foldl_append
    rw [last] at h ⊢
    obtain ⟨frames, before⟩ := ih (resolves_of_add h)
    exact ⟨(frames_add _ s).trans frames, step _ _ s frames h before⟩

theorem lookup_cons_eq {α β : Type} [DecidableEq α] (k k' : α) (b : β) (l : List (α × β)) :
    ((k', b) :: l).lookup k = if k = k' then some b else l.lookup k := by
  rw [List.lookup_cons]
  by_cases h : k = k'
  · rw [if_pos h, h, beq_self_eq_true]
  · rw [if_neg h, beq_false_of_ne h]

section Distinct

variable {α β : Type} [DecidableEq α] [DecidableEq β]

theorem nodup_appendNew {xs : List α} (h : xs.Nodup) (x : α) :
    (appendNew xs x).Nodup := by
  unfold appendNew
  split
  · exact h
  · rename_i fresh
    exact List.concat_eq_append ▸ h.concat fresh

theorem eraseDups_concat (xs : List α) (x : α) :
    (xs ++ [x]).eraseDups = appendNew xs.eraseDups x := by
  rw [List.eraseDups_append, appendNew]
  by_cases h : x ∈ xs <;> simp [h, List.removeAll, List.eraseDups_cons]

theorem foldl_appendNew (xs seen : List α) :
    xs.foldl appendNew seen.eraseDups = (seen ++ xs).eraseDups := by
  induction xs generalizing seen with
  | nil => rw [List.append_nil, List.foldl_nil]
  | cons x xs ih =>
    rw [List.foldl_cons, ← eraseDups_concat, ih, List.append_assoc, List.singleton_append]

theorem foldl_appendNew_map {f : α → β} {xs : List α} (own : ∀ x ∈ xs, ∀ y, f y = f x ↔ y = x)
    (seen : List α) :
    (xs.map f).foldl appendNew (seen.map f) = (xs.foldl appendNew seen).map f := by
  induction xs generalizing seen with
  | nil => rfl
  | cons x xs ih =>
    obtain ⟨first, rest⟩ := List.forall_mem_cons.mp own
    have step : appendNew (seen.map f) (f x) = (appendNew seen x).map f := by
      have same : f x ∈ seen.map f ↔ x ∈ seen := by simp [List.mem_map, first]
      simp only [appendNew, same]
      split
      · rfl
      · rw [List.map_append, List.map_singleton]
    rw [List.map_cons, List.foldl_cons, List.foldl_cons, step, ih rest]

theorem seenAt_addSeen (seen : List (CoarseHistory × List α)) (context other : CoarseHistory)
    (x : α) : seenAt (addSeen seen context x) other =
      if other = context then appendNew (seenAt seen other) x else seenAt seen other := by
  rw [addSeen, seenAt, lookup_cons_eq]
  split
  · rename_i same
    rw [same]
    rfl
  · rfl

theorem mem_insertNew_iff {label other : Symbol} {labels : List Symbol} :
    other ∈ insertNew label labels ↔ other = label ∨ other ∈ labels := by
  refine ⟨mem_insertNew, fun h => ?_⟩
  induction labels with
  | nil => exact List.mem_singleton.mpr (h.resolve_right List.not_mem_nil)
  | cons s labels ih => grind [insertNew]

theorem insertNew_ordered {label : Symbol} {labels : List Symbol}
    (h : labels.Pairwise (·.id < ·.id)) : (insertNew label labels).Pairwise (·.id < ·.id) := by
  induction labels with
  | nil => exact List.pairwise_singleton _ _
  | cons s labels ih =>
    obtain ⟨below, rest⟩ := List.pairwise_cons.mp h
    rw [insertNew]
    split
    · rename_i before
      refine List.pairwise_cons.mpr ⟨fun other hother => ?_, ih rest⟩
      rcases mem_insertNew hother with rfl | hother
      · exact before
      · exact below other hother
    · split
      · exact h
      · rename_i notBefore other
        have behind : label.id < s.id := by
          refine Nat.lt_of_le_of_ne (Nat.le_of_not_lt notBefore) fun same => other ?_
          cases s
          cases label
          exact congrArg Symbol.mk same.symm
        refine List.pairwise_cons.mpr ⟨fun other hother => ?_, h⟩
        rcases List.mem_cons.mp hother with rfl | hother
        · exact behind
        · exact Nat.lt_trans behind (below other hother)

end Distinct

section Entering

variable {word label parent headLabel modLabel : String} {all left right : List String}
  {any : Option String} {side : Side} {v : Float}

theorem entries_add_tags (h : (t.add (.tags word all)).symbols.Resolves sym) :
    (t.add (.tags word all)).tags =
      (sym word, (all.map sym).foldl appendNew ((t.tags.lookup (sym word)).getD [])) :: t.tags := by
  have h : ((t.symbols.intern word).1.internAll all).1.Resolves sym := h
  obtain ⟨h, rest⟩ := h.internAll
  obtain ⟨-, first⟩ := h.intern
  simp only [add, addTags, rest, first]

theorem entries_add_prior (h : (t.add (.prior label any v)).symbols.Resolves sym) :
    (t.add (.prior label any v)).priors = (⟨sym label, any.map sym⟩, v) :: t.priors := by
  cases any with
  | none =>
    have h : (t.symbols.intern label).1.Resolves sym := h
    simp only [add, addPrior, h.intern.2, Option.map_none]
  | some word =>
    have h : ((t.symbols.intern label).1.intern word).1.Resolves sym := h
    obtain ⟨h, last⟩ := h.intern
    obtain ⟨-, first⟩ := h.intern
    simp only [add, addPrior, first, last, Option.map_some]

theorem entries_add_head (h : (t.add (.head parent headLabel left right v)).symbols.Resolves sym) :
    let added := t.add (.head parent headLabel left right v)
    let left := Frame.ofNames t.frames sym left
    let right := Frame.ofNames t.frames sym right
    added.heads = (⟨sym parent, sym headLabel, left, right⟩, v) :: t.heads ∧
      added.possibleFrames =
        addSeen (addSeen t.possibleFrames ⟨.left, sym parent, sym headLabel⟩ left)
          ⟨.right, sym parent, sym headLabel⟩ right ∧
      added.nonterminals =
        if sym parent = Symbol.top then t.nonterminals
        else insertNew (sym parent) t.nonterminals := by
  have h : ((((t.symbols.intern parent).1.intern headLabel).1.internAll left).1.internAll
    right).1.Resolves sym := h
  obtain ⟨h, fourth⟩ := h.internAll
  obtain ⟨h, third⟩ := h.internAll
  obtain ⟨h, second⟩ := h.intern
  obtain ⟨-, first⟩ := h.intern
  simp only [add, addHead, first, second, third, fourth, Frame.ofNames, and_self]

theorem entries_add_modifier
    (h : (t.add (.modifier parent headLabel side modLabel v)).symbols.Resolves sym) :
    let added := t.add (.modifier parent headLabel side modLabel v)
    let context : CoarseHistory := ⟨side, sym parent, sym headLabel⟩
    added.modifiers = (⟨context, sym modLabel⟩, v) :: t.modifiers ∧
      added.futures = addSeen t.futures context (sym modLabel) := by
  have h : (((t.symbols.intern parent).1.intern headLabel).1.intern modLabel).1.Resolves sym := h
  obtain ⟨h, third⟩ := h.intern
  obtain ⟨h, second⟩ := h.intern
  obtain ⟨-, first⟩ := h.intern
  simp only [add, addModifier, first, second, third, and_self]

theorem entries_add_stop (h : (t.add (.stop parent headLabel side v)).symbols.Resolves sym) :
    (t.add (.stop parent headLabel side v)).stops =
      (⟨side, sym parent, sym headLabel⟩, v) :: t.stops := by
  have h : ((t.symbols.intern parent).1.intern headLabel).1.Resolves sym := h
  obtain ⟨h, second⟩ := h.intern
  obtain ⟨-, first⟩ := h.intern
  simp only [add, addStop, first, second]

end Entering

end Table

end HeadDriven.Model
