import HeadDriven.Proofs.Model.Licences
import HeadDriven.Proofs.Names

/-! One model text in two tables, with list frames and with bag frames. The tables agree but for
the frames of their head events: a bag event has the labels of a list event in order of their ids.
Unless two head statements differ in the order of their frames only, no two list events become one
bag event, so either table licenses what the other does. -/
namespace HeadDriven

namespace Frame

/-- A frame of one kind that requires the labels of another frame equally often. -/
structure Recasts (kind : FrameKind) (f f' : Frame) : Prop where
  kind : f'.kind = kind
  labels : f.labels.Perm f'.labels

variable {kind : FrameKind} {f f' : Frame}

theorem insertSorted_perm (label : Symbol) (labels : List Symbol) :
    (insertSorted label labels).Perm (label :: labels) := by
  induction labels with
  | nil => exact .refl _
  | cons s labels ih =>
    rw [insertSorted]
    split
    · exact (ih.cons s).trans (.swap _ _ _)
    · exact .refl _

theorem add_recasts (h : f.Recasts kind f') (label : Symbol) :
    (⟨f.kind, f.labels ++ [label]⟩ : Frame).Recasts kind (f'.add label) := by
  have appended : (f.labels ++ [label]).Perm (f'.labels ++ [label]) := h.labels.append_right _
  unfold add
  split
  · exact ⟨h.kind, (appended.trans (List.perm_append_singleton _ _)).trans
      (insertSorted_perm _ _).symm⟩
  · exact ⟨h.kind, appended⟩

theorem ofList_list (labels : List Symbol) : ofList .list labels = ⟨.list, labels⟩ := by
  suffices general : ∀ seen, labels.foldl add ⟨.list, seen⟩ = ⟨.list, seen ++ labels⟩ from
    general []
  induction labels with
  | nil => simp
  | cons label labels ih =>
    intro seen
    rw [List.foldl_cons, add, ih, List.append_assoc, List.singleton_append]

theorem ofList_recasts (kind : FrameKind) (f : Frame) : f.Recasts kind (ofList kind f.labels) := by
  obtain ⟨other, labels⟩ := f
  suffices general : ∀ seen (f : Frame), (⟨other, seen⟩ : Frame).Recasts kind f →
      (⟨other, seen ++ labels⟩ : Frame).Recasts kind (labels.foldl add f) from
    general [] _ ⟨rfl, .refl _⟩
  induction labels with
  | nil => simp
  | cons label labels ih =>
    intro seen f h
    have := ih _ _ (add_recasts h label)
    rwa [List.append_assoc, List.singleton_append] at this

theorem perm_of_ofList (h : ofList kind f.labels = ofList kind f'.labels) :
    f.labels.Perm f'.labels :=
  (ofList_recasts kind f).labels.trans (h ▸ (ofList_recasts kind f').labels.symm)

theorem Recasts.contains (h : f.Recasts kind f') (label : Symbol) :
    f'.contains label = f.contains label :=
  h.labels.symm.contains_eq

theorem Recasts.isEmpty (h : f.Recasts kind f') : f'.isEmpty = f.isEmpty :=
  h.labels.symm.isEmpty_eq

theorem Recasts.erase (h : f.Recasts kind f') (label : Symbol) :
    (f.erase label).Recasts kind (f'.erase label) := by
  rw [erase_eq, erase_eq]
  exact ⟨h.kind, h.labels.erase label⟩

theorem Recasts.symm (h : f.Recasts kind f') : f'.Recasts f.kind f := ⟨rfl, h.labels.symm⟩

theorem Recasts.eq_empty {other : FrameKind} (h : (empty other).Recasts kind f') :
    f' = empty kind := by
  obtain ⟨kind', labels'⟩ := f'
  obtain ⟨same, perm⟩ := h
  rw [Frame.mk.injEq]
  exact ⟨same, List.nil_perm.mp perm⟩

end Frame

namespace SymbolTable

variable {t u : SymbolTable} {name : String} {names names' : List String} {s : Symbol}
  {symbols symbols' : List Symbol}

def Extends (u t : SymbolTable) : Prop := ∀ name s, t.get? name = some s → u.get? name = some s

theorem Extends.refl (t : SymbolTable) : t.Extends t := fun _ _ h => h

theorem Extends.trans {v : SymbolTable} (h : v.Extends u) (h' : u.Extends t) : v.Extends t :=
  fun name s found => h name s (h' name s found)

theorem intern_extends (t : SymbolTable) (name : String) : (t.intern name).1.Extends t := by
  intro other s found
  cases known : t.get? name with
  | some s' => rwa [intern_of_get? known]
  | none =>
    have differ : other ≠ name := fun same => by
      rw [same, known] at found
      cases found
    rwa [intern_of_fresh known, get?_enter, if_neg differ]

theorem get?_intern (t : SymbolTable) (name : String) :
    (t.intern name).1.get? name = some (t.intern name).2 := by
  cases known : t.get? name with
  | some s => rwa [intern_of_get? known]
  | none => rw [intern_of_fresh known, get?_enter, if_pos rfl]

theorem eq_of_get? {name' : String} (h : t.get? name = some s) (h' : t.get? name' = some s) :
    name = name' :=
  Option.some.inj ((name?_of_get? h).symm.trans (name?_of_get? h'))

def Spells (t : SymbolTable) (names : List String) (symbols : List Symbol) : Prop :=
  List.Forall₂ (fun name s => t.get? name = some s) names symbols

theorem Spells.extend (h : t.Spells names symbols) (ext : u.Extends t) :
    u.Spells names symbols :=
  h.imp fun _ _ => ext _ _

theorem internAll_append (t : SymbolTable) (names others : List String) :
    (t.internAll (names ++ others)).1 = ((t.internAll names).1.internAll others).1 := by
  induction names generalizing t with
  | nil => rfl
  | cons name names ih => exact ih _

theorem internAll_extends (t : SymbolTable) (names : List String) :
    (t.internAll names).1.Extends t := by
  induction names generalizing t with
  | nil => exact .refl t
  | cons name names ih => exact (ih _).trans (t.intern_extends name)

theorem spells_internAll (t : SymbolTable) (names : List String) :
    (t.internAll names).1.Spells names (t.internAll names).2 := by
  induction names generalizing t with
  | nil => exact .nil
  | cons name names ih =>
    exact .cons (internAll_extends _ names _ _ (t.get?_intern name)) (ih _)

theorem Spells.filterMap_get? (h : t.Spells names symbols) :
    names.filterMap t.get? = symbols := by
  induction h with
  | nil => rfl
  | cons found _ ih => rw [List.filterMap_cons_some found, ih]

theorem Spells.filterMap_name? (h : t.Spells names symbols) :
    symbols.filterMap t.name? = names := by
  induction h with
  | nil => rfl
  | cons found _ ih => rw [List.filterMap_cons_some (name?_of_get? found), ih]

theorem Spells.unique (h : t.Spells names symbols) (h' : t.Spells names symbols') :
    symbols = symbols' :=
  h.filterMap_get?.symm.trans h'.filterMap_get?

theorem Spells.perm (h : t.Spells names symbols) (h' : t.Spells names' symbols')
    (perm : symbols.Perm symbols') : names.Perm names' := by
  rw [← h.filterMap_name?, ← h'.filterMap_name?]
  exact perm.filterMap _

end SymbolTable

namespace Model

/-- Two statements that are not head statements of one parent and head label with frames that
differ in their order only. -/
def Statement.FramesApart : Statement → Statement → Prop
  | .head parent headLabel left right _, .head parent' headLabel' left' right' _ =>
    parent = parent' → headLabel = headLabel' → left.Perm left' → right.Perm right' →
      left = left' ∧ right = right'
  | _, _ => True

instance (s s' : Statement) : Decidable (s.FramesApart s') := by
  unfold Statement.FramesApart
  split <;> infer_instance

def HeadKey.Names (symbols : SymbolTable) (key : HeadKey) : Statement → Prop
  | .head parent headLabel left right _ =>
    symbols.get? parent = some key.parent ∧ symbols.get? headLabel = some key.headLabel ∧
      symbols.Spells left key.left.labels ∧ symbols.Spells right key.right.labels ∧
      key.left.kind = .list ∧ key.right.kind = .list
  | _ => False

def HeadKey.bagged (key : HeadKey) : HeadKey :=
  { key with
    left := Frame.ofList .bag key.left.labels
    right := Frame.ofList .bag key.right.labels }

variable {symbols symbols' : SymbolTable} {key key' : HeadKey} {s s' : Statement}
  {statements : List Statement}

theorem HeadKey.Names.extend (h : key.Names symbols s) (ext : symbols'.Extends symbols) :
    key.Names symbols' s := by
  cases s with
  | head parent headLabel left right logProb =>
    obtain ⟨hparent, hlabel, hleft, hright, kinds⟩ := h
    exact ⟨ext _ _ hparent, ext _ _ hlabel, hleft.extend ext, hright.extend ext, kinds⟩
  | tags | prior | modifier | stop => exact h.elim

theorem HeadKey.Names.kinds (h : key.Names symbols s) :
    key.left.kind = .list ∧ key.right.kind = .list := by
  cases s with
  | head => exact h.2.2.2.2
  | tags | prior | modifier | stop => exact h.elim

theorem HeadKey.Names.eq_of_names {parent headLabel : String} {left right : List String}
    {v v' : Float} (h : key.Names symbols (.head parent headLabel left right v))
    (h' : key'.Names symbols (.head parent headLabel left right v')) : key = key' := by
  obtain ⟨_, _, ⟨_, _⟩, ⟨_, _⟩⟩ := key
  obtain ⟨_, _, ⟨_, _⟩, ⟨_, _⟩⟩ := key'
  obtain ⟨hparent, hlabel, hleft, hright, rfl, rfl⟩ := h
  obtain ⟨hparent', hlabel', hleft', hright', rfl, rfl⟩ := h'
  obtain rfl := Option.some.inj (hparent.symm.trans hparent')
  obtain rfl := Option.some.inj (hlabel.symm.trans hlabel')
  obtain rfl := hleft.unique hleft'
  obtain rfl := hright.unique hright'
  rfl

/-- Of statements whose frames are apart, no two enter list events that make one bag event. -/
theorem HeadKey.Names.eq_of_bagged (h : key.Names symbols s) (h' : key'.Names symbols s')
    (apart : s.FramesApart s') (same : key.bagged = key'.bagged) : key = key' := by
  cases s with
  | tags | prior | modifier | stop => exact h.elim
  | head parent headLabel left right logProb =>
    cases s' with
    | tags | prior | modifier | stop => exact h'.elim
    | head parent' headLabel' left' right' logProb' =>
      simp only [bagged, HeadKey.mk.injEq] at same
      obtain ⟨sameParent, sameLabel, sameLeft, sameRight⟩ := same
      have hparent : parent = parent' :=
        SymbolTable.eq_of_get? h.1 (sameParent ▸ h'.1)
      have hlabel : headLabel = headLabel' :=
        SymbolTable.eq_of_get? h.2.1 (sameLabel ▸ h'.2.1)
      subst hparent hlabel
      obtain ⟨rfl, rfl⟩ := apart rfl rfl
        (h.2.2.1.perm h'.2.2.1 (Frame.perm_of_ofList sameLeft))
        (h.2.2.2.1.perm h'.2.2.2.1 (Frame.perm_of_ofList sameRight))
      exact h.eq_of_names h'

namespace Table

def Spelled (t : Table) (statements : List Statement) : Prop :=
  ∀ r ∈ t.heads, ∃ s ∈ statements, r.1.Names t.symbols s

/-- A table with list frames and one with bag frames that hold the same statements. -/
structure Twins (lists bags : Table) : Prop where
  listFrames : lists.frames = .list
  bagFrames : bags.frames = .bag
  symbols : bags.symbols = lists.symbols
  nonterminals : bags.nonterminals = lists.nonterminals
  tags : bags.tags = lists.tags
  modifiers : bags.modifiers = lists.modifiers
  stops : bags.stops = lists.stops
  heads : bags.heads = lists.heads.map fun r => (r.1.bagged, r.2)

variable {t lists bags : Table}

theorem symbols_add_extends (t : Table) (s : Statement) : (t.add s).symbols.Extends t.symbols := by
  cases s with
  | tags word tags =>
    exact (SymbolTable.internAll_extends _ tags).trans (t.symbols.intern_extends word)
  | prior label word logProb =>
    cases word with
    | none => exact t.symbols.intern_extends label
    | some word => exact (SymbolTable.intern_extends _ word).trans (t.symbols.intern_extends label)
  | head parent headLabel left right logProb =>
    exact (SymbolTable.internAll_extends _ right).trans
      ((SymbolTable.internAll_extends _ left).trans
        ((SymbolTable.intern_extends _ headLabel).trans (t.symbols.intern_extends parent)))
  | modifier parent headLabel side modLabel logProb =>
    exact (SymbolTable.intern_extends _ modLabel).trans
      ((SymbolTable.intern_extends _ headLabel).trans (t.symbols.intern_extends parent))
  | stop parent headLabel side logProb =>
    exact (SymbolTable.intern_extends _ headLabel).trans (t.symbols.intern_extends parent)

theorem Twins.add (twins : Twins lists bags) (s : Statement) :
    Twins (lists.add s) (bags.add s) := by
  cases s with
  | tags word tags =>
    refine { twins with symbols := ?_, tags := ?_ }
    all_goals simp only [Table.add, addTags, twins.symbols, twins.tags]
  | prior label word logProb =>
    cases word with
    | none | some =>
      refine { twins with symbols := ?_ }
      simp only [Table.add, addPrior, twins.symbols]
  | head parent headLabel left right logProb =>
    refine { twins with symbols := ?_, nonterminals := ?_, heads := ?_ }
    · simp only [Table.add, addHead, twins.symbols]
    · simp only [Table.add, addHead, twins.symbols, twins.nonterminals]
    · simp only [Table.add, addHead, twins.symbols, twins.heads, twins.listFrames,
        twins.bagFrames, List.map_cons, HeadKey.bagged, Frame.ofList_list]
  | modifier parent headLabel side modLabel logProb =>
    refine { twins with symbols := ?_, modifiers := ?_ }
    all_goals simp only [Table.add, addModifier, twins.symbols, twins.modifiers]
  | stop parent headLabel side logProb =>
    refine { twins with symbols := ?_, stops := ?_ }
    all_goals simp only [Table.add, addStop, twins.symbols, twins.stops]

theorem Spelled.add (spelled : t.Spelled statements) (frames : t.frames = .list)
    (hs : s ∈ statements) : (t.add s).Spelled statements := by
  have before (r) (hr : r ∈ t.heads) : ∃ s' ∈ statements, r.1.Names (t.add s).symbols s' := by
    obtain ⟨s', hs', names⟩ := spelled r hr
    exact ⟨s', hs', names.extend (t.symbols_add_extends s)⟩
  cases s with
  | tags | modifier | stop => exact before
  | prior label word => cases word <;> exact before
  | head parent headLabel left right logProb =>
    intro r hr
    rcases List.mem_cons.mp hr with rfl | hr
    · have kind : Frame.ofList t.frames = fun labels => ⟨.list, labels⟩ := by
        funext labels
        rw [frames, Frame.ofList_list]
      simp only [Table.add, addHead, kind]
      refine ⟨_, hs, ?_, ?_, ?_, ?_, rfl, rfl⟩
      · exact SymbolTable.internAll_extends _ right _ _ (SymbolTable.internAll_extends _ left _ _
          (SymbolTable.intern_extends _ headLabel _ _ (t.symbols.get?_intern parent)))
      · exact SymbolTable.internAll_extends _ right _ _ (SymbolTable.internAll_extends _ left _ _
          (SymbolTable.get?_intern _ headLabel))
      · exact (SymbolTable.spells_internAll _ left).extend (SymbolTable.internAll_extends _ right)
      · exact SymbolTable.spells_internAll _ right
    · exact before r hr

theorem twins_ofStatements (statements : List Statement) :
    Twins (ofStatements .list statements) (ofStatements .bag statements) ∧
      (ofStatements .list statements).Spelled statements := by
  refine List.foldl_rel (r := fun lists bags => Twins lists bags ∧ lists.Spelled statements)
    ⟨⟨rfl, rfl, rfl, rfl, rfl, rfl, rfl, rfl⟩, ?_⟩ ?_
  · exact fun r hr => absurd hr List.not_mem_nil
  · intro s hs lists bags ⟨twins, spelled⟩
    exact ⟨twins.add s, spelled.add twins.listFrames hs⟩

/-- Each head event of the one table is licensed by the other with its frames recast, and all else
is the same. -/
structure Recasts (t t' : Table) : Prop where
  nonterminals : t'.nonterminals = t.nonterminals
  tags : t'.tags = t.tags
  modifiers : t'.modifiers = t.modifiers
  stops : t'.stops = t.stops
  heads : ∀ {parent headLabel left right v},
    Licensed (t.heads.lookup ⟨parent, headLabel, left, right⟩) v →
      ∃ left' right', left.Recasts t'.frames left' ∧ right.Recasts t'.frames right' ∧
        Licensed (t'.heads.lookup ⟨parent, headLabel, left', right'⟩) v

theorem lookup_map {α β γ : Type} [DecidableEq α] [DecidableEq β] {f : α → β} {k : α}
    {l : List (α × γ)} (own : ∀ r ∈ l, f r.1 = f k → r.1 = k) :
    (l.map fun r => (f r.1, r.2)).lookup (f k) = l.lookup k := by
  induction l with
  | nil => rfl
  | cons r l ih =>
    rw [List.map_cons, List.lookup_cons, List.lookup_cons,
      ih fun r' hr' => own r' (List.mem_cons_of_mem _ hr')]
    by_cases h : k = r.1
    · rw [h, beq_self_eq_true, beq_self_eq_true]
    · have renamed : f k ≠ f r.1 := fun same => h (own r List.mem_cons_self same.symm).symm
      rw [beq_false_of_ne h, beq_false_of_ne renamed]

section Twins

variable (twins : Twins lists bags) (spelled : lists.Spelled statements)
  (apart : ∀ s ∈ statements, ∀ s' ∈ statements, s.FramesApart s')

include twins spelled apart

theorem Twins.lookup {r : HeadKey × Float} (hr : r ∈ lists.heads) :
    bags.heads.lookup r.1.bagged = lists.heads.lookup r.1 := by
  rw [twins.heads]
  refine lookup_map fun r' hr' same => ?_
  obtain ⟨s, hs, names⟩ := spelled r hr
  obtain ⟨s', hs', names'⟩ := spelled r' hr'
  exact names'.eq_of_bagged names (apart s' hs' s hs) same

theorem Twins.recasts_bags : lists.Recasts bags where
  nonterminals := twins.nonterminals
  tags := twins.tags
  modifiers := twins.modifiers
  stops := twins.stops
  heads := by
    intro parent headLabel left right v event
    have bagged := twins.lookup spelled apart (mem_of_lookup event.found)
    refine ⟨_, _, ?_, ?_, bagged ▸ event⟩
    all_goals
      rw [twins.bagFrames]
      exact Frame.ofList_recasts .bag _

theorem Twins.recasts_lists : bags.Recasts lists where
  nonterminals := twins.nonterminals.symm
  tags := twins.tags.symm
  modifiers := twins.modifiers.symm
  stops := twins.stops.symm
  heads := by
    intro parent headLabel left right v event
    have hmem := mem_of_lookup event.found
    rw [twins.heads] at hmem
    obtain ⟨r, hr, same⟩ := List.mem_map.mp hmem
    obtain ⟨rfl, rfl, rfl, rfl⟩ := HeadKey.mk.inj (Prod.mk.inj same).1
    obtain ⟨s, -, names⟩ := spelled r hr
    obtain ⟨leftKind, rightKind⟩ := names.kinds
    refine ⟨r.1.left, r.1.right, ?_, ?_, twins.lookup spelled apart hr ▸ event⟩
    · rw [twins.listFrames, ← leftKind]
      exact (Frame.ofList_recasts .bag r.1.left).symm
    · rw [twins.listFrames, ← rightKind]
      exact (Frame.ofList_recasts .bag r.1.right).symm

end Twins

end Table

end Model

end HeadDriven
