import HeadDriven.Proofs.Model.Entering

/-! What a table answers. Questions and statements are both in names here, and symbols stand for
names as the table has them. What a table answers to a question is what the statements about it
say, and the last of them where they say different things; statements about anything else make no
difference. -/
namespace HeadDriven.Model

inductive Topic where
  | tags (word : String)
  | prior (label : String) (word : Option String)
  | head (parent headLabel : String) (left right : List String)
  | frames (parent headLabel : String)
  | modifier (parent headLabel : String) (side : Side) (modLabel : String)
  | stop (parent headLabel : String) (side : Side)

namespace Statement

/-- A statement about a topic. A head statement is about its event and about the frames of its
parent and head label. -/
def IsAbout (kind : FrameKind) : Topic → Statement → Prop
  | .tags word, .tags word' _ => word = word'
  | .prior label word, .prior label' word' _ => label = label' ∧ word = word'
  | .head parent headLabel left right, .head parent' headLabel' left' right' _ =>
    parent = parent' ∧ headLabel = headLabel' ∧ kind.Same left left' ∧ kind.Same right right'
  | .frames parent headLabel, .head parent' headLabel' _ _ _ =>
    parent = parent' ∧ headLabel = headLabel'
  | .modifier parent headLabel side modLabel, .modifier parent' headLabel' side' modLabel' _ =>
    parent = parent' ∧ headLabel = headLabel' ∧ side = side' ∧ modLabel = modLabel'
  | .stop parent headLabel side, .stop parent' headLabel' side' _ =>
    parent = parent' ∧ headLabel = headLabel' ∧ side = side'
  | _, _ => False

instance (kind : FrameKind) (topic : Topic) : DecidablePred (IsAbout kind topic) :=
  match topic with
  | .tags word => fun
    | .prior .. | .head .. | .modifier .. | .stop .. => inferInstanceAs (Decidable False)
    | .tags word' _ => inferInstanceAs (Decidable (word = word'))
  | .prior .. => fun
    | .prior .. => inferInstanceAs (Decidable (_ ∧ _))
    | .tags .. | .head .. | .modifier .. | .stop .. => inferInstanceAs (Decidable False)
  | .head .. | .frames .. => fun
    | .head .. => inferInstanceAs (Decidable (_ ∧ _))
    | .tags .. | .prior .. | .modifier .. | .stop .. => inferInstanceAs (Decidable False)
  | .modifier .. => fun
    | .modifier .. => inferInstanceAs (Decidable (_ ∧ _))
    | .tags .. | .prior .. | .head .. | .stop .. => inferInstanceAs (Decidable False)
  | .stop .. => fun
    | .stop .. => inferInstanceAs (Decidable (_ ∧ _))
    | .tags .. | .prior .. | .head .. | .modifier .. => inferInstanceAs (Decidable False)

def listed : Statement → List String
  | .tags _ all => all
  | _ => []

def frame? (side : Side) : Statement → Option (List String)
  | .head _ _ left right _ => some (match side with
    | .left => left
    | .right => right)
  | _ => none

def parent? : Statement → Option String
  | .head parent _ _ _ _ => some parent
  | _ => none

end Statement

def about (kind : FrameKind) (topic : Topic) (statements : List Statement) : List Statement :=
  statements.filter (·.IsAbout kind topic)

def lastLogProb? (statements : List Statement) : Option Float :=
  statements.getLast?.bind Statement.logProb?

namespace Table

variable {s : Statement} {sym : String → Symbol} {kind : FrameKind} {statements : List Statement}
  {topic : Topic}

section Looking

variable {seen : List Statement}

theorem about_append_of (h : s.IsAbout kind topic) :
    about kind topic (seen ++ [s]) = about kind topic seen ++ [s] := by
  rw [about, List.filter_append, List.filter_singleton, decide_eq_true h]
  rfl

theorem about_append_of_not (h : ¬s.IsAbout kind topic) :
    about kind topic (seen ++ [s]) = about kind topic seen := by
  rw [about, List.filter_append, List.filter_singleton, decide_eq_false h]
  exact List.append_nil _

theorem lastLogProb?_append (s : Statement) :
    lastLogProb? (about kind topic (seen ++ [s])) =
      if s.IsAbout kind topic then s.logProb? else lastLogProb? (about kind topic seen) := by
  split
  · rename_i own
    rw [about_append_of own, lastLogProb?, List.getLast?_concat, Option.bind_some]
  · rename_i other
    rw [about_append_of_not other]

/-- What each statement about a topic overrides is what the last of them says. -/
theorem lookup_ofStatements {f : Table → Option Float} (start : f (empty kind) = none)
    (step : ∀ (t : Table) (s : Statement), t.frames = kind → (t.add s).symbols.Resolves sym →
      f (t.add s) = if s.IsAbout kind topic then s.logProb? else f t)
    (h : (ofStatements kind statements).symbols.Resolves sym) :
    f (ofStatements kind statements) = lastLogProb? (about kind topic statements) := by
  refine ofStatements_induction
    (P := fun t seen => f t = lastLogProb? (about kind topic seen)) start ?_ h
  intro t seen s frames h before
  rw [step t s frames h, before, lastLogProb?_append]

variable (h : (ofStatements kind statements).symbols.Resolves sym)

include h

theorem lookup_heads (parent headLabel : String) (left right : List String) :
    (ofStatements kind statements).heads.lookup ⟨sym parent, sym headLabel,
        Frame.ofNames kind sym left, Frame.ofNames kind sym right⟩ =
      lastLogProb? (about kind (.head parent headLabel left right) statements) := by
  refine lookup_ofStatements (f := fun t => t.heads.lookup _) rfl (fun t s frames h => ?_) h
  cases s with
  | tags | modifier | stop => exact (if_neg id).symm
  | prior label word => cases word <;> exact (if_neg id).symm
  | head parent' headLabel' left' right' v =>
    have known := knows_names h
    simp only [Statement.names, List.forall_mem_cons, List.forall_mem_append] at known
    obtain ⟨isParent, isLabel, lefts, rights⟩ := known
    rw [(entries_add_head h).1, lookup_cons_eq, frames]
    refine if_congr ?_ rfl rfl
    rw [HeadKey.mk.injEq, h.eq_iff isParent, h.eq_iff isLabel, Frame.ofNames_eq_iff h lefts,
      Frame.ofNames_eq_iff h rights]
    rfl

theorem lookup_modifiers (parent headLabel : String) (side : Side) (modLabel : String) :
    (ofStatements kind statements).modifiers.lookup
        ⟨⟨side, sym parent, sym headLabel⟩, sym modLabel⟩ =
      lastLogProb? (about kind (.modifier parent headLabel side modLabel) statements) := by
  refine lookup_ofStatements (f := fun t => t.modifiers.lookup _) rfl (fun t s _ h => ?_) h
  cases s with
  | tags | head | stop => exact (if_neg id).symm
  | prior label word => cases word <;> exact (if_neg id).symm
  | modifier parent' headLabel' side' modLabel' v =>
    have known := knows_names h
    simp only [Statement.names, List.forall_mem_cons] at known
    obtain ⟨isParent, isLabel, isModifier, -⟩ := known
    rw [(entries_add_modifier h).1, lookup_cons_eq]
    refine if_congr ?_ rfl rfl
    rw [ModifierKey.mk.injEq, CoarseHistory.mk.injEq, h.eq_iff isParent, h.eq_iff isLabel,
      h.eq_iff isModifier]
    simp only [Statement.IsAbout]
    tauto

theorem lookup_stops (parent headLabel : String) (side : Side) :
    (ofStatements kind statements).stops.lookup ⟨side, sym parent, sym headLabel⟩ =
      lastLogProb? (about kind (.stop parent headLabel side) statements) := by
  refine lookup_ofStatements (f := fun t => t.stops.lookup _) rfl (fun t s _ h => ?_) h
  cases s with
  | tags | head | modifier => exact (if_neg id).symm
  | prior label word => cases word <;> exact (if_neg id).symm
  | stop parent' headLabel' side' v =>
    have known := knows_names h
    simp only [Statement.names, List.forall_mem_cons] at known
    obtain ⟨isParent, isLabel, -⟩ := known
    rw [entries_add_stop h, lookup_cons_eq]
    refine if_congr ?_ rfl rfl
    rw [CoarseHistory.mk.injEq, h.eq_iff isParent, h.eq_iff isLabel]
    simp only [Statement.IsAbout]
    tauto

theorem lookup_priors (label : String) (word : Option String) :
    (ofStatements kind statements).priors.lookup ⟨sym label, word.map sym⟩ =
      lastLogProb? (about kind (.prior label word) statements) := by
  refine lookup_ofStatements (f := fun t => t.priors.lookup _) rfl (fun t s _ h => ?_) h
  cases s with
  | tags | head | modifier | stop => exact (if_neg id).symm
  | prior label' word' v =>
    have known := knows_names h
    simp only [Statement.names, List.forall_mem_cons] at known
    obtain ⟨isLabel, words⟩ := known
    rw [entries_add_prior h, lookup_cons_eq]
    refine if_congr ?_ rfl rfl
    have sameWord : word.map sym = word'.map sym ↔ word = word' := by
      cases word' with
      | none => simp
      | some own => cases word <;> simp [h.eq_iff (words own (by simp))]
    rw [PriorKey.mk.injEq, h.eq_iff isLabel, sameWord]
    rfl

theorem lookup_tags (word : String) :
    ((ofStatements kind statements).tags.lookup (sym word)).getD [] =
      ((about kind (.tags word) statements).flatMap Statement.listed).eraseDups.map sym := by
  refine ofStatements_induction
    (P := fun t seen => (t.tags.lookup (sym word)).getD [] =
      ((about kind (.tags word) seen).flatMap Statement.listed).eraseDups.map sym) rfl ?_ h
  intro t seen s _ h before
  cases s with
  | head | modifier | stop => rwa [about_append_of_not id]
  | prior label word => cases word <;> rwa [about_append_of_not id]
  | tags word' all =>
    obtain ⟨isWord, known⟩ := List.forall_mem_cons.mp (knows_names h)
    rw [entries_add_tags h, lookup_cons_eq]
    by_cases own : (Statement.tags word' all).IsAbout kind (.tags word)
    · rw [about_append_of own]
      obtain rfl : word = word' := own
      rw [if_pos rfl, Option.getD_some, before,
        foldl_appendNew_map fun tag htag other => h.eq_iff (known tag htag), foldl_appendNew,
        List.flatMap_append, List.flatMap_singleton]
      rfl
    · rwa [if_neg (mt (h.eq_iff isWord).mp own), about_append_of_not own]

theorem seenAt_possibleFrames (side : Side) (parent headLabel : String) :
    seenAt (ofStatements kind statements).possibleFrames ⟨side, sym parent, sym headLabel⟩ =
      (((about kind (.frames parent headLabel) statements).filterMap (·.frame? side)).map
        (Frame.ofNames kind sym)).eraseDups := by
  refine ofStatements_induction
    (P := fun t seen => seenAt t.possibleFrames ⟨side, sym parent, sym headLabel⟩ =
      (((about kind (.frames parent headLabel) seen).filterMap (·.frame? side)).map
        (Frame.ofNames kind sym)).eraseDups) rfl ?_ h
  intro t seen s frames h before
  cases s with
  | tags | modifier | stop => rwa [about_append_of_not id]
  | prior label word => cases word <;> rwa [about_append_of_not id]
  | head parent' headLabel' left right v =>
    have known := knows_names h
    simp only [Statement.names, List.forall_mem_cons] at known
    obtain ⟨isParent, isLabel, -⟩ := known
    rw [(entries_add_head h).2.1, seenAt_addSeen, seenAt_addSeen, before, frames]
    -- A head statement writes to one key on each side: the one asked about, or neither matters.
    by_cases own : (Statement.head parent' headLabel' left right v).IsAbout kind
        (.frames parent headLabel)
    · rw [about_append_of own, List.filterMap_append, List.map_append]
      obtain ⟨rfl, rfl⟩ := own
      cases side with
      | left => simp [Statement.frame?, eraseDups_concat]
      | right => simp [Statement.frame?, eraseDups_concat]
    · have other (side' : Side) : (⟨side, sym parent, sym headLabel⟩ : CoarseHistory) ≠
          ⟨side', sym parent', sym headLabel'⟩ := by
        rw [ne_eq, CoarseHistory.mk.injEq, h.eq_iff isParent, h.eq_iff isLabel]
        exact fun all => own all.2
      rw [if_neg (other _), if_neg (other _), about_append_of_not own]

theorem mem_futures (side : Side) (parent headLabel modLabel : String) :
    sym modLabel ∈ seenAt (ofStatements kind statements).futures
        ⟨side, sym parent, sym headLabel⟩ ↔
      about kind (.modifier parent headLabel side modLabel) statements ≠ [] := by
  refine ofStatements_induction
    (P := fun t seen => sym modLabel ∈ seenAt t.futures ⟨side, sym parent, sym headLabel⟩ ↔
      about kind (.modifier parent headLabel side modLabel) seen ≠ [])
    (by simp [seenAt, empty, about]) ?_ h
  intro t seen s _ h before
  cases s with
  | tags | head | stop => rwa [about_append_of_not id]
  | prior label word => cases word <;> rwa [about_append_of_not id]
  | modifier parent' headLabel' side' modLabel' v =>
    have known := knows_names h
    simp only [Statement.names, List.forall_mem_cons] at known
    obtain ⟨isParent, isLabel, isModifier, -⟩ := known
    rw [(entries_add_modifier h).2, mem_seenAt_addSeen, before, CoarseHistory.mk.injEq,
      h.eq_iff isParent, h.eq_iff isLabel, h.eq_iff isModifier]
    by_cases own : (Statement.modifier parent' headLabel' side' modLabel' v).IsAbout kind
        (.modifier parent headLabel side modLabel)
    · rw [about_append_of own]
      obtain ⟨rfl, rfl, rfl, rfl⟩ := own
      simp
    · rw [about_append_of_not own]
      refine or_iff_left fun all => own ?_
      obtain ⟨⟨rfl, rfl, rfl⟩, rfl⟩ := all
      exact ⟨rfl, rfl, rfl, rfl⟩

theorem nonterminals_ofStatements :
    (ofStatements kind statements).nonterminals.Pairwise (·.id < ·.id) ∧
      ∀ label, label ∈ (ofStatements kind statements).nonterminals ↔
        ∃ parent ∈ statements.filterMap Statement.parent?,
          sym parent ≠ Symbol.top ∧ sym parent = label := by
  refine ofStatements_induction
    (P := fun t seen => t.nonterminals.Pairwise (·.id < ·.id) ∧ ∀ label, label ∈ t.nonterminals ↔
      ∃ parent ∈ seen.filterMap Statement.parent?, sym parent ≠ Symbol.top ∧ sym parent = label)
    ⟨.nil, fun label => by simp [empty]⟩ ?_ h
  rintro t seen s _ h ⟨ordered, members⟩
  rw [List.filterMap_append]
  cases s with
  | tags | modifier | stop =>
    rw [show [_].filterMap Statement.parent? = [] from rfl, List.append_nil]
    exact ⟨ordered, members⟩
  | prior label word =>
    rw [show [_].filterMap Statement.parent? = [] from rfl, List.append_nil]
    cases word <;> exact ⟨ordered, members⟩
  | head parent headLabel left right v =>
    rw [(entries_add_head h).2.2]
    simp only [List.mem_append, or_and_right, exists_or, ← members]
    split
    · rename_i top
      refine ⟨ordered, fun label => (or_iff_left ?_).symm⟩
      rintro ⟨_, h, notTop, -⟩
      obtain rfl := List.mem_singleton.mp h
      exact notTop top
    · rename_i notTop
      refine ⟨insertNew_ordered ordered, fun label => ?_⟩
      rw [mem_insertNew_iff, or_comm]
      refine or_congr_right ⟨?_, ?_⟩
      · rintro rfl
        exact ⟨parent, List.mem_singleton_self _, notTop, rfl⟩
      · rintro ⟨_, h, -, rfl⟩
        obtain rfl := List.mem_singleton.mp h
        rfl

theorem nodup_nonterminals : (ofStatements kind statements).nonterminals.Nodup :=
  (nonterminals_ofStatements h).1.imp fun before same => by
    rw [same] at before
    exact Nat.lt_irrefl _ before

theorem knows_flatMap_names :
    ∀ name ∈ statements.flatMap Statement.names,
      (ofStatements kind statements).symbols.Knows (sym name) := by
  refine ofStatements_induction
    (P := fun t seen => ∀ name ∈ seen.flatMap Statement.names, t.symbols.Knows (sym name))
    (fun _ hname => absurd hname List.not_mem_nil) ?_ h
  intro t seen s _ h before name hname
  rw [List.flatMap_append, List.flatMap_singleton] at hname
  rcases List.mem_append.mp hname with hname | hname
  · refine (before name hname).grows ?_
    rw [symbols_add]
    exact (SymbolTable.internAll_spec s.names t.symbols).1
  · exact knows_names h name hname

end Looking

theorem symbols_ofStatements_extends (kind : FrameKind) (statements : List Statement) :
    (ofStatements kind statements).symbols.Extends SymbolTable.empty := by
  suffices general : ∀ t : Table, (statements.foldl Table.add t).symbols.Extends t.symbols from
    general (empty kind)
  induction statements with
  | nil => exact fun t => .refl _
  | cons s statements ih => exact fun t => (ih _).trans (t.symbols_add_extends s)

theorem resolves_top (h : (ofStatements kind statements).symbols.Resolves sym) (name : String) :
    sym name = Symbol.top ↔ name = "+TOP+" := by
  have found := symbols_ofStatements_extends kind statements "+TOP+" Symbol.top
    (by decide +kernel)
  have top := h.known _ _ found
  rw [← top] at found ⊢
  exact h.eq_iff (SymbolTable.knows_of_get? found)

/-- What a table answers. Each answer is made of the statements about what is asked, whatever
symbols stand for names that the table does not have; names and frames that differ are never asked
for as one. -/
structure Answers (t : Table) (kind : FrameKind) (sym : String → Symbol)
    (statements : List Statement) : Prop where
  head : ∀ word parent headLabel left right,
    t.model.head ⟨⟨word, sym parent, sym headLabel⟩, Frame.ofNames kind sym left,
        Frame.ofNames kind sym right⟩ =
      (lastLogProb? (about kind (.head parent headLabel left right) statements)).getD logOfZero
  modifier : ∀ (e : ModifierEvent) parent headLabel modLabel,
    t.model.modifier { e with
        parent := sym parent, headLabel := sym headLabel, modLabel := sym modLabel } =
      (lastLogProb? (about kind (.modifier parent headLabel e.side modLabel) statements)).getD
        logOfZero
  stop : ∀ (e : ModifierEvent) parent headLabel,
    t.model.stop { e with parent := sym parent, headLabel := sym headLabel } =
      (lastLogProb? (about kind (.stop parent headLabel e.side) statements)).getD logOfZero
  prior : ∀ word tag label,
    t.model.prior ⟨⟨sym word, tag⟩, sym label⟩ =
      ((lastLogProb? (about kind (.prior label (some word)) statements)).or
        (lastLogProb? (about kind (.prior label none) statements))).getD 0.0
  tags : ∀ word,
    t.model.tags (sym word) =
      ((about kind (.tags word) statements).flatMap Statement.listed).eraseDups.map sym
  possibleFrames : ∀ side word parent headLabel,
    t.model.possibleFrames side ⟨word, sym parent, sym headLabel⟩ =
      (((about kind (.frames parent headLabel) statements).filterMap (·.frame? side)).map
        (Frame.ofNames kind sym)).eraseDups
  futurePossible : ∀ side parent headLabel modLabel tag,
    t.model.futurePossible ⟨side, sym parent, sym headLabel⟩ ⟨sym modLabel, tag⟩ = true ↔
      about kind (.modifier parent headLabel side modLabel) statements ≠ []
  nonterminals : t.model.nonterminals.Nodup
  parents : ∀ label, label ∈ t.model.nonterminals ↔
    ∃ parent ∈ statements.filterMap Statement.parent?, parent ≠ "+TOP+" ∧ sym parent = label
  apart : ∀ name ∈ statements.flatMap Statement.names, ∀ other, sym other = sym name → other = name
  framesApart : ∀ names others, (∀ name ∈ names, name ∈ statements.flatMap Statement.names) →
    (Frame.ofNames kind sym others = Frame.ofNames kind sym names ↔ kind.Same others names)

/-- A table answers as the statements that fill it say. -/
theorem lookups_agree_with_statements (kind : FrameKind) (statements : List Statement)
    (sym : String → Symbol) (h : (ofStatements kind statements).symbols.Resolves sym) :
    (ofStatements kind statements).Answers kind sym statements where
  head _ parent headLabel left right :=
    congrArg (Option.getD · logOfZero) (lookup_heads h parent headLabel left right)
  modifier e parent headLabel modLabel :=
    congrArg (Option.getD · logOfZero) (lookup_modifiers h parent headLabel e.side modLabel)
  stop e parent headLabel :=
    congrArg (Option.getD · logOfZero) (lookup_stops h parent headLabel e.side)
  prior word _ label := by
    rw [← lookup_priors h, ← lookup_priors h]
    rfl
  tags word := lookup_tags h word
  possibleFrames side _ parent headLabel := seenAt_possibleFrames h side parent headLabel
  futurePossible side parent headLabel modLabel _ :=
    List.contains_iff_mem.trans (mem_futures h side parent headLabel modLabel)
  nonterminals := nodup_nonterminals h
  parents label := by
    simp only [← ne_eq, ← (resolves_top h _).not]
    exact (nonterminals_ofStatements h).2 label
  apart name hname other same := (h.eq_iff (knows_flatMap_names h name hname)).mp same
  framesApart names others known :=
    Frame.ofNames_eq_iff h fun name hname => knows_flatMap_names h name (known name hname)

end Table

namespace Sample

/-- Statements that override each other, one of them with its frame in another order. -/
def overriding : List Statement := [
  .head "X" "A" ["B", "C"] [] (-1.0), .tags "w" ["B", "A", "B"], .prior "X" none (-0.5),
  .head "X" "A" ["C", "B"] [] (-2.0), .tags "w" ["C", "A"], .prior "X" (some "w") (-0.25),
  .modifier "X" "A" .left "C" (-1.0), .stop "X" "A" .left (-1.0), .head "+TOP+" "X" [] [] 0.0]

def overridden : Table := Table.ofStatements .bag overriding

/-- The symbol of a name, or one that no name of the table has. -/
def symbolOf (name : String) : Symbol := (overridden.symbols.get? name).getD ⟨100⟩

end Sample

/-- As a bag, the frame `B C` is the frame `C B`, so the later log probability holds for it. -/
theorem sample_lookups :
    Sample.overridden.symbols.Resolves Sample.symbolOf ∧
      Sample.overridden.Answers .bag Sample.symbolOf Sample.overriding ∧
      (∀ word, Sample.overridden.model.head ⟨⟨word, Sample.symbolOf "X", Sample.symbolOf "A"⟩,
        Frame.ofNames .bag Sample.symbolOf ["B", "C"], Frame.ofNames .bag Sample.symbolOf []⟩ =
          -2.0) ∧
      Sample.overridden.model.tags (Sample.symbolOf "w") =
        ["B", "A", "C"].map Sample.symbolOf := by
  have resolves : Sample.overridden.symbols.Resolves Sample.symbolOf :=
    SymbolTable.resolves_getD (show ¬100 < Sample.overridden.symbols.size by decide +kernel)
  have answers : Sample.overridden.Answers .bag Sample.symbolOf Sample.overriding :=
    Table.lookups_agree_with_statements .bag Sample.overriding Sample.symbolOf resolves
  refine ⟨resolves, answers, fun word => ?_, ?_⟩
  · rw [answers.head]
    decide +kernel
  · rw [answers.tags]
    decide +kernel

end HeadDriven.Model
