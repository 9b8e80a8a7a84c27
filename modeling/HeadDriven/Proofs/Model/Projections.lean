import HeadDriven.Proofs.Derives
import HeadDriven.Proofs.Model.Lookups

/-! Projections by a table. The search asks for every pair of frames that some head statement has
on either side, whether or not any statement has the two together. Still it builds just what the
head statements give for the label of the item: of the pairs that no statement has, none has a
log probability, and the frames of a statement are among those of its parent and head label. -/
namespace HeadDriven

namespace Model.Table

variable {sym : String → Symbol} {kind : FrameKind} {statements : List Statement}

theorem nodup_addSeen {α : Type} [DecidableEq α] {seen : List (CoarseHistory × List α)}
    (h : ∀ context, (seenAt seen context).Nodup) (context : CoarseHistory) (x : α) :
    ∀ other, (seenAt (addSeen seen context x) other).Nodup := by
  intro other
  rw [seenAt_addSeen]
  split
  · exact nodup_appendNew (h other) x
  · exact h other

section Looking

variable (h : (ofStatements kind statements).symbols.Resolves sym)

include h

theorem nodup_possibleFrames (context : CoarseHistory) :
    (seenAt (ofStatements kind statements).possibleFrames context).Nodup := by
  refine ofStatements_induction
    (P := fun t _ => ∀ context, (seenAt t.possibleFrames context).Nodup)
    (fun _ => List.nodup_nil) (fun t _ s _ h before => ?_) h context
  cases s with
  | tags | modifier | stop => exact before
  | prior label word => cases word <;> exact before
  | head parent headLabel left right v =>
    rw [(entries_add_head h).2.1]
    exact nodup_addSeen (nodup_addSeen before _ _) _ _

theorem exists_head {key : HeadKey} {v : Float}
    (hmem : (key, v) ∈ (ofStatements kind statements).heads) :
    ∃ parent headLabel left right, .head parent headLabel left right v ∈ statements ∧
      key = ⟨sym parent, sym headLabel, Frame.ofNames kind sym left,
        Frame.ofNames kind sym right⟩ := by
  refine ofStatements_induction
    (P := fun t seen => ∀ r ∈ t.heads, ∃ parent headLabel left right,
      .head parent headLabel left right r.2 ∈ seen ∧ r.1 = ⟨sym parent, sym headLabel,
        Frame.ofNames kind sym left, Frame.ofNames kind sym right⟩)
    (fun _ hr => absurd hr List.not_mem_nil) (fun t seen s frames h before => ?_) h _ hmem
  have kept (r) (hr : r ∈ t.heads) : ∃ parent headLabel left right,
      .head parent headLabel left right r.2 ∈ seen ++ [s] ∧ r.1 = ⟨sym parent, sym headLabel,
        Frame.ofNames kind sym left, Frame.ofNames kind sym right⟩ := by
    obtain ⟨parent, headLabel, left, right, hs, hkey⟩ := before r hr
    exact ⟨parent, headLabel, left, right, List.mem_append_left _ hs, hkey⟩
  cases s with
  | tags | modifier | stop => exact kept
  | prior label word => cases word <;> exact kept
  | head parent headLabel left right v =>
    rw [(entries_add_head h).1]
    rintro r hr
    rcases List.mem_cons.mp hr with rfl | hr
    · exact ⟨parent, headLabel, left, right, List.mem_append_right _ (List.mem_singleton_self _),
        by rw [frames]⟩
    · exact kept r hr

end Looking

end Model.Table

namespace Grammar

variable {g : Grammar} {index : Nat} {item : Item}

def projectionKey (built : Item) : Symbol × Frame × Frame :=
  (built.label, built.left.frame, built.right.frame)

theorem nodup_projections (nonterminals : g.model.nonterminals.Nodup)
    (frames : ∀ side context, (g.model.possibleFrames side context).Nodup) :
    ((g.projections index item).map projectionKey).Nodup := by
  unfold projections
  split
  · exact List.nodup_nil
  have key {parent : Symbol} {left right : Frame} {built : Item}
      (h : g.projection? index item parent left right = some built) :
      projectionKey built = (parent, left, right) := by
    rw [(projection?_eq_some_iff.mp h).2]
    rfl
  rw [List.Nodup, List.pairwise_map, List.pairwise_flatMap]
  refine ⟨fun parent _ => List.pairwise_flatMap.mpr ⟨fun left _ => ?_, ?_⟩, ?_⟩
  · refine List.pairwise_filterMap.mpr ((frames _ _).imp fun other a ha b hb same => other ?_)
    rw [key ha, key hb] at same
    exact (Prod.mk.inj (Prod.mk.inj same).2).2
  · refine (frames _ _).imp fun other a ha b hb same => other ?_
    obtain ⟨_, -, ha⟩ := List.mem_filterMap.mp ha
    obtain ⟨_, -, hb⟩ := List.mem_filterMap.mp hb
    rw [key ha, key hb] at same
    exact (Prod.mk.inj (Prod.mk.inj same).2).1
  · refine (nonterminals.filter _).imp fun other a ha b hb same => other ?_
    obtain ⟨_, -, ha⟩ := List.mem_flatMap.mp ha
    obtain ⟨_, -, ha⟩ := List.mem_filterMap.mp ha
    obtain ⟨_, -, hb⟩ := List.mem_flatMap.mp hb
    obtain ⟨_, -, hb⟩ := List.mem_filterMap.mp hb
    rw [key ha, key hb] at same
    exact (Prod.mk.inj same).1

end Grammar

section Projecting

open Model Model.Table

/-- A parent with two frames that head statements give for the label of an item, at the log
probability that the last of them gives. The prior of the parent for the head word is possible. -/
structure Model.Projectable (kind : FrameKind) (statements : List Statement)
    (sym : String → Symbol) (g : Grammar) (item : Item) (parent : String)
    (left right : List String) (logProb : Float) : Prop where
  stated : ∃ headLabel own, .head parent headLabel left right own ∈ statements ∧
    sym headLabel = item.label ∧
    lastLogProb? (about kind (.head parent headLabel left right) statements) = some logProb
  notTop : sym parent ≠ g.language.topLabel
  notTopName : parent ≠ "+TOP+"
  event : isImpossible logProb = false
  prior : isImpossible (g.model.prior ⟨item.headWord, sym parent⟩) = false

/-- A finished constituent is projected to what the head statements for its label give, once to
each parent and frames, and to nothing else. -/
theorem projections_enumerate_heads (kind : FrameKind) (statements : List Statement)
    (language : Language) (settings : Settings) (sym : String → Symbol)
    (h : (ofStatements kind statements).symbols.Resolves sym) (index : Nat) (item : Item)
    (live : item.garbage = false) (stopped : item.stopped = true) :
    let g := (ofStatements kind statements).grammar language settings
    ((g.projections index item).map fun built =>
      (built.label, built.left.frame, built.right.frame)).Nodup ∧
    ∀ built, built ∈ g.projections index item ↔
      ∃ parent left right logProb,
        Projectable kind statements sym g item parent left right logProb ∧
        built = { Item.unary (sym parent) index item
            (g.freshSide (Frame.ofNames kind sym left))
            (g.freshSide (Frame.ofNames kind sym right)) with
          logTree := item.logTree + logProb
          logPrior := g.model.prior ⟨item.headWord, sym parent⟩ } := by
  intro g
  have labels := (nonterminals_ofStatements h).2
  refine ⟨Grammar.nodup_projections (nodup_nonterminals h)
    fun side context => nodup_possibleFrames h _, fun built => ?_⟩
  rw [Grammar.mem_projections_iff]
  constructor
  · rintro ⟨-, parent, left, right, projects, rfl⟩
    have event : Licensed ((ofStatements kind statements).heads.lookup
        ⟨parent, item.label, left, right⟩)
        (g.model.head (Grammar.headEvent item parent left right)) :=
      licensed_iff.mpr ⟨projects.event, rfl⟩
    obtain ⟨name, headLabel, lefts, rights, hs, key⟩ := exists_head h (mem_of_lookup event.found)
    obtain ⟨rfl, same, rfl, rfl⟩ := HeadKey.mk.inj key
    have last := event.found
    rw [key, lookup_heads h] at last
    refine ⟨name, lefts, rights, _, ⟨⟨headLabel, _, hs, same.symm, last⟩, projects.notTop, ?_,
      event.possible, projects.prior⟩, rfl⟩
    obtain ⟨_, -, notTop, top⟩ := (labels _).mp projects.nonterminal
    rwa [top, ne_eq, resolves_top h] at notTop
  · rintro ⟨parent, left, right, logProb, ⟨⟨headLabel, own, hs, same, last⟩, notTop, notTopName,
      event, prior⟩, rfl⟩
    have logHead : g.model.head (Grammar.headEvent item (sym parent)
        (Frame.ofNames kind sym left) (Frame.ofNames kind sym right)) = logProb := by
      show ((ofStatements kind statements).heads.lookup ⟨sym parent, item.label,
        Frame.ofNames kind sym left, Frame.ofNames kind sym right⟩).getD logOfZero = logProb
      rw [← same, lookup_heads h, last, Option.getD_some]
    have frame (side : Side) (names : List String)
        (own : (Statement.head parent headLabel left right own).frame? side = some names) :
        Frame.ofNames kind sym names ∈
          g.model.possibleFrames side ⟨item.headWord, sym parent, item.label⟩ := by
      show _ ∈ seenAt (ofStatements kind statements).possibleFrames
        ⟨side, sym parent, item.label⟩
      rw [← same, seenAt_possibleFrames h, List.mem_eraseDups]
      refine List.mem_map_of_mem (List.mem_filterMap.mpr ⟨_, List.mem_filter.mpr ⟨hs, ?_⟩, own⟩)
      exact decide_eq_true ⟨rfl, rfl⟩
    refine ⟨live, sym parent, _, _, ⟨stopped, ?_, notTop, prior, frame .left left rfl,
      frame .right right rfl, ?_⟩, ?_⟩
    · exact (labels _).mpr ⟨parent, List.mem_filterMap.mpr ⟨_, hs, rfl⟩,
        (resolves_top h parent).not.mpr notTopName, rfl⟩
    · rwa [logHead]
    · rw [Grammar.projected, logHead]

end Projecting

namespace Sample

/-- Two pairs of frames for `X` over `A`, one of them given twice. -/
def framed : List Model.Statement := [
  .head "X" "A" ["B"] [] (-1.0), .head "X" "A" [] ["C"] (-2.0), .head "X" "A" ["B"] [] (-3.0),
  .head "+TOP+" "A" [] [] 0.0]

def framedSymbol (name : String) : Symbol :=
  ((Model.Table.ofStatements .list framed).symbols.get? name).getD ⟨100⟩

def framedGrammar : Grammar :=
  (Model.Table.ofStatements .list framed).grammar Language.plain Settings.default

def framedWord : Item :=
  Item.preterminal ⟨⟨50⟩, framedSymbol "A"⟩ 0 (framedGrammar.freshSide (Frame.empty .list)) 0.0

end Sample

/-- A pair of frames that was given twice is built once, at the log probability given last. -/
theorem sample_projections :
    (Model.Table.ofStatements .list Sample.framed).symbols.Resolves Sample.framedSymbol ∧
      Sample.framedWord.garbage = false ∧ Sample.framedWord.stopped = true ∧
      ((Sample.framedGrammar.projections 0 Sample.framedWord).map fun built =>
        (built.label, built.left.frame, built.right.frame)).Nodup ∧
      ∃ built ∈ Sample.framedGrammar.projections 0 Sample.framedWord,
        built.left.frame = Frame.ofNames .list Sample.framedSymbol ["B"] ∧
          built.logTree = 0.0 + -3.0 := by
  have resolves : (Model.Table.ofStatements .list Sample.framed).symbols.Resolves
      Sample.framedSymbol :=
    SymbolTable.resolves_getD
      (show ¬100 < (Model.Table.ofStatements .list Sample.framed).symbols.size by decide +kernel)
  obtain ⟨distinct, members⟩ := projections_enumerate_heads .list Sample.framed Language.plain
    Settings.default Sample.framedSymbol resolves 0 Sample.framedWord rfl rfl
  refine ⟨resolves, rfl, rfl, distinct, _, (members _).mpr ⟨"X", ["B"], [], -3.0,
    ⟨⟨"A", -1.0, by decide +kernel, rfl, by decide +kernel⟩, by decide +kernel, by decide,
      by decide +kernel, by decide +kernel⟩, rfl⟩, rfl, rfl⟩

end HeadDriven
