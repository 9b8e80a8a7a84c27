import HeadDriven.Model.Table
import HeadDriven.Proofs.Model.Reading
import HeadDriven.Proofs.Search.Rows

/-! What a table licenses. A table of discounting statements gives a discounting model, in
which every prior is certain if no statement gives one; whatever head event it licenses has
frames that it knows for the context, so the search comes upon all of them. The futures of a
table hold all its modifiers, whatever the statements were. -/
namespace HeadDriven.Model

/-- A log probability that was looked up and makes its event possible. -/
structure Licensed (found : Option Float) (logProb : Float) : Prop where
  found : found = some logProb
  possible : isImpossible logProb = false

def Statement.isPrior : Statement → Bool
  | .prior _ _ _ => true
  | _ => false

variable {found : Option Float} {v : Float}

theorem isImpossible_logOfZero : isImpossible logOfZero = true := by decide +kernel

theorem licensed_iff : Licensed found v ↔
    isImpossible (found.getD logOfZero) = false ∧ v = found.getD logOfZero := by
  constructor
  · rintro ⟨rfl, possible⟩
    exact ⟨possible, rfl⟩
  · rintro ⟨possible, rfl⟩
    cases found with
    | none => exact absurd possible (by rw [Option.getD_none, isImpossible_logOfZero]; decide)
    | some v => exact ⟨rfl, possible⟩

theorem mem_of_lookup {α β : Type} [DecidableEq α] {k : α} {b : β} {l : List (α × β)}
    (h : l.lookup k = some b) : (k, b) ∈ l := by
  obtain ⟨before, after, rfl, -⟩ := List.lookup_eq_some_iff.mp h
  simp

theorem le_zero_of_possible (possible : isImpossible v = false) (h : ¬0.0 < v) : v ≤ 0.0 := by
  simp only [isImpossible, Bool.or_eq_false_iff] at possible
  exact LogProb.le_zero_of_not possible.1 h

theorem Licensed.le_zero {α : Type} [DecidableEq α] {k : α} {l : List (α × Float)}
    (h : Licensed (l.lookup k) v) (hl : ∀ r ∈ l, ¬0.0 < r.2) : v ≤ 0.0 :=
  le_zero_of_possible h.possible (hl (k, v) (mem_of_lookup h.found))

namespace Table

/-- A table filled by discounting statements. -/
structure Discounting (t : Table) : Prop where
  priors : ∀ r ∈ t.priors, ¬0.0 < r.2
  heads : ∀ r ∈ t.heads, ¬0.0 < r.2
  modifiers : ∀ r ∈ t.modifiers, ¬0.0 < r.2
  stops : ∀ r ∈ t.stops, ¬0.0 < r.2
  frames : ∀ r ∈ t.heads,
    r.1.left ∈ seenAt t.possibleFrames ⟨.left, r.1.parent, r.1.headLabel⟩ ∧
      r.1.right ∈ seenAt t.possibleFrames ⟨.right, r.1.parent, r.1.headLabel⟩

variable {t : Table} {s : Statement}

theorem Discounting.add (h : t.Discounting) (hs : s.Discounts) : (t.add s).Discounting := by
  cases s with
  | tags word tags => exact { h with }
  | prior label word logProb =>
    cases word with
    | none | some =>
      refine { h with priors := fun r hr => ?_ }
      rcases List.mem_cons.mp hr with rfl | hr
      · exact hs _ rfl
      · exact h.priors r hr
  | head parent headLabel left right logProb =>
    refine { h with heads := fun r hr => ?_, frames := fun r hr => ?_ }
    · rcases List.mem_cons.mp hr with rfl | hr
      · exact hs _ rfl
      · exact h.heads r hr
    · rcases List.mem_cons.mp hr with rfl | hr
      · exact ⟨mem_seenAt_addSeen.mpr (Or.inl (mem_seenAt_addSeen.mpr (Or.inr ⟨rfl, rfl⟩))),
          mem_seenAt_addSeen.mpr (Or.inr ⟨rfl, rfl⟩)⟩
      · have known {c : CoarseHistory} {f : Frame} (hf : f ∈ seenAt t.possibleFrames c) :
            f ∈ seenAt (t.addHead parent headLabel left right logProb).possibleFrames c :=
          mem_seenAt_addSeen.mpr (Or.inl (mem_seenAt_addSeen.mpr (Or.inl hf)))
        exact ⟨known (h.frames r hr).1, known (h.frames r hr).2⟩
  | modifier parent headLabel side modLabel logProb =>
    refine { h with modifiers := fun r hr => ?_ }
    rcases List.mem_cons.mp hr with rfl | hr
    · exact hs _ rfl
    · exact h.modifiers r hr
  | stop parent headLabel side logProb =>
    refine { h with stops := fun r hr => ?_ }
    rcases List.mem_cons.mp hr with rfl | hr
    · exact hs _ rfl
    · exact h.stops r hr

theorem discounting_ofStatements {frames : FrameKind} {statements : List Statement}
    (hs : ∀ s ∈ statements, s.Discounts) : (ofStatements frames statements).Discounting := by
  suffices general : ∀ t : Table, t.Discounting → (statements.foldl Table.add t).Discounting from
    general _ ⟨by simp [empty], by simp [empty], by simp [empty], by simp [empty], by simp [empty]⟩
  induction statements with
  | nil => exact fun t h => h
  | cons s statements ih =>
    intro t h
    exact ih (fun s' h' => hs s' (List.mem_cons_of_mem _ h')) _ (h.add (hs s List.mem_cons_self))

theorem discounting_ofText {frames : FrameKind} {text : String}
    (read : ofText frames text = .ok t) : t.Discounting := by
  obtain ⟨statements, hstatements, rfl⟩ := Outcome.map_eq_ok.mp read
  exact discounting_ofStatements (discounts_of_readStatements hstatements)

theorem priors_add (h : s.isPrior = false) : (t.add s).priors = t.priors := by
  cases s with
  | prior => cases h
  | tags | head | modifier | stop => rfl

theorem prior_ofStatements {frames : FrameKind} {statements : List Statement}
    (h : ∀ s ∈ statements, s.isPrior = false) (e : PriorEvent) :
    (ofStatements frames statements).model.prior e = 0.0 := by
  have none : ∀ t : Table, (statements.foldl Table.add t).priors = t.priors := by
    induction statements with
    | nil => exact fun t => rfl
    | cons s statements ih =>
      intro t
      rw [List.foldl_cons, ih fun s' h' => h s' (List.mem_cons_of_mem _ h'),
        priors_add (h s List.mem_cons_self)]
  show Table.prior _ e = 0.0
  rw [Table.prior, ofStatements, none]
  rfl

theorem prior_mem (t : Table) (e : PriorEvent) :
    (∃ key, (key, t.prior e) ∈ t.priors) ∨ t.prior e = 0.0 := by
  unfold Table.prior
  cases own : t.priors.lookup ⟨e.label, some e.word.word⟩ with
  | some v => exact Or.inl ⟨_, mem_of_lookup own⟩
  | none =>
    cases shared : t.priors.lookup ⟨e.label, none⟩ with
    | some v => exact Or.inl ⟨_, mem_of_lookup shared⟩
    | none => exact Or.inr rfl

theorem Discounting.prior (h : t.Discounting) (e : PriorEvent)
    (possible : isImpossible (t.prior e) = false) : t.prior e ≤ 0.0 := by
  rcases t.prior_mem e with ⟨key, hmem⟩ | certain
  · have below : ¬0.0 < t.prior e := h.priors (key, t.prior e) hmem
    exact le_zero_of_possible possible below
  · rw [certain]
    exact LogProb.zero_le_zero

theorem Discounting.model (h : t.Discounting) : t.model.Discounts where
  prior := h.prior
  head _ possible := (licensed_iff.mpr ⟨possible, rfl⟩).le_zero h.heads
  modifier _ possible := (licensed_iff.mpr ⟨possible, rfl⟩).le_zero h.modifiers
  stop _ possible := (licensed_iff.mpr ⟨possible, rfl⟩).le_zero h.stops

theorem futurePossible_of_possible (t : Table) {e : ModifierEvent}
    (possible : isImpossible (t.model.modifier e) = false) :
    t.model.futurePossible e.coarseHistory e.future = true := by
  have found := (licensed_iff.mpr ⟨possible, rfl⟩).found
  exact List.contains_iff_mem.mpr (t.foreseen _ (mem_of_lookup found))

theorem Discounting.possibleFrames (h : t.Discounting) {parent headLabel : Symbol}
    {left right : Frame} (event : Licensed (t.heads.lookup ⟨parent, headLabel, left, right⟩) v)
    (word : TaggedWord) :
    left ∈ t.model.possibleFrames .left ⟨word, parent, headLabel⟩ ∧
      right ∈ t.model.possibleFrames .right ⟨word, parent, headLabel⟩ :=
  h.frames _ (mem_of_lookup event.found)

end Table

end HeadDriven.Model
