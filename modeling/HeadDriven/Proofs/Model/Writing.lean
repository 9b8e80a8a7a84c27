import HeadDriven.Proofs.Model.Layout

/-! Writing and reading model texts. A statement is written as a keyword and its parts, with a
semicolon behind it. However a list of well-formed statements is laid out, reading the text gives
the list again, and no text gives a list with any other statement. -/
namespace HeadDriven.Model

def IsLogProb (v : Float) : Prop := v ≤ 0.0 ∧ ∃ n : Numeral, n.value = v

def Statement.WellFormed : Statement → Prop
  | .tags word listed => IsName word ∧ listed ≠ [] ∧ ∀ tag ∈ listed, IsName tag
  | .prior label word logProb =>
    IsName label ∧ (∀ w ∈ word, IsName w ∧ w ≠ "*") ∧ IsLogProb logProb
  | .head parent headLabel left right logProb =>
    IsName parent ∧ IsName headLabel ∧ (∀ label ∈ left, IsName label) ∧
      (∀ label ∈ right, IsName label) ∧ IsLogProb logProb
  | .modifier parent headLabel _ modLabel logProb =>
    IsName parent ∧ IsName headLabel ∧ IsName modLabel ∧ IsLogProb logProb
  | .stop parent headLabel _ logProb => IsName parent ∧ IsName headLabel ∧ IsLogProb logProb

def frameLexemes (names : List String) : List Lexeme :=
  .mark '[' :: (names.map .name ++ [.mark ']'])

/-- The lexemes that write a statement. Its log probability may be written as any number with that
value; a prior of every word has an asterisk for its word. -/
inductive Statement.Spells : Statement → List Lexeme → Prop where
  | tags (word : String) (listed : List String) :
      Spells (.tags word listed) (.name "tags" :: .name word :: listed.map .name)
  | prior (label : String) (word : Option String) (n : Numeral) :
      Spells (.prior label word n.value)
        [.name "prior", .name label, .name (word.getD "*"), .mark '=', .number n]
  | head (parent headLabel : String) (left right : List String) (n : Numeral) :
      Spells (.head parent headLabel left right n.value)
        ([.name "head", .name parent, .name headLabel] ++ frameLexemes left ++ frameLexemes right ++
          [.mark '=', .number n])
  | modifier (parent headLabel : String) (side : Side) (modLabel : String) (n : Numeral) :
      Spells (.modifier parent headLabel side modLabel n.value)
        [.name "mod", .name parent, .name headLabel, .name side.name, .name modLabel, .mark '=',
          .number n]
  | stop (parent headLabel : String) (side : Side) (n : Numeral) :
      Spells (.stop parent headLabel side n.value)
        [.name "stop", .name parent, .name headLabel, .name side.name, .mark '=', .number n]

/-- The lexemes that write statements in order, each with a semicolon behind it. -/
inductive SpellsAll : List Statement → List Lexeme → Prop where
  | nil : SpellsAll [] []
  | cons {s : Statement} {more : List Statement} {first rest : List Lexeme}
      (spells : s.Spells first) (h : SpellsAll more rest) :
      SpellsAll (s :: more) (first ++ .mark ';' :: rest)

variable {s : Statement} {lexemes : List Lexeme} {text : List Char}

section Writing

variable {word label parent headLabel modLabel : String} {tags left right : List String}
  {any : Option String} {side : Side} {n : Numeral}

theorem Laid.readTagsBody (h : Laid (.name word :: (tags.map .name ++ .mark ';' :: lexemes)) text)
    (listed : tags ≠ []) :
    ∃ rest, Takes (readTagsBody text) (.tags word tags) rest ∧
      Front (.mark ';' :: lexemes) rest := by
  obtain ⟨middle, takes, front⟩ := h.readSpacedName
  obtain ⟨bound, read⟩ := takes.exists_eq
  obtain ⟨rest, takes', front'⟩ := front.readTags
  obtain ⟨bound', read'⟩ := takes'.exists_eq
  refine ⟨rest, ?_, front'⟩
  simp only [Takes, Model.readTagsBody, read, read', Outcome.ok_bind, if_neg listed]
  rfl

theorem Laid.readPriorBody
    (h : Laid (.name label :: .name (any.getD "*") :: .mark '=' :: .number n :: .mark ';' ::
      lexemes) text)
    (own : ∀ w ∈ any, w ≠ "*") (discounts : n.value ≤ 0.0) :
    ∃ rest, Takes (readPriorBody text) (.prior label any n.value) rest ∧
      Laid (.mark ';' :: lexemes) rest := by
  obtain ⟨middle, bound, read, front⟩ := h.readPair
  obtain ⟨rest, takes, laid⟩ := front.readLogProb discounts
  obtain ⟨bound', read'⟩ := takes.exists_eq
  refine ⟨rest, ?_, laid⟩
  have shared : priorWord (any.getD "*") = any := by
    cases any with
    | none => rfl
    | some w => exact if_neg (own w rfl)
  simp only [Takes, Model.readPriorBody, read, read', Outcome.ok_bind, shared]
  rfl

theorem Laid.readHeadBody
    (h : Laid (.name parent :: .name headLabel :: (frameLexemes left ++ (frameLexemes right ++
      .mark '=' :: .number n :: .mark ';' :: lexemes))) text)
    (discounts : n.value ≤ 0.0) :
    ∃ rest, Takes (readHeadBody text) (.head parent headLabel left right n.value) rest ∧
      Laid (.mark ';' :: lexemes) rest := by
  simp only [frameLexemes, List.cons_append, List.append_assoc, List.nil_append] at h
  obtain ⟨text₁, bound₁, read₁, front⟩ := h.readPair
  obtain ⟨text₂, takes₂, laid⟩ := front.readFrame
  obtain ⟨bound₂, read₂⟩ := takes₂.exists_eq
  obtain ⟨text₃, takes₃, laid⟩ := laid.front.readFrame
  obtain ⟨bound₃, read₃⟩ := takes₃.exists_eq
  obtain ⟨rest, takes₄, laid⟩ := laid.front.readLogProb discounts
  obtain ⟨bound₄, read₄⟩ := takes₄.exists_eq
  refine ⟨rest, ?_, laid⟩
  simp only [Takes, Model.readHeadBody, read₁, read₂, read₃, read₄, Outcome.ok_bind]
  rfl

theorem Laid.readModifierBody
    (h : Laid (.name parent :: .name headLabel :: .name side.name :: .name modLabel :: .mark '=' ::
      .number n :: .mark ';' :: lexemes) text)
    (discounts : n.value ≤ 0.0) :
    ∃ rest, Takes (readModifierBody text) (.modifier parent headLabel side modLabel n.value) rest ∧
      Laid (.mark ';' :: lexemes) rest := by
  obtain ⟨text₁, bound₁, read₁, front⟩ := h.readPair
  obtain ⟨text₂, takes₂, laid⟩ := front.readSide
  obtain ⟨bound₂, read₂⟩ := takes₂.exists_eq
  obtain ⟨text₃, takes₃, front⟩ := laid.readSpacedName
  obtain ⟨bound₃, read₃⟩ := takes₃.exists_eq
  obtain ⟨rest, takes₄, laid⟩ := front.readLogProb discounts
  obtain ⟨bound₄, read₄⟩ := takes₄.exists_eq
  refine ⟨rest, ?_, laid⟩
  simp only [Takes, Model.readModifierBody, read₁, read₂, read₃, read₄, Outcome.ok_bind]
  rfl

theorem Laid.readStopBody
    (h : Laid (.name parent :: .name headLabel :: .name side.name :: .mark '=' :: .number n ::
      .mark ';' :: lexemes) text)
    (discounts : n.value ≤ 0.0) :
    ∃ rest, Takes (readStopBody text) (.stop parent headLabel side n.value) rest ∧
      Laid (.mark ';' :: lexemes) rest := by
  obtain ⟨text₁, bound₁, read₁, front⟩ := h.readPair
  obtain ⟨text₂, takes₂, laid⟩ := front.readSide
  obtain ⟨bound₂, read₂⟩ := takes₂.exists_eq
  obtain ⟨rest, takes₃, laid⟩ := laid.front.readLogProb discounts
  obtain ⟨bound₃, read₃⟩ := takes₃.exists_eq
  refine ⟨rest, ?_, laid⟩
  simp only [Takes, Model.readStopBody, read₁, read₂, read₃, Outcome.ok_bind]
  rfl

end Writing

theorem Front.readStatement_of_body {keyword : String} {body : List Lexeme}
    (h : Front (.name keyword :: body) text)
    (reads : ∀ text, Laid body text →
      ∃ rest, Takes (readBody keyword text) s rest ∧ Laid (.mark ';' :: lexemes) rest) :
    ∃ rest, Takes (readStatement text) s rest ∧ Laid lexemes rest := by
  obtain ⟨text₁, takes₁, laid⟩ := h.readName
  obtain ⟨bound₁, read₁⟩ := takes₁.exists_eq
  obtain ⟨text₂, takes₂, laid⟩ := reads _ laid.front.laid
  obtain ⟨bound₂, read₂⟩ := takes₂.exists_eq
  obtain ⟨rest, bound₃, read₃, laid⟩ := laid.front.readChar
  refine ⟨rest, ?_, laid⟩
  simp only [Takes, readStatement, read₁, read₂, read₃, Outcome.ok_bind, Except.mapError]
  rfl

theorem Front.readStatement {first : List Lexeme} (spells : s.Spells first) (ok : s.WellFormed)
    (h : Front (first ++ .mark ';' :: lexemes) text) :
    ∃ rest, Takes (readStatement text) s rest ∧ Laid lexemes rest := by
  cases spells with
  | tags word listed =>
    refine h.readStatement_of_body fun text laid => ?_
    obtain ⟨rest, takes, front⟩ := laid.readTagsBody ok.2.1
    exact ⟨rest, takes, front.laid⟩
  | prior label word n =>
    exact h.readStatement_of_body fun text laid =>
      laid.readPriorBody (fun w hw => (ok.2.1 w hw).2) ok.2.2.1
  | head parent headLabel left right n =>
    simp only [List.append_assoc, List.cons_append, List.nil_append] at h
    exact h.readStatement_of_body fun text laid => laid.readHeadBody ok.2.2.2.2.1
  | modifier parent headLabel side modLabel n =>
    exact h.readStatement_of_body fun text laid => laid.readModifierBody ok.2.2.2.1
  | stop parent headLabel side n =>
    exact h.readStatement_of_body fun text laid => laid.readStopBody ok.2.2.1

theorem Laid.readStatements {statements : List Statement} (spell : SpellsAll statements lexemes)
    (ok : ∀ s ∈ statements, s.WellFormed) (h : Laid lexemes text) :
    readStatements text = .ok statements := by
  induction spell generalizing text with
  | nil =>
    rw [Model.readStatements]
    split
    · rfl
    · rename_i more
      exact absurd h.front.eq_nil more
  | cons spells spell ih =>
    obtain ⟨rest, takes, laid⟩ := h.front.readStatement spells (ok _ List.mem_cons_self)
    obtain ⟨bound, read⟩ := takes.exists_eq
    have others := ih (fun s hs => ok s (List.mem_cons_of_mem _ hs)) laid
    rw [Model.readStatements]
    split
    · rename_i none
      rw [none] at bound
      exact absurd bound (Nat.not_lt_zero _)
    · simp only [read, others, Outcome.ok_bind]
      rfl

end HeadDriven.Model
