import HeadDriven.Language.Treebank
import HeadDriven.Proofs.Geometry
import HeadDriven.Proofs.Model.Licences
import HeadDriven.Proofs.Words

/-! Names of symbols. A symbol table has a name for every symbol that it has handed out. The
labels and tags of a model table and the words of a sentence were handed out by one symbol
table, and every label of a derivation is a nonterminal, a tag or the top label; so the tree
of a derivation can be shown in names. -/
namespace HeadDriven

namespace SymbolTable

def Knows (t : SymbolTable) (s : Symbol) : Prop := s.id < t.size

variable {t : SymbolTable} {s : Symbol}

theorem Knows.name (h : t.Knows s) : ∃ text, t.name s = .ok text := by
  have found : t.name? s = some t.names[s.id] := Array.getElem?_eq_getElem h
  exact ⟨_, by rw [SymbolTable.name, found]⟩

theorem Knows.grows {u : SymbolTable} (h : t.Knows s) (grows : t.size ≤ u.size) : u.Knows s :=
  Nat.lt_of_lt_of_le h grows

theorem knows_of_get? {name : String} (h : t.get? name = some s) : t.Knows s :=
  (Array.getElem?_eq_some_iff.mp (name?_of_get? h)).choose

theorem knows_of_name {text : String} (h : t.name s = .ok text) : t.Knows s := by
  cases found : t.name? s with
  | none =>
    rw [SymbolTable.name, found] at h
    cases h
  | some text => exact (Array.getElem?_eq_some_iff.mp found).choose

theorem intern_spec (t : SymbolTable) (name : String) :
    t.size ≤ (t.intern name).1.size ∧ (t.intern name).1.Knows (t.intern name).2 := by
  cases found : t.get? name with
  | some s =>
    rw [intern_of_get? found]
    exact ⟨Nat.le_refl _, knows_of_get? found⟩
  | none =>
    rw [intern_of_fresh found]
    simp [size, Knows, enter]

theorem internAll_spec (names : List String) (t : SymbolTable) :
    t.size ≤ (t.internAll names).1.size ∧
      ∀ s ∈ (t.internAll names).2, (t.internAll names).1.Knows s := by
  induction names generalizing t with
  | nil => exact ⟨Nat.le_refl _, by simp [internAll]⟩
  | cons name names ih =>
    obtain ⟨grows, knows⟩ := t.intern_spec name
    obtain ⟨grows', knows'⟩ := ih (t.intern name).1
    refine ⟨Nat.le_trans grows grows', fun s hs => ?_⟩
    rcases List.mem_cons.mp hs with rfl | hs
    · exact knows.grows grows'
    · exact knows' s hs

end SymbolTable

namespace Model.Table

/-- A table that has names for its labels and tags, and for the symbols of every table. -/
structure Named (t : Table) : Prop where
  sentinels : SymbolTable.empty.size ≤ t.symbols.size
  nonterminals : ∀ label ∈ t.nonterminals, t.symbols.Knows label
  tags : ∀ r ∈ t.tags, ∀ tag ∈ r.2, t.symbols.Knows tag

variable {t : Table} {s : Symbol}

theorem mem_insertNew {label : Symbol} {labels : List Symbol} (h : s ∈ insertNew label labels) :
    s = label ∨ s ∈ labels := by
  induction labels with
  | nil => exact Or.inl (List.mem_singleton.mp h)
  | cons other labels ih =>
    rw [insertNew] at h
    split at h
    · rcases List.mem_cons.mp h with rfl | h
      · exact Or.inr List.mem_cons_self
      · exact (ih h).imp_right (List.mem_cons_of_mem _)
    · split at h
      · exact Or.inr h
      · exact List.mem_cons.mp h

theorem mem_foldl_appendNew {seen more : List Symbol} (h : s ∈ more.foldl appendNew seen) :
    s ∈ seen ∨ s ∈ more := by
  induction more generalizing seen with
  | nil => exact Or.inl h
  | cons x more ih =>
    rcases ih h with h | h
    · rcases mem_appendNew.mp h with h | rfl
      · exact Or.inl h
      · exact Or.inr List.mem_cons_self
    · exact Or.inr (List.mem_cons_of_mem _ h)

theorem Named.grows (h : t.Named) {symbols : SymbolTable} (grows : t.symbols.size ≤ symbols.size) :
    ({ t with symbols } : Table).Named where
  sentinels := Nat.le_trans h.sentinels grows
  nonterminals label hl := (h.nonterminals label hl).grows grows
  tags r hr tag ht := (h.tags r hr tag ht).grows grows

theorem Named.tagsOf (h : t.Named) (word : Symbol) :
    ∀ tag ∈ t.model.tags word, t.symbols.Knows tag := by
  intro tag ht
  cases hw : t.tags.lookup word with
  | none => simp [model, hw] at ht
  | some tags => exact h.tags _ (mem_of_lookup hw) tag (by simpa [model, hw] using ht)

theorem Named.addTags (h : t.Named) (word : String) (tags : List String) :
    (t.addTags word tags).Named := by
  obtain ⟨one, -⟩ := t.symbols.intern_spec word
  obtain ⟨all, knows⟩ := SymbolTable.internAll_spec tags (t.symbols.intern word).1
  have grows := h.grows (Nat.le_trans one all)
  refine { grows with tags := fun r hr tag ht => ?_ }
  rcases List.mem_cons.mp hr with rfl | hr
  · rcases mem_foldl_appendNew ht with ht | ht
    · exact grows.tagsOf _ tag ht
    · exact knows tag ht
  · exact grows.tags r hr tag ht

theorem Named.addHead (h : t.Named) (parent headLabel : String) (left right : List String)
    (logProb : Float) : (t.addHead parent headLabel left right logProb).Named := by
  obtain ⟨one, knows⟩ := t.symbols.intern_spec parent
  obtain ⟨two, -⟩ := (t.symbols.intern parent).1.intern_spec headLabel
  obtain ⟨three, -⟩ := SymbolTable.internAll_spec left
    ((t.symbols.intern parent).1.intern headLabel).1
  obtain ⟨four, -⟩ := SymbolTable.internAll_spec right
    (((t.symbols.intern parent).1.intern headLabel).1.internAll left).1
  have others := Nat.le_trans two (Nat.le_trans three four)
  have grows := h.grows (Nat.le_trans one others)
  refine { grows with nonterminals := fun label hl => ?_ }
  simp only [Table.addHead] at hl
  split at hl
  · exact grows.nonterminals label hl
  · rcases mem_insertNew hl with rfl | hl
    · exact knows.grows others
    · exact grows.nonterminals label hl

theorem Named.add (h : t.Named) (statement : Statement) : (t.add statement).Named := by
  cases statement with
  | tags word tags => exact h.addTags word tags
  | prior label word logProb =>
    obtain ⟨one, -⟩ := t.symbols.intern_spec label
    cases word with
    | none => exact { h.grows one with }
    | some word =>
      obtain ⟨two, -⟩ := (t.symbols.intern label).1.intern_spec word
      exact { h.grows (Nat.le_trans one two) with }
  | head parent headLabel left right logProb => exact h.addHead parent headLabel left right logProb
  | modifier parent headLabel side modLabel logProb =>
    obtain ⟨one, -⟩ := t.symbols.intern_spec parent
    obtain ⟨two, -⟩ := (t.symbols.intern parent).1.intern_spec headLabel
    obtain ⟨three, -⟩ :=
      ((t.symbols.intern parent).1.intern headLabel).1.intern_spec modLabel
    exact { h.grows (Nat.le_trans one (Nat.le_trans two three)) with }
  | stop parent headLabel side logProb =>
    obtain ⟨one, -⟩ := t.symbols.intern_spec parent
    obtain ⟨two, -⟩ := (t.symbols.intern parent).1.intern_spec headLabel
    exact { h.grows (Nat.le_trans one two) with }

theorem named_ofStatements (frames : FrameKind) (statements : List Statement) :
    (ofStatements frames statements).Named := by
  suffices general : ∀ t : Table, t.Named → (statements.foldl Table.add t).Named from
    general _ ⟨Nat.le_refl _, by simp [empty], by simp [empty]⟩
  induction statements with
  | nil => exact fun _ h => h
  | cons statement statements ih => exact fun _ h => ih _ (h.add statement)

end Model.Table

namespace Sentence

structure Named (symbols : SymbolTable) (token : Token) : Prop where
  word : symbols.Knows token.word
  tags : ∀ tag ∈ token.tags, symbols.Knows tag

variable {symbols : SymbolTable} {language : Language} {token : Token} {sentence : Sentence}

theorem knows_symbolOf (sentinels : SymbolTable.empty.size ≤ symbols.size) (language : Language)
    (text : String) : symbols.Knows (symbolOf symbols language text) := by
  have unknown : symbols.Knows Symbol.unknown :=
    Nat.lt_of_lt_of_le (by decide +kernel : Symbol.unknown.id < SymbolTable.empty.size) sentinels
  unfold symbolOf
  cases hget : symbols.get? text with
  | some s => exact SymbolTable.knows_of_get? hget
  | none =>
    cases hclass : symbols.get? (language.wordClass text) with
    | some s => exact SymbolTable.knows_of_get? hclass
    | none => exact unknown

theorem named_of_tokenOf (sentinels : SymbolTable.empty.size ≤ symbols.size) {raw : String}
    (h : tokenOf symbols language raw = .ok token) : Named symbols token := by
  obtain ⟨text, tag, -, reads⟩ := reads_of_tokenOf h
  refine ⟨reads.word ▸ knows_symbolOf sentinels language _, fun s hs => ?_⟩
  obtain ⟨i, hi⟩ := List.getElem?_of_mem hs
  obtain ⟨_, -, name⟩ := Outcome.getElem?_of_row reads.tags.flip hi
  exact SymbolTable.knows_of_name name

theorem named_of_ofWords (sentinels : SymbolTable.empty.size ≤ symbols.size) {words : List String}
    (h : ofWords symbols language words = .ok sentence) :
    ∀ token ∈ sentence, Named symbols token := by
  intro token ht
  obtain ⟨raw, -, hraw⟩ := (Outcome.mem_mapM h).mp ht
  exact named_of_tokenOf sentinels hraw

end Sentence

structure Grammar.Named (g : Grammar) (symbols : SymbolTable) : Prop where
  nonterminals : ∀ label ∈ g.model.nonterminals, symbols.Knows label
  tags : ∀ word, ∀ tag ∈ g.model.tags word, symbols.Knows tag
  top : symbols.Knows g.language.topLabel

theorem Model.Table.Named.treebank {t : Model.Table} (h : t.Named) (settings : Settings) :
    Grammar.Named ⟨t.model, Language.treebank t.symbols, settings⟩ t.symbols where
  nonterminals := h.nonterminals
  tags := h.tagsOf
  top := Nat.lt_of_lt_of_le (by decide +kernel : Symbol.top.id < SymbolTable.empty.size) h.sentinels

variable {g : Grammar} {sentence : Sentence} {symbols : SymbolTable} {a : Arena} {index : Nat}
  {item : Item}

theorem Grammar.Named.candidateTags (h : g.Named symbols) {token : Token}
    (named : Sentence.Named symbols token) : ∀ tag ∈ g.candidateTags token, symbols.Knows tag := by
  intro tag ht
  unfold Grammar.candidateTags at ht
  dsimp only at ht
  split at ht
  · split at ht <;> exact h.tags _ tag ht
  · exact named.tags tag ht

theorem Arena.Built.knows_label (built : a.Built g sentence) (names : g.Named symbols)
    (words : ∀ token ∈ sentence, Sentence.Named symbols token)
    (h : a.built? index = some item) : symbols.Knows item.label := by
  refine built.induction (P := fun _ item => symbols.Knows item.label)
    (fun index item h before => ?_) h
  cases h with
  | seed word h =>
    exact names.candidateTags (words _ (List.mem_of_getElem? word)) _ h.candidate
  | project under h => exact names.nonterminals _ h.nonterminal
  | attach under modifier joins h =>
    rw [Grammar.label_attachment]
    exact before _ _ under
  | stop under h =>
    have known := before _ _ under
    exact known
  | root under whole h => exact names.top

namespace ParseTree

variable {α β γ δ ε : Type}

mutual

def labels : ParseTree α β → List α
  | branch value _ children => value :: rowLabels children
  | leaf _ _ => []

def rowLabels : List (ParseTree α β) → List α
  | [] => []
  | t :: rest => labels t ++ rowLabels rest

end

theorem rowLabels_of_row {R : γ → ParseTree α β → Prop} {P : α → Prop} {xs : List γ}
    {row : List (ParseTree α β)} (h : List.Forall₂ R xs row)
    (each : ∀ x t, R x t → ∀ label ∈ t.labels, P label) : ∀ label ∈ rowLabels row, P label := by
  induction h with
  | nil => simp [rowLabels]
  | cons hx _ ih =>
    intro label hl
    rcases List.mem_append.mp hl with hl | hl
    · exact each _ _ hx label hl
    · exact ih label hl

mutual

theorem mapM?_succeeds {onBranch : α → Span → Except ε γ} {onLeaf : β → Span → Except ε δ} :
    (t : ParseTree α β) → (∀ label ∈ t.labels, ∀ span, ∃ c, onBranch label span = .ok c) →
      (∀ leaf ∈ t.leaves, ∃ d, onLeaf leaf.1 leaf.2 = .ok d) →
      ∃ renamed, t.mapM? onBranch onLeaf = .ok renamed
  | branch value span children, hbranch, hleaf => by
    obtain ⟨row, hrow⟩ := mapRowM?_succeeds children
      (fun label h => hbranch label (List.mem_cons_of_mem _ h)) hleaf
    obtain ⟨label, hlabel⟩ := hbranch value List.mem_cons_self span
    exact ⟨_, by rw [mapM?, hrow, Outcome.ok_bind, hlabel]; rfl⟩
  | leaf value span, _, hleaf => by
    obtain ⟨d, hd⟩ := hleaf (value, span) (List.mem_singleton_self _)
    exact ⟨_, by rw [mapM?, hd]; rfl⟩

theorem mapRowM?_succeeds {onBranch : α → Span → Except ε γ} {onLeaf : β → Span → Except ε δ} :
    (row : List (ParseTree α β)) →
      (∀ label ∈ rowLabels row, ∀ span, ∃ c, onBranch label span = .ok c) →
      (∀ leaf ∈ rowLeaves row, ∃ d, onLeaf leaf.1 leaf.2 = .ok d) →
      ∃ renamed, mapRowM? onBranch onLeaf row = .ok renamed
  | [], _, _ => ⟨[], rfl⟩
  | t :: row, hbranch, hleaf => by
    obtain ⟨first, hfirst⟩ := mapM?_succeeds t
      (fun label h => hbranch label (List.mem_append_left _ h))
      (fun leaf h => hleaf leaf (List.mem_append_left _ h))
    obtain ⟨rest, hrest⟩ := mapRowM?_succeeds row
      (fun label h => hbranch label (List.mem_append_right _ h))
      (fun leaf h => hleaf leaf (List.mem_append_right _ h))
    exact ⟨first :: rest, by rw [mapRowM?, hfirst, Outcome.ok_bind, hrest]; rfl⟩

end

end ParseTree

theorem Arena.Built.tree_labels (built : a.Built g sentence) (names : g.Named symbols)
    (words : ∀ token ∈ sentence, Sentence.Named symbols token)
    (h : a.built? index = some item) {tree : ParseTree Symbol Symbol}
    (htree : a.tree index = .ok tree) : ∀ label ∈ tree.labels, symbols.Knows label := by
  obtain ⟨tree', htree', known⟩ : ∃ tree, a.tree index = .ok tree ∧
      ∀ label ∈ tree.labels, symbols.Knows label := by
    refine built.exists_tree_of (P := fun _ tree => ∀ label ∈ tree.labels, symbols.Knows label)
      (fun index item stored _ label hl => ?_) (fun index item row stored _ hrow label hl => ?_) h
    · obtain rfl : label = item.label := List.mem_singleton.mp hl
      exact built.knows_label names words stored
    · rcases List.mem_cons.mp hl with rfl | hl
      · exact built.knows_label names words stored
      · exact ParseTree.rowLabels_of_row hrow (fun _ _ ⟨_, _, known⟩ => known) label hl
  rw [htree, Except.ok.injEq] at htree'
  exact htree' ▸ known

theorem Sentence.mem_leaves {span : Span} {leaf : Symbol × Span} (h : leaf ∈ sentence.leaves span) :
    ∃ token, sentence[leaf.2.1]? = some token ∧ leaf.1 = token.word := by
  obtain ⟨⟨token, i⟩, hpair, rfl⟩ := List.mem_map.mp h
  have hpair := List.mem_of_mem_take (List.mem_of_mem_drop hpair)
  exact ⟨token, List.mem_zipIdx_iff_getElem?.mp hpair, rfl⟩

theorem Derivation.resolve_succeeds {d : Derivation} {span : Span}
    (labels : ∀ label ∈ d.tree.labels, symbols.Knows label)
    (leaves : d.tree.leaves = d.sentence.leaves span)
    (words : ∀ token ∈ d.sentence, Sentence.Named symbols token) :
    ∃ tree, d.resolve symbols = .ok tree := by
  refine ParseTree.mapM?_succeeds d.tree (fun label h _ => (labels label h).name)
    fun leaf hleaf => ?_
  obtain ⟨token, htoken, hword⟩ := Sentence.mem_leaves (leaves ▸ hleaf)
  have named := words token (List.mem_of_getElem? htoken)
  simp only [htoken, hword]
  cases token with
  | unknown text wordClass tags => exact ⟨text, rfl⟩
  | known word tags => exact named.word.name

end HeadDriven
