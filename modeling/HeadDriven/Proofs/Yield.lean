import HeadDriven.Proofs.Answering
import HeadDriven.Proofs.Words

/-! The yield of a parse. Every leaf of a tree that is read off an arena is the only child of a
branch, whose label is a candidate tag of its word. In names, the leaves of a parse are the texts
of the raw words in their order, and a word hangs from the tag it came with; if it came with none,
from a tag that the model lists for the symbol of its text, or else for unknown words. -/
namespace HeadDriven

namespace ParseTree

variable {α β γ δ ε : Type}

mutual

def leafParents : ParseTree α β → List (ParseTree α β)
  | branch value span children => rowLeafParents (branch value span children) children
  | leaf _ _ => []

def rowLeafParents (parent : ParseTree α β) : List (ParseTree α β) → List (ParseTree α β)
  | [] => []
  | t :: rest => (if t.isLeaf then [parent] else leafParents t) ++ rowLeafParents parent rest

end

def children : ParseTree α β → List (ParseTree α β)
  | branch _ _ children => children
  | leaf _ _ => []

mutual

theorem leaf_mem_leafParents : (t : ParseTree α β) → t.isBranch = true →
    List.Forall₂ (fun l parent => leaf l.1 l.2 ∈ parent.children) t.leaves t.leafParents
  | branch value span children, _ =>
    leaf_mem_rowLeafParents (branch value span children) children fun _ h => h

theorem leaf_mem_rowLeafParents (parent : ParseTree α β) : (row : List (ParseTree α β)) →
    row ⊆ parent.children → List.Forall₂ (fun l parent => leaf l.1 l.2 ∈ parent.children)
      (rowLeaves row) (rowLeafParents parent row)
  | [], _ => .nil
  | leaf _ _ :: rest, h => .cons (h List.mem_cons_self)
    (leaf_mem_rowLeafParents parent rest fun _ hu => h (List.mem_cons_of_mem _ hu))
  | branch value span children :: rest, h =>
    List.rel_append (leaf_mem_leafParents (branch value span children) rfl)
      (leaf_mem_rowLeafParents parent rest fun _ hu => h (List.mem_cons_of_mem _ hu))

end

variable {onBranch : α → Span → Except ε γ} {onLeaf : β → Span → Except ε δ}

theorem mapM?_branch {value : α} {span : Span} {children : List (ParseTree α β)}
    {t : ParseTree γ δ} (h : (branch value span children).mapM? onBranch onLeaf = .ok t) :
    ∃ label row, onBranch value span = .ok label ∧ mapRowM? onBranch onLeaf children = .ok row ∧
      t = branch label span row := by
  obtain ⟨row, hrow, h⟩ := Outcome.bind_eq_ok.mp h
  obtain ⟨label, hlabel, h⟩ := Outcome.bind_eq_ok.mp h
  exact ⟨label, row, hlabel, hrow, (Except.ok.inj h).symm⟩

theorem mapM?_leaf {value : β} {span : Span} {t : ParseTree γ δ}
    (h : (leaf value span : ParseTree α β).mapM? onBranch onLeaf = .ok t) :
    ∃ text, onLeaf value span = .ok text ∧ t = leaf text span := by
  obtain ⟨text, htext, h⟩ := Outcome.bind_eq_ok.mp h
  exact ⟨text, htext, (Except.ok.inj h).symm⟩

theorem isBranch_mapM? {t : ParseTree α β} {u : ParseTree γ δ}
    (h : t.mapM? onBranch onLeaf = .ok u) : u.isBranch = t.isBranch := by
  cases t with
  | branch value span children =>
    obtain ⟨label, row, -, -, rfl⟩ := mapM?_branch h
    rfl
  | leaf value span =>
    obtain ⟨text, -, rfl⟩ := mapM?_leaf h
    rfl

theorem mapRowM?_cons {t : ParseTree α β} {rest : List (ParseTree α β)}
    {row : List (ParseTree γ δ)} (h : mapRowM? onBranch onLeaf (t :: rest) = .ok row) :
    ∃ u us, t.mapM? onBranch onLeaf = .ok u ∧ mapRowM? onBranch onLeaf rest = .ok us ∧
      row = u :: us := by
  obtain ⟨u, hu, h⟩ := Outcome.bind_eq_ok.mp h
  obtain ⟨us, hus, h⟩ := Outcome.bind_eq_ok.mp h
  exact ⟨u, us, hu, hus, (Except.ok.inj h).symm⟩

mutual

theorem leafParents_mapM? : (t : ParseTree α β) → (u : ParseTree γ δ) →
    t.mapM? onBranch onLeaf = .ok u →
    List.Forall₂ (fun p q => p.mapM? onBranch onLeaf = .ok q) t.leafParents u.leafParents
  | branch value span children, u, h => by
    obtain ⟨label, row, -, hrow, rfl⟩ := mapM?_branch h
    exact rowLeafParents_mapM? h children row hrow
  | leaf value span, u, h => by
    obtain ⟨text, -, rfl⟩ := mapM?_leaf h
    exact .nil

theorem rowLeafParents_mapM? {parent : ParseTree α β} {parent' : ParseTree γ δ}
    (hparent : parent.mapM? onBranch onLeaf = .ok parent') :
    (row : List (ParseTree α β)) → (row' : List (ParseTree γ δ)) →
    mapRowM? onBranch onLeaf row = .ok row' →
    List.Forall₂ (fun p q => p.mapM? onBranch onLeaf = .ok q)
      (rowLeafParents parent row) (rowLeafParents parent' row')
  | [], row', h => by
    cases h
    exact .nil
  | leaf value span :: rest, row', h => by
    obtain ⟨u, us, hu, hus, rfl⟩ := mapRowM?_cons h
    obtain ⟨text, -, rfl⟩ := mapM?_leaf hu
    exact .cons hparent (rowLeafParents_mapM? hparent rest us hus)
  | branch value span children :: rest, row', h => by
    obtain ⟨u, us, hu, hus, rfl⟩ := mapRowM?_cons h
    have below := leafParents_mapM? (branch value span children) u hu
    obtain ⟨label, row, -, -, rfl⟩ := mapM?_branch hu
    exact List.rel_append below (rowLeafParents_mapM? hparent rest us hus)

end

theorem rowLeafParents_of_row {R : γ → ParseTree α β → Prop} {P : ParseTree α β → Prop}
    {parent : ParseTree α β} {xs : List γ} {row : List (ParseTree α β)}
    (h : List.Forall₂ R xs row)
    (each : ∀ x t, R x t → t.isBranch = true ∧ ∀ p ∈ t.leafParents, P p) :
    ∀ p ∈ rowLeafParents parent row, P p := by
  induction h with
  | nil => simp [rowLeafParents]
  | @cons x t _ _ hx _ ih =>
    obtain ⟨branch, below⟩ := each x t hx
    have notLeaf : t.isLeaf = false := by
      cases t with
      | branch => rfl
      | leaf => cases branch
    intro p hp
    rw [rowLeafParents, notLeaf] at hp
    rcases List.mem_append.mp hp with hp | hp
    · exact below p hp
    · exact ih p hp

end ParseTree

variable {g : Grammar} {sentence : Sentence} {a : Arena} {index : Nat} {item : Item}

/-- A word of a sentence as the only child of a branch under one of its candidate tags. -/
def Hangs (g : Grammar) (sentence : Sentence) (t : ParseTree Symbol Symbol) : Prop :=
  ∃ i token, sentence[i]? = some token ∧ ∃ tag ∈ g.candidateTags token,
    t = .branch tag (i, i + 1) [.leaf token.word (i, i + 1)]

/-- In the tree of an item every word is the only child of a branch under one of its tags. -/
theorem Arena.Built.tree_hangs (built : a.Built g sentence) (h : a.built? index = some item)
    {tree : ParseTree Symbol Symbol} (htree : a.tree index = .ok tree) :
    tree.isBranch = true ∧ ∀ p ∈ tree.leafParents, Hangs g sentence p := by
  obtain ⟨tree', htree', hangs⟩ : ∃ tree, a.tree index = .ok tree ∧
      tree.isBranch = true ∧ ∀ p ∈ tree.leafParents, Hangs g sentence p := by
    refine built.exists_tree_of
      (P := fun _ tree => tree.isBranch = true ∧ ∀ p ∈ tree.leafParents, Hangs g sentence p)
      (fun index item stored single => ?_) (fun index item row _ _ hrow => ?_) h
    · obtain ⟨-, token, word, seeds⟩ := Decoder.seeded_of_headless built stored single.headChild
      obtain ⟨token', word', hword⟩ := single.word
      obtain rfl : token = token' := Option.some.inj (word.symm.trans word')
      have hspan : item.span = (item.first, item.first + 1) := by rw [Item.span, single.last]
      refine ⟨rfl, fun p hp => ⟨item.first, token, word, item.label, seeds.candidate, ?_⟩⟩
      rw [hword, ← hspan]
      exact List.mem_singleton.mp hp
    · refine ⟨rfl, ParseTree.rowLeafParents_of_row hrow fun _ _ below => ?_⟩
      obtain ⟨-, -, hangs⟩ := below
      exact hangs
  rw [htree, Except.ok.injEq] at htree'
  exact htree' ▸ hangs

theorem Derivation.resolve_hangs {d : Derivation} {symbols : SymbolTable}
    {tree : ParseTree String String} (branch : d.tree.isBranch = true)
    (leaves : d.tree.leaves = d.sentence.leaves (0, d.sentence.length))
    (hangs : ∀ p ∈ d.tree.leafParents, Hangs g d.sentence p)
    (shown : d.resolve symbols = .ok tree) :
    tree.leaves.length = d.sentence.length ∧
    ∀ i token, d.sentence[i]? = some token → ∃ text label, ∃ tag ∈ g.candidateTags token,
      symbols.name tag = .ok label ∧ token.shown symbols = .ok text ∧
      tree.leaves[i]? = some (text, (i, i + 1)) ∧
      tree.leafParents[i]? = some (.branch label (i, i + 1) [.leaf text (i, i + 1)]) := by
  have before := d.tree.leaf_mem_leafParents branch
  have renamed := ParseTree.leafParents_mapM? d.tree tree shown
  have after := tree.leaf_mem_leafParents ((ParseTree.isBranch_mapM? shown).trans branch)
  have all : d.sentence.leaves (0, d.sentence.length) =
      d.sentence.zipIdx.map fun place => (place.1.word, (place.2, place.2 + 1)) := by
    simp [Sentence.leaves, List.take_of_length_le]
  refine ⟨?_, fun i token word => ?_⟩
  · rw [after.length_eq, ← renamed.length_eq, ← before.length_eq, leaves, all]
    simp
  · have hleaf : d.tree.leaves[i]? = some (token.word, (i, i + 1)) := by
      rw [leaves, all]
      simp [word]
    obtain ⟨p, hp, hmem⟩ := Outcome.getElem?_of_row before hleaf
    obtain ⟨q, hq, hpq⟩ := Outcome.getElem?_of_row renamed hp
    -- The branch is over some word, and shares the span of its leaf, which is the word here.
    obtain ⟨j, token', word', tag, htag, rfl⟩ := hangs p (List.mem_of_getElem? hp)
    obtain ⟨hword, hspan⟩ : token.word = token'.word ∧ (i, i + 1) = (j, j + 1) := by
      simpa [ParseTree.children] using hmem
    obtain rfl : i = j := congrArg Prod.fst hspan
    obtain rfl : token = token' := Option.some.inj (word.symm.trans word')
    obtain ⟨label, row, hlabel, hrow, rfl⟩ := ParseTree.mapM?_branch hpq
    obtain ⟨u, us, hu, hus, rfl⟩ := ParseTree.mapRowM?_cons hrow
    obtain ⟨text, htext, rfl⟩ := ParseTree.mapM?_leaf hu
    cases hus
    have hshown : token.shown symbols = .ok text := by
      rw [← htext]
      simp only [word]
      cases token <;> rfl
    refine ⟨text, label, tag, htag, hlabel, hshown, ?_, hq⟩
    obtain ⟨shownLeaf, hleaf', hmem'⟩ := Outcome.getElem?_of_row after.flip hq
    rw [hleaf']
    simpa [ParseTree.children, Prod.ext_iff, flip] using hmem'

/-- The labels of a word in a parse: the tag it came with; without one, the tags of the symbol of
its text, and those of unknown words if that symbol has none. -/
inductive Model.Table.MayTag (t : Table) (text : String) : Option (List Char) → String → Prop where
  | given (tag : List Char) : MayTag t text (some tag) (String.ofList tag)
  | listed {tag : Symbol} {label : String}
      (mem : tag ∈ t.model.tags (Sentence.symbolOf t.symbols (Language.treebank t.symbols) text))
      (name : t.symbols.name tag = .ok label) : MayTag t text none label
  | unlisted {tag : Symbol} {label : String}
      (untagged :
        t.model.tags (Sentence.symbolOf t.symbols (Language.treebank t.symbols) text) = [])
      (mem : tag ∈ t.model.tags Symbol.unknown)
      (name : t.symbols.name tag = .ok label) : MayTag t text none label

theorem Model.Table.mayTag_of_candidate {t : Table} {settings : Settings} {token : Token}
    {text : List Char} {tag : Option (List Char)} {candidate : Symbol} {label : String}
    (reads : Sentence.Reads t.symbols (Language.treebank t.symbols) token text tag)
    (h : candidate ∈
      Grammar.candidateTags ⟨t.model, Language.treebank t.symbols, settings⟩ token)
    (name : t.symbols.name candidate = .ok label) : t.MayTag (String.ofList text) tag label := by
  obtain ⟨word, -, tags⟩ := reads
  unfold Grammar.candidateTags at h
  cases tag with
  | some tag =>
    obtain ⟨s, rest, hs, hrest, htags⟩ := List.forall₂_cons_left_iff.mp tags
    cases hrest
    rw [htags] at h
    obtain rfl : candidate = s := by simpa using h
    obtain rfl : String.ofList tag = label := Except.ok.inj (hs.symm.trans name)
    exact .given tag
  | none =>
    have htags : token.tags = [] := List.forall₂_nil_left_iff.mp tags
    simp only [htags, word, List.isEmpty_nil, ↓reduceIte, List.isEmpty_iff] at h
    by_cases untagged : t.model.tags
        (Sentence.symbolOf t.symbols (Language.treebank t.symbols) (String.ofList text)) = []
    · exact .unlisted untagged (by rwa [if_pos untagged] at h) name
    · exact .listed (by rwa [if_neg untagged] at h) name

/-- A parse of raw words has their texts for its leaves, in their order, each alone under its
tag. -/
theorem parse_yields_words (frames : FrameKind) (statements : List Model.Statement)
    (settings : Settings) (raw : List String) (earlier : List Sentence) (sentence : Sentence)
    (found : Derivation) :
    let t := Model.Table.ofStatements frames statements
    let g : Grammar := ⟨t.model, Language.treebank t.symbols, settings⟩
    Sentence.ofWords t.symbols g.language raw = .ok sentence →
    ((Decoder.after g earlier).decode sentence).2 = .ok (.parse found) →
    ∃ tree, found.resolve t.symbols = .ok tree ∧ tree.leaves.length = raw.length ∧
      ∀ i word, raw[i]? = some word → ∃ text tag label,
        Sentence.Cut word.toList text tag ∧ t.MayTag (String.ofList text) tag label ∧
        tree.leaves[i]? = some (String.ofList text, (i, i + 1)) ∧
        tree.leafParents[i]? =
          some (.branch label (i, i + 1) [.leaf (String.ofList text) (i, i + 1)]) := by
  intro t g read parsed
  have names : t.Named := Model.Table.named_ofStatements frames statements
  have named := Sentence.named_of_ofWords names.sentinels read
  obtain ⟨hg, coherent⟩ := Decoder.coherent_after g earlier
  obtain ⟨hsentence, a, index, child, built, hchild, whole, htree⟩ :=
    Decoder.child_of_parse coherent parsed
  obtain ⟨-, -, leaves⟩ := Decoder.parse_pictures coherent parsed
  rw [hg] at built
  obtain ⟨branch, hangs⟩ := built.tree_hangs hchild htree
  subst hsentence
  obtain ⟨tree, shown⟩ := Derivation.resolve_succeeds
    (built.tree_labels (names.treebank settings) named hchild htree) leaves named
  obtain ⟨length, each⟩ := Derivation.resolve_hangs branch leaves hangs shown
  have tokens := Outcome.mapM_eq_ok.mp read
  refine ⟨tree, shown, length.trans tokens.length_eq.symm, fun i word hword => ?_⟩
  obtain ⟨token, htoken, hread⟩ := Outcome.getElem?_of_row tokens hword
  obtain ⟨text, tag, cut, reads⟩ := Sentence.reads_of_tokenOf hread
  obtain ⟨text', label, candidate, mem, name, hshown, hleaf, hparent⟩ := each i token htoken
  obtain rfl : String.ofList text = text' := Except.ok.inj (reads.shown.symm.trans hshown)
  exact ⟨text, tag, label, cut, Model.Table.mayTag_of_candidate reads mem name, hleaf, hparent⟩

/-- `Zoe` is no word of the model and keeps its text; `a`, which the model tags `A`, came with
another tag. -/
theorem sample_yields_words :
    let t := Model.Table.ofStatements .bag [.tags "a" ["A"], .tags "+UNKNOWN+c" ["N"],
      .head "S" "N" [] [] (-1.0), .modifier "S" "N" .right "B" (-2.0),
      .stop "S" "N" .left 0.0, .stop "S" "N" .right 0.0, .head "+TOP+" "S" [] [] 0.0]
    let g : Grammar := ⟨t.model, Language.treebank t.symbols, Settings.default⟩
    ∃ sentence found tree, Sentence.ofWords t.symbols g.language ["Zoe", "a/B"] = .ok sentence ∧
      ((Decoder.after g []).decode sentence).2 = .ok (.parse found) ∧
      found.resolve t.symbols = .ok tree ∧ tree.leaves.length = 2 ∧
      tree.leaves[0]? = some ("Zoe", (0, 1)) ∧
      tree.leafParents[1]? = some (.branch "B" (1, 2) [.leaf "a" (1, 2)]) := by
  intro t g
  let sentence : Sentence := [.unknown "Zoe" ⟨6⟩ [], .known ⟨4⟩ [⟨9⟩]]
  have read : Sentence.ofWords t.symbols g.language ["Zoe", "a/B"] = .ok sentence :=
    Outcome.eq_ok_of_toOption (by decide +kernel)
  have parses : (match ((Decoder.after g []).decode sentence).2 with
      | .ok (.parse _) => true
      | _ => false) = true := by decide +kernel
  split at parses
  · rename_i found hfound
    obtain ⟨tree, shown, length, each⟩ := parse_yields_words _ _ Settings.default ["Zoe", "a/B"] []
      sentence found read hfound
    refine ⟨sentence, found, tree, read, hfound, shown, length, ?_, ?_⟩
    · obtain ⟨text, tag, label, cut, -, hleaf, -⟩ := each 0 "Zoe" rfl
      obtain ⟨rfl, -⟩ : ['Z', 'o', 'e'] = text ∧ none = tag := by
        simpa using (show _ = _ by decide : Sentence.splitTag "Zoe".toList =
          (['Z', 'o', 'e'], none)).symm.trans (Sentence.cut_iff.mp cut)
      exact hleaf
    · obtain ⟨text, tag, label, cut, mayTag, -, hparent⟩ := each 1 "a/B" rfl
      obtain ⟨rfl, rfl⟩ : ['a'] = text ∧ some ['B'] = tag := by
        simpa using (show _ = _ by decide : Sentence.splitTag "a/B".toList =
          (['a'], some ['B'])).symm.trans (Sentence.cut_iff.mp cut)
      cases mayTag
      exact hparent
  · cases parses

end HeadDriven
