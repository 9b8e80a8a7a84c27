import HeadDriven.Proofs.Beam
import HeadDriven.Proofs.Names
import HeadDriven.Proofs.Optimality
import HeadDriven.Proofs.Search.Settling

/-! Every decode answers. Under settings and a model that were read the search gets through,
and its answer is read off the top group of the whole sentence: there is no parse if the group
is empty, and otherwise a parse that can be shown in names. The one way to fail is a single
word that has the top label for its tag and is the best of this group. -/
namespace HeadDriven

namespace Decoder

def winner? (g : Grammar) (sentence : Sentence) (chart : Chart) : Option Entry :=
  (chart.groupAt 0 (sentence.length - 1) g.language.topLabel).best?

/-- The answers to a sentence of which the given chart is left: no parse without a winner, else
a parse that can be shown in names; a fault only for a single word that may be tagged with the
top label. -/
def Replies (g : Grammar) (symbols : SymbolTable) (sentence : Sentence) (chart : Chart) :
    Except Fault Decoded → Prop
  | .ok (.noParse given) =>
    given = sentence ∧ (skips g sentence = true ∨ winner? g sentence chart = none)
  | .ok (.parse found) =>
    skips g sentence = false ∧ found.sentence = sentence ∧
      (∃ e, winner? g sentence chart = some e ∧ found.score = e.score) ∧
      ∃ tree, found.resolve symbols = .ok tree
  | .error fault =>
    skips g sentence = false ∧ fault = .headlessTop ∧
      ∃ token, sentence = [token] ∧ g.Seeds token g.language.topLabel

variable {d : Decoder} {g : Grammar} {symbols : SymbolTable} {sentence : Sentence} {c : Chart}
  {a : Arena} {index : Nat} {item : Item}

theorem seeded_of_headless (built : a.Built g sentence) (h : a.built? index = some item)
    (headless : item.headChild = none) : item.last = item.first ∧
      ∃ token, sentence[item.first]? = some token ∧ g.Seeds token item.label := by
  have single : Single sentence item := by
    rcases built.arranged h with single | branches
    · exact single
    · have child := branches.headChild
      rw [headless] at child
      cases child
  refine ⟨single.last, ?_⟩
  cases built index item h with
  | seed word seeds => exact ⟨_, word, seeds⟩
  | project | root => cases headless
  | attach under modifier joins =>
    have stopped := single.stopped
    rw [Grammar.stopped_attachment] at stopped
    cases joins.growing.symm.trans stopped
  | @stop i m under stops =>
    have growing := built.growing under.built stops.growing
    rw [show m.headChild = none from headless] at growing
    cases growing.1

theorem replies_of_best (sound : c.Sound g sentence) (hskips : skips g sentence = false)
    (names : g.Named symbols) (named : ∀ token ∈ sentence, Sentence.Named symbols token) :
    Replies g symbols sentence c ((best? g c sentence).map fun found =>
      found.elim (.noParse sentence) .parse) := by
  have words := ne_nil_of_skips hskips
  have hbest := best?_eq sound words
  revert hbest
  generalize (best? g c sentence).map _ = answer
  intro hbest
  dsimp only at hbest
  split at hbest
  · rename_i none
    rw [hbest]
    exact ⟨rfl, Or.inr none⟩
  · rename_i e winner
    obtain ⟨root, resides, describes, hroot⟩ := hbest
    have hbuilt := Arena.built?_of_items resides.stored
    rw [Item.copy_of_fresh resides.live] at hbuilt
    cases hhead : root.headChild with
    | none =>
      rw [hhead] at hroot
      rw [show answer = .error .headlessTop from hroot]
      obtain ⟨one, token, word, seeds⟩ := seeded_of_headless sound.built hbuilt hhead
      have hlength : sentence.length = 1 := by
        have := List.length_pos_iff.mpr words
        have := resides.first
        have := resides.last
        omega
      obtain ⟨only, rfl⟩ := List.length_eq_one_iff.mp hlength
      rw [resides.first] at word
      obtain rfl : only = token := Option.some.inj word
      exact ⟨hskips, rfl, only, rfl, resides.label ▸ seeds⟩
    | some head =>
      rw [hhead] at hroot
      obtain ⟨tree, htree, hanswer⟩ := hroot
      rw [show answer = .ok (.parse ⟨tree, root.score, sentence⟩) from hanswer]
      have below := sound.consistent.linked _ _ head hbuilt hhead
      obtain ⟨child, hchild⟩ := Arena.exists_built?
        (Nat.lt_trans below (Arena.lt_size_of_built? hbuilt))
      obtain ⟨tree', htree', pictures⟩ := sound.built.exists_tree hchild
      obtain rfl : tree = tree' := Except.ok.inj (htree.symm.trans htree')
      exact ⟨hskips, rfl, ⟨e, winner, describes.score.symm⟩, Derivation.resolve_succeeds
        (sound.built.tree_labels names named hchild htree) pictures.leaves named⟩

theorem decode_sound (coherent : d.Coherent) (discounts : d.grammar.model.Discounts)
    (valid : d.grammar.settings.Valid) (h : skips d.grammar sentence = false) :
    (d.decode sentence).1.chart.Sound d.grammar sentence ∧
      (d.decode sentence).2 = (best? d.grammar (d.decode sentence).1.chart sentence).map
        fun found => found.elim (.noParse sentence) .parse := by
  have discounted : Search.Discounted d.grammar d.chart sentence :=
    ⟨coherent.settings, ne_nil_of_skips h, discounts, valid.beamWidth, valid.maxCellSize⟩
  obtain ⟨s, hrun, passes⟩ := discounted.tempered.run
  obtain ⟨-, hchart, hanswer⟩ := decode_eq coherent h hrun
  rw [hchart]
  exact ⟨discounted.sound passes.visits, hanswer⟩

theorem decode_replies (coherent : d.Coherent) (discounts : d.grammar.model.Discounts)
    (valid : d.grammar.settings.Valid) (names : d.grammar.Named symbols)
    (named : ∀ token ∈ sentence, Sentence.Named symbols token) :
    Replies d.grammar symbols sentence (d.decode sentence).1.chart (d.decode sentence).2 := by
  cases hskips : skips d.grammar sentence with
  | true =>
    rw [decode_skipped hskips]
    exact ⟨rfl, Or.inl hskips⟩
  | false =>
    obtain ⟨sound, hanswer⟩ := decode_sound coherent discounts valid hskips
    rw [hanswer]
    exact replies_of_best sound hskips names named

end Decoder

/-- Whatever settings, model and words were read, a decoder replies to them, after any earlier
sentences. -/
theorem decode_replies_after (settingsText modelText : String) (settings : Settings)
    (table : Model.Table) (raw : List String) (earlier : List Sentence) (sentence : Sentence)
    (readSettings : Settings.ofText settingsText = .ok settings)
    (readModel : Model.Table.ofText settings.frames modelText = .ok table)
    (readWords : Sentence.ofWords table.symbols (Language.treebank table.symbols) raw =
      .ok sentence) :
    let g : Grammar := ⟨table.model, Language.treebank table.symbols, settings⟩
    let decoded := (Decoder.after g earlier).decode sentence
    Decoder.Replies g table.symbols sentence decoded.1.chart decoded.2 := by
  intro g decoded
  have valid : g.settings.Valid := Settings.valid_of_ofText readSettings
  obtain ⟨statements, hstatements, hmodel⟩ := Outcome.map_eq_ok.mp readModel
  have discounting : table.Discounting := hmodel ▸
    Model.Table.discounting_ofStatements (Model.discounts_of_readStatements hstatements)
  have names : table.Named := hmodel ▸ Model.Table.named_ofStatements _ statements
  have named := Sentence.named_of_ofWords names.sentinels readWords
  obtain ⟨hg, coherent⟩ := Decoder.coherent_after g earlier
  have replies : Decoder.Replies (Decoder.after g earlier).grammar table.symbols sentence
      decoded.1.chart decoded.2 := by
    refine Decoder.decode_replies coherent ?_ ?_ ?_ named
    · rw [hg]
      exact discounting.model
    · rw [hg]
      exact valid
    · rw [hg]
      exact names.treebank settings
  rwa [hg] at replies

theorem sample_replies :
    let g : Grammar :=
      ⟨Sample.towerTable.model, Language.treebank Sample.towerTable.symbols, Settings.default⟩
    let decoded := (Decoder.after g []).decode Sample.sentence
    Settings.ofText "" = .ok Settings.default ∧
    Model.Table.ofText Settings.default.frames Sample.towerText = .ok Sample.towerTable ∧
    Sentence.ofWords Sample.towerTable.symbols g.language ["b", "a", "b"] = .ok Sample.sentence ∧
    ∃ found tree, decoded.2 = .ok (.parse found) ∧
      found.resolve Sample.towerTable.symbols = .ok tree := by
  intro g decoded
  have readSettings : Settings.ofText "" = .ok Settings.default :=
    Outcome.eq_ok_of_toOption (by decide +kernel)
  have readModel : Model.Table.ofText Settings.default.frames Sample.towerText =
      .ok Sample.towerTable := by
    rw [Model.Table.ofText, Sample.statements_towerText]
    rfl
  have readWords : Sentence.ofWords Sample.towerTable.symbols g.language ["b", "a", "b"] =
      .ok Sample.sentence := Outcome.eq_ok_of_toOption (by decide +kernel)
  have parses : (match decoded.2 with
      | .ok (.parse _) => true
      | _ => false) = true := by decide +kernel
  have replies : Decoder.Replies g Sample.towerTable.symbols Sample.sentence decoded.1.chart
      decoded.2 := decode_replies_after "" Sample.towerText Settings.default Sample.towerTable
    ["b", "a", "b"] [] Sample.sentence readSettings readModel readWords
  refine ⟨readSettings, readModel, readWords, ?_⟩
  split at parses
  · rename_i found hfound
    have hfound : decoded.2 = .ok (.parse found) := hfound
    rw [hfound] at replies
    obtain ⟨-, -, -, tree, shown⟩ := replies
    exact ⟨found, tree, hfound, shown⟩
  · cases parses

/-- The word `a` under the top label. -/
theorem top_tagged_word_fails :
    let t := Model.Table.ofStatements .bag [.tags "a" ["+TOP+"]]
    let g : Grammar := ⟨t.model, Language.treebank t.symbols, Settings.default⟩
    Settings.ofText "" = .ok Settings.default ∧
    Model.Table.ofText Settings.default.frames "tags a +TOP+;" = .ok t ∧
    Sentence.ofWords t.symbols g.language ["a"] = .ok [.known ⟨4⟩ []] ∧
    ((Decoder.ofGrammar g).decode [.known ⟨4⟩ []]).2 = .error .headlessTop := by
  intro t g
  refine ⟨Outcome.eq_ok_of_toOption (by decide +kernel), ?_,
    Outcome.eq_ok_of_toOption (by decide +kernel), ?_⟩
  · have read : Model.statements "tags a +TOP+;" = .ok [.tags "a" ["+TOP+"]] :=
      Outcome.eq_ok_of_toOption (by decide +kernel)
    rw [Model.Table.ofText, read]
    rfl
  · have fails : (match ((Decoder.ofGrammar g).decode [.known ⟨4⟩ []]).2 with
        | .error fault => fault = .headlessTop
        | .ok _ => false) = true := by decide +kernel
    split at fails
    · rename_i fault hfault
      rw [hfault, of_decide_eq_true fails]
    · cases fails

end HeadDriven
