import HeadDriven.Chart.Display
import HeadDriven.Proofs.Names
import HeadDriven.Proofs.Soundness

/-! Charts in names. The head word of an item is a word of the sentence under one of its
candidate tags, so every item of a sound chart can be shown in names, and with them the chart. -/
namespace HeadDriven

variable {g : Grammar} {sentence : Sentence} {symbols : SymbolTable} {a : Arena} {c : Chart}
  {index first last : Nat} {item : Item}

theorem Arena.Built.headWord (built : a.Built g sentence) (h : a.built? index = some item) :
    ∃ token ∈ sentence, ∃ tag ∈ g.candidateTags token, item.headWord = ⟨token.word, tag⟩ := by
  refine built.induction (P := fun _ item => ∃ token ∈ sentence, ∃ tag ∈ g.candidateTags token,
    item.headWord = ⟨token.word, tag⟩) (fun index item h before => ?_) h
  cases h with
  | seed word h => exact ⟨_, List.mem_of_getElem? word, _, h.candidate, rfl⟩
  | attach under =>
    rw [Grammar.headWord_attachment]
    exact before _ _ under
  | project under | stop under | root under =>
    have below := before _ _ under
    exact below

namespace Chart

theorem itemLine_succeeds {label word tag : String} (hlabel : symbols.name item.label = .ok label)
    (hword : symbols.name item.headWord.word = .ok word)
    (htag : symbols.name item.headWord.tag = .ok tag) :
    ∃ text, itemLine symbols item = .ok text := by
  rw [itemLine, hlabel, hword, htag]
  exact ⟨_, rfl⟩

theorem Sound.cellText_succeeds (sound : c.Sound g sentence) (names : g.Named symbols)
    (named : ∀ token ∈ sentence, Sentence.Named symbols token) (inside : c.Inside first last) :
    ∃ text, c.cellText symbols first last = .ok text := by
  obtain ⟨indices, hcell, mem⟩ := cellItems_eq sound.consistent inside
  have line (index : Nat) (h : index ∈ indices) :
      ∃ text, (do itemLine symbols (← c.item index)) = .ok text := by
    obtain ⟨item, live⟩ := (mem index).mp h
    have built := live.built? sound.consistent
    obtain ⟨token, ht, tag, candidate, head⟩ := sound.built.headWord built
    obtain ⟨label, hlabel⟩ := (sound.built.knows_label names named built).name
    obtain ⟨word, hword⟩ := (named token ht).word.name
    obtain ⟨tag, htag⟩ := (names.candidateTags (named token ht) tag candidate).name
    rw [Chart.item, Arena.get_eq_ok_iff.mpr live.stored, Outcome.ok_bind]
    exact itemLine_succeeds hlabel (by rw [head, hword]) (by rw [head, htag])
  obtain ⟨lines, hlines⟩ := Outcome.mapM_succeeds line
  rw [cellText, hcell, Outcome.ok_bind, hlines]
  split
  · exact ⟨_, rfl⟩
  · exact ⟨_, rfl⟩

theorem Sound.display_succeeds (sound : c.Sound g sentence) (names : g.Named symbols)
    (named : ∀ token ∈ sentence, Sentence.Named symbols token) :
    ∃ text, c.display symbols = .ok text := by
  have cell (span : Nat × Nat) (h : span ∈ spans c.size) :
      ∃ text, c.cellText symbols span.1 span.2 = .ok text :=
    sound.cellText_succeeds names named (Search.mem_spans_iff.mp h)
  obtain ⟨texts, htexts⟩ := Outcome.mapM_succeeds cell
  rw [display, htexts]
  exact ⟨_, rfl⟩

end Chart

end HeadDriven
