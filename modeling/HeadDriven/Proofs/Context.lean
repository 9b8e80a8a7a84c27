import HeadDriven.Proofs.Sides

/-! What later modifiers of an item are conditioned on. Its histories, its previous words and its
verb flags tell of its children what the windows leave of them, and of nothing else; its head word
is that of the single word to which its head children lead, and lies within its span. -/
namespace HeadDriven

/-- What a side tells of its children, the outermost first. -/
structure Tells (g : Grammar) (a : Arena) (bound : Nat) (side : SideInfo) (children : List Item)
    (verbs : List Bool) : Prop where
  stored : List.Forall₂ (a.Holds bound) side.children children
  answers : List.Forall₂ (fun child verb => ∃ asked,
    a.askVerb g.language g.settings.baseNpVerbBarrier child = .ok (verb, asked)) side.children verbs
  labels : side.prevMods =
    (children.map Item.label ++ List.replicate g.settings.historyWindow Symbol.start).take
      g.settings.historyWindow
  words : side.prevWords =
    (children.map Item.headWord ++ List.replicate g.settings.prevWordWindow
      g.language.startWord).take g.settings.prevWordWindow
  verb : side.verb = verbs.any id

/-- The head children of the item at a position lead to a single word. -/
inductive Arena.HeadedBy (a : Arena) (word : Item) : Nat → Prop where
  | word {index : Nat} (stored : a.built? index = some word) (single : word.headChild = none) :
      HeadedBy a word index
  | head {index child : Nat} {item : Item} (stored : a.built? index = some item)
      (link : item.headChild = some child) (headed : HeadedBy a word child) : HeadedBy a word index

/-- A word of the sentence under its tag, within the span of an item whose head word it is. -/
structure Item.Spoken (sentence : Sentence) (item word : Item) : Prop where
  headWord : item.headWord = word.headWord
  tag : word.label = word.headWord.tag
  last : word.last = word.first
  within : item.first ≤ word.first ∧ word.first ≤ item.last
  token : ∃ token, sentence[word.first]? = some token ∧ token.word = word.headWord.word

variable {g : Grammar} {sentence : Sentence} {a : Arena} {bound index : Nat} {item : Item}
  {frame : Frame} {modifiers : List Modifier} {side : SideInfo}

theorem Carries.tells (h : Carries g a bound frame modifiers side)
    (sound : a.Remembers g.language g.settings.baseNpVerbBarrier) (linked : a.Linked) :
    Tells g a bound side (modifiers.map Modifier.item) (modifiers.map Modifier.verb) where
  stored := h.stored_row
  answers := by
    rw [h.children_eq, List.forall₂_map_left_iff, List.forall₂_map_right_iff, List.forall₂_same]
    intro d hd
    obtain ⟨holds, -, asked⟩ := h.stored d hd
    obtain ⟨others, answer, -⟩ :=
      Arena.askVerb_eq sound linked (Arena.lt_size_of_built? holds.built)
    exact ⟨others, by rw [answer, asked]; rfl⟩
  labels := by rw [h.side_eq, Grammar.prevMods_sideAfter, List.map_map]; rfl
  words := by rw [h.side_eq, Grammar.prevWords_sideAfter, List.map_map]; rfl
  verb := by rw [h.side_eq, Grammar.verb_sideAfter, List.any_map]; rfl

theorem Tiles.within {first stop : Nat} {spans : List Span} (h : Tiles first stop spans)
    {span : Span} (hspan : span ∈ spans) : first ≤ span.1 ∧ span.2 ≤ stop := by
  induction spans generalizing first with
  | nil => cases hspan
  | cons s spans ih =>
    obtain ⟨rfl, hlt, rest⟩ := h
    rcases List.mem_cons.mp hspan with rfl | hspan
    · exact ⟨Nat.le_refl _, rest.le⟩
    · have tail := ih rest hspan
      exact ⟨Nat.le_trans (Nat.le_of_lt hlt) tail.1, tail.2⟩

theorem Branches.head_within {child : Nat} {head : Item} (h : Branches a bound item)
    (link : item.headChild = some child) (holds : a.Holds bound child head) :
    item.first ≤ head.first ∧ head.last ≤ item.last := by
  have mem : head.span ∈ item.constituents.map a.spanOf := by
    rw [← holds.spanOf]
    exact List.mem_map_of_mem (by simp [Item.constituents, link])
  exact (h.tiles.within mem).imp_right Nat.le_of_succ_le_succ

theorem Arena.Built.spoken (built : a.Built g sentence) (h : a.built? index = some item) :
    ∃ word, a.HeadedBy word index ∧ item.Spoken sentence word := by
  induction index using Nat.strongRecOn generalizing item with
  | ind index ih =>
    cases built.formed h with
    | word word _ same =>
      subst same
      exact ⟨_, .word h rfl, rfl, rfl, rfl, ⟨Nat.le_refl _, Nat.le_refl _⟩, _, word, rfl⟩
    | compound formed =>
      obtain ⟨child, head, link, holds, headWord, -⟩ := formed.head
      obtain ⟨word, headed, spoken⟩ := ih child holds.below holds.built
      have within : item.first ≤ head.first ∧ head.last ≤ item.last := by
        rcases built.arranged h with single | branches
        · rw [single.headChild] at link
          cases link
        · exact branches.head_within link holds
      exact ⟨word, .head h link headed, headWord.trans spoken.headWord, spoken.tag, spoken.last,
        ⟨Nat.le_trans within.1 spoken.within.1, Nat.le_trans spoken.within.2 within.2⟩,
        spoken.token⟩

/-- The context of every item that a decode stores is a function of its children. -/
theorem children_tell_context (g : Grammar) (earlier : List Sentence) (sentence : Sentence)
    (chart : Chart) (visited : (Decoder.after g earlier).Visits sentence chart) (index : Nat)
    (item : Item) (stored : chart.arena.items[index]? = some item) :
    (∀ side, ∃ children verbs,
      Tells g chart.arena index (item.side side) children verbs) ∧
    (∀ child, item.headChild = some child →
      ∃ head, chart.arena.Holds index child head ∧ item.headWord = head.headWord) ∧
    ∃ word, chart.arena.HeadedBy word index ∧ item.Spoken sentence word := by
  have sound := visited.sound_after
  have built := Arena.built?_of_items stored
  have formed := sound.built.formed built
  refine ⟨fun side => ?_, fun child link => ?_, ?_⟩
  · obtain ⟨frame, modifiers, h⟩ := formed.exists_carries side
    have remembers := sound.consistent.remembers
    rw [sound.settings] at remembers
    have tells := h.tells remembers sound.consistent.linked
    cases side <;> exact ⟨_, _, tells⟩
  · cases formed with
    | word _ _ same =>
      have none : item.headChild = none := congrArg Item.headChild same
      rw [none] at link
      cases link
    | compound h =>
      obtain ⟨child', head, link', holds, headWord, -⟩ := h.head
      obtain rfl : child = child' := Option.some.inj (link.symm.trans link')
      exact ⟨head, holds, headWord⟩
  · obtain ⟨word, headed, spoken⟩ := sound.built.spoken built
    exact ⟨word, headed, spoken.headWord, spoken.tag, spoken.last, spoken.within, spoken.token⟩

/-- The stopped item over `b a b` tells of the `b` on its left; its head is the `a`. -/
theorem sample_children_tell_context : ∃ chart item children verbs word,
    (Decoder.after Sample.grammar []).Visits Sample.sentence chart ∧
      chart.arena.items[7]? = some item ∧ item.left.children = [0] ∧ children.length = 1 ∧
      Tells Sample.grammar chart.arena 7 item.left children verbs ∧
      chart.arena.HeadedBy word 7 ∧ item.Spoken Sample.sentence word ∧
      word.headWord.word = ⟨4⟩ := by
  obtain ⟨chart, visited, h⟩ := Decoder.exists_visited Sample.grammar Sample.sentence
    (fun chart => chart.arena.items[7]?.any fun item =>
      item.left.children = [0] && item.headWord.word = ⟨4⟩)
    (by decide +kernel) (by decide +kernel)
  obtain ⟨item, stored, hitem⟩ := (Option.any_eq_true _ _).mp h
  simp only [Bool.and_eq_true, decide_eq_true_eq] at hitem
  obtain ⟨tells, -, word, headed, spoken⟩ :=
    children_tell_context Sample.grammar [] Sample.sentence chart visited 7 item stored
  obtain ⟨children, verbs, left⟩ := tells .left
  have one : children.length = 1 := by
    rw [← left.stored.length_eq, show (item.side .left).children = [0] from hitem.1]
    rfl
  exact ⟨chart, item, children, verbs, word, visited, stored, hitem.1, one, left, headed, spoken,
    spoken.headWord ▸ hitem.2⟩

end HeadDriven
