import HeadDriven.Proofs.Geometry

/-! The top of a filled chart. An item under the top label is a single word with that
tag or a top transition over the whole sentence. A decode reads its answer off the
first item of the top group: without one there is no parse; a single word is a fault;
a top transition gives the tree of its head child and its own score. Apart from that
fault a decode only fails for want of positions. -/
namespace HeadDriven

variable {g : Grammar} {sentence : Sentence} {a : Arena} {index : Nat} {item : Item}

theorem Arena.Built.label_ne_top (built : a.Built g sentence) (h : a.built? index = some item)
    (growing : item.stopped = false) : item.label ≠ g.language.topLabel := by
  refine built.induction (P := fun _ item => item.stopped = false →
    item.label ≠ g.language.topLabel) (fun index item h before growing => ?_) h growing
  cases h with
  | seed | stop | root => cases growing
  | project under h => exact h.notTop
  | attach under modifier joins h =>
    rw [Grammar.label_attachment]
    exact before _ _ under joins.growing

theorem Arena.Built.root_of_top (built : a.Built g sentence) (h : a.built? index = some item)
    (head : item.headChild.isSome = true) (top : item.label = g.language.topLabel) :
    ∃ i child, a.Holds index i child ∧ child.first = 0 ∧ child.last + 1 = sentence.length ∧
      g.Roots child ∧ item = g.rooted i child := by
  cases built index item h with
  | seed => cases head
  | project under projects => exact absurd top projects.notTop
  | attach under modifier joins =>
    rw [Grammar.label_attachment] at top
    exact absurd top (built.label_ne_top under.built joins.growing)
  | stop under stops =>
    have grows := built.label_ne_top under.built stops.growing
    exact absurd top grows
  | root under whole roots => exact ⟨_, _, under, whole.1, whole.2, roots, rfl⟩

namespace Decoder

variable {d : Decoder} {c : Chart}

structure Answers (g : Grammar) (chart : Chart) (sentence : Sentence) (e : Entry)
    (answer : Except Fault Decoded) : Prop where
  root : ∃ root, chart.Resides 0 (sentence.length - 1) g.language.topLabel e.index root ∧
    chart.Describes g.language e root ∧
    match root.headChild with
    | none => answer = .error .headlessTop
    | some head => ∃ tree, chart.arena.tree head = .ok tree ∧
      answer = .ok (.parse ⟨tree, root.score, sentence⟩)

theorem best?_eq (sound : c.Sound g sentence) (words : sentence ≠ []) :
    let answer := (best? g c sentence).map fun found =>
      found.elim (.noParse sentence) .parse
    match (c.groupAt 0 (sentence.length - 1) g.language.topLabel).best? with
    | none => answer = .ok (.noParse sentence)
    | some e => Answers g c sentence e answer := by
  have hpos := List.length_pos_iff.mpr words
  have inside : c.Inside 0 (sentence.length - 1) := ⟨Nat.zero_le _, by
    rw [sound.size]
    omega⟩
  have htop : top? g c = .ok
      ((c.groupAt 0 (sentence.length - 1) g.language.topLabel).best?.map Entry.index) := by
    rw [top?, Chart.group?, sound.size, Chart.cell_of_inside inside, Outcome.map_ok,
      Outcome.map_ok, Chart.groupAt]
    cases Cell.group? _ g.language.topLabel <;> rfl
  intro answer
  have hanswer : answer = (best? g c sentence).map fun found =>
    found.elim (.noParse sentence) .parse := rfl
  rw [best?, htop, Outcome.ok_bind] at hanswer
  split
  · rename_i hnone
    rw [hnone] at hanswer
    exact hanswer
  · rename_i e hbest
    have he : e ∈ (c.groupAt 0 (sentence.length - 1) g.language.topLabel).entries :=
      List.mem_of_mem_head? hbest
    obtain ⟨root, resides, describes⟩ :=
      sound.consistent.placed _ _ inside g.language.topLabel e he
    refine ⟨root, resides, describes, ?_⟩
    rw [hbest, Option.map_some] at hanswer
    have hget : c.item e.index = .ok root := Arena.get_eq_ok_iff.mpr resides.stored
    simp only [derivation, hget, Outcome.ok_bind] at hanswer
    cases hhead : root.headChild with
    | none =>
      rw [hhead] at hanswer
      exact hanswer
    | some head =>
      have hbuilt := Arena.built?_of_items resides.stored
      have below := sound.consistent.linked _ _ head hbuilt hhead
      obtain ⟨child, hchild⟩ := Arena.exists_built?
        (Nat.lt_trans below (Arena.lt_size_of_built? hbuilt))
      obtain ⟨tree, htree, -⟩ := sound.built.exists_tree hchild
      refine ⟨tree, htree, ?_⟩
      simp only [hhead, htree, Outcome.ok_bind] at hanswer
      exact hanswer

/-- A decode fails for want of positions, or leaves a chart that it has visited and answers from
its top group. -/
theorem decode_cases (coherent : d.Coherent) (hskips : skips d.grammar sentence = false) :
    ((d.decode sentence).2 = .error .arenaOverflow ∧
      ∃ chart, d.Visits sentence chart ∧ Arena.capacity < chart.arena.size) ∨
    ∃ chart, d.Visits sentence chart ∧
      match (chart.groupAt 0 (sentence.length - 1) d.grammar.language.topLabel).best? with
      | none => (d.decode sentence).2 = .ok (.noParse sentence)
      | some e => Answers d.grammar chart sentence e (d.decode sentence).2 := by
  cases hrun : Search.run d.grammar d.chart sentence with
  | error fault =>
    obtain ⟨rfl, full⟩ := run_overflows hskips coherent.settings hrun
    exact Or.inl ⟨by rw [decode_error coherent hskips hrun], full⟩
  | ok s =>
    have visited := visits_run hskips coherent.settings hrun
    refine Or.inr ⟨s.chart, visited, ?_⟩
    rw [(decode_eq coherent hskips hrun).2.2]
    exact best?_eq (visited.sound coherent.settings) (ne_nil_of_skips hskips)

/-- Under any model a decode fails in two ways: a single word is the best top item, or a chart
has come to hold more items than there are positions. -/
theorem faults_of_decode (coherent : d.Coherent) {fault : Fault}
    (h : (d.decode sentence).2 = .error fault) :
    fault = .headlessTop ∨ fault = .arenaOverflow ∧
      ∃ chart, d.Visits sentence chart ∧ Arena.capacity < chart.arena.size := by
  cases hskips : skips d.grammar sentence with
  | true => simp [decode, hskips] at h
  | false =>
    obtain ⟨overflow, full⟩ | ⟨chart, -, answers⟩ := decode_cases coherent hskips
    · rw [h, Except.error.injEq] at overflow
      exact Or.inr ⟨overflow, full⟩
    · rw [h] at answers
      split at answers
      · cases answers
      · obtain ⟨root, -, -, hroot⟩ := answers
        cases hhead : root.headChild with
        | none =>
          rw [hhead, Except.error.injEq] at hroot
          exact Or.inl hroot
        | some head =>
          rw [hhead] at hroot
          obtain ⟨_, -, hanswer⟩ := hroot
          cases hanswer

/-- The tree of a parse is that of the head child of a top transition in the last chart. -/
theorem chart_of_parse (coherent : d.Coherent) {found : Derivation}
    (h : (d.decode sentence).2 = .ok (.parse found)) :
    found.sentence = sentence ∧ ∃ (chart : Chart) (i : Nat) (child : Item),
      d.Visits sentence chart ∧ chart.arena.built? i = some child ∧
      child.span = (0, sentence.length) ∧ chart.arena.tree i = .ok found.tree := by
  cases hskips : skips d.grammar sentence with
  | true => simp [decode, hskips] at h
  | false =>
    obtain ⟨overflow, -⟩ | ⟨chart, visited, answers⟩ := decode_cases coherent hskips
    · rw [h] at overflow
      cases overflow
    have sound := visited.sound coherent.settings
    rw [h] at answers
    split at answers
    · cases answers
    · obtain ⟨root, resides, -, hroot⟩ := answers
      cases hhead : root.headChild with
      | none =>
        rw [hhead] at hroot
        cases hroot
      | some head =>
        rw [hhead] at hroot
        obtain ⟨tree, htree, hfound⟩ := hroot
        obtain rfl : found = ⟨tree, root.score, sentence⟩ := by simpa using hfound
        have hbuilt := Arena.built?_of_items resides.stored
        rw [Item.copy_of_fresh resides.live] at hbuilt
        -- A head child makes the root a top transition over an item of the whole sentence.
        obtain ⟨i, child, under, hfirst, hlast, -, hrooted⟩ := sound.built.root_of_top hbuilt
          (by rw [hhead]; rfl) resides.label
        rw [hrooted] at hhead
        obtain rfl : i = head := Option.some.inj hhead
        have whole : child.span = (0, sentence.length) := by rw [Item.span, hfirst, hlast]
        exact ⟨rfl, chart, i, child, visited, under.built, whole, htree⟩

theorem child_of_parse (coherent : d.Coherent) {found : Derivation}
    (h : (d.decode sentence).2 = .ok (.parse found)) :
    found.sentence = sentence ∧ ∃ (a : Arena) (i : Nat) (child : Item),
      a.Built d.grammar sentence ∧ a.built? i = some child ∧
      child.span = (0, sentence.length) ∧ a.tree i = .ok found.tree := by
  obtain ⟨same, chart, i, child, visited, stored, whole, htree⟩ := chart_of_parse coherent h
  exact ⟨same, chart.arena, i, child, (visited.sound coherent.settings).built, stored, whole, htree⟩

theorem parse_pictures (coherent : d.Coherent) {found : Derivation}
    (h : (d.decode sentence).2 = .ok (.parse found)) :
    found.tree.span = (0, sentence.length) ∧ found.tree.Tiled ∧
      found.tree.leaves = sentence.leaves (0, sentence.length) := by
  obtain ⟨-, a, i, child, built, hchild, whole, htree⟩ := child_of_parse coherent h
  obtain ⟨tree, htree', pictures⟩ := built.exists_tree hchild
  obtain rfl : found.tree = tree := Except.ok.inj (htree.symm.trans htree')
  exact ⟨pictures.span.trans whole, pictures.tiled, whole ▸ pictures.leaves⟩

end Decoder

/-- Throughout a decode, items are offered to the cell of their span, have finished items
stored before them for children, which tile them, and stand for a tree over the words of
their span. A parse spans the whole sentence. -/
theorem decode_geometry (g : Grammar) (earlier : List Sentence) (sentence : Sentence) :
    (∀ p first last item, (Decoder.after g earlier).Passes sentence p →
      p.Offers first last item →
        item.first = first ∧ item.last = last ∧ first ≤ last ∧ last < sentence.length) ∧
    (∀ chart index item, (Decoder.after g earlier).Visits sentence chart →
      chart.arena.items[index]? = some item →
        (∀ child ∈ item.constituents, chart.arena.Finished index child) ∧
        (item.headChild.isSome = true →
          Tiles item.first (item.last + 1) (item.constituents.map chart.arena.spanOf)) ∧
        ∃ tree, chart.arena.tree index = .ok tree ∧ Pictures sentence item tree) ∧
    ∀ found, ((Decoder.after g earlier).decode sentence).2 = .ok (.parse found) →
      found.tree.span = (0, sentence.length) ∧ found.tree.Tiled ∧
        found.tree.leaves = sentence.leaves (0, sentence.length) := by
  refine ⟨?_, ?_, ?_⟩
  · rintro p first last item passes ⟨items, taken, next, rest, hagenda⟩
    have sound := passes.sound_after
    obtain ⟨inside, offerable, -⟩ := sound.ready (.offers first last (item :: items) taken next)
      (by rw [hagenda]; exact List.mem_cons_self)
    obtain ⟨-, hfirst, hlast⟩ := offerable item List.mem_cons_self
    exact ⟨hfirst, hlast, inside.1, sound.chart.size ▸ inside.2⟩
  · intro chart index item visited stored
    have sound := visited.sound_after
    have hbuilt := Arena.built?_of_items stored
    obtain ⟨tree, htree, pictures⟩ := sound.built.exists_tree hbuilt
    refine ⟨fun child hc => ?_, fun head => ?_, tree, htree,
      pictures.span, pictures.tiled, pictures.leaves⟩
    · rcases sound.built.arranged hbuilt with single | branches
      · rw [show item.constituents = [] from single.constituents] at hc
        exact absurd hc List.not_mem_nil
      · exact branches.finished child hc
    · rcases sound.built.arranged hbuilt with single | branches
      · rw [show item.headChild = none from single.headChild] at head
        cases head
      · exact branches.tiles
  · intro found h
    exact Decoder.parse_pictures (Decoder.coherent_after g earlier).2 h

/-- The first offer of `b a b`, the item over the whole sentence with its three children, and
the parse. -/
theorem sample_decode_geometry :
    (∃ p item, (Decoder.after Sample.grammar []).Passes Sample.sentence p ∧ p.Offers 0 0 item ∧
      item.first = 0 ∧ item.last = 0) ∧
    (∃ chart item, (Decoder.after Sample.grammar []).Visits Sample.sentence chart ∧
      chart.arena.items[7]? = some item ∧ item.constituents = [0, 1, 3] ∧
      Tiles item.first (item.last + 1) ([0, 1, 3].map chart.arena.spanOf)) ∧
    ∃ found, ((Decoder.after Sample.grammar []).decode Sample.sentence).2 = .ok (.parse found) ∧
      found.tree.span = (0, 3) := by
  obtain ⟨offers, stored, parses⟩ := decode_geometry Sample.grammar [] Sample.sentence
  refine ⟨?_, ?_, ?_⟩
  · obtain ⟨item, items, hitems⟩ := List.exists_cons_of_ne_nil
      (l := Sample.grammar.preterminals 0 (.known ⟨6⟩ [])) (by decide +kernel)
    let start := Search.start (Chart.empty Settings.default) Sample.sentence
    let p : Search.Progress := ⟨start.search,
      .offers 0 0 (Sample.grammar.preterminals 0 (.known ⟨6⟩ [])) [] .close :: start.agenda.tail⟩
    have passes : (Decoder.after Sample.grammar []).Passes Sample.sentence p :=
      ⟨by decide +kernel, .step .refl rfl⟩
    have hoffers : p.Offers 0 0 item := ⟨items, [], .close, start.agenda.tail, by rw [← hitems]⟩
    obtain ⟨hfirst, hlast, -⟩ := offers p 0 0 item passes hoffers
    exact ⟨p, item, passes, hoffers, hfirst, hlast⟩
  · obtain ⟨chart, visited, h⟩ := Decoder.exists_visited Sample.grammar Sample.sentence
      (fun chart => chart.arena.items[7]?.any fun item =>
        item.headChild.isSome && item.constituents = [0, 1, 3])
      (by decide +kernel) (by decide +kernel)
    obtain ⟨item, hitem, hcheck⟩ := (Option.any_eq_true _ _).mp h
    simp only [Bool.and_eq_true, decide_eq_true_eq] at hcheck
    obtain ⟨-, tiles, -⟩ := stored chart 7 item visited hitem
    exact ⟨chart, item, visited, hitem, hcheck.2, hcheck.2 ▸ tiles hcheck.1⟩
  · have h : (match ((Decoder.after Sample.grammar []).decode Sample.sentence).2 with
        | .ok (.parse _) => true
        | _ => false) = true := by decide +kernel
    split at h
    · rename_i found hfound
      exact ⟨found, hfound, (parses found hfound).1⟩
    · cases h

end HeadDriven
