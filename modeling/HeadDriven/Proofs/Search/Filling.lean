import HeadDriven.Proofs.Search.Closing

/-! Filling a chart without pruning. Cells are filled in an order in which no cell lies
within one that came before it, so what a cell was filled from never changes afterwards.
In the end every cell is closed and covers the attachments of all pairs that fill its
span, and the top group covers the roots. -/
namespace HeadDriven.Search

/-- A cell that covers whatever one step builds over its span. -/
structure Filled (s : Search) (g : Grammar) (sentence : Sentence) (first last : Nat) : Prop where
  inside : s.chart.Inside first last
  closed : s.chart.Closed g first last
  seeds : first = last → ∀ token tag, sentence[first]? = some token → g.Seeds token tag →
    s.chart.Covers g.language (g.seeded first token tag)
  attachments : first < last → ∀ split side i m j d, s.Pair first split last side i m j d →
    g.MayCut sentence split last → ∀ y,
      (g.attach (s.chart.arena.modificand i m) (g.modifier s.chart.arena j d) side).built =
        some y → s.chart.Covers g.language y

structure Completes (g : Grammar) (sentence : Sentence) (s t : Search) (first last : Nat) :
    Prop where
  improves : s.chart.Improves t.chart
  filled : t.Filled g sentence first last
  rootless : s.chart.Rootless g → t.chart.Rootless g
  others : s.chart.SameBut t.chart first last

variable {g : Grammar} {sentence : Sentence} {chart : Chart} {s t : Search}
  {first last split : Nat} {rest : List Task} {side : Side} {i j : Nat} {m d : Item}

/-- A pair in a later chart was there before if the smaller cells of its span have not
changed. -/
theorem Pair.before (pair : t.Pair first split last side i m j d)
    (grows : s.chart.Grows t.chart) (ok : s.chart.Consistent g.language)
    (ok' : t.chart.Consistent g.language)
    (same : ∀ f l, first ≤ f → l ≤ last → s.chart.Inside f l → (f, l) ≠ (first, last) →
      ∀ label, t.chart.groupAt f l label = s.chart.groupAt f l label) :
    s.Pair first split last side i m j d := by
  have hm := pair.head.inside.1
  have hd := pair.modifier.inside.1
  have spans : (first ≤ m.first ∧ m.last ≤ last ∧ (m.first, m.last) ≠ (first, last)) ∧
      first ≤ d.first ∧ d.last ≤ last ∧ (d.first, d.last) ≠ (first, last) := by
    obtain ⟨hlf, hll⟩ := pair.left
    obtain ⟨hrf, hrl⟩ := pair.right
    cases side <;> simp only [Side.leftPart, Side.rightPart] at hlf hll hrf hrl <;>
      simp only [ne_eq, Prod.mk.injEq] <;> omega
  obtain ⟨⟨hmf, hml, hmne⟩, hdf, hdl, hdne⟩ := spans
  exact { pair with
    head := pair.head.elsewhere grows ok ok'
      (same _ _ hmf hml (grows.inside.mp pair.head.inside) hmne)
    modifier := pair.modifier.elsewhere grows ok ok'
      (same _ _ hdf hdl (grows.inside.mp pair.modifier.inside) hdne) }

theorem Pair.attach_eq (pair : s.Pair first split last side i m j d)
    (grows : s.chart.Grows t.chart) (ok : s.chart.Consistent g.language) :
    g.attach (t.chart.arena.modificand i m) (g.modifier t.chart.arena j d) side =
      g.attach (s.chart.arena.modificand i m) (g.modifier s.chart.arena j d) side := by
  rw [grows.arena.modificand ok.linked (pair.head.holds ok),
    grows.arena.modifier (pair.modifier.holds ok)]

theorem Unpruned.attachment_keeps (u : Unpruned g chart sentence)
    (hs : Visits g chart sentence s.chart) (improves : s.chart.Improves t.chart)
    (inside : s.chart.Inside first last)
    (pair : s.Pair first split last side i m j d) (cut : g.MayCut sentence split last)
    (covered : ∀ y, (g.attach (s.chart.arena.modificand i m)
      (g.modifier s.chart.arena j d) side).built = some y → s.chart.Covers g.language y)
    {y : Item} (hy : (g.attach (t.chart.arena.modificand i m)
      (g.modifier t.chart.arena j d) side).built = some y) : t.chart.Covers g.language y := by
  have sound := u.sound hs
  rw [pair.attach_eq improves.grows sound.consistent] at hy
  exact u.covers_keeps hs improves inside (offerable_of_pair sound pair cut hy) (covered y hy)

theorem Unpruned.seed_keeps (u : Unpruned g chart sentence)
    (hs : Visits g chart sentence s.chart) (improves : s.chart.Improves t.chart)
    {position : Nat} {token : Token} {tag : Symbol}
    (inside : s.chart.Inside position position) (word : sentence[position]? = some token)
    (seeds : g.Seeds token tag) (h : s.chart.Covers g.language (g.seeded position token tag)) :
    t.chart.Covers g.language (g.seeded position token tag) :=
  u.covers_keeps hs improves inside ⟨.seed word seeds, rfl, rfl⟩ h

theorem Unpruned.filled_keeps (u : Unpruned g chart sentence)
    (hs : Visits g chart sentence s.chart) (ht : Visits g chart sentence t.chart)
    (improves : s.chart.Improves t.chart)
    (same : ∀ f l, first ≤ f → l ≤ last → s.chart.Inside f l → ∀ label,
      t.chart.groupAt f l label = s.chart.groupAt f l label)
    (filled : s.Filled g sentence first last) : t.Filled g sentence first last where
  inside := improves.grows.inside.mpr filled.inside
  closed index item live := by
    have before := live.elsewhere improves.grows (u.sound hs).consistent (u.sound ht).consistent
      (same _ _ (Nat.le_refl _) (Nat.le_refl _) filled.inside)
    exact u.expanded_keeps hs improves before (filled.closed index item before)
  seeds heq token tag word seeds := by
    subst heq
    exact u.seed_keeps hs improves filled.inside word seeds
      (filled.seeds rfl token tag word seeds)
  attachments wide split side i m j d pair cut y hy := by
    have before := pair.before improves.grows (u.sound hs).consistent (u.sound ht).consistent
      fun f l hf hl inside _ => same f l hf hl inside
    exact u.attachment_keeps hs improves filled.inside before cut
      (filled.attachments wide split side i m j d before cut) hy

theorem Unpruned.seed (u : Unpruned g chart sentence) {position : Nat} {token : Token}
    (h : Passes g chart sentence ⟨s, .seed position token :: rest⟩)
    (tags : ∀ tag ∈ g.candidateTags token, tag ≠ g.language.topLabel) :
    ∃ t, s.seed g position token = .ok t ∧ Passes g chart sentence ⟨t, rest⟩ ∧
      Completes g sentence s t position position := by
  obtain ⟨sound, ready⟩ := h.sound u.settings u.words
  have word : sentence[position]? = some token := ready (.seed position token) List.mem_cons_self
  have inside : s.chart.Inside position position := by
    refine ⟨Nat.le_refl _, ?_⟩
    rw [show s.chart.size = sentence.length from sound.size]
    exact (List.getElem?_eq_some_iff.mp word).choose
  have offering : Passes g chart sentence
      ⟨s, .offers position position (g.preterminals position token) [] .close :: rest⟩ :=
    .step h rfl
  obtain ⟨mid, taken, hmid, closing, row⟩ := offering.offers u.settings u.words
  have offered := u.offered row
  obtain ⟨t, hclose, passes, closes⟩ := u.close closing
  refine ⟨t, ?_, passes, ?_, ⟨?_, closes.closed, fun _ other tag hother seeds => ?_,
    fun wide => absurd wide (Nat.lt_irrefl _)⟩, fun rootless => ?_,
    offered.others.trans offered.improves.grows closes.others⟩
  · simp only [Search.seed, hmid, Outcome.ok_bind, hclose]
  · exact offered.improves.trans closes.improves
  · exact closes.improves.grows.inside.mpr (offered.improves.grows.inside.mpr inside)
  · obtain rfl : token = other := Option.some.inj (word.symm.trans hother)
    exact u.seed_keeps closing.visits closes.improves
      (offered.improves.grows.inside.mpr inside) word seeds
      (offered.covers _ (Grammar.mem_preterminals_iff.mpr ⟨tag, seeds, rfl⟩))
  · refine closes.rootless (offered.rootless rootless fun item hitem => ?_)
    obtain ⟨tag, seeds, rfl⟩ := Grammar.mem_preterminals_iff.mp hitem
    exact tags tag seeds.candidate

theorem Unpruned.complete (u : Unpruned g chart sentence)
    (h : Passes g chart sentence ⟨s, .complete first last :: rest⟩) :
    ∃ t, s.complete g (g.commas sentence) first last = .ok t ∧ Passes g chart sentence ⟨t, rest⟩ ∧
      Completes g sentence s t first last := by
  obtain ⟨sound, ready⟩ := h.sound u.settings u.words
  have sound : s.chart.Sound g sentence := sound
  obtain ⟨wide, hlast⟩ := ready (.complete first last) List.mem_cons_self
  have inside : s.chart.Inside first last := ⟨Nat.le_of_lt wide, sound.size ▸ hlast⟩
  obtain ⟨rows, hrows, mem⟩ := trials_eq sound.consistent sound.settings sentence first inside.2
  have offering : Passes g chart sentence
      ⟨s.noting rows.flatten, .trials first last rows.flatten .close :: rest⟩ := by
    refine .step h ?_
    simp only [Progress.step, Task.step, hrows]
    rfl
  obtain ⟨mid, taken, hmid, closing, row⟩ := offering.offers u.settings u.words
  have offered := u.offered row
  obtain ⟨t, hclose, passes, closes⟩ := u.close closing
  have offered : s.chart.Offered mid.chart g.language first last
    (rows.flatten.filterMap Trial.built) taken := offered
  have improves : s.chart.Improves t.chart := offered.improves.trans closes.improves
  refine ⟨t, ?_, passes, improves, ⟨improves.grows.inside.mpr inside, closes.closed,
    fun heq => absurd heq (Nat.ne_of_lt wide), fun _ split side i m j d pair cut y hy => ?_⟩,
    fun rootless => ?_, offered.others.trans offered.improves.grows closes.others⟩
  · have hmid : s.offerTrials g first last rows.flatten = .ok (mid, taken) := hmid
    simp only [Search.complete, hrows, Outcome.ok_bind, hmid, hclose]
  · -- The pair was there before its trial, whose item was offered and stays covered.
    have ok := (u.sound closing.visits).consistent
    have between := pair.before closes.improves.grows ok (u.sound passes.visits).consistent
      fun f l _ _ hfl hne => closes.others f l hfl hne
    have before := between.before offered.improves.grows sound.consistent ok
      fun f l _ _ hfl hne => offered.others f l hfl hne
    refine u.attachment_keeps closing.visits closes.improves
      (offered.improves.grows.inside.mpr inside) between cut (fun y hy => ?_) hy
    rw [before.attach_eq offered.improves.grows sound.consistent] at hy
    exact offered.covers y (List.mem_filterMap.mpr
      ⟨_, (mem _).mpr ⟨split, side, i, m, j, d, before, cut, rfl⟩, hy⟩)
  · refine closes.rootless (offered.rootless rootless fun item hitem => ?_)
    obtain ⟨trial, htrial, hbuilt⟩ := List.mem_filterMap.mp hitem
    obtain ⟨split, side, i, m, j, d, pair, -, rfl⟩ := (mem trial).mp htrial
    obtain ⟨-, rfl⟩ := Grammar.attach_built_iff.mp hbuilt
    rw [Grammar.label_attachment]
    exact rootless i m (pair.head.built? sound.consistent)

/-- The top transitions of a filled chart are covered, and nothing else has the top label. -/
structure Finishes (g : Grammar) (s t : Search) (last : Nat) : Prop where
  covers : ∀ i x, s.chart.Live 0 last i x → ∀ y, g.root? i x = some y →
    t.chart.Covers g.language y
  roots : ∀ i y, t.chart.Live 0 last i y → y.label = g.language.topLabel →
    ∃ k x, s.chart.Live 0 last k x ∧ g.root? k x = some y

theorem Unpruned.finish (u : Unpruned g chart sentence)
    (h : Passes g chart sentence ⟨s, .finish last :: rest⟩) (rootless : s.chart.Rootless g) :
    ∃ t, s.finish g last = .ok t ∧ Passes g chart sentence ⟨t, rest⟩ ∧ Finishes g s t last := by
  obtain ⟨sound, ready⟩ := h.sound u.settings u.words
  have sound : s.chart.Sound g sentence := sound
  have whole : last + 1 = sentence.length := ready (.finish last) List.mem_cons_self
  have inside : s.chart.Inside 0 last := ⟨Nat.zero_le _, by
    rw [sound.size]
    omega⟩
  obtain ⟨indices, hindices, mem⟩ := Chart.cellItems_eq sound.consistent inside
  obtain ⟨row, hrow, memRow⟩ := stored_row (s := s) indices fun index hi =>
    ((mem index).mp hi).elim fun _ live => live.lt_size
  let roots := row.filterMap fun source => g.root? source.1 source.2
  have memRoots (y : Item) : y ∈ roots ↔
      ∃ k x, s.chart.Live 0 last k x ∧ g.root? k x = some y := by
    simp only [roots, List.mem_filterMap, Prod.exists, memRow]
    constructor
    · rintro ⟨k, x, ⟨hk, stored⟩, hroot⟩
      obtain ⟨held, live⟩ := (mem k).mp hk
      obtain rfl : held = x := Option.some.inj (live.stored.symm.trans stored)
      exact ⟨k, held, live, hroot⟩
    · rintro ⟨k, x, live, hroot⟩
      exact ⟨k, x, ⟨(mem k).mpr ⟨x, live⟩, live.stored⟩, hroot⟩
  have offering : Passes g chart sentence ⟨s, .offers 0 last roots [] .nothing :: rest⟩ := by
    refine .step h ?_
    simp only [Progress.step, Task.step, hindices, Outcome.ok_bind, hrow]
    rfl
  obtain ⟨t, taken, ht, passes, made⟩ := offering.offers u.settings u.words
  have offered := u.offered made
  refine ⟨t, ?_, passes, fun i x live y hroot => ?_, fun i y live top => ?_⟩
  · refine Outcome.bind_eq_ok.mpr ⟨indices, hindices, ?_⟩
    refine Outcome.bind_eq_ok.mpr ⟨row, hrow, ?_⟩
    exact Outcome.bind_eq_ok.mpr ⟨(t, taken), ht, rfl⟩
  · exact offered.covers y ((memRoots y).mpr ⟨i, x, live, hroot⟩)
  · have ok := (u.sound passes.visits).consistent
    rcases u.tempered.live_before_row made live with before | htaken
    · exact absurd top (rootless i y (before.built? sound.consistent))
    · obtain ⟨item, hitem, hbuilt⟩ := offered.new i htaken
      obtain rfl : y = item := Option.some.inj ((live.built? ok).symm.trans hbuilt)
      exact (memRoots y).mp hitem

def Before (a b : Nat × Nat) : Prop := ¬(a.1 ≤ b.1 ∧ b.2 ≤ a.2)

theorem spans_ordered (size : Nat) : (Chart.spans size).Pairwise Before := by
  unfold Chart.spans
  refine List.pairwise_flatMap.mpr ⟨fun width _ => ?_, List.pairwise_lt_range.imp ?_⟩
  · refine List.pairwise_map.mpr (List.pairwise_lt_range.imp fun hlt => ?_)
    simp only [Before]
    omega
  · intro width wider hlt a ha b hb
    obtain ⟨start, -, rfl⟩ := List.mem_map.mp ha
    obtain ⟨later, -, rfl⟩ := List.mem_map.mp hb
    simp only [Before]
    omega

theorem cells_ordered (sentence : Sentence) :
    (sentence.zipIdx.map (fun word => (word.2, word.2)) ++
      (Chart.spans sentence.length).filter fun (first, last) => first < last).Pairwise Before := by
  refine List.pairwise_append.mpr ⟨?_, (spans_ordered _).filter _, fun a ha b hb => ?_⟩
  · have positions : sentence.zipIdx.map (fun word => (word.2, word.2)) =
        (List.range sentence.length).map fun position => (position, position) := by
      rw [List.range_eq_range', ← List.zipIdx_map_snd 0 sentence, List.map_map]
      rfl
    rw [positions]
    refine List.pairwise_map.mpr (List.pairwise_lt_range.imp fun hlt => ?_)
    simp only [Before]
    omega
  · obtain ⟨⟨token, position⟩, -, rfl⟩ := List.mem_map.mp ha
    obtain ⟨-, wide⟩ := List.mem_filter.mp hb
    simp only [decide_eq_true_eq] at wide
    simp only [Before]
    omega

theorem Unpruned.fill (u : Unpruned g chart sentence) {α : Type} (task : α → Task)
    (span : α → Nat × Nat) (run : Search → α → Except Fault Search) (tasks : List α)
    (one : ∀ a ∈ tasks, ∀ s rest, Passes g chart sentence ⟨s, task a :: rest⟩ →
      ∃ t, run s a = .ok t ∧ Passes g chart sentence ⟨t, rest⟩ ∧
        Completes g sentence s t (span a).1 (span a).2)
    (done : List (Nat × Nat)) (order : (done ++ tasks.map span).Pairwise Before)
    (h : Passes g chart sentence ⟨s, tasks.map task ++ rest⟩) (rootless : s.chart.Rootless g)
    (filled : ∀ d ∈ done, s.Filled g sentence d.1 d.2) :
    ∃ t, tasks.foldlM run s = .ok t ∧ Passes g chart sentence ⟨t, rest⟩ ∧
      t.chart.Rootless g ∧ ∀ d ∈ done ++ tasks.map span, t.Filled g sentence d.1 d.2 := by
  induction tasks generalizing s done with
  | nil => exact ⟨s, rfl, h, rootless, by simpa using filled⟩
  | cons a tasks ih =>
    obtain ⟨mid, hmid, passes, completes⟩ := one a List.mem_cons_self s _ h
    rw [List.map_cons, List.append_cons] at order
    -- Cells are filled in order, so what the task offers cannot reach a cell filled before.
    have earlier (d : Nat × Nat) (hd : d ∈ done) : Before d (span a) := by
      have := (List.pairwise_append.mp (List.pairwise_append.mp order).1).2.2
      exact this d hd (span a) List.mem_cons_self
    have more : ∀ d ∈ done ++ [span a], mid.Filled g sentence d.1 d.2 := by
      intro d hd
      rcases List.mem_append.mp hd with hd | hd
      · refine u.filled_keeps h.visits passes.visits completes.improves
          (fun f l hf hl hfl label => ?_) (filled d hd)
        refine completes.others f l hfl (fun heq => ?_) label
        obtain ⟨rfl, rfl⟩ := Prod.mk.inj heq
        exact earlier d hd ⟨hf, hl⟩
      · obtain rfl := List.mem_singleton.mp hd
        exact completes.filled
    obtain ⟨t, hrun, done', rootless', all⟩ := ih (fun b hb => one b (List.mem_cons_of_mem _ hb))
      (done ++ [span a]) order passes (completes.rootless rootless) more
    refine ⟨t, ?_, done', rootless', ?_⟩
    · rw [List.foldlM_cons, hmid, Outcome.ok_bind, hrun]
    · rw [List.map_cons, List.append_cons]
      exact all

/-- The charts of a search that prunes nothing: filled, and then finished. -/
theorem Unpruned.run (u : Unpruned g chart sentence)
    (tags : ∀ token ∈ sentence, ∀ tag ∈ g.candidateTags token, tag ≠ g.language.topLabel) :
    ∃ filled t, Search.run g chart sentence = .ok t ∧
      Passes g chart sentence ⟨filled, [.finish (sentence.length - 1)]⟩ ∧
      Passes g chart sentence ⟨t, []⟩ ∧ filled.chart.Rootless g ∧
      (∀ first last, first ≤ last → last < sentence.length →
        filled.Filled g sentence first last) ∧
      Finishes g filled t (sentence.length - 1) := by
  have empty : (chart.resized sentence.length).Rootless g := fun index item hitem =>
    absurd (Arena.lt_size_of_built? hitem) (Nat.not_lt_zero _)
  have order := cells_ordered sentence
  have begin : Passes g chart sentence (start chart sentence) := .refl
  unfold start at begin
  rw [List.append_assoc] at begin
  obtain ⟨seeded, hseeded, wide, rootless, single⟩ := u.fill
    (fun word : Token × Nat => .seed word.2 word.1) (fun word => (word.2, word.2))
    (fun s word => s.seed g word.2 word.1) sentence.zipIdx
    (fun word hword s rest h => u.seed h (tags word.1 (List.fst_mem_of_mem_zipIdx hword)))
    [] (List.pairwise_append.mp order).1 begin empty (fun _ h => absurd h List.not_mem_nil)
  obtain ⟨filled, hfilled, finishing, rootless, all⟩ := u.fill
    (fun span : Nat × Nat => .complete span.1 span.2) id
    (fun s span => s.complete g (g.commas sentence) span.1 span.2) _
    (fun span hspan s rest h => u.complete h)
    _ (by simpa using order) wide rootless single
  obtain ⟨t, hfinish, passes, finishes⟩ := u.finish finishing rootless
  refine ⟨filled, t, ?_, finishing, passes, rootless, fun first last hle hlt => ?_, finishes⟩
  · exact Outcome.bind_eq_ok.mpr
      ⟨seeded, hseeded, Outcome.bind_eq_ok.mpr ⟨filled, hfilled, hfinish⟩⟩
  · refine all (first, last) (List.mem_append.mpr ?_)
    rcases Nat.eq_or_lt_of_le hle with rfl | wider
    · refine Or.inl (List.mem_map.mpr ⟨(sentence[first], first), ?_, rfl⟩)
      exact List.mem_zipIdx_iff_getElem?.mpr (List.getElem?_eq_getElem hlt)
    · refine Or.inr ?_
      rw [List.map_id]
      exact List.mem_filter.mpr ⟨mem_spans_iff.mpr ⟨hle, hlt⟩, decide_eq_true wider⟩

end HeadDriven.Search
