import HeadDriven.Proofs.Soundness

/-! Histories from a cache. A cache is sound when every shift that it remembers is the
shift; then what it hands out for a history of full width is what would be worked out
afresh, and it stays sound. All histories of a decode have full width. So a search that
takes its histories from a sound cache fills the chart as the search without a cache does,
whatever the cache has seen before. -/
namespace HeadDriven

/-- A cache for a window, all of whose remembered shifts are right. -/
structure HistoryCache.Sound (c : HistoryCache) (window : Nat) : Prop where
  width : c.window = window
  shifts : ∀ h label shifted, c.shifts.lookup (h, label) = some shifted →
    shifted = History.shift window h label

namespace HistoryCache

variable {c : HistoryCache} {window : Nat} {h : History} {label : Symbol}

theorem sound_empty (window : Nat) : (empty window).Sound window where
  width := rfl
  shifts _ _ _ h := by simp [empty] at h

theorem length_shift (full : h.length = window) :
    (History.shift window h label).length = window := by
  rw [History.shift_eq, List.length_take, List.length_cons]
  omega

theorem enter_spec (c : HistoryCache) (h : History) :
    (c.enter h).window = c.window ∧ (c.enter h).shifts = c.shifts := by
  unfold enter
  split <;> exact ⟨rfl, rfl⟩

theorem intern_of_full (full : h.length = c.window) : c.intern h = .ok (c.enter h, h) := if_pos full

theorem intern_of_not_full (width : h.length ≠ c.window) : c.intern h = .error .wrongWindow :=
  if_neg width

theorem shift_of_lookup {shifted : History} (found : c.shifts.lookup (h, label) = some shifted) :
    c.shift h label = .ok (c, shifted) := by
  rw [shift, found]

theorem shift_of_fresh (fresh : c.shifts.lookup (h, label) = none) (full : h.length = c.window) :
    let shifted := History.shift c.window h label
    c.shift h label =
      .ok ({ c.enter shifted with shifts := ((h, label), shifted) :: c.shifts }, shifted) := by
  intro shifted
  rw [shift, fresh]
  simp only
  rw [intern_of_full (length_shift full), Outcome.ok_bind, ← (c.enter_spec shifted).2]
  rfl

theorem Sound.remember (sound : c.Sound window) (h : History) (label : Symbol) :
    let shifted := History.shift window h label
    Sound { c.enter shifted with shifts := ((h, label), shifted) :: c.shifts } window where
  width := (c.enter_spec _).1.trans sound.width
  shifts h' label' shifted found := by
    rw [List.lookup_cons] at found
    split at found
    · rename_i heq
      obtain ⟨rfl, rfl⟩ : h' = h ∧ label' = label := by simpa using heq
      exact (Option.some.inj found).symm
    · exact sound.shifts h' label' shifted found

theorem Sound.shift_eq (sound : c.Sound window) (full : h.length = window) (label : Symbol) :
    ∃ next, c.shift h label = .ok (next, History.shift window h label) ∧ next.Sound window := by
  obtain rfl := sound.width
  cases found : c.shifts.lookup (h, label) with
  | some shifted =>
    obtain rfl := sound.shifts h label shifted found
    exact ⟨c, shift_of_lookup found, sound⟩
  | none => exact ⟨_, shift_of_fresh found full, sound.remember h label⟩

end HistoryCache

def Item.Windowed (item : Item) (window : Nat) : Prop :=
  ∀ side, (item.side side).prevMods.length = window

section Windows

variable {g : Grammar} {sentence : Sentence} {a : Arena} {bound index : Nat} {item : Item}

theorem length_startHistory (g : Grammar) : g.startHistory.length = g.settings.historyWindow :=
  List.length_replicate

theorem Builds.windowed (h : Builds g sentence a bound item)
    (before : ∀ i other, a.Holds bound i other → other.Windowed g.settings.historyWindow) :
    item.Windowed g.settings.historyWindow := by
  cases h with
  | seed | project | root =>
    intro side
    cases side <;> exact length_startHistory g
  | attach under modifier joins h =>
    rename_i i j m d side
    intro other
    by_cases same : other = side
    · subst same
      rw [Grammar.side_attachment_self]
      exact HistoryCache.length_shift (before _ _ under other)
    · rw [Grammar.side_attachment_of_ne _ _ same]
      exact before _ _ under other
  | stop under h =>
    intro side
    cases side
    · exact before _ _ under .left
    · exact before _ _ under .right

theorem Arena.Built.windowed (built : a.Built g sentence) (h : a.built? index = some item) :
    item.Windowed g.settings.historyWindow :=
  built.induction (P := fun _ item => item.Windowed g.settings.historyWindow)
    (fun _ _ => Builds.windowed) h

end Windows

namespace Grammar

variable {g : Grammar} {histories : HistoryCache} {m : Modificand} {d : Modifier} {side : Side}

def attachPair (g : Grammar) (p : Modificand × Modifier × Side) : Trial :=
  g.attach p.1 p.2.1 p.2.2

theorem attachFrom_eq (sound : histories.Sound g.settings.historyWindow)
    (full : m.item.Windowed g.settings.historyWindow) :
    ∃ next, g.attachFrom histories m d side = .ok (next, g.attach m d side) ∧
      next.Sound g.settings.historyWindow := by
  unfold attachFrom
  cases hbuilt : (g.attach m d side).built with
  | none => exact ⟨histories, by simp only [hbuilt]; rfl, sound⟩
  | some item =>
    obtain ⟨-, rfl⟩ := attach_built_iff.mp hbuilt
    obtain ⟨next, hshift, sound'⟩ := sound.shift_eq (full side) d.item.label
    refine ⟨next, ?_, sound'⟩
    have same : (g.attachment m d side).withHistory side
        (History.shift g.settings.historyWindow (m.item.side side).prevMods d.item.label) =
        g.attachment m d side := by
      cases side <;> rfl
    simp only [hbuilt, hshift, Outcome.ok_bind, same]
    rw [← hbuilt]
    rfl

theorem attachAll_eq (pairs : List (Modificand × Modifier × Side))
    (sound : histories.Sound g.settings.historyWindow)
    (full : ∀ p ∈ pairs, p.1.item.Windowed g.settings.historyWindow) :
    ∃ next, g.attachAll histories pairs =
        .ok (next, pairs.map g.attachPair) ∧
      next.Sound g.settings.historyWindow := by
  induction pairs generalizing histories with
  | nil => exact ⟨histories, rfl, sound⟩
  | cons p pairs ih =>
    obtain ⟨m, d, side⟩ := p
    obtain ⟨mid, hfrom, sound'⟩ : ∃ next, g.attachFrom histories m d side =
        .ok (next, g.attach m d side) ∧ next.Sound g.settings.historyWindow :=
      attachFrom_eq sound (full _ List.mem_cons_self)
    obtain ⟨next, hall, sound''⟩ := ih sound' fun q hq => full q (List.mem_cons_of_mem _ hq)
    exact ⟨next, by simp only [attachAll, hfrom, hall, Outcome.ok_bind]; rfl, sound''⟩

end Grammar

namespace Search

variable {g : Grammar} {sentence : Sentence} {s : Search} {histories : HistoryCache}
  {commas : Array Bool} {first last : Nat} {rest : List Task}

theorem attachments_eq_pairs (side : Side) (heads modifiers : Nat × Nat) :
    s.attachments g side heads modifiers = (s.pairs g side heads modifiers).map
      fun row => row.map g.attachPair := by
  unfold attachments pairs
  cases s.live heads.1 heads.2 (·.canTake side) with
  | error fault => rfl
  | ok hs =>
    rw [Outcome.ok_bind, Outcome.ok_bind]
    cases hs.mapM s.modificand with
    | error fault => rfl
    | ok ms =>
      rw [Outcome.ok_bind, Outcome.ok_bind]
      cases s.live modifiers.1 modifiers.2 Item.stopped with
      | error fault => rfl
      | ok ds =>
        rw [Outcome.ok_bind, Outcome.ok_bind]
        cases ds.mapM (s.modifier g) with
        | error fault => rfl
        | ok ds =>
          simp [pure, Except.pure, Except.map, List.map_flatMap, Function.comp_def,
            Grammar.attachPair]

theorem attachmentsAt_eq_pairsAt (first split last : Nat) :
    s.attachmentsAt g first split last = (s.pairsAt g first split last).map
      fun row => row.map g.attachPair := by
  unfold attachmentsAt pairsAt
  rw [attachments_eq_pairs, attachments_eq_pairs]
  cases s.pairs g .left (split + 1, last) (first, split) with
  | error fault => rfl
  | ok toLeft =>
    cases s.pairs g .right (first, split) (split + 1, last) with
    | error fault => rfl
    | ok toRight => simp [bind, Except.bind, pure, Except.pure, Except.map]

theorem stored_of_mem_pairs {side : Side} {heads modifiers : Nat × Nat}
    {row : List (Modificand × Modifier × Side)} (h : s.pairs g side heads modifiers = .ok row)
    {p : Modificand × Modifier × Side} (hp : p ∈ row) :
    ∃ index : Nat, s.chart.arena.items[index]? = some p.1.item := by
  obtain ⟨hs, -, h⟩ := Outcome.bind_eq_ok.mp h
  obtain ⟨ms, hms, h⟩ := Outcome.bind_eq_ok.mp h
  obtain ⟨_, -, h⟩ := Outcome.bind_eq_ok.mp h
  obtain ⟨ds, -, h⟩ := Outcome.bind_eq_ok.mp h
  cases h
  obtain ⟨m, hm, hp⟩ := List.mem_flatMap.mp hp
  obtain ⟨d, -, rfl⟩ := List.mem_map.mp hp
  obtain ⟨index, -, hm⟩ := (Outcome.mem_mapM hms).mp hm
  obtain ⟨item, hitem, hm⟩ := Outcome.bind_eq_ok.mp hm
  obtain ⟨label, -, hm⟩ := Outcome.bind_eq_ok.mp hm
  cases hm
  exact ⟨index, Arena.get_eq_ok_iff.mp hitem⟩

theorem stored_of_mem_pairsAt {split : Nat} {row : List (Modificand × Modifier × Side)}
    (h : s.pairsAt g first split last = .ok row) {p : Modificand × Modifier × Side}
    (hp : p ∈ row) : ∃ index : Nat, s.chart.arena.items[index]? = some p.1.item := by
  obtain ⟨toLeft, hleft, h⟩ := Outcome.bind_eq_ok.mp h
  obtain ⟨toRight, hright, h⟩ := Outcome.bind_eq_ok.mp h
  cases h
  rcases List.mem_append.mp hp with hp | hp
  · exact stored_of_mem_pairs hleft hp
  · exact stored_of_mem_pairs hright hp

theorem fillCell_eq (sound : histories.Sound g.settings.historyWindow)
    (chart : s.chart.Sound g sentence) (commas : Array Bool) (first last : Nat) :
    ∃ next : HistoryCache, next.Sound g.settings.historyWindow ∧
      fillCell g commas (s, histories) (first, last) =
        (s.complete g commas first last).map fun t => (t, next) := by
  unfold fillCell complete
  have rows : (splits g commas first last).mapM (fun split => s.attachmentsAt g first split last) =
      ((splits g commas first last).mapM fun split => s.pairsAt g first split last).map
        (List.map (List.map g.attachPair)) := by
    simp only [attachmentsAt_eq_pairsAt]
    exact Outcome.mapM_map _ _ _
  rw [rows]
  simp only
  cases hrows : (splits g commas first last).mapM fun split => s.pairsAt g first split last with
  | error fault => exact ⟨histories, sound, rfl⟩
  | ok rows =>
    -- Every stored item has windowed histories, the only ones the cache answers for.
    have full : ∀ p ∈ rows.flatten, p.1.item.Windowed g.settings.historyWindow := by
      intro p hp
      obtain ⟨row, hrow, hp⟩ := List.mem_flatten.mp hp
      obtain ⟨split, -, hrow⟩ := (Outcome.mem_mapM hrows).mp hrow
      obtain ⟨index, stored⟩ := stored_of_mem_pairsAt hrow hp
      have := chart.built.windowed (Arena.built?_of_items stored)
      exact fun side => by cases side <;> [exact this .left; exact this .right]
    obtain ⟨next, hall, sound'⟩ := Grammar.attachAll_eq rows.flatten sound full
    refine ⟨next, sound', ?_⟩
    rw [Outcome.ok_bind, hall, Outcome.ok_bind, Outcome.map_ok, Outcome.ok_bind, ← List.map_flatten]
    simp only
    cases s.offerTrials g first last (rows.flatten.map g.attachPair) with
    | error fault => rfl
    | ok r => exact Outcome.bind_ok _ _

theorem foldlM_fillCell_eq {chart : Chart} (spans : List (Nat × Nat))
    (settings : chart.settings = g.settings) (words : sentence ≠ [])
    (sound : histories.Sound g.settings.historyWindow)
    (passes : Passes g chart sentence
      ⟨s, spans.map (fun (first, last) => .complete first last) ++ rest⟩) :
    ∃ next : HistoryCache, next.Sound g.settings.historyWindow ∧
      spans.foldlM (fillCell g (g.commas sentence)) (s, histories) =
        (spans.foldlM (fun (s : Search) (first, last) =>
          s.complete g (g.commas sentence) first last) s).map
          fun t => (t, next) := by
  induction spans generalizing s histories with
  | nil => exact ⟨histories, sound, rfl⟩
  | cons span spans ih =>
    obtain ⟨first, last⟩ := span
    obtain ⟨mid, sound', hcell⟩ := fillCell_eq sound (passes.sound settings words).chart
      (g.commas sentence) first last
    have follows : Follows g (g.commas sentence)
        ⟨s, .complete first last ::
          (spans.map (fun (first, last) => .complete first last) ++ rest)⟩
        (⟨·, spans.map (fun (first, last) => .complete first last) ++ rest⟩)
        (s.complete g (g.commas sentence) first last) := complete_follows
    rw [List.foldlM_cons, List.foldlM_cons, hcell]
    simp only
    cases hcomplete : s.complete g (g.commas sentence) first last with
    | error fault => exact ⟨mid, sound', rfl⟩
    | ok t =>
      rw [hcomplete] at follows
      exact ih sound' (passes.trans follows)

theorem seeding_follows (g : Grammar) (chart : Chart) (sentence : Sentence) :
    Follows g (g.commas sentence) (start chart sentence)
      (⟨·, ((Chart.spans sentence.length).filter fun (first, last) => first < last).map
        (fun (first, last) => .complete first last) ++ [.finish (sentence.length - 1)]⟩)
      (sentence.zipIdx.foldlM (fun s (token, position) => s.seed g position token)
        (⟨chart.resized sentence.length, #[]⟩ : Search)) := by
  rw [start, List.append_assoc]
  exact foldlM_follows _ _ _ fun s word rest => seed_follows word.2 word.1

/-- A search that takes its histories from a sound cache comes to what the search without a
cache comes to, and leaves a sound cache. -/
theorem fill_eq {chart : Chart} (settings : chart.settings = g.settings) (words : sentence ≠ [])
    (sound : histories.Sound g.settings.historyWindow) :
    ∃ next : HistoryCache, next.Sound g.settings.historyWindow ∧
      fill g (chart.resized sentence.length) histories (g.commas sentence) sentence =
        (run g chart sentence).map fun s => (s, next) := by
  have follows := seeding_follows g chart sentence
  unfold fill run
  dsimp only at follows ⊢
  generalize List.foldlM (fun (s : Search) (word : Token × Nat) => s.seed g word.2 word.1)
    ⟨chart.resized sentence.length, #[]⟩ sentence.zipIdx = outcome at follows ⊢
  cases outcome with
  | error fault => exact ⟨histories, sound, rfl⟩
  | ok seeded =>
    obtain ⟨next, sound', hfilled⟩ := foldlM_fillCell_eq _ settings words sound follows
    refine ⟨next, sound', ?_⟩
    simp only [Outcome.ok_bind, hfilled]
    cases List.foldlM (fun (s : Search) (span : Nat × Nat) =>
        s.complete g (g.commas sentence) span.1 span.2) seeded
        ((Chart.spans sentence.length).filter fun span => span.1 < span.2) with
    | error fault => rfl
    | ok filled => exact Outcome.bind_ok _ _

end Search

end HeadDriven
