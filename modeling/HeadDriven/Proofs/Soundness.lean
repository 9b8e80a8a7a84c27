import HeadDriven.Proofs.Building

/-! What holds at every point of a decode. The chart is consistent and has stored
nothing but items that steps built over items stored before; the tasks on the agenda
offer only such items, each to the cell of its span. So no step ever fails, and a
search can end with no fault but that of a cell whose rounds are used up. -/
namespace HeadDriven

structure Chart.Sound (c : Chart) (g : Grammar) (sentence : Sentence) : Prop where
  consistent : c.Consistent g.language
  settings : c.settings = g.settings
  size : c.size = sentence.length
  built : c.arena.Built g sentence

def Chart.Fills (c : Chart) (first last : Nat) (indices : List Nat) : Prop :=
  ∀ index ∈ indices, ∃ item, c.arena.built? index = some item ∧
    item.first = first ∧ item.last = last

theorem Chart.Live.holds {c : Chart} {language : Language} {first last index : Nat} {item : Item}
    (ok : c.Consistent language) (h : c.Live first last index item) :
    c.arena.Holds c.arena.size index item :=
  ⟨h.lt_size, h.built? ok⟩

namespace Search

def Next.kept : Next → List Nat
  | .stop frontier => frontier
  | _ => []

structure Offerable (g : Grammar) (sentence : Sentence) (a : Arena) (first last : Nat)
    (item : Item) : Prop where
  builds : Builds g sentence a a.size item
  first : item.first = first
  last : item.last = last

def Task.Ready (g : Grammar) (sentence : Sentence) (c : Chart) : Task → Prop
  | .seed position token => sentence[position]? = some token
  | .complete first last => first < last ∧ last < sentence.length
  | .finish last => last + 1 = sentence.length
  | .close first last => c.Inside first last
  | .round first last frontier => c.Inside first last ∧ c.Fills first last frontier
  | .stop first last candidates => c.Inside first last ∧ c.Fills first last candidates
  | .offers first last items taken next =>
    c.Inside first last ∧ (∀ item ∈ items, Offerable g sentence c.arena first last item) ∧
      c.Fills first last (next.kept ++ taken)

variable {g : Grammar} {sentence : Sentence} {c next : Chart} {s : Search} {first last : Nat}
  {item : Item} {task : Task}

theorem Offerable.extends {a b : Arena} (h : Offerable g sentence a first last item)
    (linked : a.Linked) (grows : a.Extends b) : Offerable g sentence b first last item :=
  ⟨h.builds.extends linked grows grows.size_le, h.first, h.last⟩

theorem Fills.grows {indices : List Nat} (h : c.Fills first last indices)
    (grows : c.Grows next) : next.Fills first last indices := fun index hi =>
  (h index hi).imp fun _ h => ⟨grows.arena.holds h.1, h.2⟩

theorem Task.Ready.grows (h : task.Ready g sentence c) (linked : c.arena.Linked)
    (grows : c.Grows next) : task.Ready g sentence next := by
  cases task with
  | seed | complete | finish => exact h
  | close => exact grows.inside.mpr h
  | round | stop => exact ⟨grows.inside.mpr h.1, Fills.grows h.2 grows⟩
  | offers =>
    exact ⟨grows.inside.mpr h.1, fun item hi => (h.2.1 item hi).extends linked grows.arena,
      Fills.grows h.2.2 grows⟩

theorem sound_add (sound : c.Sound g sentence) (inside : c.Inside first last)
    (h : Offerable g sentence c.arena first last item) :
    ∃ next taken, c.add g.language first last item = .ok (next, taken) ∧
      next.Sound g sentence ∧ c.Grows next ∧ Chart.Outcome c g.language item next taken := by
  obtain ⟨builds, rfl, rfl⟩ := h
  have linked := sound.consistent.linked
  obtain ⟨next, taken, hadd, consistent, grows, outcome⟩ := Chart.add_spec sound.consistent inside
    (fun _ hc => builds.headChild_lt linked hc) builds.fresh
  have built : next.arena.Built g sentence := by
    refine sound.built.extends grows.arena fun index other hge hother => ?_
    have below := Arena.lt_size_of_built? hother
    cases outcome with
    | refused h =>
      rw [Arena.size, h.items] at below
      exact absurd hge (Nat.not_le.mpr below)
    | taken h =>
      rw [h.size] at below
      obtain rfl : index = c.arena.size := by omega
      rw [h.built, Option.some.injEq] at hother
      exact hother ▸ builds
  exact ⟨next, taken, hadd, ⟨consistent, grows.settings.trans sound.settings,
    grows.size.trans sound.size, built⟩, grows, outcome⟩

theorem offerable_of_pair (sound : s.chart.Sound g sentence) {split i j : Nat} {side : Side}
    {m d : Item} (pair : s.Pair first split last side i m j d)
    (cut : g.MayCut sentence split last)
    (built : (g.attach (s.chart.arena.modificand i m) (g.modifier s.chart.arena j d) side).built =
      some item) : Offerable g sentence s.chart.arena first last item := by
  obtain ⟨attaches, rfl⟩ := Grammar.attach_built_iff.mp built
  have ok := sound.consistent
  have joins : g.Joins sentence side m d := by
    refine ⟨pair.takes, pair.stopped, ?_, ?_⟩
    · rw [pair.left.2, pair.right.1]
    · rw [pair.left.2, pair.right.2]
      exact cut
  obtain ⟨hfirst, hlast⟩ := Grammar.span_attachment (g := g)
    (s.chart.arena.modificand i m) (g.modifier s.chart.arena j d) side
  exact ⟨.attach (pair.head.holds ok) (pair.modifier.holds ok) joins attaches,
    hfirst.trans pair.left.1, hlast.trans pair.right.2⟩

theorem offerable_of_projection {index : Nat} {head : Item}
    (stored : c.arena.items[index]? = some head) (hfirst : head.first = first)
    (hlast : head.last = last) (built : item ∈ g.projections index head) :
    Offerable g sentence c.arena first last item := by
  obtain ⟨fresh, parent, left, right, projects, rfl⟩ := Grammar.mem_projections_iff.mp built
  have holds := Arena.built?_of_items stored
  rw [Item.copy_of_fresh fresh] at holds
  exact ⟨.project ⟨Arena.lt_size_of_built? holds, holds⟩ projects, hfirst, hlast⟩

theorem offerable_of_stop {index : Nat} {m : Item} (stored : c.arena.items[index]? = some m)
    (hfirst : m.first = first) (hlast : m.last = last)
    (built : (g.stop (c.arena.modificand index m)).built = some item) :
    Offerable g sentence c.arena first last item := by
  obtain ⟨fresh, stops, rfl⟩ := Grammar.stop_built_iff.mp built
  have holds := Arena.built?_of_items stored
  rw [Item.copy_of_fresh (show m.garbage = false from fresh)] at holds
  exact ⟨.stop ⟨Arena.lt_size_of_built? holds, holds⟩ stops, hfirst, hlast⟩

theorem offerable_of_root {index : Nat} {head : Item} (stored : c.arena.items[index]? = some head)
    (hfirst : head.first = 0) (hlast : head.last = last) (whole : last + 1 = sentence.length)
    (built : g.root? index head = some item) : Offerable g sentence c.arena 0 last item := by
  obtain ⟨fresh, roots, rfl⟩ := Grammar.root?_eq_some_iff.mp built
  have holds := Arena.built?_of_items stored
  rw [Item.copy_of_fresh fresh] at holds
  exact ⟨.root ⟨Arena.lt_size_of_built? holds, holds⟩ ⟨hfirst, by rw [hlast, whole]⟩ roots,
    hfirst, hlast⟩

theorem Fills.stored {indices : List Nat} {index : Nat} (h : c.Fills first last indices)
    (hi : index ∈ indices) (stored : c.arena.items[index]? = some item) :
    item.first = first ∧ item.last = last := by
  obtain ⟨held, hheld, hspan⟩ := h index hi
  rw [Arena.built?_of_items stored, Option.some.injEq] at hheld
  subst hheld
  exact hspan

theorem Fills.lt_size {indices : List Nat} {index : Nat} (h : c.Fills first last indices)
    (hi : index ∈ indices) : index < c.arena.size :=
  (h index hi).elim fun _ h => Arena.lt_size_of_built? h.1

theorem Fills.append {indices more : List Nat} (h : c.Fills first last indices)
    (h' : c.Fills first last more) : c.Fills first last (indices ++ more) := fun index hi =>
  (List.mem_append.mp hi).elim (h index) (h' index)

theorem ready_tasks {kind : Next} {taken : List Nat} (inside : c.Inside first last)
    (h : c.Fills first last (kind.kept ++ taken)) :
    ∀ task ∈ kind.tasks first last taken, task.Ready g sentence c := by
  cases kind with
  | nothing => simp [Next.tasks]
  | stop | round | close =>
    simp only [Next.tasks, List.mem_singleton, forall_eq]
    first
      | exact ⟨inside, h⟩
      | exact inside

/-- A step of a task succeeds, keeps the chart sound and leaves ready tasks. -/
def Task.Advances (g : Grammar) (sentence : Sentence) (s : Search) (task : Task) : Prop :=
  ∃ t tasks, task.step g (g.commas sentence) s = .ok (t, tasks) ∧
    t.chart.Sound g sentence ∧ s.chart.Grows t.chart ∧
    ∀ task ∈ tasks, task.Ready g sentence t.chart

theorem Task.Advances.pass (t : Search) (left : Task) (sound : s.chart.Sound g sentence)
    (h : task.step g (g.commas sentence) s = .ok (t, [left])) (same : t.chart = s.chart)
    (ready : left.Ready g sentence s.chart) : task.Advances g sentence s := by
  refine ⟨t, [left], h, same ▸ sound, same ▸ .refl _, ?_⟩
  rw [same]
  simpa using ready

theorem seed_advances {position : Nat} {token : Token} (sound : s.chart.Sound g sentence)
    (word : sentence[position]? = some token) :
    (Task.seed position token).Advances g sentence s := by
  have hlt : position < s.chart.size := by
    rw [sound.size]
    exact (List.getElem?_eq_some_iff.mp word).choose
  refine .pass s (.offers position position (g.preterminals position token) [] .close) sound rfl rfl
    ⟨⟨Nat.le_refl _, hlt⟩, fun item hitem => ?_, ?_⟩
  · obtain ⟨tag, seeds, rfl⟩ := Grammar.mem_preterminals_iff.mp hitem
    exact ⟨.seed word seeds, rfl, rfl⟩
  · simp [Next.kept, Chart.Fills]

theorem complete_advances (sound : s.chart.Sound g sentence) (wide : first < last)
    (hlast : last < sentence.length) : (Task.complete first last).Advances g sentence s := by
  have inside : s.chart.Inside first last := ⟨Nat.le_of_lt wide, sound.size ▸ hlast⟩
  obtain ⟨rows, hrows, hmem⟩ := trials_eq sound.consistent sound.settings sentence first
    inside.2
  refine .pass (s.noting rows.flatten) (.trials first last rows.flatten .close) sound ?_ rfl
    ⟨inside, fun item hitem => ?_, ?_⟩
  · rw [Task.step, hrows, Outcome.ok_bind]
    rfl
  · obtain ⟨trial, htrial, hbuilt⟩ := List.mem_filterMap.mp hitem
    obtain ⟨split, side, i, m, j, d, pair, cut, rfl⟩ := (hmem trial).mp htrial
    exact offerable_of_pair sound pair cut hbuilt
  · simp [Next.kept, Chart.Fills]

theorem close_advances (sound : s.chart.Sound g sentence) (inside : s.chart.Inside first last) :
    (Task.close first last).Advances g sentence s := by
  obtain ⟨indices, hindices, hmem⟩ := Chart.cellItems_eq sound.consistent inside
  refine .pass s (.round first last indices) sound ?_ rfl
    ⟨inside, fun index hi => ?_⟩
  · rw [Task.step, hindices, Outcome.ok_bind]
    rfl
  · obtain ⟨item, live⟩ := (hmem index).mp hi
    have resides := live.resides sound.consistent
    exact ⟨item, live.built? sound.consistent, resides.first, resides.last⟩

theorem finish_advances (sound : s.chart.Sound g sentence) (whole : last + 1 = sentence.length) :
    (Task.finish last).Advances g sentence s := by
  have inside : s.chart.Inside 0 last := ⟨Nat.zero_le _, by
    rw [sound.size]
    omega⟩
  obtain ⟨indices, hindices, hmem⟩ := Chart.cellItems_eq sound.consistent inside
  obtain ⟨row, hrow, hmemr⟩ := stored_row (s := s) indices fun index hi =>
    ((hmem index).mp hi).elim fun _ live => live.lt_size
  refine .pass s (.offers 0 last _ [] .nothing) sound
    (by rw [Task.step, hindices, Outcome.ok_bind, hrow, Outcome.ok_bind]; rfl) rfl
    ⟨inside, fun item hitem => ?_, ?_⟩
  · obtain ⟨⟨index, head⟩, hhead, hroot⟩ := List.mem_filterMap.mp hitem
    obtain ⟨hi, stored⟩ := (hmemr _).mp hhead
    obtain ⟨held, live⟩ := (hmem index).mp hi
    have same : held = head := Option.some.inj (live.stored.symm.trans stored)
    subst same
    have resides := live.resides sound.consistent
    exact offerable_of_root stored resides.first resides.last whole hroot
  · simp [Next.kept, Chart.Fills]

theorem round_advances {frontier : List Nat} (sound : s.chart.Sound g sentence)
    (inside : s.chart.Inside first last) (fills : s.chart.Fills first last frontier) :
    (Task.round first last frontier).Advances g sentence s := by
  cases frontier with
  | nil => exact ⟨s, [], rfl, sound, .refl _, by simp⟩
  | cons index others =>
    obtain ⟨row, hrow, hmem⟩ := stored_row (s := s) _ fun _ hi => Fills.lt_size fills hi
    refine .pass s (.offers first last _ [] (.stop (index :: others))) sound
      (by simp only [Task.step, hrow, Outcome.ok_bind]; rfl) rfl
      ⟨inside, fun item hitem => ?_, ?_⟩
    · obtain ⟨⟨i, head⟩, hhead, hbuilt⟩ := List.mem_flatMap.mp hitem
      obtain ⟨hi, stored⟩ := (hmem _).mp hhead
      obtain ⟨hfirst, hlast⟩ := Fills.stored fills hi stored
      exact offerable_of_projection stored hfirst hlast hbuilt
    · simpa [Next.kept] using fills

theorem stop_advances {candidates : List Nat} (sound : s.chart.Sound g sentence)
    (inside : s.chart.Inside first last) (fills : s.chart.Fills first last candidates) :
    (Task.stop first last candidates).Advances g sentence s := by
  obtain ⟨row, hrow, hmem⟩ := modificand_row (s := s) sound.consistent.linked candidates fun _ hi =>
    Fills.lt_size fills hi
  refine .pass (s.noting (row.map g.stop)) (.trials first last (row.map g.stop) .round) sound ?_ rfl
    ⟨inside, fun item hitem => ?_, ?_⟩
  · rw [Task.step, hrow, Outcome.ok_bind]
    rfl
  · obtain ⟨trial, htrial, hbuilt⟩ := List.mem_filterMap.mp hitem
    obtain ⟨m, hm, rfl⟩ := List.mem_map.mp htrial
    obtain ⟨i, hi, held, stored, rfl⟩ := (hmem m).mp hm
    obtain ⟨hfirst, hlast⟩ := Fills.stored fills hi stored
    exact offerable_of_stop stored hfirst hlast hbuilt
  · simp [Next.kept, Chart.Fills]

theorem offers_advances {items : List Item} {taken : List Nat} {kind : Next}
    (sound : s.chart.Sound g sentence)
    (ready : (Task.offers first last items taken kind).Ready g sentence s.chart) :
    (Task.offers first last items taken kind).Advances g sentence s := by
  obtain ⟨inside, offerable, fills⟩ := ready
  cases items with
  | nil => exact ⟨s, _, rfl, sound, .refl _, ready_tasks inside fills⟩
  | cons item items =>
    have first := offerable item List.mem_cons_self
    obtain ⟨next, index, hadd, sound', grows, outcome⟩ := sound_add sound inside first
    refine ⟨{ s with chart := next }, _, by rw [Task.step, hadd, Outcome.ok_bind]; rfl, sound',
      grows, ?_⟩
    simp only [List.mem_singleton, forall_eq]
    refine ⟨grows.inside.mpr inside, fun other hother => ?_, ?_⟩
    · exact (offerable other (List.mem_cons_of_mem _ hother)).extends sound.consistent.linked
        grows.arena
    · rw [← List.append_assoc]
      refine Fills.append (Fills.grows fills grows) fun i hi => ?_
      cases outcome with
      | refused => simp at hi
      | taken h =>
        rw [Option.toList_some, List.mem_singleton] at hi
        subst hi
        exact ⟨item, h.built, first.first, first.last⟩

theorem Task.Ready.advances (ready : task.Ready g sentence s.chart)
    (sound : s.chart.Sound g sentence) : task.Advances g sentence s := by
  cases task with
  | seed => exact seed_advances sound ready
  | complete => exact complete_advances sound ready.1 ready.2
  | finish => exact finish_advances sound ready
  | close => exact close_advances sound ready
  | round => exact round_advances sound ready.1 ready.2
  | stop => exact stop_advances sound ready.1 ready.2
  | offers => exact offers_advances sound ready

structure Progress.Sound (p : Progress) (g : Grammar) (sentence : Sentence) : Prop where
  chart : p.search.chart.Sound g sentence
  ready : ∀ task ∈ p.agenda, task.Ready g sentence p.search.chart

/-- One step from a sound point succeeds and leads to a sound point. -/
theorem Progress.Sound.step {p : Progress} (h : p.Sound g sentence) :
    ∃ q, p.step g (g.commas sentence) = .ok q ∧ q.Sound g sentence ∧
      p.search.chart.Grows q.search.chart := by
  obtain ⟨s, agenda⟩ := p
  cases agenda with
  | nil => exact ⟨_, rfl, h, .refl _⟩
  | cons task rest =>
    obtain ⟨sound, ready⟩ := h
    obtain ⟨t, tasks, hstep, sound', grows, ready'⟩ :=
      (ready task List.mem_cons_self).advances sound
    refine ⟨⟨t, tasks ++ rest⟩, by simp only [Progress.step, hstep]; rfl, ⟨sound', ?_⟩, grows⟩
    intro other hother
    rcases List.mem_append.mp hother with hother | hother
    · exact ready' other hother
    · exact (ready other (List.mem_cons_of_mem _ hother)).grows sound.consistent.linked grows

theorem Leads.sound {p q : Progress} (h : Leads g (g.commas sentence) p q)
    (hp : p.Sound g sentence) : q.Sound g sentence := by
  induction h with
  | refl => exact hp
  | step _ next ih =>
    obtain ⟨r, hr, sound, -⟩ := ih.step
    rw [hr, Except.ok.injEq] at next
    exact next ▸ sound

theorem Leads.grows {p q : Progress} (h : Leads g (g.commas sentence) p q)
    (hp : p.Sound g sentence) : p.search.chart.Grows q.search.chart := by
  induction h with
  | refl => exact .refl _
  | step before next ih =>
    obtain ⟨r, hr, -, grows⟩ := (before.sound hp).step
    rw [hr, Except.ok.injEq] at next
    exact ih.trans (next ▸ grows)

theorem sound_resized {chart : Chart} (settings : chart.settings = g.settings) :
    (chart.resized sentence.length).Sound g sentence := by
  refine ⟨⟨Chart.filed_resized chart g.language _, ⟨rfl, fun index verb h => ?_⟩⟩, settings, rfl,
    fun index item h => ?_⟩
  · simp [Chart.resized_eq, Arena.empty] at h
  · rw [Chart.resized_eq] at h
    exact absurd (Arena.lt_size_of_built? h) (Nat.not_lt_zero _)

theorem mem_spans_iff {size : Nat} :
    (first, last) ∈ Chart.spans size ↔ first ≤ last ∧ last < size := by
  simp only [Chart.spans, List.mem_flatMap, List.mem_map, List.mem_range, Prod.mk.injEq]
  constructor
  · rintro ⟨width, hwidth, start, hstart, rfl, rfl⟩
    omega
  · rintro ⟨hle, hlt⟩
    exact ⟨last - first, by omega, first, by omega, rfl, by omega⟩

theorem sound_start {chart : Chart} (settings : chart.settings = g.settings)
    (words : sentence ≠ []) : (start chart sentence).Sound g sentence := by
  refine ⟨sound_resized settings, fun task htask => ?_⟩
  have hpos := List.length_pos_iff.mpr words
  simp only [start, List.mem_append, List.mem_map, List.mem_filter, List.mem_singleton,
    Prod.exists, decide_eq_true_eq] at htask
  rcases htask with (⟨token, position, hmem, rfl⟩ | ⟨first, last, ⟨hmem, hlt⟩, rfl⟩) | rfl
  · exact List.mem_zipIdx_iff_getElem?.mp hmem
  · exact ⟨hlt, (mem_spans_iff.mp hmem).2⟩
  · show sentence.length - 1 + 1 = sentence.length
    omega

theorem Passes.sound {chart : Chart} {p : Progress} (h : Passes g chart sentence p)
    (settings : chart.settings = g.settings) (words : sentence ≠ []) : p.Sound g sentence :=
  Leads.sound h (sound_start settings words)

/-- A search gets through or comes to a cell that it cannot close. -/
theorem run_passes {chart : Chart} (settings : chart.settings = g.settings)
    (words : sentence ≠ []) :
    (∃ s, run g chart sentence = .ok s ∧ Passes g chart sentence ⟨s, []⟩) ∨
      run g chart sentence = .error .arenaOverflow ∧ ∃ s first last rest,
        Passes g chart sentence ⟨s, .close first last :: rest⟩ ∧
          s.close g first last = .error .arenaOverflow := by
  have follows := run_follows g chart sentence
  cases hrun : run g chart sentence with
  | ok s =>
    rw [hrun] at follows
    exact Or.inl ⟨s, rfl, follows⟩
  | error fault =>
    rw [hrun] at follows
    obtain ⟨⟨s, agenda⟩, passes, stuck⟩ := follows
    cases stuck with
    | step h =>
      obtain ⟨q, hq, -⟩ := (Passes.sound passes settings words).step
      rw [hq] at h
      cases h
    | close h fails =>
      obtain rfl : agenda = _ := h
      exact Or.inr ⟨rfl, s, _, _, _, passes, fails⟩

end Search

end HeadDriven
