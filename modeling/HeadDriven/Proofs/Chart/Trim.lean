import HeadDriven.Proofs.Chart.Group
import HeadDriven.Proofs.LogProb.Rank

/-! The order of a group. Its entries stand best score first, equal scores in the order of
their arrival, and none is below the beam of the best. Giving an entry its place keeps this.
What is turned away stays turned away: whatever takes the place of an entry is better than
that entry, and what is cut off stands behind all that is kept. -/
namespace HeadDriven

open LogProb

/-- One entry stands before another: it scores better, or as well and came earlier. -/
def Entry.Before (a b : Entry) : Prop :=
  b.score ≤ a.score ∧ (a.score ≤ b.score → a.index < b.index)

theorem Entry.Before.of_lt {a b : Entry} (h : b.score < a.score) : a.Before b :=
  ⟨le_of_lt h, fun tie =>
    absurd tie ((not_le_iff_lt (numbers_of_lt h).2 (numbers_of_lt h).1).mpr h)⟩

theorem Entry.Before.trans {a b c : Entry} (h : a.Before b) (h' : b.Before c) : a.Before c :=
  ⟨numbers_le_trans h'.1 h.1, fun tie => Nat.lt_trans (h.2 (numbers_le_trans tie h'.1))
    (h'.2 (numbers_le_trans h.1 tie))⟩

namespace LabelGroup

section Cut

variable {α : Type} {p : α → Bool} {r : α → α → Prop} {l : List α}

theorem not_of_mem_dropWhile (h : l.Pairwise r)
    (along : ∀ a ∈ l, ∀ b ∈ l, r a b → p b = true → p a = true) :
    ∀ x ∈ l.dropWhile p, ¬p x = true := by
  induction l with
  | nil => exact fun x hx => absurd hx List.not_mem_nil
  | cons a l ih =>
    rw [List.pairwise_cons] at h
    cases ha : p a with
    | true =>
      rw [List.dropWhile_cons_of_pos ha]
      exact ih h.2 fun x hx y hy =>
        along x (List.mem_cons_of_mem a hx) y (List.mem_cons_of_mem a hy)
    | false =>
      rw [List.dropWhile_cons_of_neg (by simp [ha])]
      intro x hx hp
      rcases List.mem_cons.mp hx with rfl | hmem
      · rw [ha] at hp
        cases hp
      · have := along a List.mem_cons_self x hx (h.1 x hmem) hp
        rw [ha] at this
        cases this

theorem not_of_mem_rdropWhile (h : l.Pairwise r)
    (along : ∀ a ∈ l, ∀ b ∈ l, r a b → p a = true → p b = true) :
    ∀ x ∈ l.rdropWhile p, ¬p x = true := by
  intro x hx
  rw [List.rdropWhile, List.mem_reverse] at hx
  refine not_of_mem_dropWhile (List.pairwise_reverse.mpr h) (fun a ha b hb hr => ?_) x hx
  exact along b (List.mem_reverse.mp hb) a (List.mem_reverse.mp ha) hr

/-- A list is cut down to a length, and then from its end as long as the last element is out;
where each element that is out has those behind it out, all others are kept. -/
theorem cut_take (h : l.Pairwise r) (along : ∀ a ∈ l, ∀ b ∈ l, r a b → p a = true → p b = true)
    (cap : Nat) :
    ∃ dropped, l = (l.take cap).rdropWhile p ++ dropped ∧
      (∀ x ∈ (l.take cap).rdropWhile p, ¬p x = true) ∧
      ∀ d ∈ dropped, p d = true ∨ cap ≤ ((l.take cap).rdropWhile p).length := by
  have taken {x : α} (hx : x ∈ l.take cap) : x ∈ l := List.mem_of_mem_take hx
  have whole : (l.take cap).rdropWhile p ++ (l.take cap).rtakeWhile p = l.take cap :=
    List.rdropWhile_append_rtakeWhile
  refine ⟨(l.take cap).rtakeWhile p ++ l.drop cap, ?_, ?_, fun d hd => ?_⟩
  · rw [← List.append_assoc, whole, List.take_append_drop]
  · exact not_of_mem_rdropWhile (h.sublist (List.take_sublist cap l)) fun a ha b hb =>
      along a (taken ha) b (taken hb)
  · rcases List.mem_append.mp hd with hd | hd
    · exact Or.inl (List.mem_rtakeWhile_imp hd)
    · -- Behind the cap: either an element in front of it was out, or none was.
      cases htail : (l.take cap).rtakeWhile p with
      | nil =>
        have long : cap ≤ l.length := by
          have := List.length_pos_of_mem hd
          rw [List.length_drop] at this
          omega
        rw [htail, List.append_nil] at whole
        rw [whole, List.length_take, Nat.min_eq_left long]
        exact Or.inr (Nat.le_refl _)
      | cons t tail =>
        have ht : t ∈ (l.take cap).rtakeWhile p := htail ▸ List.mem_cons_self
        have hmem : t ∈ l.take cap := (List.rtakeWhile_suffix _ _).subset ht
        have before : r t d := by
          rw [← List.take_append_drop cap l, List.pairwise_append] at h
          exact h.2.2 t hmem d hd
        exact Or.inl (along t (taken hmem) d (List.mem_of_mem_drop hd) before
          (List.mem_rtakeWhile_imp ht))

end Cut

structure Trim (g : LabelGroup) (beam : Float) (cap : Nat) : Prop extends g.Distinct where
  bounded : ∀ e ∈ g.entries, Bounded e.score
  ordered : g.entries.Pairwise Entry.Before
  capped : g.size ≤ cap
  within : ∀ best ∈ g.best?, ∀ e ∈ g.entries, best.score - beam ≤ e.score

variable {g : LabelGroup} {e x o d best worst : Entry} {beam score : Float} {cap : Nat} {key : Key}

theorem trim_empty : empty.Trim beam cap where
  toDistinct := distinct_empty
  bounded _ he := absurd he List.not_mem_nil
  ordered := List.Pairwise.nil
  capped := Nat.zero_le _
  within _ _ _ he := absurd he List.not_mem_nil

theorem mem_of_best? (h : best ∈ g.best?) : best ∈ g.entries := List.mem_of_mem_head? h

theorem mem_of_worst? (h : worst ∈ g.worst?) : worst ∈ g.entries := List.mem_of_mem_getLast? h

theorem exists_best? (h : x ∈ g.entries) : ∃ best, best ∈ g.best? := by
  cases hbest : g.best? with
  | none => exact absurd (List.head?_eq_none_iff.mp hbest ▸ h) List.not_mem_nil
  | some best => exact ⟨best, rfl⟩

theorem exists_worst? (hcap : 1 ≤ cap) (full : cap ≤ g.size) : ∃ worst, worst ∈ g.worst? := by
  cases hworst : g.worst? with
  | none =>
    rw [size, List.getLast?_eq_none_iff.mp hworst, List.length_nil] at full
    omega
  | some worst => exact ⟨worst, rfl⟩

theorem le_best? (bounded : ∀ e ∈ g.entries, Bounded e.score)
    (ordered : g.entries.Pairwise Entry.Before) (hbest : best ∈ g.best?) (hx : x ∈ g.entries) :
    x.score ≤ best.score := by
  obtain ⟨rest, hrest⟩ := List.head?_eq_some_iff.mp hbest
  rw [hrest] at bounded ordered hx
  rcases List.mem_cons.mp hx with rfl | hmem
  · exact numbers_le_refl (bounded x hx).number
  · exact ((List.pairwise_cons.mp ordered).1 x hmem).1

theorem worst?_le (bounded : ∀ e ∈ g.entries, Bounded e.score)
    (ordered : g.entries.Pairwise Entry.Before) (hworst : worst ∈ g.worst?) (hx : x ∈ g.entries) :
    worst.score ≤ x.score := by
  obtain ⟨front, hfront⟩ := List.getLast?_eq_some_iff.mp hworst
  rw [hfront] at bounded ordered hx
  rcases List.mem_append.mp hx with hmem | hmem
  · exact ((List.pairwise_append.mp ordered).2.2 x hmem worst (List.mem_singleton_self worst)).1
  · obtain rfl := List.mem_singleton.mp hmem
    exact numbers_le_refl (bounded x hx).number

theorem ordered_insert (bounded : ∀ x ∈ g.entries, Bounded x.score) (he : Bounded e.score)
    (ordered : g.entries.Pairwise Entry.Before) (fresh : ∀ x ∈ g.entries, x.index < e.index) :
    (g.insert e).entries.Pairwise Entry.Before := by
  have parts := List.takeWhile_append_dropWhile (p := fun x : Entry => decide (e.score ≤ x.score))
    (l := g.entries)
  have above : ∀ x ∈ g.entries.takeWhile fun x => decide (e.score ≤ x.score), x.Before e := by
    intro x hx
    have hmem := (List.takeWhile_prefix _).subset hx
    exact ⟨by simpa using List.mem_takeWhile_imp hx, fun _ => fresh x hmem⟩
  have below : ∀ y ∈ g.entries.dropWhile fun x => decide (e.score ≤ x.score), e.Before y := by
    intro y hy
    have hmem := (List.dropWhile_suffix _).subset hy
    have worse : ¬e.score ≤ y.score := by
      have := not_of_mem_dropWhile ordered (fun a _ b _ hab hb => ?_) y hy
      · simpa using this
      · exact decide_eq_true (numbers_le_trans (of_decide_eq_true hb) hab.1)
    exact .of_lt ((not_le_iff_lt he.number (bounded y hmem).number).mp worse)
  rw [← parts, List.pairwise_append] at ordered
  refine List.pairwise_append.mpr ⟨ordered.1, List.pairwise_cons.mpr ⟨below, ordered.2.1⟩, ?_⟩
  intro x hx y hy
  rcases List.mem_cons.mp hy with rfl | hmem
  · exact above x hx
  · exact ordered.2.2 x hx y hmem

/-- What is kept of a group and what is cut off its end: the cut-off is below the beam, or the
group is full without it. -/
structure Cut (g kept : LabelGroup) (beam : Float) (cap : Nat) (dropped : List Entry) : Prop where
  entries : g.entries = kept.entries ++ dropped
  capped : kept.size ≤ cap
  within : ∀ best ∈ g.best?, ∀ e ∈ kept.entries, best.score - beam ≤ e.score
  outside : ∀ best ∈ g.best?, ∀ d ∈ dropped, d.score < best.score - beam ∨ cap ≤ kept.size

theorem cut_prune (bounded : ∀ e ∈ g.entries, Bounded e.score)
    (ordered : g.entries.Pairwise Entry.Before) (hbeam : 0.0 ≤ beam) :
    ∃ dropped, g.Cut (g.prune beam cap).1 beam cap dropped := by
  unfold prune
  cases hbest : g.best? with
  | none =>
    have none := List.head?_eq_none_iff.mp hbest
    refine ⟨[], by simp, by simp [size, none], ?_, ?_⟩ <;> simp [hbest]
  | some best =>
    have number := ((bounded best (mem_of_best? hbest)).sub_spec hbeam).1
    have below {e : Entry} (he : e ∈ g.entries) :
        ¬best.score - beam ≤ e.score ↔ e.score < best.score - beam :=
      not_le_iff_lt number (bounded e he).number
    obtain ⟨dropped, whole, kept, out⟩ := cut_take
      (p := fun e : Entry => !decide (best.score - beam ≤ e.score)) ordered
      (fun a ha b hb hab low => by
        simp only [Bool.not_eq_true', decide_eq_false_iff_not, below ha, below hb] at low ⊢
        exact numbers_lt_of_le_of_lt hab.1 low) cap
    refine ⟨dropped, whole, ?_, fun top htop e he => ?_, fun top htop d hd => ?_⟩
    · exact Nat.le_trans (List.rdropWhile_prefix _ _).length_le (List.length_take_le _ _)
    · obtain rfl : best = top := Option.some.inj (hbest.symm.trans htop)
      simpa using kept e he
    · obtain rfl : best = top := Option.some.inj (hbest.symm.trans htop)
      have hmem : d ∈ g.entries := whole ▸ List.mem_append_right _ hd
      rw [← below hmem]
      exact (out d hd).imp_left fun low => by simpa using low

theorem Cut.best?_eq {kept : LabelGroup} {dropped : List Entry} (cut : g.Cut kept beam cap dropped)
    (bounded : ∀ e ∈ g.entries, Bounded e.score) (hbeam : 0.0 ≤ beam) (hcap : 1 ≤ cap) :
    kept.best? = g.best? := by
  unfold best?
  rw [cut.entries]
  cases hkept : kept.entries with
  | cons first rest => rfl
  | nil =>
    rw [List.nil_append]
    cases hdropped : dropped with
    | nil => rfl
    | cons top rest =>
      have htop : top ∈ g.best? := by
        rw [best?, cut.entries, hkept, hdropped]
        rfl
      have hmem := mem_of_best? htop
      rcases cut.outside top htop top (hdropped ▸ List.mem_cons_self) with low | full
      · exact absurd ((bounded top hmem).sub_le hbeam)
          ((not_le_iff_lt ((bounded top hmem).sub_spec hbeam).1 (bounded top hmem).number).mpr low)
      · rw [size, hkept, List.length_nil] at full
        omega

/-- A group turns an offer away for one of three reasons. -/
theorem refuses_eq_true_iff (h : g.Distinct) : g.refuses beam cap score key = true ↔
    (∃ best ∈ g.best?, score < best.score - beam) ∨
    (cap ≤ g.size ∧ ∃ worst ∈ g.worst?, score ≤ worst.score) ∨
    ∃ x ∈ g.entries, x.key = key ∧ score ≤ x.score := by
  have holder : (g.lookup? key).any (fun holder => decide (score ≤ holder.score)) = true ↔
      ∃ x ∈ g.entries, x.key = key ∧ score ≤ x.score := by
    simp only [Option.any_eq_true, decide_eq_true_eq, lookup?_eq_some_iff h, and_assoc]
  rw [refuses_iff_or, holder, excludes, Bool.or_eq_true, Bool.and_eq_true]
  simp only [Option.any_eq_true, decide_eq_true_eq, Option.mem_def, or_assoc]

/-- Why an offer has no place in a group: it is below the beam, or the group is full of entries
before it, or one of its key has the place, perhaps the one that was offered. -/
inductive Settled (g : LabelGroup) (beam : Float) (cap : Nat) (o : Entry) : Prop where
  | below (best : Entry) (first : best ∈ g.best?) (low : o.score < best.score - beam)
  | crowded (full : cap ≤ g.size) (behind : ∀ x ∈ g.entries, x.Before o)
  | held (x : Entry) (mem : x ∈ g.entries) (key : x.key = o.key) (first : x = o ∨ x.Before o)

theorem Trim.settled_of_refuses (h : g.Trim beam cap)
    (hrefuses : g.refuses beam cap o.score o.key = true)
    (later : ∀ x ∈ g.entries, x.index < o.index) : g.Settled beam cap o := by
  rcases (refuses_eq_true_iff h.toDistinct).mp hrefuses with
    ⟨best, hbest, low⟩ | ⟨full, worst, hworst, hle⟩ | ⟨x, hx, hkey, hle⟩
  · exact .below best hbest low
  · refine .crowded full fun x hx => ⟨?_, fun _ => later x hx⟩
    exact numbers_le_trans hle (worst?_le h.bounded h.ordered hworst hx)
  · exact .held x hx hkey (Or.inr ⟨hle, fun _ => later x hx⟩)

theorem Trim.refuses_of_settled (h : g.Trim beam cap) (ho : Bounded o.score) (hcap : 1 ≤ cap)
    (settled : g.Settled beam cap o) : g.refuses beam cap o.score o.key = true := by
  rw [refuses_eq_true_iff h.toDistinct]
  cases settled with
  | below best hbest low => exact Or.inl ⟨best, hbest, low⟩
  | crowded full behind =>
    obtain ⟨worst, hworst⟩ := exists_worst? hcap full
    exact Or.inr (Or.inl ⟨full, worst, hworst, (behind worst (mem_of_worst? hworst)).1⟩)
  | held x hx hkey first =>
    refine Or.inr (Or.inr ⟨x, hx, hkey, ?_⟩)
    rcases first with rfl | before
    · exact numbers_le_refl ho.number
    · exact before.1

theorem Cut.settled {kept : LabelGroup} {dropped : List Entry} (cut : g.Cut kept beam cap dropped)
    (ordered : g.entries.Pairwise Entry.Before) (first : kept.best? = g.best?)
    (hd : d ∈ dropped) (behind : d = o ∨ d.Before o) : kept.Settled beam cap o := by
  rw [cut.entries, List.pairwise_append] at ordered
  obtain ⟨best, hbest⟩ : ∃ best, best ∈ g.best? :=
    exists_best? (cut.entries ▸ List.mem_append_right kept.entries hd)
  rcases cut.outside best hbest d hd with low | full
  · refine .below best (first ▸ hbest) ?_
    rcases behind with rfl | before
    · exact low
    · exact numbers_lt_of_le_of_lt before.1 low
  · refine .crowded full fun x hx => ?_
    have ahead := ordered.2.2 x hx d hd
    rcases behind with rfl | before
    · exact ahead
    · exact ahead.trans before

section Accept

variable (h : g.Trim beam cap) (he : Bounded e.score) (fresh : ∀ x ∈ g.entries, x.index < e.index)
  (hbeam : 0.0 ≤ beam) (hcap : 1 ≤ cap)

def placing (g : LabelGroup) (e : Entry) : LabelGroup := (g.without e.key).insert e

theorem mem_placing (h : g.Distinct) :
    x ∈ (g.placing e).entries ↔ x = e ∨ x ∈ g.entries ∧ x.key ≠ e.key := by
  rw [placing, (insert_perm _ e).mem_iff, List.mem_cons, entries_without h, List.mem_filter,
    decide_eq_true_eq]

include h he fresh in
theorem Trim.ordered_placing : (g.placing e).entries.Pairwise Entry.Before ∧
    ∀ x ∈ (g.placing e).entries, Bounded x.score := by
  have others := entries_without h.toDistinct e.key
  constructor
  · refine ordered_insert (fun x hx => ?_) he ?_ fun x hx => ?_
    · rw [others] at hx
      exact h.bounded x (List.mem_of_mem_filter hx)
    · rw [others]
      exact h.ordered.sublist List.filter_sublist
    · rw [others] at hx
      exact fresh x (List.mem_of_mem_filter hx)
  · intro x hx
    rcases (mem_placing h.toDistinct).mp hx with rfl | ⟨hmem, -⟩
    · exact he
    · exact h.bounded x hmem

include h he fresh hbeam hcap in
theorem Trim.cut_accept : ∃ dropped,
    (g.placing e).Cut (g.accept beam cap e).1 beam cap dropped ∧
      (g.accept beam cap e).1.best? = (g.placing e).best? := by
  obtain ⟨ordered, bounded⟩ := h.ordered_placing he fresh
  obtain ⟨dropped, cut⟩ : ∃ dropped, (g.placing e).Cut ((g.placing e).prune beam cap).1 beam cap
      dropped := cut_prune bounded ordered hbeam
  exact ⟨dropped, cut, cut.best?_eq bounded hbeam hcap⟩

include h he fresh hbeam hcap in
theorem Trim.accept : (g.accept beam cap e).1.Trim beam cap := by
  obtain ⟨ordered, bounded⟩ := h.ordered_placing he fresh
  obtain ⟨dropped, cut, first⟩ := h.cut_accept he fresh hbeam hcap
  have fresh' : ∀ x ∈ g.entries, x.index ≠ e.index := fun x hx => Nat.ne_of_lt (fresh x hx)
  refine ⟨h.toDistinct.accept fresh', fun x hx => ?_, ?_, cut.capped, ?_⟩
  · exact bounded x (cut.entries ▸ List.mem_append_left dropped hx)
  · rw [cut.entries, List.pairwise_append] at ordered
    exact ordered.1
  · rw [first]
    exact cut.within

theorem size_placing (h : g.Distinct) : g.size ≤ (g.placing e).size := by
  have one : g.entries.countP (fun x => decide (x.key = e.key)) ≤ 1 := by
    have := List.nodup_iff_count_le_one.mp h.keys e.key
    rwa [List.count_eq_countP, List.countP_map] at this
  have split := List.length_eq_countP_add_countP (fun x : Entry => decide (x.key = e.key))
    (l := g.entries)
  have others : (g.placing e).size =
      g.entries.countP (fun x => decide ¬decide (x.key = e.key) = true) + 1 := by
    rw [placing, size, (insert_perm _ e).length_eq, List.length_cons, entries_without h,
      List.countP_eq_length_filter]
    simp
  rw [others, size]
  omega

variable (opens : g.refuses beam cap e.score e.key = false)

include h he opens in
theorem Trim.beats : (∀ x ∈ g.entries, x.key = e.key → x.score < e.score) ∧
    (cap ≤ g.size → ∀ worst ∈ g.worst?, worst.score < e.score) := by
  have refuses := (refuses_eq_true_iff h.toDistinct).not.mp (Bool.eq_false_iff.mp opens)
  push Not at refuses
  obtain ⟨-, worst, holder⟩ := refuses
  constructor
  · intro x hx hkey
    exact (not_le_iff_lt he.number (h.bounded x hx).number).mp (holder x hx hkey)
  · intro full last hlast
    have hmem := h.bounded last (mem_of_worst? hlast)
    exact (not_le_iff_lt he.number hmem.number).mp (worst full last hlast)

include h he fresh hbeam hcap opens in
theorem Trim.best?_accept (hbest : best ∈ g.best?) :
    ∃ top ∈ (g.accept beam cap e).1.best?, best.score ≤ top.score := by
  obtain ⟨ordered, bounded⟩ := h.ordered_placing he fresh
  obtain ⟨_, -, first⟩ := h.cut_accept he fresh hbeam hcap
  have hmem := mem_of_best? hbest
  obtain ⟨x, hx, hle⟩ : ∃ x ∈ (g.placing e).entries, best.score ≤ x.score := by
    by_cases hkey : best.key = e.key
    · exact ⟨e, (mem_placing h.toDistinct).mpr (Or.inl rfl),
        le_of_lt ((h.beats he opens).1 best hmem hkey)⟩
    · exact ⟨best, (mem_placing h.toDistinct).mpr (Or.inr ⟨hmem, hkey⟩),
        numbers_le_refl (h.bounded best hmem).number⟩
  obtain ⟨top, htop⟩ := exists_best? hx
  exact ⟨top, first ▸ htop, numbers_le_trans hle (le_best? bounded ordered htop hx)⟩

include h he fresh hbeam hcap in
/-- What has an entry of its key in front of it is settled: the entry is kept, or cut off with
all that stands behind it. -/
theorem Trim.settled_of_key (hx : x ∈ (g.placing e).entries) (hkey : x.key = o.key)
    (front : x = o ∨ x.Before o) : (g.accept beam cap e).1.Settled beam cap o := by
  obtain ⟨ordered, -⟩ := h.ordered_placing he fresh
  obtain ⟨dropped, cut, first⟩ := h.cut_accept he fresh hbeam hcap
  rw [cut.entries] at hx
  rcases List.mem_append.mp hx with kept | gone
  · exact .held x kept hkey front
  · exact cut.settled ordered first gone front

include h he fresh hbeam hcap in
theorem Trim.settled_of_full (full : cap ≤ (g.placing e).size)
    (ahead : ∀ x ∈ (g.placing e).entries, x.Before o) :
    (g.accept beam cap e).1.Settled beam cap o := by
  obtain ⟨ordered, -⟩ := h.ordered_placing he fresh
  obtain ⟨dropped, cut, first⟩ := h.cut_accept he fresh hbeam hcap
  have entries := cut.entries
  cases hdropped : dropped with
  | nil =>
    rw [hdropped, List.append_nil] at entries
    rw [size, entries] at full
    exact .crowded full (entries ▸ ahead)
  | cons d rest =>
    have hd : d ∈ dropped := hdropped ▸ List.mem_cons_self
    have hmem : d ∈ (g.placing e).entries := entries ▸ List.mem_append_right _ hd
    exact cut.settled ordered first hd (Or.inr (ahead d hmem))

include h he fresh hbeam hcap in
theorem Trim.settled_self : (g.accept beam cap e).1.Settled beam cap e :=
  h.settled_of_key he fresh hbeam hcap ((mem_placing h.toDistinct).mpr (Or.inl rfl)) rfl
    (Or.inl rfl)

include h he fresh hbeam hcap opens in
/-- What is below the beam stays so: the best of the group only gets better. -/
theorem Trim.settled_of_below (hbest : best ∈ g.best?) (low : o.score < best.score - beam) :
    (g.accept beam cap e).1.Settled beam cap o := by
  obtain ⟨top, htop, hle⟩ := h.best?_accept he fresh hbeam hcap opens hbest
  have bounded := (h.accept he fresh hbeam hcap).bounded top (mem_of_best? htop)
  have raised : best.score - beam ≤ top.score - beam :=
    (h.bounded best (mem_of_best? hbest)).sub_le_sub bounded hbeam hbeam hle
      (numbers_le_refl (numbers_of_le hbeam).2)
  exact .below top htop (numbers_lt_of_lt_of_le low raised)

include h he hcap opens in
theorem Trim.ahead_placing (full : cap ≤ g.size) (behind : ∀ x ∈ g.entries, x.Before o) :
    ∀ x ∈ (g.placing e).entries, x.Before o := by
  intro x hx
  rcases (mem_placing h.toDistinct).mp hx with rfl | ⟨hmem, -⟩
  · obtain ⟨worst, hworst⟩ := exists_worst? hcap full
    have better := (h.beats he opens).2 full worst hworst
    exact .of_lt (numbers_lt_of_le_of_lt (behind worst (mem_of_worst? hworst)).1 better)
  · exact behind x hmem

include h he fresh hbeam hcap opens in
/-- What has no place in a group gets none when the group takes another entry. -/
theorem Trim.settled_accept (ho : Bounded o.score) (settled : g.Settled beam cap o) :
    (g.accept beam cap e).1.Settled beam cap o := by
  cases settled with
  | below best hbest low => exact h.settled_of_below he fresh hbeam hcap opens hbest low
  | crowded full behind =>
    exact h.settled_of_full he fresh hbeam hcap (Nat.le_trans full (size_placing h.toDistinct))
      (h.ahead_placing he hcap opens full behind)
  | held x hx hkey front =>
    by_cases same : x.key = e.key
    · have better : e.Before o := by
        refine .of_lt (numbers_lt_of_le_of_lt ?_ ((h.beats he opens).1 x hx same))
        rcases front with rfl | before
        · exact numbers_le_refl ho.number
        · exact before.1
      exact h.settled_of_key he fresh hbeam hcap ((mem_placing h.toDistinct).mpr (Or.inl rfl))
        (same.symm.trans hkey) (Or.inr better)
    · exact h.settled_of_key he fresh hbeam hcap
        ((mem_placing h.toDistinct).mpr (Or.inr ⟨hx, same⟩)) hkey front

include h he hbeam opens in
theorem Trim.within_placing (hbest : best ∈ (g.placing e).best?) :
    ¬e.score < best.score - beam := by
  intro low
  rcases (mem_placing h.toDistinct).mp (mem_of_best? hbest) with rfl | ⟨hmem, -⟩
  · have number := (he.sub_spec hbeam).1
    exact (not_le_iff_lt number he.number).mpr low (he.sub_le hbeam)
  · obtain ⟨top, htop⟩ := exists_best? hmem
    have lower : best.score - beam ≤ top.score - beam :=
      (h.bounded best hmem).sub_le_sub (h.bounded top (mem_of_best? htop)) hbeam hbeam
        (le_best? h.bounded h.ordered htop hmem) (numbers_le_refl (numbers_of_le hbeam).2)
    have closes : g.refuses beam cap e.score e.key = true :=
      (refuses_eq_true_iff h.toDistinct).mpr
        (Or.inl ⟨top, htop, numbers_lt_of_lt_of_le low lower⟩)
    rw [opens] at closes
    cases closes

include h he fresh hbeam hcap opens in
theorem Trim.mem_accept : e ∈ (g.accept beam cap e).1.entries := by
  obtain ⟨ordered, -⟩ := h.ordered_placing he fresh
  obtain ⟨dropped, cut, -⟩ := h.cut_accept he fresh hbeam hcap
  have hself : e ∈ (g.placing e).entries := (mem_placing h.toDistinct).mpr (Or.inl rfl)
  have shared := cut.entries ▸ hself
  refine (List.mem_append.mp shared).resolve_right fun gone => ?_
  obtain ⟨best, hbest⟩ := exists_best? hself
  have full := (cut.outside best hbest e gone).resolve_left (h.within_placing he hbeam opens hbest)
  -- Whatever is kept stands before the entry, and the group is full of it: it is all there was.
  rw [cut.entries, List.pairwise_append] at ordered
  have ahead : ∀ x ∈ (g.accept beam cap e).1.entries, x.Before e := fun x hx =>
    ordered.2.2 x hx e gone
  have old : (g.accept beam cap e).1.entries ⊆ g.entries := by
    intro x hx
    rcases (mem_placing h.toDistinct).mp (cut.entries ▸ List.mem_append_left dropped hx) with
      rfl | ⟨hmem, -⟩
    · exact absurd ((ahead x hx).2 (ahead x hx).1) (Nat.lt_irrefl _)
    · exact hmem
  have same : (g.accept beam cap e).1.entries.Perm g.entries := by
    have nodup := (h.accept he fresh hbeam hcap).indices.of_map
    exact (List.subperm_of_subset nodup old).perm_of_length_le (Nat.le_trans h.capped full)
  have full' : cap ≤ g.size := by
    rw [size, ← same.length_eq]
    exact full
  obtain ⟨worst, hworst⟩ := exists_worst? hcap full'
  have better := (h.beats he opens).2 full' worst hworst
  have behind := (ahead worst (same.mem_iff.mpr (mem_of_worst? hworst))).1
  exact (not_le_iff_lt he.number (numbers_of_lt better).1).mpr better behind

end Accept

end LabelGroup

end HeadDriven
