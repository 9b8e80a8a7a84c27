import HeadDriven.Chart.LabelGroup
import Mathlib.Data.List.Nodup
import Mathlib.Data.List.DropRight

/-! Where the entries of a group go. An entry that is given a place takes it from
the holder of its key, if there is one; what the group then has too many of is cut
off at its end. So each entry is either kept or reported as lost, never both, and
the index of a group always tells the entries that it has. -/
namespace HeadDriven.LabelGroup

def lookup? (g : LabelGroup) (key : Key) : Option Entry := g.entries.find? (·.key = key)

/-- Whether an offer is turned away: its score has no place, or it is no better than the
holder of its key. -/
def refuses (g : LabelGroup) (beam : Float) (cap : Nat) (score : Float) (key : Key) : Bool :=
  g.excludes beam cap score || (g.lookup? key).any fun holder => score ≤ holder.score

/-- No two entries of a group share a position or a key, and the index lists them all. -/
structure Distinct (g : LabelGroup) : Prop where
  indices : (g.entries.map Entry.index).Nodup
  keys : (g.entries.map Entry.key).Nodup
  indexed : g.byKey.Perm (g.entries.map fun e => (e.key, e.index))

theorem distinct_empty : empty.Distinct := ⟨List.nodup_nil, List.nodup_nil, .nil⟩

section Nodup

variable {α β : Type} [DecidableEq β] {f : α → β} {l : List α} {a : α} {b : β}

theorem find?_eq_some_iff_of_nodup (h : (l.map f).Nodup) :
    l.find? (fun x => f x = b) = some a ↔ a ∈ l ∧ f a = b := by
  constructor
  · intro ha
    exact ⟨List.mem_of_find?_eq_some ha, by simpa using List.find?_some ha⟩
  · rintro ⟨ha, rfl⟩
    cases hl : l.find? (fun x => f x = f a) with
    | none =>
      have := List.find?_eq_none.mp hl a ha
      simp at this
    | some x =>
      have hx : f x = f a := by simpa using List.find?_some hl
      rw [List.inj_on_of_nodup_map h (List.mem_of_find?_eq_some hl) ha hx]

theorem eraseP_eq_filter_of_nodup (h : (l.map f).Nodup) :
    l.eraseP (fun x => f x = b) = l.filter fun x => f x ≠ b := by
  induction l with
  | nil => rfl
  | cons x l ih =>
    rw [List.map_cons, List.nodup_cons] at h
    by_cases hx : f x = b
    · have others : l.filter (fun x => f x ≠ b) = l :=
        List.filter_eq_self.mpr fun y hy => by
          have : f y ≠ b := fun hb => h.1 (List.mem_map.mpr ⟨y, hy, hb.trans hx.symm⟩)
          simpa using this
      rw [List.eraseP_cons_of_pos (by simpa using hx), List.filter_cons_of_neg (by simpa using hx),
        others]
    · rw [List.eraseP_cons_of_neg (by simpa using hx), List.filter_cons_of_pos (by simpa using hx),
        ih h.2]

end Nodup

theorem lookup_eq_some_iff_of_nodup {l : List (Key × Nat)} {key : Key} {index : Nat}
    (h : (l.map Prod.fst).Nodup) : l.lookup key = some index ↔ (key, index) ∈ l := by
  induction l with
  | nil => simp
  | cons p l ih =>
    obtain ⟨k, i⟩ := p
    rw [List.map_cons, List.nodup_cons] at h
    rw [List.lookup_cons, List.mem_cons]
    by_cases hk : key = k
    · subst hk
      have notin : (key, index) ∉ l := fun hl => h.1 (List.mem_map.mpr ⟨_, hl, rfl⟩)
      simp [notin, eq_comm]
    · simp [hk, beq_false_of_ne hk, ih h.2]

variable {g : LabelGroup} {e x : Entry} {key : Key} {beam score : Float} {cap index : Nat}

theorem Distinct.eq_of_key (h : g.Distinct) (hx : x ∈ g.entries) (he : e ∈ g.entries)
    (hkey : x.key = e.key) : x = e :=
  List.inj_on_of_nodup_map h.keys hx he hkey

theorem Distinct.eq_of_index (h : g.Distinct) (hx : x ∈ g.entries) (he : e ∈ g.entries)
    (hindex : x.index = e.index) : x = e :=
  List.inj_on_of_nodup_map h.indices hx he hindex

theorem Distinct.nodup_byKey (h : g.Distinct) : (g.byKey.map Prod.fst).Nodup := by
  rw [(h.indexed.map Prod.fst).nodup_iff, List.map_map]
  exact h.keys

theorem lookup?_eq_some_iff (h : g.Distinct) :
    g.lookup? key = some x ↔ x ∈ g.entries ∧ x.key = key :=
  find?_eq_some_iff_of_nodup h.keys

theorem holder?_eq_some_iff (h : g.Distinct) :
    g.holder? key = some index ↔ ∃ e ∈ g.entries, e.key = key ∧ e.index = index := by
  rw [holder?, lookup_eq_some_iff_of_nodup h.nodup_byKey, h.indexed.mem_iff]
  simp

theorem refuses_iff_or : g.refuses beam cap score key = true ↔ g.excludes beam cap score = true ∨
    (g.lookup? key).any (fun holder => decide (score ≤ holder.score)) = true := by
  rw [refuses, Bool.or_eq_true]

theorem holder?_eq (h : g.Distinct) : g.holder? key = (g.lookup? key).map Entry.index := by
  refine Option.ext fun index => ?_
  rw [holder?_eq_some_iff h, Option.map_eq_some_iff]
  simp only [lookup?_eq_some_iff h, and_assoc]

def without (g : LabelGroup) (key : Key) : LabelGroup := (g.holder? key).elim g g.remove

theorem entries_without (h : g.Distinct) (key : Key) :
    (g.without key).entries = g.entries.filter (·.key ≠ key) := by
  unfold without
  cases hl : g.lookup? key with
  | none =>
    rw [holder?_eq h, hl, Option.map_none, Option.elim_none]
    refine (List.filter_eq_self.mpr fun e he => ?_).symm
    simpa using List.find?_eq_none.mp hl e he
  | some e =>
    obtain ⟨he, rfl⟩ := (lookup?_eq_some_iff h).mp hl
    have found := (find?_eq_some_iff_of_nodup h.indices).mpr ⟨he, rfl⟩
    rw [holder?_eq h, hl, Option.map_some, Option.elim_some, remove, found]
    simp only
    rw [eraseP_eq_filter_of_nodup h.indices]
    refine List.filter_congr fun x hx => ?_
    have same : x.index = e.index ↔ x.key = e.key :=
      ⟨fun hi => congrArg _ (h.eq_of_index hx he hi), fun hk => congrArg _ (h.eq_of_key hx he hk)⟩
    simp [same]

theorem byKey_without (h : g.Distinct) (key : Key) :
    (g.without key).byKey = g.byKey.filter (·.1 ≠ key) := by
  unfold without
  cases hl : g.lookup? key with
  | none =>
    rw [holder?_eq h, hl, Option.map_none, Option.elim_none]
    refine (List.filter_eq_self.mpr fun p hp => ?_).symm
    obtain ⟨e, he, rfl⟩ := List.mem_map.mp (h.indexed.mem_iff.mp hp)
    simpa using List.find?_eq_none.mp hl e he
  | some e =>
    obtain ⟨he, rfl⟩ := (lookup?_eq_some_iff h).mp hl
    have found := (find?_eq_some_iff_of_nodup h.indices).mpr ⟨he, rfl⟩
    rw [holder?_eq h, hl, Option.map_some, Option.elim_some, remove, found]

theorem Distinct.filter (h : g.Distinct) (p : Key → Bool) :
    Distinct ⟨g.entries.filter (fun e => p e.key), g.byKey.filter (fun held => p held.1)⟩ where
  indices := (List.filter_sublist.map Entry.index).nodup h.indices
  keys := (List.filter_sublist.map Entry.key).nodup h.keys
  indexed := by
    refine (h.indexed.filter _).trans (List.Perm.of_eq ?_)
    rw [List.filter_map]
    rfl

theorem Distinct.without (h : g.Distinct) (key : Key) : (g.without key).Distinct := by
  have := h.filter (fun other => other ≠ key)
  rwa [← entries_without h, ← byKey_without h] at this

theorem insert_perm (g : LabelGroup) (e : Entry) :
    (g.insert e).entries.Perm (e :: g.entries) := by
  refine List.perm_middle.trans (List.Perm.of_eq ?_)
  rw [List.takeWhile_append_dropWhile]

theorem Distinct.insert (h : g.Distinct) (fresh : ∀ x ∈ g.entries, x.index ≠ e.index)
    (free : ∀ x ∈ g.entries, x.key ≠ e.key) : (g.insert e).Distinct where
  indices := by
    rw [((insert_perm g e).map Entry.index).nodup_iff, List.map_cons, List.nodup_cons]
    exact ⟨by simpa using fresh, h.indices⟩
  keys := by
    rw [((insert_perm g e).map Entry.key).nodup_iff, List.map_cons, List.nodup_cons]
    exact ⟨by simpa using free, h.keys⟩
  indexed := by
    have whole : g.byKey.filter (·.1 ≠ e.key) = g.byKey := by
      refine List.filter_eq_self.mpr fun p hp => ?_
      obtain ⟨x, hx, rfl⟩ := List.mem_map.mp (h.indexed.mem_iff.mp hp)
      simpa using free x hx
    refine List.Perm.trans ?_ ((insert_perm g e).map fun e => (e.key, e.index)).symm
    rw [LabelGroup.insert, whole, List.map_cons]
    exact h.indexed.cons _

theorem prune_append (g : LabelGroup) (beam : Float) (cap : Nat) :
    ∃ dropped, g.entries = (g.prune beam cap).1.entries ++ dropped ∧
      (g.prune beam cap).2 = dropped.map Entry.index ∧
      (g.prune beam cap).1.byKey = g.byKey.filter fun held => dropped.all (·.key ≠ held.1) := by
  unfold prune
  split
  · refine ⟨[], by simp, rfl, ?_⟩
    exact (List.filter_eq_self.mpr fun _ _ => rfl).symm
  · rename_i best _
    have inside : ((g.entries.take cap).rdropWhile fun e => !decide (best.score - beam ≤ e.score))
        <+: g.entries :=
      (List.rdropWhile_prefix _ _).trans (List.take_prefix cap g.entries)
    exact ⟨_, (List.prefix_iff_eq_append.mp inside).symm, rfl, rfl⟩

theorem Distinct.prune (h : g.Distinct) (beam : Float) (cap : Nat) :
    (g.prune beam cap).1.Distinct := by
  obtain ⟨dropped, happend, -, hindex⟩ := prune_append g beam cap
  have keys := h.keys
  rw [happend, List.map_append, List.nodup_append'] at keys
  have stays : ∀ e ∈ (g.prune beam cap).1.entries, dropped.all (·.key ≠ e.key) = true := by
    intro e he
    rw [List.all_eq_true]
    intro d hd
    have apart := keys.2.2 (List.mem_map_of_mem he)
    simpa using fun same : d.key = e.key => apart (same ▸ List.mem_map_of_mem hd)
  have goes : ∀ e ∈ dropped, ¬dropped.all (·.key ≠ e.key) = true := by
    intro e he hall
    simpa using List.all_eq_true.mp hall e he
  have kept : g.entries.filter (fun e => dropped.all (·.key ≠ e.key)) =
      (g.prune beam cap).1.entries := by
    rw [happend, List.filter_append, List.filter_eq_self.mpr stays, List.filter_eq_nil_iff.mpr goes,
      List.append_nil]
  have := h.filter fun key => dropped.all (·.key ≠ key)
  rwa [kept, ← hindex] at this

theorem accept_eq (g : LabelGroup) (beam : Float) (cap : Nat) (e : Entry) :
    (g.accept beam cap e).1 = (((g.without e.key).insert e).prune beam cap).1 := rfl

/-- Giving an entry its place shares out the entry and those of other keys among the kept and
the dropped; lost are the holder of the key and the dropped. -/
theorem accept_perm (h : g.Distinct) (beam : Float) (cap : Nat) (e : Entry) :
    ∃ dropped, ((g.accept beam cap e).1.entries ++ dropped).Perm
        (e :: g.entries.filter (·.key ≠ e.key)) ∧
      (g.accept beam cap e).2 =
        ((g.lookup? e.key).map Entry.index).toList ++ dropped.map Entry.index := by
  obtain ⟨dropped, happend, hlost, -⟩ := prune_append ((g.without e.key).insert e) beam cap
  refine ⟨dropped, ?_, ?_⟩
  · rw [← entries_without h]
    exact (List.Perm.of_eq happend.symm).trans (insert_perm _ e)
  · rw [← holder?_eq h, ← hlost]
    rfl

theorem Distinct.accept (h : g.Distinct) (fresh : ∀ x ∈ g.entries, x.index ≠ e.index) :
    (g.accept beam cap e).1.Distinct := by
  refine ((h.without e.key).insert (fun x hx => ?_) fun x hx => ?_).prune beam cap
  · rw [entries_without h] at hx
    exact fresh x (List.mem_of_mem_filter hx)
  · rw [entries_without h] at hx
    simpa using List.of_mem_filter hx

/-- What the entries of a group of distinct entries come to when one more is given its place. -/
structure Accepted (g kept : LabelGroup) (lost : List Nat) (e : Entry) : Prop where
  distinct : kept.Distinct
  mem : ∀ x ∈ kept.entries, x = e ∨ x ∈ g.entries ∧ x.key ≠ e.key
  mem_or_lost : e ∈ kept.entries ∨ e.index ∈ lost
  lost_of_not_mem : ∀ x ∈ g.entries, x ∉ kept.entries → x.index ∈ lost
  not_lost : ∀ x ∈ kept.entries, x.index ∉ lost
  mem_of_lost : ∀ i ∈ lost, i = e.index ∨ ∃ x ∈ g.entries, x.index = i

theorem mem_holder_iff (h : g.Distinct) : index ∈ ((g.lookup? key).map Entry.index).toList ↔
    ∃ x ∈ g.entries, x.key = key ∧ x.index = index := by
  simp [Option.mem_toList, Option.map_eq_some_iff, lookup?_eq_some_iff h, and_assoc]

section Accept

variable (h : g.Distinct) (fresh : ∀ x ∈ g.entries, x.index ≠ e.index)
include h fresh

theorem disjoint_indices {kept dropped : List Entry}
    (shared : (kept ++ dropped).Perm (e :: g.entries.filter (·.key ≠ e.key))) :
    (kept.map Entry.index).Disjoint (dropped.map Entry.index) := by
  have others : (g.entries.filter (·.key ≠ e.key)).Sublist g.entries := List.filter_sublist
  have nodup : ((kept ++ dropped).map Entry.index).Nodup := by
    rw [(shared.map Entry.index).nodup_iff, List.map_cons, List.nodup_cons]
    refine ⟨fun hi => ?_, (others.map Entry.index).nodup h.indices⟩
    obtain ⟨x, hx, hix⟩ := List.mem_map.mp hi
    exact fresh x (others.subset hx) hix
  rw [List.map_append, List.nodup_append'] at nodup
  exact nodup.2.2

theorem accepted_accept : Accepted g (g.accept beam cap e).1 (g.accept beam cap e).2 e := by
  obtain ⟨dropped, shared, hlost⟩ := accept_perm h beam cap e
  have hmem (x : Entry) :
      x ∈ (g.accept beam cap e).1.entries ∨ x ∈ dropped ↔
        x = e ∨ x ∈ g.entries ∧ x.key ≠ e.key := by
    rw [← List.mem_append, shared.mem_iff]
    simp
  have lost (i : Nat) : i ∈ (g.accept beam cap e).2 ↔
      (∃ x ∈ g.entries, x.key = e.key ∧ x.index = i) ∨ i ∈ dropped.map Entry.index := by
    rw [hlost, List.mem_append, mem_holder_iff h]
  refine ⟨h.accept fresh, fun x hx => (hmem x).mp (.inl hx), ?_, fun x hx gone => ?_,
    fun x hx out => ?_, fun i out => ?_⟩
  · exact ((hmem e).mpr (.inl rfl)).imp_right fun hd =>
      (lost _).mpr (.inr (List.mem_map_of_mem hd))
  · rw [lost]
    by_cases hkey : x.key = e.key
    · exact .inl ⟨x, hx, hkey, rfl⟩
    · exact .inr (List.mem_map_of_mem (((hmem x).mpr (.inr ⟨hx, hkey⟩)).resolve_left gone))
  · rcases (lost _).mp out with ⟨holder, hholder, hkey, hindex⟩ | hd
    · rcases (hmem x).mp (.inl hx) with rfl | ⟨hxg, other⟩
      · exact fresh holder hholder hindex
      · exact other (h.eq_of_index hholder hxg hindex ▸ hkey)
    · exact disjoint_indices h fresh shared (List.mem_map_of_mem hx) hd
  · rcases (lost i).mp out with ⟨holder, hholder, -, hindex⟩ | hd
    · exact .inr ⟨holder, hholder, hindex⟩
    · obtain ⟨d, hdropped, rfl⟩ := List.mem_map.mp hd
      exact ((hmem d).mp (.inr hdropped)).imp (congrArg _) fun old => ⟨d, old.1, rfl⟩

end Accept

end HeadDriven.LabelGroup
