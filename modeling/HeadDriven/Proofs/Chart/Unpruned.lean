import HeadDriven.Proofs.Chart.Group
import HeadDriven.Proofs.LogProb.Order
import Mathlib.Data.List.TakeWhile

/-! Groups that are not pruned. With a beam of infinite width and room to spare a group
turns an entry away only for the better holder of its key, and an entry that it takes
replaces the holder of its key and nothing else. The entries stay in the order of their
scores, so the first of them is the best. -/
namespace HeadDriven.LabelGroup

structure Ranked (g : LabelGroup) : Prop where
  scores : ∀ e ∈ g.entries, e.score ≤ 0.0
  descending : g.entries.Pairwise fun a b => b.score ≤ a.score

variable {g : LabelGroup} {e x : Entry} {key : Key} {score : Float} {cap : Nat}

theorem Ranked.le_best (h : g.Ranked) {best : Entry} (hbest : g.best? = some best)
    (he : e ∈ g.entries) : e.score ≤ best.score := by
  obtain ⟨entries⟩ := g
  cases entries with
  | nil => cases hbest
  | cons first rest =>
    obtain rfl : first = best := Option.some.inj hbest
    rcases List.mem_cons.mp he with rfl | he
    · exact LogProb.le_refl (h.scores e List.mem_cons_self)
    · exact List.rel_of_pairwise_cons h.descending he

theorem refuses_iff (ranked : g.Ranked) (roomy : g.size < cap) (hscore : score ≤ 0.0)
    (distinct : g.Distinct) : g.refuses (1.0 / 0.0) cap score key = true ↔
      ∃ e ∈ g.entries, e.key = key ∧ score ≤ e.score := by
  have beam : (g.best?.any fun best => decide (score < best.score - 1.0 / 0.0)) = false := by
    rw [Option.any_eq_false_iff_get]
    intro h
    have hbest : g.best?.get h ∈ g.entries := List.mem_of_mem_head? (Option.get_mem h)
    simpa using LogProb.not_lt_sub_infinite (ranked.scores _ hbest) hscore
  have full : decide (cap ≤ g.size) = false := by simpa using roomy
  rw [refuses, excludes, beam, full, Bool.false_and, Bool.false_or, Bool.false_or,
    Option.any_eq_true]
  simp only [lookup?_eq_some_iff distinct, decide_eq_true_eq]
  constructor
  · rintro ⟨holder, ⟨hmem, hkey⟩, hle⟩
    exact ⟨holder, hmem, hkey, hle⟩
  · rintro ⟨holder, hmem, hkey, hle⟩
    exact ⟨holder, ⟨hmem, hkey⟩, hle⟩

theorem prune_entries (scores : ∀ e ∈ g.entries, e.score ≤ 0.0) (small : g.size ≤ cap) :
    (g.prune (1.0 / 0.0) cap).1.entries = g.entries := by
  unfold prune
  split
  · rfl
  · rename_i best hbest
    have hmem : best ∈ g.entries := List.mem_of_mem_head? hbest
    have whole : g.entries.take cap = g.entries := List.take_of_length_le small
    simp only [whole]
    refine (List.rdropWhile_eq_self_iff).mpr fun hne => ?_
    have last := scores _ (List.getLast_mem hne)
    simpa using LogProb.sub_infinite_le (scores best hmem) last

theorem accept_entries (distinct : g.Distinct) (ranked : g.Ranked) (roomy : g.size < cap)
    (hscore : e.score ≤ 0.0) :
    (g.accept (1.0 / 0.0) cap e).1.entries = ((g.without e.key).insert e).entries := by
  rw [accept_eq]
  refine prune_entries (fun x hx => ?_) ?_
  · rw [(insert_perm _ e).mem_iff, List.mem_cons, entries_without distinct] at hx
    rcases hx with rfl | hx
    · exact hscore
    · exact ranked.scores x (List.mem_of_mem_filter hx)
  · rw [size, (insert_perm _ e).length_eq, List.length_cons, entries_without distinct]
    exact Nat.succ_le_of_lt (Nat.lt_of_le_of_lt (List.length_filter_le _ _) roomy)

theorem mem_accept_iff (distinct : g.Distinct) (ranked : g.Ranked) (roomy : g.size < cap)
    (hscore : e.score ≤ 0.0) : x ∈ (g.accept (1.0 / 0.0) cap e).1.entries ↔
      x = e ∨ x ∈ g.entries ∧ x.key ≠ e.key := by
  rw [accept_entries distinct ranked roomy hscore, (insert_perm _ e).mem_iff, List.mem_cons,
    entries_without distinct]
  simp

end HeadDriven.LabelGroup
