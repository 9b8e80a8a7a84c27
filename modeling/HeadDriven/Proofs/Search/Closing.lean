import HeadDriven.Proofs.Search.Rounds

/-! Closing a cell without pruning. What its items can be made into is turned away in the end,
so it is covered. -/
namespace HeadDriven

namespace Chart

def Closed (c : Chart) (g : Grammar) (first last : Nat) : Prop :=
  ∀ index item, c.Live first last index item → c.Expanded g index item

end Chart

namespace Search

variable {g : Grammar} {sentence : Sentence} {chart c : Chart} {s t : Search}
  {first last n : Nat} {frontier : List Nat} {rest : List Task}

structure Closes (g : Grammar) (c next : Chart) (first last : Nat) : Prop
    extends Rounded g c next first last where
  closed : next.Closed g first last

namespace Unpruned

variable (u : Unpruned g chart sentence)
include u

theorem covers_of_turnsAway {y : Item} (visited : Visits g chart sentence c)
    (inside : c.Inside first last) (offerable : Offerable g sentence c.arena first last y)
    (refused : c.turnsAway g.language y = true) : c.Covers g.language y :=
  (Chart.turnsAway_iff (u.ordered visited) (u.roomy_at visited) (offerable.inside inside)
    (offerable.weighed (u.sound visited).built u.discounts).score_le_zero).mp refused

theorem closed_of_exhausted (visited : Visits g chart sentence c)
    (exhausted : c.Exhausted g first last) : c.Closed g first last := fun i x live =>
  ⟨fun y hy => u.covers_of_turnsAway visited live.inside
    (offerable_projection (u.sound visited) live hy) (exhausted.projections i x live y hy),
   fun y hy => u.covers_of_turnsAway visited live.inside
    (offerable_stop (u.sound visited) live hy) (exhausted.stop i x live y hy)⟩

theorem settles (settles : Settles g first last s frontier n t)
    (h : Passes g chart sentence ⟨s, .round first last frontier :: rest⟩) :
    Rounded g s.chart t.chart first last := by
  induction settles with
  | done => exact .refl (u.ordered h.visits)
  | round opens hround _ ih =>
    obtain ⟨mid, grown, next, fresh, hround', stopping, passes, rows⟩ :=
      h.round u.settings u.words opens
    rw [hround, Except.ok.injEq, Prod.mk.injEq] at hround'
    obtain ⟨rfl, rfl⟩ := hround'
    exact (u.rounded rows).trans (ih passes)

theorem close (h : Passes g chart sentence ⟨s, .close first last :: rest⟩) :
    ∃ t, s.close g first last = .ok t ∧ Passes g chart sentence ⟨t, rest⟩ ∧
      Closes g s.chart t.chart first last := by
  obtain ⟨_, -, t, closure, passes⟩ := u.tempered.close h
  obtain ⟨present, hpresent, settles⟩ := closure.present
  obtain ⟨_, hpresent', -, next⟩ := h.listing u.settings u.words
  rw [hpresent, Except.ok.injEq] at hpresent'
  subst hpresent'
  exact ⟨t, closure.result, passes, u.settles settles next,
    u.closed_of_exhausted passes.visits (u.tempered.close_exhausts h closure)⟩

end Unpruned

end Search

end HeadDriven
