import HeadDriven.Proofs.LogProb.Bounded

/-! Numbers that are not positive, as log probabilities are. So are their sums, which grow with
each summand and are no larger than either of them. Nothing is lost by adding zero, and nothing
falls out of a beam of infinite width. -/
namespace HeadDriven.LogProb

variable {x y x' y' : Float}

theorem zero_le_zero : (0.0 : Float) ≤ 0.0 := numbers_le_refl isNaN_zero

theorem le_zero_of_not (number : x.isNaN = false) (h : ¬0.0 < x) : x ≤ 0.0 :=
  Decidable.byContradiction fun above => h ((not_le_iff_lt number isNaN_zero).mp above)

theorem bounded_of_le_zero (h : x ≤ 0.0) : Bounded x :=
  numbers_lt_of_le_of_lt h zero_lt_infinite

theorem add_le (hx : x ≤ 0.0) (hy : y ≤ 0.0) : x + y ≤ x := (bounded_of_le_zero hx).add_le hy

theorem add_le_zero (hx : x ≤ 0.0) (hy : y ≤ 0.0) : x + y ≤ 0.0 :=
  numbers_le_trans (add_le hx hy) hx

theorem add_le_add (hx' : x' ≤ 0.0) (hy' : y' ≤ 0.0) (h : x ≤ x') (h' : y ≤ y') :
    x + y ≤ x' + y' :=
  (bounded_of_le_zero hx').add_le_add (bounded_of_le_zero hy') h h'

theorem add_le_right (hx : x ≤ 0.0) (hy : y ≤ 0.0) : x + y ≤ y := by
  have swapped := (bounded_of_le_zero hx).add_comm_beq (bounded_of_le_zero hy)
  exact numbers_le_trans (beq_iff_le.mp swapped).1 (add_le hy hx)

theorem add_zero_beq (hx : x ≤ 0.0) : x + 0.0 == x := by
  have bounded := bounded_of_le_zero hx
  obtain ⟨number, value⟩ := bounded.add_spec (bounded_of_le_zero zero_le_zero)
  obtain ⟨s, n, magnitude, place⟩ := exists_magnitude bounded.number
  rw [beq_iff_rank number bounded.number, value, rank_zero, place]
  exact magnitude.summed_zero

theorem le_add_zero (hx : x ≤ 0.0) : x ≤ x + 0.0 := (beq_iff_le.mp (add_zero_beq hx)).2

theorem sub_infinite_le (hx : x ≤ 0.0) (hy : y ≤ 0.0) : x - 1.0 / 0.0 ≤ y := by
  obtain ⟨number, value⟩ :=
    (bounded_of_le_zero hx).sub_spec (le_of_lt zero_lt_infinite)
  obtain ⟨s, n, magnitude, place⟩ := exists_magnitude (bounded_of_le_zero hy).number
  rw [le_iff_rank number (numbers_of_le hy).1, value, rank_infinite, lowered,
    if_pos (.inr (Int.le_refl _)), place]
  exact magnitude.neg_bound_le

theorem not_lt_sub_infinite (hx : x ≤ 0.0) (hy : y ≤ 0.0) : ¬y < x - 1.0 / 0.0 := fun below =>
  (not_le_iff_lt (numbers_of_lt below).2 (numbers_of_lt below).1).mpr below (sub_infinite_le hx hy)

end HeadDriven.LogProb
