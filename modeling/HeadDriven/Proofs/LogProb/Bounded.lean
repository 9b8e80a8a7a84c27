import HeadDriven.Proofs.LogProb.Rank

/-! Sums that are numbers and not plus infinity. Then both summands are such numbers; the sum
grows with them, and nothing is gained by adding what is not positive. -/
namespace HeadDriven.LogProb

open Float.Model Float.Model.UnpackedFloat

variable {x y z : Float} {u v : UnpackedFloat}

def Unbounded (u : UnpackedFloat) : Prop := u = .notANumber ∨ u = .infinity .positive

theorem not_unbounded (h : Bounded x) : ¬Unbounded x.toModel.unpack := by
  have below := rank_lt_bound h
  rintro (nan | infinite)
  · obtain ⟨s, n, hx, -⟩ := exists_magnitude h.number
    rw [nan] at hx
    cases hx
  · rw [rank, infinite] at below
    exact absurd below (Int.lt_irrefl _)

theorem bounded_of_unpack (h : ¬Unbounded x.toModel.unpack) : Bounded x := by
  have number : x.isNaN = false := isNaN_of_unpack fun nan => h (Or.inl nan)
  obtain ⟨s, n, hx, place⟩ := exists_magnitude number
  rw [Bounded, lt_iff_rank number isNaN_infinite, rank_infinite, place]
  have wide : 0 < bound := Nat.two_pow_pos outOfRange
  generalize x.toModel.unpack = u at hx h
  cases hx with
  | zero => cases s <;> exact Int.ofNat_lt.mpr wide
  | finite _ fits range =>
    have inside := fits.lt_bound range
    cases s <;> simp only [Sign.apply] <;> omega
  | infinity =>
    cases s with
    | negative =>
      show -(bound : Int) < bound
      omega
    | positive => exact absurd (Or.inr rfl) h

theorem Unbounded.stored (h : Unbounded u) : Unbounded (stored u) := by
  rcases h with rfl | rfl
  · exact Or.inl rfl
  · exact Or.inr rfl

theorem Unbounded.add_left (h : Unbounded u) (v : UnpackedFloat) :
    Unbounded (UnpackedFloat.add Format.binary64 u v) := by
  rcases h with rfl | rfl
  · cases v <;> exact Or.inl rfl
  · cases v with
    | notANumber => exact Or.inl rfl
    | infinity s => cases s <;> [exact Or.inl rfl; exact Or.inr rfl]
    | zero | finite => exact Or.inr rfl

theorem Unbounded.add_right (h : Unbounded v) (u : UnpackedFloat) :
    Unbounded (UnpackedFloat.add Format.binary64 u v) := by
  rcases h with rfl | rfl
  · cases u <;> exact Or.inl rfl
  · cases u with
    | notANumber => exact Or.inl rfl
    | infinity s => cases s <;> [exact Or.inl rfl; exact Or.inr rfl]
    | zero | finite => exact Or.inr rfl

theorem Bounded.of_add (h : Bounded (x + y)) : Bounded x ∧ Bounded y :=
  ⟨bounded_of_unpack fun hx => not_unbounded h (hx.add_left _).stored,
    bounded_of_unpack fun hy => not_unbounded h (hy.add_right _).stored⟩

theorem Bounded.add_spec (hx : Bounded x) (hy : Bounded y) :
    (x + y).isNaN = false ∧ rank (x + y) = summed (rank x) (rank y) := by
  obtain ⟨s, m, hm, left⟩ := exists_magnitude hx.number
  obtain ⟨t, n, hn, right⟩ := exists_magnitude hy.number
  have finite := rank_lt_bound hx
  have finite' := rank_lt_bound hy
  rw [left] at finite
  rw [right] at finite'
  obtain ⟨r, k, hk, value⟩ := magnitude_add hm hn finite finite'
  have sum : Magnitude r (x + y).toModel.unpack k := hk
  exact ⟨sum.number, by rw [rank, sum.rank_eq, value, left, right]⟩

theorem Bounded.add_comm_beq (hx : Bounded x) (hy : Bounded y) : x + y == y + x := by
  obtain ⟨left, value⟩ := hx.add_spec hy
  obtain ⟨right, value'⟩ := hy.add_spec hx
  have same : rank (x + y) = rank (y + x) := by rw [value, value', summed_comm]
  exact (beq_iff_rank left right).mpr same

theorem Bounded.add_le_add {x' y' : Float} (hx' : Bounded x') (hy' : Bounded y')
    (h : x ≤ x') (h' : y ≤ y') : x + y ≤ x' + y' := by
  have hx : Bounded x := numbers_lt_of_le_of_lt h hx'
  have hy : Bounded y := numbers_lt_of_le_of_lt h' hy'
  obtain ⟨left, lower⟩ := hx.add_spec hy
  obtain ⟨right, upper⟩ := hx'.add_spec hy'
  rw [hx.le_iff hx'] at h
  rw [hy.le_iff hy'] at h'
  rw [le_iff_rank left right, lower, upper]
  exact summed_mono h h'

theorem Bounded.add_le (hx : Bounded x) (hy : y ≤ 0.0) : x + y ≤ x := by
  obtain ⟨number, zero⟩ := numbers_of_le hy
  obtain ⟨sum, value⟩ := hx.add_spec (numbers_lt_of_le_of_lt hy zero_lt_infinite)
  obtain ⟨s, m, hm, place⟩ := exists_magnitude hx.number
  rw [le_iff_rank number zero, rank_zero] at hy
  rw [le_iff_rank sum hx.number, value, place]
  exact hm.summed_le hy

end HeadDriven.LogProb
