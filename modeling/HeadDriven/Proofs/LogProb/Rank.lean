import HeadDriven.Proofs.LogProb.Stored

/-! Where a number lies among the others. Numbers, the infinite ones among them, are ordered
as whole numbers are. A width that is not negative takes a number down, as far as a
difference is stored; the order of two numbers that are taken down is not turned round. -/
namespace HeadDriven.LogProb

open Float.Model Float.Model.UnpackedFloat

def unpackedRank : UnpackedFloat → Int
  | .finite s m e _ => s.apply (m * 2 ^ (e + 1074).toNat : Nat)
  | .infinity s => s.apply bound
  | .zero _ | .notANumber => 0

def rank (x : Float) : Int := unpackedRank x.toModel.unpack

variable {u v : UnpackedFloat} {s : Sign} {m n a b : Nat} {x y z w : Float}

theorem Magnitude.rank_eq (h : Magnitude s u n) : unpackedRank u = s.apply n := by
  cases h with
  | zero => cases s <;> rfl
  | @finite m a h =>
    have exponent : ((a : Int) - 1074 + 1074).toNat = a := by omega
    rw [unpackedRank, exponent]
  | infinity => rfl

theorem exists_magnitude (h : x.isNaN = false) :
    ∃ s n, Magnitude s x.toModel.unpack n ∧ rank x = s.apply n := by
  suffices number : ∃ s n, Magnitude s x.toModel.unpack n from
    number.imp fun s => .imp fun n magnitude => ⟨magnitude, magnitude.rank_eq⟩
  refine ⟨_, _, magnitude_unpack rfl fun infinite => ?_⟩
  refine Decidable.byContradiction fun payload => ?_
  have nan : x.toModel.unpack = .notANumber := by
    show UnpackedFloat.unpack Format.binary64 _ = _
    rw [UnpackedFloat.unpack, if_pos infinite, if_neg payload]
  have defined : x.toModel.unpack.isNaN = false := h
  rw [nan] at defined
  cases defined

theorem le_iff_unpack : x ≤ y ↔ x.toModel.unpack.le y.toModel.unpack = true := by
  show (decide (x.toModel ≤ y.toModel)) = true ↔ _
  rw [decide_eq_true_iff]
  rfl

theorem lt_iff_unpack : x < y ↔ x.toModel.unpack.lt y.toModel.unpack = true := by
  show (decide (x.toModel < y.toModel)) = true ↔ _
  rw [decide_eq_true_iff]
  rfl

theorem beq_iff_unpack : (x == y) = true ↔ x.toModel.unpack.beq y.toModel.unpack = true := Iff.rfl

theorem le_iff_rank (hx : x.isNaN = false) (hy : y.isNaN = false) : x ≤ y ↔ rank x ≤ rank y := by
  obtain ⟨_, _, hx, left⟩ := exists_magnitude hx
  obtain ⟨_, _, hy, right⟩ := exists_magnitude hy
  rw [le_iff_unpack, UnpackedFloat.le, hx.compare_signed hy, left, right]
  exact Int.isLE_compare

theorem lt_iff_rank (hx : x.isNaN = false) (hy : y.isNaN = false) : x < y ↔ rank x < rank y := by
  obtain ⟨_, _, hx, left⟩ := exists_magnitude hx
  obtain ⟨_, _, hy, right⟩ := exists_magnitude hy
  rw [lt_iff_unpack, UnpackedFloat.lt, hx.compare_signed hy, left, right, ← Int.compare_eq_lt]
  simp

theorem isNaN_of_unpack (h : x.toModel.unpack ≠ .notANumber) : x.isNaN = false := by
  show x.toModel.unpack.isNaN = false
  cases hx : x.toModel.unpack with
  | notANumber => exact absurd hx h
  | zero | finite | infinity => rfl

theorem Magnitude.number (h : Magnitude s x.toModel.unpack n) : x.isNaN = false :=
  isNaN_of_unpack fun nan => by
    rw [nan] at h
    cases h

theorem numbers_of_lt (h : x < y) : x.isNaN = false ∧ y.isNaN = false := by
  rw [lt_iff_unpack, UnpackedFloat.lt] at h
  refine ⟨isNaN_of_unpack fun nan => ?_, isNaN_of_unpack fun nan => ?_⟩
  · rw [nan] at h
    cases h
  · rw [nan] at h
    cases hx : x.toModel.unpack <;> rw [hx] at h <;> cases h

theorem numbers_of_le (h : x ≤ y) : x.isNaN = false ∧ y.isNaN = false := by
  rw [le_iff_unpack, UnpackedFloat.le] at h
  refine ⟨isNaN_of_unpack fun nan => ?_, isNaN_of_unpack fun nan => ?_⟩
  · rw [nan] at h
    cases h
  · rw [nan] at h
    cases hx : x.toModel.unpack <;> rw [hx] at h <;> cases h

theorem rank_zero : rank 0.0 = 0 := by rfl

theorem rank_infinite : rank (1.0 / 0.0) = bound := by
  have infinite : (1.0 / 0.0 : Float).toModel.unpack = .infinity .positive := by rfl
  rw [rank, infinite]
  rfl

theorem isNaN_zero : (0.0 : Float).isNaN = false := by rfl

theorem isNaN_infinite : (1.0 / 0.0 : Float).isNaN = false := by rfl

theorem zero_lt_infinite : (0.0 : Float) < 1.0 / 0.0 := by
  rw [lt_iff_rank isNaN_zero isNaN_infinite, rank_zero, rank_infinite]
  exact Int.natCast_pos.mpr (Nat.two_pow_pos outOfRange)

theorem rank_nonneg (h : 0.0 ≤ x) : 0 ≤ rank x := by
  have := (le_iff_rank (numbers_of_le h).1 (numbers_of_le h).2).mp h
  rwa [rank_zero] at this

theorem rank_lt_bound (h : x < 1.0 / 0.0) : rank x < bound := by
  have := (lt_iff_rank (numbers_of_lt h).1 (numbers_of_lt h).2).mp h
  rwa [rank_infinite] at this

/-- A difference of whole numbers as it is stored. -/
def settled (z : Int) : Int :=
  if 0 ≤ z then (min (rounded z.toNat) bound : Nat) else -(min (rounded (-z).toNat) bound : Nat)

theorem settled_zero : settled 0 = 0 := by
  rw [settled, if_pos (Int.le_refl 0), Int.toNat_zero, rounded_of_lt (by decide), Nat.zero_min]
  rfl

theorem settled_mono {y z : Int} (h : y ≤ z) : settled y ≤ settled z := by
  unfold settled
  split <;> split
  · have := rounded_mono (Int.toNat_le_toNat h)
    omega
  · omega
  · omega
  · have : rounded (-z).toNat ≤ rounded (-y).toNat := rounded_mono (by omega)
    omega

theorem neg_bound_le_settled (z : Int) : -(bound : Int) ≤ settled z := by
  unfold settled
  split <;> omega

theorem Magnitude.settled_eq (h : Magnitude s u n) : settled (s.apply n) = s.apply n := by
  have stays : min (rounded n) bound = n := h.min_rounded
  rcases Nat.eq_zero_or_pos n with rfl | hpos
  · cases s <;> exact settled_zero
  · cases s with
    | positive => rw [Sign.apply, settled, if_pos (Int.natCast_nonneg n), Int.toNat_natCast, stays]
    | negative =>
      rw [Sign.apply, settled, if_neg (by omega), Int.neg_neg, Int.toNat_natCast, stays]

theorem magnitude_normalize (z : Int) (a : Nat) (sign : Sign) :
    ∃ s n, Magnitude s (stored (UnpackedFloat.normalize Format.binary64 z ((a : Int) - 1074) sign))
      n ∧ s.apply n = settled (z * 2 ^ a) := by
  have unit : (0 : Int) < 2 ^ a := Int.pow_pos (by decide)
  rw [UnpackedFloat.normalize]
  rcases Int.lt_trichotomy z 0 with h | rfl | h
  · rw [Int.compare_eq_lt.mpr h]
    obtain ⟨m, b, pos, hround, fits, value⟩ :=
      round_eq (s := .negative) (m := (-z).toNat) (by omega) a
    refine ⟨.negative, _, by simp only [hround]; exact magnitude_stored_finite pos fits, ?_⟩
    have below : z * 2 ^ a < 0 := Int.mul_neg_of_neg_of_pos h unit
    have units : (-(z * 2 ^ a)).toNat = (-z).toNat * 2 ^ a := by
      rw [← Int.neg_mul, Int.toNat_mul (by omega) unit.le]
      congr 1
    rw [settled, if_neg (by omega), units, value, Sign.apply]
  · refine ⟨sign, 0, Magnitude.stored (Magnitude.zero sign), ?_⟩
    rw [Int.zero_mul, settled_zero]
    cases sign <;> rfl
  · rw [Int.compare_eq_gt.mpr h]
    obtain ⟨m, b, pos, hround, fits, value⟩ :=
      round_eq (s := .positive) (m := z.toNat) (by omega) a
    refine ⟨.positive, _, by simp only [hround]; exact magnitude_stored_finite pos fits, ?_⟩
    have above : 0 < z * 2 ^ a := Int.mul_pos h unit
    have units : (z * 2 ^ a).toNat = z.toNat * 2 ^ a := by
      rw [Int.toNat_mul h.le unit.le]
      congr 1
    rw [settled, if_pos above.le, units, value, Sign.apply]

/-- Where two numbers take each other that are added, neither of them plus infinity. -/
def summed (r q : Int) : Int :=
  if r ≤ -bound ∨ q ≤ -bound then -bound else settled (r + q)

def lowered (r w : Int) : Int :=
  if r ≤ -bound ∨ bound ≤ w then -bound else settled (r - w)

variable {r r' q q' w₁ w₂ : Int} {t : Sign}

theorem summed_of_le (h : r ≤ -bound ∨ q ≤ -(bound : Int)) : summed r q = -bound := if_pos h

theorem summed_of_lt (h : -(bound : Int) < r) (h' : -(bound : Int) < q) :
    summed r q = settled (r + q) :=
  if_neg (by omega)

theorem summed_comm (r q : Int) : summed r q = summed q r := by
  rw [summed, summed, Int.add_comm, if_congr or_comm rfl rfl]

theorem summed_mono (h : r ≤ r') (h' : q ≤ q') : summed r q ≤ summed r' q' := by
  have least := neg_bound_le_settled (r' + q')
  have step : settled (r + q) ≤ settled (r' + q') := settled_mono (by omega)
  unfold summed
  split <;> split <;> omega

theorem lowered_eq_summed (r w : Int) : lowered r w = summed r (-w) := by
  have same : r ≤ -bound ∨ bound ≤ w ↔ r ≤ -bound ∨ -w ≤ -bound := by omega
  rw [lowered, summed, if_congr same rfl rfl, Int.sub_eq_add_neg]

theorem lowered_mono (h : r ≤ q) (wider : w₂ ≤ w₁) : lowered r w₁ ≤ lowered q w₂ := by
  rw [lowered_eq_summed, lowered_eq_summed]
  exact summed_mono h (Int.neg_le_neg wider)

theorem Magnitude.neg_bound_le (h : Magnitude s u n) : -(bound : Int) ≤ s.apply n := by
  have := h.le_bound
  cases s <;> simp only [Sign.apply] <;> omega

theorem Magnitude.neg_bound_lt {h : 0 < m}
    (number : Magnitude s (.finite s m ((a : Int) - 1074) h) n) :
    -(bound : Int) < s.apply n := by
  generalize hexponent : (a : Int) - 1074 = e at number
  cases number with
  | finite _ fits range =>
    have inside := fits.lt_bound range
    cases s <;> simp only [Sign.apply] <;> omega

theorem Magnitude.summed_le (h : Magnitude s u n) (below : q ≤ 0) :
    summed (s.apply n) q ≤ s.apply n := by
  have least := h.neg_bound_le
  have step : settled (s.apply n + q) ≤ settled (s.apply n) := settled_mono (by omega)
  rw [h.settled_eq] at step
  unfold summed
  split <;> omega

theorem Magnitude.summed_zero (h : Magnitude s u n) : summed (s.apply n) 0 = s.apply n := by
  have least := h.neg_bound_le
  have wide : 0 < bound := Nat.two_pow_pos outOfRange
  rw [summed, Int.add_zero, h.settled_eq]
  split <;> omega

theorem magnitude_add_finite {hm : 0 < m} {hn : 0 < n} :
    ∃ r k, Magnitude r (stored (UnpackedFloat.add Format.binary64
      (.finite s m ((a : Int) - 1074) hm) (.finite t n ((b : Int) - 1074) hn))) k ∧
      r.apply k = settled (s.apply (m * 2 ^ a : Nat) + t.apply (n * 2 ^ b : Nat)) := by
  have least : min ((a : Int) - 1074) ((b : Int) - 1074) = ((min a b : Nat) : Int) - 1074 := by
    omega
  have left : m * 2 ^ a = m * 2 ^ (a - min a b) * 2 ^ min a b := by
    rw [Nat.mul_assoc, ← Nat.pow_add, Nat.sub_add_cancel (Nat.min_le_left a b)]
  have right : n * 2 ^ b = n * 2 ^ (b - min a b) * 2 ^ min a b := by
    rw [Nat.mul_assoc, ← Nat.pow_add, Nat.sub_add_cancel (Nat.min_le_right a b)]
  simp only [UnpackedFloat.add, least, decreaseExponent_eq m (Nat.min_le_left a b),
    decreaseExponent_eq n (Nat.min_le_right a b)]
  rw [left, right]
  generalize m * 2 ^ (a - min a b) = x
  generalize n * 2 ^ (b - min a b) = y
  have units : s.apply ((x * 2 ^ min a b : Nat) : Int) + t.apply ((y * 2 ^ min a b : Nat) : Int) =
      (s.apply x + t.apply y) * 2 ^ min a b := by
    cases s <;> cases t <;> simp only [Sign.apply] <;> push_cast <;> ring
  rw [units]
  exact magnitude_normalize _ (min a b) _

/-- A sum lies where its summands take each other. -/
theorem magnitude_add (hu : Magnitude s u m) (hv : Magnitude t v n)
    (finite : s.apply m < bound) (finite' : t.apply n < bound) :
    ∃ r k, Magnitude r (stored (UnpackedFloat.add Format.binary64 u v)) k ∧
      r.apply k = summed (s.apply m) (t.apply n) := by
  have least : Sign.negative.apply (bound : Int) ≤ -bound := Int.le_refl _
  -- A zero adds nothing, an infinity swallows the rest, and finite numbers are added exactly.
  cases hu with
  | zero sign =>
    rw [Nat.cast_zero, apply_zero, summed_comm, hv.summed_zero]
    refine ⟨t, n, Magnitude.stored ?_, rfl⟩
    cases hv with
    | zero sign' => cases sign <;> cases sign' <;> exact .zero _
    | finite h fits range => exact .finite h fits range
    | infinity => exact .infinity
  | finite h fits range =>
    have number : Magnitude s _ _ := .finite h fits range
    cases hv with
    | zero sign' =>
      rw [Nat.cast_zero, apply_zero, number.summed_zero]
      exact ⟨s, _, number.stored, rfl⟩
    | finite h' fits' range' =>
      have number' := Magnitude.finite (s := t) h' fits' range'
      rw [summed_of_lt number.neg_bound_lt number'.neg_bound_lt]
      exact magnitude_add_finite
    | infinity =>
      cases t with
      | positive => exact absurd finite' (Int.lt_irrefl _)
      | negative =>
        rw [summed_of_le (.inr least)]
        exact ⟨.negative, bound, Magnitude.infinity.stored, rfl⟩
  | infinity =>
    cases s with
    | positive => exact absurd finite (Int.lt_irrefl _)
    | negative =>
      rw [summed_of_le (.inl least)]
      refine ⟨.negative, bound, ?_, rfl⟩
      cases hv with
      | zero | finite => exact Magnitude.infinity.stored
      | infinity =>
        cases t with
        | positive => exact absurd finite' (Int.lt_irrefl _)
        | negative => exact Magnitude.infinity.stored

theorem apply_neg (s : Sign) (z : Int) : (-s).apply z = -s.apply z := by
  cases s
  · exact (Int.neg_neg z).symm
  · rfl

theorem Magnitude.neg (h : Magnitude s u n) : Magnitude (-s) u.neg n := by
  cases h with
  | zero sign => exact .zero _
  | finite h fits range => exact .finite h fits range
  | infinity => exact .infinity

theorem sub_eq_add_neg (u v : UnpackedFloat) :
    UnpackedFloat.sub Format.binary64 u v = UnpackedFloat.add Format.binary64 u v.neg := by
  cases u with
  | finite s m e h =>
    cases v with
    | finite t n e' h' =>
      simp only [UnpackedFloat.sub, UnpackedFloat.add, UnpackedFloat.neg, apply_neg,
        Int.sub_eq_add_neg]
    | zero | infinity | notANumber => rfl
  | zero | infinity | notANumber => cases v <;> rfl

theorem magnitude_sub (hu : Magnitude s u m) (hv : Magnitude .positive v n)
    (finite : s.apply m < bound) :
    ∃ t k, Magnitude t (stored (UnpackedFloat.sub Format.binary64 u v)) k ∧
      t.apply k = lowered (s.apply m) n := by
  have wide : 0 < bound := Nat.two_pow_pos outOfRange
  have value : (-Sign.positive).apply (n : Int) = -n := rfl
  have low : -(n : Int) < bound := by omega
  rw [sub_eq_add_neg, lowered_eq_summed, ← value]
  exact magnitude_add hu hv.neg finite (value ▸ low)

theorem Magnitude.of_zero {t : Sign} (h : Magnitude s u n) (none : n = 0) : Magnitude t u 0 := by
  cases h with
  | zero sign => exact .zero sign
  | @finite m a h => exact absurd none (Nat.mul_pos h (Nat.two_pow_pos a)).ne'
  | infinity => exact absurd none (Nat.two_pow_pos outOfRange).ne'

theorem magnitude_width (h : 0.0 ≤ w) : ∃ n : Nat, Magnitude .positive w.toModel.unpack n ∧
    rank w = n := by
  obtain ⟨s, n, hw, value⟩ := exists_magnitude (numbers_of_le h).2
  have nonneg := rank_nonneg h
  cases s with
  | positive => exact ⟨n, hw, value⟩
  | negative =>
    obtain rfl : n = 0 := by
      rw [value, Sign.apply] at nonneg
      omega
    exact ⟨0, hw.of_zero rfl, value⟩

/-- What may be placed in an order: a number that is not plus infinity. -/
abbrev Bounded (x : Float) : Prop := x < 1.0 / 0.0

theorem Bounded.number (h : Bounded x) : x.isNaN = false := (numbers_of_lt h).1

theorem Bounded.le_iff (hx : Bounded x) (hy : Bounded y) : x ≤ y ↔ rank x ≤ rank y :=
  le_iff_rank hx.number hy.number

theorem Bounded.sub_spec (hx : Bounded x) (hw : 0.0 ≤ w) :
    (x - w).isNaN = false ∧ rank (x - w) = lowered (rank x) (rank w) := by
  obtain ⟨s, m, hm, place⟩ := exists_magnitude hx.number
  obtain ⟨n, hn, width⟩ := magnitude_width hw
  have finite := rank_lt_bound hx
  rw [place] at finite
  obtain ⟨t, k, hk, value⟩ := magnitude_sub hm hn finite
  have difference : Magnitude t (x - w).toModel.unpack k := hk
  exact ⟨difference.number, by rw [rank, difference.rank_eq, value, place, width]⟩

/-- What a beam admits depends on its best number and on its width alone: the better the one
and the smaller the other, the less. -/
theorem Bounded.sub_le_sub {w' : Float} (hx : Bounded x) (hy : Bounded y) (hw' : 0.0 ≤ w')
    (hw : 0.0 ≤ w) (h : x ≤ y) (narrower : w' ≤ w) : x - w ≤ y - w' := by
  obtain ⟨left, lowest⟩ := hx.sub_spec hw
  obtain ⟨right, highest⟩ := hy.sub_spec hw'
  rw [hx.le_iff hy] at h
  rw [le_iff_rank (numbers_of_le hw').2 (numbers_of_le hw).2] at narrower
  rw [le_iff_rank left right, lowest, highest]
  exact lowered_mono h narrower

theorem Bounded.sub_le (hx : Bounded x) (hw : 0.0 ≤ w) : x - w ≤ x := by
  obtain ⟨number, value⟩ := hx.sub_spec hw
  obtain ⟨s, m, hm, place⟩ := exists_magnitude hx.number
  rw [le_iff_rank number hx.number, value, place, lowered_eq_summed]
  exact hm.summed_le (Int.neg_nonpos_of_nonneg (rank_nonneg hw))

theorem numbers_le_refl (h : x.isNaN = false) : x ≤ x := (le_iff_rank h h).mpr (Int.le_refl _)

theorem le_refl (h : x ≤ y) : x ≤ x := numbers_le_refl (numbers_of_le h).1

theorem numbers_le_trans (h : x ≤ y) (h' : y ≤ z) : x ≤ z := by
  obtain ⟨hx, hy⟩ := numbers_of_le h
  have hz := (numbers_of_le h').2
  rw [le_iff_rank hx hy] at h
  rw [le_iff_rank hy hz] at h'
  exact (le_iff_rank hx hz).mpr (Int.le_trans h h')

theorem numbers_lt_of_le_of_lt (h : x ≤ y) (h' : y < z) : x < z := by
  obtain ⟨hx, hy⟩ := numbers_of_le h
  have hz := (numbers_of_lt h').2
  rw [le_iff_rank hx hy] at h
  rw [lt_iff_rank hy hz] at h'
  exact (lt_iff_rank hx hz).mpr (Int.lt_of_le_of_lt h h')

theorem numbers_lt_of_lt_of_le (h : x < y) (h' : y ≤ z) : x < z := by
  obtain ⟨hx, hy⟩ := numbers_of_lt h
  have hz := (numbers_of_le h').2
  rw [lt_iff_rank hx hy] at h
  rw [le_iff_rank hy hz] at h'
  exact (lt_iff_rank hx hz).mpr (Int.lt_of_lt_of_le h h')

theorem not_le_iff_lt (hx : x.isNaN = false) (hy : y.isNaN = false) : ¬x ≤ y ↔ y < x := by
  rw [le_iff_rank hx hy, lt_iff_rank hy hx]
  exact Int.not_le

theorem le_of_lt (h : x < y) : x ≤ y := by
  obtain ⟨hx, hy⟩ := numbers_of_lt h
  rw [lt_iff_rank hx hy] at h
  exact (le_iff_rank hx hy).mpr (Int.le_of_lt h)

theorem beq_iff_rank (hx : x.isNaN = false) (hy : y.isNaN = false) :
    (x == y) = true ↔ rank x = rank y := by
  obtain ⟨_, _, hx, left⟩ := exists_magnitude hx
  obtain ⟨_, _, hy, right⟩ := exists_magnitude hy
  rw [beq_iff_unpack, UnpackedFloat.beq, hx.compare_signed hy, left, right, beq_iff_eq,
    Option.some.injEq, Int.compare_eq_eq]

theorem le_of_beq (h : (x == y) = true) : x ≤ y := by
  rw [beq_iff_unpack, UnpackedFloat.beq, beq_iff_eq] at h
  rw [le_iff_unpack, UnpackedFloat.le, h]
  rfl

theorem beq_iff_le : (x == y) = true ↔ x ≤ y ∧ y ≤ x := by
  constructor
  · intro h
    have le := le_of_beq h
    obtain ⟨hx, hy⟩ := numbers_of_le le
    exact ⟨le, (le_iff_rank hy hx).mpr (Int.le_of_eq ((beq_iff_rank hx hy).mp h).symm)⟩
  · rintro ⟨h, h'⟩
    obtain ⟨hx, hy⟩ := numbers_of_le h
    rw [le_iff_rank hx hy] at h
    rw [le_iff_rank hy hx] at h'
    exact (beq_iff_rank hx hy).mpr (Int.le_antisymm h h')

end HeadDriven.LogProb
