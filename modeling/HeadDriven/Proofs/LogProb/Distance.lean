import HeadDriven.Proofs.LogProb.Unpacked

/-! How far a number lies from zero, in units of the least positive number; an infinite one
lies as far away as the least power of two that is out of range. Numbers compare as their
distances do, taken with their signs. -/
namespace HeadDriven.LogProb

open Float.Model Float.Model.UnpackedFloat

def outOfRange : Nat := 2098

def bound : Nat := 2 ^ outOfRange

/-- Zero and the numbers of one sign, each with its distance from zero. -/
inductive Magnitude (s : Sign) : UnpackedFloat → Nat → Prop where
  | zero (sign : Sign) : Magnitude s (.zero sign) 0
  | finite {m a : Nat} (h : 0 < m) (fits : Fits m a) (range : a ≤ 2045) :
      Magnitude s (.finite s m ((a : Int) - 1074) h) (m * 2 ^ a)
  | infinity : Magnitude s (.infinity s) bound

variable {m n a b : Nat} {u v : UnpackedFloat} {s t sign : Sign}

theorem Fits.lt_bound (h : Fits m a) (range : a ≤ 2045) : m * 2 ^ a < bound := by
  have least : 2 ^ (53 + a) ≤ bound := by
    refine Nat.pow_le_pow_right (by decide) ?_
    unfold outOfRange
    omega
  calc
    m * 2 ^ a < 2 ^ 53 * 2 ^ a := Nat.mul_lt_mul_of_pos_right h.1 (Nat.two_pow_pos a)
    _ = 2 ^ (53 + a) := (Nat.pow_add 2 53 a).symm
    _ ≤ bound := least

theorem Fits.bound_le (h : Fits m a) (range : 2046 ≤ a) : bound ≤ m * 2 ^ a := by
  have bits : 2 ^ 52 ≤ m := h.2.resolve_right (by omega)
  have least : bound ≤ 2 ^ (52 + a) := by
    refine Nat.pow_le_pow_right (by decide) ?_
    unfold outOfRange
    omega
  calc
    bound ≤ 2 ^ (52 + a) := least
    _ = 2 ^ 52 * 2 ^ a := Nat.pow_add 2 52 a
    _ ≤ m * 2 ^ a := Nat.mul_le_mul_right _ bits

theorem Fits.lt_of_lt (hm : Fits m a) (hn : Fits n b) (h : a < b) : m * 2 ^ a < n * 2 ^ b := by
  have bits : 2 ^ 52 ≤ n := hn.2.resolve_right (by omega)
  calc
    m * 2 ^ a < 2 ^ 53 * 2 ^ a := Nat.mul_lt_mul_of_pos_right hm.1 (Nat.two_pow_pos a)
    _ = 2 ^ 52 * 2 ^ (a + 1) := by rw [Nat.pow_succ 2 a]; ring
    _ ≤ 2 ^ 52 * 2 ^ b := Nat.mul_le_mul_left _ (Nat.pow_le_pow_right (by decide) h)
    _ ≤ n * 2 ^ b := Nat.mul_le_mul_right _ bits

theorem Fits.compare_eq (hm : Fits m a) (hn : Fits n b) :
    compare (m * 2 ^ a) (n * 2 ^ b) = (compare a b).then (compare m n) := by
  rcases Nat.lt_trichotomy a b with h | rfl | h
  · rw [Nat.compare_eq_lt.mpr (hm.lt_of_lt hn h), Nat.compare_eq_lt.mpr h]
    rfl
  · have same : compare (m * 2 ^ a) (n * 2 ^ a) = compare m n := by
      simp only [Nat.compare_eq_ite_lt, Nat.mul_lt_mul_right (Nat.two_pow_pos a)]
    rw [same, Nat.compare_eq_eq.mpr rfl]
    rfl
  · rw [Nat.compare_eq_gt.mpr (hn.lt_of_lt hm h), Nat.compare_eq_gt.mpr h]
    rfl

theorem Magnitude.le_bound (h : Magnitude s u n) : n ≤ bound := by
  cases h with
  | zero => exact Nat.zero_le _
  | finite _ fits range => exact Nat.le_of_lt (fits.lt_bound range)
  | infinity => exact Nat.le_refl _

theorem rounded_bound : rounded bound = bound := by
  have := rounded_of_bits (m := 1) (by decide) outOfRange
  rwa [Nat.one_mul] at this

theorem Magnitude.rounded_eq (h : Magnitude s u n) : rounded n = n := by
  cases h with
  | zero => exact rounded_of_lt (by decide)
  | finite _ fits => exact rounded_of_bits fits.1 _
  | infinity => exact rounded_bound

theorem compare_natCast (m n : Nat) : compare (m : Int) (n : Int) = compare m n := by
  simp only [Int.compare_eq_ite_lt, Nat.compare_eq_ite_lt, Int.ofNat_lt]

theorem compare_neg (x y : Int) : compare (-x) (-y) = compare y x := by
  simp only [Int.compare_eq_ite_lt, Int.neg_lt_neg_iff]

theorem apply_zero (s : Sign) : s.apply 0 = 0 := by cases s <;> rfl

theorem compare_zero_apply (hn : 0 < n) :
    compare 0 (t.apply n) = match t with
      | .positive => .lt
      | .negative => .gt := by
  cases t with
  | positive => exact Int.compare_eq_lt.mpr (Int.natCast_pos.mpr hn)
  | negative => exact Int.compare_eq_gt.mpr (Int.neg_neg_of_pos (Int.natCast_pos.mpr hn))

theorem compare_apply_zero (hm : 0 < m) :
    compare (s.apply m) 0 = match s with
      | .positive => .gt
      | .negative => .lt := by
  cases s with
  | positive => exact Int.compare_eq_gt.mpr (Int.natCast_pos.mpr hm)
  | negative => exact Int.compare_eq_lt.mpr (Int.neg_neg_of_pos (Int.natCast_pos.mpr hm))

/-- Signs come first. Below zero distances count the other way round. -/
theorem compare_apply (hm : 0 < m) (hn : 0 < n) :
    compare (s.apply m) (t.apply n) = match s, t with
      | .positive, .positive => compare m n
      | .negative, .negative => compare n m
      | .positive, .negative => .gt
      | .negative, .positive => .lt := by
  cases s <;> cases t
  · exact (compare_neg m n).trans (compare_natCast n m)
  · exact Int.compare_eq_lt.mpr (show -(m : Int) < n by omega)
  · exact Int.compare_eq_gt.mpr (show -(n : Int) < m by omega)
  · exact compare_natCast m n

theorem compare_finite {h : 0 < m} {h' : 0 < n} (fits : Fits m a) (fits' : Fits n b) :
    UnpackedFloat.compare (.finite s m ((a : Int) - 1074) h) (.finite t n ((b : Int) - 1074) h') =
      some (compare (s.apply (m * 2 ^ a : Nat)) (t.apply (n * 2 ^ b : Nat))) := by
  have exponents : compare ((a : Int) - 1074) ((b : Int) - 1074) = compare a b := by
    simp only [Int.compare_eq_ite_lt, Nat.compare_eq_ite_lt]
    congr 1 <;> [skip; congr 1] <;> rw [eq_iff_iff] <;> omega
  have distances := fits.compare_eq fits'
  rw [← exponents] at distances
  rw [compare_apply (Nat.mul_pos h (Nat.two_pow_pos a)) (Nat.mul_pos h' (Nat.two_pow_pos b)),
    ← Nat.compare_swap (m * 2 ^ a), distances]
  cases s <;> cases t <;> rfl

theorem Magnitude.compare_signed (hu : Magnitude s u m) (hv : Magnitude t v n) :
    u.compare v = some (compare (s.apply m) (t.apply n)) := by
  have infinite : 0 < bound := Nat.two_pow_pos outOfRange
  cases hu with
  | zero =>
    rw [Nat.cast_zero, apply_zero]
    cases hv with
    | zero =>
      rw [Nat.cast_zero, apply_zero]
      rfl
    | finite h =>
      rw [compare_zero_apply (Nat.mul_pos h (Nat.two_pow_pos _))]
      cases t <;> rfl
    | infinity =>
      rw [compare_zero_apply infinite]
      cases t <;> rfl
  | @finite m a h fits range =>
    have left := Nat.mul_pos h (Nat.two_pow_pos a)
    cases hv with
    | zero =>
      rw [Nat.cast_zero, apply_zero, compare_apply_zero left]
      cases s <;> rfl
    | finite _ fits' => exact compare_finite fits fits'
    | infinity =>
      have inside := fits.lt_bound range
      rw [compare_apply left infinite, Nat.compare_eq_lt.mpr inside, Nat.compare_eq_gt.mpr inside]
      cases s <;> cases t <;> rfl
  | infinity =>
    cases hv with
    | zero =>
      rw [Nat.cast_zero, apply_zero, compare_apply_zero infinite]
      cases s <;> rfl
    | finite h fits range =>
      have inside := fits.lt_bound range
      rw [compare_apply infinite (Nat.mul_pos h (Nat.two_pow_pos _)),
        Nat.compare_eq_lt.mpr inside, Nat.compare_eq_gt.mpr inside]
      cases s <;> cases t <;> rfl
    | infinity =>
      rw [compare_apply infinite infinite, Nat.compare_eq_eq.mpr rfl]
      cases s <;> cases t <;> rfl

end HeadDriven.LogProb
