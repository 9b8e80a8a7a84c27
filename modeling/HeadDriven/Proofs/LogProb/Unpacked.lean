import HeadDriven.Proofs.LogProb.Rounding
import Mathlib

/-! Rounding of unpacked numbers. Every number is a mantissa times a power of two of
which the least unit is `2 ^ (-1074)`. A mantissa is rounded by shifting it to the right
and looking at the bits that were shifted out; the outcome is the number of units,
rounded to 53 bits. -/
namespace HeadDriven.LogProb

open Float.Model Float.Model.UnpackedFloat

/-- A mantissa after a shift to the right by `k`; its two marks tell how the lost bits compare
with half a unit. -/
structure Shifted (em : ExtendedMantissa) (n k : Nat) : Prop where
  mantissa : em.mantissa = n / 2 ^ k
  round : em.roundBit = true ↔ 2 ^ k ≤ 2 * (n % 2 ^ k)
  sticky : em.stickyBit = true ↔ n % 2 ^ k ≠ 0 ∧ 2 * (n % 2 ^ k) ≠ 2 ^ k

variable {em : ExtendedMantissa} {m n k a : Nat} {s : Sign}

theorem Shifted.one (h : Shifted em n k) : Shifted em.shiftRightOne n (k + 1) := by
  have hpow : 2 ^ (k + 1) = 2 * 2 ^ k := by rw [Nat.pow_succ, Nat.mul_comm]
  have hmod : n % (2 * 2 ^ k) = n % 2 ^ k + 2 ^ k * (n / 2 ^ k % 2) := hpow ▸ Nat.mod_pow_succ
  have hlt : n % 2 ^ k < 2 ^ k := Nat.mod_lt _ (Nat.two_pow_pos k)
  have hbit := Nat.mod_two_eq_zero_or_one (n / 2 ^ k)
  refine ⟨?_, ?_, ?_⟩
  · rw [ExtendedMantissa.shiftRightOne, h.mantissa, Nat.div_div_eq_div_mul, Nat.pow_succ]
  · simp only [ExtendedMantissa.shiftRightOne, h.mantissa, bne_iff_ne, hpow, hmod]
    rcases hbit with hbit | hbit <;> rw [hbit] <;> omega
  · simp only [ExtendedMantissa.shiftRightOne, Bool.or_eq_true, h.round, h.sticky, hpow, hmod]
    rcases hbit with hbit | hbit <;> rw [hbit] <;> omega

theorem shifted_shiftRight (n k : Nat) :
    Shifted ((⟨n, false, false⟩ : ExtendedMantissa) >>> k) n k := by
  show Shifted (k.repeat ExtendedMantissa.shiftRightOne _) n k
  induction k with
  | zero =>
    refine ⟨by simp [Nat.repeat], ?_, ?_⟩ <;>
      simp [Nat.repeat, Nat.mod_one]
  | succ k ih => exact ih.one

theorem Shifted.roundedMantissa (h : Shifted em n k) :
    em.roundedMantissa = nearestEven n k := by
  obtain ⟨mantissa, round, sticky⟩ := em
  obtain ⟨hm, hr, hs⟩ := h
  have hpos := Nat.two_pow_pos k
  simp only at hm hr hs
  subst hm
  unfold nearestEven
  cases round <;> cases sticky <;>
    simp only [reduceCtorEq, false_iff, true_iff] at hr hs <;>
    simp only [ExtendedMantissa.roundedMantissa, ExtendedMantissa.accuracy,
      Accuracy.roundToNearestEven] <;>
    split_ifs <;> omega

/-- The exponent at which a number of units is written, counted from the least one. -/
def target (m a : Nat) : Nat := m.log2 + a - 52

theorem targetExponent_eq (m a : Nat) :
    Format.binary64.targetExponent (totalExponent m ((a : Int) - 1074)) =
      (target m a : Int) - 1074 := by
  have least : Format.binary64.minExponent = -1074 := by decide
  have bits : Format.binary64.mantissaBits = 53 := by decide
  rw [Format.targetExponent, totalExponent, least, bits, target]
  omega

theorem shiftToTargetExponent_eq (m a : Nat) :
    shiftToTargetExponent Format.binary64 m ((a : Int) - 1074) .exact =
      ((⟨m, false, false⟩ : ExtendedMantissa) >>> (target m a - a),
        ((max a (target m a) : Nat) : Int) - 1074) := by
  rw [shiftToTargetExponent, targetExponent_eq, shiftToExponent]
  have amount : ((target m a : Int) - 1074 - ((a : Int) - 1074)).toNat = target m a - a := by omega
  simp only [amount, ExtendedMantissa.ofMantissaAndAccuracy, Prod.mk.injEq, true_and]
  omega

/-- A number as it is stored: all 53 bits are used, or it is written in least units. -/
def Fits (m a : Nat) : Prop := m < 2 ^ 53 ∧ (2 ^ 52 ≤ m ∨ a = 0)

theorem Fits.target_eq (h : Fits m a) : target m a = a := by
  obtain ⟨hlt, hbits⟩ := h
  rcases Nat.eq_zero_or_pos m with rfl | hpos
  · have : a = 0 := by omega
    subst this
    decide
  · have upper := (Nat.log2_lt hpos.ne').mpr hlt
    unfold target
    rcases hbits with hge | rfl
    · have lower := (Nat.le_log2 hpos.ne').mpr hge
      omega
    · omega

theorem shiftToTargetExponent_of_fits (h : Fits m a) :
    shiftToTargetExponent Format.binary64 m ((a : Int) - 1074) .exact =
      (⟨m, false, false⟩, (a : Int) - 1074) := by
  rw [shiftToTargetExponent_eq, h.target_eq, Nat.sub_self, Nat.max_self]
  rfl

/-- A mantissa that came out of rounding: it fits, or it has just overflown. -/
theorem roundWithAccuracy_eq {r b : Nat} (hpos : 0 < r)
    (first : (shiftToTargetExponent Format.binary64 m ((a : Int) - 1074) .exact).1.roundedMantissa
      = r)
    (exponent : (shiftToTargetExponent Format.binary64 m ((a : Int) - 1074) .exact).2 =
      (b : Int) - 1074)
    (fits : Fits r b ∨ r = 2 ^ 53) :
    ∃ (m' a' : Nat) (h : 0 < m'),
      roundWithAccuracy Format.binary64 s m ((a : Int) - 1074) .exact =
        .finite s m' ((a' : Int) - 1074) h ∧ Fits m' a' ∧ m' * 2 ^ a' = r * 2 ^ b := by
  rw [roundWithAccuracy]
  rcases fits with fits | rfl
  · simp only [first, exponent, shiftToTargetExponent_of_fits fits, dif_neg hpos.ne']
    exact ⟨r, b, hpos, rfl, fits, rfl⟩
  · have hb : target (2 ^ 53) b = b + 1 := by
      rw [target, Nat.log2_two_pow]
      omega
    have second : shiftToTargetExponent Format.binary64 (2 ^ 53) ((b : Int) - 1074) .exact =
        (⟨2 ^ 52, false, false⟩, ((b + 1 : Nat) : Int) - 1074) := by
      rw [shiftToTargetExponent_eq, hb, Nat.add_sub_cancel_left, Nat.max_eq_right (Nat.le_succ b)]
      rfl
    simp only [first, exponent, second]
    refine ⟨2 ^ 52, b + 1, by decide, rfl, ⟨by decide, Or.inl (Nat.le_refl _)⟩, ?_⟩
    rw [Nat.pow_succ]
    ring

theorem target_le (hpos : 0 < m) (short : m < 2 ^ 53) (a : Nat) : target m a ≤ a := by
  have hlog := (Nat.log2_lt hpos.ne').mpr short
  unfold target
  omega

theorem target_eq_excess (long : 2 ^ 53 ≤ m) (a : Nat) : target m a = excess m + a := by
  have hne : m ≠ 0 := by omega
  have hlog : 53 ≤ m.log2 := (Nat.le_log2 hne).mpr long
  unfold target excess
  omega

theorem fits_shiftLeft (hpos : 0 < m) (short : m < 2 ^ 53) (a : Nat) :
    Fits (m * 2 ^ (a - target m a)) (target m a) := by
  have hlog := (Nat.log2_lt hpos.ne').mpr short
  have hshift := log2_mul_two_pow hpos.ne' (a - target m a)
  have hne : m * 2 ^ (a - target m a) ≠ 0 := Nat.mul_ne_zero hpos.ne' (Nat.two_pow_pos _).ne'
  refine ⟨(Nat.log2_lt hne).mp ?_, ?_⟩
  · rw [hshift]
    unfold target
    omega
  · rw [← Nat.le_log2 hne, hshift]
    unfold target
    omega

/-- Before it is rounded a mantissa is shifted to the left, if it is short. -/
theorem round_eq_roundWithAccuracy (m a : Nat) :
    UnpackedFloat.round Format.binary64 s m ((a : Int) - 1074) =
      roundWithAccuracy Format.binary64 s (m * 2 ^ (a - target m a))
        (((min a (target m a) : Nat) : Int) - 1074) .exact := by
  have amount : ((a : Int) - 1074 - ((target m a : Int) - 1074)).toNat = a - target m a := by omega
  have exponent : (a : Int) - 1074 - ((a - target m a : Nat) : Int) =
      ((min a (target m a) : Nat) : Int) - 1074 := by omega
  simp only [UnpackedFloat.round, targetExponent_eq, decreaseExponent, Nat.shiftLeft_eq, amount,
    exponent]

/-- Rounding a number rounds its number of units. -/
theorem round_eq (hpos : 0 < m) (a : Nat) :
    ∃ (m' a' : Nat) (h : 0 < m'), UnpackedFloat.round Format.binary64 s m ((a : Int) - 1074) =
        .finite s m' ((a' : Int) - 1074) h ∧ Fits m' a' ∧ m' * 2 ^ a' = rounded (m * 2 ^ a) := by
  rw [round_eq_roundWithAccuracy]
  rcases Nat.lt_or_ge m (2 ^ 53) with short | long
  · have hle := target_le hpos short a
    have fits := fits_shiftLeft hpos short a
    rw [Nat.min_eq_right hle]
    obtain ⟨m', a', h, hround, hfits, value⟩ := roundWithAccuracy_eq (s := s)
      (Nat.mul_pos hpos (Nat.two_pow_pos (a - target m a)))
      (by rw [shiftToTargetExponent_of_fits fits]; rfl)
      (by rw [shiftToTargetExponent_of_fits fits]) (Or.inl fits)
    refine ⟨m', a', h, hround, hfits, ?_⟩
    rw [value, Nat.mul_assoc, ← Nat.pow_add, Nat.sub_add_cancel hle, rounded_of_bits short]
  · have htarget := target_eq_excess long a
    obtain ⟨lower, upper⟩ := nearestEven_bounds long
    have none : a - (excess m + a) = 0 := by omega
    rw [htarget, Nat.min_eq_left (Nat.le_add_left a (excess m)), none, Nat.pow_zero, Nat.mul_one]
    obtain ⟨m', a', h, hround, hfits, value⟩ := roundWithAccuracy_eq (s := s) (m := m) (a := a)
      (r := nearestEven m (excess m)) (b := excess m + a) (Nat.lt_of_lt_of_le (by decide) lower)
      (by
        rw [shiftToTargetExponent_eq, htarget, Nat.add_sub_cancel]
        exact (shifted_shiftRight m (excess m)).roundedMantissa)
      (by rw [shiftToTargetExponent_eq, htarget, Nat.max_eq_right (Nat.le_add_left _ _)])
      ((Nat.lt_or_eq_of_le upper).imp_left fun within => ⟨within, Or.inl lower⟩)
    refine ⟨m', a', h, hround, hfits, ?_⟩
    rw [value, rounded_mul_two_pow, rounded, Nat.mul_assoc, ← Nat.pow_add]

end HeadDriven.LogProb
