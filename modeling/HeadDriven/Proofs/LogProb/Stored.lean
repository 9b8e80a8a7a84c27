import HeadDriven.Proofs.LogProb.Distance

/-! Stored numbers. What is packed into bits reads back as it was, unless it is out of range and
reads back as infinite; every pattern of bits reads as a number, or as none. -/
namespace HeadDriven.LogProb

open Float.Model Float.Model.UnpackedFloat

variable {m n a b : Nat} {u v : UnpackedFloat} {s : Sign}
  {bits : BitVec Format.binary64.numBits} {exponent : BitVec 11} {mantissa : BitVec 52}

theorem toNat_implicit_append (mantissa : BitVec 52) :
    (1#1 ++ mantissa).toNat = 2 ^ 52 + mantissa.toNat := by
  rw [BitVec.toNat_append, ← Nat.shiftLeft_add_eq_or_of_lt mantissa.isLt]
  rfl

def storedDistance (exponent : BitVec 11) (mantissa : BitVec 52) : Nat :=
  if exponent = -1#11 then bound
  else if exponent = 0#11 then mantissa.toNat
  else (2 ^ 52 + mantissa.toNat) * 2 ^ (exponent.toNat - 1)

theorem magnitude_finite {e : Int} (h : 0 < m) (fits : Fits m a) (range : a ≤ 2045)
    (exponent : e = (a : Int) - 1074) (distance : n = m * 2 ^ a) :
    Magnitude s (.finite s m e h) n := by
  subst exponent distance
  exact .finite h fits range

theorem magnitude_unpack (signed : Sign.ofBitVec (unpackSign bits) = s)
    (number : unpackExponent bits = -1#11 → unpackMantissa bits = 0#52) :
    Magnitude s (UnpackedFloat.unpack Format.binary64 bits)
      (storedDistance (unpackExponent bits) (unpackMantissa bits)) := by
  have bias : (Format.binary64.exponentBias + Format.binary64.mantissaBitsWithoutImplicit : Int) =
      1075 := by decide
  have hlt : (unpackMantissa bits).toNat < 2 ^ 52 := (unpackMantissa bits).isLt
  have hle : (unpackExponent bits).toNat < 2 ^ 11 := (unpackExponent bits).isLt
  unfold UnpackedFloat.unpack storedDistance
  simp only [signed, bias]
  split
  · rename_i h
    rw [if_pos (number h)]
    exact .infinity
  · rename_i hfinite
    split
    · rename_i hzero
      split
      · rename_i h
        rw [h]
        exact .zero _
      · refine magnitude_finite _ (a := 0) ⟨by omega, Or.inr rfl⟩ (by decide) ?_ (by simp)
        rw [hzero]
        rfl
    · rename_i hnonzero
      have hpos : (unpackExponent bits).toNat ≠ 0 := fun h => hnonzero (BitVec.eq_of_toNat_eq h)
      have hmax : (unpackExponent bits).toNat ≠ 2 ^ 11 - 1 := fun h =>
        hfinite (BitVec.eq_of_toNat_eq (h.trans (by decide)))
      have implicit := toNat_implicit_append (unpackMantissa bits)
      refine magnitude_finite _ (a := (unpackExponent bits).toNat - 1) ⟨?_, Or.inl ?_⟩ ?_ ?_ ?_
      · omega
      · omega
      · omega
      · omega
      · rw [implicit]

def stored (u : UnpackedFloat) : UnpackedFloat :=
  UnpackedFloat.unpack Format.binary64 (UnpackedFloat.pack Format.binary64 u)

theorem magnitude_components (number : exponent = -1#11 → mantissa = 0#52) :
    Magnitude s (UnpackedFloat.unpack Format.binary64
      (packComponents Format.binary64 s exponent mantissa)) (storedDistance exponent mantissa) := by
  have signed : Sign.ofBitVec (unpackSign (packComponents Format.binary64 s exponent mantissa)) =
      s := by
    rw [unpackSign_packComponents]
    cases s <;> rfl
  have := magnitude_unpack signed
    (by simpa only [unpackExponent_packComponents, unpackMantissa_packComponents] using number)
  rwa [unpackExponent_packComponents, unpackMantissa_packComponents] at this

theorem ofNat_ne_largest (range : n < 2047) : BitVec.ofNat 11 n ≠ -1#11 := by
  intro largest
  have value := congrArg BitVec.toNat largest
  rw [BitVec.toNat_ofNat, Nat.mod_eq_of_lt (by omega), show (-1#11).toNat = 2047 by decide] at value
  omega

theorem storedDistance_normal (least : 2 ^ 52 ≤ m) (fits : m < 2 ^ 53) (range : a ≤ 2045) :
    storedDistance (BitVec.ofNat 11 (a + 1)) (BitVec.ofNat 52 m) = m * 2 ^ a := by
  have exponent : (BitVec.ofNat 11 (a + 1)).toNat = a + 1 := by
    rw [BitVec.toNat_ofNat, Nat.mod_eq_of_lt (by omega)]
  have hzero : BitVec.ofNat 11 (a + 1) ≠ 0#11 := fun heq => by
    have value := congrArg BitVec.toNat heq
    rw [exponent] at value
    exact absurd value (Nat.succ_ne_zero a)
  rw [storedDistance, if_neg (ofNat_ne_largest (by omega)), if_neg hzero, exponent,
    BitVec.toNat_ofNat, Nat.add_sub_cancel]
  congr 1
  omega

theorem storedDistance_subnormal (fits : m < 2 ^ 52) :
    storedDistance 0#11 (BitVec.ofNat 52 m) = m := by
  rw [storedDistance, if_neg (by decide), if_pos rfl, BitVec.toNat_ofNat, Nat.mod_eq_of_lt fits]

theorem magnitude_stored_finite (h : 0 < m) (fits : Fits m a) :
    Magnitude s (stored (.finite s m ((a : Int) - 1074) h)) (min (m * 2 ^ a) bound) := by
  have biased : ((a : Int) - 1074 + Format.binary64.exponentBias +
      Format.binary64.mantissaBitsWithoutImplicit).toNat = a + 1 := by
    have bias : Format.binary64.exponentBias = 1023 := by decide
    have places : Format.binary64.mantissaBitsWithoutImplicit = 52 := rfl
    rw [bias, places]
    omega
  have width : Format.binary64.mantissaBits = 53 := by decide
  have hlog := (Nat.log2_lt h.ne').mpr fits.1
  rw [stored, UnpackedFloat.pack]
  simp only [biased, width]
  split
  · rename_i hout
    rw [Nat.min_eq_right (fits.bound_le (by omega))]
    cases s <;> exact .infinity
  · rename_i hin
    have range : a ≤ 2045 := by omega
    rw [Nat.min_eq_left (Nat.le_of_lt (fits.lt_bound range))]
    split
    · rename_i hbits
      have least : 2 ^ 52 ≤ m := (Nat.le_log2 h.ne').mp (by omega)
      rw [← storedDistance_normal least fits.1 range]
      exact magnitude_components fun heq => absurd heq (ofNat_ne_largest (by omega))
    · rename_i hbits
      have small : m < 2 ^ 52 := (Nat.log2_lt h.ne').mp (by omega)
      obtain rfl : a = 0 := fits.2.resolve_left (by omega)
      have distance : storedDistance 0#11 (BitVec.ofNat 52 m) = m * 2 ^ 0 := by
        rw [storedDistance_subnormal small, Nat.pow_zero, Nat.mul_one]
      rw [← distance]
      exact magnitude_components fun heq => absurd heq (by decide)

theorem Magnitude.stored (h : Magnitude s u n) : Magnitude s (stored u) n := by
  cases h with
  | zero sign =>
    have same : LogProb.stored (.zero sign) = .zero sign := by cases sign <;> rfl
    rw [same]
    exact .zero sign
  | finite h fits range =>
    have := magnitude_stored_finite (s := s) h fits
    rwa [Nat.min_eq_left (Nat.le_of_lt (fits.lt_bound range))] at this
  | infinity =>
    have same : LogProb.stored (.infinity s) = .infinity s := by cases s <;> rfl
    rw [same]
    exact .infinity

theorem Magnitude.min_rounded (h : Magnitude s u n) : min (rounded n) bound = n := by
  rw [h.rounded_eq, Nat.min_eq_left h.le_bound]

theorem decreaseExponent_eq (m : Nat) (h : b ≤ a) :
    decreaseExponent m ((a : Int) - 1074) ((b : Int) - 1074) =
      (m * 2 ^ (a - b), (b : Int) - 1074) := by
  have amount : ((a : Int) - 1074 - ((b : Int) - 1074)).toNat = a - b := by omega
  simp only [decreaseExponent, amount, Nat.shiftLeft_eq, Prod.mk.injEq, true_and]
  omega

end HeadDriven.LogProb
