import HeadDriven.Decimal.Reading
import HeadDriven.Proofs.LogProb.Rank

/-! Signs. Products and quotients of numbers that are not negative are not negative, however they
are rounded, and nor is the double nearest to digits with a power of ten. So the double that is
read from a number as written is never undefined, and its minus decides whether it may be
positive. -/
namespace HeadDriven.LogProb

open Float.Model Float.Model.UnpackedFloat

variable {m n : Nat} {u v : UnpackedFloat} {s : Sign} {x y : Float}

theorem exists_magnitude_stored {e : Int} (h : 0 < m) :
    ∃ n, Magnitude s (stored (.finite s m e h)) n := by
  rw [stored, UnpackedFloat.pack]
  dsimp only
  split
  · exact ⟨bound, by cases s <;> exact .infinity⟩
  · rename_i inside
    split
    · exact ⟨_, magnitude_components fun largest => absurd largest (ofNat_ne_largest (by omega))⟩
    · exact ⟨_, magnitude_components fun largest => absurd largest (by decide)⟩

theorem exists_magnitude_round (s : Sign) (m : Nat) (e : Int) (accuracy : Accuracy) :
    ∃ n, Magnitude s (stored (roundWithAccuracy Format.binary64 s m e accuracy)) n := by
  rw [roundWithAccuracy]
  dsimp only
  split
  · exact ⟨0, Magnitude.stored (.zero s)⟩
  · exact exists_magnitude_stored _

theorem Magnitude.nonneg (h : Magnitude .positive x.toModel.unpack n) : 0.0 ≤ x := by
  rw [le_iff_rank isNaN_zero h.number, rank_zero, rank, h.rank_eq]
  exact Int.natCast_nonneg n

theorem exists_finite (hy : 0.0 < y) (finite : Bounded y) :
    ∃ m e h, y.toModel.unpack = .finite .positive m e h := by
  obtain ⟨n, hn, value⟩ := magnitude_width (le_of_lt hy)
  have above : 0 < rank y := by
    have := (lt_iff_rank (numbers_of_lt hy).1 (numbers_of_lt hy).2).mp hy
    rwa [rank_zero] at this
  have below := rank_lt_bound finite
  rw [value] at above below
  generalize y.toModel.unpack = v at hn
  cases hn with
  | zero => exact absurd above (Int.lt_irrefl 0)
  | infinity => exact absurd below (Int.lt_irrefl _)
  | finite h => exact ⟨_, _, h, rfl⟩

theorem mul_nonneg (hx : 0.0 ≤ x) (hy : 0.0 < y) (finite : Bounded y) : 0.0 ≤ x * y := by
  obtain ⟨m, hm, -⟩ := magnitude_width hx
  obtain ⟨n, e, h, hn⟩ := exists_finite hy finite
  suffices product : ∃ k, Magnitude .positive
      (stored (UnpackedFloat.mul Format.binary64 x.toModel.unpack y.toModel.unpack)) k from
    product.elim fun _ h => Magnitude.nonneg (x := x * y) h
  rw [hn]
  generalize x.toModel.unpack = u at hm
  cases hm with
  | zero sign => exact ⟨0, Magnitude.stored (.zero _)⟩
  | finite => exact exists_magnitude_round _ _ _ _
  | infinity => exact ⟨bound, Magnitude.infinity.stored⟩

theorem div_nonneg (hx : 0.0 ≤ x) (hy : 0.0 < y) (finite : Bounded y) : 0.0 ≤ x / y := by
  obtain ⟨m, hm, -⟩ := magnitude_width hx
  obtain ⟨n, e, h, hn⟩ := exists_finite hy finite
  suffices quotient : ∃ k, Magnitude .positive
      (stored (UnpackedFloat.div Format.binary64 x.toModel.unpack y.toModel.unpack)) k from
    quotient.elim fun _ h => Magnitude.nonneg (x := x / y) h
  rw [hn]
  generalize x.toModel.unpack = u at hm
  cases hm with
  | zero sign => exact ⟨0, Magnitude.stored (.zero _)⟩
  | finite => exact exists_magnitude_round _ _ _ _
  | infinity => exact ⟨bound, Magnitude.infinity.stored⟩

theorem toFloat_nonneg (n : UInt64) : 0.0 ≤ n.toFloat := by
  suffices whole : ∃ k, Magnitude .positive
      (stored (UnpackedFloat.normalize Format.binary64 n.toNat 0 .positive)) k from
    whole.elim fun _ h => Magnitude.nonneg (x := n.toFloat) h
  unfold UnpackedFloat.normalize
  split
  · rename_i negative
    rw [Int.compare_eq_lt] at negative
    omega
  · exact ⟨0, Magnitude.stored (.zero _)⟩
  · exact exists_magnitude_round _ _ _ _

theorem ofScientific_nonneg (m : Nat) (negative : Bool) (e : Nat) :
    0.0 ≤ Float.ofScientific m negative e := by
  unfold Float.ofScientific
  split
  · rename_i small
    have powers : ∀ e (h : e < Float.exactlyRepresentablePowersOfTen.size),
        0.0 < Float.exactlyRepresentablePowersOfTen[e] ∧
          Bounded Float.exactlyRepresentablePowersOfTen[e] := by
      decide +kernel
    obtain ⟨positive, finite⟩ := powers e (Nat.lt_of_le_of_lt small.2 (by decide))
    dsimp only
    split
    · exact div_nonneg (toFloat_nonneg _) positive finite
    · exact mul_nonneg (toFloat_nonneg _) positive finite
  · generalize (if negative then Int.negOfNat e else Int.ofNat e) = e
    suffices scaled : ∃ k, Magnitude .positive
        (stored (UnpackedFloat.ofScientific Format.binary64 m e)) k from
      scaled.elim fun _ h => Magnitude.nonneg (x := .ofModel (Float.Model.ofScientific m e)) h
    unfold UnpackedFloat.ofScientific
    split
    · exact ⟨0, Magnitude.stored (.zero _)⟩
    · split
      · exact ⟨bound, Magnitude.infinity.stored⟩
      · split
        · exact ⟨0, Magnitude.stored (.zero _)⟩
        · split
          · exact exists_magnitude_round _ _ _ _
          · exact exists_magnitude_round _ _ _ _

theorem nearest_nonneg (significand : Nat) (exponent : Int) :
    0.0 ≤ Decimal.nearest significand exponent := by
  have zero : (0.0 : Float) ≤ 0.0 := numbers_le_refl isNaN_zero
  unfold Decimal.nearest
  dsimp only
  split
  · exact zero
  · split
    · exact le_of_lt zero_lt_infinite
    · split
      · exact zero
      · exact ofScientific_nonneg _ _ _

theorem number_neg (h : x.isNaN = false) : (-x).isNaN = false := by
  obtain ⟨s, n, hx, -⟩ := exists_magnitude h
  have negative : Magnitude (-s) (-x).toModel.unpack n := hx.neg.stored
  exact negative.number

end HeadDriven.LogProb
