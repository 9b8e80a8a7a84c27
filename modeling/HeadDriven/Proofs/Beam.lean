import HeadDriven.Proofs.LogProb.Sign
import HeadDriven.Settings.Reader
import HeadDriven.Proofs.Outcome

/-! The beam of settings that were read. Their prune factor is not negative, and a product of
such a number with a positive finite one is not negative either, however it is rounded; so
the width of the beam is not negative. -/
namespace HeadDriven

namespace Settings

structure Valid (s : Settings) : Prop where
  pruneFactor : 0.0 ≤ s.pruneFactor
  maxCellSize : 1 ≤ s.maxCellSize

variable {s t : Settings}

theorem validate_eq_ok : s.validate = .ok t ↔ s.Valid ∧ s = t := by
  by_cases prune : 0.0 ≤ s.pruneFactor
  · by_cases size : s.maxCellSize = 0
    · have invalid : ¬s.Valid := fun h => absurd size (Nat.one_le_iff_ne_zero.mp h.maxCellSize)
      simp [validate, prune, size, invalid]
    · have valid : s.Valid := ⟨prune, Nat.one_le_iff_ne_zero.mpr size⟩
      simp [validate, prune, size, valid]
  · have invalid : ¬s.Valid := fun h => prune h.pruneFactor
    simp [validate, prune, invalid]

theorem valid_of_ofText {text : String} (h : ofText text = .ok s) : s.Valid := by
  obtain ⟨_, -, h⟩ := Outcome.bind_eq_ok.mp h
  obtain ⟨valid, rfl⟩ := validate_eq_ok.mp h
  exact valid

theorem Valid.beamWidth (h : s.Valid) : 0.0 ≤ s.beamWidth :=
  LogProb.mul_nonneg h.pruneFactor (by decide +kernel) (by decide +kernel)

end Settings

end HeadDriven
