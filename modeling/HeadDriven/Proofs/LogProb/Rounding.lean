import Mathlib.Algebra.Order.Ring.Nat
import Mathlib.Tactic.Ring

/-! Rounding of whole numbers to 53 significant bits, to the nearest such number and to
the even one of two that are equally near. Rounding keeps the order of numbers,
commutes with doubling, and leaves those as they are that need no more bits. -/
namespace HeadDriven.LogProb

/-- The number nearest to `n / 2 ^ k`; of two that are equally near the even one. -/
def nearestEven (n k : Nat) : Nat :=
  if 2 * (n % 2 ^ k) < 2 ^ k then n / 2 ^ k
  else if 2 * (n % 2 ^ k) = 2 ^ k then n / 2 ^ k + n / 2 ^ k % 2
  else n / 2 ^ k + 1

def excess (n : Nat) : Nat := n.log2 - 52

def rounded (n : Nat) : Nat := nearestEven n (excess n) * 2 ^ excess n

variable {m n k j : Nat}

theorem nearestEven_mono (h : m ≤ n) (k : Nat) : nearestEven m k ≤ nearestEven n k := by
  have hdiv : m / 2 ^ k ≤ n / 2 ^ k := Nat.div_le_div_right h
  have hm := Nat.div_add_mod m (2 ^ k)
  have hn := Nat.div_add_mod n (2 ^ k)
  unfold nearestEven
  rcases Nat.lt_or_eq_of_le hdiv with hlt | heq
  · split_ifs <;> omega
  · rw [heq] at hm ⊢
    split_ifs <;> omega

theorem nearestEven_mul_two_pow (q k : Nat) : nearestEven (q * 2 ^ k) k = q := by
  have hpos : 0 < 2 ^ k := Nat.two_pow_pos k
  simp [nearestEven, hpos]

theorem nearestEven_scale (n k j : Nat) :
    nearestEven (n * 2 ^ j) (k + j) = nearestEven n k := by
  have hpos : 0 < 2 ^ j := Nat.two_pow_pos j
  have hdiv : n * 2 ^ j / 2 ^ (k + j) = n / 2 ^ k := by
    rw [Nat.pow_add, Nat.mul_div_mul_right _ _ hpos]
  have hmod : n * 2 ^ j % 2 ^ (k + j) = n % 2 ^ k * 2 ^ j := by
    rw [Nat.pow_add, Nat.mul_mod_mul_right]
  have hlt : 2 * (n % 2 ^ k * 2 ^ j) < 2 ^ (k + j) ↔ 2 * (n % 2 ^ k) < 2 ^ k := by
    rw [Nat.pow_add, ← Nat.mul_assoc, Nat.mul_lt_mul_right hpos]
  have heq : 2 * (n % 2 ^ k * 2 ^ j) = 2 ^ (k + j) ↔ 2 * (n % 2 ^ k) = 2 ^ k := by
    rw [Nat.pow_add, ← Nat.mul_assoc, Nat.mul_left_inj hpos.ne']
  simp only [nearestEven, hdiv, hmod, hlt, heq]

theorem excess_of_lt (h : n < 2 ^ 53) : excess n = 0 := by
  rcases Nat.eq_zero_or_pos n with rfl | hpos
  · rfl
  · have := (Nat.log2_lt hpos.ne').mpr h
    unfold excess
    omega

theorem rounded_of_lt (h : n < 2 ^ 53) : rounded n = n := by
  have same := nearestEven_mul_two_pow n 0
  rw [Nat.pow_zero, Nat.mul_one] at same
  rw [rounded, excess_of_lt h, same, Nat.pow_zero, Nat.mul_one]

theorem two_pow_log2 (h : 2 ^ 53 ≤ n) : 2 ^ n.log2 = 2 ^ 52 * 2 ^ excess n := by
  have hne : n ≠ 0 := by omega
  have hlog : 53 ≤ n.log2 := (Nat.le_log2 hne).mpr h
  rw [← Nat.pow_add]
  congr 1
  unfold excess
  omega

/-- A number of more than 53 bits is rounded to 53 bits, or just overflows them. -/
theorem nearestEven_bounds (h : 2 ^ 53 ≤ n) :
    2 ^ 52 ≤ nearestEven n (excess n) ∧ nearestEven n (excess n) ≤ 2 ^ 53 := by
  have hne : n ≠ 0 := by omega
  have split := two_pow_log2 h
  constructor
  · have := nearestEven_mono (Nat.log2_self_le hne) (excess n)
    rwa [split, nearestEven_mul_two_pow] at this
  · have := nearestEven_mono (Nat.le_of_lt (Nat.lt_log2_self (n := n))) (excess n)
    rwa [show 2 ^ (n.log2 + 1) = 2 ^ 53 * 2 ^ excess n by rw [Nat.pow_succ, split]; ring,
      nearestEven_mul_two_pow] at this

theorem rounded_bounds (h : 2 ^ 53 ≤ n) :
    2 ^ n.log2 ≤ rounded n ∧ rounded n ≤ 2 ^ (n.log2 + 1) := by
  obtain ⟨lower, upper⟩ := nearestEven_bounds h
  rw [Nat.pow_succ, two_pow_log2 h, rounded]
  refine ⟨Nat.mul_le_mul_right _ lower, ?_⟩
  calc
    nearestEven n (excess n) * 2 ^ excess n ≤ 2 ^ 53 * 2 ^ excess n :=
      Nat.mul_le_mul_right _ upper
    _ = 2 ^ 52 * 2 ^ excess n * 2 := by ring

theorem log2_mono (h : m ≤ n) (hm : m ≠ 0) : m.log2 ≤ n.log2 :=
  (Nat.le_log2 (by omega)).mpr (Nat.le_trans (Nat.log2_self_le hm) h)

theorem rounded_mono (h : m ≤ n) : rounded m ≤ rounded n := by
  rcases Nat.lt_or_ge m (2 ^ 53) with hm | hm
  · rw [rounded_of_lt hm]
    rcases Nat.lt_or_ge n (2 ^ 53) with hn | hn
    · rwa [rounded_of_lt hn]
    · have hlog : 53 ≤ n.log2 := (Nat.le_log2 (by omega)).mpr hn
      calc
        m ≤ 2 ^ 53 := Nat.le_of_lt hm
        _ ≤ 2 ^ n.log2 := Nat.pow_le_pow_right (by decide) hlog
        _ ≤ rounded n := (rounded_bounds hn).1
  · have hn := Nat.le_trans hm h
    rcases Nat.lt_or_eq_of_le (log2_mono h (by omega)) with hlt | heq
    · calc
        rounded m ≤ 2 ^ (m.log2 + 1) := (rounded_bounds hm).2
        _ ≤ 2 ^ n.log2 := Nat.pow_le_pow_right (by decide) hlt
        _ ≤ rounded n := (rounded_bounds hn).1
    · have same : excess m = excess n := by rw [excess, heq, excess]
      rw [rounded, rounded, same]
      exact Nat.mul_le_mul_right _ (nearestEven_mono h _)

theorem log2_mul_two_pow (hn : n ≠ 0) (j : Nat) : (n * 2 ^ j).log2 = n.log2 + j := by
  have hpos : 0 < 2 ^ j := Nat.two_pow_pos j
  rw [Nat.log2_eq_iff (Nat.mul_ne_zero hn hpos.ne'), Nat.add_right_comm, Nat.pow_add, Nat.pow_add]
  exact ⟨Nat.mul_le_mul_right _ (Nat.log2_self_le hn),
    Nat.mul_lt_mul_of_pos_right Nat.lt_log2_self hpos⟩

theorem rounded_mul_two_pow (n j : Nat) : rounded (n * 2 ^ j) = rounded n * 2 ^ j := by
  rcases Nat.eq_zero_or_pos n with rfl | hpos
  · rw [Nat.zero_mul, rounded_of_lt (by decide), Nat.zero_mul]
  have hlog := log2_mul_two_pow hpos.ne' j
  rcases Nat.lt_or_ge n.log2 52 with hlt | hge
  · have small : n < 2 ^ 53 :=
      Nat.lt_trans ((Nat.log2_lt hpos.ne').mp hlt) (by decide)
    have hle : excess (n * 2 ^ j) ≤ j := by
      rw [excess, hlog]
      omega
    have whole : n * 2 ^ j = n * 2 ^ (j - excess (n * 2 ^ j)) * 2 ^ excess (n * 2 ^ j) := by
      rw [Nat.mul_assoc, ← Nat.pow_add, Nat.sub_add_cancel hle]
    rw [rounded_of_lt small, rounded]
    generalize excess (n * 2 ^ j) = e at whole
    rw [whole, nearestEven_mul_two_pow]
  · have hexcess : excess (n * 2 ^ j) = excess n + j := by
      rw [excess, hlog, excess]
      omega
    rw [rounded, hexcess, nearestEven_scale, Nat.pow_add, ← Nat.mul_assoc, rounded]

theorem rounded_of_bits (h : m < 2 ^ 53) (j : Nat) : rounded (m * 2 ^ j) = m * 2 ^ j := by
  rw [rounded_mul_two_pow, rounded_of_lt h]

end HeadDriven.LogProb
