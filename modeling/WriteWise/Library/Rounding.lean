import Mathlib.Tactic.Ring
import Mathlib.Data.Nat.Log

namespace WriteWise.Library.Rounding

/-- The nearest number whose binary digits are `p` digits and zeros, to the even one
of two that are as near. -/
def nearest (p n : Nat) : Nat :=
  let ulp := 2 ^ (n.log2 + 1 - p)
  let q := n / ulp
  let r := n % ulp
  if ulp < 2 * r ∨ 2 * r = ulp ∧ q % 2 = 1 then (q + 1) * ulp else q * ulp

variable {p n : Nat}

theorem nearest_of_lt (h : n < 2 ^ p) : nearest p n = n := by
  by_cases h0 : n = 0
  · subst h0
    simp [nearest]
  · have hdigits : n.log2 + 1 - p = 0 := by
      have hlog := (Nat.log2_lt h0).mpr h
      omega
    simp [nearest, hdigits, Nat.mod_one]

theorem dvd_nearest (p n : Nat) : 2 ^ (n.log2 + 1 - p) ∣ nearest p n := by
  unfold nearest
  dsimp only
  split
  · exact Nat.dvd_mul_left _ _
  · exact Nat.dvd_mul_left _ _

/-- Rounding is off by half a unit of the last place at most. -/
theorem two_mul_nearest_le (p n : Nat) : 2 * nearest p n ≤ 2 * n + 2 ^ (n.log2 + 1 - p) := by
  unfold nearest
  dsimp only
  generalize 2 ^ (n.log2 + 1 - p) = ulp
  have hn := Nat.div_add_mod n ulp
  rw [Nat.mul_comm] at hn
  split
  · rename_i hup
    rw [Nat.add_one_mul (n / ulp)]
    omega
  · omega

theorem two_pow_mul_nearest_le (p n : Nat) : 2 ^ p * nearest p n ≤ (2 ^ p + 1) * n := by
  by_cases h : n < 2 ^ p
  · rw [nearest_of_lt h]
    exact Nat.mul_le_mul_right n (Nat.le_succ _)
  · have hpos : n ≠ 0 := fun h0 => h (h0 ▸ Nat.two_pow_pos p)
    have hdigits : p ≤ n.log2 + 1 := (Nat.le_log2 hpos).mpr (not_lt.mp h) |>.trans (Nat.le_succ _)
    have hulp : 2 ^ p * 2 ^ (n.log2 + 1 - p) ≤ 2 * n := by
      rw [← Nat.pow_add, Nat.add_sub_cancel' hdigits, Nat.pow_succ, Nat.mul_comm]
      exact Nat.mul_le_mul_left 2 (Nat.log2_self_le hpos)
    have hhalf := Nat.mul_le_mul_left (2 ^ p) (two_mul_nearest_le p n)
    rw [Nat.mul_add] at hhalf
    have hleft : 2 ^ p * (2 * nearest p n) = 2 * (2 ^ p * nearest p n) := by ring
    have hright : 2 ^ p * (2 * n) = 2 * (2 ^ p * n) := by ring
    rw [Nat.add_one_mul (2 ^ p)]
    omega

end WriteWise.Library.Rounding
