import Mathlib

namespace WriteWise.Library.Decimal

def digitChar (d : Nat) : UInt8 := UInt8.ofNat (48 + d)

/-- `%d` of a number that is not negative. -/
def decimal (n : Nat) : List UInt8 :=
  if n = 0 then [digitChar 0] else (Nat.digits 10 n).reverse.map digitChar

/-- `%d` of a word of 32 bits. -/
def signedDecimal (n : Nat) : List UInt8 :=
  if n < 2 ^ 31 then decimal n else 45 :: decimal (2 ^ 32 - n)

/-- The digits of a number, with zeros in front, up to a width. -/
def padded (width n : Nat) : List UInt8 :=
  List.replicate (width - (decimal n).length) (digitChar 0) ++ decimal n

/-- The nearest number of hundredths, of two the even one. -/
def hundredths (q : ℚ) : Nat :=
  let below := (q * 100).floor
  let rest := q * 100 - below
  if rest < 1 / 2 ∨ rest = 1 / 2 ∧ below % 2 = 0 then below.toNat else (below + 1).toNat

/-- `%.2lf` of a number that is not negative and taken exactly. A `double` next to a tie may
round the other way. -/
def fixed2 (q : ℚ) : List UInt8 :=
  decimal (hundredths q / 100) ++ 46 :: padded 2 (hundredths q % 100)

variable {n k width bound : Nat} {q : ℚ}

theorem length_decimal_le (hk : 0 < k) (h : n < 10 ^ k) : (decimal n).length ≤ k := by
  unfold decimal
  split
  · exact hk
  · rw [List.length_map, List.length_reverse, Nat.digits_length_le_iff (by decide)]
    exact h

theorem signedDecimal_of_lt (h : n < 2 ^ 31) : signedDecimal n = decimal n := if_pos h

theorem length_padded_le (hk : 0 < k) (h : n < 10 ^ k) : (padded width n).length ≤ max width k := by
  have hlen := length_decimal_le hk h
  rw [padded, List.length_append, List.length_replicate]
  omega

theorem hundredths_le (h : q ≤ bound) : hundredths q ≤ bound * 100 := by
  have hle : q * 100 ≤ ((bound * 100 : Nat) : ℚ) := by
    rw [Nat.cast_mul]
    exact mul_le_mul_of_nonneg_right h (by norm_num)
  have hfloor : (q * 100).floor ≤ (bound * 100 : Nat) :=
    (Int.floor_mono hle).trans_eq (Int.floor_natCast _)
  unfold hundredths
  simp only
  split
  · exact Int.toNat_le.mpr hfloor
  · rename_i hup
    refine Int.toNat_le.mpr (Int.add_one_le_of_lt (lt_of_le_of_ne hfloor fun heq => hup (.inl ?_)))
    rw [heq, Int.cast_natCast]
    linarith

theorem length_fixed2_le (hk : 0 < k) (h : q ≤ bound) (hb : bound < 10 ^ k) :
    (fixed2 q).length ≤ k + 3 := by
  have hwhole : hundredths q / 100 < 10 ^ k := by
    have hle := hundredths_le h
    exact lt_of_le_of_lt (Nat.div_le_of_le_mul (by rwa [Nat.mul_comm])) hb
  have hint := length_decimal_le hk hwhole
  have hrest := @length_padded_le (hundredths q % 100) 2 2 (by decide) (Nat.mod_lt _ (by decide))
  rw [fixed2, List.length_append, List.length_cons]
  omega

example : fixed2 (305280 / 7) = [52, 51, 54, 49, 49, 46, 52, 51] := by
  decide +kernel

end WriteWise.Library.Decimal
