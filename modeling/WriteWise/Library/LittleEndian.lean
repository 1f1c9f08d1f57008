import Mathlib

namespace WriteWise.Library.LittleEndian

def encode : Nat → Nat → List UInt8
  | 0, _ => []
  | k + 1, n => UInt8.ofNat n :: encode k (n / 256)

def decode : List UInt8 → Nat
  | [] => 0
  | b :: bs => b.toNat + 256 * decode bs

@[simp] theorem length_encode (k n : Nat) : (encode k n).length = k := by
  induction k generalizing n with
  | zero => rfl
  | succ k ih => simp only [encode, List.length_cons, ih]

theorem decode_encode (k n : Nat) (h : n < 256 ^ k) : decode (encode k n) = n := by
  induction k generalizing n with
  | zero =>
    have hn : n = 0 := by simpa using h
    simp [encode, decode, hn]
  | succ k ih =>
    have hd : n / 256 < 256 ^ k := by
      apply Nat.div_lt_of_lt_mul
      rwa [pow_succ, Nat.mul_comm] at h
    simp only [encode, decode, ih _ hd, UInt8.toNat_ofNat']
    omega

theorem decode_lt (bs : List UInt8) : decode bs < 256 ^ bs.length := by
  induction bs with
  | nil => exact Nat.one_pos
  | cons b bs ih =>
    have hb := UInt8.toNat_lt b
    rw [decode, List.length_cons, pow_succ]
    omega

theorem encode_decode (bs : List UInt8) : encode bs.length (decode bs) = bs := by
  induction bs with
  | nil => rfl
  | cons b bs ih =>
    have hb := UInt8.toNat_lt b
    have hlow : UInt8.ofNat (b.toNat + 256 * decode bs) = b := by
      apply UInt8.toNat_inj.mp
      rw [UInt8.toNat_ofNat']
      omega
    have hhigh : (b.toNat + 256 * decode bs) / 256 = decode bs := by omega
    rw [List.length_cons, decode, encode, hlow, hhigh, ih]

end WriteWise.Library.LittleEndian
