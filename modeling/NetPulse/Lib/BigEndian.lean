import Mathlib.Algebra.GroupWithZero.Nat
import Mathlib.Data.List.Induction
import Mathlib.Tactic.Common

/-
# NetPulse.Lib.BigEndian — numbers as bytes, most significant first
-/

namespace NetPulse.Lib

abbrev Bytes := List UInt8

/-- The number that the bytes spell. -/
def fromBytes (bs : Bytes) : Nat := bs.foldl (fun n b => 256 * n + b.toNat) 0

/-- The last `k` bytes of the number. -/
def toBytes : Nat → Nat → Bytes
  | 0, _ => []
  | k + 1, n => toBytes k (n / 256) ++ [UInt8.ofNat n]

theorem length_toBytes (k n : Nat) : (toBytes k n).length = k := by
  induction k generalizing n with
  | zero => rfl
  | succ k ih =>
      show (toBytes k (n / 256) ++ [UInt8.ofNat n]).length = k + 1
      rw [List.length_append, ih, List.length_singleton]

theorem fromBytes_append_singleton (bs : Bytes) (b : UInt8) :
    fromBytes (bs ++ [b]) = 256 * fromBytes bs + b.toNat := by
  show (bs ++ [b]).foldl _ 0 = _
  rw [List.foldl_append]
  rfl

theorem fromBytes_toBytes {k n : Nat} (h : n < 256 ^ k) : fromBytes (toBytes k n) = n := by
  induction k generalizing n with
  | zero =>
      show 0 = n
      omega
  | succ k ih =>
      have hdiv : n / 256 < 256 ^ k := by
        rw [Nat.pow_succ] at h
        omega
      show fromBytes (toBytes k (n / 256) ++ [UInt8.ofNat n]) = n
      rw [fromBytes_append_singleton, ih hdiv, UInt8.toNat_ofNat']
      omega

theorem toBytes_succ (k n : Nat) : toBytes (k + 1) n = UInt8.ofNat (n / 256 ^ k) :: toBytes k n := by
  induction k generalizing n with
  | zero =>
      rw [Nat.pow_zero, Nat.div_one]
      rfl
  | succ k ih =>
      show toBytes (k + 1) (n / 256) ++ [UInt8.ofNat n] = _
      rw [ih, Nat.div_div_eq_div_mul, ← Nat.pow_succ']
      rfl

/-- Fewer bytes than the number needs are the number without its first digits. -/
theorem fromBytes_toBytes_mod (k n : Nat) : fromBytes (toBytes k n) = n % 256 ^ k := by
  induction k generalizing n with
  | zero =>
      show 0 = n % 1
      omega
  | succ k ih =>
      show fromBytes (toBytes k (n / 256) ++ [UInt8.ofNat n]) = _
      have hpow : 256 ^ (k + 1) = 256 * 256 ^ k := Nat.pow_succ'
      rw [fromBytes_append_singleton, ih, UInt8.toNat_ofNat', hpow, Nat.mod_mul]
      omega

theorem fromBytes_lt (bs : Bytes) : fromBytes bs < 256 ^ bs.length := by
  induction bs using List.reverseRecOn with
  | nil => decide
  | append_singleton bs b ih =>
      have hb : b.toNat < 256 := b.toNat_lt
      rw [fromBytes_append_singleton, List.length_append, List.length_singleton, Nat.pow_succ]
      omega

end NetPulse.Lib
