import Mathlib.Algebra.Group.Nat.Defs

/-!
# Little-endian bytes of a natural number

`leBytes w n` is the value `n` in exactly `w` bytes, low byte first; what does not
fit is dropped. `leNat` reads any number of bytes back.
-/
namespace LittleEndian

def leBytes : Nat → Nat → List UInt8
  | 0, _ => []
  | w + 1, n => UInt8.ofNat n :: leBytes w (n / 256)

def leNat : List UInt8 → Nat
  | [] => 0
  | b :: bs => b.toNat + 256 * leNat bs

@[simp] theorem leBytes_zero (n : Nat) : leBytes 0 n = [] := rfl
theorem leBytes_succ (w n : Nat) :
    leBytes (w + 1) n = UInt8.ofNat n :: leBytes w (n / 256) := rfl
@[simp] theorem leNat_nil : leNat [] = 0 := rfl
@[simp] theorem leNat_cons (b : UInt8) (bs : List UInt8) :
    leNat (b :: bs) = b.toNat + 256 * leNat bs := rfl

@[simp] theorem length_leBytes (w n : Nat) : (leBytes w n).length = w := by
  induction w generalizing n with
  | zero => rfl
  | succ w ih => rw [leBytes_succ, List.length_cons, ih]

/-- Reading back loses exactly what did not fit. -/
theorem leNat_leBytes (w n : Nat) : leNat (leBytes w n) = n % 256 ^ w := by
  induction w generalizing n with
  | zero => rw [leBytes_zero, leNat_nil, Nat.pow_zero, Nat.mod_one]
  | succ w ih =>
    have hlow : (UInt8.ofNat n).toNat = n % 256 := UInt8.toNat_ofNat'
    rw [leBytes_succ, leNat_cons, hlow, ih, Nat.pow_succ', Nat.mod_mul]

theorem leNat_leBytes_of_lt {w n : Nat} (h : n < 256 ^ w) : leNat (leBytes w n) = n := by
  rw [leNat_leBytes, Nat.mod_eq_of_lt h]

theorem leNat_lt (bs : List UInt8) : leNat bs < 256 ^ bs.length := by
  induction bs with
  | nil => exact Nat.one_pos
  | cons b bs ih =>
    have hb := b.toNat_lt
    rw [leNat_cons, List.length_cons, Nat.pow_succ]
    omega

/-- Only the value modulo the width counts. -/
theorem leBytes_mod (w n : Nat) : leBytes w (n % 256 ^ w) = leBytes w n := by
  induction w generalizing n with
  | zero => rfl
  | succ w ih =>
    have hhead : UInt8.ofNat (n % 256 ^ (w + 1)) = UInt8.ofNat n := by
      apply UInt8.toNat_inj.mp
      rw [UInt8.toNat_ofNat', UInt8.toNat_ofNat', Nat.pow_succ]
      exact Nat.mod_mod_of_dvd n (Nat.dvd_mul_left (2 ^ 8) (256 ^ w))
    have htail : n % 256 ^ (w + 1) / 256 = n / 256 % 256 ^ w := by
      rw [Nat.pow_succ', Nat.mod_mul_right_div_self]
    rw [leBytes_succ, leBytes_succ, hhead, htail, ih]

theorem leBytes_congr {w n m : Nat} (h : n % 256 ^ w = m % 256 ^ w) :
    leBytes w n = leBytes w m := by
  rw [← leBytes_mod w n, h, leBytes_mod]

end LittleEndian
