import MicroXrceDds.Library.Prog
import Mathlib.Algebra.Group.Nat.Defs

/-!
# The machine the crate is compiled for

`usize` is 32 bits wide on the RP2040 and 64 on a development host, and Rust's `+`
panics on overflow in a profile with overflow checks and wraps in one without.
Both are parameters of the model.
-/
namespace MicroXrceDds

class Target where
  usizeBits : Nat
  atLeast32 : 32 ≤ usizeBits
  overflowChecks : Bool

/-- The Cortex-M0+ of the firmware, with or without overflow checks. -/
abbrev rp2040 (overflowChecks : Bool) : Target := ⟨32, Nat.le_refl 32, overflowChecks⟩

abbrev host64 (overflowChecks : Bool) : Target := ⟨64, by decide, overflowChecks⟩

variable {ε S : Type}

/-- `a + b` on an unsigned integer of the given width. -/
def addIn [t : Target] (bits a b : Nat) : Prog ε S Nat :=
  if a + b < 2 ^ bits then pure (a + b)
  else if t.overflowChecks then Prog.panic
  else pure ((a + b) % 2 ^ bits)

def usizeAdd [t : Target] (a b : Nat) : Prog ε S Nat := addIn t.usizeBits a b

/-- `a - b` on `usize`. -/
def usizeSub [t : Target] (a b : Nat) : Prog ε S Nat :=
  if b ≤ a then pure (a - b)
  else if t.overflowChecks then Prog.panic
  else pure (2 ^ t.usizeBits + a - b)

theorem addIn_of_lt [Target] {bits a b : Nat} (h : a + b < 2 ^ bits) :
    (addIn bits a b : Prog ε S Nat) = pure (a + b) := if_pos h

/-- An addition panics only where it overflows, and is right modulo the width. -/
theorem addIn_cases [t : Target] (bits a b : Nat) :
    (2 ^ bits ≤ a + b ∧ (addIn bits a b : Prog ε S Nat) = Prog.panic) ∨
    ∃ v, (addIn bits a b : Prog ε S Nat) = pure v ∧ v % 2 ^ bits = (a + b) % 2 ^ bits := by
  unfold addIn
  split
  · exact .inr ⟨a + b, rfl, rfl⟩
  · next h =>
    split
    · exact .inl ⟨Nat.le_of_not_lt h, rfl⟩
    · exact .inr ⟨(a + b) % 2 ^ bits, rfl, Nat.mod_mod _ _⟩

theorem usizeAdd_of_lt [t : Target] {a b : Nat} (h : a + b < 2 ^ t.usizeBits) :
    (usizeAdd a b : Prog ε S Nat) = pure (a + b) := addIn_of_lt h

/-- One wrap brings the sum below either operand. -/
theorem usizeAdd_of_ge [t : Target] {a b : Nat} (h : 2 ^ t.usizeBits ≤ a + b)
    (ha : a < 2 ^ t.usizeBits) (hb : b < 2 ^ t.usizeBits) :
    (usizeAdd a b : Prog ε S Nat) = Prog.panic ∨
      (usizeAdd a b : Prog ε S Nat) = pure (a + b - 2 ^ t.usizeBits) := by
  have hwrap : (a + b) % 2 ^ t.usizeBits = a + b - 2 ^ t.usizeBits := by
    rw [Nat.mod_eq_sub_mod h, Nat.mod_eq_of_lt (by omega)]
  simp only [usizeAdd, addIn, if_neg (Nat.not_lt.mpr h), hwrap]
  cases t.overflowChecks with
  | true => exact .inl rfl
  | false => exact .inr rfl

theorem usizeSub_of_le [Target] {a b : Nat} (h : b ≤ a) :
    (usizeSub a b : Prog ε S Nat) = pure (a - b) := if_pos h

/-- Every target addresses at least four gigabytes. -/
theorem two_pow_32_le [t : Target] : 2 ^ 32 ≤ 2 ^ t.usizeBits :=
  Nat.pow_le_pow_right (by decide) t.atLeast32

theorem two_mul_half [t : Target] : 2 * 2 ^ (t.usizeBits - 1) = 2 ^ t.usizeBits := by
  have h32 := t.atLeast32
  rw [← Nat.pow_succ']
  congr 1
  omega

/-- A slice has at most `isize::MAX` bytes, which leaves room at the top of the address
space. -/
theorem room_of_slice [t : Target] {len : Nat} (h : len < 2 ^ (t.usizeBits - 1)) :
    len + 16 ≤ 2 ^ t.usizeBits := by
  have h32 := t.atLeast32
  have hhalf := two_mul_half (t := t)
  have hbig : 2 ^ 5 ≤ 2 ^ (t.usizeBits - 1) := Nat.pow_le_pow_right (by decide) (by omega)
  omega

end MicroXrceDds
