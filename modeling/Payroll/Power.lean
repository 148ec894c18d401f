namespace Payroll

/-!
# Powers of ten and of two

Main definitions: `pow10` and `pow2`.

Main statements: `pow10_pos`, `pow10_add`; the powers are positive, and exponents add up.
-/

/-- The power of ten with so many zeros. -/
def pow10 (k : Nat) : Nat := Nat.pow 10 k

/-- The power of two with so many zero bits. -/
def pow2 (k : Nat) : Nat := Nat.pow 2 k

@[simp] theorem pow10_zero : pow10 0 = 1 := rfl

theorem pow10_succ (k : Nat) : pow10 (k + 1) = pow10 k * 10 := rfl

theorem pow10_pos (k : Nat) : 0 < pow10 k := Nat.pow_pos (by decide)

theorem pow10_add (j k : Nat) : pow10 (j + k) = pow10 j * pow10 k := Nat.pow_add 10 j k

theorem pow10_le {j k : Nat} (h : j ≤ k) : pow10 j ≤ pow10 k :=
  Nat.pow_le_pow_right (by decide) h

end Payroll
