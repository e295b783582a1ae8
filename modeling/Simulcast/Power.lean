/-!
# Powers of two and ten

Binary numbers are scaled by powers of two and decimal numerals by powers of ten. Both are natural
numbers and may have hundreds of digits.

## Main definitions

* `powTwo`, `powTen` — the powers
-/

namespace Simulcast

/-- A power of two. -/
def powTwo (n : Nat) : Nat := Nat.pow 2 n

/-- A power of ten. -/
def powTen (n : Nat) : Nat := Nat.pow 10 n

theorem powTwo_succ (n : Nat) : powTwo (n + 1) = powTwo n * 2 := rfl

theorem powTen_succ (n : Nat) : powTen (n + 1) = powTen n * 10 := rfl

theorem powTwo_pos (n : Nat) : 0 < powTwo n := by
  induction n with
  | zero => exact Nat.one_pos
  | succ n ih =>
    rw [powTwo_succ]
    exact Nat.mul_pos ih Nat.two_pos

theorem powTen_pos (n : Nat) : 0 < powTen n := by
  induction n with
  | zero => exact Nat.one_pos
  | succ n ih =>
    rw [powTen_succ]
    exact Nat.mul_pos ih (by decide)

end Simulcast
