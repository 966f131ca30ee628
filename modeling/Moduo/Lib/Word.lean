/-
Unsigned machine words of width `w`, kept as naturals below `2 ^ w`.

Addition and subtraction wrap around, as for an unsigned C++ type; the two
`_of_` lemmas say when they are the operations on `ℕ`.
-/
import Mathlib.Tactic

namespace Word

/-- Wrapping addition. -/
def add (w a b : ℕ) : ℕ := (a + b) % 2 ^ w

/-- Wrapping subtraction of a word `b`. -/
def sub (w a b : ℕ) : ℕ := (a + (2 ^ w - b)) % 2 ^ w

variable {w a b : ℕ}

theorem add_of_lt (h : a + b < 2 ^ w) : add w a b = a + b :=
  Nat.mod_eq_of_lt h

theorem sub_of_le (hba : b ≤ a) (ha : a < 2 ^ w) : sub w a b = a - b := by
  have hsum : a + (2 ^ w - b) = (a - b) + 2 ^ w := by omega
  rw [sub, hsum, Nat.add_mod_right]
  exact Nat.mod_eq_of_lt (by omega)

theorem sub_of_lt (hab : a < b) (hb : b ≤ 2 ^ w) : sub w a b = a + (2 ^ w - b) :=
  Nat.mod_eq_of_lt (by omega)

/-- A wrapped difference added back gives the sum, when that fits. -/
theorem add_sub_of_le {c : ℕ} (hc : c ≤ a) (ha : a < 2 ^ w) (hb : b < 2 ^ w)
    (h : a - c + b < 2 ^ w) : add w a (sub w b c) = a - c + b := by
  rcases Nat.lt_or_ge b c with hbc | hbc
  · have hsum : a + (b + (2 ^ w - c)) = (a - c + b) + 2 ^ w := by omega
    rw [sub_of_lt hbc (by omega), add, hsum, Nat.add_mod_right]
    exact Nat.mod_eq_of_lt h
  · have hsum : a + (b - c) = a - c + b := by omega
    rw [sub_of_le hbc hb, add, hsum]
    exact Nat.mod_eq_of_lt h

end Word
