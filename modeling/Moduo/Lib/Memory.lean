/-
A block of memory as a list of cells, with bounds-checked block transfers.

`load` and `store` return `none` when the transfer would touch a cell outside
the block, so "no copy leaves the allocation" is the statement that they
succeed.  `segment m i n` is the run of `n` cells from index `i`; the lemmas
say how stores and resizes act on segments.
-/
import Mathlib.Data.List.Basic

namespace Memory

variable {α : Type*}

/-- The `n` cells of `m` starting at index `i` (fewer at the end of `m`). -/
def segment (m : List α) (i n : ℕ) : List α := (m.drop i).take n

/-- Read `n` cells from index `i`. -/
def load (m : List α) (i n : ℕ) : Option (List α) :=
  if i + n ≤ m.length then some (segment m i n) else none

/-- `m` with the cells from index `i` on overwritten by `xs`. -/
def overwrite (m : List α) (i : ℕ) (xs : List α) : List α :=
  m.take i ++ xs ++ m.drop (i + xs.length)

/-- Write the block `xs` at index `i`. -/
def store (m : List α) (i : ℕ) (xs : List α) : Option (List α) :=
  if i + xs.length ≤ m.length then some (overwrite m i xs) else none

/-- Change the length to `n`, filling new cells with `z`. -/
def resize (m : List α) (n : ℕ) (z : α) : List α :=
  m.take n ++ List.replicate (n - m.length) z

variable {m xs : List α} {i j n k : ℕ}

theorem load_of_le (h : i + n ≤ m.length) : load m i n = some (segment m i n) :=
  if_pos h

theorem store_of_le (h : i + xs.length ≤ m.length) :
    store m i xs = some (overwrite m i xs) :=
  if_pos h

theorem store_of_gt (h : m.length < i + xs.length) : store m i xs = none :=
  if_neg (by omega)

theorem length_segment (h : i + n ≤ m.length) : (segment m i n).length = n := by
  simp only [segment, List.length_take, List.length_drop]
  omega

theorem length_overwrite (h : i + xs.length ≤ m.length) :
    (overwrite m i xs).length = m.length := by
  simp only [overwrite, List.length_append, List.length_take, List.length_drop]
  omega

@[simp] theorem length_resize (m : List α) (n : ℕ) (z : α) :
    (resize m n z).length = n := by
  simp only [resize, List.length_append, List.length_take, List.length_replicate]
  omega

@[simp] theorem segment_zero (m : List α) (i : ℕ) : segment m i 0 = [] := by
  simp [segment]

theorem segment_add (m : List α) (i n k : ℕ) :
    segment m i (n + k) = segment m i n ++ segment m (i + n) k := by
  simp only [segment, List.take_add, List.drop_drop]

theorem drop_segment (m : List α) (i n k : ℕ) :
    (segment m i n).drop k = segment m (i + k) (n - k) := by
  simp only [segment, List.drop_take, List.drop_drop]

theorem take_segment (m : List α) (i : ℕ) (h : k ≤ n) :
    (segment m i n).take k = segment m i k := by
  simp only [segment, List.take_take, Nat.min_eq_left h]

/-- A store is read back where it was made. -/
theorem segment_overwrite_self (h : i + xs.length ≤ m.length) :
    segment (overwrite m i xs) i xs.length = xs := by
  have hlen : (m.take i).length = i := by
    rw [List.length_take]
    omega
  rw [segment, overwrite, List.append_assoc, List.drop_append_of_le_length (by omega),
    List.drop_of_length_le (by omega), List.nil_append]
  exact List.take_left

/-- A store leaves the cells below it alone. -/
theorem segment_overwrite_below (hji : j + n ≤ i) (hi : i ≤ m.length) :
    segment (overwrite m i xs) j n = segment m j n := by
  have hlen : (m.take i).length = i := by
    rw [List.length_take]
    omega
  rw [segment, overwrite, List.append_assoc, List.drop_append_of_le_length (by omega),
    List.take_append_of_le_length (by simp only [List.length_drop]; omega),
    List.drop_take, List.take_take, Nat.min_eq_left (by omega)]
  rfl

/-- A resize keeps the cells below both lengths. -/
theorem segment_resize {z : α} (hn : i + k ≤ n) (hm : i + k ≤ m.length) :
    segment (resize m n z) i k = segment m i k := by
  have hlen : i + k ≤ (m.take n).length := by
    rw [List.length_take]
    omega
  rw [segment, resize, List.drop_append_of_le_length (by omega),
    List.take_append_of_le_length (by simp only [List.length_drop]; omega),
    List.drop_take, List.take_take, Nat.min_eq_left (by omega)]
  rfl

end Memory
