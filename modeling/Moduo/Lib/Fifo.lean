/-
First-in first-out queues, specified by their history.

A `Fifo` records everything that ever arrived, in order, and how long a prefix
of it has been taken out; its content is the rest.
-/
import Mathlib.Data.List.Basic

/-- Everything that arrived, and the length of the prefix already taken. -/
@[ext] structure Fifo (α : Type*) where
  arrived : List α
  taken : ℕ
  taken_le : taken ≤ arrived.length

namespace Fifo

variable {α : Type*}

/-- What is still in the queue, oldest first. -/
def content (q : Fifo α) : List α := q.arrived.drop q.taken

def empty : Fifo α := ⟨[], 0, Nat.le_refl 0⟩

/-- Add a block at the end. -/
def put (q : Fifo α) (xs : List α) : Fifo α where
  arrived := q.arrived ++ xs
  taken := q.taken
  taken_le := by
    rw [List.length_append]
    exact Nat.le_add_right_of_le q.taken_le

/-- Remove `n` elements from the front, or all of them if there are fewer. -/
def take (q : Fifo α) (n : ℕ) : Fifo α where
  arrived := q.arrived
  taken := min (q.taken + n) q.arrived.length
  taken_le := Nat.min_le_right _ _

/-- Remove everything. -/
def takeAll (q : Fifo α) : Fifo α where
  arrived := q.arrived
  taken := q.arrived.length
  taken_le := Nat.le_refl _

@[simp] theorem content_put (q : Fifo α) (xs : List α) :
    (q.put xs).content = q.content ++ xs :=
  List.drop_append_of_le_length q.taken_le

@[simp] theorem content_take (q : Fifo α) (n : ℕ) :
    (q.take n).content = q.content.drop n := by
  simp only [content, take, List.drop_drop]
  rcases Nat.le_total (q.taken + n) q.arrived.length with h | h
  · rw [Nat.min_eq_left h]
  · rw [Nat.min_eq_right h, List.drop_of_length_le (Nat.le_refl _), List.drop_of_length_le h]

@[simp] theorem content_takeAll (q : Fifo α) : (q.takeAll).content = [] :=
  List.drop_length

end Fifo
