/-
A heap of blocks, each owned by one variable.

A variable without a block can be given one at a free address; its owner changes
the block in place, replaces it by another one, or frees it, and a freed address
may be handed out again.

* `load` — what is at an address, nothing when it is free;
* `load_allocate`, `load_modify`, `load_free`, `load_replace` — an operation
  changes what is at an address only if it hands the address out, or if the
  variable owns the block there.
-/
import Mathlib.Logic.Function.Basic
import Mathlib.Tactic.SplitIfs

/-- Variables with their blocks: where each is, and what is in it. -/
structure Heap (V A α : Type*) where
  addr : V → Option A
  block : A → Option (List α)
  allocated : ∀ {v a}, addr v = some a → ∃ xs, block a = some xs
  owner : ∀ {v w a}, addr v = some a → addr w = some a → v = w

namespace Heap

/-- No variable has a block. -/
def empty {V A α : Type*} : Heap V A α where
  addr _ := none
  block _ := none
  allocated h := absurd h (by simp)
  owner h := absurd h (by simp)

variable {V A α : Type*} (h : Heap V A α)

/-- The block at an address. -/
def load (a : A) : List α := (h.block a).getD []

variable [DecidableEq V] [DecidableEq A]

/-- `v` gets the block at a free address. -/
def allocate (v : V) (a : A) (xs : List α) (ha : h.block a = none) : Heap V A α where
  addr := Function.update h.addr v (some a)
  block := Function.update h.block a (some xs)
  allocated := by
    intro w b hw
    by_cases hb : b = a
    · exact ⟨xs, by rw [hb, Function.update_self]⟩
    · rw [Function.update_of_ne hb]
      by_cases hwv : w = v
      · rw [hwv, Function.update_self] at hw
        exact absurd (Option.some.inj hw).symm hb
      · rw [Function.update_of_ne hwv] at hw
        exact h.allocated hw
  owner := by
    -- no other variable has a block at a free address
    have hfree : ∀ w, h.addr w ≠ some a := by
      intro w hw
      obtain ⟨ys, hys⟩ := h.allocated hw
      rw [ha] at hys
      contradiction
    intro u w b hu hw
    by_cases huv : u = v
    · by_cases hwv : w = v
      · rw [huv, hwv]
      · rw [huv, Function.update_self] at hu
        rw [Function.update_of_ne hwv, ← hu] at hw
        exact absurd hw (hfree w)
    · rw [Function.update_of_ne huv] at hu
      by_cases hwv : w = v
      · rw [hwv, Function.update_self] at hw
        rw [← hw] at hu
        exact absurd hu (hfree u)
      · rw [Function.update_of_ne hwv] at hw
        exact h.owner hu hw

/-- The block of `v` changes in place. -/
def modify (v : V) (f : List α → List α) : Heap V A α where
  addr := h.addr
  block b := if h.addr v = some b then (h.block b).map f else h.block b
  allocated := by
    intro w b hw
    obtain ⟨xs, hxs⟩ := h.allocated hw
    rw [hxs]
    split_ifs
    · exact ⟨f xs, rfl⟩
    · exact ⟨xs, rfl⟩
  owner := h.owner

/-- The block of `v` is given back. -/
def free (v : V) : Heap V A α where
  addr := Function.update h.addr v none
  block b := if h.addr v = some b then none else h.block b
  allocated := by
    intro w b hw
    by_cases hwv : w = v
    · rw [hwv, Function.update_self] at hw
      contradiction
    · rw [Function.update_of_ne hwv] at hw
      rw [if_neg fun hv => hwv (h.owner hw hv)]
      exact h.allocated hw
  owner := by
    intro u w b hu hw
    have hne {x : V} (hx : Function.update h.addr v none x = some b) : x ≠ v := by
      rintro rfl
      rw [Function.update_self] at hx
      contradiction
    rw [Function.update_of_ne (hne hu)] at hu
    rw [Function.update_of_ne (hne hw)] at hw
    exact h.owner hu hw

theorem block_free_eq_none {v : V} {a : A} (ha : h.block a = none) :
    (h.free v).block a = none := by
  show (if h.addr v = some a then none else h.block a) = none
  rw [ha, ite_self]

/-- `v` moves to another block, and its old one is given back. -/
def replace (v : V) (a : A) (xs : List α) (ha : h.block a = none) : Heap V A α :=
  (h.free v).allocate v a xs (h.block_free_eq_none ha)

variable {h} {v w : V} {a b : A} {xs : List α}

@[simp] theorem addr_allocate_self (ha : h.block a = none) :
    (h.allocate v a xs ha).addr v = some a :=
  Function.update_self ..

@[simp] theorem load_allocate_self (ha : h.block a = none) :
    (h.allocate v a xs ha).load a = xs := by
  show (Function.update h.block a (some xs) a).getD [] = xs
  rw [Function.update_self]
  rfl

theorem load_allocate (ha : h.block a = none) (hb : b ≠ a) :
    (h.allocate v a xs ha).load b = h.load b := by
  show (Function.update h.block a (some xs) b).getD [] = _
  rw [Function.update_of_ne hb, load]

omit [DecidableEq V] in
theorem load_modify {f : List α → List α} :
    (h.modify v f).load b = if h.addr v = some b then f (h.load b) else h.load b := by
  show (if h.addr v = some b then (h.block b).map f else h.block b).getD [] = _
  split_ifs with hb
  · obtain ⟨ys, hys⟩ := h.allocated hb
    rw [load, hys]
    rfl
  · rfl

theorem load_free : (h.free v).load b = if h.addr v = some b then [] else h.load b := by
  show (if h.addr v = some b then none else h.block b).getD [] = _
  split_ifs <;> rfl

@[simp] theorem addr_replace_self (ha : h.block a = none) :
    (h.replace v a xs ha).addr v = some a :=
  addr_allocate_self _

@[simp] theorem load_replace_self (ha : h.block a = none) :
    (h.replace v a xs ha).load a = xs :=
  load_allocate_self _

theorem load_replace (ha : h.block a = none) (hb : b ≠ a) :
    (h.replace v a xs ha).load b = if h.addr v = some b then [] else h.load b := by
  rw [replace, load_allocate _ hb, load_free]

@[simp] theorem addr_free_self : (h.free v).addr v = none :=
  Function.update_self ..

theorem addr_free_of_ne (hw : w ≠ v) : (h.free v).addr w = h.addr w :=
  Function.update_of_ne hw ..

theorem addr_allocate_of_ne (ha : h.block a = none) (hw : w ≠ v) :
    (h.allocate v a xs ha).addr w = h.addr w :=
  Function.update_of_ne hw ..

theorem addr_replace_of_ne (ha : h.block a = none) (hw : w ≠ v) :
    (h.replace v a xs ha).addr w = h.addr w := by
  rw [replace, addr_allocate_of_ne _ hw, addr_free_of_ne hw]

end Heap
