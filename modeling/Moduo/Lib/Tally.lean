/-
Tallies: the total weight of the items in finitely many places.

Items that move between places keep the tally; an item that is taken out, or put
in, changes it by its weight.
-/
import Mathlib.Tactic

/-- The weight of a list of items. -/
def weight {α : Type*} (w : α → ℕ) (items : List α) : ℕ := (items.map w).sum

/-- The weight of the items in all places. -/
def tally {ι α : Type*} [Fintype ι] (w : α → ℕ) (places : ι → List α) : ℕ :=
  ∑ i, weight w (places i)

section Weight

variable {α : Type*} {w : α → ℕ}

@[simp] theorem weight_nil : weight w [] = 0 := rfl

@[simp] theorem weight_cons (a : α) (items : List α) :
    weight w (a :: items) = w a + weight w items := by
  simp [weight]

@[simp] theorem weight_append (items items' : List α) :
    weight w (items ++ items') = weight w items + weight w items' := by
  simp [weight]

/-- Replace one item. -/
theorem weight_set {items : List α} {k : ℕ} {a : α} (h : items[k]? = some a) (b : α) :
    weight w (items.set k b) + w a = weight w items + w b := by
  induction items generalizing k with
  | nil => exact absurd h (by simp)
  | cons c items ih =>
    cases k with
    | zero =>
      obtain rfl : c = a := by simpa using h
      rw [List.set_cons_zero, weight_cons, weight_cons]
      omega
    | succ k =>
      have hrest := ih (k := k) (by simpa using h)
      rw [List.set_cons_succ, weight_cons, weight_cons]
      omega

theorem weight_eq_zero {items : List α} (h : ∀ a ∈ items, w a = 0) : weight w items = 0 := by
  induction items with
  | nil => rfl
  | cons a items ih =>
    rw [weight_cons, h a List.mem_cons_self, ih fun b hb => h b (List.mem_cons_of_mem a hb)]

theorem le_weight {items : List α} {a : α} (h : a ∈ items) : w a ≤ weight w items := by
  obtain ⟨front, rest, rfl⟩ := List.append_of_mem h
  rw [weight_append, weight_cons]
  omega

end Weight

section Tally

variable {ι α : Type*} [Fintype ι] {w : α → ℕ} {places : ι → List α}

/-- Exchange the items in one place. -/
theorem tally_update [DecidableEq ι] (i : ι) (items : List α) :
    tally w (Function.update places i items) + weight w (places i) =
      tally w places + weight w items := by
  have hrest : ∑ j ∈ Finset.univ.erase i, weight w (Function.update places i items j) =
      ∑ j ∈ Finset.univ.erase i, weight w (places j) := by
    refine Finset.sum_congr rfl fun j hj => ?_
    rw [Function.update_of_ne (Finset.ne_of_mem_erase hj)]
  have hnew : tally w (Function.update places i items) =
      ∑ j ∈ Finset.univ.erase i, weight w (places j) + weight w items := by
    rw [tally, ← Finset.sum_erase_add _ _ (Finset.mem_univ i), hrest, Function.update_self]
  have hold : tally w places =
      ∑ j ∈ Finset.univ.erase i, weight w (places j) + weight w (places i) := by
    rw [tally, ← Finset.sum_erase_add _ _ (Finset.mem_univ i)]
  omega

theorem exists_of_tally_pos (h : 0 < tally w places) : ∃ i, ∃ a ∈ places i, 0 < w a := by
  by_contra hnone
  have hzero : tally w places = 0 := by
    refine Finset.sum_eq_zero fun i _ => weight_eq_zero fun a ha => ?_
    by_contra hne
    exact hnone ⟨i, a, ha, Nat.pos_of_ne_zero hne⟩
  omega

theorem le_tally {i : ι} {a : α} (h : a ∈ places i) : w a ≤ tally w places :=
  (le_weight h).trans (Finset.single_le_sum (f := fun j => weight w (places j))
    (fun _ _ => Nat.zero_le _) (Finset.mem_univ i))

theorem tally_eq_zero (h : ∀ i, ∀ a ∈ places i, w a = 0) : tally w places = 0 :=
  Finset.sum_eq_zero fun i _ => weight_eq_zero (h i)

end Tally
