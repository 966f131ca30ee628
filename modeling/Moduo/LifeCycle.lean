/-
The life cycle of a connection, as its user sees it.

The connection is established and reported as up, delivers messages, is reported
as down, tells the server that it is closed, is destroyed and is freed.

* `lifeCycle` — the machine of these marks;
* `history_of_run` — its runs from the start are the histories
  `established, up, message, …, message, down, close, destroyed, freed` and their
  prefixes.
-/
import Moduo.Lib.Machine
import Mathlib.Tactic

namespace Moduo

/-- What happens to a connection. -/
inductive Mark
  | established
  | up
  | message
  | down
  | close
  | destroyed
  | freed
  deriving DecidableEq, Repr

inductive Phase
  | fresh
  | establishing
  | up
  | down
  | closed
  | destroyed
  | freed
  deriving DecidableEq, Repr

def lifeCycle : Machine Phase Mark where
  init ph := ph = .fresh
  step
    | .fresh, .established => some .establishing
    | .establishing, .up => some .up
    | .up, .message => some .up
    | .up, .down => some .down
    | .down, .close => some .closed
    | .closed, .destroyed => some .destroyed
    | .destroyed, .freed => some .freed
    | _, _ => none

/-- A whole life with `n` messages. -/
def fullHistory (n : ℕ) : List Mark :=
  [.established, .up] ++ List.replicate n .message ++ [.down, .close, .destroyed, .freed]

/-- The history that leads to a phase, with `n` messages. -/
def Phase.history (n : ℕ) : Phase → List Mark
  | .fresh => []
  | .establishing => [.established]
  | .up => [.established, .up] ++ List.replicate n .message
  | .down => [.established, .up] ++ List.replicate n .message ++ [.down]
  | .closed => [.established, .up] ++ List.replicate n .message ++ [.down, .close]
  | .destroyed => [.established, .up] ++ List.replicate n .message ++ [.down, .close, .destroyed]
  | .freed => fullHistory n

theorem history_of_step {ph ph' : Phase} {m : Mark} {n : ℕ}
    (h : lifeCycle.step ph m = some ph') : ∃ n', ph.history n ++ [m] = ph'.history n' := by
  cases ph <;> cases m <;> simp only [lifeCycle, Option.some.injEq, reduceCtorEq] at h
  case establishing.up =>
    subst h
    exact ⟨0, rfl⟩
  case up.message =>
    subst h
    refine ⟨n + 1, ?_⟩
    rw [Phase.history, Phase.history, List.append_assoc, List.replicate_succ']
  all_goals
    subst h
    exact ⟨n, by simp [Phase.history, fullHistory]⟩

/-- A run from the start has the history of the phase it reaches. -/
theorem history_of_run {marks : List Mark} {ph : Phase}
    (h : lifeCycle.run .fresh marks = some ph) : ∃ n, marks = ph.history n := by
  induction marks using List.reverseRecOn generalizing ph with
  | nil =>
    obtain rfl := Option.some.inj h
    exact ⟨0, rfl⟩
  | append_singleton marks m ih =>
    rw [Machine.run_append] at h
    obtain ⟨ph', hrun, hlast⟩ := Option.bind_eq_some_iff.mp h
    obtain ⟨n, rfl⟩ := ih hrun
    obtain ⟨ph₂, hstep, hnil⟩ := (lifeCycle.run_cons_eq_some).mp hlast
    obtain rfl := Option.some.inj hnil
    exact history_of_step hstep

/-- Every history of a phase is the beginning of a whole life. -/
theorem Phase.history_prefix (ph : Phase) (n : ℕ) : ph.history n <+: fullHistory n := by
  cases ph
  case fresh => exact List.nil_prefix
  case establishing => exact ⟨[.up] ++ List.replicate n .message ++ _, rfl⟩
  case up => exact List.prefix_append _ _
  case freed => exact List.prefix_refl _
  all_goals
    rw [Phase.history, fullHistory, List.prefix_append_right_inj]
    exact ⟨_, rfl⟩

/-- Once established, a connection is reported as up. -/
theorem Phase.up_mem_history {ph : Phase} (h : ph ≠ .establishing) {n : ℕ}
    (hmem : .established ∈ ph.history n) : .up ∈ ph.history n := by
  cases ph <;> simp_all [Phase.history, fullHistory]

end Moduo
