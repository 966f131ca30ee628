/-
The task queue of an event loop (`EventLoop.cc`).

`φ` is the type of functors.  Threads hand work to the loop by `queueInLoop`:
push under the mutex, then a wakeup through the eventfd `wakeupFd_`, unless the
caller is the loop thread and is not running pending functors.
-/
import Mathlib.Tactic

namespace Moduo

/-- The members of `EventLoop` that other threads reach, with the counter of
the eventfd. -/
structure EventLoop (φ : Type*) where
  quit : Bool
  callingPendingFunctors : Bool
  pendingFunctors : List φ
  wakeupCounter : ℕ
  deriving Repr

namespace EventLoop

variable {φ : Type*}

def make : EventLoop φ := ⟨false, false, [], 0⟩

/-- Largest value of an eventfd counter. -/
def eventfdMax : ℕ := 2 ^ 64 - 2

variable (l : EventLoop φ)

/-- Write 1 to the eventfd; a saturated counter refuses it (`EAGAIN`, logged). -/
def wakeup : EventLoop φ :=
  if l.wakeupCounter < eventfdMax then { l with wakeupCounter := l.wakeupCounter + 1 } else l

/-- Read the eventfd, which resets its counter. -/
def handleRead : EventLoop φ := { l with wakeupCounter := 0 }

/-- The push of `queueInLoop`. -/
def push (cb : φ) : EventLoop φ := { l with pendingFunctors := l.pendingFunctors ++ [cb] }

/-- The test of `queueInLoop` after the push. -/
def mustWakeup (isInLoopThread : Bool) : Bool := !isInLoopThread || l.callingPendingFunctors

/-- `callingPendingFunctors_ = true`, before the swap of `doPendingFunctors`. -/
def beginPendingFunctors : EventLoop φ := { l with callingPendingFunctors := true }

/-- `functors.swap(pendingFunctors_)`: the batch taken is `l.pendingFunctors`. -/
def swapFunctors : EventLoop φ := { l with pendingFunctors := [] }

def endPendingFunctors : EventLoop φ := { l with callingPendingFunctors := false }

/-- After a wakeup the counter is positive, also when the write was refused. -/
theorem wakeup_pos : 0 < l.wakeup.wakeupCounter := by
  rw [wakeup]
  split_ifs with h
  · exact Nat.succ_pos _
  · exact Nat.lt_of_lt_of_le (by decide) (Nat.le_of_not_lt h)

@[simp] theorem wakeup_pendingFunctors : l.wakeup.pendingFunctors = l.pendingFunctors := by
  rw [wakeup]
  split_ifs <;> rfl

@[simp] theorem wakeup_callingPendingFunctors :
    l.wakeup.callingPendingFunctors = l.callingPendingFunctors := by
  rw [wakeup]
  split_ifs <;> rfl

@[simp] theorem wakeup_quit : l.wakeup.quit = l.quit := by
  rw [wakeup]
  split_ifs <;> rfl

end EventLoop

end Moduo
