/-
A thread with its own event loop (`EventLoopThread.cc`, `Thread.cc`).

The owner constructs an `EventLoopThread`, calls `startLoop` and destroys it.
The thread builds a loop on its stack, publishes it in `loop_`, runs `loop()`
and resets `loop_`.  Once `startLoop` has returned the loop, any thread may call
`quit` and `queueInLoop` on it; these calls, and the steps of the loop itself,
are the steps of `TaskQueue` (`simulates_taskQueue`).

`~EventLoopThread` reads `loop_` twice, without the mutex: in its test, and for
the call of `quit`.

Ghost fields: `asked`, a `quit` has stored its request; `quitReturned`, a `quit`
has returned; `tested`, the loop has tested `quit_` after that; `joins`, how
often `std::thread::join` has returned; `detached` and `terminated`, what
`~Thread` has done.
-/
import Moduo.TaskQueue

namespace Moduo

namespace EventLoopThread

/-- `Thread`, with whether `thread_` holds a joinable `std::thread`. -/
structure Thread where
  started : Bool
  joined : Bool
  joinable : Bool
  deriving DecidableEq, Repr

namespace Thread

def make : Thread := ⟨false, false, false⟩

def start (th : Thread) : Thread := { th with started := true, joinable := true }

/-- `~Thread` takes its detach branch. -/
def detaches (th : Thread) : Bool := th.started && !th.joined

end Thread

/-- Where the thread is: not started; before `sem_post`; before `loop_` is set;
before `loop()`; from `loop()` on; after `loop_` is reset; at its end. -/
inductive Position
  | unborn
  | spawned
  | initialising
  | published
  | looping
  | reset
  | ended
  deriving DecidableEq, Repr

/-- Where the owner is, in `startLoop` and in `~EventLoopThread`. -/
inductive Owner
  | constructed
  | starting
  | waiting
  | returned
  | exiting
  | found
  | quitting
  | waking
  | calling
  | joining
  | done
  | destroyed
  | crashed
  deriving DecidableEq, Repr

structure State (T φ : Type*) where
  loop : Bool
  exiting : Bool
  thread : Thread
  queue : TaskQueue.State T φ
  position : Position
  owner : Owner
  asked : Bool
  quitReturned : Bool
  tested : Bool
  joins : ℕ
  detached : Bool
  terminated : Bool

inductive Label (T φ : Type*)
  | start
  | begin
  | semWait
  | publish
  | startLoop
  | queue (a : TaskQueue.Label T φ)
  | reset
  | finish
  | destructor
  | testLoop
  | loadLoop
  | storeQuit
  | wake
  | join
  | joinReturn
  | destroyThread

variable {T φ : Type*}

/-- Just constructed. -/
def start : State T φ :=
  ⟨false, false, .make, TaskQueue.start, .unborn, .constructed, false, false, false, 0, false,
    false⟩

namespace State

variable (s : State T φ)

/-- The loop exists. -/
def alive : Bool :=
  match s.position with
  | .published => true
  | .looping => true
  | .reset => true
  | _ => false

/-- `startLoop` has returned. -/
def handedOut : Bool :=
  match s.owner with
  | .constructed => false
  | .starting => false
  | .waiting => false
  | _ => true

end State

section Step

variable [DecidableEq T] (loopThread ownerThread : T)

/-- The thread runs code that may call members of the loop. -/
def State.MayCall (s : State T φ) (t : T) : Prop :=
  s.alive = true ∧ (t = loopThread ∨
    (s.handedOut = true ∧ (t = ownerThread → s.owner = .returned)))

instance (s : State T φ) (t : T) : Decidable (s.MayCall loopThread ownerThread t) :=
  inferInstanceAs (Decidable (_ ∧ _))

/-- The steps of the loop and of its callers that the owner leaves open. -/
def State.admits (s : State T φ) : TaskQueue.Label T φ → Bool
  | .enterLoop => s.position = .published
  | .push t _ => s.MayCall loopThread ownerThread t
  | .test t => s.MayCall loopThread ownerThread t
  | .wake t => s.MayCall loopThread ownerThread t
  | .quit t => s.MayCall loopThread ownerThread t
  | _ => s.alive

/-- The step stores `quit_ = true`. -/
def storesQuit : TaskQueue.Label T φ → Bool
  | .quit _ => true
  | _ => false

/-- The step is the end of a call of `quit`, which on the loop thread writes no
wakeup. -/
def endsQuit (q : TaskQueue.State T φ) : TaskQueue.Label T φ → Bool
  | .quit t => t = loopThread
  | .wake t => q.caller t = .quitting
  | _ => false

/-- A step `a` of the loop that leads to `q`. -/
def State.onQueue (s : State T φ) (a : TaskQueue.Label T φ) (q : TaskQueue.State T φ) :
    State T φ :=
  { s with
    queue := q
    position := match a with
      | .enterLoop => .looping
      | _ => s.position
    asked := s.asked || storesQuit a
    quitReturned := s.quitReturned || endsQuit loopThread s.queue a
    tested := match a with
      | .testQuit => s.tested || s.quitReturned
      | _ => s.tested }

/-- `quit` called by the destructor: the store, then the wakeup.  When the loop
is gone by then, they reach nothing. -/
def State.destructorStep (s : State T φ) (a : TaskQueue.Label T φ) (next : Owner) :
    Option (State T φ) :=
  if s.alive then
    (TaskQueue.step loopThread s.queue a).map fun q =>
      { s.onQueue loopThread a q with owner := next }
  else some { s with owner := next }

/-- One step of the owner, of the thread, or on its loop. -/
def step (s : State T φ) : Label T φ → Option (State T φ)
  | .start =>
    if s.owner = .constructed then
      some { s with thread := s.thread.start, position := .spawned, owner := .starting }
    else none
  | .begin =>
    if s.position = .spawned then some { s with position := .initialising } else none
  | .semWait =>
    -- the new thread has posted the semaphore
    if s.owner = .starting ∧ s.position ≠ .spawned then some { s with owner := .waiting }
    else none
  | .publish =>
    if s.position = .initialising then some { s with loop := true, position := .published }
    else none
  | .startLoop =>
    -- the predicate of `cond_.wait`
    if s.owner = .waiting ∧ s.loop = true then some { s with owner := .returned } else none
  | .queue a =>
    if s.admits loopThread ownerThread a then
      (TaskQueue.step loopThread s.queue a).map (s.onQueue loopThread a)
    else none
  | .reset =>
    match s.queue.phase with
    | .outside =>
      -- after `loop()` has returned
      if s.position = .looping then some { s with loop := false, position := .reset } else none
    | _ => none
  | .finish => if s.position = .reset then some { s with position := .ended } else none
  | .destructor =>
    if (s.owner = .constructed ∨ s.owner = .returned) ∧ s.queue.caller ownerThread = .idle then
      some { s with exiting := true, owner := .exiting }
    else none
  | .testLoop =>
    -- the first read of `loop_`; without a loop nothing is quit or joined
    if s.owner = .exiting then some { s with owner := if s.loop then .found else .done } else none
  | .loadLoop =>
    -- `loop_` may be null by now
    if s.owner = .found then some { s with owner := if s.loop then .quitting else .crashed }
    else none
  | .storeQuit =>
    if s.owner = .quitting then s.destructorStep loopThread (.quit ownerThread) .waking else none
  | .wake =>
    if s.owner = .waking then
      if s.queue.caller ownerThread = .quitting then
        s.destructorStep loopThread (.wake ownerThread) .calling
      else some { s with owner := .calling }
    else none
  | .join =>
    if s.owner = .calling then
      some { s with thread := { s.thread with joined := true }, owner := .joining }
    else none
  | .joinReturn =>
    -- `pthread_join` returns when `threadFunc` has
    if s.owner = .joining ∧ s.position = .ended then
      some { s with
        thread := { s.thread with joinable := false }, owner := .done, joins := s.joins + 1 }
    else none
  | .destroyThread =>
    if s.owner = .done then
      some { s with
        owner := .destroyed
        detached := s.thread.detaches
        terminated := s.thread.joinable }
    else none

/-- The steps, one constructor for each branch. -/
inductive Move (s : State T φ) : Label T φ → State T φ → Prop
  | start : s.owner = .constructed → Move s .start
      { s with thread := s.thread.start, position := .spawned, owner := .starting }
  | begin : s.position = .spawned → Move s .begin { s with position := .initialising }
  | semWait : s.owner = .starting → s.position ≠ .spawned → Move s .semWait
      { s with owner := .waiting }
  | publish : s.position = .initialising → Move s .publish
      { s with loop := true, position := .published }
  | startLoop : s.owner = .waiting → s.loop = true → Move s .startLoop
      { s with owner := .returned }
  | queue {a : TaskQueue.Label T φ} {q : TaskQueue.State T φ} :
      s.admits loopThread ownerThread a = true → TaskQueue.step loopThread s.queue a = some q →
      Move s (.queue a) (s.onQueue loopThread a q)
  | reset : s.queue.phase = .outside → s.position = .looping → Move s .reset
      { s with loop := false, position := .reset }
  | finish : s.position = .reset → Move s .finish { s with position := .ended }
  | destructor : s.owner = .constructed ∨ s.owner = .returned → Move s .destructor
      { s with exiting := true, owner := .exiting }
  | testFinds : s.owner = .exiting → s.loop = true → Move s .testLoop { s with owner := .found }
  | testMisses : s.owner = .exiting → s.loop = false → Move s .testLoop { s with owner := .done }
  | loadFinds : s.owner = .found → s.loop = true → Move s .loadLoop { s with owner := .quitting }
  | loadCrashes : s.owner = .found → s.loop = false → Move s .loadLoop
      { s with owner := .crashed }
  | storeQuit {q : TaskQueue.State T φ} : s.owner = .quitting → s.alive = true →
      TaskQueue.step loopThread s.queue (.quit ownerThread) = some q →
      Move s .storeQuit { s.onQueue loopThread (.quit ownerThread) q with owner := .waking }
  | storeLate : s.owner = .quitting → s.alive = false → Move s .storeQuit
      { s with owner := .waking }
  | wake {q : TaskQueue.State T φ} : s.owner = .waking → s.alive = true →
      TaskQueue.step loopThread s.queue (.wake ownerThread) = some q →
      Move s .wake { s.onQueue loopThread (.wake ownerThread) q with owner := .calling }
  | wakeLate : s.owner = .waking → Move s .wake { s with owner := .calling }
  | join : s.owner = .calling → Move s .join
      { s with thread := { s.thread with joined := true }, owner := .joining }
  | joinReturn : s.owner = .joining → s.position = .ended → Move s .joinReturn
      { s with
        thread := { s.thread with joinable := false }, owner := .done, joins := s.joins + 1 }
  | destroyThread : s.owner = .done → Move s .destroyThread
      { s with
        owner := .destroyed
        detached := s.thread.detaches
        terminated := s.thread.joinable }

variable {loopThread ownerThread} in
theorem move_of_step {s s' : State T φ} {a : Label T φ}
    (h : step loopThread ownerThread s a = some s') : Move loopThread ownerThread s a s' := by
  cases a with
  | start =>
    simp only [step] at h
    split_ifs at h with hg
    exact Option.some.inj h ▸ .start hg
  | begin =>
    simp only [step] at h
    split_ifs at h with hg
    exact Option.some.inj h ▸ .begin hg
  | semWait =>
    simp only [step] at h
    split_ifs at h with hg
    exact Option.some.inj h ▸ .semWait hg.1 hg.2
  | publish =>
    simp only [step] at h
    split_ifs at h with hg
    exact Option.some.inj h ▸ .publish hg
  | startLoop =>
    simp only [step] at h
    split_ifs at h with hg
    exact Option.some.inj h ▸ .startLoop hg.1 hg.2
  | queue a =>
    simp only [step] at h
    split_ifs at h with hg
    obtain ⟨q, hq, rfl⟩ := Option.map_eq_some_iff.mp h
    exact .queue hg hq
  | reset =>
    simp only [step] at h
    split at h
    next hp =>
      split_ifs at h with hg
      exact Option.some.inj h ▸ .reset hp hg
    next => exact absurd h (by simp)
  | finish =>
    simp only [step] at h
    split_ifs at h with hg
    exact Option.some.inj h ▸ .finish hg
  | destructor =>
    simp only [step] at h
    split_ifs at h with hg
    exact Option.some.inj h ▸ .destructor hg.1
  | testLoop =>
    simp only [step] at h
    split_ifs at h with hg hl
    · exact Option.some.inj h ▸ .testFinds hg hl
    · exact Option.some.inj h ▸ .testMisses hg (by simpa using hl)
  | loadLoop =>
    simp only [step] at h
    split_ifs at h with hg hl
    · exact Option.some.inj h ▸ .loadFinds hg hl
    · exact Option.some.inj h ▸ .loadCrashes hg (by simpa using hl)
  | storeQuit =>
    simp only [step, State.destructorStep] at h
    split_ifs at h with hg hl
    · obtain ⟨q, hq, rfl⟩ := Option.map_eq_some_iff.mp h
      exact .storeQuit hg hl hq
    · exact Option.some.inj h ▸ .storeLate hg (by simpa using hl)
  | wake =>
    simp only [step, State.destructorStep] at h
    split_ifs at h with hg hc hl
    · obtain ⟨q, hq, rfl⟩ := Option.map_eq_some_iff.mp h
      exact .wake hg hl hq
    · exact Option.some.inj h ▸ .wakeLate hg
    · exact Option.some.inj h ▸ .wakeLate hg
  | join =>
    simp only [step] at h
    split_ifs at h with hg
    exact Option.some.inj h ▸ .join hg
  | joinReturn =>
    simp only [step] at h
    split_ifs at h with hg
    exact Option.some.inj h ▸ .joinReturn hg.1 hg.2
  | destroyThread =>
    simp only [step] at h
    split_ifs at h with hg
    exact Option.some.inj h ▸ .destroyThread hg

def system : Machine (State T φ) (Label T φ) where
  init s := s = EventLoopThread.start
  step := step loopThread ownerThread

/-! ### The loop of the thread -/

variable {loopThread ownerThread}

/-- What the owner and the thread do to the loop are steps of the loop, so the
queue of the loop behaves as `TaskQueue` does. -/
theorem simulates_taskQueue :
    Machine.Simulation (system loopThread ownerThread : Machine (State T φ) (Label T φ))
      (TaskQueue.system loopThread) (fun _ _ => True) (fun _ => True) State.queue where
  init s hs := by
    obtain rfl : s = EventLoopThread.start := hs
    rfl
  step s a s' _ _ h := by
    cases move_of_step h with
    | queue _ hq => exact .inr ⟨_, hq⟩
    | storeQuit _ _ hq => exact .inr ⟨.quit ownerThread, hq⟩
    | wake _ _ hq => exact .inr ⟨.wake ownerThread, hq⟩
    | _ => exact .inl rfl

theorem queue_reachable {s : State T φ} (hs : (system loopThread ownerThread).Reachable s) :
    (TaskQueue.system loopThread).Reachable s.queue :=
  simulates_taskQueue.reachable (fun _ => trivial) hs

/-- The functors handed to the thread run in the order in which they were pushed. -/
theorem functors_ordered {s : State T φ} (hs : (system loopThread ownerThread).Reachable s) :
    TaskQueue.Ordered s.queue :=
  (TaskQueue.inv_reachable (queue_reachable hs)).ordered

end Step

end EventLoopThread

end Moduo
