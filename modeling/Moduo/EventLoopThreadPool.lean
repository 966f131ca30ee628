/-
The thread pool of a server (`EventLoopThreadPool.cc`, `EventLoopThread.cc`).

`start` constructs `numThreads` loop threads one after another; `startLoop`
starts each and waits for the loop it publishes.  A thread calls its init
callback, when it has one, before it publishes its loop; a pool without threads
calls it on the base loop.

* `step` — the steps of `start` on the base loop's thread, interleaved with
  those of the threads it has started, up to their calls of `loop()`;
* `ensures_start` — every call of `start` on a fresh pool returns, with all its
  loops published and the init callback called once on each of them, or once on
  the base loop if there are none.

A thread of the pool is an `EventLoopThread` with its callback, and takes steps
of it.  Ghost fields: `starts`, how often `start` was called; `invoked`, the
calls of init callbacks; `called`, the thread is past the call of its own.
-/
import Moduo.EventLoopThread
import Moduo.Lib.Tally

namespace Moduo

/-- A pointer to a loop, which also names the thread of that loop: the base
loop, and the loop of the `k`th thread of the pool. -/
inductive LoopPtr
  | base
  | io (k : ℕ)
  deriving DecidableEq, Repr

/-- An `EventLoopThread` with its init callback, which an empty `std::function`
leaves out, and its loop. -/
structure PoolThread (φ C : Type*) where
  name : String
  callback : Option C
  called : Bool
  loop : LoopPtr
  thread : EventLoopThread.State LoopPtr φ

variable {φ C : Type*}

namespace PoolThread

def make (name : String) (callback : Option C) (loop : LoopPtr) : PoolThread φ C :=
  ⟨name, callback, false, loop, EventLoopThread.start⟩

variable (th : PoolThread φ C)

/-- A step of the `EventLoopThread`. -/
def perform (a : EventLoopThread.Label LoopPtr φ) : Option (PoolThread φ C) :=
  (EventLoopThread.step th.loop .base th.thread a).map fun s => { th with thread := s }

/-- The next step of its owner in `startLoop`. -/
def startLoop : Option (PoolThread φ C) :=
  match th.thread.owner with
  | .constructed => th.perform .start
  | .starting => th.perform .semWait
  | .waiting => th.perform .startLoop
  | _ => none

/-- The next step of the thread before `loop()`, with the callback it makes. -/
def threadFunc : Option (PoolThread φ C × List (C × LoopPtr)) :=
  match th.thread.position with
  | .spawned => (th.perform .begin).map fun u => (u, [])
  | .initialising =>
    -- the callback runs before the loop is published
    if th.called then (th.perform .publish).map fun u => (u, [])
    else some ({ th with called := true }, th.callback.toList.map fun c => (c, th.loop))
  | _ => none

/-! ### A thread on its way to its loop -/

variable {th u : PoolThread φ C}

/-- The steps of `startLoop`. -/
inductive Launch (th : PoolThread φ C) : PoolThread φ C → Prop
  | start : th.thread.owner = .constructed → Launch th
      { th with thread := { th.thread with
        thread := th.thread.thread.start, position := .spawned, owner := .starting } }
  | semWait : th.thread.owner = .starting → th.thread.position ≠ .spawned → Launch th
      { th with thread := { th.thread with owner := .waiting } }
  | startLoop : th.thread.owner = .waiting → th.thread.loop = true → Launch th
      { th with thread := { th.thread with owner := .returned } }

theorem launch_of_startLoop (h : th.startLoop = some u) : Launch th u := by
  rw [startLoop] at h
  split at h
  · obtain ⟨s, hs, rfl⟩ := Option.map_eq_some_iff.mp h
    cases EventLoopThread.move_of_step hs with
    | start ho => exact .start ho
  · obtain ⟨s, hs, rfl⟩ := Option.map_eq_some_iff.mp h
    cases EventLoopThread.move_of_step hs with
    | semWait ho hp => exact .semWait ho hp
  · obtain ⟨s, hs, rfl⟩ := Option.map_eq_some_iff.mp h
    cases EventLoopThread.move_of_step hs with
    | startLoop ho hl => exact .startLoop ho hl
  · exact absurd h (by simp)

/-- `startLoop` takes a step of the `EventLoopThread`. -/
theorem step_of_startLoop (h : th.startLoop = some u) : u.loop = th.loop ∧
    ∃ a, EventLoopThread.step th.loop .base th.thread a = some u.thread := by
  rw [startLoop] at h
  split at h
  all_goals
    first
    | exact absurd h (by simp)
    | obtain ⟨s, hs, rfl⟩ := Option.map_eq_some_iff.mp h
      exact ⟨rfl, _, hs⟩

/-- The steps of `threadFunc`, with the callbacks made. -/
inductive Enter (th : PoolThread φ C) : PoolThread φ C → List (C × LoopPtr) → Prop
  | begin : th.thread.position = .spawned → Enter th
      { th with thread := { th.thread with position := .initialising } } []
  | call : th.thread.position = .initialising → th.called = false → Enter th
      { th with called := true } (th.callback.toList.map fun c => (c, th.loop))
  | publish : th.thread.position = .initialising → th.called = true → Enter th
      { th with thread := { th.thread with loop := true, position := .published } } []

theorem enter_of_threadFunc {r : PoolThread φ C × List (C × LoopPtr)}
    (h : th.threadFunc = some r) : Enter th r.1 r.2 := by
  rw [threadFunc] at h
  split at h
  next hpos =>
    obtain ⟨v, hv, rfl⟩ := Option.map_eq_some_iff.mp h
    obtain ⟨s, hs, rfl⟩ := Option.map_eq_some_iff.mp hv
    cases EventLoopThread.move_of_step hs with
    | begin => exact .begin hpos
  next hpos =>
    split_ifs at h with hcalled
    · obtain ⟨v, hv, rfl⟩ := Option.map_eq_some_iff.mp h
      obtain ⟨s, hs, rfl⟩ := Option.map_eq_some_iff.mp hv
      cases EventLoopThread.move_of_step hs with
      | publish => exact .publish hpos hcalled
    · exact Option.some.inj h ▸ .call hpos (by simpa using hcalled)
  next => exact absurd h (by simp)

/-- `threadFunc` takes a step of the `EventLoopThread`, or calls its callback. -/
theorem step_of_threadFunc {r : PoolThread φ C × List (C × LoopPtr)}
    (h : th.threadFunc = some r) : r.1.loop = th.loop ∧ (r.1.thread = th.thread ∨
      ∃ a, EventLoopThread.step th.loop .base th.thread a = some r.1.thread) := by
  rw [threadFunc] at h
  split at h
  · obtain ⟨v, hv, rfl⟩ := Option.map_eq_some_iff.mp h
    obtain ⟨s, hs, rfl⟩ := Option.map_eq_some_iff.mp hv
    exact ⟨rfl, .inr ⟨_, hs⟩⟩
  · split_ifs at h
    · obtain ⟨v, hv, rfl⟩ := Option.map_eq_some_iff.mp h
      obtain ⟨s, hs, rfl⟩ := Option.map_eq_some_iff.mp hv
      exact ⟨rfl, .inr ⟨_, hs⟩⟩
    · obtain rfl := Option.some.inj h
      exact ⟨rfl, .inl rfl⟩
  · exact absurd h (by simp)

/-- How far the thread and its owner are. -/
inductive Stage (th : PoolThread φ C) : Prop
  | constructed : th.thread.owner = .constructed → th.thread.position = .unborn →
      th.thread.loop = false → th.called = false → Stage th
  | spawned : th.thread.owner = .starting → th.thread.position = .spawned →
      th.thread.loop = false → th.called = false → Stage th
  | initialising : th.thread.owner = .starting ∨ th.thread.owner = .waiting →
      th.thread.position = .initialising → th.thread.loop = false → Stage th
  | published : th.thread.owner = .starting ∨ th.thread.owner = .waiting ∨
      th.thread.owner = .returned → th.thread.position = .published → th.thread.loop = true →
      th.called = true → Stage th

theorem stage_make (name : String) (callback : Option C) (loop : LoopPtr) :
    Stage (make name callback loop : PoolThread φ C) :=
  .constructed rfl rfl rfl rfl

theorem Stage.of_constructed (h : Stage th) (ho : th.thread.owner = .constructed) :
    th.thread.position = .unborn ∧ th.thread.loop = false ∧ th.called = false := by
  cases h with
  | constructed _ hp hl hc => exact ⟨hp, hl, hc⟩
  | _ => simp_all

theorem Stage.of_spawned (h : Stage th) (hp : th.thread.position = .spawned) :
    th.thread.owner = .starting ∧ th.thread.loop = false := by
  cases h with
  | spawned ho _ hl => exact ⟨ho, hl⟩
  | _ => simp_all

theorem Stage.of_initialising (h : Stage th) (hp : th.thread.position = .initialising) :
    (th.thread.owner = .starting ∨ th.thread.owner = .waiting) ∧ th.thread.loop = false := by
  cases h with
  | initialising ho _ hl => exact ⟨ho, hl⟩
  | _ => simp_all

theorem Stage.of_loop (h : Stage th) (hl : th.thread.loop = true) :
    th.thread.position = .published ∧ th.called = true := by
  cases h with
  | published _ hp _ hc => exact ⟨hp, hc⟩
  | _ => simp_all

/-- `startLoop` returns a loop that is published and initialised. -/
theorem Stage.of_returned (h : Stage th) (hr : th.thread.owner = .returned) :
    th.thread.loop = true ∧ th.called = true := by
  cases h with
  | published _ _ hl hc => exact ⟨hl, hc⟩
  | _ => simp_all

theorem Launch.stage (hm : Launch th u) (h : Stage th) : Stage u := by
  cases hm with
  | start ho =>
    obtain ⟨-, hl, hc⟩ := h.of_constructed ho
    exact .spawned rfl rfl hl hc
  | semWait ho hp =>
    cases h with
    | constructed ho' => exact absurd (ho.symm.trans ho') (by simp)
    | spawned _ hp' => exact absurd hp' hp
    | initialising _ hp' hl => exact .initialising (.inr rfl) hp' hl
    | published _ hp' hl hc => exact .published (.inr (.inl rfl)) hp' hl hc
  | startLoop _ hl =>
    obtain ⟨hp, hc⟩ := h.of_loop hl
    exact .published (.inr (.inr rfl)) hp hl hc

theorem Enter.stage {made : List (C × LoopPtr)} (hm : Enter th u made) (h : Stage th) :
    Stage u := by
  cases hm with
  | begin hp =>
    obtain ⟨ho, hl⟩ := h.of_spawned hp
    exact .initialising (.inl ho) rfl hl
  | call hp =>
    obtain ⟨ho, hl⟩ := h.of_initialising hp
    exact .initialising ho hp hl
  | publish hp hc =>
    obtain ⟨ho | ho, -⟩ := h.of_initialising hp
    · exact .published (.inl ho) rfl rfl hc
    · exact .published (.inr (.inl ho)) rfl rfl hc

/-- Until `startLoop` returns, its next step is possible, or the thread's is. -/
theorem Stage.progress (h : Stage th) (hr : th.thread.owner ≠ .returned) :
    (∃ u, th.startLoop = some u) ∨ ∃ r, th.threadFunc = some r := by
  cases h with
  | constructed ho =>
    left
    simp [startLoop, perform, EventLoopThread.step, ho]
  | spawned _ hp =>
    right
    simp [threadFunc, perform, EventLoopThread.step, hp]
  | initialising _ hp =>
    right
    cases hc : th.called with
    | false => simp [threadFunc, hp, hc]
    | true => simp [threadFunc, perform, EventLoopThread.step, hp, hc]
  | published ho hp hl =>
    left
    rcases ho with ho | ho | ho
    · simp [startLoop, perform, EventLoopThread.step, ho, hp]
    · simp [startLoop, perform, EventLoopThread.step, ho, hl]
    · exact absurd ho hr

/-- How many steps are left. -/
def remaining (th : PoolThread φ C) : ℕ :=
  (match th.thread.owner with
    | .constructed => 3
    | .starting => 2
    | .waiting => 1
    | _ => 0) +
  match th.thread.position with
    | .unborn => 3
    | .spawned => 3
    | .initialising => if th.called then 1 else 2
    | _ => 0

theorem Launch.remaining (hm : Launch th u) (h : Stage th) : u.remaining < th.remaining := by
  cases hm with
  | start ho =>
    obtain ⟨hp, -, -⟩ := h.of_constructed ho
    simp [PoolThread.remaining, ho, hp]
  | semWait ho => simp [PoolThread.remaining, ho]
  | startLoop ho => simp [PoolThread.remaining, ho]

theorem Enter.remaining {made : List (C × LoopPtr)} (hm : Enter th u made) :
    u.remaining < th.remaining := by
  cases hm with
  | begin hp =>
    simp only [PoolThread.remaining, hp]
    split_ifs <;> omega
  | call hp hc => simp [PoolThread.remaining, hp, hc]
  | publish hp hc => simp [PoolThread.remaining, hp, hc]

theorem Launch.keeps (hm : Launch th u) :
    u.callback = th.callback ∧ u.loop = th.loop ∧ u.called = th.called := by
  cases hm <;> exact ⟨rfl, rfl, rfl⟩

theorem Enter.keeps {made : List (C × LoopPtr)} (hm : Enter th u made) :
    u.callback = th.callback ∧ u.loop = th.loop ∧ u.thread.owner = th.thread.owner := by
  cases hm <;> exact ⟨rfl, rfl, rfl⟩

end PoolThread

/-- Where the base loop's thread is in `start(cb)`, at counter `i`: at the test
of the loop; in `startLoop` of the thread it has constructed. -/
inductive Control (C : Type*)
  | idle
  | testing (cb : Option C) (i : ℕ)
  | launching (cb : Option C) (i : ℕ)
  deriving DecidableEq, Repr

structure EventLoopThreadPool (φ C : Type*) where
  name : String
  numThreads : ℕ
  started : Bool
  threads : List (PoolThread φ C)
  loops : List LoopPtr
  control : Control C
  starts : ℕ
  invoked : List (C × LoopPtr)

namespace EventLoopThreadPool

def make (name : String) : EventLoopThreadPool φ C := ⟨name, 0, false, [], [], .idle, 0, []⟩

def setThreadNum (numThreads : ℕ) (p : EventLoopThreadPool φ C) : EventLoopThreadPool φ C :=
  { p with numThreads := numThreads }

/-- The call of `start(cb)`, up to its loop. -/
def start (cb : Option C) (p : EventLoopThreadPool φ C) : EventLoopThreadPool φ C :=
  { p with started := true, control := .testing cb 0, starts := p.starts + 1 }

/-- `owner` is the base loop's thread; `thread k` the `k`th thread of the pool. -/
inductive Label
  | owner
  | thread (k : ℕ)
  deriving DecidableEq, Repr

/-- `if(numThreads_ == 0 && cb) cb(baseLoop_);` -/
def baseCalls (numThreads : ℕ) (cb : Option C) : List (C × LoopPtr) :=
  if numThreads = 0 then cb.toList.map fun c => (c, .base) else []

/-- The base loop's thread: the loop of `start` and what follows it. -/
def stepOwner (p : EventLoopThreadPool φ C) : Option (EventLoopThreadPool φ C) :=
  match p.control with
  | .idle => none
  | .testing cb i =>
    if i < p.numThreads then
      some { p with
        threads := p.threads ++ [.make (p.name ++ toString i) cb (.io p.threads.length)]
        control := .launching cb i }
    else
      -- all threads are started; the base loop gets the callback if there are none
      some { p with control := .idle, invoked := p.invoked ++ baseCalls p.numThreads cb }
  | .launching cb i =>
    -- `t` is the thread pushed last
    match p.threads[p.threads.length - 1]? with
    | none => none
    | some t => t.startLoop.map fun u =>
      let q := { p with threads := p.threads.set (p.threads.length - 1) u }
      if u.thread.owner = .returned then
        -- `loops_.push_back(t->startLoop())`
        { q with loops := p.loops ++ [u.loop], control := .testing cb (i + 1) }
      else q

def stepThread (p : EventLoopThreadPool φ C) (k : ℕ) : Option (EventLoopThreadPool φ C) :=
  match p.threads[k]? with
  | none => none
  | some t => t.threadFunc.map fun r =>
    { p with threads := p.threads.set k r.1, invoked := p.invoked ++ r.2 }

def step (p : EventLoopThreadPool φ C) : Label → Option (EventLoopThreadPool φ C)
  | .owner => p.stepOwner
  | .thread k => p.stepThread k

/-! ### Inversion -/

variable {p q : EventLoopThreadPool φ C}

/-- The steps, one constructor for each branch. -/
inductive Move (p : EventLoopThreadPool φ C) : Label → EventLoopThreadPool φ C → Prop
  | create {cb : Option C} {i : ℕ} : p.control = .testing cb i → i < p.numThreads →
      Move p .owner { p with
        threads := p.threads ++ [.make (p.name ++ toString i) cb (.io p.threads.length)]
        control := .launching cb i }
  | leave {cb : Option C} {i : ℕ} : p.control = .testing cb i → p.numThreads ≤ i →
      Move p .owner { p with
        control := .idle, invoked := p.invoked ++ baseCalls p.numThreads cb }
  | launch {cb : Option C} {i : ℕ} {t u : PoolThread φ C} : p.control = .launching cb i →
      p.threads[p.threads.length - 1]? = some t → t.Launch u → u.thread.owner ≠ .returned →
      Move p .owner { p with threads := p.threads.set (p.threads.length - 1) u }
  | launched {cb : Option C} {i : ℕ} {t u : PoolThread φ C} : p.control = .launching cb i →
      p.threads[p.threads.length - 1]? = some t → t.Launch u → u.thread.owner = .returned →
      Move p .owner { p with
        threads := p.threads.set (p.threads.length - 1) u
        loops := p.loops ++ [u.loop]
        control := .testing cb (i + 1) }
  | thread {k : ℕ} {t u : PoolThread φ C} {made : List (C × LoopPtr)} :
      p.threads[k]? = some t → t.Enter u made →
      Move p (.thread k) { p with threads := p.threads.set k u, invoked := p.invoked ++ made }

theorem move_of_step {a : Label} (h : p.step a = some q) : Move p a q := by
  cases a with
  | owner =>
    simp only [step, stepOwner] at h
    split at h
    next => exact absurd h (by simp)
    next cb i hcontrol =>
      by_cases hi : i < p.numThreads
      · rw [if_pos hi] at h
        exact Option.some.inj h ▸ .create hcontrol hi
      · rw [if_neg hi] at h
        exact Option.some.inj h ▸ .leave hcontrol (Nat.le_of_not_lt hi)
    next cb i hcontrol =>
      split at h
      next => exact absurd h (by simp)
      next t ht =>
        obtain ⟨u, hu, hq⟩ := Option.map_eq_some_iff.mp h
        have hm := PoolThread.launch_of_startLoop hu
        split_ifs at hq with hr
        · exact hq ▸ .launched hcontrol ht hm hr
        · exact hq ▸ .launch hcontrol ht hm hr
  | thread k =>
    simp only [step, stepThread] at h
    split at h
    next => exact absurd h (by simp)
    next t ht =>
      obtain ⟨r, hr, rfl⟩ := Option.map_eq_some_iff.mp h
      exact .thread ht (PoolThread.enter_of_threadFunc hr)

/-! ### The threads of a pool -/

/-- The threads for which `startLoop` has not returned yet. -/
def pending : Control C → ℕ
  | .launching _ _ => 1
  | _ => 0

/-- What holds of the `k`th thread. -/
structure Owns (p : EventLoopThreadPool φ C) (k : ℕ) (t : PoolThread φ C) : Prop where
  stage : t.Stage
  loop : t.loop = .io k
  returned : t.thread.owner = .returned ↔ k < p.loops.length

structure Inv (p : EventLoopThreadPool φ C) : Prop where
  owns : ∀ k t, p.threads[k]? = some t → Owns p k t
  loops : p.loops = (List.range p.loops.length).map .io
  length : p.threads.length = p.loops.length + pending p.control
  counter : ∀ cb i, p.control = .launching cb i → i < p.numThreads

theorem inv_make (name : String) : Inv (make name : EventLoopThreadPool φ C) :=
  ⟨fun _ _ h => absurd h (by simp [make]), rfl, rfl, fun _ _ h => absurd h (by simp [make])⟩

/-- The threads after one of them has been replaced. -/
theorem getElem?_set_cases {ts : List (PoolThread φ C)} {j k : ℕ} {u v : PoolThread φ C}
    (h : (ts.set k u)[j]? = some v) : (j = k ∧ v = u) ∨ (j ≠ k ∧ ts[j]? = some v) := by
  rw [List.getElem?_set] at h
  split_ifs at h with hkj hk
  · exact .inl ⟨hkj.symm, (Option.some.inj h).symm⟩
  · exact .inr ⟨Ne.symm hkj, h⟩

/-- The threads after one more has been constructed. -/
theorem getElem?_append_cases {ts : List (PoolThread φ C)} {k : ℕ} {u v : PoolThread φ C}
    (h : (ts ++ [u])[k]? = some v) : ts[k]? = some v ∨ (k = ts.length ∧ v = u) := by
  rw [List.getElem?_append] at h
  split_ifs at h with hk
  · exact .inl h
  · obtain ⟨hzero, hv⟩ := List.getElem?_eq_some_iff.mp h
    rw [List.length_singleton] at hzero
    rw [List.getElem_singleton] at hv
    exact .inr ⟨by omega, hv.symm⟩

theorem Inv.last (h : Inv p) {cb : Option C} {i : ℕ} (hcontrol : p.control = .launching cb i) :
    p.threads.length - 1 = p.loops.length := by
  have hlength := h.length
  rw [hcontrol] at hlength
  exact Nat.sub_eq_of_eq_add hlength

/-- No thread of the pool runs the base loop. -/
theorem Inv.base_ne (h : Inv p) {k : ℕ} {t : PoolThread φ C} (ht : p.threads[k]? = some t) :
    LoopPtr.base ≠ t.loop := by
  rw [(h.owns k t ht).loop]
  simp

theorem inv_move {a : Label} (h : Inv p) (hm : Move p a q) : Inv q := by
  cases hm with
  | create hcontrol hi =>
    have hlength : p.threads.length = p.loops.length := by
      have hlen := h.length
      rwa [hcontrol] at hlen
    refine ⟨fun k t ht => ?_, h.loops, ?_, ?_⟩
    · rcases getElem?_append_cases ht with ht | ⟨rfl, rfl⟩
      · obtain ⟨hstage, hloop, hreturned⟩ := h.owns k t ht
        exact ⟨hstage, hloop, hreturned⟩
      · -- the new thread is the last one, and its loop is not in `loops_` yet
        exact ⟨PoolThread.stage_make _ _ _, rfl, iff_of_false (by simp [PoolThread.make,
          EventLoopThread.start]) (by show ¬ p.threads.length < p.loops.length; omega)⟩
    · show (p.threads ++ [_]).length = p.loops.length + 1
      rw [List.length_append, hlength, List.length_singleton]
    · intro cb' i' hcontrol'
      obtain ⟨-, rfl⟩ := Control.launching.inj hcontrol'
      exact hi
  | leave hcontrol =>
    refine ⟨fun k t ht => ?_, h.loops, ?_, fun _ _ hidle => absurd hidle (by simp)⟩
    · obtain ⟨hstage, hloop, hreturned⟩ := h.owns k t ht
      exact ⟨hstage, hloop, hreturned⟩
    · have hlength := h.length
      rwa [hcontrol] at hlength
  | launch hcontrol ht hm hr =>
    have hlast := h.last hcontrol
    obtain ⟨-, hloop, -⟩ := hm.keeps
    refine ⟨fun j v hv => ?_, h.loops, ?_, h.counter⟩
    · rcases getElem?_set_cases hv with ⟨rfl, rfl⟩ | ⟨-, hv⟩
      · have howns := h.owns _ _ ht
        exact ⟨hm.stage howns.stage, hloop.trans howns.loop,
          iff_of_false hr (by show ¬ p.threads.length - 1 < p.loops.length; omega)⟩
      · obtain ⟨hstage, hl, hreturned⟩ := h.owns j v hv
        exact ⟨hstage, hl, hreturned⟩
    · show (p.threads.set _ _).length = p.loops.length + pending p.control
      rw [List.length_set]
      exact h.length
  | @launched cb i t u hcontrol ht hm hr =>
    have hlast := h.last hcontrol
    obtain ⟨-, hloop, -⟩ := hm.keeps
    have howns := h.owns _ _ ht
    have hlength : p.threads.length = p.loops.length + 1 := by
      have hlen := h.length
      rwa [hcontrol] at hlen
    have hgrow : (p.loops ++ [u.loop]).length = p.loops.length + 1 := by
      rw [List.length_append, List.length_singleton]
    refine ⟨fun j v hv => ?_, ?_, ?_, fun _ _ htesting => absurd htesting (by simp)⟩
    · rcases getElem?_set_cases hv with ⟨rfl, rfl⟩ | ⟨hj, hv⟩
      · refine ⟨hm.stage howns.stage, hloop.trans howns.loop, iff_of_true hr ?_⟩
        show p.threads.length - 1 < (p.loops ++ [_]).length
        omega
      · obtain ⟨hstage, hl, hreturned⟩ := h.owns j v hv
        refine ⟨hstage, hl, ?_⟩
        show v.thread.owner = .returned ↔ j < (p.loops ++ [u.loop]).length
        rw [hreturned, hgrow]
        omega
    · -- `push_back` puts the loop at the index of its thread
      show p.loops ++ [u.loop] = (List.range (p.loops ++ [u.loop]).length).map .io
      rw [hgrow, List.range_succ, List.map_append, ← h.loops, hloop, howns.loop, hlast]
      rfl
    · show (p.threads.set _ _).length = (p.loops ++ [u.loop]).length + 0
      rw [List.length_set, hgrow, hlength]
  | thread ht hm =>
    obtain ⟨-, hloop, howner⟩ := hm.keeps
    refine ⟨fun j v hv => ?_, h.loops, ?_, h.counter⟩
    · rcases getElem?_set_cases hv with ⟨rfl, rfl⟩ | ⟨-, hv⟩
      · have howns := h.owns _ _ ht
        exact ⟨hm.stage howns.stage, hloop.trans howns.loop, howner ▸ howns.returned⟩
      · obtain ⟨hstage, hl, hreturned⟩ := h.owns j v hv
        exact ⟨hstage, hl, hreturned⟩
    · show (p.threads.set _ _).length = p.loops.length + pending p.control
      rw [List.length_set]
      exact h.length

/-- Replacing a thread keeps what holds of all. -/
theorem forall_mem_set {ts : List (PoolThread φ C)} {P : PoolThread φ C → Prop} {k : ℕ}
    {u : PoolThread φ C} (h : ∀ t ∈ ts, P t) (hu : P u) : ∀ t ∈ ts.set k u, P t := by
  intro t ht
  rcases List.mem_or_eq_of_mem_set ht with ht | rfl
  · exact h t ht
  · exact hu

/-- The threads of a pool do what an `EventLoopThread` may do. -/
theorem threads_reachable {a : Label}
    (h : ∀ t ∈ p.threads, (EventLoopThread.system t.loop .base).Reachable t.thread)
    (hstep : p.step a = some q) :
    ∀ t ∈ q.threads, (EventLoopThread.system t.loop .base).Reachable t.thread := by
  cases a with
  | owner =>
    simp only [step, stepOwner] at hstep
    split at hstep
    next => exact absurd hstep (by simp)
    next cb i _ =>
      by_cases hi : i < p.numThreads
      · rw [if_pos hi] at hstep
        obtain rfl := Option.some.inj hstep
        intro t ht
        rcases List.mem_append.mp ht with ht | ht
        · exact h t ht
        · obtain rfl := List.mem_singleton.mp ht
          exact .init rfl
      · rw [if_neg hi] at hstep
        obtain rfl := Option.some.inj hstep
        exact h
    next cb i _ =>
      split at hstep
      next => exact absurd hstep (by simp)
      next t ht =>
        obtain ⟨u, hu, hq⟩ := Option.map_eq_some_iff.mp hstep
        obtain ⟨hloop, b, hb⟩ := PoolThread.step_of_startLoop hu
        have hreach : (EventLoopThread.system u.loop .base).Reachable u.thread := by
          rw [hloop]
          exact (h t (List.mem_of_getElem? ht)).next hb
        have hthreads : q.threads = p.threads.set (p.threads.length - 1) u := by
          split_ifs at hq
          · rw [← hq]
          · rw [← hq]
        rw [hthreads]
        exact forall_mem_set h hreach
  | thread k =>
    simp only [step, stepThread] at hstep
    split at hstep
    next => exact absurd hstep (by simp)
    next t ht =>
      obtain ⟨r, hr, rfl⟩ := Option.map_eq_some_iff.mp hstep
      obtain ⟨hloop, hsteps⟩ := PoolThread.step_of_threadFunc hr
      have hold := h t (List.mem_of_getElem? ht)
      have hreach : (EventLoopThread.system r.1.loop .base).Reachable r.1.thread := by
        rw [hloop]
        rcases hsteps with hsame | ⟨b, hb⟩
        · rw [hsame]
          exact hold
        · exact hold.next hb
      exact forall_mem_set h hreach

/-- Between two calls of `start` the number of threads may change. -/
theorem Inv.setThreadNum (h : Inv p) (hidle : p.control = .idle) (n : ℕ) :
    Inv (p.setThreadNum n) := by
  refine ⟨fun k t ht => ?_, h.loops, h.length, fun _ _ hc => absurd (hidle.symm.trans hc) (by simp)⟩
  obtain ⟨hstage, hloop, hreturned⟩ := h.owns k t ht
  exact ⟨hstage, hloop, hreturned⟩

theorem Inv.start (h : Inv p) (hidle : p.control = .idle) (cb : Option C) : Inv (p.start cb) := by
  refine ⟨fun k t ht => ?_, h.loops, ?_,
    fun _ _ hc => absurd hc (by simp [EventLoopThreadPool.start])⟩
  · obtain ⟨hstage, hloop, hreturned⟩ := h.owns k t ht
    exact ⟨hstage, hloop, hreturned⟩
  · have hlength := h.length
    rwa [hidle] at hlength

/-- The loops that `start` has still to append. -/
def owed (p : EventLoopThreadPool φ C) : ℕ :=
  match p.control with
  | .idle => 0
  | .testing _ i => p.numThreads - i
  | .launching _ i => p.numThreads - i

theorem owed_of_idle (h : p.control = .idle) : p.owed = 0 := by
  rw [owed, h]

theorem Move.keeps {a : Label} (hm : Move p a q) :
    q.name = p.name ∧ q.numThreads = p.numThreads ∧ q.starts = p.starts := by
  cases hm <;> exact ⟨rfl, rfl, rfl⟩

theorem owed_move {a : Label} (h : Inv p) (hm : Move p a q) :
    q.loops.length + q.owed = p.loops.length + p.owed := by
  cases hm with
  | create hcontrol hi => simp [owed, hcontrol]
  | leave hcontrol hi =>
    have hnone : p.numThreads - _ = 0 := Nat.sub_eq_zero_of_le hi
    simp [owed, hcontrol, hnone]
  | launch hcontrol => simp [owed, hcontrol]
  | @launched cb i t u hcontrol =>
    have hi : i < p.numThreads := h.counter cb i hcontrol
    simp only [owed, hcontrol, List.length_append, List.length_singleton]
    omega
  | thread => simp [owed]

/-! ### `start` returns -/

/-- How many steps are left. -/
def remaining (p : EventLoopThreadPool φ C) : ℕ :=
  (match p.control with
    | .idle => 0
    | .testing _ i => 8 * (p.numThreads - i) + 1
    | .launching _ i => 8 * (p.numThreads - (i + 1)) + 1) +
  weight PoolThread.remaining p.threads

theorem remaining_move {a : Label} (h : Inv p) (hm : Move p a q) : q.remaining < p.remaining := by
  cases hm with
  | @create cb i hcontrol hi =>
    have hnew : (PoolThread.make (p.name ++ toString i) cb (.io p.threads.length) :
        PoolThread φ C).remaining = 6 := rfl
    simp only [remaining, hcontrol, weight_append, weight_cons, weight_nil, hnew]
    omega
  | leave hcontrol hi =>
    simp only [remaining, hcontrol]
    omega
  | @launch cb i t u hcontrol ht hm =>
    have hlower := hm.remaining (h.owns _ _ ht).stage
    have hset := weight_set (w := PoolThread.remaining) ht u
    simp only [remaining, hcontrol]
    omega
  | @launched cb i t u hcontrol ht hm =>
    have hlower := hm.remaining (h.owns _ _ ht).stage
    have hset := weight_set (w := PoolThread.remaining) ht u
    simp only [remaining, hcontrol]
    omega
  | @thread k t u made ht hm =>
    have hlower := hm.remaining
    have hset := weight_set (w := PoolThread.remaining) ht u
    simp only [remaining]
    omega

/-- While `start` runs, some step is possible: its own, or one of the thread it
waits for. -/
theorem progress (h : Inv p) (hcontrol : p.control ≠ .idle) : ∃ a q, p.step a = some q := by
  cases hc : p.control with
  | idle => exact absurd hc hcontrol
  | testing cb i =>
    refine ⟨.owner, ?_⟩
    simp only [step, stepOwner, hc]
    split_ifs
    · exact ⟨_, rfl⟩
    · exact ⟨_, rfl⟩
  | launching cb i =>
    have hlast := h.last hc
    have hlength := h.length
    rw [hc] at hlength
    have hlt : p.threads.length - 1 < p.threads.length := by
      rw [hlength]
      exact Nat.lt_succ_self _
    obtain ⟨t, ht⟩ : ∃ t, p.threads[p.threads.length - 1]? = some t :=
      ⟨_, List.getElem?_eq_getElem hlt⟩
    have howns := h.owns _ _ ht
    have hwaiting : t.thread.owner ≠ .returned := fun hr => by
      have hbelow := howns.returned.mp hr
      omega
    rcases howns.stage.progress hwaiting with ⟨u, hu⟩ | ⟨r, hr⟩
    · refine ⟨.owner, ?_⟩
      simp only [step, stepOwner, hc, ht, hu]
      exact ⟨_, rfl⟩
    · refine ⟨.thread (p.threads.length - 1), ?_⟩
      simp only [step, stepThread, ht, hr]
      exact ⟨_, rfl⟩

/-! ### The init callback -/

/-- All threads of the pool, and the `start` that is running, have the init
callback `cb`. -/
structure Uses (cb : Option C) (p : EventLoopThreadPool φ C) : Prop where
  threads : ∀ t ∈ p.threads, t.callback = cb
  testing : ∀ d i, p.control = .testing d i → d = cb
  launching : ∀ d i, p.control = .launching d i → d = cb

theorem Uses.start {cb : Option C} (h : ∀ t ∈ p.threads, t.callback = cb) :
    Uses cb (p.start cb) :=
  ⟨h, fun _ _ hc => (Control.testing.inj hc).1.symm,
    fun _ _ hc => absurd hc (by simp [EventLoopThreadPool.start])⟩

theorem uses_move {cb : Option C} {a : Label} (h : Uses cb p) (hm : Move p a q) : Uses cb q := by
  have hset {k : ℕ} {t u : PoolThread φ C} (ht : p.threads[k]? = some t)
      (hu : u.callback = t.callback) : ∀ v ∈ p.threads.set k u, v.callback = cb :=
    forall_mem_set h.threads (hu.trans (h.threads t (List.mem_of_getElem? ht)))
  cases hm with
  | create hcontrol =>
    refine ⟨fun t ht => ?_, fun _ _ hc => absurd hc (by simp), fun d i hc => ?_⟩
    · rcases List.mem_append.mp ht with ht | ht
      · exact h.threads t ht
      · obtain rfl := List.mem_singleton.mp ht
        exact h.testing _ _ hcontrol
    · obtain ⟨rfl, -⟩ := Control.launching.inj hc
      exact h.testing _ _ hcontrol
  | leave => exact ⟨h.threads, fun _ _ hc => absurd hc (by simp), fun _ _ hc => absurd hc (by simp)⟩
  | launch hcontrol ht hm => exact ⟨hset ht hm.keeps.1, h.testing, h.launching⟩
  | launched hcontrol ht hm =>
    refine ⟨hset ht hm.keeps.1, fun d i hc => ?_, fun _ _ hc => absurd hc (by simp)⟩
    obtain ⟨rfl, -⟩ := Control.testing.inj hc
    exact h.launching _ _ hcontrol
  | thread ht hm => exact ⟨hset ht hm.keeps.1, h.testing, h.launching⟩

/-- A pool without init callback calls none. -/
theorem invoked_move {a : Label} (h : Uses none p) (hnone : p.invoked = []) (hm : Move p a q) :
    q.invoked = [] := by
  cases hm with
  | create => exact hnone
  | leave hcontrol =>
    obtain rfl := h.testing _ _ hcontrol
    show p.invoked ++ baseCalls p.numThreads none = []
    simp [hnone, baseCalls]
  | launch => exact hnone
  | launched => exact hnone
  | @thread k t u made ht hm =>
    have hmade : made = [] := by
      cases hm with
      | begin => rfl
      | call => simp [h.threads t (List.mem_of_getElem? ht)]
      | publish => rfl
    show p.invoked ++ made = []
    rw [hnone, hmade]
    rfl

/-- `start` is over, and its threads run `n` loops. -/
structure Complete (n : ℕ) (p : EventLoopThreadPool φ C) : Prop where
  idle : p.control = .idle
  threads : p.threads.length = n
  published : ∀ t ∈ p.threads, t.thread.loop = true
  loops : p.loops = (List.range n).map .io

theorem Inv.complete (h : Inv p) (hidle : p.control = .idle) : Complete p.loops.length p := by
  have hlength : p.threads.length = p.loops.length := by
    have hlen := h.length
    rwa [hidle] at hlen
  refine ⟨hidle, hlength, fun t ht => ?_, h.loops⟩
  obtain ⟨k, hk⟩ := List.mem_iff_getElem?.mp ht
  have hbelow : k < p.loops.length := by
    rw [← hlength]
    exact (List.getElem?_eq_some_iff.mp hk).1
  obtain ⟨hstage, -, hreturned⟩ := h.owns k t hk
  exact (hstage.of_returned (hreturned.mpr hbelow)).1

/-- Once `start` is over nothing moves any more. -/
theorem Inv.still {a : Label} (h : Inv p) (hidle : p.control = .idle) : ¬ Move p a q := by
  intro hm
  cases hm with
  | create hc => exact absurd (hidle.symm.trans hc) (by simp)
  | leave hc => exact absurd (hidle.symm.trans hc) (by simp)
  | launch hc => exact absurd (hidle.symm.trans hc) (by simp)
  | launched hc => exact absurd (hidle.symm.trans hc) (by simp)
  | @thread k t u made ht hm =>
    have hmem : t ∈ p.threads := List.mem_of_getElem? ht
    have hloop : t.thread.loop = true := (h.complete hidle).published t hmem
    have hpos : t.thread.position = .published := ((h.owns k t ht).stage.of_loop hloop).1
    cases hm with
    | begin hp => exact absurd (hpos.symm.trans hp) (by simp)
    | call hp => exact absurd (hpos.symm.trans hp) (by simp)
    | publish hp => exact absurd (hpos.symm.trans hp) (by simp)

/-- The loops on which a pool of `n` threads calls its init callback. -/
def initLoops (n : ℕ) : List LoopPtr :=
  if n = 0 then [.base] else (List.range n).map .io

section Count

variable [DecidableEq C]

/-- How often a thread has called `c`. -/
def calls (c : C) (t : PoolThread φ C) : ℕ :=
  if t.called = true ∧ t.callback = some c then 1 else 0

theorem count_made (cb : Option C) (c : C) (l l' : LoopPtr) :
    (cb.toList.map fun d => (d, l')).count (c, l) = if cb = some c ∧ l' = l then 1 else 0 := by
  cases cb with
  | none => simp
  | some d => simp [List.count_singleton]

theorem calls_enter {t u : PoolThread φ C} {made : List (C × LoopPtr)} (hm : t.Enter u made)
    (c : C) : made.count (c, t.loop) + calls c t = calls c u := by
  cases hm with
  | begin => exact Nat.zero_add _
  | call _ hcalled => simp [count_made, calls, hcalled]
  | publish => exact Nat.zero_add _

theorem count_enter {t u : PoolThread φ C} {made : List (C × LoopPtr)} (hm : t.Enter u made)
    (c : C) {l : LoopPtr} (hl : l ≠ t.loop) : made.count (c, l) = 0 := by
  cases hm with
  | begin => rfl
  | call => simp [count_made, Ne.symm hl]
  | publish => rfl

/-- A callback runs on the loop of a thread as often as that thread has called it. -/
def Counted (p : EventLoopThreadPool φ C) : Prop :=
  ∀ c k, p.invoked.count (c, .io k) = (p.threads[k]?).elim 0 (calls c)

theorem counted_move {a : Label} (h : Inv p) (hcount : Counted p) (hm : Move p a q) :
    Counted q := by
  intro c k
  have hset {j : ℕ} {t u : PoolThread φ C} (ht : p.threads[j]? = some t)
      (hu : calls c u = calls c t) :
      ((p.threads.set j u)[k]?).elim 0 (calls c) = (p.threads[k]?).elim 0 (calls c) := by
    rw [List.getElem?_set]
    split_ifs with hjk hj
    · rw [← hjk, ht]
      exact hu
    · rw [← hjk, List.getElem?_eq_none (Nat.le_of_not_lt hj)]
    · rfl
  cases hm with
  | create =>
    show p.invoked.count (c, .io k) = _
    rw [hcount c k, List.getElem?_append]
    split_ifs with hk
    · rfl
    · rw [List.getElem?_eq_none (Nat.le_of_not_lt hk)]
      cases hnew : [PoolThread.make _ _ _][k - p.threads.length]? with
      | none => rfl
      | some t =>
        obtain rfl := List.mem_singleton.mp (List.mem_of_getElem? hnew)
        rfl
  | leave =>
    show (p.invoked ++ baseCalls _ _).count (c, LoopPtr.io k) = _
    rw [List.count_append, hcount c k, baseCalls]
    split_ifs
    · simp [count_made]
    · simp
  | launch _ ht hm =>
    have hu := hm.keeps
    show p.invoked.count (c, .io k) = _
    rw [hcount c k, hset ht (by rw [calls, hu.1, hu.2.2, calls])]
  | launched _ ht hm =>
    have hu := hm.keeps
    show p.invoked.count (c, .io k) = _
    rw [hcount c k, hset ht (by rw [calls, hu.1, hu.2.2, calls])]
  | @thread j t u made ht hm =>
    have hloop : t.loop = .io j := (h.owns j t ht).loop
    have hj : j < p.threads.length := (List.getElem?_eq_some_iff.mp ht).1
    show (p.invoked ++ made).count (c, LoopPtr.io k) = ((p.threads.set j u)[k]?).elim 0 (calls c)
    rw [List.count_append, hcount c k]
    by_cases hjk : j = k
    · -- a thread calls the callback with its own loop
      subst hjk
      have hown := calls_enter hm c
      rw [hloop] at hown
      rw [ht, List.getElem?_set_self hj]
      show calls c t + made.count (c, LoopPtr.io j) = calls c u
      omega
    · have hother : (LoopPtr.io k) ≠ t.loop := by
        rw [hloop]
        exact fun heq => hjk (LoopPtr.io.inj heq).symm
      rw [List.getElem?_set_ne hjk, count_enter hm c hother, Nat.add_zero]

/-- What a run of `start(cb)` with `n` threads on a fresh pool keeps. -/
structure Starting (n : ℕ) (cb : Option C) (p : EventLoopThreadPool φ C) : Prop where
  inv : Inv p
  uses : Uses cb p
  numThreads : p.numThreads = n
  loops : p.loops.length + p.owed = n
  counted : Counted p
  busy : p.control ≠ .idle → ∀ c, p.invoked.count (c, .base) = 0
  idle : p.control = .idle → ∀ c, p.invoked.count (c, .base) = (baseCalls n cb).count (c, .base)

theorem starting_start (name : String) (n : ℕ) (cb : Option C) :
    Starting n cb (((make name : EventLoopThreadPool φ C).setThreadNum n).start cb) where
  inv := ((inv_make name).setThreadNum rfl n).start rfl cb
  uses := .start fun _ h => absurd h List.not_mem_nil
  numThreads := rfl
  loops := Nat.zero_add n
  counted _ _ := rfl
  busy _ _ := rfl
  idle h := absurd h (by simp [start])

theorem starting_move {n : ℕ} {cb : Option C} {a : Label} (h : Starting n cb p)
    (hm : Move p a q) : Starting n cb q := by
  obtain ⟨hinv, huses, hnum, hloops, hcounted, hbusy, hidle⟩ := h
  refine ⟨inv_move hinv hm, uses_move huses hm, hm.keeps.2.1.trans hnum,
    (owed_move hinv hm).trans hloops, counted_move hinv hcounted hm, ?_, ?_⟩
  · intro hne c
    cases hm with
    | create hc => exact hbusy (by simp [hc]) c
    | leave => exact absurd rfl hne
    | launch hc => exact hbusy (by simp [hc]) c
    | launched hc => exact hbusy (by simp [hc]) c
    | @thread k t u made ht hm =>
      show (p.invoked ++ made).count (c, LoopPtr.base) = 0
      rw [List.count_append, hbusy hne c, count_enter hm c (hinv.base_ne ht)]
  · intro heq c
    cases hm with
    | create => exact absurd heq (by simp)
    | leave hc =>
      obtain rfl := huses.testing _ _ hc
      show (p.invoked ++ baseCalls p.numThreads _).count (c, LoopPtr.base) = _
      rw [List.count_append, hbusy (by simp [hc]) c, hnum, Nat.zero_add]
    | launch hc => exact absurd (hc.symm.trans heq) (by simp)
    | launched => exact absurd heq (by simp)
    | @thread k t u made ht hm =>
      show (p.invoked ++ made).count (c, LoopPtr.base) = _
      rw [List.count_append, hidle heq c, count_enter hm c (hinv.base_ne ht), Nat.add_zero]

theorem Starting.complete {n : ℕ} {cb : Option C} (h : Starting n cb p)
    (hidle : p.control = .idle) : p.loops.length = n ∧ Complete n p := by
  have howed : p.owed = 0 := owed_of_idle hidle
  have hlength : p.loops.length = n := by
    have hloops := h.loops
    omega
  exact ⟨hlength, hlength ▸ h.inv.complete hidle⟩

/-- Once `start` is over, its init callback has been called once on each loop. -/
theorem Starting.initialised {n : ℕ} {c : C} (h : Starting n (some c) p)
    (hidle : p.control = .idle) : ∀ l ∈ initLoops n, p.invoked.count (c, l) = 1 := by
  obtain ⟨hlength, hdone⟩ := h.complete hidle
  intro l hl
  rw [initLoops] at hl
  split_ifs at hl with hn
  · obtain rfl := List.mem_singleton.mp hl
    rw [h.idle hidle c, baseCalls, if_pos hn]
    simp
  · obtain ⟨k, hk, rfl⟩ := List.mem_map.mp hl
    have hlt : k < p.threads.length := by
      rw [hdone.threads]
      exact List.mem_range.mp hk
    have ht : p.threads[k]? = some p.threads[k] := List.getElem?_eq_getElem hlt
    obtain ⟨hstage, -, hreturned⟩ := h.inv.owns k _ ht
    have hcalled : p.threads[k].called = true := by
      refine (hstage.of_returned (hreturned.mpr ?_)).2
      rw [hlength]
      exact List.mem_range.mp hk
    have hcallback : p.threads[k].callback = some c := h.uses.threads _ (List.getElem_mem hlt)
    rw [h.counted c k, ht]
    exact if_pos ⟨hcalled, hcallback⟩

def system : Machine (EventLoopThreadPool φ C) Label where
  init p := ∃ name n cb, p = ((make name).setThreadNum n).start cb
  step := step

/-- `start` on a fresh pool returns with `n` loops, all published, and with the
init callback called once on each of them, or on the base loop. -/
theorem ensures_start (name : String) (n : ℕ) (cb : Option C) :
    (system : Machine (EventLoopThreadPool φ C) Label).Ensures
      (fun p => Complete n p ∧ ∀ c, cb = some c → ∀ l ∈ initLoops n, p.invoked.count (c, l) = 1)
      (((make name).setThreadNum n).start cb) := by
  have hstart : Starting n cb (((make name : EventLoopThreadPool φ C).setThreadNum n).start cb) :=
    starting_start name n cb
  have hkept : ∀ p a q, Starting n cb p →
      (system : Machine (EventLoopThreadPool φ C) Label).step p a = some q → Starting n cb q :=
    fun _ _ _ h hstep => starting_move h (move_of_step hstep)
  refine ⟨⟨_, fun as t ht => Machine.run_length_le hkept
    (fun _ _ _ h hstep => remaining_move h.inv (move_of_step hstep)) as hstart ht⟩, ?_⟩
  intro as p hp hfinal
  have h : Starting n cb p := Machine.run_invariant hkept as hstart hp
  have hidle : p.control = .idle := by
    by_contra hbusy
    obtain ⟨a, q, hq⟩ := progress h.inv hbusy
    exact absurd (hq.symm.trans (hfinal a)) (by simp)
  refine ⟨(h.complete hidle).2, fun c hc => ?_⟩
  subst hc
  exact h.initialised hidle

end Count

end EventLoopThreadPool

end Moduo
