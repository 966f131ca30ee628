/-
A request to quit is not lost.

* `honoured_iff` — in every state of a run `quit_` is true from the store of a
  `quit` until `loop()` returns, and the loop starts no poll once it has tested
  `quit_` after a `quit` returned, if and only if the run enters `loop()` before
  any `quit` stores its request.

`loop()` stores `quit_ = false` on entry, after `startLoop` may have handed the
loop out.
-/
import Moduo.EventLoopThread

namespace Moduo

namespace TaskQueue

variable {T φ : Type*} [DecidableEq T] {loopThread : T} {s s' : State T φ} {a : Label T φ}

/-! ### What the steps of a loop do to `quit_` -/

/-- Only `quit` and the entry of `loop()` store `quit_`. -/
theorem quit_step (h : step loopThread s a = some s') (hquit : ∀ t, a ≠ .quit t)
    (henter : a ≠ .enterLoop) : s'.loop.quit = s.loop.quit := by
  cases move_of_step h with
  | @quit t => exact absurd rfl (hquit t)
  | enterLoop => exact absurd rfl henter
  | wake => exact s.loop.wakeup_quit
  | _ => rfl

theorem quit_quit {t : T} (h : step loopThread s (.quit t) = some s') : s'.loop.quit = true := by
  cases move_of_step h with
  | quit => rfl

theorem enterLoop_step (h : step loopThread s .enterLoop = some s') :
    s'.loop.quit = false ∧ s'.phase = .testing ∧ s'.caller = s.caller := by
  cases move_of_step h with
  | enterLoop => exact ⟨rfl, rfl, rfl⟩

/-- The test of `quit_` ends the loop. -/
theorem testQuit_step (h : step loopThread s .testQuit = some s') (hquit : s.loop.quit = true) :
    s.phase = .testing ∧ s'.phase = .outside := by
  cases move_of_step h with
  | testQuit hp => exact ⟨hp, if_pos hquit⟩

/-- A loop that is not running is started by `loop()` alone. -/
theorem outside_step (h : step loopThread s a = some s') (henter : a ≠ .enterLoop)
    (hphase : s.phase = .outside) : s'.phase = .outside := by
  cases move_of_step h with
  | enterLoop => exact absurd rfl henter
  | push => exact hphase
  | test => exact hphase
  | wake => exact hphase
  | quit => exact hphase
  | testQuit hp => exact absurd (hphase.symm.trans hp) (by simp)
  | pollReturn hp => exact absurd (hphase.symm.trans hp) (by simp)
  | dispatchWakeup hp => exact absurd (hphase.symm.trans hp) (by simp)
  | dispatchOther hp => exact absurd (hphase.symm.trans hp) (by simp)
  | handlerReturn hp => exact absurd (hphase.symm.trans hp) (by simp)
  | beginPendingFunctors hp => exact absurd (hphase.symm.trans hp) (by simp)
  | swap hp => exact absurd (hphase.symm.trans hp) (by simp)
  | runFunctor hp => exact absurd (hphase.symm.trans hp) (by simp)
  | functorReturn hp => exact absurd (hphase.symm.trans hp) (by simp)
  | endPendingFunctors hp => exact absurd (hphase.symm.trans hp) (by simp)

/-- Who is about to write the wakeup of `quit` has stored the request. -/
theorem quitting_step (h : step loopThread s a = some s') {t : T}
    (ht : s'.caller t = .quitting) : s.caller t = .quitting ∨ a = .quit t := by
  have hset {u : T} {c : Caller} (hc : c ≠ .quitting)
      (hu : Function.update s.caller u c t = .quitting) : s.caller t = .quitting := by
    simp only [Function.update_apply] at hu
    split_ifs at hu with heq
    · exact absurd hu hc
    · exact hu
  cases move_of_step h with
  | push => exact .inl (hset (by simp) ht)
  | test => exact .inl (hset (by split_ifs <;> simp) ht)
  | wake => exact .inl (hset (by simp) ht)
  | @quit u =>
    rcases eq_or_ne u t with rfl | hne
    · exact .inr rfl
    · have hu : Function.update s.caller u _ t = .quitting := ht
      rw [Function.update_of_ne hne.symm] at hu
      exact .inl hu
  | _ => exact .inl ht

end TaskQueue

namespace EventLoopThread

namespace QuitRequest

variable {T φ : Type*}

/-- `loop()` has not returned. -/
def Running (s : State T φ) : Prop :=
  s.position = .published ∨ (s.position = .looping ∧ s.queue.phase ≠ .outside)

/-- What becomes of a request. -/
structure Honoured (s : State T φ) : Prop where
  /-- From the store on the request stays. -/
  stored : s.asked = true → Running s → s.queue.loop.quit = true
  /-- In particular after a `quit` has returned. -/
  kept : s.quitReturned = true → Running s → s.queue.loop.quit = true
  /-- The loop starts no poll once it has tested `quit_` after that. -/
  noPoll : s.tested = true → s.queue.phase = .outside

/-- The step enters `loop()` only before any `quit` has stored its request. -/
def Early (s : State T φ) (a : Label T φ) : Prop := a = .queue .enterLoop → s.asked = false

/-- `loop_` has been set. -/
def Launched (s : State T φ) : Prop :=
  s.position ≠ .unborn ∧ s.position ≠ .spawned ∧ s.position ≠ .initialising

structure Inv (s : State T φ) : Prop where
  outside : s.position ≠ .looping → s.queue.phase = .outside
  asked : s.asked = true → Launched s
  calling : ∀ t, s.queue.caller t = .quitting → s.asked = true
  returned : s.quitReturned = true → s.asked = true
  tested : s.tested = true → s.quitReturned = true ∧ s.position ≠ .published
  constructed : s.owner = .constructed → s.position = .unborn

variable {s s' : State T φ}

theorem inv_start : Inv (start : State T φ) := by
  refine ⟨fun _ => rfl, ?_, ?_, ?_, ?_, fun _ => rfl⟩
  · intro h
    exact absurd h (by simp [start])
  · intro t h
    exact absurd h (by simp [start, TaskQueue.start])
  · intro h
    exact absurd h (by simp [start])
  · intro h
    exact absurd h (by simp [start])

/-- What stays of a request once it is stored says the rest. -/
theorem Honoured.of_stored (hi : Inv s)
    (hstored : s.asked = true → Running s → s.queue.loop.quit = true)
    (hpoll : s.tested = true → s.queue.phase = .outside) : Honoured s :=
  ⟨hstored, fun hreturned => hstored (hi.returned hreturned), hpoll⟩

/-- A step that leaves the loop alone. -/
theorem Inv.move (h : Inv s) (hqueue : s'.queue = s.queue) (hasked : s'.asked = s.asked)
    (hreturned : s'.quitReturned = s.quitReturned) (htested : s'.tested = s.tested)
    (hout : s'.position ≠ .looping → s.queue.phase = .outside)
    (hlaunched : Launched s → Launched s')
    (hpublished : s'.position = .published → s.position = .published ∨ s.asked = false)
    (hconstructed : s'.owner = .constructed → s'.position = .unborn) : Inv s' := by
  refine ⟨?_, ?_, ?_, ?_, ?_, hconstructed⟩
  · intro hp
    rw [hqueue]
    exact hout hp
  · intro ha
    rw [hasked] at ha
    exact hlaunched (h.asked ha)
  · intro t ht
    rw [hqueue] at ht
    rw [hasked]
    exact h.calling t ht
  · intro hr
    rw [hreturned] at hr
    rw [hasked]
    exact h.returned hr
  · intro ht
    rw [htested] at ht
    rw [hreturned]
    obtain ⟨hr, hne⟩ := h.tested ht
    refine ⟨hr, fun hp => ?_⟩
    rcases hpublished hp with hp' | hno
    · exact hne hp'
    · exact absurd ((h.returned hr).symm.trans hno) (by simp)

theorem Honoured.move (h : Honoured s) (hi : Inv s) (hqueue : s'.queue = s.queue)
    (hasked : s'.asked = s.asked) (hreturned : s'.quitReturned = s.quitReturned)
    (htested : s'.tested = s.tested) (hrunning : s.asked = true → Running s' → Running s) :
    Honoured s' := by
  refine ⟨?_, ?_, ?_⟩
  · intro ha hr
    rw [hasked] at ha
    rw [hqueue]
    exact h.stored ha (hrunning ha hr)
  · intro hq hr
    rw [hreturned] at hq
    rw [hqueue]
    exact h.kept hq (hrunning (hi.returned hq) hr)
  · intro ht
    rw [htested] at ht
    rw [hqueue]
    exact h.noPoll ht

/-- A step of the loop or of one of its callers is admitted at a loop that has
been handed out or is running. -/
structure Admitted (s : State T φ) (b : TaskQueue.Label T φ) : Prop where
  enter : b = .enterLoop → s.position = .published
  launched : Launched s

theorem admitted_of_alive {b : TaskQueue.Label T φ} (h : s.alive = true) (hb : b ≠ .enterLoop) :
    Admitted s b := by
  refine ⟨fun he => absurd he hb, ?_⟩
  rw [State.alive] at h
  refine ⟨?_, ?_, ?_⟩ <;> intro hp <;> rw [hp] at h <;> exact absurd h (by simp)

section Step

variable [DecidableEq T] {loopThread ownerThread : T} {a : Label T φ}
  {b : TaskQueue.Label T φ} {q : TaskQueue.State T φ}

theorem admitted_of_admits (h : s.admits loopThread ownerThread b = true) : Admitted s b := by
  cases b with
  | enterLoop =>
    have hp : s.position = .published := by simpa [State.admits] using h
    exact ⟨fun _ => hp, by simp [Launched, hp]⟩
  | push t cb =>
    have hcall : s.MayCall loopThread ownerThread t := by simpa [State.admits] using h
    exact admitted_of_alive hcall.1 (by simp)
  | test t =>
    have hcall : s.MayCall loopThread ownerThread t := by simpa [State.admits] using h
    exact admitted_of_alive hcall.1 (by simp)
  | wake t =>
    have hcall : s.MayCall loopThread ownerThread t := by simpa [State.admits] using h
    exact admitted_of_alive hcall.1 (by simp)
  | quit t =>
    have hcall : s.MayCall loopThread ownerThread t := by simpa [State.admits] using h
    exact admitted_of_alive hcall.1 (by simp)
  | _ => exact admitted_of_alive h (by simp)

theorem Inv.onQueue (h : Inv s) (hb : Admitted s b)
    (hq : TaskQueue.step loopThread s.queue b = some q) : Inv (s.onQueue loopThread b q) := by
  have hasked : s.asked = true → (s.onQueue loopThread b q).asked = true := by
    intro ha
    show (s.asked || storesQuit b) = true
    rw [ha, Bool.true_or]
  refine ⟨?_, ?_, ?_, ?_, ?_, fun ho => absurd (h.constructed ho) hb.launched.1⟩
  · intro hp
    by_cases henter : b = .enterLoop
    · rw [henter] at hp
      exact absurd rfl hp
    · have hsame : (s.onQueue loopThread b q).position = s.position := by
        cases b with
        | enterLoop => exact absurd rfl henter
        | _ => rfl
      rw [hsame] at hp
      exact TaskQueue.outside_step hq henter (h.outside hp)
  · intro _
    cases b with
    | enterLoop => exact ⟨by simp [State.onQueue], by simp [State.onQueue], by simp [State.onQueue]⟩
    | _ => exact hb.launched
  · intro t ht
    rcases TaskQueue.quitting_step hq ht with hbefore | rfl
    · exact hasked (h.calling t hbefore)
    · simp [State.onQueue, storesQuit]
  · intro hr
    have hends : s.quitReturned = true ∨ endsQuit loopThread s.queue b = true := by
      simpa [State.onQueue] using hr
    rcases hends with hbefore | hends
    · exact hasked (h.returned hbefore)
    · cases b with
      | quit t => simp [State.onQueue, storesQuit]
      | wake t =>
        have ht : s.queue.caller t = .quitting := by simpa [endsQuit] using hends
        exact hasked (h.calling t ht)
      | _ => exact absurd hends (by simp [endsQuit])
  · intro ht
    have hreturned : s.quitReturned = true → (s.onQueue loopThread b q).quitReturned = true := by
      intro hr
      show (s.quitReturned || endsQuit loopThread s.queue b) = true
      rw [hr, Bool.true_or]
    cases b with
    | enterLoop =>
      exact ⟨hreturned (h.tested ht).1, by simp [State.onQueue]⟩
    | testQuit =>
      have hor : s.tested = true ∨ s.quitReturned = true := by simpa [State.onQueue] using ht
      rcases hor with hbefore | hr
      · exact ⟨hreturned (h.tested hbefore).1, (h.tested hbefore).2⟩
      · refine ⟨hreturned hr, fun hp => ?_⟩
        -- the loop tests `quit_` only while it runs
        have hphase := h.outside (by rw [show s.position = .published from hp]; simp)
        simp [TaskQueue.step, hphase] at hq
    | _ => exact ⟨hreturned (h.tested ht).1, (h.tested ht).2⟩

theorem honoured_onQueue (hi : Inv s) (h : Honoured s) (hb : Admitted s b)
    (hq : TaskQueue.step loopThread s.queue b = some q) :
    Honoured (s.onQueue loopThread b q) ↔ (b = .enterLoop → s.asked = false) := by
  have hi' : Inv (s.onQueue loopThread b q) := hi.onQueue hb hq
  have hphase : b ≠ .enterLoop → q.phase ≠ .outside → s.queue.phase ≠ .outside := by
    intro henter hne hout
    exact hne (TaskQueue.outside_step hq henter hout)
  cases b with
  | enterLoop =>
    -- `loop` resets `quit_`: a request made before it is lost
    obtain ⟨hquit, hphase', -⟩ := TaskQueue.enterLoop_step hq
    have hrunning : Running (s.onQueue loopThread .enterLoop q) := by
      refine .inr ⟨rfl, ?_⟩
      show q.phase ≠ .outside
      rw [hphase']
      simp
    constructor
    · intro hh _
      by_contra hne
      have hasked : s.asked = true := by simpa using hne
      have hset : q.loop.quit = true :=
        hh.stored (by simp [State.onQueue, hasked]) hrunning
      rw [hquit] at hset
      exact absurd hset (by simp)
    · intro hearly
      have hno : s.asked = false := hearly rfl
      refine Honoured.of_stored hi' ?_ ?_
      · intro ha
        simp [State.onQueue, hno, storesQuit] at ha
      · intro ht
        have hr := hi.returned (hi.tested ht).1
        rw [hno] at hr
        exact absurd hr (by simp)
  | quit t =>
    refine iff_of_true (Honoured.of_stored hi' ?_ ?_) (by simp)
    · exact fun _ _ => TaskQueue.quit_quit hq
    · intro ht
      exact TaskQueue.outside_step hq (by simp) (h.noPoll ht)
  | testQuit =>
    refine iff_of_true (Honoured.of_stored hi' ?_ ?_) (by simp)
    · intro ha hr
      have hasked : s.asked = true := by simpa [State.onQueue, storesQuit] using ha
      show q.loop.quit = true
      rw [TaskQueue.quit_step hq (by simp) (by simp)]
      exact h.stored hasked (hr.imp id fun hl => ⟨hl.1, hphase (by simp) hl.2⟩)
    · intro ht
      have hor : s.tested = true ∨ s.quitReturned = true := by simpa [State.onQueue] using ht
      rcases hor with hbefore | hreturned
      · exact TaskQueue.outside_step hq (by simp) (h.noPoll hbefore)
      · -- the request that has returned is still there
        by_cases hout : s.queue.phase = .outside
        · exact TaskQueue.outside_step hq (by simp) hout
        · have hlooping : s.position = .looping := by
            by_contra hne
            exact hout (hi.outside hne)
          exact (TaskQueue.testQuit_step hq (h.kept hreturned (.inr ⟨hlooping, hout⟩))).2
  | _ =>
    refine iff_of_true (Honoured.of_stored hi' ?_ ?_) (by simp)
    · intro ha hr
      have hasked : s.asked = true := by simpa [State.onQueue, storesQuit] using ha
      show q.loop.quit = true
      rw [TaskQueue.quit_step hq (by simp) (by simp)]
      exact h.stored hasked (hr.imp id fun hl => ⟨hl.1, hphase (by simp) hl.2⟩)
    · intro ht
      exact TaskQueue.outside_step hq (by simp) (h.noPoll ht)

theorem inv_move (h : Inv s) (hmove : Move loopThread ownerThread s a s') : Inv s' := by
  cases hmove with
  | start ho =>
    have hp : s.position = .unborn := h.constructed ho
    refine h.move rfl rfl rfl rfl (fun _ => h.outside (by simp [hp])) ?_ (by simp) (by simp)
    exact fun hl => absurd hp hl.1
  | begin hp =>
    refine h.move rfl rfl rfl rfl (fun _ => h.outside (by simp [hp])) ?_ (by simp) fun ho => ?_
    · exact fun hl => absurd hp hl.2.1
    · exact absurd ((h.constructed ho).symm.trans hp) (by simp)
  | publish hp =>
    have hno : s.asked = false := by
      by_contra hne
      exact (h.asked (by simpa using hne)).2.2 hp
    refine h.move rfl rfl rfl rfl (fun _ => h.outside (by simp [hp])) ?_ (fun _ => .inr hno)
      fun ho => ?_
    · exact fun _ => ⟨by simp, by simp, by simp⟩
    · exact absurd ((h.constructed ho).symm.trans hp) (by simp)
  | queue hb hq => exact h.onQueue (admitted_of_admits hb) hq
  | reset hphase hp =>
    refine h.move rfl rfl rfl rfl (fun _ => hphase) (fun _ => ⟨by simp, by simp, by simp⟩)
      (by simp) fun ho => ?_
    exact absurd ((h.constructed ho).symm.trans hp) (by simp)
  | finish hp =>
    refine h.move rfl rfl rfl rfl (fun _ => h.outside (by simp [hp]))
      (fun _ => ⟨by simp, by simp, by simp⟩) (by simp) fun ho => ?_
    exact absurd ((h.constructed ho).symm.trans hp) (by simp)
  | storeQuit _ halive hq =>
    have hi := h.onQueue (admitted_of_alive halive (by simp)) hq
    exact hi.move rfl rfl rfl rfl hi.outside id .inl (by simp)
  | wake _ halive hq =>
    have hi := h.onQueue (admitted_of_alive halive (by simp)) hq
    exact hi.move rfl rfl rfl rfl hi.outside id .inl (by simp)
  | _ => exact h.move rfl rfl rfl rfl h.outside id .inl (by simp)

theorem honoured_move (hi : Inv s) (h : Honoured s)
    (hmove : Move loopThread ownerThread s a s') : Honoured s' ↔ Early s a := by
  have hother (ha : a ≠ .queue .enterLoop) (hkept : Honoured s') : Honoured s' ↔ Early s a :=
    iff_of_true hkept fun henter => absurd henter ha
  cases hmove with
  | start =>
    refine hother (by simp) (h.move hi rfl rfl rfl rfl fun _ hr => ?_)
    rcases hr with hp | ⟨hp, -⟩ <;> exact absurd hp (by simp)
  | begin =>
    refine hother (by simp) (h.move hi rfl rfl rfl rfl fun _ hr => ?_)
    rcases hr with hp | ⟨hp, -⟩ <;> exact absurd hp (by simp)
  | publish hp =>
    exact hother (by simp) (h.move hi rfl rfl rfl rfl fun ha _ => absurd hp (hi.asked ha).2.2)
  | @queue b q hb hq =>
    rw [honoured_onQueue hi h (admitted_of_admits hb) hq, Early]
    exact ⟨fun hearly he => hearly (Label.queue.inj he), fun hearly he => hearly (by rw [he])⟩
  | reset =>
    refine hother (by simp) (h.move hi rfl rfl rfl rfl fun _ hr => ?_)
    rcases hr with hp | ⟨hp, -⟩ <;> exact absurd hp (by simp)
  | finish =>
    refine hother (by simp) (h.move hi rfl rfl rfl rfl fun _ hr => ?_)
    rcases hr with hp | ⟨hp, -⟩ <;> exact absurd hp (by simp)
  | storeQuit _ halive hq =>
    have hadm : Admitted s (.quit ownerThread) := admitted_of_alive halive (by simp)
    have hkept := (honoured_onQueue hi h hadm hq).mpr (by simp)
    exact hother (by simp) (hkept.move (hi.onQueue hadm hq) rfl rfl rfl rfl fun _ hr => hr)
  | wake _ halive hq =>
    have hadm : Admitted s (.wake ownerThread) := admitted_of_alive halive (by simp)
    have hkept := (honoured_onQueue hi h hadm hq).mpr (by simp)
    exact hother (by simp) (hkept.move (hi.onQueue hadm hq) rfl rfl rfl rfl fun _ hr => hr)
  | _ => exact hother (by simp) (h.move hi rfl rfl rfl rfl fun _ hr => hr)

/-- Exactly the runs that enter `loop()` before any `quit` stores its request
honour every request. -/
theorem honoured_iff (h : (system loopThread ownerThread).init s) (as : List (Label T φ)) :
    (system loopThread ownerThread).Throughout Honoured s as ↔
      (system loopThread ownerThread).StepsMeet Early s as := by
  obtain rfl : s = start := h
  have hstart : Honoured (start : State T φ) := by
    refine Honoured.of_stored inv_start ?_ fun _ => rfl
    exact fun ha => absurd ha (by simp [start])
  exact Machine.throughout_iff_stepsMeet (I := Inv)
    (fun _ _ _ hi hstep => inv_move hi (move_of_step hstep))
    (fun _ _ _ hi hh hstep => honoured_move hi hh (move_of_step hstep)) as inv_start hstart

end Step

/-- Thread 1 owns the loop of thread 0; thread 2 stops it once it runs. -/
theorem honoured_iff_running :
    (system 0 1).Throughout Honoured (start : State ℕ ℕ)
        [.start, .begin, .semWait, .publish, .startLoop, .queue .enterLoop, .queue (.quit 2)] ↔
      (system 0 1).StepsMeet Early (start : State ℕ ℕ)
        [.start, .begin, .semWait, .publish, .startLoop, .queue .enterLoop, .queue (.quit 2)] :=
  honoured_iff rfl _

/-- The destructor runs right after `startLoop`, before the thread enters
`loop()`: the request is overwritten and the loop goes on to poll. -/
theorem quit_before_loop_lost :
    ¬ (system 0 1).Throughout Honoured (start : State ℕ ℕ)
      [.start, .begin, .semWait, .publish, .startLoop, .destructor, .testLoop, .loadLoop,
        .storeQuit, .wake, .queue .enterLoop, .queue .testQuit] := by
  intro h
  have hrun : ∃ t, (system 0 1).run (start : State ℕ ℕ)
      [.start, .begin, .semWait, .publish, .startLoop, .destructor, .testLoop, .loadLoop,
        .storeQuit, .wake, .queue .enterLoop, .queue .testQuit] = some t ∧
      t.quitReturned = true ∧ t.position = .looping ∧ t.queue.phase = .polling ∧
      t.queue.loop.quit = false := ⟨_, rfl, rfl, rfl, rfl, rfl⟩
  obtain ⟨t, ht, hreturned, hlooping, hpolling, hlost⟩ := hrun
  have hset := (h.final ht).kept hreturned (.inr ⟨hlooping, by rw [hpolling]; simp⟩)
  rw [hlost] at hset
  exact absurd hset (by simp)

end QuitRequest

end EventLoopThread

end Moduo
