/-
Tasks are neither lost, duplicated, reordered nor left without a wakeup.

`system loopThread` interleaves the steps of one loop thread (poll, dispatch,
swap, run, test `quit_`) with `queueInLoop` and `quit` called by any threads;
the loop thread itself calls `queueInLoop` from event handlers and from running
functors.

`tasks_ordered_and_woken` says two things of every state reached:

* functors executed, then the rest of the swapped-out batch, then
  `pendingFunctors_`, are the functors pushed, in push order;
* while the loop thread waits in `poll` with functors pending, the eventfd is
  readable or a pusher is still on its way to it.

The second rests on `Covered`, which only the eventfd read destroys; the read
happens while dispatching, and the swap empties the queue before the next poll.
-/
import Moduo.EventLoop
import Moduo.Lib.Machine

namespace Moduo

namespace TaskQueue

/-- An active channel: the wakeup channel or any other. -/
inductive Ready
  | wakeup
  | other
  deriving DecidableEq, Repr

/-- Where the loop thread is.  `handling` and `executing` are the bodies of an
event handler and of a functor, in which it may call `queueInLoop`. -/
inductive Phase (φ : Type*)
  | outside
  | testing
  | polling
  | dispatching (active : List Ready)
  | handling (active : List Ready)
  | swapping
  | running (functors : List φ)
  | executing (functors : List φ)

/-- Where a thread is inside `queueInLoop` or `quit`. -/
inductive Caller
  | idle
  | pushed
  | waking
  | quitting
  deriving DecidableEq, Repr

structure State (T φ : Type*) where
  loop : EventLoop φ
  phase : Phase φ
  caller : T → Caller
  executed : List φ
  pushed : List φ

inductive Label (T φ : Type*)
  | push (t : T) (cb : φ)
  | test (t : T)
  | wake (t : T)
  | quit (t : T)
  | enterLoop
  | testQuit
  | pollReturn (active : List Ready)
  | dispatch
  | handlerReturn
  | beginPendingFunctors
  | swap
  | runFunctor
  | functorReturn
  | endPendingFunctors

/-- The swapped-out functors not yet executed. -/
def Phase.rest {φ : Type*} : Phase φ → List φ
  | .running functors => functors
  | .executing functors => functors
  | _ => []

/-- The loop thread runs a handler or a functor, which may call `queueInLoop`. -/
def Phase.inBody {φ : Type*} : Phase φ → Bool
  | .handling _ => true
  | .executing _ => true
  | _ => false

/-- Between `callingPendingFunctors_ = true` and `= false`. -/
def Phase.calling {φ : Type*} : Phase φ → Bool
  | .swapping => true
  | .running _ => true
  | .executing _ => true
  | _ => false

variable {T φ : Type*}

def start : State T φ := ⟨.make, .outside, fun _ => .idle, [], []⟩

section Step

variable [DecidableEq T]

def State.setCaller (s : State T φ) (t : T) (c : Caller) : State T φ :=
  { s with caller := Function.update s.caller t c }

/-- One step of a thread. -/
def step (loopThread : T) (s : State T φ) : Label T φ → Option (State T φ)
  | .push t cb =>
    if s.caller t = .idle ∧ (t = loopThread → s.phase.inBody = true) then
      some { s.setCaller t .pushed with loop := s.loop.push cb, pushed := s.pushed ++ [cb] }
    else none
  | .test t =>
    if s.caller t = .pushed then
      some (s.setCaller t (if s.loop.mustWakeup (decide (t = loopThread)) then .waking else .idle))
    else none
  | .wake t =>
    if s.caller t = .waking ∨ s.caller t = .quitting then
      some { s.setCaller t .idle with loop := s.loop.wakeup }
    else none
  | .quit t =>
    if s.caller t = .idle ∧ (t = loopThread → s.phase.inBody = true) then
      some { s.setCaller t (if t = loopThread then .idle else .quitting) with
        loop := { s.loop with quit := true } }
    else none
  | .enterLoop =>
    match s.phase with
    -- `loop()` stores `quit_ = false` when it is entered
    | .outside => some { s with phase := .testing, loop := { s.loop with quit := false } }
    | _ => none
  | .testQuit =>
    match s.phase with
    | .testing => some { s with phase := if s.loop.quit then .outside else .polling }
    | _ => none
  | .pollReturn active =>
    match s.phase with
    | .polling =>
      -- the eventfd is readable only while its counter is positive
      if Ready.wakeup ∈ active → 0 < s.loop.wakeupCounter then
        some { s with phase := .dispatching active }
      else none
    | _ => none
  | .dispatch =>
    match s.phase with
    | .dispatching (.wakeup :: rest) =>
      some { s with phase := .dispatching rest, loop := s.loop.handleRead }
    | .dispatching (.other :: rest) => some { s with phase := .handling rest }
    | _ => none
  | .handlerReturn =>
    match s.phase with
    | .handling rest =>
      -- the callback does not return from inside a call
      if s.caller loopThread = .idle then some { s with phase := .dispatching rest } else none
    | _ => none
  | .beginPendingFunctors =>
    match s.phase with
    | .dispatching [] => some { s with phase := .swapping, loop := s.loop.beginPendingFunctors }
    | _ => none
  | .swap =>
    match s.phase with
    | .swapping =>
      -- what is pushed from here on waits for the next round
      some { s with phase := .running s.loop.pendingFunctors, loop := s.loop.swapFunctors }
    | _ => none
  | .runFunctor =>
    match s.phase with
    | .running (cb :: rest) =>
      some { s with phase := .executing rest, executed := s.executed ++ [cb] }
    | _ => none
  | .functorReturn =>
    match s.phase with
    | .executing rest =>
      if s.caller loopThread = .idle then some { s with phase := .running rest } else none
    | _ => none
  | .endPendingFunctors =>
    match s.phase with
    | .running [] => some { s with phase := .testing, loop := s.loop.endPendingFunctors }
    | _ => none

def system (loopThread : T) : Machine (State T φ) (Label T φ) where
  init s := s = start
  step := step loopThread

/-- The steps, one constructor for each branch. -/
inductive Move (loopThread : T) (s : State T φ) : Label T φ → State T φ → Prop
  | push {t : T} {cb : φ} : s.caller t = .idle → (t = loopThread → s.phase.inBody = true) →
      Move loopThread s (.push t cb)
        { s.setCaller t .pushed with loop := s.loop.push cb, pushed := s.pushed ++ [cb] }
  | test {t : T} : s.caller t = .pushed → Move loopThread s (.test t)
      (s.setCaller t (if s.loop.mustWakeup (decide (t = loopThread)) then .waking else .idle))
  | wake {t : T} : Move loopThread s (.wake t) { s.setCaller t .idle with loop := s.loop.wakeup }
  | quit {t : T} : s.caller t = .idle → Move loopThread s (.quit t)
      { s.setCaller t (if t = loopThread then .idle else .quitting) with
        loop := { s.loop with quit := true } }
  | enterLoop : s.phase = .outside → Move loopThread s .enterLoop
      { s with phase := .testing, loop := { s.loop with quit := false } }
  | testQuit : s.phase = .testing → Move loopThread s .testQuit
      { s with phase := if s.loop.quit then .outside else .polling }
  | pollReturn {active : List Ready} : s.phase = .polling →
      Move loopThread s (.pollReturn active) { s with phase := .dispatching active }
  | dispatchWakeup {rest : List Ready} : s.phase = .dispatching (.wakeup :: rest) →
      Move loopThread s .dispatch
        { s with phase := .dispatching rest, loop := s.loop.handleRead }
  | dispatchOther {rest : List Ready} : s.phase = .dispatching (.other :: rest) →
      Move loopThread s .dispatch { s with phase := .handling rest }
  | handlerReturn {rest : List Ready} : s.phase = .handling rest →
      s.caller loopThread = .idle → Move loopThread s .handlerReturn
        { s with phase := .dispatching rest }
  | beginPendingFunctors : s.phase = .dispatching [] → Move loopThread s .beginPendingFunctors
      { s with phase := .swapping, loop := s.loop.beginPendingFunctors }
  | swap : s.phase = .swapping → Move loopThread s .swap
      { s with phase := .running s.loop.pendingFunctors, loop := s.loop.swapFunctors }
  | runFunctor {cb : φ} {rest : List φ} : s.phase = .running (cb :: rest) →
      Move loopThread s .runFunctor
        { s with phase := .executing rest, executed := s.executed ++ [cb] }
  | functorReturn {rest : List φ} : s.phase = .executing rest →
      s.caller loopThread = .idle → Move loopThread s .functorReturn
        { s with phase := .running rest }
  | endPendingFunctors : s.phase = .running [] → Move loopThread s .endPendingFunctors
      { s with phase := .testing, loop := s.loop.endPendingFunctors }

theorem move_of_step {loopThread : T} {s s' : State T φ} {a : Label T φ}
    (h : step loopThread s a = some s') : Move loopThread s a s' := by
  cases a with
  | push t cb =>
    simp only [step] at h
    split_ifs at h with hg
    exact Option.some.inj h ▸ .push hg.1 hg.2
  | test t =>
    rw [step] at h
    by_cases hg : s.caller t = .pushed
    · rw [if_pos hg] at h
      exact Option.some.inj h ▸ .test hg
    · rw [if_neg hg] at h
      exact absurd h (by simp)
  | wake t =>
    simp only [step] at h
    split_ifs at h with hg
    exact Option.some.inj h ▸ .wake
  | quit t =>
    rw [step] at h
    by_cases hg : s.caller t = .idle ∧ (t = loopThread → s.phase.inBody = true)
    · rw [if_pos hg] at h
      exact Option.some.inj h ▸ .quit hg.1
    · rw [if_neg hg] at h
      exact absurd h (by simp)
  | enterLoop =>
    simp only [step] at h
    split at h
    next hp => exact Option.some.inj h ▸ .enterLoop hp
    next => exact absurd h (by simp)
  | testQuit =>
    simp only [step] at h
    split at h
    next hp => exact Option.some.inj h ▸ .testQuit hp
    next => exact absurd h (by simp)
  | pollReturn active =>
    simp only [step] at h
    split at h
    next hp =>
      split_ifs at h
      exact Option.some.inj h ▸ .pollReturn hp
    next => exact absurd h (by simp)
  | dispatch =>
    simp only [step] at h
    split at h
    next rest hp => exact Option.some.inj h ▸ .dispatchWakeup hp
    next rest hp => exact Option.some.inj h ▸ .dispatchOther hp
    next => exact absurd h (by simp)
  | handlerReturn =>
    simp only [step] at h
    split at h
    next rest hp =>
      split_ifs at h with hi
      exact Option.some.inj h ▸ .handlerReturn hp hi
    next => exact absurd h (by simp)
  | beginPendingFunctors =>
    simp only [step] at h
    split at h
    next hp => exact Option.some.inj h ▸ .beginPendingFunctors hp
    next => exact absurd h (by simp)
  | swap =>
    simp only [step] at h
    split at h
    next hp => exact Option.some.inj h ▸ .swap hp
    next => exact absurd h (by simp)
  | runFunctor =>
    simp only [step] at h
    split at h
    next cb rest hp => exact Option.some.inj h ▸ .runFunctor hp
    next => exact absurd h (by simp)
  | functorReturn =>
    simp only [step] at h
    split at h
    next rest hp =>
      split_ifs at h with hi
      exact Option.some.inj h ▸ .functorReturn hp hi
    next => exact absurd h (by simp)
  | endPendingFunctors =>
    simp only [step] at h
    split at h
    next hp => exact Option.some.inj h ▸ .endPendingFunctors hp
    next => exact absurd h (by simp)

end Step

/-! ### Order -/

/-- Functors leave the queue in the order in which they entered it. -/
def Ordered (s : State T φ) : Prop :=
  s.executed ++ s.phase.rest ++ s.loop.pendingFunctors = s.pushed

/-! ### Wakeups -/

/-- A thread other than the loop thread has pushed and not yet written. -/
def PusherBusy (loopThread : T) (s : State T φ) : Prop :=
  ∃ t, t ≠ loopThread ∧ (s.caller t = .pushed ∨ s.caller t = .waking)

/-- Pending functors will be noticed by the next poll. -/
def Covered (loopThread : T) (s : State T φ) : Prop :=
  s.loop.pendingFunctors ≠ [] → 0 < s.loop.wakeupCounter ∨ PusherBusy loopThread s

/-- The queue matters from the swap on: before it, whatever is pending is about
to be taken. -/
def Phase.settled {φ : Type*} : Phase φ → Bool
  | .dispatching _ => false
  | .handling _ => false
  | .swapping => false
  | _ => true

structure Inv (loopThread : T) (s : State T φ) : Prop where
  ordered : Ordered s
  calling : s.loop.callingPendingFunctors = s.phase.calling
  inBody : s.caller loopThread ≠ .idle → s.phase.inBody = true
  covered : s.phase.settled = true → s.caller loopThread = .idle → Covered loopThread s

variable {loopThread : T} {s s' : State T φ}

theorem inv_start : Inv loopThread (start : State T φ) :=
  ⟨rfl, rfl, fun h => absurd rfl h, fun _ _ h => absurd rfl h⟩

theorem Covered.of_pos (h : 0 < s.loop.wakeupCounter) : Covered loopThread s :=
  fun _ => .inl h

theorem Covered.of_busy {t : T} (ht : t ≠ loopThread)
    (h : s.caller t = .pushed ∨ s.caller t = .waking) : Covered loopThread s :=
  fun _ => .inr ⟨t, ht, h⟩

/-- What is covered stays covered while the queue, the counter and the pushers
are left alone. -/
theorem Covered.congr (h : Covered loopThread s)
    (hp : s'.loop.pendingFunctors = s.loop.pendingFunctors)
    (hw : s'.loop.wakeupCounter = s.loop.wakeupCounter)
    (hc : ∀ t, s.caller t = .pushed ∨ s.caller t = .waking →
      s'.caller t = .pushed ∨ s'.caller t = .waking) : Covered loopThread s' := by
  intro hne
  rw [hp] at hne
  rcases h hne with hpos | ⟨t, ht, hbusy⟩
  · exact .inl (hw ▸ hpos)
  · exact .inr ⟨t, ht, hc t hbusy⟩

/-- Outside a body the loop thread is not inside `queueInLoop`. -/
theorem Inv.loop_idle (h : Inv loopThread s) (hb : s.phase.inBody = false) :
    s.caller loopThread = .idle := by
  by_contra hne
  rw [h.inBody hne] at hb
  exact absurd hb (by decide)

/-- Outside a body the queue of a settled loop is covered. -/
theorem Inv.covered_of (h : Inv loopThread s) (hs : s.phase.settled = true)
    (hb : s.phase.inBody = false) : Covered loopThread s :=
  h.covered hs (h.loop_idle hb)

/-- A step of the loop thread outside `queueInLoop` that moves it to `ph`. -/
theorem Inv.setPhase {ph : Phase φ} {exec : List φ} {l : EventLoop φ}
    (hidle : s.caller loopThread = .idle)
    (hord : exec ++ ph.rest ++ l.pendingFunctors = s.pushed)
    (hcall : l.callingPendingFunctors = ph.calling)
    (hcov : ph.settled = true → Covered loopThread { s with phase := ph, loop := l }) :
    Inv loopThread { s with phase := ph, executed := exec, loop := l } :=
  ⟨hord, hcall, fun hne => absurd hidle hne, fun hs _ => hcov hs⟩

/-- The same for a phase that is about to swap, where nothing need be covered. -/
theorem Inv.setUnsettled {ph : Phase φ} {l : EventLoop φ}
    (hidle : s.caller loopThread = .idle) (hs : ph.settled = false)
    (hord : s.executed ++ ph.rest ++ l.pendingFunctors = s.pushed)
    (hcall : l.callingPendingFunctors = ph.calling) :
    Inv loopThread { s with phase := ph, loop := l } :=
  Inv.setPhase hidle hord hcall fun h => absurd (hs.symm.trans h) (by decide)

section Step

variable [DecidableEq T]

theorem Inv.push (h : Inv loopThread s) {t : T} {cb : φ}
    (ht : t = loopThread → s.phase.inBody = true) :
    Inv loopThread { s.setCaller t .pushed with
      loop := s.loop.push cb, pushed := s.pushed ++ [cb] } := by
  refine ⟨?_, h.calling, ?_, ?_⟩
  · show s.executed ++ s.phase.rest ++ (s.loop.pendingFunctors ++ [cb]) = s.pushed ++ [cb]
    rw [← List.append_assoc, h.ordered]
  · intro hne
    by_cases hlt : t = loopThread
    · exact ht hlt
    · refine h.inBody ?_
      simpa [State.setCaller, Function.update_of_ne (Ne.symm hlt)] using hne
  · intro hs hidle
    by_cases hlt : t = loopThread
    · simp [State.setCaller, hlt] at hidle
    · exact Covered.of_busy hlt (.inl (by simp [State.setCaller]))

theorem Inv.test (h : Inv loopThread s) {t : T} (ht : s.caller t = .pushed) :
    Inv loopThread (s.setCaller t
      (if s.loop.mustWakeup (decide (t = loopThread)) then .waking else .idle)) := by
  by_cases hlt : t = loopThread
  · subst hlt
    have hb : s.phase.inBody = true := h.inBody (by simp [ht])
    refine ⟨h.ordered, h.calling, fun _ => hb, fun hs hidle => ?_⟩
    -- a functor's push is followed by a wakeup, so the thread is not idle again
    have hcalling : s.phase.calling = true := by
      revert hb hs
      simp only [State.setCaller]
      cases s.phase <;> simp [Phase.inBody, Phase.settled, Phase.calling]
    simp [State.setCaller, EventLoop.mustWakeup, h.calling, hcalling] at hidle
  · have hwake : s.loop.mustWakeup (decide (t = loopThread)) = true := by
      simp [EventLoop.mustWakeup, hlt]
    rw [hwake, if_pos rfl]
    refine ⟨h.ordered, h.calling, fun hne => h.inBody ?_, fun _ _ => ?_⟩
    · simpa [State.setCaller, Function.update_of_ne (Ne.symm hlt)] using hne
    · exact Covered.of_busy hlt (.inr (by simp [State.setCaller]))

theorem Inv.wake (h : Inv loopThread s) (t : T) :
    Inv loopThread { s.setCaller t .idle with loop := s.loop.wakeup } := by
  refine ⟨?_, ?_, fun hne => h.inBody ?_, fun _ _ => Covered.of_pos s.loop.wakeup_pos⟩
  · show s.executed ++ s.phase.rest ++ s.loop.wakeup.pendingFunctors = s.pushed
    rw [s.loop.wakeup_pendingFunctors, h.ordered]
  · show s.loop.wakeup.callingPendingFunctors = s.phase.calling
    rw [s.loop.wakeup_callingPendingFunctors, h.calling]
  · by_cases hlt : t = loopThread
    · simp [State.setCaller, hlt] at hne
    · simpa [State.setCaller, Function.update_of_ne (Ne.symm hlt)] using hne

theorem Inv.quit (h : Inv loopThread s) {t : T} (hidle : s.caller t = .idle) :
    Inv loopThread { s.setCaller t (if t = loopThread then .idle else .quitting) with
      loop := { s.loop with quit := true } } := by
  refine ⟨h.ordered, h.calling, fun hne => h.inBody ?_, fun hs hi => ?_⟩
  · by_cases hlt : t = loopThread
    · simp [State.setCaller, hlt] at hne
    · simpa [State.setCaller, Function.update_of_ne (Ne.symm hlt)] using hne
  · have hloop : s.caller loopThread = .idle := by
      by_cases hlt : t = loopThread
      · rw [← hlt]
        exact hidle
      · simpa [State.setCaller, Function.update_of_ne (Ne.symm hlt)] using hi
    refine (h.covered hs hloop).congr rfl rfl fun u hu => ?_
    have hut : u ≠ t := by
      rintro rfl
      simp [hidle] at hu
    simpa [State.setCaller, Function.update_of_ne hut] using hu

theorem inv_move {a : Label T φ} (h : Inv loopThread s) (hmove : Move loopThread s a s') :
    Inv loopThread s' := by
  have hord := h.ordered
  have hcall := h.calling
  have hidle := h.loop_idle
  have hcov := h.covered_of
  rw [Ordered] at hord
  cases hmove with
  | push _ hbody => exact h.push hbody
  | test ht => exact h.test ht
  | @wake t => exact h.wake t
  | quit ht => exact h.quit ht
  | enterLoop hp =>
    rw [hp] at hord hcall hidle hcov
    exact Inv.setPhase (hidle rfl) hord hcall fun _ => (hcov rfl rfl).congr rfl rfl fun _ => id
  | testQuit hp =>
    rw [hp] at hord hcall hidle hcov
    have hcov' : Covered loopThread s := hcov rfl rfl
    by_cases hq : s.loop.quit
    · rw [if_pos hq]
      exact Inv.setPhase (hidle rfl) hord hcall fun _ => hcov'.congr rfl rfl fun _ => id
    · rw [if_neg hq]
      exact Inv.setPhase (hidle rfl) hord hcall fun _ => hcov'.congr rfl rfl fun _ => id
  | pollReturn hp =>
    -- from here to the swap nothing need be covered
    rw [hp] at hord hcall hidle
    exact Inv.setUnsettled (hidle rfl) rfl hord hcall
  | dispatchWakeup hp =>
    rw [hp] at hord hcall hidle
    exact Inv.setUnsettled (hidle rfl) rfl hord hcall
  | dispatchOther hp =>
    rw [hp] at hord hcall hidle
    exact Inv.setUnsettled (hidle rfl) rfl hord hcall
  | handlerReturn hp hi =>
    rw [hp] at hord hcall
    exact Inv.setUnsettled hi rfl hord hcall
  | beginPendingFunctors hp =>
    rw [hp] at hord hidle
    exact Inv.setUnsettled (hidle rfl) rfl hord rfl
  | swap hp =>
    rw [hp] at hord hcall hidle
    refine Inv.setPhase (hidle rfl) ?_ hcall fun _ hne => absurd rfl hne
    -- the batch taken is the whole queue
    have hrest : (Phase.swapping : Phase φ).rest = [] := rfl
    show s.executed ++ s.loop.pendingFunctors ++ [] = s.pushed
    rw [List.append_nil, ← hord, hrest, List.append_nil]
  | @runFunctor cb rest hp =>
    rw [hp] at hord hcall hidle hcov
    refine Inv.setPhase (hidle rfl) ?_ hcall
      fun _ => (hcov rfl rfl).congr rfl rfl fun _ => id
    show s.executed ++ [cb] ++ rest ++ s.loop.pendingFunctors = s.pushed
    rw [List.append_assoc s.executed, List.singleton_append]
    exact hord
  | functorReturn hp hi =>
    have hc : Covered loopThread s := h.covered (by rw [hp]; rfl) hi
    rw [hp] at hord hcall
    exact Inv.setPhase hi hord hcall fun _ => hc.congr rfl rfl fun _ => id
  | endPendingFunctors hp =>
    rw [hp] at hord hidle hcov
    exact Inv.setPhase (hidle rfl) hord rfl fun _ => (hcov rfl rfl).congr rfl rfl fun _ => id

theorem inv_reachable (hs : (system loopThread).Reachable s) : Inv loopThread s :=
  Machine.Reachable.invariant (I := Inv loopThread)
    (fun t ht => by
      obtain rfl : t = start := ht
      exact inv_start)
    (fun _ _ _ h ht => inv_move h (move_of_step ht)) hs

/-- In every interleaving: functors run in push order with none lost or
duplicated, and a loop thread that waits in `poll` on a non-empty queue will be
woken. -/
theorem tasks_ordered_and_woken (hs : (system loopThread).Reachable s) :
    (s.executed ++ s.phase.rest ++ s.loop.pendingFunctors = s.pushed) ∧
      (s.phase = .polling → s.loop.pendingFunctors ≠ [] →
        0 < s.loop.wakeupCounter ∨
          ∃ t, t ≠ loopThread ∧ (s.caller t = .pushed ∨ s.caller t = .waking)) := by
  have h := inv_reachable hs
  refine ⟨h.ordered, fun hp => ?_⟩
  exact h.covered_of (by rw [hp]; rfl) (by rw [hp]; rfl)

end Step

/-- Thread 1 has pushed functor 7 on the loop of thread 0, which is polling. -/
theorem tasks_ordered_and_woken_pushed :
    ∃ s : State ℕ ℕ, (system 0).Reachable s ∧ s.phase = .polling ∧
      s.loop.pendingFunctors = [7] ∧
      ((s.executed ++ s.phase.rest ++ s.loop.pendingFunctors = s.pushed) ∧
        (s.phase = .polling → s.loop.pendingFunctors ≠ [] →
          0 < s.loop.wakeupCounter ∨
            ∃ t, t ≠ 0 ∧ (s.caller t = .pushed ∨ s.caller t = .waking))) := by
  have hstart : (system 0).Reachable (start : State ℕ ℕ) := .init rfl
  have hrun : ∃ s, (system 0).run (start : State ℕ ℕ) [.enterLoop, .testQuit, .push 1 7] = some s ∧
      s.phase = .polling ∧ s.loop.pendingFunctors = [7] := ⟨_, rfl, rfl, rfl⟩
  obtain ⟨s, hs, hp, hq⟩ := hrun
  exact ⟨s, hstart.run hs, hp, hq, tasks_ordered_and_woken (hstart.run hs)⟩

end TaskQueue

end Moduo
