/-
The queue of a loop of a server, and the threads that push on it.

* `Drives` — a state of `TaskQueue` shows one loop of the server: its fields, its phase
  and where every thread is inside a `queueInLoop` or `quit` on it;
* `SameQueue.exec` — what an instruction is for the queue and the callers.
-/
import Moduo.ServerGround
import Moduo.TaskQueue

namespace Moduo

namespace TcpServer

variable {L U : Type*}

/-! ### Observation -/

/-- The kernel reports an eventfd as readable only while its counter is positive, and
code outside of `loop()`, on the thread of a loop, calls neither `send` nor `shutdown`
nor `quit`. -/
def Regular (cfg : Config L U) (s : State L U) : Label L U → Prop
  | .exec (.loop l) (.polled ready) =>
    ∀ b ∈ ready, b.1 = cfg.wakeupFd l → b.2 &&& (EPOLLIN ||| EPOLLPRI) ≠ 0 →
      0 < (s.loops l).wakeupCounter
  | .send (.loop l) _ _ => s.stack (.loop l) ≠ []
  | .shutdown (.loop l) _ => s.stack (.loop l) ≠ []
  | .quit (.loop l) _ => s.stack (.loop l) ≠ []
  | _ => True

section Observe

variable [DecidableEq L]

instance (cfg : Config L U) (s : State L U) : (a : Label L U) → Decidable (Regular cfg s a)
  | .exec (.loop l) (.polled ready) => inferInstanceAs (Decidable (∀ b ∈ ready,
      b.1 = cfg.wakeupFd l → b.2 &&& (EPOLLIN ||| EPOLLPRI) ≠ 0 → 0 < (s.loops l).wakeupCounter))
  | .exec (.loop _) .none => .isTrue trivial
  | .exec (.loop _) (.read _) => .isTrue trivial
  | .exec (.loop _) (.wrote _) => .isTrue trivial
  | .exec (.loop _) (.accepted _) => .isTrue trivial
  | .exec (.user _) _ => .isTrue trivial
  | .callbackReturn _ => .isTrue trivial
  | .send (.loop l) _ _ => inferInstanceAs (Decidable (s.stack (.loop l) ≠ []))
  | .send (.user _) _ _ => .isTrue trivial
  | .shutdown (.loop l) _ => inferInstanceAs (Decidable (s.stack (.loop l) ≠ []))
  | .shutdown (.user _) _ => .isTrue trivial
  | .setThreadNum _ => .isTrue trivial
  | .loop _ => .isTrue trivial
  | .quit (.loop l) _ => inferInstanceAs (Decidable (s.stack (.loop l) ≠ []))
  | .quit (.user _) _ => .isTrue trivial
  | .destroyServer _ => .isTrue trivial
  | .destroyConnection _ => .isTrue trivial

/-- What a step pushes on loop `l`. -/
def State.pushes (s : State L U) (l : L) : Label L U → List (Functor L)
  | .exec t _ => (s.stack t).head?.elim [] (Instr.pushes l)
  | _ => []

end Observe

/-! ### Where the loop and the callers are -/

section Phase

variable [DecidableEq L]

/-- What an event is to the loop's queue. -/
def readyOf (l : L) (e : ChannelPtr L × EventMask) : TaskQueue.Ready :=
  if e.1 = .wakeup l ∧ e.2 &&& (EPOLLIN ||| EPOLLPRI) ≠ 0 then .wakeup else .other

/-- The phase of loop `l`, which is in this round and runs this body. -/
def Round.phase (l : L) : Round L → List (Instr L) → TaskQueue.Phase (Functor L)
  | .outside, _ => .outside
  | .testing, _ => .testing
  | .polling, _ => .polling
  | .dispatching events, [] => .dispatching (events.map (readyOf l))
  | .dispatching events, _ :: _ => .handling (events.map (readyOf l))
  | .swapping, _ => .swapping
  | .running functors, [] => .running functors
  | .running functors, _ :: _ => .executing functors
  | .disconnecting _ functors, _ => .executing functors
  | .removing _ functors, _ => .executing functors

omit [DecidableEq L] in
/-- Where a thread with this stack is inside a `queueInLoop` or `quit` on loop `l`. -/
def Stands (l : L) (is : List (Instr L)) : TaskQueue.Caller → Prop
  | .idle => ∀ i ∈ is.head?, i ≠ .testWakeup l ∧ i ≠ .wakeup l
  | .pushed => is.head? = some (.testWakeup l)
  | .waking => is.head? = some (.wakeup l)
  | .quitting => is.head? = some (.wakeup l)

/-- The instruction may follow a call of `setThreadNum` on the thread of loop `l`,
before `loop()`. -/
def Instr.Starting (cfg : Config L U) (l : L) (i : Instr L) : Prop :=
  i = .functor .listen ∨ l ≠ cfg.base ∧
    (i = .queueInLoop cfg.base .listen ∨ i = .testWakeup cfg.base ∨ i = .wakeup cfg.base)

/-- Queue and callers of loop `l` are those of `u`. -/
structure SameQueue (l : L) (s : State L U) (pushed : List (Functor L))
    (u : TaskQueue.State (Thread L U) (Functor L)) : Prop where
  loop : u.loop = s.loops l
  pushed : u.pushed = pushed
  caller : ∀ t, Stands l (s.stack t) (u.caller t)

structure Drives (cfg : Config L U) (l : L) (lay : Layout L U) (s : State L U)
    (pushed : List (Functor L)) (u : TaskQueue.State (Thread L U) (Functor L)) : Prop
    extends SameQueue l s pushed u where
  phase : u.phase = (lay.round l).phase l (lay.body (.loop l))
  outside : lay.round l = .outside → ∀ i ∈ lay.body (.loop l), i.Starting cfg l

end Phase

/-! ### Instructions -/

section Runs

variable [DecidableEq L] {cfg : Config L U} {l : L} {s s' : State L U} {t : Thread L U}
  {i : Instr L} {o : Outcome} {rest is : List (Instr L)}

/-- A wakeup follows a push and the test after it only. -/
theorem waking_follows (hruns : Runs cfg t s i o s' is) {j : Instr L} (hj : j ∈ is) :
    (j = .testWakeup l → ∃ f, i = .queueInLoop l f) ∧
      (j = .wakeup l → i = .testWakeup l ∨ i = .quit l) := by
  have hrunInLoop : ∀ {m : L} {f : Functor L}, j ∈ cfg.runInLoop t m f →
      (j = .testWakeup l → ∃ f, i = .queueInLoop l f) ∧
        (j = .wakeup l → i = .testWakeup l ∨ i = .quit l) := by
    intro m f hj
    rcases Config.mem_runInLoop hj with rfl | rfl
    · simp
    · simp
  cases hruns with
  | calls =>
    rcases mem_effects hj with ⟨cb, rfl⟩ | rfl | rfl
    all_goals simp
  | poll =>
    rcases List.mem_append.mp hj with hj | hj
    · obtain ⟨b, -, e, -, rfl⟩ := mem_activeChannels hj
      simp
    · obtain rfl := List.mem_singleton.mp hj
      simp
  | swap =>
    rcases List.mem_append.mp hj with hj | hj
    · obtain ⟨f, -, rfl⟩ := List.mem_map.mp hj
      simp
    · obtain rfl := List.mem_singleton.mp hj
      simp
  | destroyFound =>
    rcases List.mem_pair.mp hj with rfl | rfl
    all_goals simp
  | handleEvent =>
    rcases mem_eventCallbacks hj with rfl | rfl | rfl | rfl | rfl
    all_goals simp
  | newConnection => exact hrunInLoop hj
  | setDisconnecting => exact hrunInLoop hj
  | removeConnection => exact hrunInLoop hj
  | quit =>
    obtain rfl := Config.mem_quit hj
    simp
  | leave => exact absurd hj List.not_mem_nil
  | listen => exact absurd hj List.not_mem_nil
  | noWakeup => exact absurd hj List.not_mem_nil
  | wakeup => exact absurd hj List.not_mem_nil
  | handleWakeup => exact absurd hj List.not_mem_nil
  | ignored => exact absurd hj List.not_mem_nil
  | unguard => exact absurd hj List.not_mem_nil
  | join => exact absurd hj List.not_mem_nil
  | removeAcceptor => exact absurd hj List.not_mem_nil
  | _ =>
    obtain rfl := List.mem_singleton.mp hj
    simp

end Runs

/-! ### Callers -/

section Callers

variable {l : L} {is : List (Instr L)} {c : TaskQueue.Caller}

theorem Stands.idle (h : Stands l is c) (hw : is.head? ≠ some (.wakeup l))
    (ht : is.head? ≠ some (.testWakeup l)) : c = .idle := by
  cases c with
  | idle => rfl
  | pushed => exact absurd h ht
  | waking => exact absurd h hw
  | quitting => exact absurd h hw

theorem Stands.pushed (h : Stands l is c) (ht : is.head? = some (.testWakeup l)) :
    c = .pushed := by
  cases c with
  | idle => exact absurd rfl (h _ ht).1
  | pushed => rfl
  | waking => simp [Stands, ht] at h
  | quitting => simp [Stands, ht] at h

theorem Stands.waking (h : Stands l is c) (hw : is.head? = some (.wakeup l)) :
    c = .waking ∨ c = .quitting := by
  cases c with
  | idle => exact absurd rfl (h _ hw).2
  | pushed => simp [Stands, hw] at h
  | waking => exact .inl rfl
  | quitting => exact .inr rfl

/-- The instruction is not in the middle of a `queueInLoop` or `quit`. -/
def Instr.Calm (l : L) (i : Instr L) : Prop := i ≠ .testWakeup l ∧ i ≠ .wakeup l

theorem Instr.Calm.of_not_immediate {i : Instr L} (h : i.immediate = false) : i.Calm l := by
  constructor
  · rintro rfl
    contradiction
  · rintro rfl
    contradiction

/-- Below the first instruction of a stack nothing is in the middle of a call. -/
theorem Layout.Fits.calm {lay : Layout L U} {s : State L U} (hfits : lay.Fits s)
    {t : Thread L U} {i : Instr L} {rest : List (Instr L)} (hstack : s.stack t = i :: rest) :
    ∀ j ∈ rest.head?, j.Calm l := by
  have hround : ∀ (r : Round L) (m : L), ∀ j ∈ r.instrs m, j.Calm l := by
    intro r m j hj
    cases r with
    | outside => exact absurd hj List.not_mem_nil
    | testing => exact List.mem_singleton.mp hj ▸ .of_not_immediate rfl
    | polling => exact List.mem_singleton.mp hj ▸ .of_not_immediate rfl
    | swapping => exact List.mem_singleton.mp hj ▸ .of_not_immediate rfl
    | dispatching events =>
      rcases List.mem_append.mp hj with hj | hj
      · obtain ⟨e, -, rfl⟩ := List.mem_map.mp hj
        exact .of_not_immediate rfl
      · exact List.mem_singleton.mp hj ▸ .of_not_immediate rfl
    | running functors =>
      rcases List.mem_append.mp hj with hj | hj
      · obtain ⟨f, -, rfl⟩ := List.mem_map.mp hj
        exact ⟨by simp, by simp⟩
      · exact List.mem_singleton.mp hj ▸ .of_not_immediate rfl
    | disconnecting c functors =>
      simp only [Round.instrs, List.cons_append, List.mem_cons, List.mem_append, List.mem_map,
        List.not_mem_nil, or_false] at hj
      rcases hj with rfl | rfl | ⟨f, -, rfl⟩ | rfl
      all_goals exact ⟨by simp, by simp⟩
    | removing c functors =>
      simp only [Round.instrs, List.cons_append, List.mem_cons, List.mem_append, List.mem_map,
        List.not_mem_nil, or_false] at hj
      rcases hj with rfl | ⟨f, -, rfl⟩ | rfl
      all_goals exact ⟨by simp, by simp⟩
  intro j hj
  have hj : j ∈ rest := List.mem_of_mem_head? hj
  rcases hfits.cases_stack hstack with ⟨b, hbody, rfl⟩ | ⟨m, rfl, -, hm⟩
  · rcases List.mem_append.mp hj with hj | hj
    · exact .of_not_immediate (hfits.immediate t j (by rwa [hbody]))
    · cases t with
      | loop m => exact hround _ _ j hj
      | user u => exact absurd hj List.not_mem_nil
  · refine hround (lay.round m) m j ?_
    rw [hm]
    exact List.mem_cons_of_mem _ hj

end Callers

/-! ### The queue -/

section Queue

variable [DecidableEq L] [DecidableEq U] {cfg : Config L U} {l : L} {s s' : State L U}
  {t : Thread L U} {i : Instr L} {o : Outcome} {rest is : List (Instr L)}
  {pushed : List (Functor L)} {u v : TaskQueue.State (Thread L U) (Functor L)}

omit [DecidableEq L] [DecidableEq U] in
theorem isInLoopThread_iff : cfg.isInLoopThread t l = true ↔ t = .loop l := by
  rw [Config.isInLoopThread, decide_eq_true_iff]
  exact ⟨fun heq => (cfg.tid_injective heq).symm, fun heq => by rw [heq]⟩

/-- Another stack of thread `t`, on which nothing is in the middle of a call. -/
theorem SameQueue.setStack (h : SameQueue l s pushed u) (hloop : v.loop = s'.loops l)
    (hpushed : v.pushed = pushed) (hcaller : v.caller = Function.update u.caller t .idle)
    (hstack : s'.stack = s.stack) (hcalm : ∀ j ∈ is.head?, j.Calm l) :
    SameQueue l (s'.setStack t is) pushed v where
  loop := hloop
  pushed := hpushed
  caller t' := by
    rw [hcaller]
    by_cases ht : t' = t
    · subst ht
      rw [State.setStack_self, Function.update_self]
      exact hcalm
    · rw [State.setStack_of_ne ht, Function.update_of_ne ht, hstack]
      exact h.caller t'

/-- An instruction that is no part of a call on loop `l` and leaves its fields alone. -/
theorem SameQueue.aside (h : SameQueue l s pushed u) (hidle : u.caller t = .idle)
    (hloop : s'.loops l = s.loops l) (hstack : s'.stack = s.stack)
    (hcalm : ∀ j ∈ is.head?, j.Calm l) : SameQueue l (s'.setStack t is) pushed u := by
  refine h.setStack (h.loop.trans hloop.symm) h.pushed ?_ hstack hcalm
  rw [← hidle, Function.update_eq_self]

omit [DecidableEq L] in
theorem head_append (his : ∀ j ∈ is, j.Calm l) (hrest : ∀ j ∈ rest.head?, j.Calm l) :
    ∀ j ∈ (is ++ rest).head?, j.Calm l := by
  cases is with
  | nil => exact hrest
  | cons k is =>
    intro j hj
    exact Option.some.inj hj ▸ his k List.mem_cons_self

/-- A thread runs an instruction, which changes no field of loop `l` but by a call. -/
theorem SameQueue.exec (h : SameQueue l s pushed u) (hstack : s.stack t = i :: rest)
    (hruns : Runs cfg t s i o s' is) (hrest : ∀ j ∈ rest.head?, j.Calm l)
    (hbody : t = .loop l → (∃ f, i = .queueInLoop l f) → u.phase.inBody = true)
    (hcall : i.loop? = some l → (∃ f, i = .queueInLoop l f) ∨ i = .wakeup l) :
    ∃ v, (TaskQueue.system (.loop l)).Leads u v ∧
      SameQueue l (s'.setStack t (is ++ rest)) (pushed ++ i.pushes l) v ∧ v.phase = u.phase := by
  have hcaller := h.caller t
  rw [hstack] at hcaller
  have hsame := stack_runs hruns
  by_cases hpush : ∃ f, i = .queueInLoop l f
  · obtain ⟨f, rfl⟩ := hpush
    have hidle : u.caller t = .idle := hcaller.idle (by simp) (by simp)
    cases hruns with
    | calls _ hcalls => cases hcalls
    | queueInLoop =>
      have hstep : (TaskQueue.system (.loop l)).step u (.push t f) =
          some { u.setCaller t .pushed with loop := u.loop.push f, pushed := u.pushed ++ [f] } :=
        if_pos ⟨hidle, fun ht => hbody ht ⟨f, rfl⟩⟩
      refine ⟨_, .single hstep, ⟨?_, ?_, fun t' => ?_⟩, rfl⟩
      · show u.loop.push f = Function.update s.loops l ((s.loops l).push f) l
        rw [Function.update_self, h.loop]
      · show u.pushed ++ [f] = pushed ++ if l = l then [f] else []
        rw [if_pos rfl, h.pushed]
      · show Stands l _ (Function.update u.caller t .pushed t')
        by_cases ht : t' = t
        · subst ht
          rw [State.setStack_self, Function.update_self]
          rfl
        · rw [State.setStack_of_ne ht, Function.update_of_ne ht]
          exact h.caller t'
  · have hnone : pushed ++ i.pushes l = pushed := by
      have hnil : i.pushes l = [] := by
        cases i with
        | queueInLoop m f =>
          refine if_neg ?_
          rintro rfl
          exact hpush ⟨f, rfl⟩
        | _ => rfl
      rw [hnil, List.append_nil]
    rw [hnone]
    by_cases htest : i = .testWakeup l
    · subst htest
      have hnow := hcaller.pushed rfl
      have hthread : cfg.isInLoopThread t l = decide (t = .loop l) :=
        Bool.eq_iff_iff.mpr (isInLoopThread_iff.trans decide_eq_true_iff.symm)
      have hstep : (TaskQueue.system (.loop l)).step u (.test t) = some (u.setCaller t
          (if (s.loops l).mustWakeup (cfg.isInLoopThread t l) then .waking else .idle)) := by
        rw [hthread, ← h.loop]
        exact if_pos hnow
      refine ⟨_, .single hstep, ?_, rfl⟩
      cases hruns with
      | calls _ hcalls => cases hcalls
      | testWakeup hmust =>
        rw [if_pos hmust]
        refine ⟨h.loop, h.pushed, fun t' => ?_⟩
        show Stands l _ (Function.update u.caller t .waking t')
        by_cases ht : t' = t
        · subst ht
          rw [State.setStack_self, Function.update_self]
          rfl
        · rw [State.setStack_of_ne ht, Function.update_of_ne ht]
          exact h.caller t'
      | noWakeup hmust =>
        rw [if_neg (by simp [hmust])]
        exact h.setStack h.loop h.pushed rfl rfl hrest
    · by_cases hwake : i = .wakeup l
      · subst hwake
        have hnow := hcaller.waking rfl
        cases hruns with
        | calls _ hcalls => cases hcalls
        | wakeup =>
          have hstep : (TaskQueue.system (.loop l)).step u (.wake t) =
              some { u.setCaller t .idle with loop := u.loop.wakeup } := if_pos hnow
          refine ⟨_, .single hstep, h.setStack ?_ h.pushed rfl rfl hrest, rfl⟩
          show u.loop.wakeup = Function.update s.loops l (s.loops l).wakeup l
          rw [Function.update_self, h.loop]
      · have hidle : u.caller t = .idle :=
          hcaller.idle (by simpa using hwake) (by simpa using htest)
        have hloop : i.loop? ≠ some l := by
          intro hl
          rcases hcall hl with hp | hw
          · exact hpush hp
          · exact hwake hw
        refine ⟨u, .refl _ _, h.aside hidle (loops_runs hruns hloop) hsame ?_, rfl⟩
        refine head_append (fun j hj => ⟨fun hj' => ?_, fun hj' => ?_⟩) hrest
        · exact hpush ((waking_follows hruns hj).1 hj')
        · rcases (waking_follows hruns hj).2 hj' with hi | hi
          · exact htest hi
          · subst hi
            exact hloop rfl

end Queue

end TcpServer

end Moduo
