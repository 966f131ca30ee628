/-
What a step does to the loops and to the stacks.

* `loops_runs` — an instruction changes the fields of one loop at most;
* `pending_runs` — a queue changes by a push and by the swap only;
* `quit_runs` — and `quit_` is set by `quit`;
* `comes_move` — where an instruction on a stack comes from.
-/
import Moduo.TcpServer

namespace Moduo

namespace TcpServer

variable {L U : Type*}

/-- The loop whose fields an instruction may change. -/
def Instr.loop? : Instr L → Option L
  | .beginPendingFunctors l => some l
  | .swap l => some l
  | .endPendingFunctors l => some l
  | .queueInLoop l _ => some l
  | .wakeup l => some l
  | .handleEvent (.wakeup l) _ => some l
  | .quit l => some l
  | _ => none

section Fields

variable [DecidableEq L]

/-- What an instruction pushes on loop `l`. -/
def Instr.pushes (l : L) : Instr L → List (Functor L)
  | .queueInLoop m f => if m = l then [f] else []
  | _ => []

variable {cfg : Config L U} {s s' : State L U} {t : Thread L U} {i : Instr L} {o : Outcome}
  {is : List (Instr L)} {l m : L} {loop : EventLoop (Functor L)}

theorem setLoop_self : (s.setLoop l loop).loops l = loop :=
  Function.update_self ..

theorem setLoop_of_ne (hm : m ≠ l) :
    (s.setLoop l loop).loops m = s.loops m :=
  Function.update_of_ne hm ..

/-- A change of a loop that leaves its queue alone leaves the queues alone. -/
theorem pending_setLoop_same (hq : loop.pendingFunctors = (s.loops l).pendingFunctors) (m : L) :
    ((s.setLoop l loop).loops m).pendingFunctors = (s.loops m).pendingFunctors := by
  rcases eq_or_ne m l with rfl | hm
  · rw [setLoop_self, hq]
  · rw [setLoop_of_ne hm]

theorem loops_runs (hruns : Runs cfg t s i o s' is) (hl : i.loop? ≠ some l) :
    s'.loops l = s.loops l := by
  have hother : ∀ (m : L) (loop : EventLoop (Functor L)), some m ≠ some l →
      (s.setLoop m loop).loops l = s.loops l := by
    intro m loop hm
    exact setLoop_of_ne fun h => hm (by rw [h])
  cases hruns with
  | beginPendingFunctors => exact hother _ _ hl
  | swap => exact hother _ _ hl
  | endPendingFunctors => exact hother _ _ hl
  | queueInLoop => exact hother _ _ hl
  | wakeup => exact hother _ _ hl
  | handleWakeup => exact hother _ _ hl
  | quit => exact hother _ _ hl
  | _ => rfl

/-- What an instruction does to a queue. -/
theorem pending_runs (hruns : Runs cfg t s i o s' is) :
    (s'.loops l).pendingFunctors =
      (if i = .swap l then [] else (s.loops l).pendingFunctors) ++ i.pushes l := by
  by_cases hl : i.loop? = some l
  · cases hruns with
    | beginPendingFunctors =>
      obtain rfl := Option.some.inj hl
      simp [setLoop_self, Instr.pushes, EventLoop.beginPendingFunctors]
    | swap =>
      obtain rfl := Option.some.inj hl
      simp [setLoop_self, Instr.pushes, EventLoop.swapFunctors]
    | endPendingFunctors =>
      obtain rfl := Option.some.inj hl
      simp [setLoop_self, Instr.pushes, EventLoop.endPendingFunctors]
    | queueInLoop =>
      obtain rfl := Option.some.inj hl
      simp [setLoop_self, Instr.pushes, EventLoop.push]
    | wakeup =>
      obtain rfl := Option.some.inj hl
      simp [setLoop_self, Instr.pushes, EventLoop.wakeup_pendingFunctors]
    | handleWakeup =>
      obtain rfl := Option.some.inj hl
      simp [setLoop_self, Instr.pushes, EventLoop.handleRead]
    | quit =>
      obtain rfl := Option.some.inj hl
      simp [setLoop_self, Instr.pushes]
    | ignored =>
      simp [Instr.pushes]
    | calls _ hcalls => cases hcalls <;> contradiction
    | _ => contradiction
  · rw [loops_runs hruns hl, if_neg (fun h => hl (by rw [h]; rfl))]
    -- only `queueInLoop` pushes, and on its own loop
    have hnil : i.pushes l = [] := by
      cases i with
      | queueInLoop m f => exact if_neg fun hm => hl (by rw [Instr.loop?, hm])
      | _ => rfl
    rw [hnil, List.append_nil]

/-- Nothing gets into a queue but by `queueInLoop`. -/
theorem mem_pending_runs (hruns : Runs cfg t s i o s' is) {f : Functor L}
    (hf : f ∈ (s'.loops l).pendingFunctors) :
    f ∈ (s.loops l).pendingFunctors ∨ i = .queueInLoop l f := by
  rw [pending_runs hruns] at hf
  rcases List.mem_append.mp hf with hold | hpushed
  · split_ifs at hold
    · contradiction
    · exact .inl hold
  · cases i with
    | queueInLoop m g =>
      rw [Instr.pushes] at hpushed
      split_ifs at hpushed with hm
      · exact .inr (by rw [hm, List.mem_singleton.mp hpushed])
      · contradiction
    | _ => contradiction

/-- `quit_` is set by `quit` only. -/
theorem quit_runs (hruns : Runs cfg t s i o s' is) (hq : (s'.loops l).quit = true) :
    (s.loops l).quit = true ∨ i = .quit l := by
  have hset : ∀ {m : L} {loop : EventLoop (Functor L)},
      ((s.setLoop m loop).loops l).quit = true → loop.quit = (s.loops m).quit →
      (s.loops l).quit = true := by
    intro m loop hquit hloop
    rcases eq_or_ne l m with rfl | hne
    · rwa [setLoop_self, hloop] at hquit
    · rwa [setLoop_of_ne hne] at hquit
  cases hruns with
  | beginPendingFunctors => exact .inl (hset hq rfl)
  | swap => exact .inl (hset hq rfl)
  | endPendingFunctors => exact .inl (hset hq rfl)
  | wakeup => exact .inl (hset hq (EventLoop.wakeup_quit _))
  | handleWakeup => exact .inl (hset hq rfl)
  | queueInLoop => exact .inl (hset hq rfl)
  | @quit m =>
    rcases eq_or_ne l m with rfl | hne
    · exact .inr rfl
    · rw [setLoop_of_ne hne] at hq
      exact .inl hq
  | _ => exact .inl hq

end Fields

/-! ### Where an instruction comes from -/

section Stacks

variable [DecidableEq L]

/-- What a call from outside of an instruction puts on the stack of its thread. -/
inductive Pushed (cfg : Config L U) : Label L U → Thread L U → Instr L → Prop
  | send {t : Thread L U} {c : ConnPtr L} {message : List Byte} {j : Instr L} :
      j ∈ cfg.runInLoop t c.loop (.sendInLoop c message) → Pushed cfg (.send t c message) t j
  | shutdown {t : Thread L U} {c : ConnPtr L} :
      Pushed cfg (.shutdown t c) t (.setDisconnecting c)
  | setThreadNum {t : Thread L U} {j : Instr L} :
      j ∈ cfg.runInLoop t cfg.base .listen → Pushed cfg (.setThreadNum t) t j
  | loop {l : L} : Pushed cfg (.loop l) (.loop l) (.testQuit l)
  | quit {t : Thread L U} {l : L} : Pushed cfg (.quit t l) t (.wakeup l)
  | destroyServer {order : List (ConnPtr L)} {j : Instr L} : j ∈ destroyServer cfg order →
      Pushed cfg (.destroyServer order) (.loop cfg.base) j

/-- An instruction was on the stack before, or follows the one that was executed, or was put
there by a call. -/
inductive Comes (cfg : Config L U) (s : State L U) (a : Label L U) (t : Thread L U)
    (j : Instr L) : Prop
  | kept : j ∈ s.stack t → Comes cfg s a t j
  | follows {o : Outcome} {i : Instr L} {rest is : List (Instr L)} {s₁ : State L U} :
      a = .exec t o → s.stack t = i :: rest → Runs cfg t s i o s₁ is → j ∈ is →
      Comes cfg s a t j
  | pushed : Pushed cfg a t j → Comes cfg s a t j

variable {cfg : Config L U} {s s' : State L U} {t : Thread L U} {j : Instr L}

/-- An instruction leaves the stacks alone: what follows it is put there by the step. -/
theorem stack_runs {i : Instr L} {o : Outcome} {is : List (Instr L)}
    (hruns : Runs cfg t s i o s' is) : s'.stack = s.stack := by
  cases hruns <;> rfl

variable [DecidableEq U]

theorem mem_stack_push {u : Thread L U} {is : List (Instr L)} (hj : j ∈ (s.push u is).stack t) :
    j ∈ s.stack t ∨ t = u ∧ j ∈ is := by
  by_cases ht : t = u
  · subst ht
    rw [State.push, State.setStack_self] at hj
    exact (List.mem_append.mp hj).symm.imp id fun h => ⟨rfl, h⟩
  · rw [State.push, State.setStack_of_ne ht] at hj
    exact .inl hj

theorem comes_move [Fintype L] {a : Label L U} (hmove : Move cfg s a s')
    (hj : j ∈ s'.stack t) : Comes cfg s a t j := by
  cases hmove with
  | @exec u o i rest is s₁ hstack hruns =>
    by_cases ht : t = u
    · subst ht
      rw [State.setStack_self] at hj
      rcases List.mem_append.mp hj with hnew | hold
      · exact .follows rfl hstack hruns hnew
      · exact .kept (hstack ▸ List.mem_cons_of_mem i hold)
    · rw [State.setStack_of_ne ht, stack_runs hruns] at hj
      exact .kept hj
  | @callbackReturn u rest hstack =>
    by_cases ht : t = u
    · subst ht
      rw [State.setStack_self] at hj
      exact .kept (hstack ▸ List.mem_cons_of_mem _ hj)
    · rw [State.setStack_of_ne ht] at hj
      exact .kept hj
  | send =>
    rcases mem_stack_push hj with hold | ⟨rfl, hnew⟩
    · exact .kept hold
    · exact .pushed (.send hnew)
  | shutdown =>
    rcases mem_stack_push hj with hold | ⟨rfl, hnew⟩
    · exact .kept hold
    · obtain rfl := List.mem_singleton.mp hnew
      exact .pushed .shutdown
  | refused => exact .kept hj
  | setThreadNum =>
    rcases mem_stack_push hj with hold | ⟨rfl, hnew⟩
    · exact .kept hold
    · exact .pushed (.setThreadNum hnew)
  | loop =>
    rcases mem_stack_push hj with hold | ⟨rfl, hnew⟩
    · exact .kept hold
    · obtain rfl := List.mem_singleton.mp hnew
      exact .pushed .loop
  | quit =>
    rcases mem_stack_push hj with hold | ⟨rfl, hnew⟩
    · exact .kept hold
    · obtain rfl := Config.mem_quit hnew
      exact .pushed .quit
  | destroyServer =>
    rcases mem_stack_push hj with hold | ⟨rfl, hnew⟩
    · exact .kept hold
    · exact .pushed (.destroyServer hnew)
  | destroyConnection => exact .kept hj

end Stacks

end TcpServer

end Moduo
