/-
One loop per thread.

* `confined` — in every interleaving of calls of `send` and `shutdown` by any
  threads with the steps of all loops, and with the destruction of the server,
  the members of a connection and the updates of its channel run on the thread
  of its loop, and `connections_` and `nextConnId_` are accessed on the thread of
  the base loop.

Nothing in the code asserts it.  `Placed` gives every instruction the loop whose
thread must run it and every queued functor the loop in whose queue it may be;
what an instruction pushes is placed again, because `runInLoop` and `queueInLoop`
are called on the right loop.
-/
import Moduo.TcpServer

namespace Moduo

namespace TcpServer

variable {L U : Type*}

/-! ### Homes -/

def ChannelPtr.home (cfg : Config L U) : ChannelPtr L → L
  | .wakeup l => l
  | .acceptor => cfg.base
  | .conn c => c.loop

/-- The loop on whose thread a functor must run. -/
def Functor.home (cfg : Config L U) : Functor L → L
  | .listen => cfg.base
  | .sendInLoop c _ => c.loop
  | .shutdownInLoop c => c.loop
  | .connectionEstablished c => c.loop
  | .connectionDestroyed c => c.loop
  | .removeConnectionInLoop _ => cfg.base
  | .notice c _ => c.loop

/-- The loop on whose thread an instruction must run, if it matters. -/
def Instr.home? (cfg : Config L U) : Instr L → Option L
  | .user => none
  | .testQuit l => some l
  | .poll l => some l
  | .beginPendingFunctors l => some l
  | .swap l => some l
  | .functor f => some (f.home cfg)
  | .endPendingFunctors l => some l
  | .queueInLoop _ _ => none
  | .testWakeup _ => none
  | .wakeup _ => none
  | .handleEvent p _ => some (p.home cfg)
  | .closeCallback c => some c.loop
  | .errorCallback c => some c.loop
  | .readCallback c => some c.loop
  | .writeCallback c => some c.loop
  | .unguard c => some c.loop
  | .setDisconnecting _ => none
  | .removeConnection c => some c.loop
  | .disconnect c => some c.loop
  | .removeChannel c => some c.loop
  | .quit _ => none
  | .join _ => none
  | .removeAcceptor => some cfg.base

/-- Instruction `i` may be on the stack of thread `t`. -/
structure Placed (cfg : Config L U) (t : Thread L U) (i : Instr L) : Prop where
  home : ∀ l, i.home? cfg = some l → t = .loop l
  queue : ∀ l f, i = .queueInLoop l f → f.home cfg = l

/-- The event happened on the right thread. -/
def Event.Confined (cfg : Config L U) : Event L U → Prop
  | .member t c _ => t = .loop c.loop
  | .channel t c => t = .loop c.loop
  | .connectionCallback t c _ => t = .loop c.loop
  | .messageCallback t c => t = .loop c.loop
  | .closeCallback t c => t = .loop c.loop
  | .returned t c => t = .loop c.loop
  | .connections t => t = .loop cfg.base
  | .nextConnId t => t = .loop cfg.base
  | .freed _ => True

/-- Everything but the stacks is where it belongs. -/
structure Homed (cfg : Config L U) (s : State L U) : Prop where
  queue : ∀ l, ∀ f ∈ (s.loops l).pendingFunctors, f.home cfg = l
  entry : ∀ l fd e, (s.pollers l).epoll fd = some e → e.2.home cfg = l
  log : ∀ e ∈ s.log, e.Confined cfg

structure Confined (cfg : Config L U) (s : State L U) : Prop where
  homed : Homed cfg s
  stack : ∀ t, ∀ i ∈ s.stack t, Placed cfg t i

variable {cfg : Config L U} {t : Thread L U} {s : State L U}

/-- `runInLoop` runs the functor on the loop's own thread or queues it there. -/
theorem placed_runInLoop {l : L} {f : Functor L} (hf : f.home cfg = l) :
    ∀ i ∈ cfg.runInLoop t l f, Placed cfg t i := by
  intro i hi
  rw [Config.runInLoop] at hi
  by_cases ht : cfg.isInLoopThread t l = true
  · rw [if_pos ht, List.mem_singleton] at hi
    subst hi
    have hthread : t = .loop l := by
      refine (cfg.tid_injective ?_).symm
      simpa [Config.isInLoopThread] using ht
    refine ⟨fun m hm => ?_, fun _ _ h => absurd h (by simp)⟩
    obtain rfl : f.home cfg = m := Option.some.inj hm
    rw [hthread, hf]
  · rw [if_neg ht, List.mem_singleton] at hi
    subst hi
    refine ⟨fun m hm => absurd hm (by simp [Instr.home?]), fun m g h => ?_⟩
    obtain ⟨rfl, rfl⟩ := Instr.queueInLoop.inj h
    exact hf

/-- The thread that runs an instruction with a home is the home's. -/
theorem Placed.thread {i : Instr L} {l : L} (h : Placed cfg t i) (hl : i.home? cfg = some l) :
    t = .loop l :=
  h.home l hl

/-- An instruction of loop `l`, on its thread, that is not a push. -/
theorem Placed.of_home {i : Instr L} {l : L} (ht : t = .loop l) (hl : i.home? cfg = some l)
    (hq : ∀ m f, i ≠ .queueInLoop m f) : Placed cfg t i where
  home m hm := by
    rw [hl] at hm
    rw [ht, Option.some.inj hm]
  queue m f h := absurd h (hq m f)

/-- An instruction that any thread may run. -/
theorem Placed.anywhere {i : Instr L} (hl : i.home? cfg = none)
    (hq : ∀ m f, i ≠ .queueInLoop m f) : Placed cfg t i where
  home m hm := by
    rw [hl] at hm
    exact absurd hm (by simp)
  queue m f h := absurd h (hq m f)

theorem placed_effect {c : ConnPtr L} (ht : t = .loop c.loop) {tr : List Effect} :
    ∀ i ∈ tr.flatMap (effectInstrs c), Placed cfg t i := by
  intro i hi
  rcases mem_effects hi with ⟨cb, rfl⟩ | rfl | rfl
  · refine ⟨fun m hm => absurd hm (by simp [Instr.home?]), fun m g h => ?_⟩
    obtain ⟨rfl, rfl⟩ := Instr.queueInLoop.inj h
    rfl
  · exact .anywhere rfl (by simp)
  · exact .of_home ht rfl (by simp)

theorem confined_start (h : Start cfg s) : Confined cfg s := by
  refine ⟨⟨fun l f hf => ?_, fun l fd e he => ?_, fun e he => ?_⟩, fun t i hi => ?_⟩
  · rw [h.loops l] at hf
    exact absurd hf List.not_mem_nil
  · rw [h.pollers l] at he
    by_cases hfd : fd = cfg.wakeupFd l
    · simp only [hfd, Function.update_self, Option.some.injEq] at he
      rw [← he, ChannelPtr.home]
    · simp only [Function.update_of_ne hfd, reduceCtorEq] at he
  · rw [h.log] at he
    exact absurd he List.not_mem_nil
  · rw [h.stack t] at hi
    exact absurd hi List.not_mem_nil

/-! ### One instruction -/

/-- What a member records happens on the thread that calls it, and the entries it
adds are its channel's. -/
theorem Calls.confined {c : ConnPtr L} {conn : TcpConnection} {i : Instr L} {o : Outcome}
    {events : List (Event L U)} {f : Endpoint (ChannelPtr L) → Endpoint (ChannelPtr L)}
    (h : Calls t c conn i o events f) (hi : Placed cfg t i) :
    t = .loop c.loop ∧ (∀ e ∈ events, e.Confined cfg) ∧
      ∀ p : EPollPoller (ChannelPtr L),
        Endpoint.Adds (.conn c) ⟨conn, p, []⟩ (f ⟨conn, p, []⟩) := by
  have ht : t = .loop c.loop := by
    cases h <;> exact hi.thread rfl
  refine ⟨ht, ?_, fun p => ?_⟩
  · intro e he
    cases h <;> simp only [List.mem_cons, List.not_mem_nil, or_false] at he
    case shutdownInLoop => exact he ▸ ht
    case handleError => exact he ▸ ht
    case handleRead => exact he ▸ ht
    case disconnect => exact he ▸ ht
    case endOfFile => rcases he with rfl | rfl | rfl <;> exact ht
    all_goals rcases he with rfl | rfl <;> exact ht
  · cases h with
    | sendInLoop => exact Endpoint.adds_sendInLoop _ _ _ _
    | shutdownInLoop => exact Endpoint.adds_shutdownInLoop _ _
    | connectionEstablished => exact Endpoint.adds_connectionEstablished _ _
    | handleClose => exact Endpoint.adds_disconnect _ _
    | handleError => exact Endpoint.Adds.of_eq rfl
    | endOfFile => exact Endpoint.adds_handleRead _ _ _
    | handleRead => exact Endpoint.adds_handleRead _ _ _
    | handleWrite hadm => exact Endpoint.adds_handleWrite _ hadm
    | disconnect => exact Endpoint.adds_disconnect _ _
    | removeChannel => exact Endpoint.adds_removeChannel _ _

theorem Homed.record (h : Homed cfg s) {events : List (Event L U)}
    (hevents : ∀ e ∈ events, e.Confined cfg) : Homed cfg (s.record events) where
  queue := h.queue
  entry := h.entry
  log e he := by
    rcases List.mem_append.mp he with he | he
    · exact h.log e he
    · exact hevents e he

section Step

variable [DecidableEq L]

theorem Homed.performed (h : Homed cfg s) {c : ConnPtr L} {conn : TcpConnection}
    (ht : t = .loop c.loop) {events : List (Event L U)} (hevents : ∀ e ∈ events, e.Confined cfg)
    {e : Endpoint (ChannelPtr L)} (hadds : Endpoint.Adds (.conn c) (s.endpoint c conn) e) :
    Homed cfg (s.performed t c events e) where
  queue := h.queue
  entry l fd x hx := by
    by_cases hl : l = c.loop
    · subst hl
      simp only [State.performed, Function.update_self] at hx
      rcases hadds fd x hx with hthis | hold
      · rw [hthis, ChannelPtr.home]
      · exact h.entry _ fd x hold
    · simp only [State.performed, Function.update_of_ne hl] at hx
      exact h.entry l fd x hx
  log x hx := by
    simp only [State.performed, List.mem_append] at hx
    rcases hx with (hx | hx) | hx
    · exact h.log x hx
    · exact hevents x hx
    · obtain ⟨y, -, hy⟩ := List.mem_filterMap.mp hx
      cases y <;> simp only [effectEvent, Option.some.injEq, reduceCtorEq] at hy
      · exact hy ▸ ht
      · exact hy ▸ ht

theorem Homed.setLoop (h : Homed cfg s) {l : L} {loop : EventLoop (Functor L)}
    (hq : ∀ f ∈ loop.pendingFunctors, f.home cfg = l) : Homed cfg (s.setLoop l loop) where
  queue m f hf := by
    by_cases hm : m = l
    · subst hm
      simp only [State.setLoop, Function.update_self] at hf
      exact hq f hf
    · simp only [State.setLoop, Function.update_of_ne hm] at hf
      exact h.queue m f hf
  entry := h.entry
  log := h.log

/-- A flag of a loop changes. -/
theorem Confined.setLoop (h : Confined cfg s) {l : L} {loop : EventLoop (Functor L)}
    (hq : loop.pendingFunctors = (s.loops l).pendingFunctors) :
    Confined cfg (s.setLoop l loop) := by
  have hhome : ∀ f ∈ loop.pendingFunctors, f.home cfg = l := by
    rw [hq]
    exact h.homed.queue l
  exact ⟨h.homed.setLoop hhome, h.stack⟩

theorem Homed.onAcceptor (h : Homed cfg s)
    {f : Channel → EPollPoller (ChannelPtr L) → Channel × EPollPoller (ChannelPtr L)}
    (hf : ∀ ch p fd e, (f ch p).2.epoll fd = some e → e.2 = .acceptor ∨ p.epoll fd = some e) :
    Homed cfg (s.onAcceptor cfg f) where
  queue := h.queue
  entry l fd e he := by
    by_cases hl : l = cfg.base
    · subst hl
      simp only [State.onAcceptor, Function.update_self] at he
      rcases hf _ _ fd e he with hptr | hold
      · rw [hptr, ChannelPtr.home]
      · exact h.entry _ fd e hold
    · simp only [State.onAcceptor, Function.update_of_ne hl] at he
      exact h.entry l fd e he
  log := h.log

theorem runs_homed {i : Instr L} {o : Outcome} {s' : State L U} {is : List (Instr L)}
    (h : Homed cfg s) (hi : Placed cfg t i) (hruns : Runs cfg t s i o s' is) :
    Homed cfg s' ∧ (∀ j ∈ is, Placed cfg t j) ∧ s'.stack = s.stack := by
  cases hruns with
  | calls hconn hcalls =>
    obtain ⟨ht, hevents, hadds⟩ := hcalls.confined hi
    exact ⟨h.performed ht hevents (hadds _), placed_effect ht, rfl⟩
  | testQuit =>
    have ht := hi.thread rfl
    refine ⟨h, fun j hj => ?_, rfl⟩
    obtain rfl := List.mem_singleton.mp hj
    exact .of_home ht rfl (by simp)
  | leave => exact ⟨h, fun j hj => absurd hj List.not_mem_nil, rfl⟩
  | poll =>
    have ht := hi.thread rfl
    refine ⟨h, fun j hj => ?_, rfl⟩
    rcases List.mem_append.mp hj with hj | hj
    · -- poll reports entries of its own epoll set
      obtain ⟨b, -, e, he, rfl⟩ := mem_activeChannels hj
      have hhome := h.entry _ _ _ he
      exact .of_home ht (by rw [Instr.home?, hhome]) (by simp)
    · obtain rfl := List.mem_singleton.mp hj
      exact .of_home ht rfl (by simp)
  | @beginPendingFunctors l =>
    have ht := hi.thread rfl
    refine ⟨h.setLoop (h.queue l), fun j hj => ?_, rfl⟩
    obtain rfl := List.mem_singleton.mp hj
    exact .of_home ht rfl (by simp)
  | swap =>
    have ht := hi.thread rfl
    refine ⟨h.setLoop fun f hf => absurd hf List.not_mem_nil, fun j hj => ?_, rfl⟩
    rcases List.mem_append.mp hj with hj | hj
    · -- the functors taken belong to the loop that takes them
      obtain ⟨f, hf, rfl⟩ := List.mem_map.mp hj
      have hhome := h.queue _ f hf
      exact .of_home ht (by rw [Instr.home?, hhome]) (by simp)
    · obtain rfl := List.mem_singleton.mp hj
      exact .of_home ht rfl (by simp)
  | @endPendingFunctors l =>
    have ht := hi.thread rfl
    refine ⟨h.setLoop (h.queue l), fun j hj => ?_, rfl⟩
    obtain rfl := List.mem_singleton.mp hj
    exact .of_home ht rfl (by simp)
  | listen =>
    refine ⟨h.onAcceptor ?_, fun j hj => absurd hj List.not_mem_nil, rfl⟩
    exact fun _ _ _ _ he => EPollPoller.updateChannel_entry he
  | destroyFound =>
    have ht := hi.thread rfl
    refine ⟨h.record fun e he => ?_, fun j hj => ?_, rfl⟩
    · obtain rfl := List.mem_singleton.mp he
      exact ht
    · simp only [List.mem_cons, List.not_mem_nil, or_false] at hj
      rcases hj with rfl | rfl
      · exact .of_home ht rfl (by simp)
      · exact .of_home ht rfl (by simp)
  | destroySkips =>
    have ht := hi.thread rfl
    refine ⟨h.record fun e he => ?_, fun j hj => ?_, rfl⟩
    · obtain rfl := List.mem_singleton.mp he
      exact ht
    · obtain rfl := List.mem_singleton.mp hj
      exact .of_home ht rfl (by simp)
  | removeConnectionInLoop =>
    have ht := hi.thread rfl
    refine ⟨⟨h.queue, h.entry, fun e he => ?_⟩, fun j hj => ?_, rfl⟩
    · rcases List.mem_append.mp he with he | he
      · exact h.log e he
      · obtain rfl := List.mem_singleton.mp he
        exact ht
    · -- any thread may push, but only to the loop of the connection
      obtain rfl := List.mem_singleton.mp hj
      refine ⟨fun m hm => absurd hm (by simp [Instr.home?]), fun m g hg => ?_⟩
      obtain ⟨rfl, rfl⟩ := Instr.queueInLoop.inj hg
      rfl
  | notice =>
    refine ⟨h, fun j hj => ?_, rfl⟩
    obtain rfl := List.mem_singleton.mp hj
    exact .anywhere rfl (by simp)
  | @queueInLoop l f =>
    refine ⟨h.setLoop fun g hg => ?_, fun j hj => ?_, rfl⟩
    · -- the functor pushed comes home to `l`
      rcases List.mem_append.mp hg with hg | hg
      · exact h.queue l g hg
      · obtain rfl := List.mem_singleton.mp hg
        exact hi.queue l g rfl
    · obtain rfl := List.mem_singleton.mp hj
      exact .anywhere rfl (by simp)
  | testWakeup =>
    refine ⟨h, fun j hj => ?_, rfl⟩
    obtain rfl := List.mem_singleton.mp hj
    exact .anywhere rfl (by simp)
  | noWakeup => exact ⟨h, fun j hj => absurd hj List.not_mem_nil, rfl⟩
  | @wakeup l =>
    refine ⟨h.setLoop ?_, fun j hj => absurd hj List.not_mem_nil, rfl⟩
    rw [EventLoop.wakeup_pendingFunctors]
    exact h.queue l
  | @handleWakeup l => exact ⟨h.setLoop (h.queue l), fun j hj => absurd hj List.not_mem_nil, rfl⟩
  | ignored => exact ⟨h, fun j hj => absurd hj List.not_mem_nil, rfl⟩
  | newConnection =>
    have ht := hi.thread rfl
    refine ⟨⟨h.queue, h.entry, fun e he => ?_⟩, placed_runInLoop rfl, rfl⟩
    rcases List.mem_append.mp he with he | he
    · exact h.log e he
    · simp only [List.mem_cons, List.not_mem_nil, or_false] at he
      rcases he with rfl | rfl
      · exact ht
      · exact ht
  | handleEvent =>
    have ht := hi.thread rfl
    refine ⟨h, fun j hj => ?_, rfl⟩
    rcases mem_eventCallbacks hj with rfl | rfl | rfl | rfl | rfl
    all_goals exact .of_home ht rfl (by simp)
  | unguard => exact ⟨h, fun j hj => absurd hj List.not_mem_nil, rfl⟩
  | setDisconnecting => exact ⟨⟨h.queue, h.entry, h.log⟩, placed_runInLoop rfl, rfl⟩
  | removeConnection =>
    have ht := hi.thread rfl
    refine ⟨h.record fun e he => ?_, placed_runInLoop rfl, rfl⟩
    obtain rfl := List.mem_singleton.mp he
    exact ht
  | @quit l =>
    refine ⟨h.setLoop (h.queue l), fun j hj => ?_, rfl⟩
    obtain rfl := Config.mem_quit hj
    exact .anywhere rfl (by simp)
  | join => exact ⟨h, fun j hj => absurd hj List.not_mem_nil, rfl⟩
  | removeAcceptor =>
    refine ⟨(h.onAcceptor ?_).onAcceptor ?_, fun j hj => absurd hj List.not_mem_nil, rfl⟩
    · exact fun _ _ _ _ he => EPollPoller.updateChannel_entry he
    · exact fun _ _ _ _ he => EPollPoller.removeChannel_entry he

/-! ### Runs -/

variable [DecidableEq U]

theorem Confined.setStack {s' : State L U} (hhomed : Homed cfg s') (hstack : s'.stack = s.stack)
    (h : Confined cfg s) {is : List (Instr L)} (his : ∀ i ∈ is, Placed cfg t i) :
    Confined cfg (s'.setStack t is) := by
  refine ⟨⟨hhomed.queue, hhomed.entry, hhomed.log⟩, fun u i hi => ?_⟩
  by_cases hu : u = t
  · subst hu
    simp only [State.setStack, Function.update_self] at hi
    exact his i hi
  · simp only [State.setStack, Function.update_of_ne hu, hstack] at hi
    exact h.stack u i hi

/-- A thread goes on with instructions that may be on its stack. -/
theorem Confined.push (h : Confined cfg s) {is : List (Instr L)}
    (his : ∀ i ∈ is, Placed cfg t i) : Confined cfg (s.push t is) := by
  refine h.setStack h.homed rfl fun i hi => ?_
  rcases List.mem_append.mp hi with hi | hi
  · exact his i hi
  · exact h.stack t i hi

theorem confined_move {s' : State L U} {a : Label L U} (h : Confined cfg s)
    (hmove : Move cfg s a s') : Confined cfg s' := by
  cases hmove with
  | @exec t o i rest is s₁ hstack hruns =>
    have hall := h.stack t
    rw [hstack] at hall
    obtain ⟨hhomed, his, hsame⟩ := runs_homed h.homed (hall i List.mem_cons_self) hruns
    refine h.setStack hhomed hsame fun j hj => ?_
    rcases List.mem_append.mp hj with hj | hj
    · exact his j hj
    · exact hall j (List.mem_cons_of_mem i hj)
  | @callbackReturn t rest hstack =>
    have hall := h.stack t
    rw [hstack] at hall
    exact h.setStack h.homed rfl fun j hj => hall j (List.mem_cons_of_mem _ hj)
  | send => exact h.push (placed_runInLoop rfl)
  | shutdown =>
    refine h.push fun i hi => ?_
    obtain rfl := List.mem_singleton.mp hi
    exact .anywhere rfl (by simp)
  | refused => exact h
  | setThreadNum => exact h.push (placed_runInLoop rfl)
  | @loop l =>
    have hset : Confined cfg (s.setLoop l { s.loops l with quit := false }) := h.setLoop rfl
    refine hset.push fun i hi => ?_
    obtain rfl := List.mem_singleton.mp hi
    exact .of_home rfl rfl (by simp)
  | @quit t l =>
    have hset : Confined cfg (s.setLoop l { s.loops l with quit := true }) := h.setLoop rfl
    refine hset.push fun i hi => ?_
    obtain rfl := Config.mem_quit hi
    exact .anywhere rfl (by simp)
  | @destroyServer order =>
    have hempty : Homed cfg { s with connections := [] } :=
      ⟨h.homed.queue, h.homed.entry, h.homed.log⟩
    have hrecord : Confined cfg
        ({ s with connections := [] }.record [.connections (.loop cfg.base)]) := by
      refine ⟨hempty.record fun e he => ?_, h.stack⟩
      obtain rfl := List.mem_singleton.mp he
      exact rfl
    refine hrecord.push fun i hi => ?_
    rcases mem_destroyServer hi with ⟨c, hc⟩ | ⟨l, rfl | rfl⟩ | rfl
    · exact placed_runInLoop (l := c.loop) rfl i hc
    · exact .anywhere rfl (by simp)
    · exact .anywhere rfl (by simp)
    · exact .of_home rfl rfl (by simp)
  | @destroyConnection c =>
    refine ⟨⟨h.homed.queue, fun l fd e he => ?_, fun e he => ?_⟩, h.stack⟩
    · simp only [State.free] at he
      by_cases hfd : fd = c.fd
      · rw [hfd, Function.update_self] at he
        exact absurd he (by simp)
      · rw [Function.update_of_ne hfd] at he
        exact h.homed.entry l fd e he
    · rcases List.mem_append.mp he with he | he
      · exact h.homed.log e he
      · obtain rfl := List.mem_singleton.mp he
        exact trivial

variable [Fintype L]

theorem confined_reachable (hs : (system cfg).Reachable s) : Confined cfg s :=
  Machine.Reachable.invariant (I := Confined cfg) (fun _ h => confined_start h)
    (fun _ _ _ h hstep => confined_move h (move_of_system hstep)) hs

/-- In every interleaving, every event is on the thread of its loop. -/
theorem events_confined (hs : (system cfg).Reachable s) : ∀ e ∈ s.log, e.Confined cfg :=
  (confined_reachable hs).homed.log

end Step

/-- The base loop `false` and one io loop, with one other thread. -/
def twoLoops : Config Bool Unit where
  base := false
  loops := [true]
  tid
    | .loop l => cond l 101 100
    | .user _ => 102
  tid_injective := by
    rintro (l | u) (m | v) h
    · cases l <;> cases m <;> simp_all
    · cases l <;> simp at h
    · cases m <;> simp at h
    · rfl
  name := "server"
  ipPort := "127.0.0.1:8000"
  ipPort_length := by decide
  wakeupFd l := cond l 5 4
  wakeupFd_injective := by decide
  acceptFd := 6
  acceptFd_ne := by decide
  writeCompleteCallback := false

/-- A connection is accepted on the base loop and established on the io loop. -/
def acceptOne : List (Label Bool Unit) :=
  [.setThreadNum (.loop false), .exec (.loop false) .none, .loop false,
    .exec (.loop false) .none, .exec (.loop false) (.polled [(6, EPOLLIN)]),
    .exec (.loop false) (.accepted (some 7)), .exec (.loop false) .none,
    .exec (.loop false) .none, .exec (.loop false) .none, .loop true,
    .exec (.loop true) .none, .exec (.loop true) (.polled []), .exec (.loop true) .none,
    .exec (.loop true) .none, .exec (.loop true) .none]

theorem events_confined_accept :
    ∃ s : State Bool Unit, (system twoLoops).Reachable s ∧
      .connectionCallback (.loop true) ⟨1, true, 7⟩ true ∈ s.log ∧
      ∀ e ∈ s.log, e.Confined twoLoops := by
  have hrun : ∃ s, (system twoLoops).run (State.make twoLoops) acceptOne = some s ∧
      .connectionCallback (.loop true) ⟨1, true, 7⟩ true ∈ s.log := ⟨_, rfl, by decide⟩
  obtain ⟨s, hs, hlog⟩ := hrun
  have hreach : (system twoLoops).Reachable s :=
    Machine.Reachable.run (.init (start_make twoLoops)) hs
  exact ⟨s, hreach, hlog, events_confined hreach⟩

end TcpServer

end Moduo
