/-
A live server: no stale channel and no fatal `epoll_ctl`.

The server is not being destroyed, `send` and `shutdown` are called on the loop
thread of their connection, and fewer than `2 ^ 31 - 1` connections have been
accepted.  User code may do anything else at any time, such as quitting a loop.

* `Ledger` — the connections that have not been freed, and their descriptors;
* `Wiring` — the entries of the pollers and of the kernel;
* `Life` — the stage of every connection;
* `Work` — what may wait on the stacks, and in which order.
-/
import Moduo.ConnectionStages
import Moduo.ThreadConfinement

namespace Moduo

namespace TcpServer

variable {L U : Type*}

/-- What a live server may do in state `s`. -/
def Live (s : State L U) : Label L U → Prop
  | .exec _ (.accepted (some _)) => s.nextConnId < 2 ^ 31 - 1
  | .send t c _ => t = .loop c.loop
  | .shutdown t c => t = .loop c.loop
  | .destroyServer _ => False
  | _ => True

instance [DecidableEq L] [DecidableEq U] (s : State L U) :
    (a : Label L U) → Decidable (Live s a)
  | .exec _ .none => .isTrue trivial
  | .exec _ (.polled _) => .isTrue trivial
  | .exec _ (.read _) => .isTrue trivial
  | .exec _ (.wrote _) => .isTrue trivial
  | .exec _ (.accepted none) => .isTrue trivial
  | .exec _ (.accepted (some _)) => inferInstanceAs (Decidable (s.nextConnId < 2 ^ 31 - 1))
  | .callbackReturn _ => .isTrue trivial
  | .send t c _ => inferInstanceAs (Decidable (t = .loop c.loop))
  | .shutdown t c => inferInstanceAs (Decidable (t = .loop c.loop))
  | .setThreadNum _ => .isTrue trivial
  | .loop _ => .isTrue trivial
  | .quit _ _ => .isTrue trivial
  | .destroyServer _ => .isFalse id
  | .destroyConnection _ => .isTrue trivial

/-- A pointer that loop `l` may hold for descriptor `fd`. -/
def ChannelPtr.Known (cfg : Config L U) (s : State L U) (l : L) (fd : ℕ) : ChannelPtr L → Prop
  | .wakeup m => m = l ∧ fd = cfg.wakeupFd l
  | .acceptor => l = cfg.base ∧ fd = cfg.acceptFd
  | .conn c => l = c.loop ∧ fd = c.fd ∧
      ∃ conn, s.heap c = some conn ∧ conn.channel.index = .kAdded

/-- An event is dispatched on the loop of its connection. -/
theorem Instr.home_of_dispatches {cfg : Config L U} {i : Instr L} {c : ConnPtr L}
    (h : i.dispatches? = some c) : i.home? cfg = some c.loop := by
  cases i with
  | handleEvent p =>
    cases p with
    | conn d => rw [Instr.home?, ChannelPtr.home, Option.some.inj h]
    | _ => exact absurd h (by simp [Instr.dispatches?])
  | closeCallback d => rw [Instr.home?, Option.some.inj h]
  | errorCallback d => rw [Instr.home?, Option.some.inj h]
  | readCallback d => rw [Instr.home?, Option.some.inj h]
  | writeCallback d => rw [Instr.home?, Option.some.inj h]
  | _ => exact absurd h (by simp [Instr.dispatches?])

/-- After this instruction the loop dispatches no more events of this round. -/
def Instr.late : Instr L → Bool
  | .testQuit _ => true
  | .poll _ => true
  | .beginPendingFunctors _ => true
  | .swap _ => true
  | .endPendingFunctors _ => true
  | .functor (.connectionDestroyed _) => true
  | .removeChannel _ => true
  | _ => false

/-- `i` may lie on a stack above `j`. -/
def Instr.Over (i j : Instr L) : Prop := (i.late = true → j.dispatches? = none) ∧ j.urgent? = none

/-- The connections that are there, with their numbers, names and descriptors. -/
structure Ledger (cfg : Config L U) (s : State L U) : Prop where
  nextConnId_lt : s.nextConnId < 2 ^ 31
  id_lt : ∀ c conn, s.heap c = some conn → c.id < s.nextConnId
  id_injective : ∀ c d, (s.heap c).isSome → (s.heap d).isSome → c.id = d.id → c = d
  fd_injective : ∀ c d, (s.heap c).isSome → (s.heap d).isSome → c.fd = d.fd → c = d
  fd_eq : ∀ c conn, s.heap c = some conn → conn.channel.fd = c.fd
  fd_isOpen : ∀ c, (s.heap c).isSome → s.isOpen c.fd = true
  fd_ne_wakeupFd : ∀ c, (s.heap c).isSome → ∀ l, c.fd ≠ cfg.wakeupFd l
  fd_ne_acceptFd : ∀ c, (s.heap c).isSome → c.fd ≠ cfg.acceptFd
  wakeupFd_isOpen : ∀ l, s.isOpen (cfg.wakeupFd l) = true
  acceptFd_isOpen : s.isOpen cfg.acceptFd = true
  names : ∀ item ∈ s.connections, item.1 = cfg.connName item.2.id ∧ (s.heap item.2).isSome

structure Wiring (cfg : Config L U) (s : State L U) : Prop where
  channels : ∀ l fd p, (s.pollers l).channels fd = some p → p.Known cfg s l fd
  epoll : ∀ l fd e, (s.pollers l).epoll fd = some e → e.2.Known cfg s l fd
  acceptor_fd : s.acceptChannel.fd = cfg.acceptFd
  acceptor_index : s.acceptChannel.index = .kAdded ↔
    ∃ e, (s.pollers cfg.base).epoll cfg.acceptFd = some e
  exited : ∀ l, (s.pollers l).exited = false

/-- Instruction `i` may be on the stack of loop `l`. -/
structure Tame (s : State L U) (l : L) (i : Instr L) : Prop where
  target : ∀ c, i.dispatches? = some c →
    ∃ conn, s.heap c = some conn ∧ conn.channel.index = .kAdded
  urgent : ∀ c, i.urgent? = some c → c.loop = l ∧ ∃ conn, s.heap c = some conn ∧ conn.Open
  disconnect : ∀ c, i ≠ .disconnect c
  removeAcceptor : i ≠ .removeAcceptor
  queue : ∀ m f, i = .queueInLoop m f → f.raw? = none

structure Work (cfg : Config L U) (s : State L U) : Prop where
  user : ∀ u, ∀ i ∈ s.stack (.user u), i.Plain cfg
  tame : ∀ l, ∀ i ∈ s.stack (.loop l), Tame s l i
  sorted : ∀ l, (s.stack (.loop l)).Pairwise Instr.Over
  queue : ∀ l, ∀ f ∈ (s.loops l).pendingFunctors, f.raw? = none

variable [DecidableEq L] [Fintype L]

/-- A connection that is there has a stage; one that is not there has no task. -/
structure Life (s : State L U) (c : ConnPtr L) : Prop where
  absent : s.heap c = none → s.tasks .establish c = 0 ∧ s.closing c = 0
  stage : ∀ conn, s.heap c = some conn → Stage s c conn

structure Invariant (cfg : Config L U) (s : State L U) : Prop where
  confined : Confined cfg s
  ledger : Ledger cfg s
  wiring : Wiring cfg s
  life : ∀ c, Life s c
  work : Work cfg s

variable {cfg : Config L U} {s s' : State L U} {l : L}

/-! ### Steps that leave connections and pollers alone -/

omit [DecidableEq L] [Fintype L] in
/-- Only stacks, queues and the log differ, and the log only grows. -/
structure Undisturbed (s s' : State L U) : Prop where
  heap : s'.heap = s.heap
  pollers : s'.pollers = s.pollers
  acceptChannel : s'.acceptChannel = s.acceptChannel
  connections : s'.connections = s.connections
  nextConnId : s'.nextConnId = s.nextConnId
  isOpen : s'.isOpen = s.isOpen
  log : ∀ e ∈ s.log, e ∈ s'.log

omit [DecidableEq L] [Fintype L] in
/-- A pointer stays known while its connection keeps its index. -/
theorem ChannelPtr.Known.mono {p : ChannelPtr L} {fd : ℕ} (h : p.Known cfg s l fd)
    (hheap : ∀ c conn, p = .conn c → s.heap c = some conn →
      ∃ conn', s'.heap c = some conn' ∧ conn'.channel.index = conn.channel.index) :
    p.Known cfg s' l fd := by
  cases p with
  | wakeup m => exact h
  | acceptor => exact h
  | conn c =>
    obtain ⟨hl, hfd, conn, hconn, hindex⟩ := h
    obtain ⟨conn', hconn', hsame⟩ := hheap c conn rfl hconn
    exact ⟨hl, hfd, conn', hconn', hsame.trans hindex⟩

omit [DecidableEq L] [Fintype L] in
theorem Ledger.undisturbed (h : Ledger cfg s) (hs : Undisturbed s s') : Ledger cfg s' := by
  obtain ⟨hheap, -, -, hconnections, hid, hopen, -⟩ := hs
  constructor
  case nextConnId_lt =>
    rw [hid]
    exact h.nextConnId_lt
  case id_lt =>
    rw [hid, hheap]
    exact h.id_lt
  case id_injective =>
    rw [hheap]
    exact h.id_injective
  case fd_injective =>
    rw [hheap]
    exact h.fd_injective
  case fd_eq =>
    rw [hheap]
    exact h.fd_eq
  case fd_isOpen =>
    rw [hheap, hopen]
    exact h.fd_isOpen
  case fd_ne_wakeupFd =>
    rw [hheap]
    exact h.fd_ne_wakeupFd
  case fd_ne_acceptFd =>
    rw [hheap]
    exact h.fd_ne_acceptFd
  case wakeupFd_isOpen =>
    rw [hopen]
    exact h.wakeupFd_isOpen
  case acceptFd_isOpen =>
    rw [hopen]
    exact h.acceptFd_isOpen
  case names =>
    rw [hconnections, hheap]
    exact h.names

omit [DecidableEq L] [Fintype L] in
/-- The pollers are as before, and every connection keeps its index. -/
theorem Wiring.of_heap (h : Wiring cfg s) (hpollers : s'.pollers = s.pollers)
    (haccept : s'.acceptChannel = s.acceptChannel)
    (hheap : ∀ c conn, s.heap c = some conn →
      ∃ conn', s'.heap c = some conn' ∧ conn'.channel.index = conn.channel.index) :
    Wiring cfg s' := by
  constructor
  case channels =>
    intro l fd p hp
    rw [hpollers] at hp
    exact (h.channels l fd p hp).mono fun c conn _ => hheap c conn
  case epoll =>
    intro l fd e he
    rw [hpollers] at he
    exact (h.epoll l fd e he).mono fun c conn _ => hheap c conn
  case acceptor_fd =>
    rw [haccept]
    exact h.acceptor_fd
  case acceptor_index =>
    rw [haccept, hpollers]
    exact h.acceptor_index
  case exited =>
    rw [hpollers]
    exact h.exited

omit [DecidableEq L] [Fintype L] in
theorem Wiring.undisturbed (h : Wiring cfg s) (hs : Undisturbed s s') : Wiring cfg s' := by
  refine h.of_heap hs.pollers hs.acceptChannel fun c conn hconn => ?_
  rw [hs.heap]
  exact ⟨conn, hconn, rfl⟩

/-- Nothing that the stage of `d` depends on has changed. -/
structure Bystander (s s' : State L U) (d : ConnPtr L) : Prop where
  heap : s'.heap d = s.heap d
  channels : ∀ conn, s.heap d = some conn → (s'.pollers d.loop).channels conn.channel.fd =
    (s.pollers d.loop).channels conn.channel.fd
  epoll : ∀ conn, s.heap d = some conn → (s'.pollers d.loop).epoll conn.channel.fd =
    (s.pollers d.loop).epoll conn.channel.fd
  holds : ∀ conn, s.heap d = some conn → conn.state ≠ .kDisconnected → s.Holds d → s'.Holds d
  establish : s'.tasks .establish d = s.tasks .establish d
  closing : s'.closing d = s.closing d
  log : ∀ e ∈ s.log, e ∈ s'.log

theorem Life.bystander {d : ConnPtr L} (h : Life s d) (hd : Bystander s s' d) : Life s' d := by
  constructor
  · intro hnone
    rw [hd.heap] at hnone
    rw [hd.establish, hd.closing]
    exact h.absent hnone
  · intro conn hconn
    rw [hd.heap] at hconn
    exact (h.stage conn hconn).congr (hd.channels conn hconn) (hd.epoll conn hconn)
      (hd.holds conn hconn) hd.establish hd.closing hd.log

theorem Undisturbed.bystander (hs : Undisturbed s s') {d : ConnPtr L}
    (hestablish : s'.tasks .establish d = s.tasks .establish d)
    (hclosing : s'.closing d = s.closing d) : Bystander s s' d where
  heap := congrFun hs.heap d
  channels conn _ := by rw [hs.pollers]
  epoll conn _ := by rw [hs.pollers]
  holds conn _ _ hholds := by rwa [State.Holds, hs.connections]
  establish := hestablish
  closing := hclosing
  log := hs.log

omit [DecidableEq L] [Fintype L] in
theorem Tame.undisturbed {i : Instr L} (h : Tame s l i) (hs : Undisturbed s s') :
    Tame s' l i := by
  refine ⟨?_, ?_, h.disconnect, h.removeAcceptor, h.queue⟩
  · rw [hs.heap]
    exact h.target
  · rw [hs.heap]
    exact h.urgent

end TcpServer

end Moduo
