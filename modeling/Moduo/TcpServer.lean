/-
A server on its loops (`TcpServer.cc`, `Acceptor.cc`, `EventLoop.cc`,
`Channel.cc`).

Every thread is a stack of instructions: what is left of the functions it is in,
innermost first.  An instruction is the part of a function between two accesses
to what other threads see, or between two calls of user code; it pushes what
follows it.  An empty stack is code outside of `loop()`; the instruction `user`
is user code inside a callback.

* `exec` — one instruction, given the outcome of its system call;
* `step` — an instruction of a thread, a call made by user code, or the
  destruction of a connection that no `shared_ptr` refers to any more.

The loops of `cfg` are those of a pool that `start` has started before the first
connection.  The end of `threadFunc`, which destroys the loop of an io thread, is no
step: runs in which such a loop is quit go on without it.

`log` is a ghost: the calls of the members of connections, the user callbacks
and the accesses to `connections_` and `nextConnId_`, each with its thread.
-/
import Moduo.EventLoop
import Moduo.Lib.Machine
import Moduo.TcpConnection

namespace Moduo

namespace TcpServer

/-- The threads: one for each loop, and the others. -/
inductive Thread (L U : Type*)
  | loop (l : L)
  | user (u : U)
  deriving DecidableEq, Repr

/-- A pointer to a connection, with the members of it that never change: its
loop and its descriptor.  `id` is the number under which `newConnection` named
it. -/
structure ConnPtr (L : Type*) where
  id : ℕ
  loop : L
  fd : ℕ
  deriving DecidableEq, Repr

/-- A pointer to a channel. -/
inductive ChannelPtr (L : Type*)
  | wakeup (l : L)
  | acceptor
  | conn (c : ConnPtr L)
  deriving DecidableEq, Repr

/-- The functors handed to `runInLoop` and `queueInLoop`.  `sendInLoop` carries the bytes of
its message: the caller leaves the string behind `c_str()` alone until the functor has run
(`LentMessage` has the pointer). -/
inductive Functor (L : Type*)
  | listen
  | sendInLoop (c : ConnPtr L) (message : List Byte)
  | shutdownInLoop (c : ConnPtr L)
  | connectionEstablished (c : ConnPtr L)
  | connectionDestroyed (c : ConnPtr L)
  | removeConnectionInLoop (c : ConnPtr L)
  | notice (c : ConnPtr L) (cb : Notice)
  deriving DecidableEq, Repr

inductive Instr (L : Type*)
  | user
  -- `EventLoop::loop` and `doPendingFunctors`
  | testQuit (l : L)
  | poll (l : L)
  | beginPendingFunctors (l : L)
  | swap (l : L)
  | functor (f : Functor L)
  | endPendingFunctors (l : L)
  -- `EventLoop::queueInLoop`
  | queueInLoop (l : L) (f : Functor L)
  | testWakeup (l : L)
  | wakeup (l : L)
  -- `Channel::handleEvent`, its callbacks, and the end of its guard
  | handleEvent (p : ChannelPtr L) (revents : EventMask)
  | closeCallback (c : ConnPtr L)
  | errorCallback (c : ConnPtr L)
  | readCallback (c : ConnPtr L)
  | writeCallback (c : ConnPtr L)
  | unguard (c : ConnPtr L)
  -- the store of `shutdown`, the rest of `handleClose` and `connectionDestroyed`
  | setDisconnecting (c : ConnPtr L)
  | removeConnection (c : ConnPtr L)
  | disconnect (c : ConnPtr L)
  | removeChannel (c : ConnPtr L)
  -- the end of `~TcpServer`: `~EventLoopThread` of every thread of the pool
  | quit (l : L)
  | join (l : L)
  | removeAcceptor
  deriving DecidableEq, Repr

/-- The members of a connection that run on its loop. -/
inductive Member
  | handleRead
  | handleWrite
  | handleClose
  | handleError
  | sendInLoop
  | shutdownInLoop
  | connectionEstablished
  | connectionDestroyed
  deriving DecidableEq, Repr

/-- `channel` stands for the calls of `updateChannel` and `removeChannel` that a
member makes; `returned` for the end of `connectionDestroyed`; `freed` for the
end of the connection itself. -/
inductive Event (L U : Type*)
  | member (t : Thread L U) (c : ConnPtr L) (m : Member)
  | channel (t : Thread L U) (c : ConnPtr L)
  | connectionCallback (t : Thread L U) (c : ConnPtr L) (connected : Bool)
  | messageCallback (t : Thread L U) (c : ConnPtr L)
  | closeCallback (t : Thread L U) (c : ConnPtr L)
  | returned (t : Thread L U) (c : ConnPtr L)
  | connections (t : Thread L U)
  | nextConnId (t : Thread L U)
  | freed (c : ConnPtr L)
  deriving DecidableEq, Repr

/-- What the constructors fix.  A loop is created in the thread that runs it, so
its `threadId_` is the tid of that thread; live threads have distinct tids, and
the descriptors are those of distinct open files. -/
structure Config (L U : Type*) where
  base : L
  loops : List L
  tid : Thread L U → ℕ
  tid_injective : Function.Injective tid
  name : String
  ipPort : String
  ipPort_length : ipPort.length ≤ 21
  wakeupFd : L → ℕ
  wakeupFd_injective : Function.Injective wakeupFd
  acceptFd : ℕ
  acceptFd_ne : ∀ l, wakeupFd l ≠ acceptFd
  writeCompleteCallback : Bool

structure State (L U : Type*) where
  loops : L → EventLoop (Functor L)
  pollers : L → EPollPoller (ChannelPtr L)
  stack : Thread L U → List (Instr L)
  heap : ConnPtr L → Option TcpConnection
  acceptChannel : Channel
  connections : List (String × ConnPtr L)
  nextConnId : ℕ
  next : ℕ
  isOpen : ℕ → Bool
  log : List (Event L U)

/-- The outcome of the system call of an instruction: the descriptors that are
ready, with their events; the bytes read; the bytes written; the descriptor
accepted. -/
inductive Outcome
  | none
  | polled (ready : List (ℕ × EventMask))
  | read (res : ReadResult)
  | wrote (res : WriteResult)
  | accepted (connfd : Option ℕ)
  deriving DecidableEq, Repr

inductive Label (L U : Type*)
  | exec (t : Thread L U) (o : Outcome)
  | callbackReturn (t : Thread L U)
  | send (t : Thread L U) (c : ConnPtr L) (message : List Byte)
  | shutdown (t : Thread L U) (c : ConnPtr L)
  | setThreadNum (t : Thread L U)
  | loop (l : L)
  | quit (t : Thread L U) (l : L)
  | destroyServer (order : List (ConnPtr L))
  | destroyConnection (c : ConnPtr L)

variable {L U : Type*}

namespace Config

variable (cfg : Config L U)

/-- `isInLoopThread` of loop `l`, called on thread `t`. -/
def isInLoopThread (t : Thread L U) (l : L) : Bool := cfg.tid (.loop l) = cfg.tid t

/-- What `runInLoop` goes on with. -/
def runInLoop (t : Thread L U) (l : L) (f : Functor L) : List (Instr L) :=
  if cfg.isInLoopThread t l then [.functor f] else [.queueInLoop l f]

/-- `getNextLoop`: the loop and the new `next_`. -/
def getNextLoop (next : ℕ) : L × ℕ :=
  match cfg.loops[next]? with
  | some l => (l, if next + 1 ≥ cfg.loops.length then 0 else next + 1)
  | none => (cfg.base, next)

/-- The name of the connection numbered `id`; `snprintf` keeps 63 characters. -/
def connName (id : ℕ) : String :=
  cfg.name ++ String.ofList ((("-" ++ cfg.ipPort ++ "#" ++ toString id).toList).take 63)

end Config

/-- The instructions that follow an effect of a member of connection `c`. -/
def effectInstrs (c : ConnPtr L) : Effect → List (Instr L)
  | .queueInLoop cb => [.queueInLoop c.loop (.notice c cb)]
  | .connectionCallback _ => [.user]
  | .messageCallback => [.user]
  | .closeCallback => [.removeConnection c]
  | _ => []

/-- The user callbacks a member calls itself. -/
def effectEvent (t : Thread L U) (c : ConnPtr L) : Effect → Option (Event L U)
  | .connectionCallback connected => some (.connectionCallback t c connected)
  | .messageCallback => some (.messageCallback t c)
  | _ => none

/-- `handleEventWithGuard`. -/
def eventCallbacks (c : ConnPtr L) (revents : EventMask) : List (Instr L) :=
  (if revents &&& EPOLLHUP ≠ 0 ∧ revents &&& EPOLLIN = 0 then [.closeCallback c] else []) ++
  (if revents &&& EPOLLERR ≠ 0 then [.errorCallback c] else []) ++
  (if revents &&& (EPOLLIN ||| EPOLLPRI) ≠ 0 then [.readCallback c] else []) ++
  (if revents &&& EPOLLOUT ≠ 0 then [.writeCallback c] else [])

/-- The functor keeps a `shared_ptr` to `c`; `send` and `shutdown` bind a raw
pointer. -/
def Functor.holds (c : ConnPtr L) : Functor L → Prop
  | .connectionEstablished d => d = c
  | .connectionDestroyed d => d = c
  | .removeConnectionInLoop d => d = c
  | .notice d _ => d = c
  | _ => False

/-- The instruction keeps a `shared_ptr` to `c`. -/
def Instr.holds (c : ConnPtr L) : Instr L → Prop
  | .functor f => f.holds c
  | .queueInLoop _ f => f.holds c
  | .unguard d => d = c
  | .removeConnection d => d = c
  | .disconnect d => d = c
  | .removeChannel d => d = c
  | _ => False

/-- `revents` may be reported for an entry of the epoll set. -/
def Reportable (entry : Option (EventMask × ChannelPtr L)) (revents : EventMask) : Prop :=
  ∃ e, entry = some e ∧ revents &&& ~~~(e.1 ||| EPOLLHUP ||| EPOLLERR) = 0

instance (entry : Option (EventMask × ChannelPtr L)) (revents : EventMask) :
    Decidable (Reportable entry revents) :=
  match entry with
  | none => .isFalse fun ⟨_, h, _⟩ => nomatch h
  | some e => decidable_of_iff (revents &&& ~~~(e.1 ||| EPOLLHUP ||| EPOLLERR) = 0)
      ⟨fun h => ⟨e, rfl, h⟩, fun ⟨_, he, h⟩ => Option.some.inj he ▸ h⟩

/-- `fillActiveChannels`. -/
def activeChannels (p : EPollPoller (ChannelPtr L)) (ready : List (ℕ × EventMask)) :
    List (Instr L) :=
  ready.filterMap fun b => (p.epoll b.1).map fun e => .handleEvent e.2 b.2

/-! ### What may follow -/

theorem Config.mem_runInLoop {cfg : Config L U} {t : Thread L U} {l : L} {f : Functor L}
    {j : Instr L} (h : j ∈ cfg.runInLoop t l f) : j = .functor f ∨ j = .queueInLoop l f := by
  rw [Config.runInLoop] at h
  split_ifs at h
  · exact .inl (List.mem_singleton.mp h)
  · exact .inr (List.mem_singleton.mp h)

/-- `quit` wakes a loop up from other threads. -/
theorem Config.mem_quit {cfg : Config L U} {t : Thread L U} {l : L} {j : Instr L}
    (h : j ∈ if cfg.isInLoopThread t l then [] else [Instr.wakeup l]) : j = .wakeup l := by
  split_ifs at h
  · exact absurd h List.not_mem_nil
  · exact List.mem_singleton.mp h

theorem mem_effects {c : ConnPtr L} {trace : List Effect} {j : Instr L}
    (h : j ∈ trace.flatMap (effectInstrs c)) :
    (∃ cb, j = .queueInLoop c.loop (.notice c cb)) ∨ j = .user ∨ j = .removeConnection c := by
  obtain ⟨x, -, hx⟩ := List.mem_flatMap.mp h
  cases x with
  | queueInLoop cb => exact .inl ⟨cb, List.mem_singleton.mp hx⟩
  | connectionCallback => exact .inr (.inl (List.mem_singleton.mp hx))
  | messageCallback => exact .inr (.inl (List.mem_singleton.mp hx))
  | closeCallback => exact .inr (.inr (List.mem_singleton.mp hx))
  | write => exact absurd hx List.not_mem_nil
  | shutdownWrite => exact absurd hx List.not_mem_nil

theorem mem_eventCallbacks {c : ConnPtr L} {revents : EventMask} {tied : Bool} {j : Instr L}
    (h : j ∈ eventCallbacks c revents ++ if tied then [.unguard c] else []) :
    j = .closeCallback c ∨ j = .errorCallback c ∨ j = .readCallback c ∨ j = .writeCallback c ∨
      j = .unguard c := by
  simp only [eventCallbacks, List.mem_append] at h
  rcases h with (((h | h) | h) | h) | h
  all_goals
    split_ifs at h
    · obtain rfl := List.mem_singleton.mp h
      simp
    · exact absurd h List.not_mem_nil

/-- Every event of a batch comes from an entry of the epoll set. -/
theorem mem_activeChannels {p : EPollPoller (ChannelPtr L)} {ready : List (ℕ × EventMask)}
    {j : Instr L} (h : j ∈ activeChannels p ready) :
    ∃ b ∈ ready, ∃ e, p.epoll b.1 = some e ∧ j = .handleEvent e.2 b.2 := by
  obtain ⟨b, hb, hj⟩ := List.mem_filterMap.mp h
  obtain ⟨e, he, rfl⟩ := Option.map_eq_some_iff.mp hj
  exact ⟨b, hb, e, he, rfl⟩

instance [DecidableEq L] (c : ConnPtr L) (f : Functor L) : Decidable (f.holds c) := by
  cases f <;> simp only [Functor.holds] <;> infer_instance

instance [DecidableEq L] (c : ConnPtr L) (i : Instr L) : Decidable (i.holds c) := by
  cases i <;> simp only [Instr.holds] <;> infer_instance

namespace State

/-- User code is running on thread `t`. -/
def InUserCode (s : State L U) (t : Thread L U) : Prop :=
  s.stack t = [] ∨ (s.stack t).head? = some .user

section Step

variable [DecidableEq L]

instance (s : State L U) (t : Thread L U) : Decidable (s.InUserCode t) :=
  inferInstanceAs (Decidable (_ ∨ _))

/-- A `shared_ptr` to `c` is left: in `connections_`, in a queue or in a running
function. -/
def Referenced (s : State L U) (c : ConnPtr L) : Prop :=
  (∃ item ∈ s.connections, item.2 = c) ∨
    (∃ l, ∃ f ∈ (s.loops l).pendingFunctors, f.holds c) ∨
    ∃ l, ∃ i ∈ s.stack (.loop l), i.holds c

instance [Fintype L] (s : State L U) (c : ConnPtr L) : Decidable (s.Referenced c) :=
  inferInstanceAs (Decidable (_ ∨ _ ∨ _))

def setLoop (s : State L U) (l : L) (loop : EventLoop (Functor L)) : State L U :=
  { s with loops := Function.update s.loops l loop }

def setConn (s : State L U) (c : ConnPtr L) (conn : TcpConnection) : State L U :=
  { s with heap := Function.update s.heap c (some conn) }

def record (s : State L U) (events : List (Event L U)) : State L U :=
  { s with log := s.log ++ events }

/-- What a member of `c` sees. -/
def endpoint (s : State L U) (c : ConnPtr L) (conn : TcpConnection) :
    Endpoint (ChannelPtr L) := ⟨conn, s.pollers c.loop, []⟩

/-- The state after a member has left its endpoint as `e`. -/
def performed (s : State L U) (t : Thread L U) (c : ConnPtr L) (events : List (Event L U))
    (e : Endpoint (ChannelPtr L)) : State L U :=
  { s.setConn c e.conn with
    pollers := Function.update s.pollers c.loop e.poller
    log := s.log ++ events ++ e.trace.filterMap (effectEvent t c) }

/-- Run a member of connection `c`: the new state, and what follows. -/
def perform (s : State L U) (t : Thread L U) (c : ConnPtr L) (events : List (Event L U))
    (f : Endpoint (ChannelPtr L) → Endpoint (ChannelPtr L)) :
    Option (State L U × List (Instr L)) :=
  (s.heap c).map fun conn =>
    let e := f (s.endpoint c conn)
    (s.performed t c events e, e.trace.flatMap (effectInstrs c))

/-- `newConnection`, up to its call of `runInLoop`. -/
def newConnection (cfg : Config L U) (t : Thread L U) (sockfd : ℕ) (s : State L U) :
    State L U × List (Instr L) :=
  let c : ConnPtr L := ⟨s.nextConnId, (cfg.getNextLoop s.next).1, sockfd⟩
  let connName := cfg.connName s.nextConnId
  ({ s with
      next := (cfg.getNextLoop s.next).2
      nextConnId := s.nextConnId + 1
      heap := Function.update s.heap c
        (some (TcpConnection.make sockfd cfg.writeCompleteCallback))
      connections := (connName, c) :: s.connections.filter fun item => item.1 ≠ connName
      isOpen := Function.update s.isOpen sockfd true
      log := s.log ++ [.nextConnId t, .connections t] },
    cfg.runInLoop t c.loop (.connectionEstablished c))

/-- A call on the acceptor's channel. -/
def onAcceptor (cfg : Config L U)
    (f : Channel → EPollPoller (ChannelPtr L) → Channel × EPollPoller (ChannelPtr L))
    (s : State L U) : State L U :=
  { s with
    acceptChannel := (f s.acceptChannel (s.pollers cfg.base)).1
    pollers := Function.update s.pollers cfg.base (f s.acceptChannel (s.pollers cfg.base)).2 }

end Step

end State

/-- The server and its loops as the constructors leave them: every loop polls
its own wakeup channel. -/
structure Start (cfg : Config L U) (s : State L U) : Prop where
  loops : ∀ l, s.loops l = .make
  pollers : ∀ l, s.pollers l =
    { channels := Function.update (fun _ => none) (cfg.wakeupFd l) (some (.wakeup l))
      epoll := Function.update (fun _ => none) (cfg.wakeupFd l)
        (some (Channel.kReadEvent, .wakeup l))
      exited := false }
  stack : ∀ t, s.stack t = []
  heap : ∀ c, s.heap c = none
  acceptChannel : s.acceptChannel = Channel.make cfg.acceptFd
  connections : s.connections = []
  nextConnId : s.nextConnId = 1
  next : s.next = 0
  wakeupFd_isOpen : ∀ l, s.isOpen (cfg.wakeupFd l) = true
  acceptFd_isOpen : s.isOpen cfg.acceptFd = true
  log : s.log = []

/-- No connection yet, and no other file open. -/
def State.make [Fintype L] (cfg : Config L U) : State L U where
  loops _ := .make
  pollers l :=
    { channels := Function.update (fun _ => none) (cfg.wakeupFd l) (some (.wakeup l))
      epoll := Function.update (fun _ => none) (cfg.wakeupFd l)
        (some (Channel.kReadEvent, .wakeup l))
      exited := false }
  stack _ := []
  heap _ := none
  acceptChannel := Channel.make cfg.acceptFd
  connections := []
  nextConnId := 1
  next := 0
  isOpen fd := decide (∃ l, fd = cfg.wakeupFd l) || decide (fd = cfg.acceptFd)
  log := []

theorem start_make [Fintype L] (cfg : Config L U) : Start cfg (State.make cfg) where
  loops _ := rfl
  pollers _ := rfl
  stack _ := rfl
  heap _ := rfl
  acceptChannel := rfl
  connections := rfl
  nextConnId := rfl
  next := rfl
  wakeupFd_isOpen l := by simp [State.make]
  acceptFd_isOpen := by simp [State.make]
  log := rfl

section Step

variable [DecidableEq L]

/-- Run a functor on thread `t`. -/
def execFunctor (cfg : Config L U) (t : Thread L U) (o : Outcome) (s : State L U) :
    Functor L → Option (State L U × List (Instr L))
  | .listen => some (s.onAcceptor cfg (Channel.enableReading .acceptor), [])
  | .sendInLoop c message =>
    match o with
    | .wrote res =>
      if res.Admissible message.length then
        s.perform t c [.member t c .sendInLoop, .channel t c]
          (Endpoint.sendInLoop (.conn c) message res)
      else none
    | _ => none
  | .shutdownInLoop c => s.perform t c [.member t c .shutdownInLoop] Endpoint.shutdownInLoop
  | .connectionEstablished c =>
    s.perform t c [.member t c .connectionEstablished, .channel t c]
      (Endpoint.connectionEstablished (.conn c))
  | .connectionDestroyed c =>
    (s.heap c).map fun conn =>
      -- only the test; another thread may store to `state_` before the rest
      (s.record [.member t c .connectionDestroyed],
        if conn.state = .kConnected then [.disconnect c, .removeChannel c]
        else [.removeChannel c])
  | .removeConnectionInLoop c =>
    some ({ s with
        connections := s.connections.filter fun item => item.1 ≠ cfg.connName c.id
        log := s.log ++ [.connections t] },
      -- queued also on the connection's own loop
      [.queueInLoop c.loop (.connectionDestroyed c)])
  | .notice _ _ => some (s, [.user])

/-- `Channel::handleEvent`. -/
def execEvent (cfg : Config L U) (t : Thread L U) (o : Outcome) (s : State L U)
    (revents : EventMask) : ChannelPtr L → Option (State L U × List (Instr L))
  | .wakeup l =>
    if revents &&& (EPOLLIN ||| EPOLLPRI) ≠ 0 then some (s.setLoop l (s.loops l).handleRead, [])
    else some (s, [])
  | .acceptor =>
    if revents &&& (EPOLLIN ||| EPOLLPRI) ≠ 0 then
      match o with
      | .accepted (some connfd) =>
        -- `accept` gives a descriptor that is not open
        if s.isOpen connfd = false then some (s.newConnection cfg t connfd) else none
      | .accepted none => some (s, [])
      | _ => none
    else some (s, [])
  | .conn c =>
    (s.heap c).map fun conn =>
      -- the guard of `tie_` holds the connection until its callbacks have run
      (s, eventCallbacks c revents ++ if conn.channel.tied then [.unguard c] else [])

/-- One instruction of thread `t`, taken off its stack: the new state, and the
instructions that follow. -/
def exec (cfg : Config L U) (t : Thread L U) (o : Outcome) (s : State L U) :
    Instr L → Option (State L U × List (Instr L))
  | .user => none
  -- with `quit_` set `loop()` returns
  | .testQuit l => some (s, if (s.loops l).quit then [] else [.poll l])
  | .poll l =>
    match o with
    | .polled ready =>
      -- the kernel reports a descriptor once, with events that were asked for
      if (ready.map Prod.fst).Nodup ∧
          ∀ b ∈ ready, Reportable ((s.pollers l).epoll b.1) b.2 then
        some (s, activeChannels (s.pollers l) ready ++ [.beginPendingFunctors l])
      else none
    | _ => none
  | .beginPendingFunctors l =>
    some (s.setLoop l (s.loops l).beginPendingFunctors, [.swap l])
  | .swap l =>
    -- the batch lies on the stack, below what its functors push
    some (s.setLoop l (s.loops l).swapFunctors,
      (s.loops l).pendingFunctors.map .functor ++ [.endPendingFunctors l])
  | .functor f => execFunctor cfg t o s f
  | .endPendingFunctors l => some (s.setLoop l (s.loops l).endPendingFunctors, [.testQuit l])
  | .queueInLoop l f => some (s.setLoop l ((s.loops l).push f), [.testWakeup l])
  | .testWakeup l =>
    some (s, if (s.loops l).mustWakeup (cfg.isInLoopThread t l) then [.wakeup l] else [])
  | .wakeup l => some (s.setLoop l (s.loops l).wakeup, [])
  | .handleEvent p revents => execEvent cfg t o s revents p
  | .closeCallback c =>
    s.perform t c [.member t c .handleClose, .channel t c] (Endpoint.handleClose (.conn c))
  | .errorCallback c => s.perform t c [.member t c .handleError] Endpoint.handleError
  | .readCallback c =>
    match o with
    -- `n == 0` is `handleClose`
    | .read (.read []) =>
      s.perform t c [.member t c .handleRead, .member t c .handleClose, .channel t c]
        (Endpoint.handleRead (.conn c) (.read []))
    | .read res => s.perform t c [.member t c .handleRead] (Endpoint.handleRead (.conn c) res)
    | _ => none
  | .writeCallback c =>
    match o with
    | .wrote res =>
      if ∀ conn, s.heap c = some conn → res.Admissible conn.unsent then
        s.perform t c [.member t c .handleWrite, .channel t c] (Endpoint.handleWrite (.conn c) res)
      else none
    | _ => none
  | .unguard _ => some (s, [])
  | .setDisconnecting c =>
    (s.heap c).map fun conn =>
      (s.setConn c { conn with state := .kDisconnecting },
        cfg.runInLoop t c.loop (.shutdownInLoop c))
  | .removeConnection c =>
    some (s.record [.closeCallback t c],
      cfg.runInLoop t cfg.base (.removeConnectionInLoop c))
  | .disconnect c => s.perform t c [.channel t c] (Endpoint.disconnect (.conn c))
  | .removeChannel c =>
    s.perform t c [.channel t c, .returned t c] (Endpoint.removeChannel (.conn c))
  | .quit l =>
    some (s.setLoop l { s.loops l with quit := true },
      if cfg.isInLoopThread t l then [] else [.wakeup l])
  -- waits until the thread has left `loop()`
  | .join l => if s.stack (.loop l) = [] then some (s, []) else none
  | .removeAcceptor =>
    some ((s.onAcceptor cfg (Channel.disableAll .acceptor)).onAcceptor cfg
      (Channel.remove .acceptor), [])

/-! ### Inversion -/

/-- The instructions that call a member `f` of connection `c`, with the events
they record. -/
inductive Calls (t : Thread L U) (c : ConnPtr L) (conn : TcpConnection) :
    Instr L → Outcome → List (Event L U) →
      (Endpoint (ChannelPtr L) → Endpoint (ChannelPtr L)) → Prop
  | sendInLoop {message : List Byte} {res : WriteResult} : res.Admissible message.length →
      Calls t c conn (.functor (.sendInLoop c message)) (.wrote res)
        [.member t c .sendInLoop, .channel t c] (Endpoint.sendInLoop (.conn c) message res)
  | shutdownInLoop {o : Outcome} : Calls t c conn (.functor (.shutdownInLoop c)) o
      [.member t c .shutdownInLoop] Endpoint.shutdownInLoop
  | connectionEstablished {o : Outcome} :
      Calls t c conn (.functor (.connectionEstablished c)) o
        [.member t c .connectionEstablished, .channel t c]
        (Endpoint.connectionEstablished (.conn c))
  | handleClose {o : Outcome} : Calls t c conn (.closeCallback c) o
      [.member t c .handleClose, .channel t c] (Endpoint.handleClose (.conn c))
  | handleError {o : Outcome} : Calls t c conn (.errorCallback c) o
      [.member t c .handleError] Endpoint.handleError
  | endOfFile : Calls t c conn (.readCallback c) (.read (.read []))
      [.member t c .handleRead, .member t c .handleClose, .channel t c]
      (Endpoint.handleRead (.conn c) (.read []))
  | handleRead {res : ReadResult} : res ≠ .read [] →
      Calls t c conn (.readCallback c) (.read res) [.member t c .handleRead]
        (Endpoint.handleRead (.conn c) res)
  | handleWrite {res : WriteResult} : res.Admissible conn.unsent →
      Calls t c conn (.writeCallback c) (.wrote res)
        [.member t c .handleWrite, .channel t c] (Endpoint.handleWrite (.conn c) res)
  | disconnect {o : Outcome} : Calls t c conn (.disconnect c) o [.channel t c]
      (Endpoint.disconnect (.conn c))
  | removeChannel {o : Outcome} : Calls t c conn (.removeChannel c) o
      [.channel t c, .returned t c] (Endpoint.removeChannel (.conn c))

/-- The outcomes of one instruction, one constructor for each branch. -/
inductive Runs (cfg : Config L U) (t : Thread L U) (s : State L U) :
    Instr L → Outcome → State L U → List (Instr L) → Prop
  | calls {c : ConnPtr L} {conn : TcpConnection} {i : Instr L} {o : Outcome}
      {events : List (Event L U)} {f : Endpoint (ChannelPtr L) → Endpoint (ChannelPtr L)} :
      s.heap c = some conn → Calls t c conn i o events f →
      Runs cfg t s i o (s.performed t c events (f (s.endpoint c conn)))
        ((f (s.endpoint c conn)).trace.flatMap (effectInstrs c))
  | testQuit {l : L} {o : Outcome} : (s.loops l).quit = false →
      Runs cfg t s (.testQuit l) o s [.poll l]
  | leave {l : L} {o : Outcome} : (s.loops l).quit = true →
      Runs cfg t s (.testQuit l) o s []
  | poll {l : L} {ready : List (ℕ × EventMask)} : (ready.map Prod.fst).Nodup →
      (∀ b ∈ ready, Reportable ((s.pollers l).epoll b.1) b.2) →
      Runs cfg t s (.poll l) (.polled ready) s
        (activeChannels (s.pollers l) ready ++ [.beginPendingFunctors l])
  | beginPendingFunctors {l : L} {o : Outcome} : Runs cfg t s (.beginPendingFunctors l) o
      (s.setLoop l (s.loops l).beginPendingFunctors) [.swap l]
  | swap {l : L} {o : Outcome} : Runs cfg t s (.swap l) o
      (s.setLoop l (s.loops l).swapFunctors)
      ((s.loops l).pendingFunctors.map .functor ++ [.endPendingFunctors l])
  | endPendingFunctors {l : L} {o : Outcome} : Runs cfg t s (.endPendingFunctors l) o
      (s.setLoop l (s.loops l).endPendingFunctors) [.testQuit l]
  | listen {o : Outcome} : Runs cfg t s (.functor .listen) o
      (s.onAcceptor cfg (Channel.enableReading .acceptor)) []
  | destroyFound {c : ConnPtr L} {conn : TcpConnection} {o : Outcome} :
      s.heap c = some conn → conn.state = .kConnected →
      Runs cfg t s (.functor (.connectionDestroyed c)) o
        (s.record [.member t c .connectionDestroyed]) [.disconnect c, .removeChannel c]
  | destroySkips {c : ConnPtr L} {conn : TcpConnection} {o : Outcome} :
      s.heap c = some conn → conn.state ≠ .kConnected →
      Runs cfg t s (.functor (.connectionDestroyed c)) o
        (s.record [.member t c .connectionDestroyed]) [.removeChannel c]
  | removeConnectionInLoop {c : ConnPtr L} {o : Outcome} :
      Runs cfg t s (.functor (.removeConnectionInLoop c)) o
        { s with
          connections := s.connections.filter fun item => item.1 ≠ cfg.connName c.id
          log := s.log ++ [.connections t] }
        [.queueInLoop c.loop (.connectionDestroyed c)]
  | notice {c : ConnPtr L} {cb : Notice} {o : Outcome} :
      Runs cfg t s (.functor (.notice c cb)) o s [.user]
  | queueInLoop {l : L} {f : Functor L} {o : Outcome} : Runs cfg t s (.queueInLoop l f) o
      (s.setLoop l ((s.loops l).push f)) [.testWakeup l]
  | testWakeup {l : L} {o : Outcome} :
      (s.loops l).mustWakeup (cfg.isInLoopThread t l) = true →
      Runs cfg t s (.testWakeup l) o s [.wakeup l]
  | noWakeup {l : L} {o : Outcome} :
      (s.loops l).mustWakeup (cfg.isInLoopThread t l) = false →
      Runs cfg t s (.testWakeup l) o s []
  | wakeup {l : L} {o : Outcome} : Runs cfg t s (.wakeup l) o
      (s.setLoop l (s.loops l).wakeup) []
  | handleWakeup {l : L} {revents : EventMask} {o : Outcome} :
      Runs cfg t s (.handleEvent (.wakeup l) revents) o (s.setLoop l (s.loops l).handleRead) []
  | ignored {p : ChannelPtr L} {revents : EventMask} {o : Outcome} :
      (∀ c, p ≠ .conn c) → Runs cfg t s (.handleEvent p revents) o s []
  | newConnection {revents : EventMask} {connfd : ℕ} : s.isOpen connfd = false →
      Runs cfg t s (.handleEvent .acceptor revents) (.accepted (some connfd))
        (s.newConnection cfg t connfd).1 (s.newConnection cfg t connfd).2
  | handleEvent {c : ConnPtr L} {conn : TcpConnection} {revents : EventMask} {o : Outcome} :
      s.heap c = some conn → Runs cfg t s (.handleEvent (.conn c) revents) o s
        (eventCallbacks c revents ++ if conn.channel.tied then [.unguard c] else [])
  | unguard {c : ConnPtr L} {o : Outcome} : Runs cfg t s (.unguard c) o s []
  | setDisconnecting {c : ConnPtr L} {conn : TcpConnection} {o : Outcome} :
      s.heap c = some conn → Runs cfg t s (.setDisconnecting c) o
        (s.setConn c { conn with state := .kDisconnecting })
        (cfg.runInLoop t c.loop (.shutdownInLoop c))
  | removeConnection {c : ConnPtr L} {o : Outcome} : Runs cfg t s (.removeConnection c) o
      (s.record [.closeCallback t c]) (cfg.runInLoop t cfg.base (.removeConnectionInLoop c))
  | quit {l : L} {o : Outcome} : Runs cfg t s (.quit l) o
      (s.setLoop l { s.loops l with quit := true })
      (if cfg.isInLoopThread t l then [] else [.wakeup l])
  | join {l : L} {o : Outcome} : s.stack (.loop l) = [] → Runs cfg t s (.join l) o s []
  | removeAcceptor {o : Outcome} : Runs cfg t s .removeAcceptor o
      ((s.onAcceptor cfg (Channel.disableAll .acceptor)).onAcceptor cfg
        (Channel.remove .acceptor)) []

variable {cfg : Config L U} {t : Thread L U} {s : State L U} {r : State L U × List (Instr L)}

theorem runs_of_perform {c : ConnPtr L} {i : Instr L} {o : Outcome}
    {events : List (Event L U)} {f : Endpoint (ChannelPtr L) → Endpoint (ChannelPtr L)}
    (h : s.perform t c events f = some r)
    (hcalls : ∀ conn, s.heap c = some conn → Calls t c conn i o events f) :
    Runs cfg t s i o r.1 r.2 := by
  rw [State.perform, Option.map_eq_some_iff] at h
  obtain ⟨conn, hconn, rfl⟩ := h
  exact .calls hconn (hcalls conn hconn)

theorem runs_of_execFunctor {o : Outcome} {f : Functor L}
    (h : execFunctor cfg t o s f = some r) : Runs cfg t s (.functor f) o r.1 r.2 := by
  cases f with
  | listen =>
    obtain rfl := Option.some.inj h
    exact .listen
  | sendInLoop c message =>
    simp only [execFunctor] at h
    split at h
    next res =>
      split_ifs at h with hadm
      exact runs_of_perform h fun _ _ => .sendInLoop hadm
    next => exact absurd h (by simp)
  | shutdownInLoop c => exact runs_of_perform h fun _ _ => .shutdownInLoop
  | connectionEstablished c => exact runs_of_perform h fun _ _ => .connectionEstablished
  | connectionDestroyed c =>
    simp only [execFunctor, Option.map_eq_some_iff] at h
    obtain ⟨conn, hconn, rfl⟩ := h
    by_cases hst : conn.state = .kConnected
    · rw [if_pos hst]
      exact .destroyFound hconn hst
    · rw [if_neg hst]
      exact .destroySkips hconn hst
  | removeConnectionInLoop c =>
    obtain rfl := Option.some.inj h
    exact .removeConnectionInLoop
  | notice c cb =>
    obtain rfl := Option.some.inj h
    exact .notice

theorem runs_of_execEvent {o : Outcome} {p : ChannelPtr L} {revents : EventMask}
    (h : execEvent cfg t o s revents p = some r) :
    Runs cfg t s (.handleEvent p revents) o r.1 r.2 := by
  cases p with
  | wakeup l =>
    simp only [execEvent] at h
    split_ifs at h
    · obtain rfl := Option.some.inj h
      exact .handleWakeup
    · obtain rfl := Option.some.inj h
      exact .ignored (by simp)
  | acceptor =>
    simp only [execEvent] at h
    split_ifs at h
    · split at h
      next connfd =>
        split_ifs at h with hfree
        obtain rfl := Option.some.inj h
        exact .newConnection hfree
      next =>
        obtain rfl := Option.some.inj h
        exact .ignored (by simp)
      next => exact absurd h (by simp)
    · obtain rfl := Option.some.inj h
      exact .ignored (by simp)
  | conn c =>
    simp only [execEvent, Option.map_eq_some_iff] at h
    obtain ⟨conn, hconn, rfl⟩ := h
    exact .handleEvent hconn

theorem runs_of_exec {o : Outcome} {i : Instr L} (h : exec cfg t o s i = some r) :
    Runs cfg t s i o r.1 r.2 := by
  cases i with
  | user => exact absurd h (by simp [exec])
  | testQuit l =>
    obtain rfl := Option.some.inj h
    by_cases hq : (s.loops l).quit = true
    · rw [if_pos hq]
      exact .leave hq
    · rw [if_neg hq]
      exact .testQuit (by simpa using hq)
  | poll l =>
    simp only [exec] at h
    split at h
    next ready =>
      split_ifs at h with hready
      obtain rfl := Option.some.inj h
      exact .poll hready.1 hready.2
    next => exact absurd h (by simp)
  | beginPendingFunctors l =>
    obtain rfl := Option.some.inj h
    exact .beginPendingFunctors
  | swap l =>
    obtain rfl := Option.some.inj h
    exact .swap
  | functor f => exact runs_of_execFunctor h
  | endPendingFunctors l =>
    obtain rfl := Option.some.inj h
    exact .endPendingFunctors
  | queueInLoop l f =>
    obtain rfl := Option.some.inj h
    exact .queueInLoop
  | testWakeup l =>
    obtain rfl := Option.some.inj h
    by_cases hw : (s.loops l).mustWakeup (cfg.isInLoopThread t l) = true
    · rw [if_pos hw]
      exact .testWakeup hw
    · rw [if_neg hw]
      exact .noWakeup (by simpa using hw)
  | wakeup l =>
    obtain rfl := Option.some.inj h
    exact .wakeup
  | handleEvent p revents => exact runs_of_execEvent h
  | closeCallback c => exact runs_of_perform h fun _ _ => .handleClose
  | errorCallback c => exact runs_of_perform h fun _ _ => .handleError
  | readCallback c =>
    simp only [exec] at h
    split at h
    next => exact runs_of_perform h fun _ _ => .endOfFile
    next res hne => exact runs_of_perform h fun _ _ => .handleRead fun heq => hne (by rw [heq])
    next => exact absurd h (by simp)
  | writeCallback c =>
    simp only [exec] at h
    split at h
    next res =>
      split_ifs at h with hadm
      exact runs_of_perform h fun conn hconn => .handleWrite (hadm conn hconn)
    next => exact absurd h (by simp)
  | unguard c =>
    obtain rfl := Option.some.inj h
    exact .unguard
  | setDisconnecting c =>
    simp only [exec, Option.map_eq_some_iff] at h
    obtain ⟨conn, hconn, rfl⟩ := h
    exact .setDisconnecting hconn
  | removeConnection c =>
    obtain rfl := Option.some.inj h
    exact .removeConnection
  | disconnect c => exact runs_of_perform h fun _ _ => .disconnect
  | removeChannel c => exact runs_of_perform h fun _ _ => .removeChannel
  | quit l =>
    obtain rfl := Option.some.inj h
    exact .quit
  | join l =>
    simp only [exec] at h
    split_ifs at h with hstack
    obtain rfl := Option.some.inj h
    exact .join hstack
  | removeAcceptor =>
    obtain rfl := Option.some.inj h
    exact .removeAcceptor

section Machine

variable [DecidableEq U]

def State.setStack (s : State L U) (t : Thread L U) (is : List (Instr L)) : State L U :=
  { s with stack := Function.update s.stack t is }

@[simp] theorem State.setStack_self (s : State L U) (t : Thread L U) (is : List (Instr L)) :
    (s.setStack t is).stack t = is :=
  Function.update_self _ _ _

theorem State.setStack_of_ne {s : State L U} {t t' : Thread L U} (ht : t' ≠ t)
    (is : List (Instr L)) : (s.setStack t is).stack t' = s.stack t' :=
  Function.update_of_ne ht _ _

/-- Thread `t` goes on with `is` first. -/
def State.push (s : State L U) (t : Thread L U) (is : List (Instr L)) : State L U :=
  s.setStack t (is ++ s.stack t)

/-- `~TcpConnection`: its `Socket` closes the descriptor, which the kernel drops
from every epoll set. -/
def State.free (s : State L U) (c : ConnPtr L) : State L U :=
  { s with
    heap := Function.update s.heap c none
    pollers := fun l => { s.pollers l with epoll := Function.update (s.pollers l).epoll c.fd none }
    isOpen := Function.update s.isOpen c.fd false
    log := s.log ++ [.freed c] }

/-- `~TcpServer`, after it has emptied `connections_` in the order given.  The test
of `loop_` in `~EventLoopThread` is left out: a loop that has returned does not
read `quit_` again. -/
def destroyServer (cfg : Config L U) (order : List (ConnPtr L)) : List (Instr L) :=
  order.flatMap (fun c : ConnPtr L =>
    cfg.runInLoop (.loop cfg.base) c.loop (.connectionDestroyed c)) ++
  cfg.loops.flatMap (fun l => [.quit l, .join l]) ++ [.removeAcceptor]

omit [DecidableEq L] [DecidableEq U] in
theorem mem_destroyServer {cfg : Config L U} {order : List (ConnPtr L)} {j : Instr L}
    (h : j ∈ destroyServer cfg order) :
    (∃ c, j ∈ cfg.runInLoop (.loop cfg.base) c.loop (.connectionDestroyed c)) ∨
      (∃ l, j = .quit l ∨ j = .join l) ∨ j = .removeAcceptor := by
  rcases List.mem_append.mp h with h | h
  · rcases List.mem_append.mp h with h | h
    · obtain ⟨c, -, hc⟩ := List.mem_flatMap.mp h
      exact .inl ⟨c, hc⟩
    · obtain ⟨l, -, hl⟩ := List.mem_flatMap.mp h
      exact .inr (.inl ⟨l, List.mem_pair.mp hl⟩)
  · exact .inr (.inr (List.mem_singleton.mp h))

variable [Fintype L]

def step (cfg : Config L U) (s : State L U) : Label L U → Option (State L U)
  | .exec t o =>
    match s.stack t with
    | i :: rest => (exec cfg t o s i).map fun r => r.1.setStack t (r.2 ++ rest)
    | [] => none
  | .callbackReturn t =>
    match s.stack t with
    | .user :: rest => some (s.setStack t rest)
    | _ => none
  | .send t c message =>
    if s.InUserCode t then
      (s.heap c).map fun conn =>
        if conn.state = .kConnected then
          s.push t (cfg.runInLoop t c.loop (.sendInLoop c message))
        else s
    else none
  | .shutdown t c =>
    if s.InUserCode t then
      (s.heap c).map fun conn =>
        if conn.state = .kConnected then s.push t [.setDisconnecting c] else s
    else none
  | .setThreadNum t =>
    if s.InUserCode t then some (s.push t (cfg.runInLoop t cfg.base .listen)) else none
  | .loop l =>
    if s.stack (.loop l) = [] then
      -- a quit from before is lost
      some ((s.setLoop l { s.loops l with quit := false }).push (.loop l) [.testQuit l])
    else none
  | .quit t l =>
    if s.InUserCode t then
      some ((s.setLoop l { s.loops l with quit := true }).push t
        (if cfg.isInLoopThread t l then [] else [.wakeup l]))
    else none
  | .destroyServer order =>
    -- the map is walked in no particular order
    if s.InUserCode (.loop cfg.base) ∧ order.Perm (s.connections.map Prod.snd) then
      some (({ s with connections := [] }.record [.connections (.loop cfg.base)]).push
        (.loop cfg.base) (destroyServer cfg order))
    else none
  | .destroyConnection c =>
    if (s.heap c).isSome ∧ ¬ s.Referenced c then some (s.free c) else none

/-- The steps, one constructor for each branch. -/
inductive Move (cfg : Config L U) (s : State L U) : Label L U → State L U → Prop
  | exec {t : Thread L U} {o : Outcome} {i : Instr L} {rest is : List (Instr L)}
      {s' : State L U} : s.stack t = i :: rest → Runs cfg t s i o s' is →
      Move cfg s (.exec t o) (s'.setStack t (is ++ rest))
  | callbackReturn {t : Thread L U} {rest : List (Instr L)} : s.stack t = .user :: rest →
      Move cfg s (.callbackReturn t) (s.setStack t rest)
  | send {t : Thread L U} {c : ConnPtr L} {conn : TcpConnection} {message : List Byte} :
      s.InUserCode t → s.heap c = some conn → conn.state = .kConnected →
      Move cfg s (.send t c message) (s.push t (cfg.runInLoop t c.loop (.sendInLoop c message)))
  | shutdown {t : Thread L U} {c : ConnPtr L} {conn : TcpConnection} : s.InUserCode t →
      s.heap c = some conn → conn.state = .kConnected →
      Move cfg s (.shutdown t c) (s.push t [.setDisconnecting c])
  | refused {a : Label L U} : Move cfg s a s
  | setThreadNum {t : Thread L U} : s.InUserCode t →
      Move cfg s (.setThreadNum t) (s.push t (cfg.runInLoop t cfg.base .listen))
  | loop {l : L} : s.stack (.loop l) = [] → Move cfg s (.loop l)
      ((s.setLoop l { s.loops l with quit := false }).push (.loop l) [.testQuit l])
  | quit {t : Thread L U} {l : L} : s.InUserCode t → Move cfg s (.quit t l)
      ((s.setLoop l { s.loops l with quit := true }).push t
        (if cfg.isInLoopThread t l then [] else [.wakeup l]))
  | destroyServer {order : List (ConnPtr L)} : s.InUserCode (.loop cfg.base) →
      Move cfg s (.destroyServer order)
        (({ s with connections := [] }.record [.connections (.loop cfg.base)]).push
          (.loop cfg.base) (destroyServer cfg order))
  | destroyConnection {c : ConnPtr L} {conn : TcpConnection} : s.heap c = some conn →
      ¬ s.Referenced c → Move cfg s (.destroyConnection c) (s.free c)

theorem exec_of_step {s' : State L U} {o : Outcome} (h : step cfg s (.exec t o) = some s') :
    ∃ i rest r, s.stack t = i :: rest ∧ exec cfg t o s i = some r ∧
      s' = r.1.setStack t (r.2 ++ rest) := by
  simp only [step] at h
  split at h
  next i rest hstack =>
    obtain ⟨r, hr, rfl⟩ := Option.map_eq_some_iff.mp h
    exact ⟨i, rest, r, hstack, hr, rfl⟩
  next => exact absurd h (by simp)

theorem move_of_step {s' : State L U} {a : Label L U} (h : step cfg s a = some s') :
    Move cfg s a s' := by
  cases a with
  | exec t o =>
    obtain ⟨i, rest, r, hstack, hr, rfl⟩ := exec_of_step h
    exact .exec hstack (runs_of_exec hr)
  | callbackReturn t =>
    simp only [step] at h
    split at h
    next rest hstack => exact Option.some.inj h ▸ .callbackReturn hstack
    next => exact absurd h (by simp)
  | send t c message =>
    simp only [step] at h
    split_ifs at h with hu
    obtain ⟨conn, hconn, rfl⟩ := Option.map_eq_some_iff.mp h
    by_cases hst : conn.state = .kConnected
    · rw [if_pos hst]
      exact .send hu hconn hst
    · rw [if_neg hst]
      exact .refused
  | shutdown t c =>
    simp only [step] at h
    split_ifs at h with hu
    obtain ⟨conn, hconn, rfl⟩ := Option.map_eq_some_iff.mp h
    by_cases hst : conn.state = .kConnected
    · rw [if_pos hst]
      exact .shutdown hu hconn hst
    · rw [if_neg hst]
      exact .refused
  | setThreadNum t =>
    simp only [step] at h
    split_ifs at h with hu
    exact Option.some.inj h ▸ .setThreadNum hu
  | loop l =>
    simp only [step] at h
    split_ifs at h with hstack
    exact Option.some.inj h ▸ .loop hstack
  | quit t l =>
    rw [step] at h
    by_cases hu : s.InUserCode t
    · rw [if_pos hu] at h
      exact Option.some.inj h ▸ .quit hu
    · rw [if_neg hu] at h
      exact absurd h (by simp)
  | destroyServer order =>
    simp only [step] at h
    split_ifs at h with hu
    exact Option.some.inj h ▸ .destroyServer hu.1
  | destroyConnection c =>
    simp only [step] at h
    split_ifs at h with hc
    obtain ⟨conn, hconn⟩ := Option.isSome_iff_exists.mp hc.1
    exact Option.some.inj h ▸ .destroyConnection hconn hc.2

/-- A process that `LOG_FATAL` has ended takes no step. -/
def system (cfg : Config L U) : Machine (State L U) (Label L U) where
  init := Start cfg
  step s a := if ∃ l, (s.pollers l).exited = true then none else step cfg s a

theorem step_of_system {s' : State L U} {a : Label L U}
    (h : (system cfg).step s a = some s') : step cfg s a = some s' := by
  simp only [system] at h
  split_ifs at h
  exact h

theorem move_of_system {s' : State L U} {a : Label L U}
    (h : (system cfg).step s a = some s') : Move cfg s a s' :=
  move_of_step (step_of_system h)

end Machine

end Step

end TcpServer

end Moduo
