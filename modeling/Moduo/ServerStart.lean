/-
Starting a server (`TcpServer.cc`, `Acceptor.cc`).

The base loop's thread makes the calls `setThreadNum`, `setThreadInitCallback`
and `start` one after another; the threads that `start` creates run beside it.

* `outcome_move` — the order of the steps makes no difference: a run ends as a
  server does whose calls are atomic (`Plan`);
* `startedUp_iff` — the calls return and leave a server that listens, with its
  pool started once and initialised, if and only if `setThreadNum` is among
  them, the counter `started_` is zero at exactly one `start`, which finds the
  number of threads the first one does, and no init callback is set before the
  first.

The member `started_` has no initialiser, so a fresh server may hold any value
there, and it wraps around.  `start` makes nothing listen, which `setThreadNum`
does, and hands the pool no init callback.
-/
import Moduo.EventLoopThreadPool
import Moduo.TcpServer

namespace Moduo

namespace ServerStart

/-- `socketListens`: the system call `::listen` has succeeded. -/
structure Acceptor where
  acceptChannel : Channel
  socketListens : Bool
  listenning : Bool
  deriving DecidableEq, Repr

/-- The calls, `C` being the type of init callbacks; an empty `std::function` is
`none`. -/
inductive Call (C : Type*)
  | setThreadNum (numThreads : ℕ)
  | setThreadInitCallback (cb : Option C)
  | start
  deriving DecidableEq, Repr

/-- `calls` are the calls still to be made; `listening`, `setThreadNum` is before
its call of `Acceptor::listen`; `exited`, a failed `::listen` has ended the
process. -/
structure State (φ C : Type*) where
  started : BitVec 32
  threadInitCallback : Option C
  threadPool : EventLoopThreadPool φ C
  acceptor : Acceptor
  poller : EPollPoller (TcpServer.ChannelPtr LoopPtr)
  calls : List (Call C)
  listening : Bool
  exited : Bool

/-- `listen` carries the outcome of the system call. -/
inductive Label
  | call
  | listen (succeeds : Bool)
  | pool (a : EventLoopThreadPool.Label)
  deriving DecidableEq, Repr

variable {φ C : Type*}

namespace State

/-- On the base loop's thread `runInLoop` makes the call of `listen` itself. -/
def setThreadNum (numThreads : ℕ) (s : State φ C) : State φ C :=
  { s with threadPool := s.threadPool.setThreadNum numThreads, listening := true }

def setThreadInitCallback (cb : Option C) (s : State φ C) : State φ C :=
  { s with threadInitCallback := cb }

/-- The pool's `start` has an empty callback as its default argument. -/
def start (s : State φ C) : State φ C :=
  let t := { s with started := s.started + 1 }
  -- `if(started_++ == 0)`: the callback that was set is not handed on
  if s.started = 0 then { t with threadPool := s.threadPool.start none } else t

def call (s : State φ C) : Call C → State φ C
  | .setThreadNum numThreads => s.setThreadNum numThreads
  | .setThreadInitCallback cb => s.setThreadInitCallback cb
  | .start => s.start

/-- `Acceptor::listen`, when the socket listens. -/
def listen (s : State φ C) : State φ C :=
  let r := s.acceptor.acceptChannel.enableReading .acceptor s.poller
  { s with
    acceptor := ⟨r.1, true, true⟩
    poller := r.2
    listening := false }

/-- `Acceptor::listen`, when `::listen` fails. -/
def listenFails (s : State φ C) : State φ C :=
  { s with acceptor := { s.acceptor with listenning := true }, exited := true }

end State

/-- A step of the base loop's thread or of a thread of the pool. -/
def step (s : State φ C) (a : Label) : Option (State φ C) :=
  if s.exited ∨ s.poller.exited then none
  else match a with
  | .call =>
    -- inside `setThreadNum` the base loop's thread is in `listen`
    if s.listening then none
    else match s.threadPool.control, s.calls with
    | .idle, c :: rest => some { s.call c with calls := rest }
    | _, _ => none
  | .listen succeeds =>
    if s.listening then some (if succeeds then s.listen else s.listenFails) else none
  | .pool b => (s.threadPool.step b).map fun p => { s with threadPool := p }

/-- A server as its constructor leaves it, about to receive `cs`.  Nothing is
said of `started`; the accepting socket is new to the epoll set. -/
structure Fresh (cs : List (Call C)) (s : State φ C) : Prop where
  threadInitCallback : s.threadInitCallback = none
  threadPool : ∃ name, s.threadPool = .make name
  acceptor : ∃ fd, s.acceptor = ⟨.make fd, false, false⟩ ∧ s.poller.epoll fd = none
  running : s.poller.exited = false ∧ s.exited = false
  calls : s.calls = cs
  listening : s.listening = false

def system : Machine (State φ C) Label where
  init s := ∃ cs, Fresh cs s
  step := step

/-- A server on a loop without other channels, with `v` in `started_`. -/
def State.make (v : BitVec 32) (name : String) (fd : ℕ) (cs : List (Call C)) : State φ C :=
  ⟨v, none, .make name, ⟨.make fd, false, false⟩, .empty, cs, false, false⟩

theorem fresh_make (v : BitVec 32) (name : String) (fd : ℕ) (cs : List (Call C)) :
    Fresh cs (State.make v name fd cs : State φ C) :=
  ⟨rfl, ⟨name, rfl⟩, ⟨fd, rfl, rfl⟩, ⟨rfl, rfl⟩, rfl, rfl⟩

/-! ### What the calls say -/

/-- The number of threads last set, `n` if none is. -/
def threadNum (n : ℕ) : List (Call C) → ℕ
  | [] => n
  | .setThreadNum m :: cs => threadNum m cs
  | _ :: cs => threadNum n cs

/-- The init callback last set, `cb` if none is. -/
def initCallback (cb : Option C) : List (Call C) → Option C
  | [] => cb
  | .setThreadInitCallback d :: cs => initCallback d cs
  | _ :: cs => initCallback cb cs

def Call.isStart : Call C → Bool
  | .start => true
  | _ => false

def Call.isSetThreadNum : Call C → Bool
  | .setThreadNum _ => true
  | _ => false

/-- The number of calls of `start`. -/
def numStarts (cs : List (Call C)) : ℕ := cs.countP Call.isStart

/-- The calls before the `k`th call of `start`, counted from 0. -/
def upToStart : ℕ → List (Call C) → List (Call C)
  | _, [] => []
  | 0, c :: cs => if c.isStart then [] else c :: upToStart 0 cs
  | k + 1, c :: cs => c :: upToStart (if c.isStart then k else k + 1) cs

/-- The acceptor listens, and its channel is registered for reading. -/
structure Listening (s : State φ C) : Prop where
  listenning : s.acceptor.listenning = true
  socketListens : s.acceptor.socketListens = true
  wantsRead : s.acceptor.acceptChannel.wantsRead
  index : s.acceptor.acceptChannel.index = .kAdded
  entry : s.poller.epoll s.acceptor.acceptChannel.fd =
    some (s.acceptor.acceptChannel.events, .acceptor)

/-- What should hold after the calls `cs`, when the process has not ended. -/
structure StartedUp [DecidableEq C] (cs : List (Call C)) (s : State φ C) : Prop where
  returned : s.calls = [] ∧ s.listening = false
  listening : Listening s
  starts : s.threadPool.starts = 1
  loops : s.threadPool.Complete (threadNum 0 (upToStart 0 cs))
  initialised : ∀ c, initCallback none (upToStart 0 cs) = some c →
    ∀ l ∈ EventLoopThreadPool.initLoops (threadNum 0 (upToStart 0 cs)),
      s.threadPool.invoked.count (c, l) = 1

/-- The calls `cs` start a server up whose `started_` is `v` at first. -/
structure Prepared (v : BitVec 32) (cs : List (Call C)) : Prop where
  listens : ∃ n, .setThreadNum n ∈ cs
  starts : ∃ k < numStarts cs, (∀ j < numStarts cs, v + BitVec.ofNat 32 j = 0 ↔ j = k) ∧
    threadNum 0 (upToStart k cs) = threadNum 0 (upToStart 0 cs)
  noCallback : initCallback none (upToStart 0 cs) = none

/-! ### Atomic calls -/

/-- A server whose calls are atomic: `listens`, some call has made it listen;
`starts`, how often it has started its pool; `loops`, how many loops that gave. -/
@[ext] structure Plan (C : Type*) where
  numThreads : ℕ
  threadInitCallback : Option C
  started : BitVec 32
  listens : Bool
  starts : ℕ
  loops : ℕ
  deriving DecidableEq, Repr

def Plan.call (P : Plan C) : Call C → Plan C
  | .setThreadNum numThreads => { P with numThreads := numThreads, listens := true }
  | .setThreadInitCallback cb => { P with threadInitCallback := cb }
  | .start =>
    let Q := { P with started := P.started + 1 }
    if P.started = 0 then { Q with starts := P.starts + 1, loops := P.loops + P.numThreads } else Q

def Plan.calls (P : Plan C) (cs : List (Call C)) : Plan C := cs.foldl Plan.call P

/-- What is left to do in the calls made counts as done. -/
def State.plan (s : State φ C) : Plan C where
  numThreads := s.threadPool.numThreads
  threadInitCallback := s.threadInitCallback
  started := s.started
  listens := s.listening || s.acceptor.listenning
  starts := s.threadPool.starts
  loops := s.threadPool.loops.length + s.threadPool.owed

/-- How the server ends when it makes its calls atomically from here on. -/
def State.outcome (s : State φ C) : Plan C := s.plan.calls s.calls

/-- A server as its constructor leaves it. -/
def Plan.fresh (v : BitVec 32) : Plan C := ⟨0, none, v, false, 0, 0⟩

/-- The numbers of threads with which `cs` start the pool, `v` being the counter
and `n` the number set before. -/
def poolStarts (v : BitVec 32) (n : ℕ) : List (Call C) → List ℕ
  | [] => []
  | .setThreadNum m :: cs => poolStarts v m cs
  | .setThreadInitCallback _ :: cs => poolStarts v n cs
  | .start :: cs => (if v = 0 then [n] else []) ++ poolStarts (v + 1) n cs

theorem Plan.calls_listens (P : Plan C) (cs : List (Call C)) :
    (P.calls cs).listens = (P.listens || cs.any Call.isSetThreadNum) := by
  induction cs generalizing P with
  | nil => simp [Plan.calls]
  | cons c cs ih =>
    have hhead : (P.call c).listens = (P.listens || c.isSetThreadNum) := by
      cases c with
      | setThreadNum => simp [Plan.call, Call.isSetThreadNum]
      | setThreadInitCallback => simp [Plan.call, Call.isSetThreadNum]
      | start =>
        simp only [Plan.call, Call.isSetThreadNum, Bool.or_false]
        split_ifs <;> rfl
    show ((P.call c).calls cs).listens = _
    rw [ih, hhead, List.any_cons, Bool.or_assoc]

/-- How often the pool is started, and how many loops that gives. -/
theorem Plan.calls_starts (P : Plan C) (cs : List (Call C)) :
    (P.calls cs).starts = P.starts + (poolStarts P.started P.numThreads cs).length ∧
      (P.calls cs).loops = P.loops + (poolStarts P.started P.numThreads cs).sum := by
  induction cs generalizing P with
  | nil => exact ⟨rfl, rfl⟩
  | cons c cs ih =>
    obtain ⟨hstarts, hloops⟩ := ih (P.call c)
    cases c with
    | setThreadNum n => exact ⟨hstarts, hloops⟩
    | setThreadInitCallback cb => exact ⟨hstarts, hloops⟩
    | start =>
      show ((P.call .start).calls cs).starts = _ ∧ ((P.call .start).calls cs).loops = _
      rw [hstarts, hloops, poolStarts]
      by_cases hv : P.started = 0
      · have hcall : P.call .start = { P with
            started := P.started + 1, starts := P.starts + 1,
            loops := P.loops + P.numThreads } := if_pos hv
        rw [hcall, if_pos hv, List.length_append, List.sum_append]
        exact ⟨Nat.add_assoc _ _ _, by simp [Nat.add_assoc]⟩
      · have hcall : P.call .start = { P with started := P.started + 1 } := if_neg hv
        rw [hcall, if_neg hv]
        exact ⟨rfl, rfl⟩

/-- The pool is started by the calls of `start` that find the counter zero. -/
theorem poolStarts_eq (v : BitVec 32) (n : ℕ) (cs : List (Call C)) :
    poolStarts v n cs =
      ((List.range (numStarts cs)).filter fun k => v + BitVec.ofNat 32 k = 0).map
        fun k => threadNum n (upToStart k cs) := by
  induction cs generalizing v n with
  | nil => rfl
  | cons c cs ih =>
    have hup (d : Call C) (hd : d.isStart = false) (k : ℕ) :
        upToStart k (d :: cs) = d :: upToStart k cs := by
      cases k with
      | zero => simp [upToStart, hd]
      | succ k => simp [upToStart, hd]
    cases c with
    | setThreadNum m =>
      rw [poolStarts, ih]
      refine List.map_congr_left fun k _ => ?_
      rw [hup _ rfl]
      rfl
    | setThreadInitCallback cb =>
      rw [poolStarts, ih]
      refine List.map_congr_left fun k _ => ?_
      rw [hup _ rfl]
      rfl
    | start =>
      have hnum : numStarts (.start :: cs) = numStarts cs + 1 := List.countP_cons_of_pos rfl
      have hshift (k : ℕ) : v + BitVec.ofNat 32 (k + 1) = v + 1 + BitVec.ofNat 32 k := by
        rw [BitVec.ofNat_add, BitVec.add_assoc, BitVec.add_comm (BitVec.ofNat 32 k)]
        rfl
      have htail : ((List.map Nat.succ (List.range (numStarts cs))).filter
            fun k => v + BitVec.ofNat 32 k = 0).map
            (fun k => threadNum n (upToStart k (.start :: cs)))
          = ((List.range (numStarts cs)).filter fun k => v + 1 + BitVec.ofNat 32 k = 0).map
            fun k => threadNum n (upToStart k cs) := by
        rw [List.filter_map, List.map_map]
        have hsame : ((fun k => decide (v + BitVec.ofNat 32 k = 0)) ∘ Nat.succ) =
            fun k => decide (v + 1 + BitVec.ofNat 32 k = 0) := by
          funext k
          show decide (v + BitVec.ofNat 32 (k + 1) = 0) = _
          rw [hshift]
        rw [hsame]
        rfl
      rw [poolStarts, ih, hnum, List.range_succ_eq_map, List.filter_cons]
      by_cases hv : v = 0
      · rw [if_pos hv, if_pos (by simpa using hv), List.map_cons, htail]
        rfl
      · rw [if_neg hv, if_neg (by simpa using hv), htail]
        rfl

/-- Exactly one number below `m` satisfies `p`. -/
theorem filter_range_eq_singleton {m k : ℕ} {p : ℕ → Bool} :
    (List.range m).filter p = [k] ↔ k < m ∧ ∀ j < m, p j = true ↔ j = k := by
  constructor
  · intro h
    have hmem (j : ℕ) : j ∈ (List.range m).filter p ↔ j = k := by rw [h, List.mem_singleton]
    have hk := (List.mem_filter.mp ((hmem k).mpr rfl)).1
    refine ⟨List.mem_range.mp hk, fun j hj => ?_⟩
    rw [← hmem j, List.mem_filter]
    exact ⟨fun hp => ⟨List.mem_range.mpr hj, hp⟩, And.right⟩
  · rintro ⟨hk, hp⟩
    refine List.perm_singleton.mp ((List.perm_ext_iff_of_nodup ?_ ?_).mpr fun j => ?_)
    · exact List.nodup_range.filter _
    · exact List.nodup_singleton k
    · rw [List.mem_filter, List.mem_range, List.mem_singleton]
      constructor
      · rintro ⟨hj, hpj⟩
        exact (hp j hj).mp hpj
      · rintro rfl
        exact ⟨hk, (hp j hk).mpr rfl⟩

/-- The atomic calls leave a server started up exactly when they are prepared. -/
theorem prepared_iff {v : BitVec 32} {cs : List (Call C)} :
    Prepared v cs ↔ ((Plan.fresh v).calls cs).listens = true ∧
      ((Plan.fresh v).calls cs).starts = 1 ∧
      ((Plan.fresh v).calls cs).loops = threadNum 0 (upToStart 0 cs) ∧
      initCallback none (upToStart 0 cs) = none := by
  have hlistens : ((Plan.fresh v).calls cs).listens = true ↔ ∃ n, .setThreadNum n ∈ cs := by
    rw [Plan.calls_listens]
    show cs.any Call.isSetThreadNum = true ↔ _
    rw [List.any_eq_true]
    constructor
    · rintro ⟨c, hc, his⟩
      cases c with
      | setThreadNum n => exact ⟨n, hc⟩
      | setThreadInitCallback => exact absurd his (by simp [Call.isSetThreadNum])
      | start => exact absurd his (by simp [Call.isSetThreadNum])
    · rintro ⟨n, hn⟩
      exact ⟨_, hn, rfl⟩
  have hsizes : ((Plan.fresh v).calls cs).starts = (poolStarts v 0 cs).length ∧
      ((Plan.fresh v).calls cs).loops = (poolStarts v 0 cs).sum := by
    obtain ⟨hstarts, hloops⟩ := Plan.calls_starts (Plan.fresh v) cs
    exact ⟨hstarts.trans (Nat.zero_add _), hloops.trans (Nat.zero_add _)⟩
  rw [hlistens, hsizes.1, hsizes.2, poolStarts_eq, List.length_map]
  constructor
  · rintro ⟨hset, ⟨k, hk, honce, hnum⟩, hnone⟩
    have hlist : (List.range (numStarts cs)).filter
        (fun j => decide (v + BitVec.ofNat 32 j = 0)) = [k] :=
      filter_range_eq_singleton.mpr ⟨hk, fun j hj => by simpa using honce j hj⟩
    rw [hlist]
    exact ⟨hset, rfl, by simpa using hnum, hnone⟩
  · rintro ⟨hset, hlength, hsum, hnone⟩
    obtain ⟨k, hlist⟩ := List.length_eq_one_iff.mp hlength
    obtain ⟨hk, honce⟩ := filter_range_eq_singleton.mp hlist
    rw [hlist] at hsum
    exact ⟨hset, ⟨k, hk, fun j hj => by simpa using honce j hj, by simpa using hsum⟩, hnone⟩

/-! ### Inversion -/

variable {s t : State φ C}

/-- The steps, one constructor for each branch. -/
inductive Move (s : State φ C) : Label → State φ C → Prop
  | call {c : Call C} {rest : List (Call C)} : s.listening = false →
      s.threadPool.control = .idle → s.calls = c :: rest →
      Move s .call { s.call c with calls := rest }
  | listen : s.listening = true → Move s (.listen true) s.listen
  | listenFails : s.listening = true → Move s (.listen false) s.listenFails
  | pool {a : EventLoopThreadPool.Label} {p : EventLoopThreadPool φ C} :
      EventLoopThreadPool.Move s.threadPool a p → Move s (.pool a) { s with threadPool := p }

theorem move_of_step {a : Label} (h : step s a = some t) : s.exited = false ∧ Move s a t := by
  cases a with
  | call =>
    simp only [step] at h
    split_ifs at h with hended hl
    refine ⟨by simpa using (not_or.mp hended).1, ?_⟩
    split at h
    next c rest hidle hcalls => exact Option.some.inj h ▸ .call (by simpa using hl) hidle hcalls
    next => exact absurd h (by simp)
  | listen succeeds =>
    simp only [step] at h
    split_ifs at h with hended hl hs
    · obtain rfl := hs
      exact Option.some.inj h ▸ ⟨by simpa using (not_or.mp hended).1, .listen hl⟩
    · obtain rfl : succeeds = false := by simpa using hs
      exact Option.some.inj h ▸ ⟨by simpa using (not_or.mp hended).1, .listenFails hl⟩
  | pool b =>
    simp only [step] at h
    split_ifs at h with hended
    obtain ⟨p, hp, rfl⟩ := Option.map_eq_some_iff.mp h
    exact ⟨by simpa using (not_or.mp hended).1, .pool (EventLoopThreadPool.move_of_step hp)⟩

/-- `start` starts the pool when it finds the counter zero. -/
theorem start_of_zero (h : s.started = 0) :
    s.start = { s with started := s.started + 1, threadPool := s.threadPool.start none } :=
  if_pos h

theorem start_of_ne (h : s.started ≠ 0) : s.start = { s with started := s.started + 1 } :=
  if_neg h

theorem plan_call {c : Call C} (hidle : s.threadPool.control = .idle) :
    (s.call c).plan = s.plan.call c := by
  have howed : s.threadPool.owed = 0 := EventLoopThreadPool.owed_of_idle hidle
  cases c with
  | setThreadNum n =>
    refine Plan.ext rfl rfl rfl rfl rfl ?_
    have hnew : (s.threadPool.setThreadNum n).owed = 0 := EventLoopThreadPool.owed_of_idle hidle
    show s.threadPool.loops.length + (s.threadPool.setThreadNum n).owed =
      s.threadPool.loops.length + s.threadPool.owed
    rw [hnew, howed]
  | setThreadInitCallback cb => rfl
  | start =>
    show s.start.plan = _
    by_cases hv : s.started = 0
    · have hplan : s.plan.call .start = { s.plan with
          started := s.started + 1, starts := s.threadPool.starts + 1,
          loops := s.plan.loops + s.threadPool.numThreads } := if_pos hv
      rw [start_of_zero hv, hplan]
      refine Plan.ext rfl rfl rfl rfl rfl ?_
      show s.threadPool.loops.length + (s.threadPool.start none).owed =
        s.threadPool.loops.length + s.threadPool.owed + s.threadPool.numThreads
      rw [howed]
      rfl
    · have hplan : s.plan.call .start = { s.plan with started := s.started + 1 } := if_neg hv
      rw [start_of_ne hv, hplan]
      rfl

/-- Every step is one of a server with atomic calls, or none. -/
theorem outcome_move {a : Label} (h : EventLoopThreadPool.Inv s.threadPool) (hm : Move s a t) :
    t.outcome = s.outcome := by
  cases hm with
  | call _ hidle hcalls =>
    rw [State.outcome, State.outcome, hcalls]
    show (s.call _).plan.calls _ = _
    rw [plan_call hidle]
    rfl
  | listen hl =>
    have hplan : s.listen.plan = s.plan := by simp [State.plan, State.listen, hl]
    rw [State.outcome, hplan]
    rfl
  | listenFails hl =>
    have hplan : s.listenFails.plan = s.plan := by simp [State.plan, State.listenFails, hl]
    rw [State.outcome, hplan]
    rfl
  | @pool b p hp =>
    have howed := EventLoopThreadPool.owed_move h hp
    obtain ⟨-, hnum, hstarts⟩ := hp.keeps
    have hplan : State.plan { s with threadPool := p } = s.plan := by
      simp [State.plan, hnum, hstarts, howed]
    rw [State.outcome, hplan]
    rfl

/-! ### The calls return -/

/-- The acceptor before the first call of `listen`. -/
structure Silent (s : State φ C) : Prop where
  listenning : s.acceptor.listenning = false
  index : s.acceptor.acceptChannel.index = .kNew
  absent : s.poller.epoll s.acceptor.acceptChannel.fd = none

structure Inv (s : State φ C) : Prop where
  pool : EventLoopThreadPool.Inv s.threadPool
  uses : EventLoopThreadPool.Uses none s.threadPool
  invoked : s.threadPool.invoked = []
  running : s.poller.exited = false
  acceptor : s.exited = false → Silent s ∨ Listening s

theorem inv_fresh {cs : List (Call C)} (h : Fresh cs s) : Inv s := by
  obtain ⟨name, hpool⟩ := h.threadPool
  obtain ⟨fd, hacceptor, habsent⟩ := h.acceptor
  refine ⟨?_, ?_, ?_, h.running.1, fun _ => .inl ?_⟩
  · rw [hpool]
    exact EventLoopThreadPool.inv_make name
  · rw [hpool]
    exact ⟨fun _ ht => absurd ht List.not_mem_nil,
      fun _ _ hc => absurd hc (by simp [EventLoopThreadPool.make]),
      fun _ _ hc => absurd hc (by simp [EventLoopThreadPool.make])⟩
  · rw [hpool]
    rfl
  · refine ⟨?_, ?_, ?_⟩
    · rw [hacceptor]
    · rw [hacceptor]
      rfl
    · rw [hacceptor]
      exact habsent

/-- `listen` registers the channel, again if it is registered. -/
theorem listen_eq (h : Silent s ∨ Listening s) :
    s.acceptor.acceptChannel.enableReading .acceptor s.poller =
      ({ s.acceptor.acceptChannel with
          events := s.acceptor.acceptChannel.events ||| Channel.kReadEvent, index := .kAdded },
        { s.poller with
          channels := if s.acceptor.acceptChannel.index = .kNew then
            Function.update s.poller.channels s.acceptor.acceptChannel.fd (some .acceptor)
            else s.poller.channels
          epoll := Function.update s.poller.epoll s.acceptor.acceptChannel.fd
            (some (s.acceptor.acceptChannel.events ||| Channel.kReadEvent, .acceptor)) }) := by
  refine Channel.enableReading_registers ?_ ?_
  · intro hadded
    rcases h with h | h
    · exact absurd (hadded.symm.trans h.index) (by simp)
    · exact ⟨_, h.entry⟩
  · intro hne
    rcases h with h | h
    · exact h.absent
    · exact absurd h.index hne

theorem listening_listen (h : Silent s ∨ Listening s) : Listening s.listen := by
  have heq := listen_eq h
  refine ⟨rfl, rfl, Channel.enableReading_wantsRead _ _ _, ?_, ?_⟩
  · show (s.acceptor.acceptChannel.enableReading .acceptor s.poller).1.index = .kAdded
    rw [heq]
  · show (s.acceptor.acceptChannel.enableReading .acceptor s.poller).2.epoll
      (s.acceptor.acceptChannel.enableReading .acceptor s.poller).1.fd = _
    rw [heq]
    show Function.update s.poller.epoll _ _ _ = _
    rw [Function.update_self]
    show _ = some ((s.acceptor.acceptChannel.enableReading .acceptor s.poller).1.events, _)
    rw [heq]

/-- What leaves the acceptor and the poller alone leaves the registration alone. -/
theorem registration_congr (h : Silent s ∨ Listening s) (hacceptor : t.acceptor = s.acceptor)
    (hpoller : t.poller = s.poller) : Silent t ∨ Listening t := by
  rcases h with ⟨hoff, hindex, habsent⟩ | ⟨hon, hsocket, hreads, hindex, hentry⟩
  · rw [← hacceptor] at hoff hindex habsent
    rw [← hpoller] at habsent
    exact .inl ⟨hoff, hindex, habsent⟩
  · rw [← hacceptor] at hon hsocket hreads hindex hentry
    rw [← hpoller] at hentry
    exact .inr ⟨hon, hsocket, hreads, hindex, hentry⟩

theorem inv_move {a : Label} (hrun : s.exited = false) (h : Inv s) (hm : Move s a t) : Inv t := by
  obtain ⟨hpool, huses, hinvoked, hrunning, hacceptor⟩ := h
  have hkept : Silent s ∨ Listening s := hacceptor hrun
  cases hm with
  | @call c rest _ hidle =>
    cases c with
    | setThreadNum n =>
      exact ⟨hpool.setThreadNum hidle n, ⟨huses.threads, huses.testing, huses.launching⟩, hinvoked,
        hrunning, fun _ => registration_congr hkept rfl rfl⟩
    | setThreadInitCallback cb =>
      exact ⟨hpool, huses, hinvoked, hrunning, fun _ => registration_congr hkept rfl rfl⟩
    | start =>
      show Inv { s.start with calls := rest }
      by_cases hv : s.started = 0
      · rw [start_of_zero hv]
        exact ⟨hpool.start hidle none, .start huses.threads, hinvoked, hrunning,
          fun _ => registration_congr hkept rfl rfl⟩
      · rw [start_of_ne hv]
        exact ⟨hpool, huses, hinvoked, hrunning, fun _ => registration_congr hkept rfl rfl⟩
  | listen =>
    refine ⟨hpool, huses, hinvoked, ?_, fun _ => .inr (listening_listen hkept)⟩
    show (s.acceptor.acceptChannel.enableReading .acceptor s.poller).2.exited = false
    rw [listen_eq hkept]
    exact hrunning
  | listenFails =>
    exact ⟨hpool, huses, hinvoked, hrunning, fun hno => absurd hno (by simp [State.listenFails])⟩
  | pool hp =>
    exact ⟨EventLoopThreadPool.inv_move hpool hp, EventLoopThreadPool.uses_move huses hp,
      EventLoopThreadPool.invoked_move huses hinvoked hp, hrunning,
      fun _ => registration_congr hkept rfl rfl⟩

/-- A bound on the steps that the calls `cs` take, `n` being the number of threads. -/
def callSteps (n : ℕ) : List (Call C) → ℕ
  | [] => 0
  | .setThreadNum m :: cs => callSteps m cs + 2
  | .setThreadInitCallback _ :: cs => callSteps n cs + 1
  | .start :: cs => callSteps n cs + (8 * n + 2)

/-- The call of `listen` that is being made. -/
def State.owed (s : State φ C) : ℕ := if s.listening = true ∧ s.exited = false then 1 else 0

def State.remaining (s : State φ C) : ℕ :=
  callSteps s.threadPool.numThreads s.calls + s.owed + s.threadPool.remaining

theorem remaining_move {a : Label} (hrun : s.exited = false) (h : Inv s) (hm : Move s a t) :
    t.remaining < s.remaining := by
  cases hm with
  | @call c rest hl hidle hcalls =>
    cases c with
    | setThreadNum n =>
      have howed : (s.setThreadNum n).owed = 1 := if_pos ⟨rfl, hrun⟩
      have hpool : (s.threadPool.setThreadNum n).remaining = s.threadPool.remaining := by
        simp [EventLoopThreadPool.remaining, EventLoopThreadPool.setThreadNum, hidle]
      show callSteps n rest + (s.setThreadNum n).owed + (s.threadPool.setThreadNum n).remaining < _
      rw [State.remaining, hcalls, howed, hpool, callSteps]
      omega
    | setThreadInitCallback cb =>
      show callSteps s.threadPool.numThreads rest + s.owed + s.threadPool.remaining < _
      rw [State.remaining, hcalls, callSteps]
      omega
    | start =>
      show State.remaining { s.start with calls := rest } < _
      by_cases hv : s.started = 0
      · -- the first `start` starts the pool: at most eight steps a thread
        have hpool : (s.threadPool.start none).remaining =
            s.threadPool.remaining + (8 * s.threadPool.numThreads + 1) := by
          simp only [EventLoopThreadPool.remaining, EventLoopThreadPool.start, hidle]
          omega
        rw [start_of_zero hv]
        show callSteps s.threadPool.numThreads rest + s.owed +
          (s.threadPool.start none).remaining < _
        rw [State.remaining, hcalls, hpool, callSteps]
        omega
      · rw [start_of_ne hv]
        show callSteps s.threadPool.numThreads rest + s.owed + s.threadPool.remaining < _
        rw [State.remaining, hcalls, callSteps]
        omega
  | listen hl =>
    have howed : s.owed = 1 := if_pos ⟨hl, hrun⟩
    show callSteps s.threadPool.numThreads s.calls + 0 + s.threadPool.remaining < _
    rw [State.remaining, howed]
    omega
  | listenFails hl =>
    have howed : s.owed = 1 := if_pos ⟨hl, hrun⟩
    have hgone : s.listenFails.owed = 0 := if_neg (by simp [State.listenFails])
    show callSteps s.threadPool.numThreads s.calls + s.listenFails.owed + s.threadPool.remaining < _
    rw [State.remaining, howed, hgone]
    omega
  | @pool b p hp =>
    have hlower := EventLoopThreadPool.remaining_move h.pool hp
    obtain ⟨-, hnum, -⟩ := hp.keeps
    show callSteps p.numThreads s.calls + s.owed + p.remaining < _
    rw [State.remaining, hnum]
    omega

/-- No call is left, and none is being made. -/
def Done (s : State φ C) : Prop :=
  s.calls = [] ∧ s.listening = false ∧ s.threadPool.control = .idle

/-- A call makes no thread, and does not end the process. -/
theorem call_keeps (s : State φ C) (c : Call C) : (s.call c).exited = s.exited ∧
    (s.call c).threadPool.threads = s.threadPool.threads := by
  cases c with
  | setThreadNum n => exact ⟨rfl, rfl⟩
  | setThreadInitCallback cb => exact ⟨rfl, rfl⟩
  | start =>
    show s.start.exited = s.exited ∧ s.start.threadPool.threads = s.threadPool.threads
    by_cases hv : s.started = 0
    · rw [start_of_zero hv]
      exact ⟨rfl, rfl⟩
    · rw [start_of_ne hv]
      exact ⟨rfl, rfl⟩

theorem progress (h : Inv s) (hrun : s.exited = false) (hdone : ¬ Done s) :
    ∃ a t, step s a = some t ∧ t.exited = false := by
  by_cases hl : s.listening = true
  · refine ⟨.listen true, s.listen, ?_, hrun⟩
    simp [step, hrun, h.running, hl]
  · by_cases hidle : s.threadPool.control = .idle
    · cases hcalls : s.calls with
      | nil => exact absurd ⟨hcalls, by simpa using hl, hidle⟩ hdone
      | cons c rest =>
        refine ⟨.call, { s.call c with calls := rest }, ?_, ?_⟩
        · simp [step, hrun, h.running, hl, hidle, hcalls]
        · exact (call_keeps s c).1.trans hrun
    · obtain ⟨a, p, hp⟩ := EventLoopThreadPool.progress h.pool hidle
      refine ⟨.pool a, { s with threadPool := p }, ?_, hrun⟩
      simp [step, hrun, h.running, hp]

/-- When all calls have returned no thread moves any more. -/
theorem final_of_done (h : Inv s) (hdone : Done s) :
    (system : Machine (State φ C) Label).Final s := by
  obtain ⟨hcalls, hl, hidle⟩ := hdone
  intro a
  by_contra hne
  obtain ⟨t, ht⟩ := Option.ne_none_iff_exists'.mp hne
  obtain ⟨-, hm⟩ := move_of_step ht
  cases hm with
  | call _ _ hcons => exact absurd (hcalls.symm.trans hcons) (by simp)
  | listen hl' => exact absurd (hl.symm.trans hl') (by simp)
  | listenFails hl' => exact absurd (hl.symm.trans hl') (by simp)
  | pool hp => exact h.pool.still hidle hp

/-! ### Started up -/

theorem plan_fresh {cs : List (Call C)} (h : Fresh cs s) : s.plan = Plan.fresh s.started := by
  obtain ⟨name, hpool⟩ := h.threadPool
  obtain ⟨fd, hacceptor, -⟩ := h.acceptor
  refine Plan.ext ?_ h.threadInitCallback rfl ?_ ?_ ?_
  · show s.threadPool.numThreads = 0
    rw [hpool]
    rfl
  · show (s.listening || s.acceptor.listenning) = false
    rw [h.listening, hacceptor]
    rfl
  · show s.threadPool.starts = 0
    rw [hpool]
    rfl
  · show s.threadPool.loops.length + s.threadPool.owed = 0
    rw [hpool]
    rfl

theorem initLoops_ne_nil (n : ℕ) : EventLoopThreadPool.initLoops n ≠ [] := by
  rw [EventLoopThreadPool.initLoops]
  split_ifs with hn
  · simp
  · simpa using hn

/-- Once the calls have returned, the server is started up exactly when a server
with atomic calls is. -/
theorem startedUp_iff_of_done [DecidableEq C] {v : BitVec 32} {cs : List (Call C)} (h : Inv s)
    (hrun : s.exited = false) (hdone : Done s)
    (houtcome : s.outcome = (Plan.fresh v).calls cs) : StartedUp cs s ↔ Prepared v cs := by
  obtain ⟨hcalls, hlistening, hidle⟩ := hdone
  have hplan : s.plan = (Plan.fresh v).calls cs := by
    rw [← houtcome, State.outcome, hcalls]
    rfl
  have hlistens : Listening s ↔ s.plan.listens = true := by
    have hflag : s.plan.listens = s.acceptor.listenning := by simp [State.plan, hlistening]
    rw [hflag]
    refine ⟨fun hl => hl.listenning, fun hon => ?_⟩
    rcases h.acceptor hrun with hoff | hl
    · exact absurd (hon.symm.trans hoff.listenning) (by simp)
    · exact hl
  have hcomplete := h.pool.complete hidle
  have hloops : s.plan.loops = s.threadPool.loops.length := by
    show s.threadPool.loops.length + s.threadPool.owed = _
    rw [EventLoopThreadPool.owed_of_idle hidle, Nat.add_zero]
  rw [prepared_iff, ← hplan, ← hlistens, hloops]
  constructor
  · intro hup
    have hlength : s.threadPool.loops.length = threadNum 0 (upToStart 0 cs) :=
      hcomplete.threads.symm.trans hup.loops.threads
    refine ⟨hup.listening, hup.starts, hlength, ?_⟩
    -- a callback would have been called on some loop
    by_contra hne
    obtain ⟨c, hc⟩ := Option.ne_none_iff_exists'.mp hne
    obtain ⟨l, hl⟩ := List.exists_mem_of_ne_nil _ (initLoops_ne_nil (threadNum 0 (upToStart 0 cs)))
    have honce := hup.initialised c hc l hl
    rw [h.invoked] at honce
    exact absurd honce (by simp)
  · rintro ⟨hl, hstarts, hlength, hnone⟩
    refine ⟨⟨hcalls, hlistening⟩, hl, hstarts, hlength ▸ hcomplete, fun c hc => ?_⟩
    exact absurd (hnone.symm.trans hc) (by simp)

/-- What holds in every state of a run that makes the calls `cs` on a server with
`v` in `started_`. -/
def Running (v : BitVec 32) (cs : List (Call C)) (s : State φ C) : Prop :=
  Inv s ∧ s.outcome = (Plan.fresh v).calls cs

theorem running_fresh {cs : List (Call C)} (h : Fresh cs s) : Running s.started cs s := by
  refine ⟨inv_fresh h, ?_⟩
  rw [State.outcome, plan_fresh h, h.calls]

theorem running_step {v : BitVec 32} {cs : List (Call C)} {a : Label} (h : Running v cs s)
    (hstep : step s a = some t) : Running v cs t := by
  obtain ⟨hrun, hm⟩ := move_of_step hstep
  exact ⟨inv_move hrun h.1 hm, (outcome_move h.1.pool hm).trans h.2⟩

/-- Exactly the prepared sequences of calls return and start a fresh server up. -/
theorem startedUp_iff [DecidableEq C] {cs : List (Call C)} (h : Fresh cs s) :
    (system : Machine (State φ C) Label).Ensures (fun t => t.exited = false → StartedUp cs t) s ↔
      Prepared s.started cs := by
  have hkept : ∀ u a w, Running s.started cs u →
      (system : Machine (State φ C) Label).step u a = some w → Running s.started cs w :=
    fun _ _ _ hu hstep => running_step hu hstep
  have hlower : ∀ u a w, Running s.started cs u →
      (system : Machine (State φ C) Label).step u a = some w → w.remaining < u.remaining := by
    intro u a w hu hstep
    obtain ⟨hrun, hm⟩ := move_of_step hstep
    exact remaining_move hrun hu.1 hm
  have hstart := running_fresh h
  constructor
  · rintro ⟨-, hall⟩
    -- a run in which `::listen` succeeds
    obtain ⟨as, t, ht, ⟨hrunning, hrun⟩, hdone⟩ := Machine.exists_run
      (M := (system : Machine (State φ C) Label)) (μ := State.remaining)
      (I := fun u => Running s.started cs u ∧ u.exited = false) (D := Done)
      (fun u a w hu hstep => hlower u a w hu.1 hstep)
      (fun u hu hne => by
        obtain ⟨a, w, hstep, hrun⟩ := progress hu.1.1 hu.2 hne
        exact ⟨a, w, hstep, hkept u a w hu.1 hstep, hrun⟩)
      ⟨hstart, h.running.2⟩
    have hup := hall as t ht (final_of_done hrunning.1 hdone) hrun
    exact (startedUp_iff_of_done hrunning.1 hrun hdone hrunning.2).mp hup
  · intro hprepared
    refine ⟨⟨_, fun as t ht => Machine.run_length_le hkept hlower as hstart ht⟩, ?_⟩
    intro as t ht hfinal hrun
    have hrunning : Running s.started cs t := Machine.run_invariant hkept as hstart ht
    have hdone : Done t := by
      by_contra hne
      obtain ⟨a, w, hstep, -⟩ := progress hrunning.1 hrun hne
      exact absurd (hstep.symm.trans (hfinal a)) (by simp)
    exact (startedUp_iff_of_done hrunning.1 hrun hdone hrunning.2).mpr hprepared

/-- The threads of the server are `EventLoopThread`s, whatever the calls. -/
theorem threads_reachable {cs : List (Call C)} (h : Fresh cs s) (as : List Label)
    (ht : (system : Machine (State φ C) Label).run s as = some t) :
    ∀ th ∈ t.threadPool.threads,
      (EventLoopThread.system th.loop .base).Reachable th.thread := by
  refine Machine.run_invariant (I := fun u : State φ C => ∀ th ∈ u.threadPool.threads,
    (EventLoopThread.system th.loop .base).Reachable th.thread) ?_ as ?_ ht
  · intro u a w hu hstep
    change step u a = some w at hstep
    cases a with
    | call =>
      obtain ⟨-, hm⟩ := move_of_step hstep
      cases hm with
      | call =>
        intro th hth
        exact hu th ((call_keeps u _).2 ▸ hth)
    | listen succeeds =>
      obtain ⟨-, hm⟩ := move_of_step hstep
      cases hm with
      | listen => exact hu
      | listenFails => exact hu
    | pool b =>
      simp only [step] at hstep
      split_ifs at hstep
      obtain ⟨p, hp, rfl⟩ := Option.map_eq_some_iff.mp hstep
      exact EventLoopThreadPool.threads_reachable hu hp
  · obtain ⟨name, hpool⟩ := h.threadPool
    rw [hpool]
    exact fun _ hth => absurd hth List.not_mem_nil

/-- With the counter at zero the first call of `start` starts the pool, and no
other one before the counter has wrapped around. -/
theorem prepared_zero_iff {cs : List (Call C)} (hsome : 0 < numStarts cs)
    (hfew : numStarts cs ≤ 2 ^ 32) :
    Prepared 0 cs ↔ (∃ n, .setThreadNum n ∈ cs) ∧ initCallback none (upToStart 0 cs) = none := by
  refine ⟨fun h => ⟨h.listens, h.noCallback⟩, fun h => ⟨h.1, ⟨0, hsome, fun j hj => ?_, rfl⟩, h.2⟩⟩
  have hlt : j < 2 ^ 32 := Nat.lt_of_lt_of_le hj hfew
  have hadd : (0 : BitVec 32) + BitVec.ofNat 32 j = BitVec.ofNat 32 j := BitVec.zero_add _
  rw [hadd]
  constructor
  · intro hzero
    have hmod : j % 2 ^ 32 = 0 := congrArg BitVec.toNat hzero
    rwa [Nat.mod_eq_of_lt hlt] at hmod
  · rintro rfl
    rfl

/-- The server of `test_server.cc`, when its counter happens to be zero. -/
theorem startedUp_iff_echo :
    (system : Machine (State ℕ ℕ) Label).Ensures
      (fun t => t.exited = false → StartedUp [.setThreadNum 3, .start] t)
      (State.make 0 "EchoServer-01" 3 [.setThreadNum 3, .start]) :=
  (startedUp_iff (fresh_make 0 "EchoServer-01" 3 [.setThreadNum 3, .start])).mpr
    ((prepared_zero_iff (by decide) (by decide)).mpr ⟨⟨3, by simp⟩, rfl⟩)

/-- A server that is only started, with the counter zero, does not listen. -/
theorem start_does_not_listen :
    ¬ (system : Machine (State ℕ ℕ) Label).Ensures
      (fun t => t.exited = false → StartedUp [.start] t)
      (State.make 0 "EchoServer-01" 3 [.start]) := by
  rintro ⟨-, hall⟩
  have hrun : ∃ t, (system : Machine (State ℕ ℕ) Label).run
      (State.make 0 "EchoServer-01" 3 [.start]) [.call, .pool .owner] = some t ∧
      (system : Machine (State ℕ ℕ) Label).Final t ∧ t.exited = false ∧
      t.acceptor.listenning = false := by
    refine ⟨_, rfl, fun a => ?_, rfl, rfl⟩
    cases a with
    | call => rfl
    | listen => rfl
    | pool b =>
      cases b with
      | owner => rfl
      | thread k => rfl
  obtain ⟨t, ht, hfinal, hlive, hoff⟩ := hrun
  have hon := (hall _ t ht hfinal hlive).listening.listenning
  exact absurd (hoff.symm.trans hon) (by simp)

end ServerStart

end Moduo
