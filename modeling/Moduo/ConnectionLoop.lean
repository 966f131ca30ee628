/-
A connection on its loop, with any number of threads calling `send` and
`shutdown`.

The state holds the connection, the poller, the functors of the connection in
the loop's queue (`pending`) and in the batch swapped out of it (`rest`), and
where each thread is inside `send` or `shutdown`.  The loop thread runs the
members in any order; it calls `send` and `shutdown` from user callbacks.

`state_` is read and written by all threads, so every access to it is a step of
its own: the test and the store of `shutdown`, the test and the store of
`connectionDestroyed`.

Ghost fields: `trace`, everything done to the outside; `called`, the messages
of all calls of `send`; `accepted`, those whose `sendInLoop` has run and was not
given up; `closed`, `handleClose` or `connectionDestroyed` has begun;
`destroyed`, `connectionDestroyed` has returned; `shutdownRan`, `shutdownInLoop`
has run.
-/
import Moduo.Lib.Machine
import Moduo.TcpConnection

namespace Moduo

/-- A message, with the thread that called `send`. -/
structure Message (T : Type*) where
  caller : T
  payload : List Byte
  deriving DecidableEq, Repr

namespace ConnectionLoop

/-- The functors of a connection. -/
inductive Functor (T : Type*)
  | sendInLoop (m : Message T)
  | shutdownInLoop
  | notice (cb : Notice)
  deriving DecidableEq, Repr

/-- Where a thread is: past the test of `send`; past the test, or past the
store, of `shutdown`. -/
inductive Call (T : Type*)
  | idle
  | sending (m : Message T)
  | storing
  | shutting
  deriving DecidableEq, Repr

/-- Where the loop thread is in `connectionDestroyed`: it has found the
connection `kConnected`, or it is about to remove the channel. -/
inductive Destroying
  | outside
  | found
  | removing
  deriving DecidableEq, Repr

structure State (T : Type*) where
  conn : TcpConnection
  poller : EPollPoller Unit
  pending : List (Functor T)
  rest : List (Functor T)
  call : T → Call T
  destroying : Destroying
  established : Bool
  trace : List Effect
  called : List (Message T)
  accepted : List (Message T)
  closed : Bool
  destroyed : Bool
  shutdownRan : Bool

inductive Label (T : Type*)
  | send (t : T) (payload : List Byte)
  | sendBody (t : T) (res : WriteResult)
  | shutdown (t : T)
  | store (t : T)
  | shutdownBody (t : T)
  | connectionEstablished
  | swap
  | runFunctor (res : WriteResult)
  | handleRead (res : ReadResult)
  | handleWrite (res : WriteResult)
  | handleClose
  | handleError
  | retrieve (n : ℕ)
  | connectionDestroyed
  | disconnect
  | remove

variable {T : Type*}

namespace State

variable (s : State T)

def endpoint : Endpoint Unit := ⟨s.conn, s.poller, []⟩

/-- Run a member of the connection; what it queues goes to the end of the
queue. -/
def perform (f : Endpoint Unit → Endpoint Unit) : State T :=
  let e := f s.endpoint
  { s with
    conn := e.conn
    poller := e.poller
    pending := s.pending ++ (e.trace.filterMap Effect.notice?).map Functor.notice
    trace := s.trace ++ e.trace }

/-- `sendInLoop` on the loop thread. -/
def sendInLoop (m : Message T) (res : WriteResult) : State T :=
  { s.perform (Endpoint.sendInLoop () m.payload res) with
    accepted := if s.conn.Drops res then s.accepted else s.accepted ++ [m] }

def shutdownInLoop : State T :=
  { s.perform Endpoint.shutdownInLoop with shutdownRan := true }

def handleClose : State T :=
  { s.perform (Endpoint.handleClose ()) with closed := true }

/-- A drain in state `kDisconnecting` goes on to `shutdownInLoop`. -/
def handleWrite (res : WriteResult) : State T :=
  { s.perform (Endpoint.handleWrite () res) with
    shutdownRan := s.shutdownRan ||
      decide (s.endpoint.Drains res ∧ s.conn.state = .kDisconnecting) }

/-- The bytes the kernel has accepted. -/
def wire : List Byte := sent s.trace

/-- The bytes accepted so far, then those still in `outputBuffer`. -/
def stream : List Byte := s.wire ++ s.conn.outputBuffer.content

/-- `socket_->shutdownWrite()` has been called. -/
def HalfClosed : Prop := halfCloses s.trace ≠ []

instance : Decidable s.HalfClosed := inferInstanceAs (Decidable (_ ≠ _))

variable {s} {f : Endpoint Unit → Endpoint Unit}

theorem stream_perform : (s.perform f).stream = s.wire ++ (f s.endpoint).stream := by
  rw [stream, wire, perform, sent_append, List.append_assoc, Endpoint.stream, wire]

theorem halfCloses_perform :
    halfCloses (s.perform f).trace = halfCloses s.trace ++ halfCloses (f s.endpoint).trace :=
  halfCloses_append _ _

/-- A quiet member closes nothing. -/
theorem halfCloses_perform_quiet (h : s.endpoint.Quiet (f s.endpoint)) :
    halfCloses (s.perform f).trace = halfCloses s.trace := by
  rw [halfCloses_perform, h.halfCloses]
  exact List.append_nil _

theorem downs_perform : downs (s.perform f).trace = downs s.trace + downs (f s.endpoint).trace :=
  downs_append _ _

theorem perform_id (h : f s.endpoint = s.endpoint) : s.perform f = s := by
  simp only [perform, h]
  simp [endpoint]

theorem sendInLoop_dropped {m : Message T} {res : WriteResult} (h : s.conn.Drops res) :
    s.sendInLoop m res = s := by
  have hsame : s.endpoint.sendInLoop () m.payload res = s.endpoint := Endpoint.sendInLoop_dropped h
  rw [sendInLoop, perform_id hsame, if_pos h]

theorem stream_sendInLoop {m : Message T} {res : WriteResult} (h : ¬ s.conn.Drops res) :
    (s.sendInLoop m res).stream = s.stream ++ m.payload := by
  have hmember : (s.endpoint.sendInLoop () m.payload res).stream =
      s.conn.outputBuffer.content ++ m.payload := Endpoint.stream_sendInLoop h
  have hperform : (s.sendInLoop m res).stream =
      (s.perform (Endpoint.sendInLoop () m.payload res)).stream := rfl
  rw [hperform, stream_perform, hmember, stream, List.append_assoc]

theorem state_shutdownInLoop (s : State T) : s.shutdownInLoop.conn.state = s.conn.state := by
  show (s.endpoint.shutdownInLoop).conn.state = s.conn.state
  rw [Endpoint.shutdownInLoop]
  split_ifs <;> rfl

theorem accepted_sendInLoop {m : Message T} {res : WriteResult} (h : ¬ s.conn.Drops res) :
    (s.sendInLoop m res).accepted = s.accepted ++ [m] :=
  if_neg h

end State

/-- A connection just constructed, with no task queued. -/
structure Start (s : State T) : Prop where
  fresh : s.conn.Fresh
  poller : s.poller = EPollPoller.empty
  pending : s.pending = []
  rest : s.rest = []
  call : ∀ t, s.call t = .idle
  destroying : s.destroying = .outside
  established : s.established = false
  trace : s.trace = []
  called : s.called = []
  accepted : s.accepted = []
  closed : s.closed = false
  destroyed : s.destroyed = false
  shutdownRan : s.shutdownRan = false

/-- The state around a constructed connection. -/
def State.make (conn : TcpConnection) : State T :=
  ⟨conn, EPollPoller.empty, [], [], fun _ => .idle, .outside, false, [], [], [], false, false,
    false⟩

theorem start_make {conn : TcpConnection} (h : conn.Fresh) : Start (State.make conn : State T) :=
  ⟨h, rfl, rfl, rfl, fun _ => rfl, rfl, rfl, rfl, rfl, rfl, rfl, rfl, rfl⟩

/-- A connection on descriptor 5, with numbers for the threads. -/
def fresh : State ℕ := State.make (TcpConnection.make 5 false)

section Step

variable [DecidableEq T] (loopThread : T)

def State.setCall (s : State T) (t : T) (c : Call T) : State T :=
  { s with call := Function.update s.call t c }

/-- The loop thread is free to run the next member. -/
def State.Free (s : State T) : Prop := s.call loopThread = .idle ∧ s.destroying = .outside

/-- User code is running on thread `t`, or may be. -/
def State.InUserCode (s : State T) (t : T) : Prop :=
  s.call t = .idle ∧ (t = loopThread → s.destroying ≠ .found)

instance (s : State T) : Decidable (s.Free loopThread) := inferInstanceAs (Decidable (_ ∧ _))

instance (s : State T) (t : T) : Decidable (s.InUserCode loopThread t) :=
  inferInstanceAs (Decidable (_ ∧ _))

/-- One step.  A process that `LOG_FATAL` has ended takes none. -/
def step (s : State T) : Label T → Option (State T)
  | .send t payload =>
    if s.InUserCode loopThread t then
      let s' := { s with called := s.called ++ [⟨t, payload⟩] }
      some (if s.conn.state = .kConnected then s'.setCall t (.sending ⟨t, payload⟩) else s')
    else none
  | .sendBody t res =>
    match s.call t with
    | .sending m =>
      if t = loopThread then
        if res.Admissible m.payload.length then some ((s.setCall t .idle).sendInLoop m res)
        else none
      else some { s.setCall t .idle with pending := s.pending ++ [.sendInLoop m] }
    | _ => none
  | .shutdown t =>
    if s.InUserCode loopThread t then
      some (if s.conn.state = .kConnected then s.setCall t .storing else s)
    else none
  | .store t =>
    match s.call t with
    | .storing =>
      some { s.setCall t .shutting with conn := { s.conn with state := .kDisconnecting } }
    | _ => none
  | .shutdownBody t =>
    match s.call t with
    | .shutting =>
      if t = loopThread then some (s.setCall t .idle).shutdownInLoop
      else some { s.setCall t .idle with pending := s.pending ++ [.shutdownInLoop] }
    | _ => none
  | .connectionEstablished =>
    if s.Free loopThread ∧ s.established = false then
      some { s.perform (Endpoint.connectionEstablished ()) with established := true }
    else none
  | .swap =>
    if s.Free loopThread ∧ s.rest = [] then some { s with pending := [], rest := s.pending }
    else none
  | .runFunctor res =>
    if s.Free loopThread then
      match s.rest with
      | .sendInLoop m :: rest =>
        if res.Admissible m.payload.length then some ({ s with rest := rest }.sendInLoop m res)
        else none
      | .shutdownInLoop :: rest => some { s with rest := rest }.shutdownInLoop
      -- user code: its calls are steps of their own
      | .notice _ :: rest => some { s with rest := rest }
      | [] => none
    else none
  | .handleRead res =>
    if s.Free loopThread ∧ s.established = true then
      match res with
      -- `n == 0` is `handleClose`
      | .read [] => some s.handleClose
      | res => some (s.perform (Endpoint.handleRead () res))
    else none
  | .handleWrite res =>
    if s.Free loopThread ∧ s.established = true ∧ res.Admissible s.conn.unsent then
      some (s.handleWrite res)
    else none
  | .handleClose =>
    if s.Free loopThread ∧ s.established = true then some s.handleClose else none
  | .handleError =>
    if s.Free loopThread ∧ s.established = true then some (s.perform Endpoint.handleError)
    else none
  | .retrieve n =>
    if s.InUserCode loopThread loopThread then
      some { s with conn := { s.conn with inputBuffer := s.conn.inputBuffer.take n } }
    else none
  | .connectionDestroyed =>
    if s.Free loopThread ∧ s.established = true then
      some { s with
        closed := true
        -- the test; the store and `remove` are steps of their own
        destroying := if s.conn.state = .kConnected then .found else .removing }
    else none
  | .disconnect =>
    if s.destroying = .found then
      some { s.perform (Endpoint.disconnect ()) with destroying := .removing }
    else none
  | .remove =>
    if s.call loopThread = .idle ∧ s.destroying = .removing then
      some { s.perform (Endpoint.removeChannel ()) with destroying := .outside, destroyed := true }
    else none

/-- The steps, one constructor for each branch. -/
inductive Move (s : State T) : Label T → State T → Prop
  | sendTest {t : T} {payload : List Byte} : s.InUserCode loopThread t →
      s.conn.state = .kConnected → Move s (.send t payload)
        (State.setCall { s with called := s.called ++ [⟨t, payload⟩] } t
          (.sending ⟨t, payload⟩))
  | sendRefused {t : T} {payload : List Byte} : s.InUserCode loopThread t →
      s.conn.state ≠ .kConnected → Move s (.send t payload)
        { s with called := s.called ++ [⟨t, payload⟩] }
  | sendDirect {m : Message T} {res : WriteResult} : s.call loopThread = .sending m →
      res.Admissible m.payload.length →
      Move s (.sendBody loopThread res) ((s.setCall loopThread .idle).sendInLoop m res)
  | sendQueue {t : T} {m : Message T} {res : WriteResult} : s.call t = .sending m →
      t ≠ loopThread → Move s (.sendBody t res)
        { s.setCall t .idle with pending := s.pending ++ [.sendInLoop m] }
  | shutdownTest {t : T} : s.InUserCode loopThread t → s.conn.state = .kConnected →
      Move s (.shutdown t) (s.setCall t .storing)
  | shutdownRefused {t : T} : s.InUserCode loopThread t → s.conn.state ≠ .kConnected →
      Move s (.shutdown t) s
  | store {t : T} : s.call t = .storing → Move s (.store t)
      { s.setCall t .shutting with conn := { s.conn with state := .kDisconnecting } }
  | shutdownDirect : s.call loopThread = .shutting →
      Move s (.shutdownBody loopThread) (s.setCall loopThread .idle).shutdownInLoop
  | shutdownQueue {t : T} : s.call t = .shutting → t ≠ loopThread →
      Move s (.shutdownBody t)
        { s.setCall t .idle with pending := s.pending ++ [.shutdownInLoop] }
  | established : s.Free loopThread → s.established = false →
      Move s .connectionEstablished
        { s.perform (Endpoint.connectionEstablished ()) with established := true }
  | swap : s.Free loopThread → s.rest = [] →
      Move s .swap { s with pending := [], rest := s.pending }
  | runSend {m : Message T} {rest : List (Functor T)} {res : WriteResult} :
      s.Free loopThread → s.rest = .sendInLoop m :: rest →
      res.Admissible m.payload.length →
      Move s (.runFunctor res) ({ s with rest := rest }.sendInLoop m res)
  | runShutdown {rest : List (Functor T)} {res : WriteResult} : s.Free loopThread →
      s.rest = .shutdownInLoop :: rest →
      Move s (.runFunctor res) { s with rest := rest }.shutdownInLoop
  | runNotice {cb : Notice} {rest : List (Functor T)} {res : WriteResult} :
      s.Free loopThread → s.rest = .notice cb :: rest →
      Move s (.runFunctor res) { s with rest := rest }
  | endOfFile : s.Free loopThread → s.established = true →
      Move s (.handleRead (.read [])) s.handleClose
  | handleRead {res : ReadResult} : s.Free loopThread → s.established = true →
      res ≠ .read [] →
      Move s (.handleRead res) (s.perform (Endpoint.handleRead () res))
  | handleWrite {res : WriteResult} : s.Free loopThread → s.established = true →
      res.Admissible s.conn.unsent → Move s (.handleWrite res) (s.handleWrite res)
  | handleClose : s.Free loopThread → s.established = true →
      Move s .handleClose s.handleClose
  | handleError : s.Free loopThread → s.established = true →
      Move s .handleError (s.perform Endpoint.handleError)
  | retrieve {n : ℕ} : s.InUserCode loopThread loopThread → Move s (.retrieve n)
      { s with conn := { s.conn with inputBuffer := s.conn.inputBuffer.take n } }
  | destroyedFound : s.Free loopThread → s.established = true → s.conn.state = .kConnected →
      Move s .connectionDestroyed { s with closed := true, destroying := .found }
  | destroyedSkips : s.Free loopThread → s.established = true → s.conn.state ≠ .kConnected →
      Move s .connectionDestroyed { s with closed := true, destroying := .removing }
  | disconnect : s.destroying = .found → Move s .disconnect
      { s.perform (Endpoint.disconnect ()) with destroying := .removing }
  | remove : s.call loopThread = .idle → s.destroying = .removing → Move s .remove
      { s.perform (Endpoint.removeChannel ()) with destroying := .outside, destroyed := true }

variable {loopThread} in
theorem move_of_step {s s' : State T} {a : Label T} (h : step loopThread s a = some s') :
    Move loopThread s a s' := by
  cases a with
  | send t payload =>
    simp only [step] at h
    split_ifs at h with hu hst
    · exact Option.some.inj h ▸ .sendTest hu hst
    · exact Option.some.inj h ▸ .sendRefused hu hst
  | sendBody t res =>
    simp only [step] at h
    split at h
    next m hm =>
      split_ifs at h with ht hadm
      · subst ht
        exact Option.some.inj h ▸ .sendDirect hm hadm
      · exact Option.some.inj h ▸ .sendQueue hm ht
    next => exact absurd h (by simp)
  | shutdown t =>
    simp only [step] at h
    split_ifs at h with hu hst
    · exact Option.some.inj h ▸ .shutdownTest hu hst
    · exact Option.some.inj h ▸ .shutdownRefused hu hst
  | store t =>
    simp only [step] at h
    split at h
    next hc => exact Option.some.inj h ▸ .store hc
    next => exact absurd h (by simp)
  | shutdownBody t =>
    simp only [step] at h
    split at h
    next hc =>
      split_ifs at h with ht
      · subst ht
        exact Option.some.inj h ▸ .shutdownDirect hc
      · exact Option.some.inj h ▸ .shutdownQueue hc ht
    next => exact absurd h (by simp)
  | connectionEstablished =>
    simp only [step] at h
    split_ifs at h with hg
    exact Option.some.inj h ▸ .established hg.1 hg.2
  | swap =>
    simp only [step] at h
    split_ifs at h with hg
    exact Option.some.inj h ▸ .swap hg.1 hg.2
  | runFunctor res =>
    simp only [step] at h
    split_ifs at h with hf
    split at h
    next m rest hr =>
      split_ifs at h with hadm
      exact Option.some.inj h ▸ .runSend hf hr hadm
    next rest hr => exact Option.some.inj h ▸ .runShutdown hf hr
    next cb rest hr => exact Option.some.inj h ▸ .runNotice hf hr
    next => exact absurd h (by simp)
  | handleRead res =>
    simp only [step] at h
    split_ifs at h with hg
    split at h
    next => exact Option.some.inj h ▸ .endOfFile hg.1 hg.2
    next hne => exact Option.some.inj h ▸ .handleRead hg.1 hg.2 fun he => hne he
  | handleWrite res =>
    simp only [step] at h
    split_ifs at h with hg
    exact Option.some.inj h ▸ .handleWrite hg.1 hg.2.1 hg.2.2
  | handleClose =>
    simp only [step] at h
    split_ifs at h with hg
    exact Option.some.inj h ▸ .handleClose hg.1 hg.2
  | handleError =>
    simp only [step] at h
    split_ifs at h with hg
    exact Option.some.inj h ▸ .handleError hg.1 hg.2
  | retrieve n =>
    simp only [step] at h
    split_ifs at h with hg
    exact Option.some.inj h ▸ .retrieve hg
  | connectionDestroyed =>
    simp only [step] at h
    split_ifs at h with hg hst
    · exact Option.some.inj h ▸ .destroyedFound hg.1 hg.2 hst
    · exact Option.some.inj h ▸ .destroyedSkips hg.1 hg.2 hst
  | disconnect =>
    simp only [step] at h
    split_ifs at h with hg
    exact Option.some.inj h ▸ .disconnect hg
  | remove =>
    simp only [step] at h
    split_ifs at h with hg
    exact Option.some.inj h ▸ .remove hg.1 hg.2

variable {loopThread} in
/-- Every move is a step. -/
theorem step_of_move {s s' : State T} {a : Label T} (h : Move loopThread s a s') :
    step loopThread s a = some s' := by
  cases h with
  | sendTest hu hst => simp [step, hu, hst]
  | sendRefused hu hst => simp [step, hu, hst]
  | sendDirect hm hadm => simp [step, hm, hadm]
  | sendQueue hm ht => simp [step, hm, ht]
  | shutdownTest hu hst => simp [step, hu, hst]
  | shutdownRefused hu hst => simp [step, hu, hst]
  | store hc => simp [step, hc]
  | shutdownDirect hc => simp [step, hc]
  | shutdownQueue hc ht => simp [step, hc, ht]
  | established hf he => simp [step, hf, he]
  | swap hf hr => simp [step, hf, hr]
  | runSend hf hr hadm => simp [step, hf, hr, hadm]
  | runShutdown hf hr => simp [step, hf, hr]
  | runNotice hf hr => simp [step, hf, hr]
  | endOfFile hf he => simp [step, hf, he]
  | @handleRead res hf he hne =>
    cases res with
    | failed errno => simp [step, hf, he]
    | read data =>
      cases data with
      | nil => exact absurd rfl hne
      | cons b bs => simp [step, hf, he]
  | handleWrite hf he hadm => simp [step, hf, he, hadm]
  | handleClose hf he => simp [step, hf, he]
  | handleError hf he => simp [step, hf, he]
  | retrieve hu => simp [step, hu]
  | destroyedFound hf he hst => simp [step, hf, he, hst]
  | destroyedSkips hf he hst => simp [step, hf, he, hst]
  | disconnect hd => simp [step, hd]
  | remove hc hd => simp [step, hc, hd]

def system : Machine (State T) (Label T) where
  init := Start
  step s a := if s.poller.exited then none else step loopThread s a

variable {loopThread} in
theorem reachable_make {conn : TcpConnection} (h : conn.Fresh) {as : List (Label T)}
    {s : State T} (hrun : (system loopThread).run (State.make conn) as = some s) :
    (system loopThread).Reachable s :=
  Machine.Reachable.run (.init (start_make h)) hrun

variable {loopThread} in
theorem move_of_system {s s' : State T} {a : Label T}
    (h : (system loopThread).step s a = some s') :
    s.poller.exited = false ∧ Move loopThread s a s' := by
  simp only [system] at h
  split_ifs at h with hexit
  exact ⟨Bool.eq_false_iff.mpr hexit, move_of_step h⟩

variable {loopThread} in
theorem system_of_move {s s' : State T} {a : Label T} (hexit : s.poller.exited = false)
    (h : Move loopThread s a s') : (system loopThread).step s a = some s' := by
  simp only [system, hexit, Bool.false_eq_true, if_false]
  exact step_of_move h

end Step

end ConnectionLoop

end Moduo
