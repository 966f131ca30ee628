/-
A TCP connection (`TcpConnection.h`, `TcpConnection.cc`).

The members run on the loop thread of the connection.  They are functions on an
`Endpoint`: the connection, the poller of its loop, and the `trace` of what the
connection has done to the outside (bytes handed to the kernel, the half close,
functors queued, user callbacks).  `this` is the pointer under which the poller
knows the connection's channel.

The buffers are taken at the contract of a queue; `::write` is resolved by a
`WriteResult` argument.  User code runs where a callback appears in the trace.

* `Endpoint.sendInLoop` — direct write, then buffering of what is left;
* `Endpoint.handleWrite` — the deferred write and what follows a drain;
* `Endpoint.disconnect` — the down transition shared by `handleClose` and
  `connectionDestroyed`.
-/
import Moduo.Buffer
import Moduo.Channel
import Moduo.Lib.Fifo

namespace Moduo

/-- `TcpConnection::StateE`. -/
inductive StateE
  | kDisconnected
  | kConnecting
  | kConnected
  | kDisconnecting
  deriving DecidableEq, Repr

structure TcpConnection where
  state : StateE
  channel : Channel
  inputBuffer : Fifo Byte
  outputBuffer : Fifo Byte
  highWaterMark : ℕ
  writeCompleteCallback : Bool
  highWaterMarkCallback : Bool

/-- The callbacks a connection hands to `queueInLoop`. -/
inductive Notice
  | writeComplete
  | highWaterMark (oldlen : ℕ)
  deriving DecidableEq, Repr

/-- What a connection does to the outside.  A half close records how many bytes
were still unsent. -/
inductive Effect
  | write (accepted : List Byte)
  | shutdownWrite (unsent : ℕ)
  | queueInLoop (cb : Notice)
  | connectionCallback (connected : Bool)
  | messageCallback
  | closeCallback
  deriving DecidableEq, Repr

/-- Outcome of `::write`: the number of bytes accepted, or `n < 0` with its `errno`.
`logged` is what `errno` holds after the `LOG_ERROR` that may follow, which does not
preserve it. -/
inductive WriteResult
  | wrote (n : ℕ)
  | failed (errno logged : Errno)
  deriving DecidableEq, Repr

namespace WriteResult

/-- `::write` accepts at most the bytes offered. -/
def Admissible (res : WriteResult) (offered : ℕ) : Prop :=
  match res with
  | wrote n => n ≤ offered
  | failed _ _ => True

instance (res : WriteResult) (offered : ℕ) : Decidable (res.Admissible offered) := by
  cases res <;> simp only [Admissible] <;> infer_instance

/-- `faultError`.  The second test reads `errno` again, after `LOG_ERROR`. -/
def isFault : WriteResult → Bool
  | wrote _ => false
  | failed errno logged =>
    errno ≠ .EWOULDBLOCK && (logged = .EPIPE || logged = .ECONNRESET)

/-- The `::write` itself has found the connection closed by the peer. -/
def isReset : WriteResult → Bool
  | wrote _ => false
  | failed errno _ => errno = .EPIPE || errno = .ECONNRESET

end WriteResult

namespace TcpConnection

/-- `highWaterMark_` as the constructor sets it. -/
def defaultHighWaterMark : ℕ := 64 * 1024 * 1024

/-- A connection as its constructor and `newConnection` leave it. -/
def make (sockfd : ℕ) (writeCompleteCallback : Bool) : TcpConnection where
  state := .kConnecting
  channel := Channel.make sockfd
  inputBuffer := Fifo.empty
  outputBuffer := Fifo.empty
  highWaterMark := defaultHighWaterMark
  writeCompleteCallback := writeCompleteCallback
  highWaterMarkCallback := false

/-- Nothing has happened to the connection since it was constructed. -/
structure Fresh (c : TcpConnection) : Prop where
  state : c.state = .kConnecting
  channel : c.channel = Channel.make c.channel.fd
  input : c.inputBuffer.content = []
  output : c.outputBuffer.content = []

theorem make_fresh (sockfd : ℕ) (writeCompleteCallback : Bool) :
    (make sockfd writeCompleteCallback).Fresh := ⟨rfl, rfl, rfl, rfl⟩

variable (c : TcpConnection)

def connected : Bool := c.state = .kConnected

/-- `outputBuffer_.readableBytes()`. -/
def unsent : ℕ := c.outputBuffer.content.length

/-- `sendInLoop` may write at once: nothing is queued in front of the message. -/
def writesDirectly : Bool := !c.channel.isWriting && c.unsent = 0

end TcpConnection

structure Endpoint (ι : Type*) where
  conn : TcpConnection
  poller : EPollPoller ι
  trace : List Effect

namespace Endpoint

variable {ι : Type*}

def emit (x : Effect) (e : Endpoint ι) : Endpoint ι := { e with trace := e.trace ++ [x] }

def setState (st : StateE) (e : Endpoint ι) : Endpoint ι :=
  { e with conn := { e.conn with state := st } }

/-- Call a member of `channel_`. -/
def onChannel (f : Channel → EPollPoller ι → Channel × EPollPoller ι) (e : Endpoint ι) :
    Endpoint ι :=
  { e with
    conn := { e.conn with channel := (f e.conn.channel e.poller).1 }
    poller := (f e.conn.channel e.poller).2 }

def setOutput (q : Fifo Byte) (e : Endpoint ι) : Endpoint ι :=
  { e with conn := { e.conn with outputBuffer := q } }

/-- `queueInLoop(writeCompleteCallback_)`, if there is one. -/
def notifyWriteComplete (e : Endpoint ι) : Endpoint ι :=
  if e.conn.writeCompleteCallback then e.emit (.queueInLoop .writeComplete) else e

/-- `queueInLoop(highWaterMarkCallback_)`, if the buffer is about to cross the
mark. -/
def notifyHighWaterMark (remaining : ℕ) (e : Endpoint ι) : Endpoint ι :=
  let oldlen := e.conn.unsent
  if oldlen + remaining ≥ e.conn.highWaterMark ∧ oldlen < e.conn.highWaterMark ∧
      e.conn.highWaterMarkCallback then
    e.emit (.queueInLoop (.highWaterMark (oldlen + remaining)))
  else e

/-- The second half of `sendInLoop`: keep what the direct write left over. -/
def bufferRemaining (this : ι) (remaining : List Byte) (e : Endpoint ι) : Endpoint ι :=
  if remaining.length > 0 then
    let e₁ := e.notifyHighWaterMark remaining.length
    let e₂ := e₁.setOutput (e₁.conn.outputBuffer.put remaining)
    -- `EPOLLOUT` is asked for once, with the first bytes left over
    if !e₂.conn.channel.isWriting then e₂.onChannel (Channel.enableWriting this) else e₂
  else e

/-- A successful direct write of `sendInLoop`. -/
def directWrite (message : List Byte) (nwrote : ℕ) (e : Endpoint ι) : Endpoint ι :=
  let e₁ := e.emit (.write (message.take nwrote))
  if message.length - nwrote = 0 then e₁.notifyWriteComplete else e₁

def sendInLoop (this : ι) (message : List Byte) (res : WriteResult) (e : Endpoint ι) :
    Endpoint ι :=
  if e.conn.state = .kDisconnected then e
  else if e.conn.writesDirectly then
    match res with
    | .wrote n => (e.directWrite message n).bufferRemaining this (message.drop n)
    -- without `faultError` the message is buffered as after `EWOULDBLOCK`
    | .failed _ _ => if res.isFault then e else e.bufferRemaining this message
  -- something is queued in front of the message
  else e.bufferRemaining this message

def shutdownInLoop (e : Endpoint ι) : Endpoint ι :=
  if !e.conn.channel.isWriting then e.emit (.shutdownWrite e.conn.unsent) else e

def connectionEstablished (this : ι) (e : Endpoint ι) : Endpoint ι :=
  let e₁ := e.setState .kConnected
  let e₂ := e₁.onChannel fun ch p => ({ ch with tied := true }, p)
  let e₃ := e₂.onChannel (Channel.enableReading this)
  e₃.emit (.connectionCallback e₃.conn.connected)

/-- What `handleClose` and `connectionDestroyed` do to a connection that goes
down. -/
def disconnect (this : ι) (e : Endpoint ι) : Endpoint ι :=
  let e₁ := e.setState .kDisconnected
  let e₂ := e₁.onChannel (Channel.disableAll this)
  e₂.emit (.connectionCallback e₂.conn.connected)

def handleClose (this : ι) (e : Endpoint ι) : Endpoint ι :=
  (e.disconnect this).emit .closeCallback

/-- The last call of `connectionDestroyed`. -/
def removeChannel (this : ι) (e : Endpoint ι) : Endpoint ι :=
  e.onChannel (Channel.remove this)

/-- `connectionDestroyed` when no other thread stores to `state_` between its
test and its store. -/
def connectionDestroyed (this : ι) (e : Endpoint ι) : Endpoint ι :=
  (if e.conn.state = .kConnected then e.disconnect this else e).removeChannel this

/-- `handleError` reads and logs `SO_ERROR`. -/
def handleError (e : Endpoint ι) : Endpoint ι := e

def handleRead (this : ι) (res : ReadResult) (e : Endpoint ι) : Endpoint ι :=
  match res with
  -- `n == 0`: the peer has closed
  | .read [] => e.handleClose this
  | .read data =>
    let e₁ := { e with conn := { e.conn with inputBuffer := e.conn.inputBuffer.put data } }
    e₁.emit .messageCallback
  | .failed _ => e.handleError

def handleWrite (this : ι) (res : WriteResult) (e : Endpoint ι) : Endpoint ι :=
  if e.conn.channel.isWriting then
    match res with
    | .wrote n =>
      if n > 0 then
        let e₁ := e.emit (.write (e.conn.outputBuffer.content.take n))
        let e₂ := e₁.setOutput (e.conn.outputBuffer.take n)
        if e₂.conn.unsent = 0 then
          -- drained: a `shutdown` that waited comes to `shutdownInLoop` now
          let e₃ := (e₂.onChannel (Channel.disableWriting this)).notifyWriteComplete
          if e₃.conn.state = .kDisconnecting then e₃.shutdownInLoop else e₃
        else e₂
      else e
    -- logged only
    | .failed _ _ => e
  else e

end Endpoint

/-! ### Reading a trace -/

namespace Effect

def bytes : Effect → List Byte
  | write accepted => accepted
  | _ => []

/-- The bytes still unsent when the write end was shut down. -/
def halfClose? : Effect → Option ℕ
  | shutdownWrite unsent => some unsent
  | _ => none

def notice? : Effect → Option Notice
  | queueInLoop cb => some cb
  | _ => none

def isDown : Effect → Bool
  | connectionCallback connected => !connected
  | _ => false

/-- The connection calls `connectionCallback_`, `messageCallback_` or
`closeCallback_`. -/
def isCallback : Effect → Bool
  | connectionCallback _ => true
  | messageCallback => true
  | closeCallback => true
  | _ => false

end Effect

/-- The bytes the kernel has accepted. -/
def sent (trace : List Effect) : List Byte := trace.flatMap Effect.bytes

/-- The half closes, each with the number of bytes it left unsent. -/
def halfCloses (trace : List Effect) : List ℕ := trace.filterMap Effect.halfClose?

/-- The number of callbacks that reported the connection as down. -/
def downs (trace : List Effect) : ℕ := trace.countP Effect.isDown

/-- The callbacks, in the order of their calls. -/
def callbacks (trace : List Effect) : List Effect := trace.filter Effect.isCallback

@[simp] theorem sent_append (tr tr' : List Effect) : sent (tr ++ tr') = sent tr ++ sent tr' := by
  simp [sent]

@[simp] theorem halfCloses_append (tr tr' : List Effect) :
    halfCloses (tr ++ tr') = halfCloses tr ++ halfCloses tr' := by
  simp [halfCloses]

@[simp] theorem downs_append (tr tr' : List Effect) :
    downs (tr ++ tr') = downs tr + downs tr' := by
  simp [downs]

@[simp] theorem callbacks_append (tr tr' : List Effect) :
    callbacks (tr ++ tr') = callbacks tr ++ callbacks tr' := by
  simp [callbacks]

/-- A callback that reports the connection as down is a callback. -/
theorem downs_callbacks (trace : List Effect) : downs (callbacks trace) = downs trace := by
  have hdown : ∀ x : Effect, x.isDown = true → x.isCallback = true := by
    intro x hx
    cases x <;> simp_all [Effect.isDown, Effect.isCallback]
  induction trace with
  | nil => rfl
  | cons x trace ih =>
    simp only [downs, callbacks] at ih ⊢
    cases hx : x.isCallback with
    | true => rw [List.filter_cons_of_pos hx, List.countP_cons, List.countP_cons, ih]
    | false =>
      have hnot : ¬ x.isDown = true := by
        intro h
        rw [hdown x h] at hx
        exact absurd hx (by simp)
      rw [List.filter_cons_of_neg (by simp [hx]), List.countP_cons_of_neg hnot, ih]

/-! ### The output path -/

namespace Endpoint

variable {ι : Type*} {this : ι} {e : Endpoint ι}

/-- The bytes accepted so far, then those still in `outputBuffer`. -/
def stream (e : Endpoint ι) : List Byte := sent e.trace ++ e.conn.outputBuffer.content

/-- A member that only writes, buffers, queues callbacks and arms the channel. -/
structure Quiet (e e' : Endpoint ι) : Prop where
  state : e'.conn.state = e.conn.state
  halfCloses : halfCloses e'.trace = halfCloses e.trace
  callbacks : callbacks e'.trace = callbacks e.trace

theorem Quiet.downs {e e' : Endpoint ι} (h : Quiet e e') : downs e'.trace = downs e.trace := by
  rw [← downs_callbacks, h.callbacks, downs_callbacks]

theorem Quiet.refl (e : Endpoint ι) : Quiet e e := ⟨rfl, rfl, rfl⟩

theorem Quiet.trans {e₁ e₂ e₃ : Endpoint ι} (h : Quiet e₁ e₂) (h' : Quiet e₂ e₃) :
    Quiet e₁ e₃ :=
  ⟨h'.state.trans h.state, h'.halfCloses.trans h.halfCloses, h'.callbacks.trans h.callbacks⟩

theorem quiet_emit_write (e : Endpoint ι) (bs : List Byte) : Quiet e (e.emit (.write bs)) := by
  refine ⟨rfl, ?_, ?_⟩
  · simp [emit, Moduo.halfCloses, Effect.halfClose?]
  · simp [emit, Moduo.callbacks, Effect.isCallback]

theorem quiet_emit_queue (e : Endpoint ι) (cb : Notice) :
    Quiet e (e.emit (.queueInLoop cb)) := by
  refine ⟨rfl, ?_, ?_⟩
  · simp [emit, Moduo.halfCloses, Effect.halfClose?]
  · simp [emit, Moduo.callbacks, Effect.isCallback]

theorem sent_emit_write (e : Endpoint ι) (bs : List Byte) :
    sent (e.emit (.write bs)).trace = sent e.trace ++ bs := by
  simp [emit, sent, Effect.bytes]

theorem sent_emit_queue (e : Endpoint ι) (cb : Notice) :
    sent (e.emit (.queueInLoop cb)).trace = sent e.trace := by
  simp [emit, sent, Effect.bytes]

theorem notifyHighWaterMark_conn (n : ℕ) (e : Endpoint ι) :
    (e.notifyHighWaterMark n).conn = e.conn := by
  simp only [notifyHighWaterMark]
  split_ifs <;> rfl

theorem notifyHighWaterMark_poller (n : ℕ) (e : Endpoint ι) :
    (e.notifyHighWaterMark n).poller = e.poller := by
  simp only [notifyHighWaterMark]
  split_ifs <;> rfl

theorem quiet_notifyHighWaterMark (n : ℕ) (e : Endpoint ι) :
    Quiet e (e.notifyHighWaterMark n) := by
  simp only [notifyHighWaterMark]
  split_ifs
  · exact quiet_emit_queue e _
  · exact Quiet.refl e

theorem sent_notifyHighWaterMark (n : ℕ) (e : Endpoint ι) :
    sent (e.notifyHighWaterMark n).trace = sent e.trace := by
  simp only [notifyHighWaterMark]
  split_ifs
  · exact sent_emit_queue e _
  · rfl

theorem notifyWriteComplete_conn (e : Endpoint ι) : e.notifyWriteComplete.conn = e.conn := by
  rw [notifyWriteComplete]
  split_ifs <;> rfl

theorem notifyWriteComplete_poller (e : Endpoint ι) :
    e.notifyWriteComplete.poller = e.poller := by
  rw [notifyWriteComplete]
  split_ifs <;> rfl

theorem quiet_notifyWriteComplete (e : Endpoint ι) : Quiet e e.notifyWriteComplete := by
  rw [notifyWriteComplete]
  split_ifs
  · exact quiet_emit_queue e _
  · exact Quiet.refl e

theorem sent_notifyWriteComplete (e : Endpoint ι) :
    sent e.notifyWriteComplete.trace = sent e.trace := by
  rw [notifyWriteComplete]
  split_ifs
  · exact sent_emit_queue e _
  · rfl

/-- What `bufferRemaining` does with a non-empty rest, before and after
`enableWriting`. -/
theorem bufferRemaining_eq {remaining : List Byte} (hne : remaining ≠ []) :
    e.bufferRemaining this remaining =
      let e₂ := (e.notifyHighWaterMark remaining.length).setOutput
        (e.conn.outputBuffer.put remaining)
      if !e.conn.channel.isWriting then e₂.onChannel (Channel.enableWriting this) else e₂ := by
  have hconn := notifyHighWaterMark_conn remaining.length e
  simp only [bufferRemaining, setOutput, hconn]
  rw [if_pos (List.length_pos_iff.mpr hne)]

theorem bufferRemaining_nil : e.bufferRemaining this [] = e := rfl

theorem quiet_bufferRemaining (this : ι) (remaining : List Byte) (e : Endpoint ι) :
    Quiet e (e.bufferRemaining this remaining) := by
  by_cases hne : remaining = []
  · subst hne
    exact Quiet.refl e
  · rw [bufferRemaining_eq hne]
    have h := quiet_notifyHighWaterMark remaining.length e
    dsimp only
    split_ifs
    · exact ⟨h.state, h.halfCloses, h.callbacks⟩
    · exact ⟨h.state, h.halfCloses, h.callbacks⟩

theorem stream_bufferRemaining (this : ι) (remaining : List Byte) (e : Endpoint ι) :
    (e.bufferRemaining this remaining).stream = e.stream ++ remaining := by
  by_cases hne : remaining = []
  · subst hne
    simp [bufferRemaining_nil]
  · have hsent := sent_notifyHighWaterMark remaining.length e
    rw [bufferRemaining_eq hne, stream, stream, List.append_assoc, ← Fifo.content_put, ← hsent]
    dsimp only
    split_ifs <;> rfl

/-- What is kept is waiting for the channel to become writable. -/
theorem bufferRemaining_isWriting {remaining : List Byte} (hne : remaining ≠ []) :
    (e.bufferRemaining this remaining).conn.channel.isWriting = true := by
  rw [bufferRemaining_eq hne]
  dsimp only
  split_ifs with hw
  · exact Channel.enableWriting_isWriting _ _ _
  · simp only [Bool.not_eq_true, Bool.not_eq_false'] at hw
    simpa [setOutput, notifyHighWaterMark_conn] using hw

theorem bufferRemaining_wantsRead {remaining : List Byte} (h : e.conn.channel.wantsRead) :
    (e.bufferRemaining this remaining).conn.channel.wantsRead := by
  by_cases hne : remaining = []
  · subst hne
    exact h
  · have hconn := notifyHighWaterMark_conn remaining.length e
    rw [← hconn] at h
    rw [bufferRemaining_eq hne]
    dsimp only
    split_ifs
    · exact Channel.enableWriting_wantsRead h _ _
    · exact h

theorem bufferRemaining_content {remaining : List Byte} (hne : remaining ≠ []) :
    (e.bufferRemaining this remaining).conn.outputBuffer.content ≠ [] := by
  have hcontent : (e.bufferRemaining this remaining).conn.outputBuffer.content =
      e.conn.outputBuffer.content ++ remaining := by
    rw [bufferRemaining_eq hne, ← Fifo.content_put]
    dsimp only
    split_ifs <;> rfl
  rw [hcontent]
  exact List.append_ne_nil_of_right_ne_nil _ hne

theorem directWrite_conn (message : List Byte) (n : ℕ) (e : Endpoint ι) :
    (e.directWrite message n).conn = e.conn := by
  simp only [directWrite]
  split_ifs
  · exact notifyWriteComplete_conn _
  · rfl

theorem directWrite_poller (message : List Byte) (n : ℕ) (e : Endpoint ι) :
    (e.directWrite message n).poller = e.poller := by
  simp only [directWrite]
  split_ifs
  · exact notifyWriteComplete_poller _
  · rfl

theorem quiet_directWrite (message : List Byte) (n : ℕ) (e : Endpoint ι) :
    Quiet e (e.directWrite message n) := by
  simp only [directWrite]
  split_ifs
  · exact (quiet_emit_write e _).trans (quiet_notifyWriteComplete _)
  · exact quiet_emit_write e _

theorem sent_directWrite (message : List Byte) (n : ℕ) (e : Endpoint ι) :
    sent (e.directWrite message n).trace = sent e.trace ++ message.take n := by
  simp only [directWrite]
  split_ifs
  · rw [sent_notifyWriteComplete, sent_emit_write]
  · exact sent_emit_write e _

end Endpoint

/-- `sendInLoop` gives the message up as a whole. -/
def TcpConnection.Drops (c : TcpConnection) (res : WriteResult) : Prop :=
  c.state = .kDisconnected ∨ c.writesDirectly = true ∧ res.isFault = true

instance (c : TcpConnection) (res : WriteResult) : Decidable (c.Drops res) :=
  inferInstanceAs (Decidable (_ ∨ _))

theorem TcpConnection.content_of_writesDirectly {c : TcpConnection}
    (h : c.writesDirectly = true) : c.outputBuffer.content = [] := by
  simp only [TcpConnection.writesDirectly, Bool.and_eq_true, decide_eq_true_eq] at h
  exact List.eq_nil_of_length_eq_zero h.2

namespace Endpoint

variable {ι : Type*} {this : ι} {e : Endpoint ι} {message : List Byte} {res : WriteResult}

theorem sendInLoop_dropped (h : e.conn.Drops res) : e.sendInLoop this message res = e := by
  unfold sendInLoop
  rcases h with hstate | ⟨hdirect, hfault⟩
  · rw [if_pos hstate]
  · by_cases hstate : e.conn.state = .kDisconnected
    · rw [if_pos hstate]
    · rw [if_neg hstate, if_pos hdirect]
      cases res with
      | wrote n => exact absurd hfault (by simp [WriteResult.isFault])
      | failed errno logged => exact if_pos hfault

/-- A message that is not dropped goes through `bufferRemaining`, possibly after
a direct write of its front. -/
theorem sendInLoop_kept (this : ι) (message : List Byte) (h : ¬ e.conn.Drops res) :
    e.sendInLoop this message res = e.bufferRemaining this message ∨
      ∃ n, e.conn.outputBuffer.content = [] ∧ e.sendInLoop this message res =
        (e.directWrite message n).bufferRemaining this (message.drop n) := by
  have hstate : e.conn.state ≠ .kDisconnected := fun hst => h (.inl hst)
  unfold sendInLoop
  rw [if_neg hstate]
  by_cases hdirect : e.conn.writesDirectly = true
  · rw [if_pos hdirect]
    cases res with
    | wrote n => exact .inr ⟨n, TcpConnection.content_of_writesDirectly hdirect, rfl⟩
    | failed errno logged =>
      have hfault : ¬ (WriteResult.failed errno logged).isFault = true :=
        fun hf => h (.inr ⟨hdirect, hf⟩)
      exact .inl (if_neg hfault)
  · exact .inl (if_neg hdirect)

theorem quiet_sendInLoop (this : ι) (message : List Byte) (res : WriteResult)
    (e : Endpoint ι) : Quiet e (e.sendInLoop this message res) := by
  by_cases h : e.conn.Drops res
  · rw [sendInLoop_dropped h]
    exact Quiet.refl e
  · rcases sendInLoop_kept this message h with heq | ⟨n, -, heq⟩
    · rw [heq]
      exact quiet_bufferRemaining this message e
    · rw [heq]
      exact (quiet_directWrite message n e).trans (quiet_bufferRemaining this _ _)

/-- A message that is not dropped goes to the end of the stream, whole. -/
theorem stream_sendInLoop (h : ¬ e.conn.Drops res) :
    (e.sendInLoop this message res).stream = e.stream ++ message := by
  rcases sendInLoop_kept this message h with heq | ⟨n, hempty, heq⟩
  · rw [heq, stream_bufferRemaining]
  · rw [heq, stream_bufferRemaining, stream, directWrite_conn, sent_directWrite, stream, hempty,
      List.append_nil, List.append_nil, List.append_assoc, List.take_append_drop]

/-- Either the connection is as before, or something is waiting to be written. -/
theorem sendInLoop_conn (this : ι) (message : List Byte) (res : WriteResult)
    (e : Endpoint ι) :
    (e.sendInLoop this message res).conn = e.conn ∨
      (e.sendInLoop this message res).conn.channel.isWriting = true ∧
        (e.sendInLoop this message res).conn.outputBuffer.content ≠ [] := by
  by_cases h : e.conn.Drops res
  · rw [sendInLoop_dropped h]
    exact .inl rfl
  · rcases sendInLoop_kept this message h with heq | ⟨n, -, heq⟩
    · rw [heq]
      by_cases hne : message = []
      · rw [hne]
        exact .inl rfl
      · exact .inr ⟨bufferRemaining_isWriting hne, bufferRemaining_content hne⟩
    · rw [heq]
      by_cases hne : message.drop n = []
      · rw [hne, bufferRemaining_nil]
        exact .inl (directWrite_conn message n e)
      · exact .inr ⟨bufferRemaining_isWriting hne, bufferRemaining_content hne⟩

theorem sendInLoop_wantsRead (h : e.conn.channel.wantsRead) :
    (e.sendInLoop this message res).conn.channel.wantsRead := by
  by_cases hd : e.conn.Drops res
  · rw [sendInLoop_dropped hd]
    exact h
  · rcases sendInLoop_kept this message hd with heq | ⟨n, -, heq⟩
    · rw [heq]
      exact bufferRemaining_wantsRead h
    · rw [heq]
      refine bufferRemaining_wantsRead ?_
      rw [directWrite_conn]
      exact h

/-! ### The deferred write -/

/-- `handleWrite` gets everything out that was waiting. -/
def Drains (e : Endpoint ι) (res : WriteResult) : Prop :=
  e.conn.channel.isWriting = true ∧ 0 < e.conn.unsent ∧ res = .wrote e.conn.unsent

instance (e : Endpoint ι) (res : WriteResult) : Decidable (e.Drains res) :=
  inferInstanceAs (Decidable (_ ∧ _ ∧ _))

/-- A deferred write of `n` bytes. -/
def deferredWrite (n : ℕ) (e : Endpoint ι) : Endpoint ι :=
  (e.emit (.write (e.conn.outputBuffer.content.take n))).setOutput (e.conn.outputBuffer.take n)

/-- The end of `handleWrite` after a drain, up to its call of `shutdownInLoop`. -/
def drained (this : ι) (e : Endpoint ι) : Endpoint ι :=
  ((e.deferredWrite e.conn.unsent).onChannel (Channel.disableWriting this)).notifyWriteComplete

theorem quiet_deferredWrite (n : ℕ) (e : Endpoint ι) : Quiet e (e.deferredWrite n) :=
  let h := quiet_emit_write e (e.conn.outputBuffer.content.take n)
  ⟨h.state, h.halfCloses, h.callbacks⟩

theorem stream_deferredWrite (n : ℕ) (e : Endpoint ι) :
    (e.deferredWrite n).stream = e.stream := by
  have hsent : sent (e.deferredWrite n).trace =
      sent e.trace ++ e.conn.outputBuffer.content.take n := sent_emit_write e _
  have hcontent : (e.deferredWrite n).conn.outputBuffer.content =
      e.conn.outputBuffer.content.drop n := Fifo.content_take _ n
  rw [stream, hsent, hcontent, List.append_assoc, List.take_append_drop, stream]

theorem quiet_drained (this : ι) (e : Endpoint ι) : Quiet e (e.drained this) := by
  have h := quiet_deferredWrite e.conn.unsent e
  have hchannel : Quiet e ((e.deferredWrite e.conn.unsent).onChannel
    (Channel.disableWriting this)) := ⟨h.state, h.halfCloses, h.callbacks⟩
  exact hchannel.trans (quiet_notifyWriteComplete _)

theorem stream_drained (this : ι) (e : Endpoint ι) : (e.drained this).stream = e.stream := by
  rw [stream, drained, notifyWriteComplete_conn, sent_notifyWriteComplete]
  exact stream_deferredWrite e.conn.unsent e

theorem drained_content (this : ι) (e : Endpoint ι) :
    (e.drained this).conn.outputBuffer.content = [] := by
  rw [drained, notifyWriteComplete_conn]
  show (e.conn.outputBuffer.take e.conn.unsent).content = []
  rw [Fifo.content_take, TcpConnection.unsent, List.drop_length]

/-- `disableWriting` does not clear the write bit, so the channel stays armed. -/
theorem drained_isWriting (this : ι) (e : Endpoint ι) :
    (e.drained this).conn.channel.isWriting = e.conn.channel.isWriting := by
  rw [drained, notifyWriteComplete_conn]
  exact Channel.disableWriting_isWriting _ _ _

theorem drained_not_wantsRead (this : ι) (e : Endpoint ι) :
    ¬ (e.drained this).conn.channel.wantsRead := by
  rw [drained, notifyWriteComplete_conn]
  exact Channel.disableWriting_not_wantsRead _ _ _

theorem shutdownInLoop_of_isWriting (h : e.conn.channel.isWriting = true) :
    e.shutdownInLoop = e := by
  simp [shutdownInLoop, h]

theorem shutdownInLoop_of_not_isWriting (h : e.conn.channel.isWriting = false) :
    e.shutdownInLoop = e.emit (.shutdownWrite e.conn.unsent) := by
  simp [shutdownInLoop, h]

/-- The `shutdownInLoop` of `handleWrite` finds the channel still armed and does
nothing. -/
theorem drained_shutdownInLoop (this : ι) (h : e.conn.channel.isWriting = true) :
    (e.drained this).shutdownInLoop = e.drained this :=
  shutdownInLoop_of_isWriting ((drained_isWriting this e).trans h)

theorem handleWrite_drains (this : ι) (h : e.Drains res) :
    e.handleWrite this res = e.drained this := by
  obtain ⟨hwriting, hpos, hres⟩ := h
  have hempty : ((e.deferredWrite e.conn.unsent).conn).unsent = 0 := by
    show (e.conn.outputBuffer.take e.conn.unsent).content.length = 0
    rw [Fifo.content_take, TcpConnection.unsent, List.drop_length, List.length_nil]
  have hshut := drained_shutdownInLoop this hwriting
  rw [drained, deferredWrite] at hshut
  rw [deferredWrite] at hempty
  subst hres
  unfold handleWrite
  rw [if_pos hwriting]
  dsimp only
  rw [if_pos hpos, if_pos hempty, hshut, ite_self, drained, deferredWrite]

/-- A deferred write that leaves something in the buffer. -/
theorem handleWrite_partial (this : ι) (h : ¬ e.Drains res)
    (hadm : res.Admissible e.conn.unsent) :
    e.handleWrite this res = e ∨
      ∃ n, n < e.conn.unsent ∧ e.handleWrite this res = e.deferredWrite n := by
  unfold handleWrite
  by_cases hwriting : e.conn.channel.isWriting = true
  · rw [if_pos hwriting]
    cases res with
    | failed errno logged => exact .inl rfl
    | wrote n =>
      dsimp only
      by_cases hpos : n > 0
      · have hlt : n < e.conn.unsent := by
          refine Nat.lt_of_le_of_ne hadm fun heq => h ⟨hwriting, heq ▸ hpos, heq ▸ rfl⟩
        have hleft : ((e.deferredWrite n).conn).unsent ≠ 0 := by
          show (e.conn.outputBuffer.take n).content.length ≠ 0
          rw [Fifo.content_take, List.length_drop]
          exact Nat.sub_ne_zero_of_lt hlt
        rw [if_pos hpos]
        exact .inr ⟨n, hlt, if_neg hleft⟩
      · exact .inl (if_neg hpos)
  · exact .inl (if_neg hwriting)

theorem quiet_handleWrite (this : ι) {res : WriteResult}
    (hadm : res.Admissible e.conn.unsent) : Quiet e (e.handleWrite this res) := by
  by_cases h : e.Drains res
  · rw [handleWrite_drains this h]
    exact quiet_drained this e
  · rcases handleWrite_partial this h hadm with heq | ⟨n, -, heq⟩
    · rw [heq]
      exact Quiet.refl e
    · rw [heq]
      exact quiet_deferredWrite n e

theorem stream_handleWrite (this : ι) {res : WriteResult}
    (hadm : res.Admissible e.conn.unsent) : (e.handleWrite this res).stream = e.stream := by
  by_cases h : e.Drains res
  · rw [handleWrite_drains this h, stream_drained]
  · rcases handleWrite_partial this h hadm with heq | ⟨n, -, heq⟩
    · rw [heq]
    · rw [heq, stream_deferredWrite]

/-! ### The registration of the channel -/

/-- Connection, poller and kernel agree that the channel is listening. -/
structure Registered (this : ι) (e : Endpoint ι) : Prop where
  index : e.conn.channel.index = .kAdded
  events : e.conn.channel.events ≠ 0
  channels : e.poller.channels e.conn.channel.fd = some this
  epoll : e.poller.epoll e.conn.channel.fd = some (e.conn.channel.events, this)

/-- The channel listens to nothing but is still in the poller's map. -/
structure Silenced (this : ι) (e : Endpoint ι) : Prop where
  index : e.conn.channel.index = .kAdded
  events : e.conn.channel.events = 0
  channels : e.poller.channels e.conn.channel.fd = some this
  epoll : e.poller.epoll e.conn.channel.fd = none

/-- Neither poller nor kernel know the descriptor. -/
structure Unregistered (e : Endpoint ι) : Prop where
  index : e.conn.channel.index = .kNew
  events : e.conn.channel.events = 0
  channels : e.poller.channels e.conn.channel.fd = none
  epoll : e.poller.epoll e.conn.channel.fd = none

/-- Whatever poller and kernel have for the descriptor is the channel's own. -/
structure Linked (this : ι) (e : Endpoint ι) : Prop where
  channels : ∀ p, e.poller.channels e.conn.channel.fd = some p →
    p = this ∧ e.conn.channel.index = .kAdded
  epoll : ∀ x, e.poller.epoll e.conn.channel.fd = some x →
    x.2 = this ∧ e.conn.channel.index = .kAdded

theorem Registered.linked (h : Registered this e) : Linked this e := by
  constructor
  · intro p hp
    exact ⟨Option.some.inj (hp.symm.trans h.channels), h.index⟩
  · intro x hx
    have heq := Option.some.inj (hx.symm.trans h.epoll)
    exact ⟨congrArg Prod.snd heq, h.index⟩

theorem Silenced.linked (h : Silenced this e) : Linked this e := by
  constructor
  · intro p hp
    exact ⟨Option.some.inj (hp.symm.trans h.channels), h.index⟩
  · intro x hx
    exact absurd (hx.symm.trans h.epoll) (by simp)

theorem Unregistered.linked (h : Unregistered e) : Linked this e := by
  constructor
  · intro p hp
    exact absurd (hp.symm.trans h.channels) (by simp)
  · intro x hx
    exact absurd (hx.symm.trans h.epoll) (by simp)

/-- The descriptor, the entries of all other descriptors and the process are as
before. -/
structure Frame (e e' : Endpoint ι) : Prop where
  fd : e'.conn.channel.fd = e.conn.channel.fd
  channels : ∀ fd, fd ≠ e.conn.channel.fd → e'.poller.channels fd = e.poller.channels fd
  epoll : ∀ fd, fd ≠ e.conn.channel.fd → e'.poller.epoll fd = e.poller.epoll fd
  exited : e'.poller.exited = e.poller.exited

theorem Frame.refl (e : Endpoint ι) : Frame e e :=
  ⟨rfl, fun _ _ => rfl, fun _ _ => rfl, rfl⟩

theorem Frame.trans {e₁ e₂ e₃ : Endpoint ι} (h : Frame e₁ e₂) (h' : Frame e₂ e₃) :
    Frame e₁ e₃ where
  fd := h'.fd.trans h.fd
  channels fd hne := (h'.channels fd (h.fd ▸ hne)).trans (h.channels fd hne)
  epoll fd hne := (h'.epoll fd (h.fd ▸ hne)).trans (h.epoll fd hne)
  exited := h'.exited.trans h.exited

/-- Members that leave channel and poller alone. -/
theorem Frame.of_eq {e' : Endpoint ι} (hchannel : e'.conn.channel = e.conn.channel)
    (hpoller : e'.poller = e.poller) : Frame e e' := by
  refine ⟨?_, fun fd _ => ?_, fun fd _ => ?_, ?_⟩
  · rw [hchannel]
  · rw [hpoller]
  · rw [hpoller]
  · rw [hpoller]

theorem Registered.of_eq {e' : Endpoint ι} (h : Registered this e)
    (hchannel : e'.conn.channel = e.conn.channel) (hpoller : e'.poller = e.poller) :
    Registered this e' := by
  refine ⟨?_, ?_, ?_, ?_⟩
  · rw [hchannel]
    exact h.index
  · rw [hchannel]
    exact h.events
  · rw [hchannel, hpoller]
    exact h.channels
  · rw [hchannel, hpoller]
    exact h.epoll

/-- Another mask for a listening channel. -/
theorem Registered.setEvents (h : Registered this e) {f : EventMask → EventMask}
    (hne : f e.conn.channel.events ≠ 0) :
    Registered this (e.onChannel (Channel.setEvents f this)) ∧
      Frame e (e.onChannel (Channel.setEvents f this)) := by
  have heq : Channel.setEvents f this e.conn.channel e.poller = _ :=
    Channel.setEvents_registers (fun _ => ⟨_, h.epoll⟩) (fun hidx => absurd h.index hidx)
      (fun _ => hne)
  rw [if_neg (by simp [h.index])] at heq
  rw [onChannel, heq]
  refine ⟨⟨rfl, hne, h.channels, Function.update_self _ _ _⟩,
    ⟨rfl, fun fd _ => rfl, fun fd hfd => ?_, rfl⟩⟩
  exact Function.update_of_ne hfd _ _

/-- A channel in the poller's map is told to listen to nothing; it may have been
told so before. -/
theorem disconnect_silences (hindex : e.conn.channel.index = .kAdded)
    (hchannels : e.poller.channels e.conn.channel.fd = some this) :
    Silenced this (e.disconnect this) ∧ Frame e (e.disconnect this) := by
  have heq : Channel.disableAll this e.conn.channel e.poller = _ :=
    Channel.setEvents_silences (f := fun _ => Channel.kNoneEvent) hindex rfl
  have hchannel : (e.disconnect this).conn.channel = { e.conn.channel with events := 0 } :=
    congrArg Prod.fst heq
  have hpoller : (e.disconnect this).poller = { e.poller with
      epoll := Function.update e.poller.epoll e.conn.channel.fd none } :=
    congrArg Prod.snd heq
  refine ⟨⟨?_, ?_, ?_, ?_⟩, ⟨?_, fun fd _ => ?_, fun fd hfd => ?_, ?_⟩⟩
  · rw [hchannel]
    exact hindex
  · rw [hchannel]
  · rw [hchannel, hpoller]
    exact hchannels
  · rw [hchannel, hpoller]
    exact Function.update_self _ _ _
  · rw [hchannel]
  · rw [hpoller]
  · rw [hpoller]
    exact Function.update_of_ne hfd _ _
  · rw [hpoller]

theorem Registered.bufferRemaining (h : Registered this e) (remaining : List Byte) :
    Registered this (e.bufferRemaining this remaining) ∧
      Frame e (e.bufferRemaining this remaining) := by
  by_cases hne : remaining = []
  · rw [hne, bufferRemaining_nil]
    exact ⟨h, Frame.refl e⟩
  · have hpoller := notifyHighWaterMark_poller remaining.length e
    have hchannel : (e.notifyHighWaterMark remaining.length).conn.channel = e.conn.channel :=
      congrArg TcpConnection.channel (notifyHighWaterMark_conn _ e)
    have hput : Registered this ((e.notifyHighWaterMark remaining.length).setOutput
        (e.conn.outputBuffer.put remaining)) := h.of_eq hchannel hpoller
    have hframe : Frame e ((e.notifyHighWaterMark remaining.length).setOutput
        (e.conn.outputBuffer.put remaining)) := Frame.of_eq hchannel hpoller
    rw [bufferRemaining_eq hne]
    dsimp only
    split_ifs
    · have hevents : e.conn.channel.events ||| Channel.kWriteEvent ≠ 0 := by
        intro hzero
        have hand := congrArg (· &&& Channel.kWriteEvent) hzero
        have habsorb : (e.conn.channel.events ||| Channel.kWriteEvent) &&& Channel.kWriteEvent =
            Channel.kWriteEvent := by
          ext i
          simp +contextual
        simp only [habsorb] at hand
        exact absurd hand (by decide)
      have hset := hput.setEvents (f := (· ||| Channel.kWriteEvent)) (by
        show (e.notifyHighWaterMark remaining.length).conn.channel.events ||| _ ≠ 0
        rw [hchannel]
        exact hevents)
      exact ⟨hset.1, hframe.trans hset.2⟩
    · exact ⟨hput, hframe⟩

theorem Registered.sendInLoop (h : Registered this e) (message : List Byte)
    (res : WriteResult) :
    Registered this (e.sendInLoop this message res) ∧ Frame e (e.sendInLoop this message res) := by
  by_cases hd : e.conn.Drops res
  · rw [sendInLoop_dropped hd]
    exact ⟨h, Frame.refl e⟩
  · rcases sendInLoop_kept this message hd with heq | ⟨n, -, heq⟩
    · rw [heq]
      exact h.bufferRemaining message
    · have hconn := directWrite_conn message n e
      have hpoller := directWrite_poller message n e
      have hwrite : Registered this (e.directWrite message n) :=
        h.of_eq (congrArg TcpConnection.channel hconn) hpoller
      have hframe : Frame e (e.directWrite message n) :=
        Frame.of_eq (congrArg TcpConnection.channel hconn) hpoller
      rw [heq]
      have hbuffer := hwrite.bufferRemaining (message.drop n)
      exact ⟨hbuffer.1, hframe.trans hbuffer.2⟩

theorem Registered.shutdownInLoop (h : Registered this e) :
    Registered this e.shutdownInLoop ∧ Frame e e.shutdownInLoop := by
  rw [Endpoint.shutdownInLoop]
  split_ifs
  · exact ⟨h.of_eq rfl rfl, Frame.of_eq rfl rfl⟩
  · exact ⟨h, Frame.refl e⟩

/-- A drain leaves the write bit, so the channel stays registered. -/
theorem Registered.handleWrite (h : Registered this e) {res : WriteResult}
    (hadm : res.Admissible e.conn.unsent) :
    Registered this (e.handleWrite this res) ∧ Frame e (e.handleWrite this res) := by
  by_cases hd : e.Drains res
  · have hwrite : Registered this (e.deferredWrite e.conn.unsent) := h.of_eq rfl rfl
    have hne : e.conn.channel.events &&& Channel.kWriteEvent ≠ 0 := by
      simpa [Channel.isWriting] using hd.1
    have hset := hwrite.setEvents (f := (· &&& Channel.kWriteEvent)) hne
    have hconn := notifyWriteComplete_conn
      ((e.deferredWrite e.conn.unsent).onChannel (Channel.disableWriting this))
    have hpoller := notifyWriteComplete_poller
      ((e.deferredWrite e.conn.unsent).onChannel (Channel.disableWriting this))
    have hchannel := congrArg TcpConnection.channel hconn
    rw [handleWrite_drains this hd, drained]
    exact ⟨hset.1.of_eq hchannel hpoller,
      (Frame.of_eq rfl rfl : Frame e (e.deferredWrite e.conn.unsent)).trans
        (hset.2.trans (Frame.of_eq hchannel hpoller))⟩
  · rcases handleWrite_partial this hd hadm with heq | ⟨n, -, heq⟩
    · rw [heq]
      exact ⟨h, Frame.refl e⟩
    · rw [heq]
      exact ⟨h.of_eq rfl rfl, Frame.of_eq rfl rfl⟩

theorem Registered.disconnect (h : Registered this e) :
    Silenced this (e.disconnect this) ∧ Frame e (e.disconnect this) :=
  disconnect_silences h.index h.channels

theorem Silenced.disconnect (h : Silenced this e) :
    Silenced this (e.disconnect this) ∧ Frame e (e.disconnect this) :=
  disconnect_silences h.index h.channels

theorem Silenced.of_eq {e' : Endpoint ι} (h : Silenced this e)
    (hchannel : e'.conn.channel = e.conn.channel) (hpoller : e'.poller = e.poller) :
    Silenced this e' := by
  refine ⟨?_, ?_, ?_, ?_⟩
  · rw [hchannel]
    exact h.index
  · rw [hchannel]
    exact h.events
  · rw [hchannel, hpoller]
    exact h.channels
  · rw [hchannel, hpoller]
    exact h.epoll

theorem Silenced.not_isWriting (h : Silenced this e) : e.conn.channel.isWriting = false := by
  rw [Channel.isWriting, h.events]
  decide

/-- A late write event finds the channel silenced and does nothing. -/
theorem Silenced.handleWrite (h : Silenced this e) (res : WriteResult) :
    e.handleWrite this res = e := by
  unfold Endpoint.handleWrite
  rw [if_neg (by simp [h.not_isWriting])]

theorem Unregistered.connectionEstablished (this : ι) (h : Unregistered e) :
    Registered this (e.connectionEstablished this) ∧ Frame e (e.connectionEstablished this) := by
  have hadd : e.poller.updateChannel this { e.conn.channel with
      tied := true, events := e.conn.channel.events ||| Channel.kReadEvent } = _ :=
    EPollPoller.updateChannel_add h.index h.epoll
  have heq : Channel.enableReading this { e.conn.channel with tied := true } e.poller = _ := hadd
  have hchannel : (e.connectionEstablished this).conn.channel = { e.conn.channel with
      tied := true, events := e.conn.channel.events ||| Channel.kReadEvent, index := .kAdded } :=
    congrArg Prod.fst heq
  have hpoller : (e.connectionEstablished this).poller = { e.poller with
      channels := Function.update e.poller.channels e.conn.channel.fd (some this),
      epoll := Function.update e.poller.epoll e.conn.channel.fd
        (some (e.conn.channel.events ||| Channel.kReadEvent, this)) } :=
    congrArg Prod.snd heq
  refine ⟨⟨?_, ?_, ?_, ?_⟩, ⟨?_, fun fd hfd => ?_, fun fd hfd => ?_, ?_⟩⟩
  · rw [hchannel]
  · rw [hchannel]
    show e.conn.channel.events ||| Channel.kReadEvent ≠ 0
    rw [h.events]
    decide
  · rw [hchannel, hpoller]
    exact Function.update_self _ _ _
  · rw [hchannel, hpoller]
    exact Function.update_self _ _ _
  · rw [hchannel]
  · rw [hpoller]
    exact Function.update_of_ne hfd _ _
  · rw [hpoller]
    exact Function.update_of_ne hfd _ _
  · rw [hpoller]

theorem Silenced.removeChannel (h : Silenced this e) :
    Unregistered (e.removeChannel this) ∧ Frame e (e.removeChannel this) := by
  have heq : Channel.remove this e.conn.channel e.poller = _ :=
    EPollPoller.removeChannel_added h.index
  rw [Endpoint.removeChannel, onChannel, heq]
  refine ⟨⟨rfl, h.events, Function.update_self _ _ _, Function.update_self _ _ _⟩,
    ⟨rfl, fun fd hfd => ?_, fun fd hfd => ?_, rfl⟩⟩
  · exact Function.update_of_ne hfd _ _
  · exact Function.update_of_ne hfd _ _

/-- Removing the channel again does nothing. -/
theorem Unregistered.removeChannel (h : Unregistered e) : e.removeChannel this = e := by
  have heq : Channel.remove this e.conn.channel e.poller = _ :=
    EPollPoller.removeChannel_not_added (by simp [h.index])
  rw [Endpoint.removeChannel, onChannel, heq, ← h.index]

/-! ### The callbacks of the members -/

theorem callbacks_shutdownInLoop (e : Endpoint ι) :
    callbacks e.shutdownInLoop.trace = callbacks e.trace := by
  rw [shutdownInLoop]
  split_ifs
  · simp [emit, callbacks, Effect.isCallback]
  · rfl

theorem callbacks_connectionEstablished (this : ι) (e : Endpoint ι) :
    callbacks (e.connectionEstablished this).trace =
      callbacks e.trace ++ [.connectionCallback true] := by
  simp [connectionEstablished, emit, onChannel, setState, callbacks, Effect.isCallback,
    TcpConnection.connected]

theorem callbacks_disconnect (this : ι) (e : Endpoint ι) :
    callbacks (e.disconnect this).trace = callbacks e.trace ++ [.connectionCallback false] := by
  simp [disconnect, emit, onChannel, setState, callbacks, Effect.isCallback,
    TcpConnection.connected]

theorem callbacks_handleClose (this : ι) (e : Endpoint ι) :
    callbacks (e.handleClose this).trace =
      callbacks e.trace ++ [.connectionCallback false, .closeCallback] := by
  have hclose : callbacks (e.handleClose this).trace =
      callbacks (e.disconnect this).trace ++ [.closeCallback] := callbacks_append _ _
  rw [hclose, callbacks_disconnect, List.append_assoc]
  rfl

/-- A read that is not an end of file reports its message, if there is one. -/
theorem handleRead_of_ne (this : ι) {res : ReadResult} (hne : res ≠ .read []) (e : Endpoint ι) :
    (e.handleRead this res).conn.state = e.conn.state ∧
      (e.handleRead this res).conn.channel = e.conn.channel ∧
      (e.handleRead this res).poller = e.poller ∧
      (callbacks (e.handleRead this res).trace = callbacks e.trace ∨
        callbacks (e.handleRead this res).trace = callbacks e.trace ++ [.messageCallback]) := by
  cases res with
  | failed errno => exact ⟨rfl, rfl, rfl, .inl rfl⟩
  | read data =>
    cases data with
    | nil => exact absurd rfl hne
    | cons b bs => exact ⟨rfl, rfl, rfl, .inr (callbacks_append _ _)⟩

/-! ### The events of the channel -/

theorem paired_bufferRemaining (h : e.conn.channel.Paired) (remaining : List Byte) :
    (e.bufferRemaining this remaining).conn.channel.Paired := by
  by_cases hne : remaining = []
  · subst hne
    exact h
  · have hconn := notifyHighWaterMark_conn remaining.length e
    rw [← hconn] at h
    rw [bufferRemaining_eq hne]
    dsimp only
    split_ifs
    · exact Channel.enableWriting_paired h _ _
    · exact h

theorem paired_sendInLoop (h : e.conn.channel.Paired) (message : List Byte) (res : WriteResult) :
    (e.sendInLoop this message res).conn.channel.Paired := by
  by_cases hd : e.conn.Drops res
  · rw [sendInLoop_dropped hd]
    exact h
  · rcases sendInLoop_kept this message hd with heq | ⟨n, -, heq⟩
    · rw [heq]
      exact paired_bufferRemaining h message
    · rw [heq]
      refine paired_bufferRemaining ?_ _
      rw [directWrite_conn]
      exact h

theorem paired_handleWrite (h : e.conn.channel.Paired) {res : WriteResult}
    (hadm : res.Admissible e.conn.unsent) :
    (e.handleWrite this res).conn.channel.Paired := by
  by_cases hd : e.Drains res
  · rw [handleWrite_drains this hd, drained, notifyWriteComplete_conn]
    exact Channel.disableWriting_paired _ _ _
  · rcases handleWrite_partial this hd hadm with heq | ⟨n, -, heq⟩
    · rw [heq]
      exact h
    · rw [heq]
      exact h

/-! ### Whose entries the poller holds -/

/-- Every entry of the epoll set is from before or carries `this`. -/
def Adds (this : ι) (e e' : Endpoint ι) : Prop :=
  ∀ fd x, e'.poller.epoll fd = some x → x.2 = this ∨ e.poller.epoll fd = some x

theorem Adds.of_eq {e' : Endpoint ι} (h : e'.poller = e.poller) : Adds this e e' := by
  intro fd x hx
  rw [h] at hx
  exact .inr hx

theorem adds_setEvents (f : EventMask → EventMask) (e : Endpoint ι) :
    Adds this e (e.onChannel (Channel.setEvents f this)) :=
  fun _ _ h => EPollPoller.updateChannel_entry h

theorem adds_removeChannel (this : ι) (e : Endpoint ι) : Adds this e (e.removeChannel this) :=
  fun _ _ h => EPollPoller.removeChannel_entry h

theorem adds_disconnect (this : ι) (e : Endpoint ι) : Adds this e (e.disconnect this) :=
  fun _ _ h => EPollPoller.updateChannel_entry h

theorem adds_connectionEstablished (this : ι) (e : Endpoint ι) :
    Adds this e (e.connectionEstablished this) :=
  fun _ _ h => EPollPoller.updateChannel_entry h

theorem adds_shutdownInLoop (this : ι) (e : Endpoint ι) : Adds this e e.shutdownInLoop := by
  rw [shutdownInLoop]
  split_ifs
  · exact Adds.of_eq rfl
  · exact Adds.of_eq rfl

theorem adds_bufferRemaining (this : ι) (remaining : List Byte) (e : Endpoint ι) :
    Adds this e (e.bufferRemaining this remaining) := by
  by_cases hne : remaining = []
  · rw [hne]
    exact Adds.of_eq rfl
  · have hpoller := notifyHighWaterMark_poller remaining.length e
    rw [bufferRemaining_eq hne]
    dsimp only
    split_ifs
    · intro fd x hx
      have hold := adds_setEvents _ _ fd x hx
      rwa [setOutput, hpoller] at hold
    · exact Adds.of_eq hpoller

theorem adds_sendInLoop (this : ι) (message : List Byte) (res : WriteResult) (e : Endpoint ι) :
    Adds this e (e.sendInLoop this message res) := by
  by_cases hd : e.conn.Drops res
  · rw [sendInLoop_dropped hd]
    exact Adds.of_eq rfl
  · rcases sendInLoop_kept this message hd with heq | ⟨n, -, heq⟩
    · rw [heq]
      exact adds_bufferRemaining this message e
    · intro fd x hx
      rw [heq] at hx
      have hold := adds_bufferRemaining this _ _ fd x hx
      rwa [directWrite_poller] at hold

theorem adds_handleWrite (this : ι) {res : WriteResult} (hadm : res.Admissible e.conn.unsent) :
    Adds this e (e.handleWrite this res) := by
  by_cases hd : e.Drains res
  · intro fd x hx
    rw [handleWrite_drains this hd, drained, notifyWriteComplete_poller] at hx
    exact adds_setEvents _ _ fd x hx
  · rcases handleWrite_partial this hd hadm with heq | ⟨n, -, heq⟩
    · rw [heq]
      exact Adds.of_eq rfl
    · rw [heq]
      exact Adds.of_eq rfl

theorem adds_handleRead (this : ι) (res : ReadResult) (e : Endpoint ι) :
    Adds this e (e.handleRead this res) := by
  cases res with
  | failed errno => exact Adds.of_eq rfl
  | read data =>
    cases data with
    | nil => exact adds_disconnect this e
    | cons b bs => exact Adds.of_eq rfl

end Endpoint

end Moduo
