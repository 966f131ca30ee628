/-
The output of a connection is the concatenation of whole messages.

* `stream_iff` — the bytes on the wire and then those in `outputBuffer` are the
  accepted messages; the messages of one thread are in call order; until the
  connection closes, it is half closed only with an empty buffer; and a message is
  given up only by a connection that is down or closed by its peer, if and only if
  `LOG_ERROR` makes no other error look like that.

The first and the third part share the invariant `Inv`, whose key is `armed`:
while the connection is open, a non-empty buffer means an armed channel, so that
no direct write overtakes it and no half close cuts it off.
-/
import Moduo.ConnectionLoop

namespace Moduo

namespace ConnectionLoop

namespace OutputStream

variable {T : Type*}

/-! ### Bytes -/

structure Inv (s : State T) : Prop where
  stream : s.stream = s.accepted.flatMap Message.payload
  armed : s.closed = false → s.conn.outputBuffer.content ≠ [] →
    s.conn.channel.isWriting = true
  unsent : s.closed = false → ∀ n ∈ halfCloses s.trace, n = 0
  destroying : s.destroying ≠ .outside → s.closed = true

variable {s s' : State T}

theorem inv_start (h : Start s) : Inv s where
  stream := by
    rw [State.stream, State.wire, h.trace, h.fresh.output, h.accepted]
    rfl
  armed _ hne := absurd h.fresh.output hne
  unsent _ n hn := by
    rw [h.trace] at hn
    exact absurd hn List.not_mem_nil
  destroying hne := absurd h.destroying hne

/-- A member that half closes nothing, leaves the stream alone and keeps a
non-empty buffer armed. -/
theorem Inv.perform (h : Inv s) {f : Endpoint Unit → Endpoint Unit}
    (hhalf : halfCloses (f s.endpoint).trace = [])
    (hstream : (f s.endpoint).stream = s.endpoint.stream)
    (harmed : s.conn.outputBuffer.content ≠ [] → (f s.endpoint).conn.channel.isWriting =
      s.conn.channel.isWriting)
    (hcontent : (f s.endpoint).conn.outputBuffer.content ≠ [] →
      s.conn.outputBuffer.content ≠ []) : Inv (s.perform f) where
  stream := by
    rw [State.stream_perform, hstream]
    exact h.stream
  armed hopen hne :=
    (harmed (hcontent hne)).trans (h.armed hopen (hcontent hne))
  unsent := by
    rw [State.halfCloses_perform, hhalf, List.append_nil]
    exact h.unsent
  destroying := h.destroying

theorem Inv.sendInLoop (h : Inv s) (m : Message T) (res : WriteResult) :
    Inv (s.sendInLoop m res) := by
  by_cases hd : s.conn.Drops res
  · rw [State.sendInLoop_dropped hd]
    exact h
  · have hquiet := Endpoint.quiet_sendInLoop () m.payload res s.endpoint
    refine ⟨?_, fun hopen hne => ?_, fun hopen => ?_, h.destroying⟩
    · rw [State.stream_sendInLoop hd, State.accepted_sendInLoop hd, h.stream, List.flatMap_append,
        List.flatMap_singleton]
    · rcases Endpoint.sendInLoop_conn () m.payload res s.endpoint with hsame | ⟨hwriting, -⟩
      · have hconn : (s.sendInLoop m res).conn = s.conn := hsame
        rw [hconn] at hne ⊢
        exact h.armed hopen hne
      · exact hwriting
    · have htrace : halfCloses (s.sendInLoop m res).trace = halfCloses s.trace :=
        State.halfCloses_perform_quiet hquiet
      rw [htrace]
      exact h.unsent hopen

theorem Inv.handleWrite (h : Inv s) {res : WriteResult} (hadm : res.Admissible s.conn.unsent) :
    Inv (s.handleWrite res) := by
  have hhalf : halfCloses (s.endpoint.handleWrite () res).trace = [] :=
    (Endpoint.quiet_handleWrite () hadm).halfCloses
  have hperform : Inv (s.perform (Endpoint.handleWrite () res)) := by
    by_cases hd : s.endpoint.Drains res
    · have heq := Endpoint.handleWrite_drains () hd
      refine h.perform hhalf (Endpoint.stream_handleWrite () hadm) ?_ ?_
      · intro _
        rw [heq]
        exact Endpoint.drained_isWriting () s.endpoint
      · intro hne
        rw [heq, Endpoint.drained_content] at hne
        exact absurd rfl hne
    · refine h.perform hhalf (Endpoint.stream_handleWrite () hadm) ?_ ?_
      · intro _
        rcases Endpoint.handleWrite_partial () hd hadm with heq | ⟨n, -, heq⟩
        · rw [heq]
          rfl
        · rw [heq]
          rfl
      · intro hne
        rcases Endpoint.handleWrite_partial () hd hadm with heq | ⟨n, hlt, -⟩
        · rw [heq] at hne
          exact hne
        · exact List.length_pos_iff.mp (Nat.zero_lt_of_lt hlt)
  exact ⟨hperform.stream, hperform.armed, hperform.unsent, hperform.destroying⟩

theorem Inv.shutdownInLoop (h : Inv s) : Inv s.shutdownInLoop := by
  cases hw : s.conn.channel.isWriting with
  | true =>
    have hsame : s.endpoint.shutdownInLoop = s.endpoint :=
      Endpoint.shutdownInLoop_of_isWriting hw
    rw [State.shutdownInLoop, State.perform_id hsame]
    exact ⟨h.stream, h.armed, h.unsent, h.destroying⟩
  | false =>
    have heq : s.endpoint.shutdownInLoop = s.endpoint.emit (.shutdownWrite s.conn.unsent) :=
      Endpoint.shutdownInLoop_of_not_isWriting hw
    have hstream : s.shutdownInLoop.stream = s.stream := by
      have hperform : s.shutdownInLoop.stream = (s.perform Endpoint.shutdownInLoop).stream := rfl
      rw [hperform, State.stream_perform, heq]
      rfl
    have hconn : s.shutdownInLoop.conn = s.conn := congrArg Endpoint.conn heq
    have hhalf : halfCloses s.shutdownInLoop.trace = halfCloses s.trace ++ [s.conn.unsent] := by
      have hperform : s.shutdownInLoop.trace = (s.perform Endpoint.shutdownInLoop).trace := rfl
      rw [hperform, State.halfCloses_perform, heq]
      rfl
    refine ⟨hstream.trans h.stream, fun hopen => ?_, fun hopen n hn => ?_, h.destroying⟩
    · rw [hconn]
      exact h.armed hopen
    · rw [hhalf, List.mem_append, List.mem_singleton] at hn
      rcases hn with hn | rfl
      · exact h.unsent hopen n hn
      · -- an unarmed open connection has nothing to send
        by_contra hne
        have hcontent : s.conn.outputBuffer.content ≠ [] :=
          List.length_pos_iff.mp (Nat.pos_of_ne_zero hne)
        rw [h.armed hopen hcontent] at hw
        exact absurd hw (by decide)

/-- Once the connection is closed, only the stream is left to keep. -/
theorem Inv.closed (h : Inv s) {f : Endpoint Unit → Endpoint Unit} (hclosed : s.closed = true)
    (hstream : (f s.endpoint).stream = s.endpoint.stream) : Inv (s.perform f) where
  stream := by
    rw [State.stream_perform, hstream]
    exact h.stream
  armed hopen := absurd (hclosed.symm.trans hopen) (by decide)
  unsent hopen := absurd (hclosed.symm.trans hopen) (by decide)
  destroying := h.destroying

theorem Inv.handleClose (h : Inv s) : Inv s.handleClose where
  stream := by
    have hperform : s.handleClose.stream = (s.perform (Endpoint.handleClose ())).stream := rfl
    have hmember : (s.endpoint.handleClose ()).stream = s.endpoint.stream := rfl
    rw [hperform, State.stream_perform, hmember]
    exact h.stream
  armed hopen := absurd hopen (by simp [State.handleClose])
  unsent hopen := absurd hopen (by simp [State.handleClose])
  destroying _ := rfl

theorem inv_move [DecidableEq T] {loopThread : T} {a : Label T} (h : Inv s)
    (hmove : Move loopThread s a s') : Inv s' := by
  cases hmove with
  | sendTest => exact ⟨h.stream, h.armed, h.unsent, h.destroying⟩
  | sendRefused => exact ⟨h.stream, h.armed, h.unsent, h.destroying⟩
  | sendDirect =>
    refine Inv.sendInLoop ?_ _ _
    exact ⟨h.stream, h.armed, h.unsent, h.destroying⟩
  | sendQueue => exact ⟨h.stream, h.armed, h.unsent, h.destroying⟩
  | shutdownTest => exact ⟨h.stream, h.armed, h.unsent, h.destroying⟩
  | shutdownRefused => exact h
  | store => exact ⟨h.stream, h.armed, h.unsent, h.destroying⟩
  | shutdownDirect =>
    refine Inv.shutdownInLoop ?_
    exact ⟨h.stream, h.armed, h.unsent, h.destroying⟩
  | shutdownQueue => exact ⟨h.stream, h.armed, h.unsent, h.destroying⟩
  | established =>
    have hperform : Inv (s.perform (Endpoint.connectionEstablished ())) := by
      refine h.perform rfl rfl (fun _ => ?_) id
      exact Channel.enableReading_isWriting _ _ _
    exact ⟨hperform.stream, hperform.armed, hperform.unsent, hperform.destroying⟩
  | swap => exact ⟨h.stream, h.armed, h.unsent, h.destroying⟩
  | runSend =>
    refine Inv.sendInLoop ?_ _ _
    exact ⟨h.stream, h.armed, h.unsent, h.destroying⟩
  | runShutdown =>
    refine Inv.shutdownInLoop ?_
    exact ⟨h.stream, h.armed, h.unsent, h.destroying⟩
  | runNotice => exact ⟨h.stream, h.armed, h.unsent, h.destroying⟩
  | endOfFile => exact h.handleClose
  | @handleRead res _ _ hne =>
    cases res with
    | failed errno => exact h.perform rfl rfl (fun _ => rfl) id
    | read data =>
      cases data with
      | nil => exact absurd rfl hne
      | cons b bs => exact h.perform rfl rfl (fun _ => rfl) id
  | handleWrite _ _ hadm => exact h.handleWrite hadm
  | handleClose => exact h.handleClose
  | handleError =>
    have hsame : s.endpoint.handleError = s.endpoint := rfl
    rw [State.perform_id hsame]
    exact h
  | retrieve => exact ⟨h.stream, h.armed, h.unsent, h.destroying⟩
  | destroyedFound =>
    exact ⟨h.stream, fun hopen => absurd hopen (by simp), fun hopen => absurd hopen (by simp),
      fun _ => rfl⟩
  | destroyedSkips =>
    exact ⟨h.stream, fun hopen => absurd hopen (by simp), fun hopen => absurd hopen (by simp),
      fun _ => rfl⟩
  | disconnect hd =>
    -- the connection is closed: nothing is asked of its buffer any more
    have hclosed : s.closed = true := h.destroying (by simp [hd])
    have hperform := h.closed (f := Endpoint.disconnect ()) hclosed rfl
    exact ⟨hperform.stream, hperform.armed, hperform.unsent, fun _ => hclosed⟩
  | remove _ hd =>
    have hclosed : s.closed = true := h.destroying (by simp [hd])
    have hperform := h.closed (f := Endpoint.removeChannel ()) hclosed rfl
    exact ⟨hperform.stream, hperform.armed, hperform.unsent, fun _ => hclosed⟩

/-! ### Messages of one thread -/

/-- The message a functor carries. -/
def message? : Functor T → Option (Message T)
  | .sendInLoop m => some m
  | _ => none

/-- The messages waiting in a list of functors. -/
def waiting (fs : List (Functor T)) : List (Message T) := fs.filterMap message?

def inFlight : Call T → List (Message T)
  | .sending m => [m]
  | _ => []

/-- The accepted messages, then those on their way through the queue. -/
def admitted (s : State T) : List (Message T) :=
  s.accepted ++ waiting s.rest ++ waiting s.pending

theorem inFlight_idle : inFlight (.idle : Call T) = [] := rfl

theorem inFlight_sending (m : Message T) : inFlight (.sending m) = [m] := rfl

theorem waiting_append (fs fs' : List (Functor T)) :
    waiting (fs ++ fs') = waiting fs ++ waiting fs' :=
  List.filterMap_append

theorem waiting_notices (cbs : List Notice) :
    waiting (cbs.map (Functor.notice (T := T))) = [] := by
  induction cbs with
  | nil => rfl
  | cons cb cbs ih => exact ih

/-- What a member queues are callbacks, not messages. -/
theorem waiting_perform (s : State T) (f : Endpoint Unit → Endpoint Unit) :
    waiting (s.perform f).pending = waiting s.pending := by
  rw [State.perform, waiting_append, waiting_notices, List.append_nil]

theorem waiting_sendInLoop (s : State T) (m : Message T) (res : WriteResult) :
    waiting (s.sendInLoop m res).pending = waiting s.pending :=
  waiting_perform s _

section Order

variable [DecidableEq T] {loopThread : T}

/-- The messages of thread `t`. -/
def ofCaller (t : T) (ms : List (Message T)) : List (Message T) :=
  ms.filter fun m => m.caller = t

theorem ofCaller_append (t : T) (ms ms' : List (Message T)) :
    ofCaller t (ms ++ ms') = ofCaller t ms ++ ofCaller t ms' :=
  List.filter_append _ _

theorem ofCaller_self {t : T} {m : Message T} (h : m.caller = t) : ofCaller t [m] = [m] := by
  simp [ofCaller, h]

theorem ofCaller_other {t : T} {m : Message T} (h : m.caller ≠ t) : ofCaller t [m] = [] := by
  simp [ofCaller, h]

theorem ofCaller_eq_nil {t : T} {ms : List (Message T)} (h : ∀ m ∈ ms, m.caller ≠ t) :
    ofCaller t ms = [] := by
  rw [ofCaller, List.filter_eq_nil_iff]
  intro m hm
  simpa using h m hm

/-- Each thread's messages, admitted or in flight, are among its calls and in
their order; the loop thread's never wait in the queue. -/
structure Ordered (loopThread : T) (s : State T) : Prop where
  order : ∀ t, (ofCaller t (admitted s) ++ inFlight (s.call t)).Sublist (ofCaller t s.called)
  caller : ∀ t, ∀ m ∈ inFlight (s.call t), m.caller = t
  foreign : ∀ m ∈ waiting s.rest ++ waiting s.pending, m.caller ≠ loopThread

theorem ordered_start {s : State T} (h : Start s) : Ordered loopThread s where
  order t := by
    rw [admitted, h.accepted, h.rest, h.pending, h.call t]
    exact List.nil_sublist _
  caller t m hm := by
    rw [h.call t] at hm
    exact absurd hm List.not_mem_nil
  foreign m hm := by
    rw [h.rest, h.pending] at hm
    exact absurd hm List.not_mem_nil

/-- Steps that leave messages where they are. -/
theorem Ordered.congr {s s' : State T} (h : Ordered loopThread s)
    (hadmitted : admitted s' = admitted s) (hcalled : s'.called = s.called)
    (hcall : ∀ t, inFlight (s'.call t) = inFlight (s.call t))
    (hwaiting : waiting s'.rest ++ waiting s'.pending = waiting s.rest ++ waiting s.pending) :
    Ordered loopThread s' where
  order t := by
    rw [hadmitted, hcalled, hcall]
    exact h.order t
  caller t := by
    rw [hcall]
    exact h.caller t
  foreign := by
    rw [hwaiting]
    exact h.foreign

theorem Ordered.perform {s : State T} (h : Ordered loopThread s)
    (f : Endpoint Unit → Endpoint Unit) : Ordered loopThread (s.perform f) := by
  have hpending := waiting_perform s f
  refine h.congr ?_ rfl (fun _ => rfl) ?_
  · rw [admitted, hpending]
    rfl
  · rw [hpending]
    rfl

theorem inFlight_setCall {s : State T} {t : T} {c : Call T} (hc : inFlight c = [])
    (ht : inFlight (s.call t) = []) (u : T) :
    inFlight ((s.setCall t c).call u) = inFlight (s.call u) := by
  show inFlight (Function.update s.call t c u) = inFlight (s.call u)
  by_cases hut : u = t
  · subst hut
    rw [Function.update_self, hc, ht]
  · rw [Function.update_of_ne hut]

/-- A step of a thread that holds no message. -/
theorem Ordered.setCall {s : State T} (h : Ordered loopThread s) {t : T} {c : Call T}
    (hc : inFlight c = []) (ht : inFlight (s.call t) = []) :
    Ordered loopThread (s.setCall t c) :=
  h.congr rfl rfl (inFlight_setCall hc ht) rfl

/-- A message moves from the caller `t` into the admitted ones, behind all
earlier messages of `t`, or is given up. -/
theorem Ordered.admit {s s' : State T} (h : Ordered loopThread s) {t : T} {m : Message T}
    (ht : s.call t = .sending m) (hcall : s'.call = Function.update s.call t .idle)
    (hcalled : s'.called = s.called)
    (hadmitted : ∀ u, (ofCaller u (admitted s')).Sublist
      (ofCaller u (admitted s) ++ ofCaller u [m]))
    (hforeign : ∀ m ∈ waiting s'.rest ++ waiting s'.pending, m.caller ≠ loopThread) :
    Ordered loopThread s' where
  order u := by
    have horder := h.order u
    have hu := hadmitted u
    rw [hcalled, hcall]
    by_cases hut : u = t
    · subst hut
      have hcaller : m.caller = u := h.caller u m (by simp [ht, inFlight])
      rw [Function.update_self, inFlight_idle, List.append_nil]
      rw [ofCaller_self hcaller] at hu
      rw [ht, inFlight_sending] at horder
      exact hu.trans horder
    · have hcaller : m.caller ≠ u := fun heq => hut (by
        rw [← heq]
        exact h.caller t m (by simp [ht, inFlight]))
      rw [Function.update_of_ne hut]
      rw [ofCaller_other hcaller, List.append_nil] at hu
      exact (hu.append_right _).trans horder
  caller u n hn := by
    rw [hcall] at hn
    by_cases hut : u = t
    · subst hut
      rw [Function.update_self] at hn
      exact absurd hn List.not_mem_nil
    · rw [Function.update_of_ne hut] at hn
      exact h.caller u n hn
  foreign := hforeign

/-- The call of `send` on the loop thread: nothing of that thread is waiting, so
the message goes right behind the accepted ones. -/
theorem Ordered.sendDirect {s : State T} (h : Ordered loopThread s) {m : Message T}
    (ht : s.call loopThread = .sending m) (res : WriteResult) :
    Ordered loopThread ((s.setCall loopThread .idle).sendInLoop m res) := by
  have hpending := waiting_sendInLoop (s.setCall loopThread .idle) m res
  have hcaller : m.caller = loopThread := h.caller loopThread m (by simp [ht, inFlight])
  refine h.admit ht rfl rfl (fun u => ?_) ?_
  · by_cases hd : (s.setCall loopThread .idle).conn.Drops res
    · rw [State.sendInLoop_dropped hd]
      exact List.sublist_append_left _ _
    · have hadmitted : admitted ((s.setCall loopThread .idle).sendInLoop m res) =
          s.accepted ++ [m] ++ (waiting s.rest ++ waiting s.pending) := by
        rw [admitted, hpending, State.accepted_sendInLoop hd, List.append_assoc]
        rfl
      rw [hadmitted, ofCaller_append u (s.accepted ++ [m]), ofCaller_append u s.accepted [m],
        admitted, List.append_assoc s.accepted, ofCaller_append u s.accepted]
      by_cases hu : u = loopThread
      · have hnone : ofCaller u (waiting s.rest ++ waiting s.pending) = [] :=
          ofCaller_eq_nil fun n hn => hu ▸ h.foreign n hn
        rw [hnone, List.append_nil, List.append_nil]
      · have hother : ofCaller u [m] = [] := ofCaller_other fun heq => hu (heq.symm.trans hcaller)
        rw [hother, List.append_nil, List.append_nil]
  · rw [hpending]
    exact h.foreign

theorem Ordered.sendQueue {s : State T} (h : Ordered loopThread s) {t : T} {m : Message T}
    (ht : s.call t = .sending m) (hne : t ≠ loopThread) :
    Ordered loopThread { s.setCall t .idle with pending := s.pending ++ [.sendInLoop m] } := by
  have hwaiting : waiting (s.pending ++ [.sendInLoop m]) = waiting s.pending ++ [m] :=
    waiting_append _ _
  have hcaller : m.caller = t := h.caller t m (by simp [ht, inFlight])
  refine h.admit ht rfl rfl (fun u => ?_) ?_
  · show (ofCaller u (s.accepted ++ waiting s.rest ++
      waiting (s.pending ++ [.sendInLoop m]))).Sublist _
    rw [hwaiting, ← List.append_assoc, ofCaller_append]
    exact List.Sublist.refl _
  · intro n hn
    simp only [hwaiting, ← List.append_assoc] at hn
    rcases List.mem_append.mp hn with hn | hn
    · exact h.foreign n hn
    · obtain rfl := List.mem_singleton.mp hn
      exact hcaller ▸ hne

theorem Ordered.sendTest {s : State T} (h : Ordered loopThread s) {t : T}
    (hidle : s.call t = .idle) (payload : List Byte) :
    Ordered loopThread (State.setCall { s with called := s.called ++ [⟨t, payload⟩] } t
      (.sending ⟨t, payload⟩)) where
  order u := by
    have horder := h.order u
    show (ofCaller u (admitted s) ++ inFlight (Function.update s.call t _ u)).Sublist
      (ofCaller u (s.called ++ [⟨t, payload⟩]))
    rw [ofCaller_append]
    by_cases hut : u = t
    · subst hut
      have hself : ofCaller u [(⟨u, payload⟩ : Message T)] = [⟨u, payload⟩] := ofCaller_self rfl
      rw [hidle, inFlight_idle, List.append_nil] at horder
      rw [Function.update_self, inFlight_sending, hself]
      exact horder.append_right _
    · rw [Function.update_of_ne hut]
      exact horder.trans (List.sublist_append_left _ _)
  caller u n hn := by
    by_cases hut : u = t
    · subst hut
      simp only [State.setCall, Function.update_self, inFlight, List.mem_singleton] at hn
      rw [hn]
    · simp only [State.setCall, Function.update_of_ne hut] at hn
      exact h.caller u n hn
  foreign := h.foreign

theorem Ordered.sendRefused {s : State T} (h : Ordered loopThread s) (t : T)
    (payload : List Byte) :
    Ordered loopThread { s with called := s.called ++ [⟨t, payload⟩] } where
  order u := by
    show List.Sublist _ (ofCaller u (s.called ++ [⟨t, payload⟩]))
    rw [ofCaller_append]
    exact (h.order u).trans (List.sublist_append_left _ _)
  caller := h.caller
  foreign := h.foreign

/-- The head of the batch is accepted or given up. -/
theorem Ordered.runSend {s : State T} (h : Ordered loopThread s) {m : Message T}
    {rest : List (Functor T)} (hrest : s.rest = .sendInLoop m :: rest) (res : WriteResult) :
    Ordered loopThread ({ s with rest := rest }.sendInLoop m res) := by
  have hpending := waiting_sendInLoop { s with rest := rest } m res
  have hhead : waiting s.rest = m :: waiting rest := by
    rw [hrest]
    rfl
  have hsub : (admitted ({ s with rest := rest }.sendInLoop m res)).Sublist (admitted s) := by
    rw [admitted, admitted, hpending, hhead]
    refine List.Sublist.append_right ?_ _
    by_cases hd : s.conn.Drops res
    · have hdrop : { s with rest := rest }.sendInLoop m res = { s with rest := rest } :=
        State.sendInLoop_dropped hd
      rw [hdrop]
      exact (List.sublist_cons_self m _).append_left _
    · have hkept : ({ s with rest := rest }.sendInLoop m res).accepted = s.accepted ++ [m] :=
        State.accepted_sendInLoop hd
      rw [hkept, List.append_assoc]
      exact List.Sublist.refl _
  refine ⟨fun t => ?_, h.caller, fun n hn => h.foreign n ?_⟩
  · exact ((hsub.filter _).append_right _).trans (h.order t)
  · rw [hpending] at hn
    rw [hhead]
    exact List.mem_cons_of_mem m hn

/-- A functor that carries no message leaves the batch. -/
theorem Ordered.skip {s : State T} (h : Ordered loopThread s) {cb : Functor T}
    {rest : List (Functor T)} (hrest : s.rest = cb :: rest) (hcb : message? cb = none) :
    Ordered loopThread { s with rest := rest } := by
  have hwaiting : waiting rest = waiting s.rest := by
    rw [hrest, waiting, waiting, List.filterMap_cons_none hcb]
  refine h.congr ?_ rfl (fun _ => rfl) ?_
  · rw [admitted, admitted, hwaiting]
  · rw [hwaiting]

theorem ordered_move {s s' : State T} {a : Label T} (h : Ordered loopThread s)
    (hmove : Move loopThread s a s') : Ordered loopThread s' := by
  cases hmove with
  | sendTest hu _ => exact h.sendTest hu.1 _
  | sendRefused => exact h.sendRefused _ _
  | sendDirect ht _ => exact h.sendDirect ht _
  | sendQueue ht hne => exact h.sendQueue ht hne
  | shutdownTest hu _ => exact h.setCall rfl (by rw [hu.1]; rfl)
  | shutdownRefused => exact h
  | store ht =>
    have hstored := h.setCall (c := .shutting) rfl (by rw [ht]; rfl)
    exact ⟨hstored.order, hstored.caller, hstored.foreign⟩
  | shutdownDirect ht =>
    have hset := (h.setCall (c := .idle) rfl (by rw [ht]; rfl)).perform Endpoint.shutdownInLoop
    exact ⟨hset.order, hset.caller, hset.foreign⟩
  | @shutdownQueue t ht _ =>
    -- `waiting` looks at the sends only
    have hwaiting : waiting (s.pending ++ [Functor.shutdownInLoop]) = waiting s.pending := by
      rw [waiting_append]
      exact List.append_nil _
    refine h.congr ?_ rfl (inFlight_setCall rfl (by rw [ht]; rfl)) ?_
    · show s.accepted ++ waiting s.rest ++ waiting (s.pending ++ [.shutdownInLoop]) = _
      rw [hwaiting, admitted]
    · show waiting s.rest ++ waiting (s.pending ++ [.shutdownInLoop]) = _
      rw [hwaiting]
  | established =>
    have hperform := h.perform (Endpoint.connectionEstablished ())
    exact ⟨hperform.order, hperform.caller, hperform.foreign⟩
  | swap _ hrest =>
    refine h.congr ?_ rfl (fun _ => rfl) ?_
    · rw [admitted, admitted, hrest]
      simp [waiting]
    · rw [hrest]
      simp [waiting]
  | runSend _ hrest _ => exact h.runSend hrest _
  | runShutdown _ hrest =>
    have hperform := (h.skip hrest rfl).perform Endpoint.shutdownInLoop
    exact ⟨hperform.order, hperform.caller, hperform.foreign⟩
  | runNotice _ hrest => exact h.skip hrest rfl
  | endOfFile =>
    have hperform := h.perform (Endpoint.handleClose ())
    exact ⟨hperform.order, hperform.caller, hperform.foreign⟩
  | handleRead => exact h.perform _
  | @handleWrite res =>
    have hperform := h.perform (Endpoint.handleWrite () res)
    exact ⟨hperform.order, hperform.caller, hperform.foreign⟩
  | handleClose =>
    have hperform := h.perform (Endpoint.handleClose ())
    exact ⟨hperform.order, hperform.caller, hperform.foreign⟩
  | handleError => exact h.perform _
  | retrieve => exact ⟨h.order, h.caller, h.foreign⟩
  | destroyedFound => exact ⟨h.order, h.caller, h.foreign⟩
  | destroyedSkips => exact ⟨h.order, h.caller, h.foreign⟩
  | disconnect =>
    have hperform := h.perform (Endpoint.disconnect ())
    exact ⟨hperform.order, hperform.caller, hperform.foreign⟩
  | remove =>
    have hperform := h.perform (Endpoint.removeChannel ())
    exact ⟨hperform.order, hperform.caller, hperform.foreign⟩

theorem ordered_reachable {s : State T} (hs : (system loopThread).Reachable s) :
    Ordered loopThread s :=
  Machine.Reachable.invariant (I := Ordered loopThread) (fun _ h => ordered_start h)
    (fun _ _ _ h hstep => ordered_move h (move_of_system hstep).2) hs

end Order

/-! ### Messages given up -/

section Whole

variable [DecidableEq T] (loopThread : T)

/-- The step runs `sendInLoop` for `m`; `res` is the answer if it comes to `::write`. -/
inductive Sends (s : State T) : Label T → Message T → WriteResult → Prop
  | direct {m : Message T} {res : WriteResult} : s.call loopThread = .sending m →
      Sends s (.sendBody loopThread res) m res
  | queued {m : Message T} {rest : List (Functor T)} {res : WriteResult} :
      s.rest = .sendInLoop m :: rest → Sends s (.runFunctor res) m res

/-- The connection is down, or the peer has closed it and the direct write says so. -/
def GivesUp (c : TcpConnection) (res : WriteResult) : Prop :=
  c.state = .kDisconnected ∨ c.writesDirectly = true ∧ res.isReset = true

instance (c : TcpConnection) (res : WriteResult) : Decidable (GivesUp c res) :=
  inferInstanceAs (Decidable (_ ∨ _))

/-- `s'` is `s` as far as the output goes. -/
def SameOutput (s s' : State T) : Prop :=
  s'.wire = s.wire ∧ s'.conn.outputBuffer.content = s.conn.outputBuffer.content ∧
    s'.conn.channel = s.conn.channel

/-- A message is accepted when its `sendInLoop` runs, or given up, which changes nothing,
just where the connection is down or closed by its peer. -/
def Whole (s : State T) (a : Label T) (s' : State T) : Prop :=
  (∀ m res, Sends loopThread s a m res →
    if GivesUp s.conn res then s'.accepted = s.accepted ∧ SameOutput s s'
    else s'.accepted = s.accepted ++ [m]) ∧
  ((∀ m res, ¬ Sends loopThread s a m res) → s'.accepted = s.accepted)

/-- When a `sendInLoop` runs its message is accepted, unless it is given up, which changes
nothing: no other message is lost, and none in part. -/
def DropsOnly (s : State T) (a : Label T) (s' : State T) : Prop :=
  (∀ m res, Sends loopThread s a m res → s'.accepted = s.accepted ++ [m] ∨
    GivesUp s.conn res ∧ s'.accepted = s.accepted ∧ SameOutput s s') ∧
  ((∀ m res, ¬ Sends loopThread s a m res) → s'.accepted = s.accepted)

/-- If a direct write fails for another reason, `LOG_ERROR` leaves neither `EPIPE` nor
`ECONNRESET` in `errno`. -/
def FaultIsReset (s : State T) (a : Label T) : Prop :=
  ∀ m res, Sends loopThread s a m res → s.conn.state ≠ .kDisconnected →
    s.conn.writesDirectly = true → res.isFault = true → res.isReset = true

/-- If a direct write fails, `LOG_ERROR` leaves `errno` on its side: one of `EPIPE` and
`ECONNRESET`, or neither. -/
def Undistorted (s : State T) (a : Label T) : Prop :=
  ∀ m res, Sends loopThread s a m res → s.conn.state ≠ .kDisconnected →
    s.conn.writesDirectly = true → res.isFault = res.isReset

/-- The stream is that of the accepted messages, those of one thread are in its call order,
and an open connection is half closed only with an empty buffer. -/
structure Streams (s : State T) : Prop where
  stream : s.wire ++ s.conn.outputBuffer.content = s.accepted.flatMap Message.payload
  order : ∀ t, (s.accepted.filter fun m => m.caller = t).Sublist
    (s.called.filter fun m => m.caller = t)
  halfClose : s.closed = false → ∀ n ∈ halfCloses s.trace, n = 0

variable {loopThread} {s s' : State T} {a : Label T}

theorem Inv.streams (h : Inv s) (hord : Ordered loopThread s) : Streams s where
  stream := h.stream
  order t := by
    -- the accepted messages are the first of the admitted ones
    have hprefix : (ofCaller t s.accepted).Sublist (ofCaller t (admitted s)) := by
      rw [admitted, List.append_assoc]
      exact (List.sublist_append_left _ _).filter _
    exact hprefix.trans ((List.sublist_append_left _ _).trans (hord.order t))
  halfClose := h.unsent

omit [DecidableEq T] in
theorem Sends.unique {m m' : Message T} {res res' : WriteResult}
    (h : Sends loopThread s a m res) (h' : Sends loopThread s a m' res') :
    m' = m ∧ res' = res := by
  cases h with
  | direct hcall =>
    cases h' with
    | direct hcall' => exact ⟨Call.sending.inj (hcall'.symm.trans hcall), rfl⟩
  | queued hrest =>
    cases h' with
    | queued hrest' =>
      exact ⟨Functor.sendInLoop.inj (List.cons.inj (hrest'.symm.trans hrest)).1, rfl⟩

omit [DecidableEq T] in
theorem dropsOnly_sendInLoop_iff (m : Message T) (res : WriteResult) :
    ((s.sendInLoop m res).accepted = s.accepted ++ [m] ∨
      GivesUp s.conn res ∧ (s.sendInLoop m res).accepted = s.accepted ∧
        SameOutput s (s.sendInLoop m res)) ↔
      (s.conn.state ≠ .kDisconnected → s.conn.writesDirectly = true →
        res.isFault = true → res.isReset = true) := by
  by_cases hd : s.conn.Drops res
  · rw [State.sendInLoop_dropped hd]
    have hself : s.accepted ≠ s.accepted ++ [m] := by simp
    constructor
    · rintro (haccepted | ⟨hgive, -⟩) hstate - -
      · exact absurd haccepted hself
      · exact (hgive.resolve_left hstate).2
    · intro hreset
      refine .inr ⟨?_, rfl, rfl, rfl, rfl⟩
      by_cases hstate : s.conn.state = .kDisconnected
      · exact .inl hstate
      · obtain ⟨hdirect, hfault⟩ := hd.resolve_left hstate
        exact .inr ⟨hdirect, hreset hstate hdirect hfault⟩
  · refine iff_of_true (.inl (State.accepted_sendInLoop hd)) fun _ hdirect hfault => ?_
    exact absurd (.inr ⟨hdirect, hfault⟩) hd

omit [DecidableEq T] in
/-- The message is taken for what it is exactly when the second `errno` says what the first
one does. -/
theorem whole_sendInLoop_iff (m : Message T) (res : WriteResult) :
    (if GivesUp s.conn res then
        (s.sendInLoop m res).accepted = s.accepted ∧ SameOutput s (s.sendInLoop m res)
      else (s.sendInLoop m res).accepted = s.accepted ++ [m]) ↔
      (s.conn.state ≠ .kDisconnected → s.conn.writesDirectly = true →
        res.isFault = res.isReset) := by
  have hself : s.accepted ++ [m] ≠ s.accepted := by simp
  by_cases hgive : GivesUp s.conn res
  · rw [if_pos hgive]
    constructor
    · rintro ⟨haccepted, -⟩ hstate hdirect
      by_cases hd : s.conn.Drops res
      · rw [(hd.resolve_left hstate).2, (hgive.resolve_left hstate).2]
      · rw [State.accepted_sendInLoop hd] at haccepted
        exact absurd haccepted hself
    · intro hsame
      have hd : s.conn.Drops res := by
        by_cases hstate : s.conn.state = .kDisconnected
        · exact .inl hstate
        · obtain ⟨hdirect, hreset⟩ := hgive.resolve_left hstate
          exact .inr ⟨hdirect, (hsame hstate hdirect).trans hreset⟩
      rw [State.sendInLoop_dropped hd]
      exact ⟨rfl, rfl, rfl, rfl⟩
  · rw [if_neg hgive]
    constructor
    · intro haccepted hstate hdirect
      have hreset : res.isReset = false := by
        by_contra hreset
        exact hgive (.inr ⟨hdirect, by simpa using hreset⟩)
      have hfault : res.isFault = false := by
        by_contra hfault
        rw [State.sendInLoop_dropped (.inr ⟨hdirect, by simpa using hfault⟩)] at haccepted
        exact hself haccepted.symm
      rw [hfault, hreset]
    · intro hsame
      refine State.accepted_sendInLoop fun hd => hgive ?_
      by_cases hstate : s.conn.state = .kDisconnected
      · exact .inl hstate
      · obtain ⟨hdirect, hfault⟩ := hd.resolve_left hstate
        exact .inr ⟨hdirect, (hsame hstate hdirect).symm.trans hfault⟩

/-- Only `sendInLoop` accepts messages. -/
theorem accepted_move (hmove : Move loopThread s a s')
    (hnot : ∀ m res, ¬ Sends loopThread s a m res) : s'.accepted = s.accepted := by
  cases hmove with
  | sendDirect hcall => exact absurd (.direct hcall) (hnot _ _)
  | runSend _ hrest => exact absurd (.queued hrest) (hnot _ _)
  | _ => rfl

/-- The member starts in a state with the connection and the messages of `s`. -/
theorem Sends.starts {m : Message T} {res : WriteResult} (hs : Sends loopThread s a m res)
    (hmove : Move loopThread s a s') :
    ∃ s₁ : State T, s₁.conn = s.conn ∧ s₁.accepted = s.accepted ∧ s₁.wire = s.wire ∧
      s' = s₁.sendInLoop m res := by
  cases hmove with
  | sendDirect hcall =>
    obtain ⟨rfl, rfl⟩ := hs.unique (.direct hcall)
    exact ⟨s.setCall loopThread .idle, rfl, rfl, rfl, rfl⟩
  | @runSend _ rest _ _ hrest =>
    obtain ⟨rfl, rfl⟩ := hs.unique (.queued hrest)
    exact ⟨{ s with rest := rest }, rfl, rfl, rfl, rfl⟩
  | sendQueue _ hne =>
    cases hs
    exact absurd rfl hne
  | runShutdown _ hrest =>
    cases hs with
    | queued hhead => exact absurd (hrest.symm.trans hhead) (by simp)
  | runNotice _ hrest =>
    cases hs with
    | queued hhead => exact absurd (hrest.symm.trans hhead) (by simp)
  | _ => contradiction

theorem dropsOnly_iff (hmove : Move loopThread s a s') :
    DropsOnly loopThread s a s' ↔ FaultIsReset loopThread s a := by
  rw [DropsOnly, and_iff_left (accepted_move hmove), FaultIsReset]
  refine forall₂_congr fun m res => forall_congr' fun hs => ?_
  obtain ⟨s₁, hconn, haccepted, hwire, rfl⟩ := hs.starts hmove
  have hiff := dropsOnly_sendInLoop_iff (s := s₁) m res
  rwa [SameOutput, hconn, haccepted, hwire] at hiff

theorem whole_iff (hmove : Move loopThread s a s') :
    Whole loopThread s a s' ↔ Undistorted loopThread s a := by
  rw [Whole, and_iff_left (accepted_move hmove), Undistorted]
  refine forall₂_congr fun m res => forall_congr' fun hs => ?_
  obtain ⟨s₁, hconn, haccepted, hwire, rfl⟩ := hs.starts hmove
  have hiff := whole_sendInLoop_iff (s := s₁) m res
  rwa [SameOutput, hconn, haccepted, hwire] at hiff

/-- In every interleaving the stream is that of the accepted messages, in the callers'
order, and is cut off by no half close.  A message is given up only where the connection is
down or the peer has closed it, if and only if `LOG_ERROR` makes no other error of a direct
write look like that; and it is given up everywhere there, if and only if `LOG_ERROR`
distorts the `errno` of no direct write. -/
theorem stream_iff (h : (system loopThread).init s) (as : List (Label T)) :
    (((system loopThread).Throughout Streams s as ∧
        (system loopThread).StepsRelate (DropsOnly loopThread) s as) ↔
      (system loopThread).StepsMeet (FaultIsReset loopThread) s as) ∧
    (((system loopThread).Throughout Streams s as ∧
        (system loopThread).StepsRelate (Whole loopThread) s as) ↔
      (system loopThread).StepsMeet (Undistorted loopThread) s as) := by
  have hstep : ∀ u b v, Inv u ∧ Ordered loopThread u → (system loopThread).step u b = some v →
      Inv v ∧ Ordered loopThread v := fun _ _ _ hu hv =>
    ⟨inv_move hu.1 (move_of_system hv).2, ordered_move hu.2 (move_of_system hv).2⟩
  have hstart : Inv s ∧ Ordered loopThread s := ⟨inv_start h, ordered_start h⟩
  have hstreams : (system loopThread).Throughout Streams s as :=
    Machine.Throughout.of_invariant hstep (fun _ hu => hu.1.streams hu.2) as hstart
  -- the stream is right in every run, so the condition is about the messages given up
  rw [and_iff_right hstreams, and_iff_right hstreams]
  constructor
  · exact Machine.stepsRelate_iff_stepsMeet (P := FaultIsReset loopThread)
      (R := DropsOnly loopThread) (fun u b v hu _ hv => hstep u b v hu hv)
      (fun _ _ _ _ hv => dropsOnly_iff (move_of_system hv).2) as hstart
  · exact Machine.stepsRelate_iff_stepsMeet (P := Undistorted loopThread)
      (R := Whole loopThread) (fun u b v hu _ hv => hstep u b v hu hv)
      (fun _ _ _ _ hv => whole_iff (move_of_system hv).2) as hstart

/-- Thread 1 sends two bytes, of which the loop thread 0 gets one out. -/
def sendTwo : List (Label ℕ) :=
  [.connectionEstablished, .send 1 [7, 8], .sendBody 1 (.wrote 0), .swap, .runFunctor (.wrote 1)]

theorem stream_iff_partial :
    (((system 0).Throughout Streams fresh sendTwo ∧
        (system 0).StepsRelate (DropsOnly 0) fresh sendTwo) ↔
      (system 0).StepsMeet (FaultIsReset 0) fresh sendTwo) ∧
    (((system 0).Throughout Streams fresh sendTwo ∧
        (system 0).StepsRelate (Whole 0) fresh sendTwo) ↔
      (system 0).StepsMeet (Undistorted 0) fresh sendTwo) :=
  stream_iff (start_make (TcpConnection.make_fresh 5 false)) _

end Whole

/-- `::write` fails with `ETIMEDOUT`, but `LOG_ERROR` leaves `ECONNRESET` in `errno`: the
message is given up. -/
theorem distorted_errno_drops :
    ∃ s s' : State ℕ, (system 0).Reachable s ∧
      (system 0).step s (.sendBody 0 (.failed (.other 110) .ECONNRESET)) = some s' ∧
      s.call 0 = .sending ⟨0, [7, 8]⟩ ∧ s.conn.state = .kConnected ∧
      ¬ GivesUp s.conn (.failed (.other 110) .ECONNRESET) ∧
      s'.accepted = [] ∧ s'.wire = [] ∧ s'.conn.outputBuffer.content = [] ∧
      ¬ DropsOnly 0 s (.sendBody 0 (.failed (.other 110) .ECONNRESET)) s' := by
  have hrun : ∃ s s' : State ℕ, (system 0).run fresh
      [.connectionEstablished, .send 0 [7, 8]] = some s ∧
      (system 0).step s (.sendBody 0 (.failed (.other 110) .ECONNRESET)) = some s' ∧
      s.call 0 = .sending ⟨0, [7, 8]⟩ ∧ s.conn.state = .kConnected ∧
      ¬ GivesUp s.conn (.failed (.other 110) .ECONNRESET) ∧ s.accepted = [] ∧
      s'.accepted = [] ∧ s'.wire = [] ∧ s'.conn.outputBuffer.content = [] :=
    ⟨_, _, rfl, rfl, rfl, rfl, by decide, rfl, rfl, rfl, rfl⟩
  obtain ⟨s, s', hs, hstep, hcall, hstate, hkept, hbefore, hafter, hwire, hcontent⟩ := hrun
  refine ⟨s, s', reachable_make (TcpConnection.make_fresh 5 false) hs, hstep, hcall, hstate,
    hkept, hafter, hwire, hcontent, fun hdrops => ?_⟩
  rcases hdrops.1 _ _ (.direct hcall) with haccepted | ⟨hgive, -⟩
  · rw [hbefore, hafter] at haccepted
    contradiction
  · exact hkept hgive

end OutputStream

end ConnectionLoop

end Moduo
