/-
`connectionDestroyed` is terminal.

* `destroyed_terminal` — after `connectionDestroyed` the connection is
  `kDisconnected`, its channel has no events and no registration, exactly one
  down callback has been delivered, and later tasks find nothing to do; in every
  run whose steps meet `Meets`.

`Meets` excludes what the code misses: `connectionDestroyed` tests for
`kConnected` only, so a half close that is still pending skips the whole
cleanup; and the store of `shutdown` may overwrite `kDisconnected`.  It also says
what event dispatch guarantees, that a connection is closed by an event only
while the kernel listens to its channel.

A connection is `Raw`, then `Up`, then `Down`; the invariant says which, and that
the registration of the channel follows.
-/
import Moduo.ConnectionLoop

namespace Moduo

namespace ConnectionLoop

namespace Teardown

variable {T : Type*}

/-- The kernel listens to the channel. -/
def Listening (s : State T) : Prop := ∃ e, s.poller.epoll s.conn.channel.fd = some e

/-- The step cleans up, or has nothing to clean up. -/
def Meets (s : State T) : Label T → Prop
  | .connectionDestroyed => s.conn.state ≠ .kDisconnecting
  | .store _ => s.conn.state ≠ .kDisconnected
  | .handleClose => Listening s
  | .handleRead (.read []) => Listening s
  | _ => True

/-! ### The life of a connection -/

structure Raw (s : State T) : Prop where
  established : s.established = false
  state : s.conn.state = .kConnecting
  registration : s.endpoint.Unregistered
  downs : downs s.trace = 0
  call : ∀ t, s.call t = .idle
  pending : s.pending = []
  rest : s.rest = []
  destroying : s.destroying = .outside
  destroyed : s.destroyed = false

structure Up (s : State T) : Prop where
  established : s.established = true
  state : s.conn.state = .kConnected ∨ s.conn.state = .kDisconnecting
  registration : s.endpoint.Registered ()
  downs : downs s.trace = 0

structure Down (s : State T) : Prop where
  established : s.established = true
  state : s.conn.state = .kDisconnected
  registration : s.endpoint.Silenced () ∨ s.endpoint.Unregistered
  downs : downs s.trace = 1

structure Inv (s : State T) : Prop where
  alone : ∀ fd, fd ≠ s.conn.channel.fd →
    s.poller.channels fd = none ∧ s.poller.epoll fd = none
  phase : Raw s ∨ Up s ∨ Down s
  found : s.destroying = .found → Up s
  removing : s.destroying = .removing → Down s
  destroyed : s.destroyed = true → Down s ∧ s.endpoint.Unregistered

variable {s s' : State T}

theorem Down.events (h : Down s) : s.conn.channel.events = 0 := by
  rcases h.registration with hs | hu
  · exact hs.events
  · exact hu.events

theorem Down.not_listening (h : Down s) : ¬ Listening s := by
  rintro ⟨e, he⟩
  have hnone : s.poller.epoll s.conn.channel.fd = none := by
    rcases h.registration with hs | hu
    · exact hs.epoll
    · exact hu.epoll
  rw [hnone] at he
  exact absurd he (by simp)

theorem Down.not_up (h : Down s) (hu : Up s) : False := by
  rcases hu.state with hst | hst
  · exact absurd (h.state.symm.trans hst) (by simp)
  · exact absurd (h.state.symm.trans hst) (by simp)

theorem inv_start (h : Start s) : Inv s := by
  have hidle : s.conn.channel.index = .kNew ∧ s.conn.channel.events = 0 := by
    rw [h.fresh.channel]
    exact ⟨rfl, rfl⟩
  have hraw : Raw s := by
    refine ⟨h.established, h.fresh.state, ⟨hidle.1, hidle.2, ?_, ?_⟩, ?_, h.call, h.pending, h.rest,
      h.destroying, h.destroyed⟩
    · rw [State.endpoint, h.poller]
      rfl
    · rw [State.endpoint, h.poller]
      rfl
    · rw [h.trace]
      rfl
  refine ⟨fun fd _ => ?_, .inl hraw, fun hd => ?_, fun hd => ?_, fun hd => ?_⟩
  · rw [h.poller]
    exact ⟨rfl, rfl⟩
  · rw [h.destroying] at hd
    exact absurd hd (by simp)
  · rw [h.destroying] at hd
    exact absurd hd (by simp)
  · rw [h.destroyed] at hd
    exact absurd hd (by simp)

/-! ### Steps that stay in a phase -/

/-- What the invariant reads apart from calls and queues is as before. -/
structure Same (s s' : State T) : Prop where
  established : s'.established = s.established
  state : s'.conn.state = s.conn.state
  channel : s'.conn.channel = s.conn.channel
  poller : s'.poller = s.poller
  downs : downs s'.trace = downs s.trace
  destroying : s'.destroying = s.destroying
  destroyed : s'.destroyed = s.destroyed

theorem Up.congr (h : Up s) (hsame : Same s s') : Up s' where
  established := hsame.established.trans h.established
  state := by
    rw [hsame.state]
    exact h.state
  registration := h.registration.of_eq hsame.channel hsame.poller
  downs := hsame.downs.trans h.downs

theorem Same.unregistered (hsame : Same s s') (h : s.endpoint.Unregistered) :
    s'.endpoint.Unregistered := by
  have hchannel : s'.endpoint.conn.channel = s.endpoint.conn.channel := hsame.channel
  have hpoller : s'.endpoint.poller = s.endpoint.poller := hsame.poller
  refine ⟨?_, ?_, ?_, ?_⟩
  · rw [hchannel, h.index]
  · rw [hchannel, h.events]
  · rw [hchannel, hpoller, h.channels]
  · rw [hchannel, hpoller, h.epoll]

theorem Down.congr (h : Down s) (hsame : Same s s') : Down s' where
  established := hsame.established.trans h.established
  state := hsame.state.trans h.state
  registration := by
    have hchannel : s'.endpoint.conn.channel = s.endpoint.conn.channel := hsame.channel
    have hpoller : s'.endpoint.poller = s.endpoint.poller := hsame.poller
    rcases h.registration with hs | hu
    · refine .inl ⟨?_, ?_, ?_, ?_⟩
      · rw [hchannel, hs.index]
      · rw [hchannel, hs.events]
      · rw [hchannel, hpoller, hs.channels]
      · rw [hchannel, hpoller, hs.epoll]
    · exact .inr (hsame.unregistered hu)
  downs := hsame.downs.trans h.downs

theorem Inv.up_or_down (h : Inv s) (he : s.established = true) : Up s ∨ Down s := by
  rcases h.phase with hraw | hphase
  · exact absurd (hraw.established.symm.trans he) (by simp)
  · exact hphase

/-- Steps on calls and queues. -/
theorem Inv.congr (h : Inv s) (hraw : Raw s → Raw s') (hsame : Same s s') : Inv s' where
  alone fd hne := by
    rw [hsame.channel] at hne
    rw [hsame.poller]
    exact h.alone fd hne
  phase := by
    rcases h.phase with hr | hu | hd
    · exact .inl (hraw hr)
    · exact .inr (.inl (hu.congr hsame))
    · exact .inr (.inr (hd.congr hsame))
  found hd := (h.found (hsame.destroying.symm.trans hd)).congr hsame
  removing hd := (h.removing (hsame.destroying.symm.trans hd)).congr hsame
  destroyed hd :=
    let hdown := h.destroyed (hsame.destroyed.symm.trans hd)
    ⟨hdown.1.congr hsame, hsame.unregistered hdown.2⟩

/-- A member that keeps the state, keeps a registered channel registered, and
does nothing to a connection that is down. -/
structure Gentle (f : Endpoint Unit → Endpoint Unit) (e : Endpoint Unit) : Prop where
  state : (f e).conn.state = e.conn.state
  downs : downs (f e).trace = downs e.trace
  keeps : e.Registered () → (f e).Registered () ∧ e.Frame (f e)
  rests : e.conn.state = .kDisconnected → e.conn.channel.events = 0 →
    (f e).conn.channel = e.conn.channel ∧ (f e).poller = e.poller

theorem gentle_sendInLoop (message : List Byte) (res : WriteResult) (e : Endpoint Unit) :
    Gentle (Endpoint.sendInLoop () message res) e where
  state := (Endpoint.quiet_sendInLoop () message res e).state
  downs := (Endpoint.quiet_sendInLoop () message res e).downs
  keeps h := h.sendInLoop message res
  rests hst _ := by
    rw [Endpoint.sendInLoop_dropped (.inl hst)]
    exact ⟨rfl, rfl⟩

theorem gentle_shutdownInLoop (e : Endpoint Unit) : Gentle Endpoint.shutdownInLoop e where
  state := by
    rw [Endpoint.shutdownInLoop]
    split_ifs <;> rfl
  downs := by
    rw [Endpoint.shutdownInLoop]
    split_ifs
    · simp [Endpoint.emit, downs, Effect.isDown]
    · rfl
  keeps h := h.shutdownInLoop
  rests _ _ := by
    rw [Endpoint.shutdownInLoop]
    split_ifs
    · exact ⟨rfl, rfl⟩
    · exact ⟨rfl, rfl⟩

theorem gentle_handleWrite {e : Endpoint Unit} {res : WriteResult}
    (hadm : res.Admissible e.conn.unsent) : Gentle (Endpoint.handleWrite () res) e where
  state := (Endpoint.quiet_handleWrite () hadm).state
  downs := (Endpoint.quiet_handleWrite () hadm).downs
  keeps h := h.handleWrite hadm
  rests _ hevents := by
    have hoff : ¬ e.conn.channel.isWriting = true := by
      simp [Channel.isWriting, hevents]
    unfold Endpoint.handleWrite
    rw [if_neg hoff]
    exact ⟨rfl, rfl⟩

theorem gentle_handleRead {e : Endpoint Unit} {res : ReadResult} (hne : res ≠ .read []) :
    Gentle (Endpoint.handleRead () res) e := by
  cases res with
  | failed errno => exact ⟨rfl, rfl, fun h => ⟨h, Endpoint.Frame.refl e⟩, fun _ _ => ⟨rfl, rfl⟩⟩
  | read data =>
    cases data with
    | nil => exact absurd rfl hne
    | cons b bs =>
      refine ⟨rfl, ?_, fun h => ⟨h.of_eq rfl rfl, Endpoint.Frame.of_eq rfl rfl⟩,
        fun _ _ => ⟨rfl, rfl⟩⟩
      simp [Endpoint.handleRead, Endpoint.emit, downs, Effect.isDown]

theorem Inv.gentle (h : Inv s) (he : s.established = true) {f : Endpoint Unit → Endpoint Unit}
    (hf : Gentle f s.endpoint) : Inv (s.perform f) := by
  have hdowns : downs (s.perform f).trace = downs s.trace := by
    rw [State.downs_perform, hf.downs]
    exact Nat.add_zero _
  rcases h.up_or_down he with hu | hd
  · obtain ⟨hreg, hframe⟩ := hf.keeps hu.registration
    have hup : Up (s.perform f) := by
      refine ⟨hu.established, ?_, hreg.of_eq rfl rfl, hdowns.trans hu.downs⟩
      have hstate : (s.perform f).conn.state = s.conn.state := hf.state
      rw [hstate]
      exact hu.state
    refine ⟨fun fd hne => ?_, .inr (.inl hup), fun _ => hup,
      fun hr => ((h.removing hr).not_up hu).elim, fun hx => ((h.destroyed hx).1.not_up hu).elim⟩
    have hfd : fd ≠ s.conn.channel.fd := fun heq => hne (heq.trans hframe.fd.symm)
    exact ⟨(hframe.channels fd hfd).trans (h.alone fd hfd).1,
      (hframe.epoll fd hfd).trans (h.alone fd hfd).2⟩
  · obtain ⟨hchannel, hpoller⟩ := hf.rests hd.state hd.events
    exact h.congr (fun hr => absurd (hr.established.symm.trans he) (by simp))
      ⟨rfl, hf.state, hchannel, hpoller, hdowns, rfl, rfl⟩

/-! ### Steps between phases -/

/-- `handleClose` and `connectionDestroyed` take a connection down. -/
theorem Up.disconnect (h : Up s) : Down (s.perform (Endpoint.disconnect ())) := by
  obtain ⟨hs, -⟩ := h.registration.disconnect
  refine ⟨h.established, rfl, .inl ⟨hs.index, hs.events, hs.channels, hs.epoll⟩, ?_⟩
  rw [State.downs_perform, h.downs]
  rfl

theorem Inv.alone_frame (h : Inv s) {f : Endpoint Unit → Endpoint Unit}
    (hframe : s.endpoint.Frame (f s.endpoint)) (fd : ℕ)
    (hne : fd ≠ (f s.endpoint).conn.channel.fd) :
    (f s.endpoint).poller.channels fd = none ∧ (f s.endpoint).poller.epoll fd = none := by
  have hfd : fd ≠ s.conn.channel.fd := fun heq => hne (heq.trans hframe.fd.symm)
  exact ⟨(hframe.channels fd hfd).trans (h.alone fd hfd).1,
    (hframe.epoll fd hfd).trans (h.alone fd hfd).2⟩

theorem Inv.handleClose (h : Inv s) (he : s.established = true) (hl : Listening s)
    (hd : s.destroying = .outside) : Inv s.handleClose := by
  have hu : Up s := (h.up_or_down he).resolve_right fun hdown => hdown.not_listening hl
  have hdisc := hu.disconnect
  have hdown : Down s.handleClose := by
    refine ⟨hdisc.established, hdisc.state, hdisc.registration, ?_⟩
    have htrace : downs s.handleClose.trace =
        downs (s.perform (Endpoint.disconnect ())).trace := by
      show downs (s.perform (Endpoint.handleClose ())).trace = _
      rw [State.downs_perform, State.downs_perform]
      rfl
    exact htrace.trans hdisc.downs
  have hframe := hu.registration.disconnect.2
  refine ⟨h.alone_frame (f := Endpoint.disconnect ()) hframe, .inr (.inr hdown), fun hf => ?_,
    fun _ => hdown, fun hx => ((h.destroyed hx).1.not_up hu).elim⟩
  have houtside : s.handleClose.destroying = s.destroying := rfl
  rw [houtside, hd] at hf
  exact absurd hf (by simp)

theorem Inv.connectionEstablished (h : Inv s) (he : s.established = false) :
    Inv { s.perform (Endpoint.connectionEstablished ()) with established := true } := by
  have hraw : Raw s := by
    rcases h.phase with hraw | hu | hd
    · exact hraw
    · exact absurd (hu.established.symm.trans he) (by simp)
    · exact absurd (hd.established.symm.trans he) (by simp)
  obtain ⟨hreg, hframe⟩ := hraw.registration.connectionEstablished ()
  have hup : Up { s.perform (Endpoint.connectionEstablished ()) with established := true } := by
    refine ⟨rfl, .inl rfl, hreg.of_eq rfl rfl, ?_⟩
    show downs (s.perform (Endpoint.connectionEstablished ())).trace = 0
    rw [State.downs_perform, hraw.downs]
    rfl
  refine ⟨h.alone_frame (f := Endpoint.connectionEstablished ()) hframe, .inr (.inl hup),
    fun _ => hup, fun hr => ?_, fun hx => ?_⟩
  · exact absurd (hraw.destroying.symm.trans hr) (by simp)
  · exact absurd (hraw.destroyed.symm.trans hx) (by simp)

theorem Inv.remove (h : Inv s) (hr : s.destroying = .removing) :
    Inv { s.perform (Endpoint.removeChannel ()) with
      destroying := .outside, destroyed := true } := by
  have hd := h.removing hr
  have hdowns : downs (s.perform (Endpoint.removeChannel ())).trace = 1 := by
    rw [State.downs_perform, hd.downs]
    rfl
  have hremoved : (s.endpoint.removeChannel ()).Unregistered ∧
      s.endpoint.Frame (s.endpoint.removeChannel ()) := by
    rcases hd.registration with hs | hu
    · exact hs.removeChannel
    · rw [hu.removeChannel]
      exact ⟨hu, Endpoint.Frame.refl _⟩
  obtain ⟨hun, hframe⟩ := hremoved
  have hdown : Down { s.perform (Endpoint.removeChannel ()) with
      destroying := .outside, destroyed := true } :=
    ⟨hd.established, hd.state, .inr ⟨hun.index, hun.events, hun.channels, hun.epoll⟩, hdowns⟩
  exact ⟨h.alone_frame (f := Endpoint.removeChannel ()) hframe, .inr (.inr hdown),
    fun hf => absurd hf (by simp), fun _ => hdown,
    fun _ => ⟨hdown, ⟨hun.index, hun.events, hun.channels, hun.epoll⟩⟩⟩

/-- A thread inside `send` or `shutdown` has seen the connection `kConnected`. -/
theorem Inv.established_of_call (h : Inv s) {t : T} {c : Call T} (ht : s.call t = c)
    (hc : c ≠ .idle) : s.established = true := by
  rcases h.phase with hr | hu | hd
  · exact absurd (ht.symm.trans (hr.call t)) hc
  · exact hu.established
  · exact hd.established

theorem Inv.established_of_rest (h : Inv s) (hne : s.rest ≠ []) : s.established = true := by
  rcases h.phase with hr | hu | hd
  · exact absurd hr.rest hne
  · exact hu.established
  · exact hd.established

theorem Inv.up_of_connected (h : Inv s) (hst : s.conn.state = .kConnected) : Up s := by
  rcases h.phase with hr | hu | hd
  · exact absurd (hr.state.symm.trans hst) (by simp)
  · exact hu
  · exact absurd (hd.state.symm.trans hst) (by simp)

/-- A step that leaves the connection alone, once it is established. -/
theorem Inv.elsewhere (h : Inv s) (he : s.established = true) (hsame : Same s s') : Inv s' :=
  h.congr (fun hr => absurd (hr.established.symm.trans he) (by simp)) hsame

section Step

variable [DecidableEq T] {loopThread : T}

theorem inv_move {a : Label T} (h : Inv s) (hmeets : Meets s a)
    (hmove : Move loopThread s a s') : Inv s' := by
  cases hmove with
  | sendTest _ hst =>
    exact h.elsewhere (h.up_of_connected hst).established ⟨rfl, rfl, rfl, rfl, rfl, rfl, rfl⟩
  | sendRefused =>
    refine h.congr (fun hr => ?_) ⟨rfl, rfl, rfl, rfl, rfl, rfl, rfl⟩
    exact ⟨hr.established, hr.state, hr.registration, hr.downs, hr.call, hr.pending, hr.rest,
      hr.destroying, hr.destroyed⟩
  | @sendDirect m res ht =>
    -- the return of the call, `sendInLoop`, and the write it makes
    have he := h.established_of_call ht (by simp)
    have hset : Inv (s.setCall loopThread .idle) :=
      h.elsewhere he ⟨rfl, rfl, rfl, rfl, rfl, rfl, rfl⟩
    have hsend := hset.gentle he (gentle_sendInLoop m.payload res _)
    exact hsend.elsewhere he ⟨rfl, rfl, rfl, rfl, rfl, rfl, rfl⟩
  | sendQueue ht =>
    have he := h.established_of_call ht (by simp)
    exact h.elsewhere he ⟨rfl, rfl, rfl, rfl, rfl, rfl, rfl⟩
  | shutdownTest _ hst =>
    exact h.elsewhere (h.up_of_connected hst).established ⟨rfl, rfl, rfl, rfl, rfl, rfl, rfl⟩
  | shutdownRefused => exact h
  | @store t ht =>
    have he := h.established_of_call ht (by simp)
    -- the connection is not down, so it stays up
    have hu : Up s := (h.up_or_down he).resolve_right fun hd => hmeets hd.state
    have hup : Up { s.setCall t .shutting with conn := { s.conn with state := .kDisconnecting } } :=
      ⟨hu.established, .inr rfl, hu.registration.of_eq rfl rfl, hu.downs⟩
    exact ⟨h.alone, .inr (.inl hup), fun _ => hup, fun hr => ((h.removing hr).not_up hu).elim,
      fun hx => ((h.destroyed hx).1.not_up hu).elim⟩
  | shutdownDirect ht =>
    have he := h.established_of_call ht (by simp)
    have hset : Inv (s.setCall loopThread .idle) :=
      h.elsewhere he ⟨rfl, rfl, rfl, rfl, rfl, rfl, rfl⟩
    have hshut := hset.gentle he (gentle_shutdownInLoop _)
    exact hshut.elsewhere he ⟨rfl, rfl, rfl, rfl, rfl, rfl, rfl⟩
  | shutdownQueue ht =>
    have he := h.established_of_call ht (by simp)
    exact h.elsewhere he ⟨rfl, rfl, rfl, rfl, rfl, rfl, rfl⟩
  | established _ he => exact h.connectionEstablished he
  | swap =>
    refine h.congr (fun hr => ?_) ⟨rfl, rfl, rfl, rfl, rfl, rfl, rfl⟩
    exact ⟨hr.established, hr.state, hr.registration, hr.downs, hr.call, rfl, hr.pending,
      hr.destroying, hr.destroyed⟩
  | @runSend m rest res _ hrest =>
    have he := h.established_of_rest (by simp [hrest])
    have hrun : Inv { s with rest := rest } := h.elsewhere he ⟨rfl, rfl, rfl, rfl, rfl, rfl, rfl⟩
    have hsend := hrun.gentle he (gentle_sendInLoop m.payload res _)
    exact hsend.elsewhere he ⟨rfl, rfl, rfl, rfl, rfl, rfl, rfl⟩
  | @runShutdown rest _ _ hrest =>
    have he := h.established_of_rest (by simp [hrest])
    have hrun : Inv { s with rest := rest } := h.elsewhere he ⟨rfl, rfl, rfl, rfl, rfl, rfl, rfl⟩
    have hshut := hrun.gentle he (gentle_shutdownInLoop _)
    exact hshut.elsewhere he ⟨rfl, rfl, rfl, rfl, rfl, rfl, rfl⟩
  | runNotice _ hrest =>
    have he := h.established_of_rest (by simp [hrest])
    exact h.elsewhere he ⟨rfl, rfl, rfl, rfl, rfl, rfl, rfl⟩
  | endOfFile hfree he => exact h.handleClose he hmeets hfree.2
  | handleRead _ he hne => exact h.gentle he (gentle_handleRead hne)
  | handleWrite _ he hadm =>
    have hwrite := h.gentle he (gentle_handleWrite hadm)
    exact hwrite.elsewhere he ⟨rfl, rfl, rfl, rfl, rfl, rfl, rfl⟩
  | handleClose hfree he => exact h.handleClose he hmeets hfree.2
  | handleError =>
    have hsame : s.endpoint.handleError = s.endpoint := rfl
    rw [State.perform_id hsame]
    exact h
  | retrieve =>
    refine h.congr (fun hr => ?_) ⟨rfl, rfl, rfl, rfl, rfl, rfl, rfl⟩
    have hun := hr.registration
    exact ⟨hr.established, hr.state, ⟨hun.index, hun.events, hun.channels, hun.epoll⟩, hr.downs,
      hr.call, hr.pending, hr.rest, hr.destroying, hr.destroyed⟩
  | destroyedFound hfree he hst =>
    have hu := h.up_of_connected hst
    have hup : Up { s with closed := true, destroying := .found } :=
      ⟨hu.established, hu.state, hu.registration.of_eq rfl rfl, hu.downs⟩
    exact ⟨h.alone, .inr (.inl hup), fun _ => hup, fun hr => absurd hr (by simp),
      fun hx => ((h.destroyed hx).1.not_up hu).elim⟩
  | destroyedSkips hfree he hst =>
    -- neither `kConnected` nor, by the condition, `kDisconnecting`
    have hd : Down s := (h.up_or_down he).resolve_left fun hu => hu.state.elim hst hmeets
    have hdown : Down { s with closed := true, destroying := .removing } :=
      ⟨hd.established, hd.state, hd.registration, hd.downs⟩
    exact ⟨h.alone, .inr (.inr hdown), fun hf => absurd hf (by simp), fun _ => hdown,
      fun hx => ⟨hdown, (h.destroyed hx).2⟩⟩
  | disconnect hf =>
    -- `found` says that the connection is still up when its state was read
    have hu := h.found hf
    have hd := hu.disconnect
    have hframe := hu.registration.disconnect.2
    have hdown : Down { s.perform (Endpoint.disconnect ()) with destroying := .removing } :=
      ⟨hd.established, hd.state, hd.registration, hd.downs⟩
    exact ⟨h.alone_frame (f := Endpoint.disconnect ()) hframe, .inr (.inr hdown),
      fun hx => absurd hx (by simp), fun _ => hdown,
      fun hx => ((h.destroyed hx).1.not_up hu).elim⟩
  | remove _ hr => exact h.remove hr

/-- In every run whose steps meet the condition: once `connectionDestroyed` has
returned, the connection is down for good, it has told the user so exactly once,
and later tasks write, buffer and register nothing. -/
theorem destroyed_terminal (hs : (system loopThread).ReachableUnder Meets s)
    (hd : s.destroyed = true) :
    s.conn.state = .kDisconnected ∧ s.conn.channel.events = 0 ∧
      (∀ fd, s.poller.channels fd = none ∧ s.poller.epoll fd = none) ∧ downs s.trace = 1 ∧
      (∀ (m : Message T) (res : WriteResult), s.sendInLoop m res = s) ∧
      (s.shutdownInLoop.wire = s.wire ∧ s.shutdownInLoop.conn = s.conn ∧
        s.shutdownInLoop.poller = s.poller) := by
  have hinv : Inv s := Machine.ReachableUnder.invariant (I := Inv) (fun _ h => inv_start h)
    (fun _ _ _ h hmeets hstep => inv_move h hmeets (move_of_system hstep).2) hs
  obtain ⟨hdown, hun⟩ := hinv.destroyed hd
  refine ⟨hdown.state, hdown.events, fun fd => ?_, hdown.downs,
    fun m res => State.sendInLoop_dropped (.inl hdown.state), ?_⟩
  · by_cases hfd : fd = s.conn.channel.fd
    · rw [hfd]
      exact ⟨hun.channels, hun.epoll⟩
    · exact hinv.alone fd hfd
  · have hoff : s.conn.channel.isWriting = false := by
      simp [Channel.isWriting, hdown.events]
    have heq : s.endpoint.shutdownInLoop = s.endpoint.emit (.shutdownWrite s.conn.unsent) :=
      Endpoint.shutdownInLoop_of_not_isWriting hoff
    refine ⟨?_, congrArg Endpoint.conn heq, congrArg Endpoint.poller heq⟩
    show sent (s.trace ++ (s.endpoint.shutdownInLoop).trace) = sent s.trace
    rw [heq, sent_append]
    exact List.append_nil _

end Step

theorem destroyed_terminal_connected :
    ∃ s : State ℕ, (system 0).ReachableUnder Meets s ∧ s.destroyed = true ∧
      (s.conn.state = .kDisconnected ∧ s.conn.channel.events = 0 ∧
        (∀ fd, s.poller.channels fd = none ∧ s.poller.epoll fd = none) ∧ downs s.trace = 1 ∧
        (∀ (m : Message ℕ) (res : WriteResult), s.sendInLoop m res = s) ∧
        (s.shutdownInLoop.wire = s.wire ∧ s.shutdownInLoop.conn = s.conn ∧
          s.shutdownInLoop.poller = s.poller)) := by
  have hinit : (system 0).ReachableUnder Meets fresh :=
    .init (start_make (TcpConnection.make_fresh 5 false))
  have h₁ : (system 0).ReachableUnder Meets _ :=
    hinit.step (show Meets _ .connectionEstablished from trivial) rfl
  have h₂ : (system 0).ReachableUnder Meets _ :=
    h₁.step (show Meets _ .connectionDestroyed from fun hst => StateE.noConfusion hst) rfl
  have h₃ : (system 0).ReachableUnder Meets _ :=
    h₂.step (show Meets _ .disconnect from trivial) rfl
  have h₄ : (system 0).ReachableUnder Meets _ :=
    h₃.step (show Meets _ .remove from trivial) rfl
  exact ⟨_, h₄, rfl, destroyed_terminal h₄ rfl⟩

/-- `shutdown` and then the destruction of the server: `connectionDestroyed`
returns with the connection `kDisconnecting` and no down callback. -/
theorem pending_halfClose_skips_cleanup :
    ¬ ∀ s : State ℕ, (system 0).Reachable s → s.destroyed = true →
      s.conn.state = .kDisconnected ∧ downs s.trace = 1 := by
  intro h
  have hrun : ∃ t, (system 0).run fresh [.connectionEstablished, .shutdown 0, .store 0,
      .shutdownBody 0, .connectionDestroyed, .remove] = some t ∧ t.destroyed = true ∧
      t.conn.state = .kDisconnecting := ⟨_, rfl, rfl, rfl⟩
  obtain ⟨t, ht, hd, hst⟩ := hrun
  have hdown := (h t (reachable_make (TcpConnection.make_fresh 5 false) ht) hd).1
  rw [hst] at hdown
  exact absurd hdown (by simp)

end Teardown

end ConnectionLoop

end Moduo
