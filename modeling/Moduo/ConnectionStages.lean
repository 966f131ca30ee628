/-
The stages of a connection in a live server.

A connection that has not been freed is `connecting`, `up`, `silenced` or
`removed`.  Its stage ties together `state_`, the registration of its channel,
the entry in `connections_` and the tasks that wait for it.

* `Shift` — the five ways a member can take a connection from stage to stage;
* `Calls.shift` — every call of a member is one of them;
* `Stage.shift` — what each of them does to the stage.
-/
import Moduo.ServerTokens

namespace Moduo

/-- The connection is established and not yet closed. -/
def TcpConnection.Open (c : TcpConnection) : Prop :=
  c.state = .kConnected ∨ c.state = .kDisconnecting

theorem TcpConnection.Open.ne_connecting {c : TcpConnection} (h : c.Open) :
    c.state ≠ .kConnecting := by
  rcases h with h | h <;> rw [h] <;> simp

theorem TcpConnection.Open.ne_disconnected {c : TcpConnection} (h : c.Open) :
    c.state ≠ .kDisconnected := by
  rcases h with h | h <;> rw [h] <;> simp

namespace TcpServer

variable {L U : Type*}

/-- The connection whose channel's event the instruction is dispatching. -/
def Instr.dispatches? : Instr L → Option (ConnPtr L)
  | .handleEvent (.conn c) _ => some c
  | .closeCallback c => some c
  | .errorCallback c => some c
  | .readCallback c => some c
  | .writeCallback c => some c
  | _ => none

/-- The connection, if the functor is bound to a raw pointer to it. -/
def Functor.raw? : Functor L → Option (ConnPtr L)
  | .sendInLoop c _ => some c
  | .shutdownInLoop c => some c
  | _ => none

/-- The connection on which the instruction goes on with a `send` or a
`shutdown` that found it open. -/
def Instr.urgent? : Instr L → Option (ConnPtr L)
  | .functor f => f.raw?
  | .setDisconnecting c => some c
  | _ => none

/-- `connections_` has an entry of `c`. -/
def State.Holds (s : State L U) (c : ConnPtr L) : Prop := ∃ item ∈ s.connections, item.2 = c

variable [DecidableEq L] [Fintype L]

inductive Stage (s : State L U) (c : ConnPtr L) (conn : TcpConnection) : Prop
  | connecting (hstate : conn.state = .kConnecting) (hchannel : (s.endpoint c conn).Unregistered)
      (hholds : s.Holds c) (hestablish : s.tasks .establish c = 1) (hclosing : s.closing c = 0)
  | up (hopen : conn.Open) (hchannel : (s.endpoint c conn).Registered (.conn c))
      (hholds : s.Holds c) (hestablish : s.tasks .establish c = 0) (hclosing : s.closing c = 0)
  | silenced (hstate : conn.state = .kDisconnected)
      (hchannel : (s.endpoint c conn).Silenced (.conn c)) (hestablish : s.tasks .establish c = 0)
      (hclosing : 0 < s.closing c)
  | removed (hstate : conn.state = .kDisconnected) (hchannel : (s.endpoint c conn).Unregistered)
      (hestablish : s.tasks .establish c = 0) (hreturned : .returned (.loop c.loop) c ∈ s.log)

variable {s s' : State L U} {c : ConnPtr L} {conn : TcpConnection}

/-- What a stage depends on, besides the connection itself.  A connection that is
down does not need its entry in `connections_`. -/
theorem Stage.congr (h : Stage s c conn)
    (hchannels : (s'.pollers c.loop).channels conn.channel.fd =
      (s.pollers c.loop).channels conn.channel.fd)
    (hepoll : (s'.pollers c.loop).epoll conn.channel.fd =
      (s.pollers c.loop).epoll conn.channel.fd)
    (hkeep : conn.state ≠ .kDisconnected → s.Holds c → s'.Holds c)
    (hsame : s'.tasks .establish c = s.tasks .establish c) (hclosing' : s'.closing c = s.closing c)
    (hlog : ∀ e ∈ s.log, e ∈ s'.log) : Stage s' c conn := by
  cases h with
  | connecting hstate hchannel hholds hestablish hclosing =>
    refine .connecting hstate ?_ (hkeep (by simp [hstate]) hholds) (hsame.trans hestablish)
      (hclosing'.trans hclosing)
    exact ⟨hchannel.index, hchannel.events, hchannels.trans hchannel.channels,
      hepoll.trans hchannel.epoll⟩
  | up hopen hchannel hholds hestablish hclosing =>
    refine .up hopen ?_ (hkeep hopen.ne_disconnected hholds) (hsame.trans hestablish)
      (hclosing'.trans hclosing)
    exact ⟨hchannel.index, hchannel.events, hchannels.trans hchannel.channels,
      hepoll.trans hchannel.epoll⟩
  | silenced hstate hchannel hestablish hclosing =>
    refine .silenced hstate ?_ (hsame.trans hestablish) (hclosing' ▸ hclosing)
    exact ⟨hchannel.index, hchannel.events, hchannels.trans hchannel.channels,
      hepoll.trans hchannel.epoll⟩
  | removed hstate hchannel hestablish hreturned =>
    refine .removed hstate ?_ (hsame.trans hestablish) (hlog _ hreturned)
    exact ⟨hchannel.index, hchannel.events, hchannels.trans hchannel.channels,
      hepoll.trans hchannel.epoll⟩

/-! ### What tells the stage -/

theorem Stage.of_open (h : Stage s c conn) (hopen : conn.Open) :
    (s.endpoint c conn).Registered (.conn c) ∧ s.Holds c ∧ s.tasks .establish c = 0 ∧
      s.closing c = 0 := by
  cases h with
  | connecting hstate => exact absurd hstate hopen.ne_connecting
  | up _ hchannel hholds hestablish hclosing => exact ⟨hchannel, hholds, hestablish, hclosing⟩
  | silenced hstate => exact absurd hstate hopen.ne_disconnected
  | removed hstate => exact absurd hstate hopen.ne_disconnected

theorem Stage.of_added (h : Stage s c conn) (hindex : conn.channel.index = .kAdded) :
    s.tasks .establish c = 0 ∧ ((conn.Open ∧ (s.endpoint c conn).Registered (.conn c)) ∨
      (conn.state = .kDisconnected ∧ (s.endpoint c conn).Silenced (.conn c) ∧
        0 < s.closing c)) := by
  cases h with
  | connecting _ hchannel =>
    have hnew : conn.channel.index = .kNew := hchannel.index
    exact absurd (hindex.symm.trans hnew) (by simp)
  | up hopen hchannel _ hestablish => exact ⟨hestablish, .inl ⟨hopen, hchannel⟩⟩
  | silenced hstate hchannel hestablish hclosing =>
    exact ⟨hestablish, .inr ⟨hstate, hchannel, hclosing⟩⟩
  | removed _ hchannel =>
    have hnew : conn.channel.index = .kNew := hchannel.index
    exact absurd (hindex.symm.trans hnew) (by simp)

theorem Stage.of_establish (h : Stage s c conn) (hpos : 0 < s.tasks .establish c) :
    conn.state = .kConnecting ∧ (s.endpoint c conn).Unregistered ∧ s.Holds c ∧
      s.tasks .establish c = 1 ∧ s.closing c = 0 := by
  cases h with
  | connecting hstate hchannel hholds hestablish hclosing =>
    exact ⟨hstate, hchannel, hholds, hestablish, hclosing⟩
  | up _ _ _ hestablish => omega
  | silenced _ _ hestablish => omega
  | removed _ _ hestablish => omega

/-- Any other task belongs to a connection that has gone down. -/
theorem Stage.of_closing (h : Stage s c conn) (hpos : 0 < s.closing c) :
    conn.state = .kDisconnected ∧ s.tasks .establish c = 0 ∧
      ((s.endpoint c conn).Silenced (.conn c) ∨ (s.endpoint c conn).Unregistered) := by
  cases h with
  | connecting _ _ _ _ hclosing => omega
  | up _ _ _ _ hclosing => omega
  | silenced hstate hchannel hestablish => exact ⟨hstate, hestablish, .inl hchannel⟩
  | removed hstate hchannel hestablish => exact ⟨hstate, hestablish, .inr hchannel⟩

/-! ### The members -/

/-- The member that instruction `i` calls takes the endpoint of `c` from `e` to
`e'`. -/
inductive Shift (c : ConnPtr L) (i : Instr L) (e e' : Endpoint (ChannelPtr L)) : Prop
  | establishes (hi : i = .functor (.connectionEstablished c))
      (hfrom : e.conn.state = .kConnecting) (hto : e'.conn.state = .kConnected)
      (hchannel : e'.Registered (.conn c))
      (hcallbacks : callbacks e'.trace = [.connectionCallback true])
  | works (hi : i.task? = none) (hopen : e.conn.Open) (hstate : e'.conn.state = e.conn.state)
      (hchannel : e'.Registered (.conn c))
      (hcallbacks : callbacks e'.trace = [] ∨
        i = .readCallback c ∧ callbacks e'.trace = [.messageCallback])
  | idles (hi : i.task? = none) (hfrom : e.conn.channel.index = .kAdded)
      (hdown : e.conn.state = .kDisconnected) (hstate : e'.conn.state = e.conn.state)
      (hchannel : e'.Silenced (.conn c)) (hcallbacks : callbacks e'.trace = [] ∨
        i = .readCallback c ∧ callbacks e'.trace = [.messageCallback])
  | closes (hi : i = .closeCallback c ∨ i = .readCallback c)
      (hfrom : e.conn.channel.index = .kAdded) (hto : e'.conn.state = .kDisconnected)
      (hchannel : e'.Silenced (.conn c))
      (hcallbacks : callbacks e'.trace = [.connectionCallback false, .closeCallback])
  | removes (hi : i = .removeChannel c) (hfrom : e.conn.state = .kDisconnected)
      (hto : e'.conn.state = .kDisconnected) (hchannel : e'.Unregistered)
      (hcallbacks : callbacks e'.trace = [])

omit [DecidableEq L] [Fintype L] in
theorem Shift.linked {i : Instr L} {e e' : Endpoint (ChannelPtr L)} (h : Shift c i e e') :
    e'.Linked (.conn c) := by
  cases h with
  | establishes _ _ _ hchannel => exact hchannel.linked
  | works _ _ _ hchannel => exact hchannel.linked
  | idles _ _ _ _ hchannel => exact hchannel.linked
  | closes _ _ _ hchannel => exact hchannel.linked
  | removes _ _ _ hchannel => exact hchannel.linked

variable {t : Thread L U} {i : Instr L} {o : Outcome} {events : List (Event L U)}
  {f : Endpoint (ChannelPtr L) → Endpoint (ChannelPtr L)}

/-- The two ways of a `handleClose`. -/
theorem Stage.shift_close (h : Stage s c conn) (hindex : conn.channel.index = .kAdded)
    (hi : i = .closeCallback c ∨ i = .readCallback c) :
    Shift c i (s.endpoint c conn) ((s.endpoint c conn).handleClose (.conn c)) ∧
      (s.endpoint c conn).Frame ((s.endpoint c conn).handleClose (.conn c)) := by
  have hcallbacks := Endpoint.callbacks_handleClose (.conn c) (s.endpoint c conn)
  have hdisc : ((s.endpoint c conn).disconnect (.conn c)).Silenced (.conn c) ∧
      (s.endpoint c conn).Frame ((s.endpoint c conn).disconnect (.conn c)) := by
    rcases (h.of_added hindex).2 with ⟨-, hreg⟩ | ⟨-, hsil, -⟩
    · exact hreg.disconnect
    · exact hsil.disconnect
  refine ⟨.closes hi hindex rfl (hdisc.1.of_eq rfl rfl) hcallbacks, ?_⟩
  exact hdisc.2.trans (Endpoint.Frame.of_eq rfl rfl)

/-- Every call of a member in a live server is one of the five. -/
theorem Calls.shift (hcalls : Calls t c conn i o events f) (h : Stage s c conn)
    (htask : ∀ k, i.task? = some (k, c) → 0 < s.tasks k c)
    (htarget : i.dispatches? = some c → conn.channel.index = .kAdded)
    (hurgent : i.urgent? = some c → conn.Open) (hi : i ≠ .disconnect c) :
    Shift c i (s.endpoint c conn) (f (s.endpoint c conn)) ∧
      (s.endpoint c conn).Frame (f (s.endpoint c conn)) := by
  have hnone : callbacks (s.endpoint c conn).trace = [] := rfl
  cases hcalls with
  | @sendInLoop message res hadm =>
    have hopen := hurgent rfl
    obtain ⟨hreg, hframe⟩ := (h.of_open hopen).1.sendInLoop message res
    have hquiet := Endpoint.quiet_sendInLoop (.conn c) message res (s.endpoint c conn)
    exact ⟨.works rfl hopen hquiet.state hreg (.inl (hquiet.callbacks.trans hnone)), hframe⟩
  | shutdownInLoop =>
    have hopen := hurgent rfl
    obtain ⟨hreg, hframe⟩ := (h.of_open hopen).1.shutdownInLoop
    have hcallbacks := Endpoint.callbacks_shutdownInLoop (s.endpoint c conn)
    have hstate : (s.endpoint c conn).shutdownInLoop.conn.state = conn.state := by
      rw [Endpoint.shutdownInLoop]
      split_ifs <;> rfl
    exact ⟨.works rfl hopen hstate hreg (.inl (hcallbacks.trans hnone)), hframe⟩
  | connectionEstablished =>
    obtain ⟨hstate, hun, -⟩ := h.of_establish (htask .establish rfl)
    obtain ⟨hreg, hframe⟩ := hun.connectionEstablished (.conn c)
    have hcallbacks := Endpoint.callbacks_connectionEstablished (.conn c) (s.endpoint c conn)
    exact ⟨.establishes rfl hstate rfl hreg hcallbacks, hframe⟩
  | handleClose => exact h.shift_close (htarget rfl) (.inl rfl)
  | endOfFile => exact h.shift_close (htarget rfl) (.inr rfl)
  | handleError =>
    refine ⟨?_, Endpoint.Frame.refl _⟩
    rcases (h.of_added (htarget rfl)).2 with ⟨hopen, hreg⟩ | ⟨hdown, hsil, -⟩
    · exact .works rfl hopen rfl hreg (.inl rfl)
    · exact .idles rfl (htarget rfl) hdown rfl hsil (.inl rfl)
  | @handleRead res hne =>
    obtain ⟨hstate, hchannel, hpoller, hcallbacks⟩ :=
      Endpoint.handleRead_of_ne (.conn c) hne (s.endpoint c conn)
    have hmessage : callbacks ((s.endpoint c conn).handleRead (.conn c) res).trace = [] ∨
        Instr.readCallback c = .readCallback c ∧
          callbacks ((s.endpoint c conn).handleRead (.conn c) res).trace = [.messageCallback] := by
      rcases hcallbacks with hsame | hmore
      · exact .inl hsame
      · exact .inr ⟨rfl, hmore⟩
    refine ⟨?_, Endpoint.Frame.of_eq hchannel hpoller⟩
    rcases (h.of_added (htarget rfl)).2 with ⟨hopen, hreg⟩ | ⟨hdown, hsil, -⟩
    · exact .works rfl hopen hstate (hreg.of_eq hchannel hpoller) hmessage
    · exact .idles rfl (htarget rfl) hdown hstate (hsil.of_eq hchannel hpoller) hmessage
  | @handleWrite res hadm =>
    rcases (h.of_added (htarget rfl)).2 with ⟨hopen, hreg⟩ | ⟨hdown, hsil, -⟩
    · have hadm' : res.Admissible (s.endpoint c conn).conn.unsent := hadm
      obtain ⟨hreg', hframe⟩ := hreg.handleWrite hadm'
      have hquiet := Endpoint.quiet_handleWrite (.conn c) hadm'
      exact ⟨.works rfl hopen hquiet.state hreg' (.inl (hquiet.callbacks.trans hnone)), hframe⟩
    · rw [hsil.handleWrite res]
      exact ⟨.idles rfl (htarget rfl) hdown rfl hsil (.inl rfl), Endpoint.Frame.refl _⟩
  | disconnect => exact absurd rfl hi
  | removeChannel =>
    have hpos : 0 < s.closing c := (htask .unhook rfl).trans_le (tasks_le_closing (by simp))
    obtain ⟨hdown, -, hreg⟩ := h.of_closing hpos
    rcases hreg with hsil | hun
    · obtain ⟨hun, hframe⟩ := hsil.removeChannel
      exact ⟨.removes rfl hdown hdown hun rfl, hframe⟩
    · have hsame : (s.endpoint c conn).removeChannel (.conn c) = s.endpoint c conn :=
        hun.removeChannel
      rw [hsame]
      exact ⟨.removes rfl hdown hdown hun rfl, Endpoint.Frame.refl _⟩

/-! ### What follows a member -/

omit [DecidableEq L] [Fintype L] in
/-- The tasks that an effect leaves are those of the callbacks. -/
theorem tasks_effects (tr : List Effect) :
    (tr.flatMap (effectInstrs c)).filterMap Instr.task? =
      ((callbacks tr).flatMap (effectInstrs c)).filterMap Instr.task? := by
  induction tr with
  | nil => rfl
  | cons x tr ih =>
    rw [List.flatMap_cons, List.filterMap_append, ih]
    cases x <;> rfl

omit [DecidableEq L] [Fintype L] in
theorem task_effects_self {d : ConnPtr L} {tr : List Effect} {j : Instr L} {k : Task}
    (hj : j ∈ tr.flatMap (effectInstrs c)) (htask : j.task? = some (k, d)) : d = c := by
  rcases mem_effects hj with ⟨cb, rfl⟩ | rfl | rfl
  · exact absurd htask (by simp [Instr.task?, Functor.task?])
  · exact absurd htask (by simp [Instr.task?])
  · exact (Prod.mk.inj (Option.some.inj htask)).2.symm

omit [Fintype L] in
/-- A member leaves no task for another connection. -/
theorem count_effects_of_ne {d : ConnPtr L} (hd : d ≠ c) (tr : List Effect) (k : Task) :
    ((tr.flatMap (effectInstrs c)).filterMap Instr.task?).count (k, d) = 0 := by
  refine List.count_eq_zero.mpr fun hmem => hd ?_
  obtain ⟨j, hj, htask⟩ := List.mem_filterMap.mp hmem
  exact task_effects_self hj htask

omit [DecidableEq L] [Fintype L] in
/-- Nor does it spend one. -/
theorem Shift.task_self {d : ConnPtr L} {e e' : Endpoint (ChannelPtr L)} {k : Task}
    (h : Shift c i e e') (htask : i.task? = some (k, d)) : d = c := by
  cases h with
  | establishes hi =>
    subst hi
    exact (Prod.mk.inj (Option.some.inj htask)).2.symm
  | works hi => exact absurd (hi.symm.trans htask) (by simp)
  | idles hi => exact absurd (hi.symm.trans htask) (by simp)
  | closes hi =>
    rcases hi with rfl | rfl
    · exact absurd htask (by simp [Instr.task?])
    · exact absurd htask (by simp [Instr.task?])
  | removes hi =>
    subst hi
    exact (Prod.mk.inj (Option.some.inj htask)).2.symm

/-- A shift takes its connection to the next stage.  `htasks` is the account of
its tasks. -/
theorem Stage.shift {e : Endpoint (ChannelPtr L)} (h : Stage s c conn)
    (hshift : Shift c i (s.endpoint c conn) e) (hpoller : s'.pollers c.loop = e.poller)
    (hholds : s.Holds c → s'.Holds c)
    (htasks : ∀ k, s'.tasks k c + i.task?.toList.count (k, c) = s.tasks k c +
      (((callbacks e.trace).flatMap (effectInstrs c)).filterMap Instr.task?).count (k, c))
    (hwaits : ∀ k, i.task? = some (k, c) → 0 < s.tasks k c)
    (hreturned : i = .removeChannel c → .returned (.loop c.loop) c ∈ s'.log) :
    Stage s' c e.conn := by
  cases hshift with
  | establishes hi hfrom hto hchannel hcallbacks =>
    subst hi
    rw [hcallbacks] at htasks
    have hcount : ∀ k, s'.tasks k c + [(Task.establish, c)].count (k, c) = s.tasks k c := htasks
    obtain ⟨-, -, hhold, hone, hzero⟩ := h.of_establish (hwaits .establish rfl)
    have hestablish := hcount .establish
    have hreport := hcount .report
    have hremove := hcount .remove
    have hunhook := hcount .unhook
    simp only [count_task, reduceCtorEq, if_false, if_true] at hestablish hreport hremove hunhook
    rw [State.closing] at hzero
    refine .up (.inl hto) (hchannel.of_eq rfl hpoller) (hholds hhold) ?_ ?_
    · omega
    · rw [State.closing]
      omega
  | works hi hopen hstate hchannel hcallbacks =>
    have hcount : ∀ k, s'.tasks k c = s.tasks k c := by
      intro k
      have hk := htasks k
      rcases hcallbacks with hcbs | ⟨-, hcbs⟩
      · rwa [hi, hcbs] at hk
      · rwa [hi, hcbs] at hk
    obtain ⟨-, hhold, hestablish, hclosing⟩ := h.of_open hopen
    have hopen' : e.conn.Open := by
      rw [TcpConnection.Open, hstate]
      exact hopen
    refine .up hopen' (hchannel.of_eq rfl hpoller) (hholds hhold) ?_ ?_
    · rw [hcount, hestablish]
    · rw [State.closing, hcount, hcount, hcount, ← State.closing, hclosing]
  | idles hi hfrom hdown hstate hchannel hcallbacks =>
    have hcount : ∀ k, s'.tasks k c = s.tasks k c := by
      intro k
      have hk := htasks k
      rcases hcallbacks with hcbs | ⟨-, hcbs⟩
      · rwa [hi, hcbs] at hk
      · rwa [hi, hcbs] at hk
    obtain ⟨hestablish, hup | ⟨-, -, hclosing⟩⟩ := h.of_added hfrom
    · exact absurd hdown hup.1.ne_disconnected
    · refine .silenced (hstate.trans hdown) (hchannel.of_eq rfl hpoller) ?_ ?_
      · rw [hcount, hestablish]
      · rwa [State.closing, hcount, hcount, hcount]
  | closes hi hfrom hto hchannel hcallbacks =>
    have hnone : i.task? = none := by
      rcases hi with rfl | rfl <;> rfl
    rw [hnone, hcallbacks] at htasks
    -- the one new task is the call of `closeCallback_`
    have hcount : ∀ k, s'.tasks k c = s.tasks k c + [(Task.report, c)].count (k, c) := htasks
    have hestablish := hcount .establish
    have hreport := hcount .report
    simp only [count_task, reduceCtorEq, if_false, if_true] at hestablish hreport
    refine .silenced hto (hchannel.of_eq rfl hpoller) ?_ ?_
    · rw [hestablish]
      exact (h.of_added hfrom).1
    · rw [State.closing]
      omega
  | removes hi hfrom hto hchannel hcallbacks =>
    subst hi
    rw [hcallbacks] at htasks
    have hcount : ∀ k, s'.tasks k c + [(Task.unhook, c)].count (k, c) = s.tasks k c := htasks
    have hpos : 0 < s.closing c := (hwaits .unhook rfl).trans_le (tasks_le_closing (by simp))
    have hestablish := hcount .establish
    simp only [count_task, reduceCtorEq, if_false] at hestablish
    have hun : (s'.endpoint c e.conn).Unregistered := by
      rw [State.endpoint, hpoller]
      exact ⟨hchannel.index, hchannel.events, hchannel.channels, hchannel.epoll⟩
    refine .removed hto hun ?_ (hreturned rfl)
    exact hestablish.trans (h.of_closing hpos).2.1

omit [DecidableEq L] [Fintype L] in
theorem events_effects (tr : List Effect) :
    tr.filterMap (effectEvent t c) = (callbacks tr).filterMap (effectEvent t c) := by
  induction tr with
  | nil => rfl
  | cons x tr ih =>
    have hcons : callbacks (x :: tr) = callbacks [x] ++ callbacks tr := callbacks_append [x] tr
    rw [hcons, List.filterMap_append, ← ih, ← List.singleton_append, List.filterMap_append]
    cases x <;> rfl

end TcpServer

end Moduo
