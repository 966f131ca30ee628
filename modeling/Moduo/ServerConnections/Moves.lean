/-
What a step of a server is for one of its connections.

A step that concerns connection `c` is a move of `ConnectionLoop`, before which the
loop may have to run the notices in front of it.

* `Matched` — a run of `ConnectionLoop` that leads to a state that shows the next
  one of the server;
* `Shows.callback`, `Shows.sendDirect`, `Shows.runSend`, … — one for each move.
-/
import Moduo.ServerConnections.Shows

namespace Moduo

namespace TcpServer

variable {L U : Type*}

/-- `handleClose` or `connectionDestroyed` of `c` is among the events. -/
def Closes (c : ConnPtr L) (events : List (Event L U)) : Prop :=
  ∃ t, .member t c .handleClose ∈ events ∨ .member t c .connectionDestroyed ∈ events

theorem Closes.mono {c : ConnPtr L} {events events' : List (Event L U)} (h : Closes c events)
    (hsub : ∀ e ∈ events, e ∈ events') : Closes c events' := by
  obtain ⟨t, h | h⟩ := h
  · exact ⟨t, .inl (hsub _ h)⟩
  · exact ⟨t, .inr (hsub _ h)⟩

variable [DecidableEq L] [DecidableEq U] {cfg : Config L U} {c : ConnPtr L}
  {lay lay' : Layout L U} {s s' : State L U} {conn conn' : TcpConnection}
  {u v : ConnectionLoop.State (Thread L U)} {t : Thread L U} {i : Instr L} {o : Outcome}
  {events : List (Event L U)} {f : Endpoint (ChannelPtr L) → Endpoint (ChannelPtr L)}

/-- A run from `u` shows what the server does: the effects of members, the calls of
`send`, and whether the connection closes. -/
def Matched (c : ConnPtr L) (lay' : Layout L U) (s' : State L U) (conn' : TcpConnection)
    (u : ConnectionLoop.State (Thread L U)) (effects : List Effect)
    (sends : List (Message (Thread L U))) (closes : Prop) : Prop :=
  ∃ bs v, (ConnectionLoop.system (.loop c.loop)).run u bs = some v ∧
    v.trace = u.trace ++ effects ∧ v.called = u.called ++ sends ∧
    (v.closed = true → u.closed = true ∨ closes) ∧ Shows c lay' s' conn' v

omit [DecidableEq U] in
theorem Shows.not_exited (h : Shows c lay s conn u)
    (hrunning : ∀ l, (s.pollers l).exited = false) : u.poller.exited = false := by
  rw [h.poller hrunning]
  exact hrunning c.loop

theorem Matched.stay (h : Shows c lay' s' conn' u) : Matched c lay' s' conn' u [] [] False :=
  ⟨[], u, rfl, (List.append_nil _).symm, (List.append_nil _).symm, fun hc => .inl hc, h⟩

/-- One move. -/
theorem Matched.move {b : ConnectionLoop.Label (Thread L U)} {effects : List Effect}
    {sends : List (Message (Thread L U))} {closes : Prop} (hexit : u.poller.exited = false)
    (hmove : ConnectionLoop.Move (.loop c.loop) u b v) (htrace : v.trace = u.trace ++ effects)
    (hcalled : v.called = u.called ++ sends)
    (hclosed : v.closed = true → u.closed = true ∨ closes) (h : Shows c lay' s' conn' v) :
    Matched c lay' s' conn' u effects sends closes :=
  ⟨[b], v, (Machine.run_cons_eq_some _).mpr
    ⟨v, ConnectionLoop.system_of_move hexit hmove, rfl⟩, htrace, hcalled, hclosed, h⟩

omit [DecidableEq U] in
/-- The loop thread runs no other code on the connection. -/
theorem Shows.free (h : Shows c lay s conn u) (hcall : lay.calls c (.loop c.loop) = .idle)
    (hround : (lay.round c.loop).destroying c = .outside) : u.Free (.loop c.loop) :=
  ⟨by rw [h.call, hcall], by rw [h.destroying, hround]⟩

/-! ### Notices -/

/-- The loop runs the notices at the front of the batch. -/
theorem run_notices {fs rest : List (ConnectionLoop.Functor (Thread L U))}
    (hfs : ∀ f ∈ fs, posted c f = none) (hfree : u.Free (.loop c.loop))
    (hexit : u.poller.exited = false) (hrest : u.rest = fs ++ rest) :
    ∃ bs, (ConnectionLoop.system (.loop c.loop)).run u bs = some { u with rest := rest } := by
  induction fs generalizing u with
  | nil =>
    refine ⟨[], ?_⟩
    rw [List.nil_append] at hrest
    rw [← hrest]
    rfl
  | cons f fs ih =>
    obtain ⟨cb, rfl⟩ : ∃ cb, f = .notice cb := by
      have hf := hfs f List.mem_cons_self
      cases f with
      | notice cb => exact ⟨cb, rfl⟩
      | _ => contradiction
    have hmove : ConnectionLoop.Move (.loop c.loop) u (.runFunctor (.wrote 0))
        { u with rest := fs ++ rest } := .runNotice hfree hrest
    obtain ⟨bs, hbs⟩ := ih (u := { u with rest := fs ++ rest })
      (fun g hg => hfs g (List.mem_cons_of_mem _ hg)) hfree hexit rfl
    exact ⟨_ :: bs, (Machine.run_cons_eq_some _).mpr
      ⟨_, ConnectionLoop.system_of_move hexit hmove, hbs⟩⟩

/-- A run after the notices. -/
theorem Matched.of_notices {rest : List (ConnectionLoop.Functor (Thread L U))}
    {effects : List Effect} {sends : List (Message (Thread L U))} {closes : Prop}
    {as : List (ConnectionLoop.Label (Thread L U))}
    (hrun : (ConnectionLoop.system (.loop c.loop)).run u as = some { u with rest := rest })
    (h : Matched c lay' s' conn' { u with rest := rest } effects sends closes) :
    Matched c lay' s' conn' u effects sends closes := by
  obtain ⟨bs, v, hv, htrace, hcalled, hclosed, hshows⟩ := h
  refine ⟨as ++ bs, v, ?_, htrace, hcalled, hclosed, hshows⟩
  rw [Machine.run_append, hrun]
  exact hv

/-! ### Members -/

section Members

variable (h : Shows c lay s conn u) (hrunning : ∀ l, (s.pollers l).exited = false)
  (hfd : conn.channel.fd = c.fd)

include h hrunning hfd

/-- A member that the loop thread calls on its own, in a callback of the channel or
to establish the connection. -/
theorem Shows.callback (hcalls : Calls (.loop c.loop) c conn i o events f)
    (hfree : u.Free (.loop c.loop)) (hidle : i.call c (.loop c.loop : Thread L U) = .idle)
    (hdisconnect : i ≠ .disconnect c) (hremove : i ≠ .removeChannel c)
    (hbegun : i.task? ≠ some (.establish, c) → conn.state ≠ .kConnecting)
    (hestablish : i.task? = some (.establish, c) → conn.state = .kConnecting)
    (hrest : rawOf c (lay'.round c.loop).rest = rawOf c (lay.round c.loop).rest)
    (hcall : lay'.calls c = lay.calls c)
    (hround : (lay'.round c.loop).destroying c = (lay.round c.loop).destroying c) :
    Matched c lay' (s.performed (.loop c.loop) c events (f (s.endpoint c conn)))
      (f (s.endpoint c conn)).conn u (f (s.endpoint c conn)).trace [] (Closes c events) := by
  have helse := hcalls.elsewhere (s.pollers c.loop)
  have hafter := hcalls.begun (s.pollers c.loop) hbegun
  have hexit := h.not_exited hrunning
  have hrest' := h.rest.trans hrest.symm
  have hcall' := h.call.trans hcall.symm
  have hround' := h.destroying.trans hround.symm
  have hsame := h.same
  cases hcalls with
  | sendInLoop => exact absurd hidle (by simp [Instr.call, Functor.call])
  | shutdownInLoop => exact absurd hidle (by simp [Instr.call, Functor.call])
  | connectionEstablished =>
    have hview := Endpoint.view_connectionEstablished (.conn c) (s.endpoint c conn)
    have hnot : u.established = false := by
      have hstate := hestablish rfl
      have hiff := h.established
      rw [hstate] at hiff
      simpa using hiff
    refine .move hexit (.established hfree hnot) (h.trace_perform hrunning hfd hview)
      (List.append_nil _).symm (fun hc => .inl hc) ?_
    exact h.performed hrunning hfd hview helse rfl rfl rfl hrest' hcall' hround'
      ⟨fun _ => hafter, fun _ => rfl⟩
  | handleClose =>
    have hview := Endpoint.view_handleClose (.conn c) (s.endpoint c conn)
    have hyes : u.established = true := h.established.mpr (hbegun (by simp [Instr.task?]))
    refine .move hexit (.handleClose hfree hyes) (h.trace_perform hrunning hfd hview)
      (List.append_nil _).symm (fun _ => .inr ⟨_, .inl List.mem_cons_self⟩) ?_
    exact h.performed hrunning hfd hview helse rfl rfl rfl hrest' hcall' hround'
      ⟨fun _ => hafter, fun _ => hyes⟩
  | handleError =>
    have hyes : u.established = true := h.established.mpr (hbegun (by simp [Instr.task?]))
    refine .move hexit (.handleError hfree hyes)
      (h.trace_perform (f := Endpoint.handleError) hrunning hfd rfl) (List.append_nil _).symm
      (fun hc => .inl hc) ?_
    exact h.performed hrunning hfd rfl helse rfl rfl rfl hrest' hcall' hround'
      ⟨fun _ => hafter, fun _ => hyes⟩
  | endOfFile =>
    have hview := Endpoint.view_handleClose (.conn c) (s.endpoint c conn)
    have hyes : u.established = true := h.established.mpr (hbegun (by simp [Instr.task?]))
    refine .move hexit (.endOfFile hfree hyes) (h.trace_perform hrunning hfd hview)
      (List.append_nil _).symm
      (fun _ => .inr ⟨.loop c.loop, .inl (List.mem_cons_of_mem _ List.mem_cons_self)⟩) ?_
    exact h.performed hrunning hfd hview helse rfl rfl rfl hrest' hcall' hround'
      ⟨fun _ => hafter, fun _ => hyes⟩
  | @handleRead res hne =>
    have hview := Endpoint.view_handleRead (.conn c) (s.endpoint c conn) res
    have hyes : u.established = true := h.established.mpr (hbegun (by simp [Instr.task?]))
    refine .move hexit (.handleRead hfree hyes hne) (h.trace_perform hrunning hfd hview)
      (List.append_nil _).symm (fun hc => .inl hc) ?_
    exact h.performed hrunning hfd hview helse rfl rfl rfl hrest' hcall' hround'
      ⟨fun _ => hafter, fun _ => hyes⟩
  | @handleWrite res hadm =>
    have hview := Endpoint.view_handleWrite (.conn c) (s.endpoint c conn) res
    have hyes : u.established = true := h.established.mpr (hbegun (by simp [Instr.task?]))
    have hadm' : res.Admissible u.conn.unsent := by rwa [hsame]
    refine .move hexit (.handleWrite hfree hyes hadm') (h.trace_perform hrunning hfd hview)
      (List.append_nil _).symm (fun hc => .inl hc) ?_
    exact h.performed hrunning hfd hview helse rfl rfl rfl hrest' hcall' hround'
      ⟨fun _ => hafter, fun _ => hyes⟩
  | disconnect => exact absurd rfl hdisconnect
  | removeChannel => exact absurd rfl hremove

/-- `connectionDestroyed` goes on after it has found the connection connected. -/
theorem Shows.disconnect (hround : (lay.round c.loop).destroying c = .found)
    (hrest : rawOf c (lay'.round c.loop).rest = rawOf c (lay.round c.loop).rest)
    (hcall : lay'.calls c = lay.calls c)
    (hround' : (lay'.round c.loop).destroying c = .removing)
    (hbegun : conn.state ≠ .kConnecting) {closes : Prop} :
    Matched c lay' (s.performed (.loop c.loop) c events ((s.endpoint c conn).disconnect (.conn c)))
      ((s.endpoint c conn).disconnect (.conn c)).conn u
      ((s.endpoint c conn).disconnect (.conn c)).trace [] closes := by
  have helse := Endpoint.elsewhere_disconnect (.conn c) (s.endpoint c conn)
  have hview := Endpoint.view_disconnect (.conn c) (s.endpoint c conn)
  have hstate : ((s.endpoint c conn).disconnect (.conn c)).conn.state ≠ .kConnecting := by
    have hdown : ((s.endpoint c conn).disconnect (.conn c)).conn.state = .kDisconnected := rfl
    rw [hdown]
    simp
  refine .move (h.not_exited hrunning) (.disconnect (h.destroying.trans hround))
    (h.trace_perform hrunning hfd hview) (List.append_nil _).symm (fun hc => .inl hc) ?_
  exact h.performed hrunning hfd hview helse rfl rfl rfl (h.rest.trans hrest.symm)
    (h.call.trans hcall.symm) hround'.symm
    ⟨fun _ => hstate, fun _ => h.established.mpr hbegun⟩

/-- The end of `connectionDestroyed`. -/
theorem Shows.removeChannel (hidle : lay.calls c (.loop c.loop) = .idle)
    (hround : (lay.round c.loop).destroying c = .removing)
    (hrest : rawOf c (lay'.round c.loop).rest = rawOf c (lay.round c.loop).rest)
    (hcall : lay'.calls c = lay.calls c)
    (hround' : (lay'.round c.loop).destroying c = .outside)
    (hbegun : conn.state ≠ .kConnecting) {closes : Prop} :
    Matched c lay' (s.performed (.loop c.loop) c events
      ((s.endpoint c conn).removeChannel (.conn c)))
      ((s.endpoint c conn).removeChannel (.conn c)).conn u
      ((s.endpoint c conn).removeChannel (.conn c)).trace [] closes := by
  have helse := Endpoint.elsewhere_removeChannel (.conn c) (s.endpoint c conn)
  have hview := Endpoint.view_removeChannel (.conn c) (s.endpoint c conn)
  have hidle' : u.call (.loop c.loop) = .idle := by rw [h.call, hidle]
  refine .move (h.not_exited hrunning) (.remove hidle' (h.destroying.trans hround))
    (h.trace_perform hrunning hfd hview) (List.append_nil _).symm (fun hc => .inl hc) ?_
  exact h.performed hrunning hfd hview helse rfl rfl rfl (h.rest.trans hrest.symm)
    (h.call.trans hcall.symm) hround'.symm
    ⟨fun _ => hbegun, fun _ => h.established.mpr hbegun⟩

/-- The loop thread goes on with its own `send`. -/
theorem Shows.sendDirect {message : List Byte} {res : WriteResult}
    (hadm : res.Admissible message.length)
    (hnow : lay.calls c (.loop c.loop) = .sending ⟨.loop c.loop, message⟩)
    (hrest : rawOf c (lay'.round c.loop).rest = rawOf c (lay.round c.loop).rest)
    (hcall : lay'.calls c = Function.update (lay.calls c) (.loop c.loop) .idle)
    (hround : (lay'.round c.loop).destroying c = (lay.round c.loop).destroying c)
    (hbegun : conn.state ≠ .kConnecting) {closes : Prop} :
    Matched c lay' (s.performed (.loop c.loop) c events
      ((s.endpoint c conn).sendInLoop (.conn c) message res))
      ((s.endpoint c conn).sendInLoop (.conn c) message res).conn u
      ((s.endpoint c conn).sendInLoop (.conn c) message res).trace [] closes := by
  have helse := Endpoint.elsewhere_sendInLoop (.conn c) message res (s.endpoint c conn)
  have hview := Endpoint.view_sendInLoop (.conn c) (s.endpoint c conn) message res
  have hquiet := Endpoint.quiet_sendInLoop (.conn c) message res (s.endpoint c conn)
  have hstate : ((s.endpoint c conn).sendInLoop (.conn c) message res).conn.state ≠
      .kConnecting := by
    rw [hquiet.state]
    exact hbegun
  have hnow' : u.call (.loop c.loop) = .sending ⟨.loop c.loop, message⟩ := by rw [h.call, hnow]
  have hcall' : Function.update u.call (.loop c.loop) .idle = lay'.calls c := by
    rw [h.call, hcall]
  refine .move (h.not_exited hrunning) (.sendDirect hnow' hadm)
    (h.trace_perform hrunning hfd hview) (List.append_nil _).symm (fun hc => .inl hc) ?_
  exact h.performed hrunning hfd hview helse rfl rfl rfl (h.rest.trans hrest.symm) hcall'
    (h.destroying.trans hround.symm) ⟨fun _ => hstate, fun _ => h.established.mpr hbegun⟩

/-- The same for `shutdown`. -/
theorem Shows.shutdownDirect (hnow : lay.calls c (.loop c.loop) = .shutting)
    (hrest : rawOf c (lay'.round c.loop).rest = rawOf c (lay.round c.loop).rest)
    (hcall : lay'.calls c = Function.update (lay.calls c) (.loop c.loop) .idle)
    (hround : (lay'.round c.loop).destroying c = (lay.round c.loop).destroying c)
    (hbegun : conn.state ≠ .kConnecting) {closes : Prop} :
    Matched c lay' (s.performed (.loop c.loop) c events (s.endpoint c conn).shutdownInLoop)
      (s.endpoint c conn).shutdownInLoop.conn u (s.endpoint c conn).shutdownInLoop.trace []
      closes := by
  have helse := Endpoint.elsewhere_shutdownInLoop (.conn c) (s.endpoint c conn)
  have hview := Endpoint.view_shutdownInLoop (.conn c) (s.endpoint c conn)
  have hsame : (s.endpoint c conn).shutdownInLoop.conn = conn := by
    rw [Endpoint.shutdownInLoop]
    split_ifs <;> rfl
  have hnow' : u.call (.loop c.loop) = .shutting := by rw [h.call, hnow]
  have hcall' : Function.update u.call (.loop c.loop) .idle = lay'.calls c := by
    rw [h.call, hcall]
  refine .move (h.not_exited hrunning) (.shutdownDirect hnow')
    (h.trace_perform hrunning hfd hview) (List.append_nil _).symm (fun hc => .inl hc) ?_
  refine h.performed hrunning hfd hview helse rfl rfl rfl (h.rest.trans hrest.symm) hcall'
    (h.destroying.trans hround.symm) ⟨fun _ => ?_, fun _ => h.established.mpr hbegun⟩
  rw [hsame]
  exact hbegun

omit hfd in
/-- The next functor of the batch is a `send` or a `shutdown` on the connection;
the notices in front of it are run first. -/
theorem Shows.next (hfree : u.Free (.loop c.loop)) {g : Functor L} {gs : List (Functor L)}
    (hg : g.raw? = some c) (hround : (lay.round c.loop).rest = g :: gs) :
    ∃ as f rest, (ConnectionLoop.system (.loop c.loop)).run u as =
        some { u with rest := f :: rest } ∧ posted c f = some g ∧
      rest.filterMap (posted c) = rawOf c gs := by
  have hrest := h.rest
  rw [hround, rawOf_cons_self hg] at hrest
  obtain ⟨fs, f, rest, hsplit, hnotices, hf, htail⟩ := List.filterMap_eq_cons_iff.mp hrest
  obtain ⟨as, has⟩ := run_notices hnotices hfree (h.not_exited hrunning) hsplit
  exact ⟨as, f, rest, has, hf, htail⟩

theorem Shows.runSend (hfree : u.Free (.loop c.loop)) {message : List Byte} {res : WriteResult}
    {gs : List (Functor L)} (hadm : res.Admissible message.length)
    (hround : (lay.round c.loop).rest = .sendInLoop c message :: gs)
    (hrest : (lay'.round c.loop).rest = gs) (hcall : lay'.calls c = lay.calls c)
    (hround' : (lay'.round c.loop).destroying c = (lay.round c.loop).destroying c)
    (hbegun : conn.state ≠ .kConnecting) {closes : Prop} :
    Matched c lay' (s.performed (.loop c.loop) c events
      ((s.endpoint c conn).sendInLoop (.conn c) message res))
      ((s.endpoint c conn).sendInLoop (.conn c) message res).conn u
      ((s.endpoint c conn).sendInLoop (.conn c) message res).trace [] closes := by
  have helse := Endpoint.elsewhere_sendInLoop (.conn c) message res (s.endpoint c conn)
  have hview := Endpoint.view_sendInLoop (.conn c) (s.endpoint c conn) message res
  have hquiet := Endpoint.quiet_sendInLoop (.conn c) message res (s.endpoint c conn)
  have hstate : ((s.endpoint c conn).sendInLoop (.conn c) message res).conn.state ≠
      .kConnecting := by
    rw [hquiet.state]
    exact hbegun
  obtain ⟨as, f, rest, hrun, hf, htail⟩ := h.next hrunning hfree rfl hround
  obtain ⟨m, rfl, rfl⟩ : ∃ m, f = .sendInLoop m ∧ m.payload = message := by
    cases f with
    | sendInLoop m =>
      have hpayload := Functor.sendInLoop.inj (Option.some.inj hf)
      exact ⟨m, rfl, hpayload.2⟩
    | shutdownInLoop => exact absurd (Option.some.inj hf) (by simp)
    | notice cb => contradiction
  have hmove : ConnectionLoop.Move (.loop c.loop)
      { u with rest := .sendInLoop m :: rest } (.runFunctor res)
      ({ u with rest := rest }.sendInLoop m res) := .runSend hfree rfl hadm
  refine .of_notices hrun (.move (h.not_exited hrunning) hmove
    (h.trace_perform hrunning hfd hview) (List.append_nil _).symm (fun hc => .inl hc) ?_)
  exact h.performed hrunning hfd hview helse rfl rfl rfl (hrest ▸ htail) (h.call.trans hcall.symm)
    (h.destroying.trans hround'.symm) ⟨fun _ => hstate, fun _ => h.established.mpr hbegun⟩

theorem Shows.runShutdown (hfree : u.Free (.loop c.loop)) {gs : List (Functor L)}
    (hround : (lay.round c.loop).rest = .shutdownInLoop c :: gs)
    (hrest : (lay'.round c.loop).rest = gs) (hcall : lay'.calls c = lay.calls c)
    (hround' : (lay'.round c.loop).destroying c = (lay.round c.loop).destroying c)
    (hbegun : conn.state ≠ .kConnecting) {closes : Prop} :
    Matched c lay' (s.performed (.loop c.loop) c events (s.endpoint c conn).shutdownInLoop)
      (s.endpoint c conn).shutdownInLoop.conn u (s.endpoint c conn).shutdownInLoop.trace []
      closes := by
  have helse := Endpoint.elsewhere_shutdownInLoop (.conn c) (s.endpoint c conn)
  have hview := Endpoint.view_shutdownInLoop (.conn c) (s.endpoint c conn)
  have hsame : (s.endpoint c conn).shutdownInLoop.conn = conn := by
    rw [Endpoint.shutdownInLoop]
    split_ifs <;> rfl
  obtain ⟨as, f, rest, hrun, hf, htail⟩ := h.next hrunning hfree rfl hround
  obtain rfl : f = .shutdownInLoop := by
    cases f with
    | sendInLoop m => exact absurd (Option.some.inj hf) (by simp)
    | shutdownInLoop => rfl
    | notice cb => contradiction
  have hmove : ConnectionLoop.Move (.loop c.loop)
      { u with rest := .shutdownInLoop :: rest } (.runFunctor (.wrote 0))
      { u with rest := rest }.shutdownInLoop := .runShutdown hfree rfl
  refine .of_notices hrun (.move (h.not_exited hrunning) hmove
    (h.trace_perform hrunning hfd hview) (List.append_nil _).symm (fun hc => .inl hc) ?_)
  refine h.performed hrunning hfd hview helse rfl rfl rfl (hrest ▸ htail) (h.call.trans hcall.symm)
    (h.destroying.trans hround'.symm) ⟨fun _ => ?_, fun _ => h.established.mpr hbegun⟩
  rw [hsame]
  exact hbegun

end Members

/-! ### The queue -/

section Queue

variable (h : Shows c lay s conn u) (hrunning : ∀ l, (s.pollers l).exited = false)

include h hrunning

/-- Another thread queues its `send`. -/
theorem Shows.sendQueue {message : List Byte} (ht : t ≠ .loop c.loop)
    (hnow : lay.calls c t = .sending ⟨t, message⟩) (hpollers : s'.pollers = s.pollers)
    (hpending : rawOf c (s'.loops c.loop).pendingFunctors =
      rawOf c (s.loops c.loop).pendingFunctors ++ [.sendInLoop c message])
    (hrest : rawOf c (lay'.round c.loop).rest = rawOf c (lay.round c.loop).rest)
    (hcall : lay'.calls c = Function.update (lay.calls c) t .idle)
    (hround : (lay'.round c.loop).destroying c = (lay.round c.loop).destroying c)
    {closes : Prop} : Matched c lay' s' conn u [] [] closes := by
  have hnow' : u.call t = .sending ⟨t, message⟩ := by rw [h.call, hnow]
  have hmove : ConnectionLoop.Move (.loop c.loop) u (.sendBody t (.wrote 0)) _ :=
    .sendQueue hnow' ht
  refine .move (h.not_exited hrunning) hmove (List.append_nil _).symm (List.append_nil _).symm
    (fun hc => .inl hc) ⟨h.same, fun _ => ?_, ?_, h.rest.trans hrest.symm, ?_,
      h.destroying.trans hround.symm, h.established⟩
  · rw [hpollers]
    exact h.poller hrunning
  · rw [hpending, ← h.pending]
    exact List.filterMap_append
  · rw [hcall, ← h.call]
    rfl

/-- Another thread queues its `shutdown`. -/
theorem Shows.shutdownQueue (ht : t ≠ .loop c.loop) (hnow : lay.calls c t = .shutting)
    (hpollers : s'.pollers = s.pollers)
    (hpending : rawOf c (s'.loops c.loop).pendingFunctors =
      rawOf c (s.loops c.loop).pendingFunctors ++ [.shutdownInLoop c])
    (hrest : rawOf c (lay'.round c.loop).rest = rawOf c (lay.round c.loop).rest)
    (hcall : lay'.calls c = Function.update (lay.calls c) t .idle)
    (hround : (lay'.round c.loop).destroying c = (lay.round c.loop).destroying c)
    {closes : Prop} : Matched c lay' s' conn u [] [] closes := by
  have hnow' : u.call t = .shutting := by rw [h.call, hnow]
  have hmove : ConnectionLoop.Move (.loop c.loop) u (.shutdownBody t) _ := .shutdownQueue hnow' ht
  refine .move (h.not_exited hrunning) hmove (List.append_nil _).symm (List.append_nil _).symm
    (fun hc => .inl hc) ⟨h.same, fun _ => ?_, ?_, h.rest.trans hrest.symm, ?_,
      h.destroying.trans hround.symm, h.established⟩
  · rw [hpollers]
    exact h.poller hrunning
  · rw [hpending, ← h.pending]
    exact List.filterMap_append
  · rw [hcall, ← h.call]
    rfl

/-- The loop takes the queue; what is left of the last batch is notices. -/
theorem Shows.swap (hidle : lay.calls c (.loop c.loop) = .idle)
    (houtside : (lay.round c.loop).destroying c = .outside)
    (hround : (lay.round c.loop).rest = []) (hpollers : s'.pollers = s.pollers)
    (hpending : (s'.loops c.loop).pendingFunctors = [])
    (hrest : (lay'.round c.loop).rest = (s.loops c.loop).pendingFunctors)
    (hcall : lay'.calls c = lay.calls c)
    (hround' : (lay'.round c.loop).destroying c = .outside) {closes : Prop} :
    Matched c lay' s' conn u [] [] closes := by
  have hfree := h.free hidle houtside
  have hnotices : ∀ f ∈ u.rest, posted c f = none := by
    have hnone := h.rest
    rw [hround] at hnone
    exact List.filterMap_eq_nil_iff.mp hnone
  obtain ⟨as, has⟩ := run_notices hnotices hfree (h.not_exited hrunning)
    (List.append_nil u.rest).symm
  have hmove : ConnectionLoop.Move (.loop c.loop) { u with rest := [] } .swap
      { u with pending := [], rest := u.pending } := .swap hfree rfl
  refine .of_notices has (.move (h.not_exited hrunning) hmove (List.append_nil _).symm
    (List.append_nil _).symm (fun hc => .inl hc) ⟨h.same, fun _ => ?_, ?_, ?_,
      h.call.trans hcall.symm, ?_, h.established⟩)
  · rw [hpollers]
    exact h.poller hrunning
  · rw [hpending]
    rfl
  · rw [hrest]
    exact h.pending
  · rw [hround']
    exact hfree.2

/-- `connectionDestroyed` begins. -/
theorem Shows.connectionDestroyed (hidle : lay.calls c (.loop c.loop) = .idle)
    (houtside : (lay.round c.loop).destroying c = .outside) (hpollers : s'.pollers = s.pollers)
    (hpending : (s'.loops c.loop).pendingFunctors = (s.loops c.loop).pendingFunctors)
    (hrest : rawOf c (lay'.round c.loop).rest = rawOf c (lay.round c.loop).rest)
    (hcall : lay'.calls c = lay.calls c)
    (hround : (lay'.round c.loop).destroying c =
      if conn.state = .kConnected then .found else .removing)
    (hbegun : conn.state ≠ .kConnecting) : Matched c lay' s' conn u [] [] True := by
  have hfree := h.free hidle houtside
  have hyes : u.established = true := h.established.mpr hbegun
  have hsame := h.same
  by_cases hstate : conn.state = .kConnected
  · have hmove : ConnectionLoop.Move (.loop c.loop) u .connectionDestroyed
        { u with closed := true, destroying := .found } :=
      .destroyedFound hfree hyes (by rwa [hsame])
    refine .move (h.not_exited hrunning) hmove (List.append_nil _).symm (List.append_nil _).symm
      (fun _ => .inr trivial) ⟨h.same, fun _ => ?_, ?_, h.rest.trans hrest.symm,
        h.call.trans hcall.symm, ?_, h.established⟩
    · rw [hpollers]
      exact h.poller hrunning
    · rw [hpending]
      exact h.pending
    · rw [hround, if_pos hstate]
  · have hmove : ConnectionLoop.Move (.loop c.loop) u .connectionDestroyed
        { u with closed := true, destroying := .removing } :=
      .destroyedSkips hfree hyes (by rwa [hsame])
    refine .move (h.not_exited hrunning) hmove (List.append_nil _).symm (List.append_nil _).symm
      (fun _ => .inr trivial) ⟨h.same, fun _ => ?_, ?_, h.rest.trans hrest.symm,
        h.call.trans hcall.symm, ?_, h.established⟩
    · rw [hpollers]
      exact h.poller hrunning
    · rw [hpending]
      exact h.pending
    · rw [hround, if_neg hstate]

/-! ### `send` and `shutdown` -/

/-- User code may run on thread `t`. -/
def UserCode (lay : Layout L U) (c : ConnPtr L) (t : Thread L U) : Prop :=
  lay.calls c t = .idle ∧ (t = .loop c.loop → (lay.round c.loop).destroying c ≠ .found)

omit hrunning [DecidableEq U] in
theorem Shows.inUserCode (hu : UserCode lay c t) : u.InUserCode (.loop c.loop) t := by
  refine ⟨by rw [h.call, hu.1], fun ht => ?_⟩
  rw [h.destroying]
  exact hu.2 ht

/-- `send` on a connection that is connected. -/
theorem Shows.send {message : List Byte} (hu : UserCode lay c t)
    (hstate : conn.state = .kConnected) (hloops : s'.loops = s.loops)
    (hpollers : s'.pollers = s.pollers) (hround : lay'.round = lay.round)
    (hcall : lay'.calls c = Function.update (lay.calls c) t (.sending ⟨t, message⟩))
    {closes : Prop} : Matched c lay' s' conn u [] [⟨t, message⟩] closes := by
  have hmove : ConnectionLoop.Move (.loop c.loop) u (.send t message) _ :=
    .sendTest (h.inUserCode hu) (by rw [h.same, hstate])
  refine .move (h.not_exited hrunning) hmove (List.append_nil _).symm rfl (fun hc => .inl hc)
    ⟨h.same, ?_, ?_, ?_, ?_, ?_, h.established⟩
  · rw [hpollers]
    exact h.poller
  · rw [hloops]
    exact h.pending
  · rw [hround]
    exact h.rest
  · rw [hcall, ← h.call]
    rfl
  · rw [hround]
    exact h.destroying

/-- `send` on any other connection only counts as called. -/
theorem Shows.sendRefused (message : List Byte) (hu : UserCode lay c t)
    (hstate : conn.state ≠ .kConnected) {closes : Prop} :
    Matched c lay s conn u [] [⟨t, message⟩] closes := by
  have hmove : ConnectionLoop.Move (.loop c.loop) u (.send t message) _ :=
    .sendRefused (h.inUserCode hu) (by rwa [h.same])
  exact .move (h.not_exited hrunning) hmove (List.append_nil _).symm rfl (fun hc => .inl hc)
    ⟨h.same, h.poller, h.pending, h.rest, h.call, h.destroying, h.established⟩

/-- `shutdown` on a connection that is connected. -/
theorem Shows.shutdown (hu : UserCode lay c t) (hstate : conn.state = .kConnected)
    (hloops : s'.loops = s.loops) (hpollers : s'.pollers = s.pollers)
    (hround : lay'.round = lay.round)
    (hcall : lay'.calls c = Function.update (lay.calls c) t .storing) {closes : Prop} :
    Matched c lay' s' conn u [] [] closes := by
  have hmove : ConnectionLoop.Move (.loop c.loop) u (.shutdown t) _ :=
    .shutdownTest (h.inUserCode hu) (by rw [h.same, hstate])
  refine .move (h.not_exited hrunning) hmove (List.append_nil _).symm (List.append_nil _).symm
    (fun hc => .inl hc) ⟨h.same, ?_, ?_, ?_, ?_, ?_, h.established⟩
  · rw [hpollers]
    exact h.poller
  · rw [hloops]
    exact h.pending
  · rw [hround]
    exact h.rest
  · rw [hcall, ← h.call]
    rfl
  · rw [hround]
    exact h.destroying

/-- The store of `shutdown`. -/
theorem Shows.store (hnow : lay.calls c t = .storing) (hloops : s'.loops = s.loops)
    (hpollers : s'.pollers = s.pollers) (hround : lay'.round = lay.round)
    (hcall : lay'.calls c = Function.update (lay.calls c) t .shutting)
    (hbegun : conn.state ≠ .kConnecting) {closes : Prop} :
    Matched c lay' s' { conn with state := .kDisconnecting } u [] [] closes := by
  have hnow' : u.call t = .storing := by rw [h.call, hnow]
  have hmove : ConnectionLoop.Move (.loop c.loop) u (.store t) _ := .store hnow'
  refine .move (h.not_exited hrunning) hmove (List.append_nil _).symm (List.append_nil _).symm
    (fun hc => .inl hc) ⟨?_, ?_, ?_, ?_, ?_, ?_, ?_⟩
  · rw [← h.same]
  · rw [hpollers]
    exact h.poller
  · rw [hloops]
    exact h.pending
  · rw [hround]
    exact h.rest
  · rw [hcall, ← h.call]
    rfl
  · rw [hround]
    exact h.destroying
  · exact ⟨fun _ => by simp, fun _ => h.established.mpr hbegun⟩

end Queue

end TcpServer

end Moduo
