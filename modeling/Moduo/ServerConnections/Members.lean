/-
The members of a connection, as the records of a server show them.

* `observed` — the server with, for every connection, what its members have done
  and the calls of `send` on it;
* `Shows.exec_aside` — an instruction that does not concern a connection;
* `Shows.member_body`, `Shows.member_enter`, `Shows.member_turn` — a member of it,
  in the three places of a layout where one can be.
-/
import Moduo.ServerConnections.Moves

namespace Moduo

namespace TcpServer

variable {L U : Type*}

/-- The effects of the members of a connection, and the calls of `send` on it. -/
structure Record (T : Type*) where
  trace : List Effect
  called : List (Message T)

/-- The member an instruction calls, given the outcome of its system call. -/
def Instr.member? (o : Outcome) :
    Instr L → Option (ConnPtr L × (Endpoint (ChannelPtr L) → Endpoint (ChannelPtr L)))
  | .functor (.sendInLoop c message) =>
    match o with
    | .wrote res => some (c, Endpoint.sendInLoop (.conn c) message res)
    | _ => none
  | .functor (.shutdownInLoop c) => some (c, Endpoint.shutdownInLoop)
  | .functor (.connectionEstablished c) => some (c, Endpoint.connectionEstablished (.conn c))
  | .closeCallback c => some (c, Endpoint.handleClose (.conn c))
  | .errorCallback c => some (c, Endpoint.handleError)
  | .readCallback c =>
    match o with
    | .read res => some (c, Endpoint.handleRead (.conn c) res)
    | _ => none
  | .writeCallback c =>
    match o with
    | .wrote res => some (c, Endpoint.handleWrite (.conn c) res)
    | _ => none
  | .disconnect c => some (c, Endpoint.disconnect (.conn c))
  | .removeChannel c => some (c, Endpoint.removeChannel (.conn c))
  | _ => none

section Observe

variable [DecidableEq L]

/-- What connection `c` does to the outside in a step. -/
def State.effects (s : State L U) (c : ConnPtr L) : Label L U → List Effect
  | .exec t o =>
    match (s.stack t).head?.bind (Instr.member? o), s.heap c with
    | some (d, f), some conn => if d = c then (f (s.endpoint c conn)).trace else []
    | _, _ => []
  | _ => []

/-- The call of `send` on connection `c` that a step is. -/
def sends (c : ConnPtr L) : Label L U → List (Message (Thread L U))
  | .send t d message => if d = c then [⟨t, message⟩] else []
  | _ => []

/-- The records after a step. -/
def observe (s : State L U) (a : Label L U) (records : ConnPtr L → Record (Thread L U)) :
    ConnPtr L → Record (Thread L U) :=
  fun c => ⟨(records c).trace ++ s.effects c a, (records c).called ++ sends c a⟩

/-- A server, observed. -/
def observed [Fintype L] [DecidableEq U] (cfg : Config L U) :
    Machine (State L U × (ConnPtr L → Record (Thread L U))) (Label L U) :=
  (system cfg).recording (fun _ => ⟨[], []⟩) observe

variable {cfg : Config L U} {c d : ConnPtr L} {s s' : State L U} {conn conn' : TcpConnection}
  {t : Thread L U} {i : Instr L} {o : Outcome} {rest is : List (Instr L)}
  {events : List (Event L U)} {f : Endpoint (ChannelPtr L) → Endpoint (ChannelPtr L)}

omit [DecidableEq L] in
theorem Calls.member? (h : Calls t c conn i o events f) : i.member? o = some (c, f) := by
  cases h <;> rfl

theorem effects_self (hstack : s.stack t = i :: rest) (hconn : s.heap c = some conn)
    (hcalls : Calls t c conn i o events f) :
    s.effects c (.exec t o) = (f (s.endpoint c conn)).trace := by
  simp [State.effects, hstack, hcalls.member?, hconn]

theorem effects_other (hstack : s.stack t = i :: rest) (hcalls : Calls t d conn' i o events f)
    (hd : d ≠ c) : s.effects c (.exec t o) = [] := by
  simp only [State.effects, hstack, List.head?_cons, Option.bind_some, hcalls.member?]
  cases s.heap c with
  | none => rfl
  | some conn => exact if_neg hd

theorem effects_none (hstack : s.stack t = i :: rest) (hi : i.member? o = none) :
    s.effects c (.exec t o) = [] := by
  simp [State.effects, hstack, hi]

theorem effects_absent (hnone : s.heap c = none) (a : Label L U) : s.effects c a = [] := by
  cases a with
  | exec t o =>
    simp only [State.effects, hnone]
    split <;> first | rfl | contradiction
  | _ => rfl

/-! ### Instructions that do not concern a connection -/

/-- The instruction neither is part of a `send`, a `shutdown` or a
`connectionDestroyed` of `c` nor takes the queue of its loop. -/
structure Instr.Apart (c : ConnPtr L) (t : Thread L U) (i : Instr L) : Prop where
  call : i.call c t = .idle
  swap : i ≠ .swap c.loop
  destroyed : i ≠ .functor (.connectionDestroyed c)
  disconnect : i ≠ .disconnect c
  removeChannel : i ≠ .removeChannel c

omit [DecidableEq L] in
theorem Functor.about_of_raw {f : Functor L} (hf : f.raw? = some c) : f.about? = some c := by
  cases f <;> first | exact hf | contradiction

/-- An instruction about something else is part of no call on `c`. -/
theorem Instr.call_of_about (h : i.about? ≠ some c) : i.call c t = .idle := by
  cases i with
  | functor f => exact Functor.call_of_ne fun hraw => h (Functor.about_of_raw hraw)
  | queueInLoop l f => exact Functor.call_of_ne fun hraw => h (Functor.about_of_raw hraw)
  | setDisconnecting d => exact if_neg fun hd => h (by rw [Instr.about?, hd])
  | _ => rfl

theorem Instr.Apart.of_about (h : i.about? ≠ some c) (hswap : i ≠ .swap c.loop) :
    i.Apart c t where
  call := Instr.call_of_about h
  swap := hswap
  destroyed := by
    rintro rfl
    exact h rfl
  disconnect := by
    rintro rfl
    exact h rfl
  removeChannel := by
    rintro rfl
    exact h rfl

variable [DecidableEq U] {lay lay' : Layout L U} {u : ConnectionLoop.State (Thread L U)}

theorem Shows.exec_aside (h : Shows c lay s conn u) (hfits : lay.Fits s)
    (hrunning : ∀ l, (s.pollers l).exited = false) (hconn : s.heap c = some conn)
    (hgoes : lay.Goes t i is lay') (hi : i.Apart c t)
    (hnext : (∀ l, i ≠ .swap l) → callOf c t is = .idle) (hheap : s'.heap c = s.heap c)
    (hslots : (s'.pollers c.loop).channels c.fd = (s.pollers c.loop).channels c.fd ∧
      (s'.pollers c.loop).epoll c.fd = (s.pollers c.loop).epoll c.fd)
    (hpending : rawOf c (s'.loops c.loop).pendingFunctors =
      rawOf c (s.loops c.loop).pendingFunctors) {closes : Prop} :
    ∃ conn', s'.heap c = some conn' ∧ Matched c lay' s' conn' u [] [] closes := by
  obtain ⟨hrest, hcall, hround⟩ := hgoes.aside hfits hi.call hnext hi.swap hi.destroyed
    hi.disconnect hi.removeChannel
  have hshows := h.frame hrunning ⟨hslots.1, hslots.2, hpending, hrest, hcall, hround⟩
  exact ⟨conn, hheap.trans hconn, [], u, rfl, (List.append_nil _).symm, (List.append_nil _).symm,
    fun hc => .inl hc, hshows⟩

omit [DecidableEq U] in
/-- What user code and the loops push is part of no call. -/
theorem callOf_effects (tr : List Effect) : callOf c t (tr.flatMap (effectInstrs d)) = .idle := by
  refine callOf_eq_idle fun j hj => ?_
  rcases mem_effects hj with ⟨cb, rfl⟩ | rfl | rfl
  · rfl
  · rfl
  · rfl

omit [DecidableEq U] in
theorem callOf_runInLoop {l : L} {f : Functor L} (hf : f.raw? ≠ some c) :
    callOf c t (cfg.runInLoop t l f) = .idle := by
  rw [Config.runInLoop]
  split_ifs
  · exact Functor.call_of_ne hf
  · exact Functor.call_of_ne hf

omit [DecidableEq U] in
/-- A member of another connection does not touch the entries of `c`. -/
theorem slots_performed [Fintype L] (hground : Ground cfg s) (hconn : s.heap c = some conn)
    (hconn' : s.heap d = some conn') (hcalls : Calls t d conn' i o events f) (hd : d ≠ c) :
    ((s.performed t d events (f (s.endpoint d conn'))).pollers c.loop).channels c.fd =
        (s.pollers c.loop).channels c.fd ∧
      ((s.performed t d events (f (s.endpoint d conn'))).pollers c.loop).epoll c.fd =
        (s.pollers c.loop).epoll c.fd := by
  have hne : c.fd ≠ conn'.channel.fd := by
    intro heq
    rw [hground.ledger.fd_eq d conn' hconn'] at heq
    exact hd (hground.ledger.fd_injective d c (Option.isSome_of_eq_some hconn')
      (Option.isSome_of_eq_some hconn) heq.symm)
  have helse := hcalls.elsewhere (s.pollers d.loop)
  by_cases hl : c.loop = d.loop
  · simp only [State.performed, hl, Function.update_self]
    exact ⟨helse.channels _ hne, helse.epoll _ hne⟩
  · have hsame : (s.performed t d events (f (s.endpoint d conn'))).pollers c.loop =
        s.pollers c.loop := Function.update_of_ne hl _ _
    rw [hsame]
    exact ⟨rfl, rfl⟩

/-! ### Members of the connection -/

variable [Fintype L]

/-- The thread of the loop of `c` runs a member of `c`; `conn` has been established,
or the member is what establishes it. -/
structure Performing (c : ConnPtr L) (s : State L U) (conn : TcpConnection) (i : Instr L) :
    Prop where
  mem : i ∈ s.stack (.loop c.loop)
  heap : s.heap c = some conn
  begun : i.task? ≠ some (.establish, c) → conn.state ≠ .kConnecting
  establish : i.task? = some (.establish, c) → conn.state = .kConnecting

omit [DecidableEq U] in
theorem Ground.member (hground : Ground cfg s) (hconn : s.heap c = some conn)
    (hi : i ∈ s.stack (.loop c.loop)) (habout : i.about? = some c) : Performing c s conn i := by
  refine ⟨hi, hconn, fun htask => (hground.stack _ i hi c habout).2 htask conn hconn,
    fun htask => ?_⟩
  by_contra hstate
  have hpos := task_of_mem hi htask
  have hzero := (hground.establish c).2 fun conn' hconn' => by
    obtain rfl := Option.some.inj (hconn.symm.trans hconn')
    exact hstate
  omega

section Performing

variable (hground : Ground cfg s) (hfits : lay.Fits s) (h : Shows c lay s conn u)
  (hrunning : ∀ l, (s.pollers l).exited = false) (hfd : conn.channel.fd = c.fd)
  (hmember : Performing c s conn i) (hcalls : Calls (.loop c.loop) c conn i o events f)

include hground hfits h hrunning hfd hmember hcalls

/-- In the body of a handler, a functor or other code. -/
theorem Shows.member_body {b : List (Instr L)} (hbody : lay.body (.loop c.loop) = i :: b)
    (hlay' : lay' = lay.setBody (.loop c.loop)
      ((f (s.endpoint c conn)).trace.flatMap (effectInstrs c) ++ b)) :
    Matched c lay' (s.performed (.loop c.loop) c events (f (s.endpoint c conn)))
      (f (s.endpoint c conn)).conn u (f (s.endpoint c conn)).trace [] (Closes c events) := by
  have hin : i.inside (lay.round c.loop) = true :=
    hfits.inside (.loop c.loop) i (hbody ▸ List.mem_cons_self)
  have hnow : lay.calls c (.loop c.loop) = i.call c (.loop c.loop) := by
    rw [Layout.calls, hbody]
    rfl
  have hround : lay'.round = lay.round := by
    rw [hlay']
    rfl
  have hcall : lay'.calls c = Function.update (lay.calls c) (.loop c.loop) .idle := by
    rw [hlay', hfits.calls_body hbody, callOf_effects]
  have hrest : rawOf c (lay'.round c.loop).rest = rawOf c (lay.round c.loop).rest := by
    rw [hround]
  have hsame : (lay'.round c.loop).destroying c = (lay.round c.loop).destroying c := by
    rw [hround]
  by_cases hraw : i.call c (.loop c.loop : Thread L U) = .idle
  · -- a callback of the channel, or the connection is established
    have hcall' : lay'.calls c = lay.calls c := by
      rw [hcall, ← hraw, ← hnow, Function.update_eq_self]
    have houtside : (lay.round c.loop).destroying c = .outside := by
      cases hr : lay.round c.loop with
      | disconnecting d functors =>
        have hidle := hfits.idle c.loop (by rw [hr]; rfl)
        rw [hbody] at hidle
        contradiction
      | removing d functors =>
        refine if_neg fun hd => ?_
        subst hd
        -- the connection that is being removed has been established
        have hmem : Instr.removeChannel d ∈ s.stack (.loop d.loop) := by
          rw [hfits.stack]
          refine List.mem_append_right _ ?_
          rw [Layout.rest, hr]
          exact List.mem_cons_self
        have hstate := (hground.stack _ _ hmem d rfl).2 (by simp [Instr.task?]) conn hmember.heap
        rw [hr] at hin
        cases hcalls with
        | sendInLoop => exact absurd hraw (by simp [Instr.call, Functor.call])
        | shutdownInLoop => exact absurd hraw (by simp [Instr.call, Functor.call])
        | connectionEstablished => exact hstate (hmember.establish rfl)
        | _ => contradiction
      | _ => rfl
    refine h.callback hrunning hfd hcalls (h.free (hnow.trans hraw) houtside) hraw ?_ ?_
      hmember.begun hmember.establish hrest hcall' hsame
    · rintro rfl
      contradiction
    · rintro rfl
      contradiction
  · cases hcalls with
    | sendInLoop hadm =>
      refine h.sendDirect hrunning hfd hadm ?_ hrest hcall hsame
        (hmember.begun (by simp [Instr.task?, Functor.task?]))
      rw [hnow]
      simp [Instr.call, Functor.call]
    | shutdownInLoop =>
      refine h.shutdownDirect hrunning hfd ?_ hrest hcall hsame
        (hmember.begun (by simp [Instr.task?, Functor.task?]))
      rw [hnow]
      simp [Instr.call, Functor.call]
    | _ => exact absurd rfl hraw

omit [Fintype L] hground hfits in
/-- As a functor of the batch, or after `connectionDestroyed` has found the
connection connected. -/
theorem Shows.member_enter {r : Round L} (hbody : lay.body (.loop c.loop) = [])
    (henter : (lay.round c.loop).Enters i r)
    (hlay' : lay' = (lay.setRound c.loop r).setBody (.loop c.loop)
      ((f (s.endpoint c conn)).trace.flatMap (effectInstrs c))) :
    Matched c lay' (s.performed (.loop c.loop) c events (f (s.endpoint c conn)))
      (f (s.endpoint c conn)).conn u (f (s.endpoint c conn)).trace [] (Closes c events) := by
  have hidle : lay.calls c (.loop c.loop) = .idle := by
    rw [Layout.calls, hbody]
    rfl
  have hround' : lay'.round c.loop = r := by
    rw [hlay', Layout.setBody_round, Layout.setRound_self]
  have hcall : lay'.calls c = lay.calls c := by
    rw [hlay', Layout.calls_enter, callOf_effects, ← hidle, Function.update_eq_self]
  generalize hround : lay.round c.loop = r₀ at henter
  cases henter with
  | handleEvent => cases hcalls
  | @functor g functors hg =>
    have houtside : (lay.round c.loop).destroying c = .outside := by
      rw [hround]
      rfl
    have hsame : (lay'.round c.loop).destroying c = (lay.round c.loop).destroying c := by
      rw [hround', houtside]
      rfl
    have hfree := h.free hidle houtside
    have hall : (lay.round c.loop).rest = g :: functors := by
      rw [hround]
      rfl
    have hleft : (lay'.round c.loop).rest = functors := by
      rw [hround']
      rfl
    cases hcalls with
    | sendInLoop hadm =>
      exact h.runSend hrunning hfd hfree hadm hall hleft hcall hsame
        (hmember.begun (by simp [Instr.task?, Functor.task?]))
    | shutdownInLoop =>
      exact h.runShutdown hrunning hfd hfree hall hleft hcall hsame
        (hmember.begun (by simp [Instr.task?, Functor.task?]))
    | connectionEstablished =>
      have hrest : rawOf c (lay'.round c.loop).rest = rawOf c (lay.round c.loop).rest := by
        rw [hleft, hall, rawOf_cons_other (by simp [Functor.raw?])]
      exact h.callback hrunning hfd (.connectionEstablished (o := o)) hfree rfl (by simp) (by simp)
        hmember.begun hmember.establish hrest hcall hsame
  | disconnect =>
    cases hcalls with
    | disconnect =>
      refine h.disconnect hrunning hfd ?_ ?_ hcall ?_ (hmember.begun (by simp [Instr.task?]))
      · rw [hround]
        exact if_pos rfl
      · rw [hround', hround]
        rfl
      · rw [hround']
        exact if_pos rfl

omit [Fintype L] hground hfits in
/-- At the end of `connectionDestroyed`. -/
theorem Shows.member_turn {r : Round L} {is : List (Instr L)}
    (hbody : lay.body (.loop c.loop) = []) (hturn : (lay.round c.loop).Turn c.loop i is r)
    (hlay' : lay' = lay.setRound c.loop r) :
    Matched c lay' (s.performed (.loop c.loop) c events (f (s.endpoint c conn)))
      (f (s.endpoint c conn)).conn u (f (s.endpoint c conn)).trace [] (Closes c events) := by
  have hidle : lay.calls c (.loop c.loop) = .idle := by
    rw [Layout.calls, hbody]
    rfl
  have hround' : lay'.round c.loop = r := by rw [hlay', Layout.setRound_self]
  have hcall : lay'.calls c = lay.calls c := by
    rw [hlay']
    rfl
  generalize hround : lay.round c.loop = r₀ at hturn
  cases hturn with
  | removeChannel =>
    cases hcalls with
    | removeChannel =>
      refine h.removeChannel hrunning hfd hidle ?_ ?_ hcall ?_
        (hmember.begun (by simp [Instr.task?]))
      · rw [hround]
        exact if_pos rfl
      · rw [hround', hround]
        rfl
      · rw [hround']
        rfl
  | _ => cases hcalls

end Performing

end Observe

end TcpServer

end Moduo
