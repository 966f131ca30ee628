/-
A connection of a server and a connection on its loop, side by side.

`Shows` says that a state of `ConnectionLoop` shows what the server knows of one
connection: the connection and the entries of its channel, the calls of `send`
and `shutdown` that are under way or queued, and how far `connectionDestroyed` is.
The notices of a connection, which the server queues one instruction after the
member, are left out of the comparison.

* `Shows.frame` — steps that do not concern the connection;
* `Shows.performed` — a member of the connection;
* `Layout.Goes.aside` — an instruction that does not concern the connection.
-/
import Moduo.ConnectionLoop
import Moduo.ServerGround

namespace Moduo

namespace TcpServer

variable {L U : Type*}

/-- The functor as the server queues it. -/
def posted {T : Type*} (c : ConnPtr L) : ConnectionLoop.Functor T → Option (Functor L)
  | .sendInLoop m => some (.sendInLoop c m.payload)
  | .shutdownInLoop => some (.shutdownInLoop c)
  | .notice _ => none

section Calls

variable [DecidableEq L]

def Functor.call (c : ConnPtr L) (t : Thread L U) : Functor L → ConnectionLoop.Call (Thread L U)
  | .sendInLoop d message => if d = c then .sending ⟨t, message⟩ else .idle
  | .shutdownInLoop d => if d = c then .shutting else .idle
  | _ => .idle

/-- Where thread `t` is inside a `send` or `shutdown` on `c` when it is about to run
this instruction. -/
def Instr.call (c : ConnPtr L) (t : Thread L U) : Instr L → ConnectionLoop.Call (Thread L U)
  | .functor f => f.call c t
  | .queueInLoop _ f => f.call c t
  | .setDisconnecting d => if d = c then .storing else .idle
  | _ => .idle

def callOf (c : ConnPtr L) (t : Thread L U) : List (Instr L) → ConnectionLoop.Call (Thread L U)
  | [] => .idle
  | i :: _ => i.call c t

/-- Where every thread is inside a `send` or `shutdown` on `c`. -/
def Layout.calls (c : ConnPtr L) (lay : Layout L U) (t : Thread L U) :
    ConnectionLoop.Call (Thread L U) := callOf c t (lay.body t)

/-- How far `connectionDestroyed` of `c` is. -/
def Round.destroying (c : ConnPtr L) : Round L → ConnectionLoop.Destroying
  | .disconnecting d _ => if d = c then .found else .outside
  | .removing d _ => if d = c then .removing else .outside
  | _ => .outside

/-- The calls of `send` and `shutdown` on `c` among these functors. -/
def rawOf (c : ConnPtr L) (functors : List (Functor L)) : List (Functor L) :=
  functors.filter fun f => f.raw? = some c

variable {c : ConnPtr L} {t : Thread L U}

theorem rawOf_append (fs fs' : List (Functor L)) :
    rawOf c (fs ++ fs') = rawOf c fs ++ rawOf c fs' :=
  List.filter_append _ _

theorem rawOf_cons_self {f : Functor L} (hf : f.raw? = some c) (fs : List (Functor L)) :
    rawOf c (f :: fs) = f :: rawOf c fs :=
  List.filter_cons_of_pos (by simp [hf])

theorem rawOf_cons_other {f : Functor L} (hf : f.raw? ≠ some c) (fs : List (Functor L)) :
    rawOf c (f :: fs) = rawOf c fs :=
  List.filter_cons_of_neg (by simp [hf])

theorem rawOf_push_other {loop : EventLoop (Functor L)} {f : Functor L} (hf : f.raw? ≠ some c) :
    rawOf c (loop.push f).pendingFunctors = rawOf c loop.pendingFunctors := by
  rw [EventLoop.push, rawOf_append, rawOf_cons_other hf]
  exact List.append_nil _

theorem Functor.call_of_ne {f : Functor L} (hf : f.raw? ≠ some c) : f.call c t = .idle := by
  cases f with
  | sendInLoop d message => exact if_neg fun hd => hf (congrArg some hd)
  | shutdownInLoop d => exact if_neg fun hd => hf (congrArg some hd)
  | _ => rfl

theorem Functor.call_ne_idle {f : Functor L} (hf : f.raw? = some c) : f.call c t ≠ .idle := by
  cases f with
  | sendInLoop d message =>
    rw [Functor.call, if_pos (Option.some.inj hf)]
    simp
  | shutdownInLoop d =>
    rw [Functor.call, if_pos (Option.some.inj hf)]
    simp
  | _ => contradiction

theorem Instr.call_of_not_immediate {i : Instr L} (hi : i.immediate = false) :
    i.call c t = .idle := by
  have hraw : ∀ f : Functor L, f.raw?.isSome = false → f.call c t = .idle := by
    intro f hf
    refine Functor.call_of_ne fun h => ?_
    rw [h] at hf
    contradiction
  cases i with
  | functor f => exact hraw f hi
  | queueInLoop l f => exact hraw f hi
  | setDisconnecting d => contradiction
  | _ => rfl

theorem callOf_eq_idle {is : List (Instr L)} (h : ∀ i ∈ is, i.immediate = false) :
    callOf c t is = .idle := by
  cases is with
  | nil => rfl
  | cons i is => exact Instr.call_of_not_immediate (h i List.mem_cons_self)

/-- Below what a step pushes nothing is immediate. -/
theorem callOf_append {is b : List (Instr L)} (hb : ∀ i ∈ b, i.immediate = false) :
    callOf c t (is ++ b) = callOf c t is := by
  cases is with
  | nil => exact callOf_eq_idle hb
  | cons i is => rfl

end Calls

section Shows

variable [DecidableEq L]

/-- State `u` shows connection `c` of server state `s`. -/
structure Shows (c : ConnPtr L) (lay : Layout L U) (s : State L U) (conn : TcpConnection)
    (u : ConnectionLoop.State (Thread L U)) : Prop where
  same : u.conn = conn
  poller : (∀ l, (s.pollers l).exited = false) → u.poller = (s.pollers c.loop).view (.conn c) c.fd
  pending : u.pending.filterMap (posted c) = rawOf c (s.loops c.loop).pendingFunctors
  rest : u.rest.filterMap (posted c) = rawOf c (lay.round c.loop).rest
  call : u.call = lay.calls c
  destroying : u.destroying = (lay.round c.loop).destroying c
  established : u.established = true ↔ conn.state ≠ .kConnecting

/-- Nothing that concerns connection `c` has changed. -/
structure Aside (c : ConnPtr L) (lay lay' : Layout L U) (s s' : State L U) : Prop where
  channels : (s'.pollers c.loop).channels c.fd = (s.pollers c.loop).channels c.fd
  epoll : (s'.pollers c.loop).epoll c.fd = (s.pollers c.loop).epoll c.fd
  pending : rawOf c (s'.loops c.loop).pendingFunctors = rawOf c (s.loops c.loop).pendingFunctors
  rest : rawOf c (lay'.round c.loop).rest = rawOf c (lay.round c.loop).rest
  call : lay'.calls c = lay.calls c
  destroying : (lay'.round c.loop).destroying c = (lay.round c.loop).destroying c

variable {cfg : Config L U} {c : ConnPtr L} {lay lay' : Layout L U} {s s' : State L U}
  {conn : TcpConnection} {u : ConnectionLoop.State (Thread L U)}

theorem Shows.frame (h : Shows c lay s conn u) (hrunning : ∀ l, (s.pollers l).exited = false)
    (hs : Aside c lay lay' s s') : Shows c lay' s' conn u where
  same := h.same
  poller hrunning' := by
    rw [h.poller hrunning]
    refine (EPollPoller.view_congr hs.channels hs.epoll ?_).symm
    rw [hrunning, hrunning']
  pending := h.pending.trans hs.pending.symm
  rest := h.rest.trans hs.rest.symm
  call := h.call.trans hs.call.symm
  destroying := h.destroying.trans hs.destroying.symm
  established := h.established

/-! ### Members -/

theorem Shows.endpoint (h : Shows c lay s conn u) (hrunning : ∀ l, (s.pollers l).exited = false)
    (hfd : conn.channel.fd = c.fd) : u.endpoint = (s.endpoint c conn).view (.conn c) := by
  rw [ConnectionLoop.State.endpoint, h.same, h.poller hrunning, Endpoint.view]
  simp only [State.endpoint, hfd]

omit [DecidableEq L] in
theorem posted_notices (cbs : List Notice) :
    (cbs.map ConnectionLoop.Functor.notice).filterMap
      (posted (T := Thread L U) c) = [] := by
  rw [List.filterMap_map]
  exact List.filterMap_eq_nil_iff.mpr fun _ _ => rfl

/-- A member `f` of `c` takes the server to a state that the same member, `f'`,
shows; `v` is that state but for what the other hypotheses say. -/
theorem Shows.performed {t : Thread L U} {events : List (Event L U)}
    {f : Endpoint (ChannelPtr L) → Endpoint (ChannelPtr L)} {f' : Endpoint Unit → Endpoint Unit}
    {v : ConnectionLoop.State (Thread L U)} (h : Shows c lay s conn u)
    (hrunning : ∀ l, (s.pollers l).exited = false) (hfd : conn.channel.fd = c.fd)
    (hview : (f (s.endpoint c conn)).view (.conn c) = f' ((s.endpoint c conn).view (.conn c)))
    (helse : Endpoint.Elsewhere (.conn c) (s.endpoint c conn) (f (s.endpoint c conn)))
    (hconn : v.conn = (u.perform f').conn) (hpoller : v.poller = (u.perform f').poller)
    (hpending : v.pending = (u.perform f').pending)
    (hrest : v.rest.filterMap (posted c) = rawOf c (lay'.round c.loop).rest)
    (hcall : v.call = lay'.calls c)
    (hdestroying : v.destroying = (lay'.round c.loop).destroying c)
    (hestablished : v.established = true ↔ (f (s.endpoint c conn)).conn.state ≠ .kConnecting) :
    Shows c lay' (s.performed t c events (f (s.endpoint c conn))) (f (s.endpoint c conn)).conn
      v := by
  have hkey : f' u.endpoint = (f (s.endpoint c conn)).view (.conn c) := by
    rw [h.endpoint hrunning hfd, hview]
  refine ⟨?_, fun _ => ?_, ?_, hrest, hcall, hdestroying, hestablished⟩
  · rw [hconn, ConnectionLoop.State.perform, hkey]
    rfl
  · have hself : (s.performed t c events (f (s.endpoint c conn))).pollers c.loop =
        (f (s.endpoint c conn)).poller := Function.update_self _ _ _
    have hsame : (f (s.endpoint c conn)).conn.channel.fd = c.fd := helse.fd.trans hfd
    rw [hpoller, hself, ConnectionLoop.State.perform, hkey, Endpoint.view, hsame]
  · rw [hpending, ConnectionLoop.State.perform, List.filterMap_append, posted_notices,
      List.append_nil]
    exact h.pending

/-- The trace of a member. -/
theorem Shows.trace_perform {f : Endpoint (ChannelPtr L) → Endpoint (ChannelPtr L)}
    {f' : Endpoint Unit → Endpoint Unit} (h : Shows c lay s conn u)
    (hrunning : ∀ l, (s.pollers l).exited = false) (hfd : conn.channel.fd = c.fd)
    (hview : (f (s.endpoint c conn)).view (.conn c) = f' ((s.endpoint c conn).view (.conn c))) :
    (u.perform f').trace = u.trace ++ (f (s.endpoint c conn)).trace := by
  have hkey : f' u.endpoint = (f (s.endpoint c conn)).view (.conn c) := by
    rw [h.endpoint hrunning hfd, hview]
  rw [ConnectionLoop.State.perform, hkey]
  rfl

end Shows

/-! ### Layouts -/

section Goes

variable [DecidableEq L] [DecidableEq U] {c : ConnPtr L} {lay lay' : Layout L U} {s : State L U}
  {t : Thread L U} {i : Instr L} {is b : List (Instr L)}

namespace Layout

theorem calls_setBody (lay : Layout L U) (t : Thread L U) (b : List (Instr L)) :
    (lay.setBody t b).calls c = Function.update (lay.calls c) t (callOf c t b) := by
  funext t'
  by_cases ht : t' = t
  · subst ht
    rw [calls, setBody_self, Function.update_self]
  · rw [calls, setBody_of_ne ht, Function.update_of_ne ht, calls]

omit [DecidableEq U] in
theorem calls_setRound (lay : Layout L U) (l : L) (r : Round L) :
    (lay.setRound l r).calls c = lay.calls c := rfl

theorem Fits.calls_body (h : lay.Fits s) (hbody : lay.body t = i :: b) (is : List (Instr L)) :
    (lay.setBody t (is ++ b)).calls c = Function.update (lay.calls c) t (callOf c t is) := by
  rw [calls_setBody, callOf_append]
  intro j hj
  exact h.immediate t j (by rwa [hbody])

theorem calls_enter (lay : Layout L U) (l : L) (r : Round L) (is : List (Instr L)) :
    ((lay.setRound l r).setBody (.loop l) is).calls c =
      Function.update (lay.calls c) (.loop l) (callOf c (.loop l) is) := by
  rw [calls_setBody, calls_setRound]

omit [DecidableEq U] in
theorem round_setRound (lay : Layout L U) (l m : L) (r : Round L) :
    (lay.setRound l r).round m = if m = l then r else lay.round m := by
  split_ifs with hm
  · rw [hm, setRound_self]
  · exact setRound_of_ne hm

/-- An instruction that does not concern `c`. -/
theorem Goes.aside (h : lay.Goes t i is lay') (hfits : lay.Fits s) (hcall : i.call c t = .idle)
    (hnext : (∀ l, i ≠ .swap l) → callOf c t is = .idle) (hswap : i ≠ .swap c.loop)
    (hdestroyed : i ≠ .functor (.connectionDestroyed c)) (hdisconnect : i ≠ .disconnect c)
    (hremove : i ≠ .removeChannel c) :
    rawOf c (lay'.round c.loop).rest = rawOf c (lay.round c.loop).rest ∧
      lay'.calls c = lay.calls c ∧
      (lay'.round c.loop).destroying c = (lay.round c.loop).destroying c := by
  cases h with
  | @body _ _ b _ hbody =>
    have hsame : lay.calls c t = .idle := by
      rw [calls, hbody]
      exact hcall
    have hidle : callOf c t is = .idle := by
      refine hnext fun l hl => ?_
      have hin := hfits.inside t i (hbody ▸ List.mem_cons_self)
      rw [hl] at hin
      contradiction
    refine ⟨rfl, ?_, rfl⟩
    rw [hfits.calls_body hbody, hidle, ← hsame, Function.update_eq_self]
  | @turn l _ _ r hbody hturn =>
    rw [calls_setRound, round_setRound]
    by_cases hl : c.loop = l
    · rw [if_pos hl, hl]
      generalize lay.round l = r₀ at hturn
      cases hturn with
      | swap => exact absurd rfl (hl ▸ hswap)
      | destroyFound =>
        refine ⟨(rawOf_cons_other (by simp [Functor.raw?]) _).symm, rfl, ?_⟩
        exact if_neg fun hd => hdestroyed (by rw [hd])
      | destroySkips =>
        refine ⟨(rawOf_cons_other (by simp [Functor.raw?]) _).symm, rfl, ?_⟩
        exact if_neg fun hd => hdestroyed (by rw [hd])
      | removeChannel =>
        refine ⟨rfl, rfl, ?_⟩
        exact (if_neg fun hd => hremove (by rw [hd])).symm
      | _ => exact ⟨rfl, rfl, rfl⟩
    · rw [if_neg hl]
      exact ⟨rfl, rfl, rfl⟩
  | @enter l _ _ r hbody henter =>
    have hsame : lay.calls c (.loop l) = .idle := by
      rw [calls, hbody]
      rfl
    have hidle : callOf c (.loop l : Thread L U) is = .idle := by
      refine hnext fun m hm => ?_
      rw [hm] at henter
      generalize lay.round l = r₀ at henter
      cases henter
    rw [calls_enter, hidle, ← hsame, Function.update_eq_self, setBody_round, round_setRound]
    by_cases hl : c.loop = l
    · rw [if_pos hl, hl]
      generalize lay.round l = r₀ at henter
      cases henter with
      | handleEvent => exact ⟨rfl, rfl, rfl⟩
      | functor =>
        refine ⟨(rawOf_cons_other (fun hraw => ?_) _).symm, rfl, rfl⟩
        exact Functor.call_ne_idle hraw hcall
      | disconnect =>
        refine ⟨rfl, rfl, ?_⟩
        rw [Round.destroying, Round.destroying, if_neg fun hd => hdisconnect (by rw [hd]),
          if_neg fun hd => hdisconnect (by rw [hd])]
    · rw [if_neg hl]
      exact ⟨rfl, rfl, rfl⟩

end Layout

end Goes

end TcpServer

end Moduo
