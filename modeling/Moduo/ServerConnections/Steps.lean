/-
One step of a server, as one of its connections sees it.

* `Shows.exec` — one instruction of any thread;
* `Shows.step` — every step;
* `Shows.born` — a connection that is about to be made.
-/
import Moduo.ServerConnections.Members

namespace Moduo

namespace TcpServer

section Exec

variable {L U : Type*} [DecidableEq L] [DecidableEq U] [Fintype L] {cfg : Config L U}
  {c d : ConnPtr L} {s s' : State L U} {conn conn' : TcpConnection} {t : Thread L U}
  {i : Instr L} {o : Outcome} {rest is : List (Instr L)} {lay lay' : Layout L U}
  {u : ConnectionLoop.State (Thread L U)}

omit [Fintype L] in
theorem Matched.mono {effects : List Effect} {sends : List (Message (Thread L U))}
    {closes closes' : Prop} (h : Matched c lay s conn u effects sends closes)
    (hcloses : closes → closes') : Matched c lay s conn u effects sends closes' := by
  obtain ⟨bs, v, hrun, htrace, hcalled, hclosed, hshows⟩ := h
  exact ⟨bs, v, hrun, htrace, hcalled, fun hc => (hclosed hc).imp_right hcloses, hshows⟩

/-- A member of the connection. -/
theorem Shows.exec_member (hground : Ground cfg s) (hfits : lay.Fits s)
    (h : Shows c lay s conn u) (hrunning : ∀ l, (s.pollers l).exited = false)
    (hconn : s.heap c = some conn) (hi : i ∈ s.stack t) {events : List (Event L U)}
    {f : Endpoint (ChannelPtr L) → Endpoint (ChannelPtr L)} (hcalls : Calls t c conn i o events f)
    (hgoes : lay.Goes t i ((f (s.endpoint c conn)).trace.flatMap (effectInstrs c)) lay') :
    Matched c lay' (s.performed t c events (f (s.endpoint c conn))) (f (s.endpoint c conn)).conn u
      (f (s.endpoint c conn)).trace [] (Closes c events) := by
  have hfd := hground.ledger.fd_eq c conn hconn
  obtain ⟨rfl, -, -⟩ := hcalls.confined (hground.confined.stack t i hi)
  have hperforming := hground.member hconn hi hcalls.about
  cases hgoes with
  | body hbody =>
    exact h.member_body hground hfits hrunning hfd hperforming hcalls hbody rfl
  | turn hbody hturn => exact h.member_turn hrunning hfd hperforming hcalls hbody hturn rfl
  | enter hbody henter => exact h.member_enter hrunning hfd hperforming hcalls hbody henter rfl

omit [DecidableEq U] [Fintype L] in
theorem rawOf_setLoop {l : L} {loop : EventLoop (Functor L)}
    (hl : l = c.loop → rawOf c loop.pendingFunctors = rawOf c (s.loops l).pendingFunctors) :
    rawOf c ((s.setLoop l loop).loops c.loop).pendingFunctors =
      rawOf c (s.loops c.loop).pendingFunctors := by
  by_cases hc : c.loop = l
  · subst hc
    simp only [State.setLoop, Function.update_self]
    exact hl rfl
  · simp only [State.setLoop, Function.update_of_ne hc]

omit [DecidableEq U] [Fintype L] in
/-- Enabling the acceptor leaves the entries of the connections alone. -/
theorem slots_listen (hfd : c.fd ≠ s.acceptChannel.fd) :
    (((s.onAcceptor cfg (Channel.enableReading .acceptor)).pollers c.loop).channels c.fd =
        (s.pollers c.loop).channels c.fd) ∧
      ((s.onAcceptor cfg (Channel.enableReading .acceptor)).pollers c.loop).epoll c.fd =
        (s.pollers c.loop).epoll c.fd := by
  by_cases hl : c.loop = cfg.base
  · simp only [State.onAcceptor, hl, Function.update_self]
    exact Channel.setEvents_other _ _ _ _ hfd
  · simp only [State.onAcceptor, Function.update_of_ne hl]
    exact ⟨trivial, trivial⟩

/-! ### Instructions -/

omit [DecidableEq U] [Fintype L] in
theorem Instr.Apart.of_none (h : i.about? = none) (hswap : ∀ l, i ≠ .swap l) : i.Apart c t := by
  refine .of_about ?_ (hswap _)
  rw [h]
  simp

omit [Fintype L] in
/-- An instruction that belongs to a body. -/
theorem Layout.Goes.inBody (c : ConnPtr L) (hfits : lay.Fits s) (hgoes : lay.Goes t i is lay')
    (hturn : ∀ l r r', ¬ Round.Turn l r i is r') (henter : ∀ r r', ¬ Round.Enters r i r') :
    lay'.round = lay.round ∧ lay.calls c t = i.call c t ∧
      lay'.calls c = Function.update (lay.calls c) t (callOf c t is) := by
  cases hgoes with
  | body hbody =>
    refine ⟨rfl, ?_, hfits.calls_body hbody is⟩
    rw [Layout.calls, hbody]
    rfl
  | turn _ h => exact absurd h (hturn _ _ _)
  | enter _ h => exact absurd h (henter _ _)

section Steps

variable (hground : Ground cfg s) (hfits : lay.Fits s) (h : Shows c lay s conn u)
  (hrunning : ∀ l, (s.pollers l).exited = false) (hconn : s.heap c = some conn)

include hground hfits h hrunning hconn

omit [Fintype L] hground hconn in
/-- The loop takes its queue. -/
theorem Shows.exec_swap
    (his : is = (s.loops c.loop).pendingFunctors.map .functor ++ [.endPendingFunctors c.loop])
    (hgoes : lay.Goes t (.swap c.loop) is lay') :
    Matched c lay' (s.setLoop c.loop (s.loops c.loop).swapFunctors) conn u [] [] False := by
  cases hgoes with
  | body hbody =>
    have hin := hfits.inside t _ (hbody ▸ List.mem_cons_self)
    contradiction
  | @turn l _ _ r hbody hturn =>
    have hl : l = c.loop := by
      generalize lay.round l = r₀ at hturn
      cases hturn
      rfl
    subst hl
    have hidle : lay.calls c (.loop c.loop) = .idle := by
      rw [Layout.calls, hbody]
      rfl
    generalize hround : lay.round c.loop = r₀ at hturn
    cases hturn with
    | swap functors =>
      have hbatch : functors = (s.loops c.loop).pendingFunctors := by
        have hmap := (List.append_left_inj _).mp his
        exact List.map_injective_iff.mpr (fun _ _ hf => Instr.functor.inj hf) hmap
      have hself : (s.setLoop c.loop (s.loops c.loop).swapFunctors).loops c.loop =
          (s.loops c.loop).swapFunctors := Function.update_self _ _ _
      have hpollers : (s.setLoop c.loop (s.loops c.loop).swapFunctors).pollers = s.pollers := rfl
      have hcall := Layout.calls_setRound (c := c) lay c.loop (.running functors)
      refine h.swap hrunning hidle ?_ ?_ hpollers ?_ ?_ hcall ?_
      · rw [hround]
        rfl
      · rw [hround]
        rfl
      · rw [hself]
        rfl
      · rw [Layout.setRound_self]
        exact hbatch
      · rw [Layout.setRound_self]
        rfl
  | enter hbody henter =>
    generalize lay.round _ = r₀ at henter
    cases henter

/-- `connectionDestroyed` begins. -/
theorem Shows.exec_destroyed {events : List (Event L U)}
    (hi : .functor (.connectionDestroyed c) ∈ s.stack t)
    (his : is = if conn.state = .kConnected then [.disconnect c, .removeChannel c]
      else [.removeChannel c])
    (hgoes : lay.Goes t (.functor (.connectionDestroyed c)) is lay') :
    Matched c lay' (s.record events) conn u [] [] True := by
  have hbegun := (hground.stack t _ hi c rfl).2 (by simp [Instr.task?, Functor.task?]) conn hconn
  obtain rfl : t = .loop c.loop := (hground.confined.stack t _ hi).thread rfl
  cases hgoes with
  | body hbody =>
    have hin := hfits.inside _ _ (hbody ▸ List.mem_cons_self)
    contradiction
  | turn hbody hturn =>
    have hidle : lay.calls c (.loop c.loop) = .idle := by
      rw [Layout.calls, hbody]
      rfl
    generalize hround : lay.round c.loop = r₀ at hturn
    have hdone : ∀ r : Round L, (Layout.setRound lay c.loop r).round c.loop = r := fun r =>
      Layout.setRound_self
    cases hturn with
    | @destroyFound _ functors =>
      have hstate : conn.state = .kConnected := by
        by_contra hne
        rw [if_neg hne] at his
        simp at his
      refine h.connectionDestroyed hrunning hidle ?_ rfl rfl ?_ rfl ?_ hbegun
      · rw [hround]
        rfl
      · rw [hdone, hround]
        exact (rawOf_cons_other (by simp [Functor.raw?]) _).symm
      · rw [hdone, if_pos hstate]
        exact if_pos rfl
    | @destroySkips _ functors =>
      have hstate : conn.state ≠ .kConnected := by
        intro heq
        rw [if_pos heq] at his
        simp at his
      refine h.connectionDestroyed hrunning hidle ?_ rfl rfl ?_ rfl ?_ hbegun
      · rw [hround]
        rfl
      · rw [hdone, hround]
        exact (rawOf_cons_other (by simp [Functor.raw?]) _).symm
      · rw [hdone, if_neg hstate]
        exact if_pos rfl
  | enter hbody henter =>
    generalize lay.round _ = r₀ at henter
    cases henter with
    | functor hf => exact absurd rfl (hf c)

omit hconn in
/-- Another thread queues its `send` or `shutdown`. -/
theorem Shows.exec_queue {l : L} {g : Functor L} (hi : .queueInLoop l g ∈ s.stack t)
    (hraw : g.raw? = some c) (hgoes : lay.Goes t (.queueInLoop l g) [.testWakeup l] lay') :
    Matched c lay' (s.setLoop l ((s.loops l).push g)) conn u [] [] False := by
  have ht := hground.remote t _ hi l g c rfl hraw
  obtain rfl : l = c.loop := by
    rw [← (hground.confined.stack t _ hi).queue l g rfl]
    cases g with
    | sendInLoop d message => rw [Functor.home, Option.some.inj hraw]
    | shutdownInLoop d => rw [Functor.home, Option.some.inj hraw]
    | _ => contradiction
  obtain ⟨hround, hnow, hcall⟩ := hgoes.inBody c hfits (by rintro _ _ _ ⟨⟩) (by rintro _ _ ⟨⟩)
  have hpollers : (s.setLoop c.loop ((s.loops c.loop).push g)).pollers = s.pollers := rfl
  have hrest : rawOf c (lay'.round c.loop).rest = rawOf c (lay.round c.loop).rest := by
    rw [hround]
  have hsame : (lay'.round c.loop).destroying c = (lay.round c.loop).destroying c := by
    rw [hround]
  have hpending : rawOf c ((s.setLoop c.loop ((s.loops c.loop).push g)).loops
      c.loop).pendingFunctors = rawOf c (s.loops c.loop).pendingFunctors ++ [g] := by
    have hself : (s.setLoop c.loop ((s.loops c.loop).push g)).loops c.loop =
        (s.loops c.loop).push g := Function.update_self _ _ _
    rw [hself, EventLoop.push, rawOf_append, rawOf_cons_self hraw]
    rfl
  cases g with
  | sendInLoop d message =>
    obtain rfl : d = c := Option.some.inj hraw
    exact h.sendQueue hrunning ht (hnow.trans (if_pos rfl)) hpollers hpending hrest hcall hsame
  | shutdownInLoop d =>
    obtain rfl : d = c := Option.some.inj hraw
    exact h.shutdownQueue hrunning ht (hnow.trans (if_pos rfl)) hpollers hpending hrest hcall hsame
  | _ => contradiction

/-- The store of `shutdown`. -/
theorem Shows.exec_store (hi : .setDisconnecting c ∈ s.stack t)
    (hgoes : lay.Goes t (.setDisconnecting c) (cfg.runInLoop t c.loop (.shutdownInLoop c)) lay') :
    Matched c lay' (s.setConn c { conn with state := .kDisconnecting })
      { conn with state := .kDisconnecting } u [] [] False := by
  have hbegun := (hground.stack t _ hi c rfl).2 (by simp [Instr.task?]) conn hconn
  obtain ⟨hround, hnow, hcall⟩ := hgoes.inBody c hfits (by rintro _ _ _ ⟨⟩) (by rintro _ _ ⟨⟩)
  have hnext : callOf c t (cfg.runInLoop t c.loop (.shutdownInLoop c)) = .shutting := by
    rw [Config.runInLoop]
    split_ifs
    · exact if_pos rfl
    · exact if_pos rfl
  rw [hnext] at hcall
  have hloops : (s.setConn c { conn with state := .kDisconnecting }).loops = s.loops := rfl
  exact h.store hrunning (hnow.trans (if_pos rfl)) hloops rfl hround hcall hbegun

/-- One instruction of any thread. -/
theorem Shows.exec (hstack : s.stack t = i :: rest) (hruns : Runs cfg t s i o s' is)
    (hgoes : lay.Goes t i is lay') :
    ∃ conn', s'.heap c = some conn' ∧
      Matched c lay' s' conn' u (s.effects c (.exec t o)) [] (Closes c s'.log) := by
  have hi : i ∈ s.stack t := hstack ▸ List.mem_cons_self
  have hid := hground.ledger.id_lt c conn hconn
  -- an instruction that calls no member and leaves everything that concerns `c` alone
  have haside : i.member? o = none → i.Apart c t →
      ((∀ l, i ≠ .swap l) → callOf c t is = .idle) → s'.heap c = s.heap c →
      ((s'.pollers c.loop).channels c.fd = (s.pollers c.loop).channels c.fd ∧
        (s'.pollers c.loop).epoll c.fd = (s.pollers c.loop).epoll c.fd) →
      rawOf c (s'.loops c.loop).pendingFunctors = rawOf c (s.loops c.loop).pendingFunctors →
      ∃ conn', s'.heap c = some conn' ∧
        Matched c lay' s' conn' u (s.effects c (.exec t o)) [] (Closes c s'.log) := by
    intro hmember hapart hnext hheap hslots hpending
    rw [effects_none hstack hmember]
    exact h.exec_aside hfits hrunning hconn hgoes hapart hnext hheap hslots hpending
  have hmine : i.member? o = none → ∀ {conn' : TcpConnection}, s'.heap c = some conn' →
      Matched c lay' s' conn' u [] [] (Closes c s'.log) → ∃ conn', s'.heap c = some conn' ∧
        Matched c lay' s' conn' u (s.effects c (.exec t o)) [] (Closes c s'.log) := by
    intro hmember conn' hconn' hmatched
    rw [effects_none hstack hmember]
    exact ⟨conn', hconn', hmatched⟩
  cases hruns with
  | @calls d conn' _ _ events f hconn' hcalls =>
    by_cases hd : d = c
    · subst hd
      obtain rfl := Option.some.inj (hconn.symm.trans hconn')
      rw [effects_self hstack hconn hcalls]
      refine ⟨_, Function.update_self _ _ _, (h.exec_member hground hfits hrunning hconn hi hcalls
        hgoes).mono fun hcloses => hcloses.mono fun e he => ?_⟩
      exact List.mem_append_left _ (List.mem_append_right _ he)
    · rw [effects_other hstack hcalls hd]
      have habout : i.about? ≠ some c := by
        rw [hcalls.about]
        exact fun heq => hd (Option.some.inj heq)
      have hswap : i ≠ .swap c.loop := by
        rintro rfl
        cases hcalls
      exact h.exec_aside hfits hrunning hconn hgoes (.of_about habout hswap)
        (fun _ => callOf_effects _) (Function.update_of_ne (Ne.symm hd) _ _)
        (slots_performed hground hconn hconn' hcalls hd) rfl
  | @swap l =>
    by_cases hl : l = c.loop
    · subst hl
      exact hmine rfl hconn
        ((h.exec_swap hfits hrunning rfl hgoes).mono fun hfalse => absurd hfalse not_false)
    · refine haside rfl (.of_about (by simp [Instr.about?]) (by simp [hl])) (fun hno => ?_) rfl
        ⟨rfl, rfl⟩ (rawOf_setLoop fun heq => absurd heq hl)
      exact absurd rfl (hno l)
  | @destroyFound d conn' _ hconn' hstate =>
    by_cases hd : d = c
    · subst hd
      obtain rfl := Option.some.inj (hconn.symm.trans hconn')
      refine hmine rfl hconn ((h.exec_destroyed hground hfits hrunning hconn hi
        (if_pos hstate).symm hgoes).mono fun _ => ⟨t, .inr ?_⟩)
      exact List.mem_append_right _ List.mem_cons_self
    · exact haside rfl (.of_about (by simp [Instr.about?, Functor.about?, hd]) (by simp))
        (fun _ => rfl) rfl ⟨rfl, rfl⟩ rfl
  | @destroySkips d conn' _ hconn' hstate =>
    by_cases hd : d = c
    · subst hd
      obtain rfl := Option.some.inj (hconn.symm.trans hconn')
      refine hmine rfl hconn ((h.exec_destroyed hground hfits hrunning hconn hi
        (if_neg hstate).symm hgoes).mono fun _ => ⟨t, .inr ?_⟩)
      exact List.mem_append_right _ List.mem_cons_self
    · exact haside rfl (.of_about (by simp [Instr.about?, Functor.about?, hd]) (by simp))
        (fun _ => rfl) rfl ⟨rfl, rfl⟩ rfl
  | @queueInLoop l g =>
    by_cases hraw : g.raw? = some c
    · exact hmine rfl hconn ((h.exec_queue hground hfits hrunning hi hraw hgoes).mono
        fun hfalse => absurd hfalse not_false)
    · refine haside rfl ⟨Functor.call_of_ne hraw, by simp, by simp, by simp, by simp⟩
        (fun _ => rfl) rfl ⟨rfl, rfl⟩ (rawOf_setLoop fun _ => rawOf_push_other hraw)
  | @setDisconnecting d conn' _ hconn' =>
    by_cases hd : d = c
    · subst hd
      obtain rfl := Option.some.inj (hconn.symm.trans hconn')
      exact hmine rfl (Function.update_self _ _ _) ((h.exec_store hground hfits hrunning hconn hi
        hgoes).mono fun hfalse => absurd hfalse not_false)
    · refine haside rfl (.of_about (by simp [Instr.about?, hd]) (by simp))
        (fun _ => callOf_runInLoop ?_) (Function.update_of_ne (Ne.symm hd) _ _) ⟨rfl, rfl⟩ rfl
      simp [Functor.raw?, hd]
  | @newConnection _ connfd =>
    refine haside rfl (.of_none rfl (by simp))
      (fun _ => callOf_runInLoop (by simp [Functor.raw?])) (Function.update_of_ne ?_ _ _)
      ⟨rfl, rfl⟩ rfl
    rintro rfl
    exact absurd hid (lt_irrefl _)
  | listen =>
    refine haside rfl (.of_none rfl (by simp))
      (fun _ => rfl) rfl (slots_listen ?_) rfl
    rw [hground.acceptor_fd]
    exact hground.ledger.fd_ne_acceptFd c (Option.isSome_of_eq_some hconn)
  | poll =>
    refine haside rfl (.of_none rfl (by simp)) (fun _ => ?_) rfl ⟨rfl, rfl⟩ rfl
    refine callOf_eq_idle fun j hj => ?_
    rcases List.mem_append.mp hj with hj | hj
    · obtain ⟨b, -, e, -, rfl⟩ := mem_activeChannels hj
      rfl
    · exact List.mem_singleton.mp hj ▸ rfl
  | beginPendingFunctors =>
    exact haside rfl (.of_none rfl (by simp)) (fun _ => rfl) rfl ⟨rfl, rfl⟩
      (rawOf_setLoop fun _ => rfl)
  | endPendingFunctors =>
    exact haside rfl (.of_none rfl (by simp)) (fun _ => rfl) rfl ⟨rfl, rfl⟩
      (rawOf_setLoop fun _ => rfl)
  | removeConnectionInLoop =>
    exact haside rfl ⟨rfl, by simp, by simp, by simp, by simp⟩ (fun _ => rfl) rfl ⟨rfl, rfl⟩ rfl
  | notice =>
    exact haside rfl ⟨rfl, by simp, by simp, by simp, by simp⟩ (fun _ => rfl) rfl ⟨rfl, rfl⟩ rfl
  | wakeup =>
    exact haside rfl (.of_none rfl (by simp)) (fun _ => rfl) rfl ⟨rfl, rfl⟩
      (rawOf_setLoop fun _ => by rw [EventLoop.wakeup_pendingFunctors])
  | handleWakeup =>
    exact haside rfl (.of_none rfl (by simp)) (fun _ => rfl) rfl ⟨rfl, rfl⟩
      (rawOf_setLoop fun _ => rfl)
  | ignored =>
    exact haside rfl ⟨rfl, by simp, by simp, by simp, by simp⟩ (fun _ => rfl) rfl ⟨rfl, rfl⟩ rfl
  | handleEvent =>
    refine haside rfl ⟨rfl, by simp, by simp, by simp, by simp⟩ (fun _ => ?_) rfl ⟨rfl, rfl⟩ rfl
    refine callOf_eq_idle fun j hj => ?_
    rcases mem_eventCallbacks hj with rfl | rfl | rfl | rfl | rfl
    all_goals rfl
  | unguard =>
    exact haside rfl ⟨rfl, by simp, by simp, by simp, by simp⟩ (fun _ => rfl) rfl ⟨rfl, rfl⟩ rfl
  | removeConnection =>
    exact haside rfl ⟨rfl, by simp, by simp, by simp, by simp⟩
      (fun _ => callOf_runInLoop (by simp [Functor.raw?])) rfl ⟨rfl, rfl⟩ rfl
  | quit => exact absurd (hfits.not_leaves hi) (by simp [Instr.leaves])
  | join => exact absurd (hfits.not_leaves hi) (by simp [Instr.leaves])
  | removeAcceptor => exact absurd (hfits.not_leaves hi) (by simp [Instr.leaves])
  | _ => exact haside rfl (.of_none rfl (by simp)) (fun _ => rfl) rfl ⟨rfl, rfl⟩ rfl

end Steps

/-! ### Calls of user code -/

omit [DecidableEq L] [DecidableEq U] [Fintype L] in
theorem Layout.Fits.body_userCode (hfits : lay.Fits s) (hu : s.InUserCode t) :
    ∀ j ∈ lay.body t, j.immediate = false := by
  intro j hj
  rcases hfits.of_userCode hu with huser | ⟨hnil, -⟩
  · obtain ⟨b, hb⟩ := List.head?_eq_some_iff.mp huser
    rcases List.mem_cons.mp (hb ▸ hj) with rfl | hj
    · rfl
    · exact hfits.immediate t j (by rwa [hb])
  · rw [hnil] at hj
    exact absurd hj List.not_mem_nil

omit [Fintype L] in
/-- What user code calls goes first. -/
theorem Layout.Fits.calls_push (c : ConnPtr L) (hfits : lay.Fits s) (hu : s.InUserCode t)
    (is : List (Instr L)) : (lay.setBody t (is ++ lay.body t)).calls c =
      Function.update (lay.calls c) t (callOf c t is) := by
  rw [Layout.calls_setBody, callOf_append (hfits.body_userCode hu)]

omit [DecidableEq U] [Fintype L] in
theorem Layout.Fits.userCode (c : ConnPtr L) (hfits : lay.Fits s) (hu : s.InUserCode t) :
    UserCode lay c t := by
  refine ⟨callOf_eq_idle (hfits.body_userCode hu), ?_⟩
  rintro rfl hfound
  have hround : (lay.round c.loop).hasBody = false := by
    cases hr : lay.round c.loop with
    | disconnecting => rfl
    | removing d functors =>
      rw [hr, Round.destroying] at hfound
      split_ifs at hfound
    | _ =>
      rw [hr] at hfound
      contradiction
  rcases hfits.of_userCode hu with huser | ⟨-, hout⟩
  · rw [hfits.idle _ hround] at huser
    contradiction
  · have hout : lay.round c.loop = .outside := hout
    rw [hout] at hround
    contradiction

omit [Fintype L] in
/-- A call that does not concern the connection. -/
theorem Aside.push (hfits : lay.Fits s) (hu : s.InUserCode t) (his : callOf c t is = .idle)
    (hpollers : s'.pollers = s.pollers)
    (hpending : rawOf c (s'.loops c.loop).pendingFunctors =
      rawOf c (s.loops c.loop).pendingFunctors) :
    Aside c lay (lay.setBody t (is ++ lay.body t)) s s' := by
  refine ⟨by rw [hpollers], by rw [hpollers], hpending, rfl, ?_, rfl⟩
  rw [hfits.calls_push c hu, his, ← (hfits.userCode c hu).1, Function.update_eq_self]

/-! ### Steps -/

omit [DecidableEq U] [Fintype L] in
theorem Shows.congr (h : Shows c lay s conn u) (hloops : s'.loops = s.loops)
    (hpollers : s'.pollers = s.pollers) : Shows c lay s' conn u :=
  ⟨h.same, by rw [hpollers]; exact h.poller, by rw [hloops]; exact h.pending, h.rest, h.call,
    h.destroying, h.established⟩

omit [Fintype L] in
theorem Matched.congr {effects : List Effect} {sends : List (Message (Thread L U))} {closes : Prop}
    (h : Matched c lay s conn u effects sends closes) (hloops : s'.loops = s.loops)
    (hpollers : s'.pollers = s.pollers) : Matched c lay s' conn u effects sends closes := by
  obtain ⟨bs, v, hrun, htrace, hcalled, hclosed, hshows⟩ := h
  exact ⟨bs, v, hrun, htrace, hcalled, hclosed, hshows.congr hloops hpollers⟩

/-- The connection is destroyed by the step, or it goes on. -/
theorem Shows.step {a : Label L U} (hground : Ground cfg s) (hfits : lay.Fits s)
    (h : Shows c lay s conn u) (hrunning : ∀ l, (s.pollers l).exited = false)
    (hconn : s.heap c = some conn) (hserving : Serving s a) (hstep : step cfg s a = some s') :
    (s'.heap c = none ∧ s.effects c a = [] ∧ sends c a = []) ∨
      ∃ conn' lay', s'.heap c = some conn' ∧ lay'.Fits s' ∧
        Matched c lay' s' conn' u (s.effects c a) (sends c a) (Closes c s'.log) := by
  have hstay : ∀ {lay' : Layout L U} {s' : State L U}, s'.heap = s.heap → lay'.Fits s' →
      Aside c lay lay' s s' → ∃ conn' lay', s'.heap c = some conn' ∧ lay'.Fits s' ∧
        Matched c lay' s' conn' u [] [] (Closes c s'.log) := by
    intro lay' s' hheap hfits' haside
    exact ⟨conn, lay', by rw [hheap, hconn], hfits',
      (Matched.stay (h.frame hrunning haside)).mono fun hfalse => absurd hfalse not_false⟩
  cases a with
  | exec t o =>
    obtain ⟨i, rest, r, hstack, hr, rfl⟩ := exec_of_step hstep
    have hruns := runs_of_exec hr
    obtain ⟨lay', hgoes, hfits'⟩ := hfits.exec hstack hruns
    obtain ⟨conn', hconn', hmatched⟩ :=
      h.exec hground hfits hrunning hconn hstack hruns hgoes
    exact .inr ⟨conn', lay', hconn', hfits', hmatched.congr rfl rfl⟩
  | callbackReturn t =>
    simp only [TcpServer.step] at hstep
    split at hstep
    next rest hstack =>
      obtain rfl := Option.some.inj hstep
      obtain ⟨b, hbody, hfits'⟩ := hfits.callbackReturn hstack
      refine .inr (hstay rfl hfits' ⟨rfl, rfl, rfl, rfl, ?_, rfl⟩)
      have hidle : callOf c t b = .idle :=
        callOf_eq_idle fun j hj => hfits.immediate t j (by rwa [hbody])
      have hsame : lay.calls c t = .idle := by
        rw [Layout.calls, hbody]
        rfl
      rw [Layout.calls_setBody, hidle, ← hsame, Function.update_eq_self]
    next => exact absurd hstep (by simp)
  | send t d message =>
    simp only [TcpServer.step] at hstep
    split_ifs at hstep with hu
    obtain ⟨conn', hconn', rfl⟩ := Option.map_eq_some_iff.mp hstep
    by_cases hd : d = c
    · subst hd
      obtain rfl := Option.some.inj (hconn.symm.trans hconn')
      have hsends : sends d (.send t d message) = [⟨t, message⟩] := if_pos rfl
      rw [hsends]
      by_cases hstate : conn.state = .kConnected
      · rw [if_pos hstate]
        have hcalls := hfits.calls_push d hu (cfg.runInLoop t d.loop (.sendInLoop d message))
        have hnext : callOf d t (cfg.runInLoop t d.loop (.sendInLoop d message)) =
            .sending ⟨t, message⟩ := by
          rw [Config.runInLoop]
          split_ifs
          · exact if_pos rfl
          · exact if_pos rfl
        rw [hnext] at hcalls
        exact .inr ⟨conn, _, hconn, hfits.push hu (Round.admits_runInLoop rfl),
          (h.send hrunning (hfits.userCode d hu) hstate rfl rfl Layout.setBody_round
            hcalls).congr rfl rfl⟩
      · rw [if_neg hstate]
        exact .inr ⟨conn, lay, hconn, hfits,
          h.sendRefused hrunning message (hfits.userCode d hu) hstate⟩
    · have hsends : sends c (.send t d message) = [] := if_neg hd
      rw [hsends]
      by_cases hstate : conn'.state = .kConnected
      · rw [if_pos hstate]
        refine .inr (hstay rfl (hfits.push hu (Round.admits_runInLoop rfl))
          (.push hfits hu (callOf_runInLoop ?_) rfl rfl))
        exact fun hraw => hd (Option.some.inj hraw)
      · rw [if_neg hstate]
        exact .inr (hstay rfl hfits ⟨rfl, rfl, rfl, rfl, rfl, rfl⟩)
  | shutdown t d =>
    simp only [TcpServer.step] at hstep
    split_ifs at hstep with hu
    obtain ⟨conn', hconn', rfl⟩ := Option.map_eq_some_iff.mp hstep
    by_cases hstate : conn'.state = .kConnected
    · rw [if_pos hstate]
      by_cases hd : d = c
      · subst hd
        obtain rfl := Option.some.inj (hconn.symm.trans hconn')
        have hcalls := hfits.calls_push d hu [.setDisconnecting d]
        have hnext : callOf d t [Instr.setDisconnecting d] = .storing := if_pos rfl
        rw [hnext] at hcalls
        exact .inr ⟨conn, _, hconn, hfits.push hu (Round.admits_singleton rfl),
          (h.shutdown hrunning (hfits.userCode d hu) hstate rfl rfl Layout.setBody_round
            hcalls).congr rfl rfl⟩
      · exact .inr (hstay rfl (hfits.push hu (Round.admits_singleton rfl))
          (.push hfits hu (if_neg hd) rfl rfl))
    · rw [if_neg hstate]
      exact .inr (hstay rfl hfits ⟨rfl, rfl, rfl, rfl, rfl, rfl⟩)
  | setThreadNum t =>
    simp only [TcpServer.step] at hstep
    split_ifs at hstep with hu
    obtain rfl := Option.some.inj hstep
    exact .inr (hstay rfl (hfits.push hu (Round.admits_runInLoop rfl))
      (.push hfits hu (callOf_runInLoop (by simp [Functor.raw?])) rfl rfl))
  | loop l =>
    simp only [TcpServer.step] at hstep
    split_ifs at hstep with hstack
    obtain rfl := Option.some.inj hstep
    obtain ⟨-, hout, hfits'⟩ := hfits.loop hstack (Eq.refl
      ((s.setLoop l { s.loops l with quit := false }).push (.loop l) [.testQuit l]).stack)
    refine .inr (hstay rfl hfits' ⟨rfl, rfl, rawOf_setLoop fun _ => rfl, ?_, rfl, ?_⟩)
    · rw [Layout.round_setRound]
      split_ifs with hl
      · rw [hl, hout]
        rfl
      · rfl
    · rw [Layout.round_setRound]
      split_ifs with hl
      · rw [hl, hout]
        rfl
      · rfl
  | quit t l =>
    rw [TcpServer.step] at hstep
    by_cases hu : s.InUserCode t
    · rw [if_pos hu] at hstep
      obtain rfl := Option.some.inj hstep
      have hset : lay.Fits (s.setLoop l { s.loops l with quit := true }) := hfits.of_stack rfl
      refine .inr (hstay rfl (hset.push hu ?_) (.push hfits hu ?_ rfl (rawOf_setLoop fun _ => rfl)))
      · split_ifs
        · exact Round.admits_nil
        · exact Round.admits_singleton rfl
      · split_ifs
        · rfl
        · rfl
    · rw [if_neg hu] at hstep
      contradiction
  | destroyServer order => exact absurd hserving id
  | destroyConnection d =>
    simp only [TcpServer.step] at hstep
    split_ifs at hstep with hgone
    obtain rfl := Option.some.inj hstep
    by_cases hd : c = d
    · subst hd
      exact .inl ⟨Function.update_self _ _ _, rfl, rfl⟩
    · have hfd : c.fd ≠ d.fd := fun heq =>
        hd (hground.ledger.fd_injective c d (Option.isSome_of_eq_some hconn) hgone.1 heq)
      have haside : Aside c lay lay s (s.free d) :=
        ⟨rfl, Function.update_of_ne hfd _ _, rfl, rfl, rfl, rfl⟩
      exact .inr ⟨conn, lay, (Function.update_of_ne hd _ _).trans hconn, hfits.of_stack rfl,
        (Matched.stay (h.frame hrunning haside)).mono fun hfalse => absurd hfalse not_false⟩

/-! ### Birth -/

omit [DecidableEq L] [DecidableEq U] [Fintype L] in
theorem Round.mem_rest {l : L} {r : Round L} {f : Functor L} (hf : f ∈ r.rest) :
    .functor f ∈ r.instrs l := by
  cases r with
  | running functors => simpa [Round.instrs, Round.rest] using hf
  | disconnecting d functors => simpa [Round.instrs, Round.rest] using hf
  | removing d functors => simpa [Round.instrs, Round.rest] using hf
  | _ => exact absurd hf List.not_mem_nil

omit [DecidableEq U] in
/-- Nothing is known yet of a connection whose number is still to come and whose
descriptor is closed. -/
theorem Shows.born (hground : Ground cfg s) (hfits : lay.Fits s)
    (hrunning : ∀ l, (s.pollers l).exited = false) (hid : s.nextConnId ≤ c.id)
    (hfd : s.isOpen c.fd = false) (w : Bool) :
    Shows c lay s (.make c.fd w) (.make (.make c.fd w)) := by
  have hstack : ∀ t, ∀ i ∈ s.stack t, i.about? ≠ some c := by
    intro t i hi habout
    exact absurd (hground.stack t i hi c habout).1 (Nat.not_lt.mpr hid)
  have hround : ∀ i ∈ (lay.round c.loop).instrs c.loop, i.about? ≠ some c := by
    intro i hi
    refine hstack (.loop c.loop) i ?_
    rw [hfits.stack]
    exact List.mem_append_right _ hi
  constructor
  case same => rfl
  case poller =>
    intro _
    refine (EPollPoller.view_eq_empty (fun hchannel => ?_) ?_ (hrunning _)).symm
    · exact absurd (hground.channels _ _ _ hchannel) (Nat.not_lt.mpr hid)
    · cases he : (s.pollers c.loop).epoll c.fd with
      | none => rfl
      | some e =>
        -- every entry of an epoll set belongs to an open descriptor
        have hopen : s.isOpen c.fd = true := by
          have hentry := hground.entries _ _ _ he
          cases hp : e.2 with
          | wakeup l =>
            rw [hp] at hentry
            rw [hentry.2]
            exact hground.ledger.wakeupFd_isOpen _
          | acceptor =>
            rw [hp] at hentry
            rw [hentry.2]
            exact hground.ledger.acceptFd_isOpen
          | conn d =>
            rw [hp] at hentry
            rw [hentry.2.1]
            exact hground.ledger.fd_isOpen d hentry.2.2.1
        rw [hfd] at hopen
        contradiction
  case pending =>
    refine (List.filter_eq_nil_iff.mpr fun f hf hraw => ?_).symm
    have habout := Functor.about_of_raw (of_decide_eq_true hraw)
    exact absurd (hground.queues _ f hf c habout).1 (Nat.not_lt.mpr hid)
  case rest =>
    refine (List.filter_eq_nil_iff.mpr fun f hf hraw => ?_).symm
    exact hround _ (Round.mem_rest hf) (Functor.about_of_raw (of_decide_eq_true hraw))
  case call =>
    funext t
    cases hbody : lay.body t with
    | nil =>
      rw [Layout.calls, hbody]
      rfl
    | cons i b =>
      rw [Layout.calls, hbody]
      refine (Instr.call_of_about (hstack t i ?_)).symm
      rw [hfits.stack, hbody]
      exact List.mem_cons_self
  case destroying =>
    cases hr : lay.round c.loop with
    | disconnecting d functors =>
      refine (if_neg fun hd => ?_).symm
      exact hround (.disconnect d) (by rw [hr]; exact List.mem_cons_self) (congrArg some hd)
    | removing d functors =>
      refine (if_neg fun hd => ?_).symm
      exact hround (.removeChannel d) (by rw [hr]; exact List.mem_cons_self) (congrArg some hd)
    | _ => rfl
  case established => exact ⟨fun hno => absurd hno (by simp [ConnectionLoop.State.make]),
    fun hne => absurd rfl hne⟩

/-- A connection appears by `newConnection` only, which takes nothing else of what
concerns it away. -/
theorem Shows.newborn {a : Label L U} (hground : Ground cfg s)
    (hrunning : ∀ l, (s.pollers l).exited = false) (hnone : s.heap c = none)
    (hstep : TcpServer.step cfg s a = some s') (hconn : s'.heap c = some conn) :
    c.id = s.nextConnId ∧ conn = .make c.fd cfg.writeCompleteCallback ∧
      ∃ lay', lay'.Fits s' ∧ Shows c lay' s' conn (.make conn) := by
  have hsame : s'.heap = s.heap → False := by
    intro heq
    rw [heq, hnone] at hconn
    contradiction
  have hupdate : ∀ (d : ConnPtr L) (conn' conn'' : TcpConnection), s.heap d = some conn' →
      s'.heap = Function.update s.heap d (some conn'') → False := by
    intro d conn' conn'' hd heq
    have hne : c ≠ d := by
      rintro rfl
      rw [hnone] at hd
      contradiction
    rw [heq, Function.update_of_ne hne, hnone] at hconn
    contradiction
  cases move_of_step hstep with
  | @exec t o i rest is s'' hstack hruns =>
    obtain ⟨lay, hfits⟩ := hground.layout
    obtain ⟨lay', hgoes, hfits'⟩ := hfits.exec hstack hruns
    cases hruns with
    | calls hconn' => exact absurd rfl (hupdate _ _ _ hconn')
    | setDisconnecting hconn' => exact absurd rfl (hupdate _ _ _ hconn')
    | @newConnection revents connfd hclosed =>
      obtain rfl : c = ⟨s.nextConnId, (cfg.getNextLoop s.next).1, connfd⟩ := by
        by_contra hne
        have hold : ((s.newConnection cfg t connfd).1.heap c) = s.heap c :=
          Function.update_of_ne hne _ _
        have hconn : (s.newConnection cfg t connfd).1.heap c = some conn := hconn
        rw [hold, hnone] at hconn
        contradiction
      have hnew : (s.newConnection cfg t connfd).1.heap
          ⟨s.nextConnId, (cfg.getNextLoop s.next).1, connfd⟩ =
          some (.make connfd cfg.writeCompleteCallback) := Function.update_self _ _ _
      obtain rfl := Option.some.inj (hnew.symm.trans hconn)
      refine ⟨rfl, rfl, lay', hfits', ?_⟩
      obtain ⟨hrest, hcall, hround⟩ := hgoes.aside hfits
        (Instr.call_of_about (c := ⟨s.nextConnId, (cfg.getNextLoop s.next).1, connfd⟩)
          (by simp [Instr.about?]))
        (fun _ => callOf_runInLoop (by simp [Functor.raw?])) (by simp) (by simp) (by simp) (by simp)
      exact (Shows.born hground hfits hrunning le_rfl hclosed _).frame hrunning
        ⟨rfl, rfl, rfl, hrest, hcall, hround⟩
    | _ => exact absurd rfl hsame
  | @destroyConnection d conn' hconn' hgone =>
    have hconn : Function.update s.heap d none c = some conn := hconn
    by_cases hd : c = d
    · rw [hd, Function.update_self] at hconn
      contradiction
    · rw [Function.update_of_ne hd, hnone] at hconn
      contradiction
  | _ => exact absurd rfl hsame

end Exec

end TcpServer

end Moduo
