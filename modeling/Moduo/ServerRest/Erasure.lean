/-
The way of a closed connection out of `connections_`.

`closeCallback_` and `removeConnectionInLoop` pass the erasure of an entry from
thread to thread, and now and then it waits in the queue of the base loop.

* `Fading` — where the entry of a connection that is down still stands, an
  erasure of it is on its way;
* `fading_reachable` — this is so along every run of a live server.
-/
import Moduo.LiveServer
import Moduo.Registry

namespace Moduo

namespace TcpServer

variable {L U : Type*}

section Step

variable [DecidableEq L]

/-- The weight of an instruction that will erase the entry of `c`. -/
def erasure (c : ConnPtr L) (i : Instr L) : ℕ := if i.removes? = some c then 1 else 0

theorem fair_erasure (c : ConnPtr L) : Fair (erasure c) where
  queueInLoop _ _ := rfl
  listen := rfl
  notice _ _ := rfl
  user := rfl
  testQuit _ := rfl
  poll _ := rfl
  beginPendingFunctors _ := rfl
  swap _ := rfl
  endPendingFunctors _ := rfl
  testWakeup _ := rfl
  wakeup _ := rfl

theorem erasure_pos {c : ConnPtr L} {is : List (Instr L)} {i : Instr L} (hi : i ∈ is)
    (hc : i.removes? = some c) : 0 < weight (erasure c) is := by
  have hle := le_weight (w := erasure c) hi
  rw [erasure, if_pos hc] at hle
  omega

/-- The entry of a connection that is down is about to be erased. -/
def Fading [Fintype L] (s : State L U) : Prop :=
  ∀ c conn, s.heap c = some conn → conn.state = .kDisconnected → s.Holds c →
    0 < tokens (erasure c) s

variable {cfg : Config L U} {s s' : State L U} {l : L} {t : Thread L U} {i : Instr L} {o : Outcome}
  {is rest : List (Instr L)} {c : ConnPtr L}

/-- An erasure goes on until it is done. -/
theorem erasure_le_runs (hruns : Runs cfg t s i o s' is) (hi : i.transfers = false)
    (hne : i ≠ .functor (.removeConnectionInLoop c)) : erasure c i ≤ weight (erasure c) is := by
  by_cases hc : i.removes? = some c
  · have hpos : ∃ j ∈ is, j.removes? = some c := by
      cases i with
      | functor f =>
        cases f with
        | removeConnectionInLoop d =>
          obtain rfl := Option.some.inj hc
          exact absurd rfl hne
        | _ => contradiction
      | queueInLoop m f => contradiction
      | removeConnection d =>
        obtain rfl := Option.some.inj hc
        cases hruns with
        | calls _ hcalls => cases hcalls
        | removeConnection =>
          rw [Config.runInLoop]
          split_ifs
          · exact ⟨_, List.mem_singleton.mpr rfl, rfl⟩
          · exact ⟨_, List.mem_singleton.mpr rfl, rfl⟩
      | _ => contradiction
    obtain ⟨j, hj, hjc⟩ := hpos
    have hle := erasure_pos hj hjc
    rw [erasure, if_pos hc]
    omega
  · rw [erasure, if_neg hc]
    exact Nat.zero_le _

variable [Fintype L]

theorem erasure_grows [DecidableEq U] (hstack : s.stack (.loop l) = i :: rest)
    (hruns : Runs cfg (.loop l) s i o s' is) (hne : i ≠ .functor (.removeConnectionInLoop c)) :
    tokens (erasure c) s ≤ tokens (erasure c) (s'.setStack (.loop l) (is ++ rest)) := by
  rcases Bool.eq_false_or_eq_true i.transfers with hi | hi
  · rw [tokens_transfer (fair_erasure c) hstack hruns hi]
  · have hcount := tokens_runs (w := erasure c) hstack hruns hi
    have hle := erasure_le_runs (c := c) hruns hi hne
    omega

/-- A connection that is down and still has its entry was so before the instruction,
or has gone down by it. -/
theorem Invariant.fades (h : Invariant cfg s) (hi : i ∈ s.stack (.loop l))
    (hruns : Runs cfg (.loop l) s i o s' is) {conn' : TcpConnection}
    (hconn' : s'.heap c = some conn') (hdown : conn'.state = .kDisconnected)
    (hholds : s'.Holds c) :
    ((∃ conn, s.heap c = some conn ∧ conn.state = .kDisconnected) ∧ s.Holds c ∧
        i ≠ .functor (.removeConnectionInLoop c)) ∨ .removeConnection c ∈ is := by
  cases hruns with
  | @calls d conn i o events f hconn hcalls =>
    obtain ⟨-, hshift, -⟩ := h.shift hi hconn hcalls
    have hi' : i ≠ .functor (.removeConnectionInLoop c) := by
      rintro rfl
      cases hcalls
    by_cases hc : c = d
    · subst hc
      have hconn' : Function.update s.heap c (some (f (s.endpoint c conn)).conn) c = some conn' :=
        hconn'
      rw [Function.update_self] at hconn'
      obtain rfl := Option.some.inj hconn'
      cases hshift with
      | establishes _ _ hto => rw [hto] at hdown; contradiction
      | works _ hopen hstate => exact absurd (hstate.symm.trans hdown) hopen.ne_disconnected
      | idles _ _ hfrom => exact .inl ⟨⟨conn, hconn, hfrom⟩, hholds, hi'⟩
      | closes _ _ _ _ hcallbacks =>
        -- `handleClose` has called `closeCallback_`
        refine .inr (List.mem_flatMap.mpr ⟨.closeCallback, ?_, List.mem_singleton.mpr rfl⟩)
        have hmem : Effect.closeCallback ∈ callbacks (f (s.endpoint c conn)).trace := by
          rw [hcallbacks]
          exact List.mem_cons_of_mem _ (List.mem_singleton.mpr rfl)
        exact (List.mem_filter.mp hmem).1
      | removes _ hfrom => exact .inl ⟨⟨conn, hconn, hfrom⟩, hholds, hi'⟩
    · have hsame : s.heap c = some conn' := (Function.update_of_ne hc _ _).symm.trans hconn'
      exact .inl ⟨⟨conn', hsame, hdown⟩, hholds, hi'⟩
  | @newConnection revents connfd =>
    by_cases hc : c = ⟨s.nextConnId, (cfg.getNextLoop s.next).1, connfd⟩
    · have hself : (s.newConnection cfg (.loop l) connfd).1.heap c =
          some (TcpConnection.make connfd cfg.writeCompleteCallback) := by
        rw [hc]
        exact Function.update_self _ _ _
      rw [← Option.some.inj (hself.symm.trans hconn')] at hdown
      contradiction
    · have hsame : s.heap c = some conn' := (Function.update_of_ne hc _ _).symm.trans hconn'
      refine .inl ⟨⟨conn', hsame, hdown⟩, ?_, by simp⟩
      obtain ⟨item, hitem, rfl⟩ := hholds
      rcases List.mem_cons.mp hitem with rfl | hitem
      · exact absurd rfl hc
      · exact ⟨item, (List.mem_filter.mp hitem).1, rfl⟩
  | @setDisconnecting d conn o hconn =>
    by_cases hc : c = d
    · have hself : (s.setConn d { conn with state := .kDisconnecting }).heap c =
          some { conn with state := .kDisconnecting } := by
        rw [hc]
        exact Function.update_self _ _ _
      rw [← Option.some.inj (hself.symm.trans hconn')] at hdown
      contradiction
    · have hsame : s.heap c = some conn' := (Function.update_of_ne hc _ _).symm.trans hconn'
      exact .inl ⟨⟨conn', hsame, hdown⟩, hholds, by simp⟩
  | @removeConnectionInLoop d o =>
    obtain ⟨item, hitem, hitemc⟩ := hholds
    obtain ⟨hmem, hname⟩ := List.mem_filter.mp hitem
    refine .inl ⟨⟨conn', hconn', hdown⟩, ⟨item, hmem, hitemc⟩, ?_⟩
    intro heq
    -- the entry of the connection has just been erased
    obtain rfl : d = c := Functor.removeConnectionInLoop.inj (Instr.functor.inj heq)
    have := (h.ledger.names item hmem).1
    rw [hitemc] at this
    simp [this] at hname
  | _ => exact .inl ⟨⟨conn', hconn', hdown⟩, hholds, by simp⟩

theorem fading_start (h : Start cfg s) : Fading s := by
  intro c conn hconn
  rw [h.heap] at hconn
  contradiction

variable [DecidableEq U]

theorem Fading.exec (hfading : Fading s) (h : Invariant cfg s)
    (hstack : s.stack t = i :: rest) (hruns : Runs cfg t s i o s' is) :
    Fading (s'.setStack t (is ++ rest)) := by
  intro c conn' hconn' hdown hholds
  have hi : i ∈ s.stack t := hstack ▸ List.mem_cons_self
  cases t with
  | loop l =>
    rcases h.fades hi hruns hconn' hdown hholds with ⟨⟨conn, hconn, hdown⟩, hholds, hne⟩ | hmem
    · have hpos := hfading c conn hconn hdown hholds
      exact hpos.trans_le (erasure_grows hstack hruns hne)
    · have hmem : .removeConnection c ∈ (s'.setStack (.loop l) (is ++ rest)).stack (.loop l) := by
        rw [State.setStack_self]
        exact List.mem_append_left _ hmem
      have hle : erasure c (.removeConnection c) ≤
          tokens (erasure c) (s'.setStack (.loop l) (is ++ rest)) := le_tally (i := Sum.inl l) hmem
      have hone : erasure c (.removeConnection c) = 1 := if_pos rfl
      omega
  | user u =>
    have hplain := h.work.user u i hi
    have hs := (plain_runs hplain hruns).1
    have hheap : s'.heap c = some conn' := hconn'
    have hholds : s'.Holds c := hholds
    rw [hs.heap] at hheap
    rw [State.Holds, hs.connections] at hholds
    rw [tokens_user (fair_erasure c) hruns hplain]
    exact hfading c conn' hheap hdown hholds

omit [DecidableEq U] in
/-- A step that leaves connections and entries alone and takes no work away. -/
theorem Fading.of_le (h : Fading s) (hheap : s'.heap = s.heap)
    (hconnections : s'.connections = s.connections)
    (hle : ∀ c, tokens (erasure c) s ≤ tokens (erasure c) s') : Fading s' := by
  intro c conn hconn hdown hholds
  rw [hheap] at hconn
  rw [State.Holds, hconnections] at hholds
  exact (h c conn hconn hdown hholds).trans_le (hle c)

theorem Fading.push (h : Fading s) (t : Thread L U) (is : List (Instr L)) :
    Fading (s.push t is) := by
  refine h.of_le rfl rfl fun c => ?_
  cases t with
  | loop l =>
    rw [tokens_push]
    exact Nat.le_add_right _ _
  | user u => exact (tokens_setStack_user u _).ge

omit [DecidableEq U] in
theorem Fading.setLoop (h : Fading s) {loop : EventLoop (Functor L)}
    (hq : loop.pendingFunctors = (s.loops l).pendingFunctors) : Fading (s.setLoop l loop) :=
  h.of_le rfl rfl fun _ => (tokens_setLoop_same hq).ge

theorem fading_move (hfading : Fading s) (h : Invariant cfg s) {a : Label L U} (hlive : Live s a)
    (hmove : Move cfg s a s') : Fading s' := by
  cases hmove with
  | exec hstack hruns => exact hfading.exec h hstack hruns
  | @callbackReturn t rest hstack =>
    refine hfading.of_le rfl rfl fun c => ?_
    cases t with
    | loop l =>
      have hcount := tokens_setStack (w := erasure c) (s := s) l rest
      rw [hstack, weight_cons] at hcount
      have huser : erasure c .user = 0 := rfl
      omega
    | user u => exact (tokens_setStack_user u _).ge
  | send => exact hfading.push _ _
  | shutdown => exact hfading.push _ _
  | refused => exact hfading
  | setThreadNum => exact hfading.push _ _
  | @loop m =>
    have hset : Fading (s.setLoop m { s.loops m with quit := false }) := hfading.setLoop rfl
    exact hset.push _ _
  | @quit t m =>
    have hset : Fading (s.setLoop m { s.loops m with quit := true }) := hfading.setLoop rfl
    exact hset.push _ _
  | destroyServer => exact hlive.elim
  | @destroyConnection d conn hconn hgone =>
    intro c conn' hconn' hdown hholds
    exact hfading c conn' (free_heap hconn').2 hdown hholds

theorem fading_reachable (hs : (system cfg).ReachableUnder Live s) : Fading s := by
  have hboth : Fading s ∧ Invariant cfg s :=
    Machine.ReachableUnder.invariant (I := fun s => Fading s ∧ Invariant cfg s)
      (fun _ h => ⟨fading_start h, invariant_start h⟩)
      (fun _ _ _ h hlive hstep =>
        ⟨fading_move h.1 h.2 hlive (move_of_system hstep),
          invariant_move h.2 hlive (move_of_system hstep)⟩) hs
  exact hboth.1

end Step

end TcpServer

end Moduo
