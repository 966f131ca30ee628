/-
The stages in a live server.

One instruction keeps the stage of every connection, or takes one connection to
its next stage; the others are bystanders.
-/
import Moduo.LiveServer.Descriptors

namespace Moduo

namespace TcpServer

variable {L U : Type*} {cfg : Config L U} {s s' : State L U} {l : L}

/-! ### The tasks among what an instruction pushes -/

theorem task_runInLoop (t : Thread L U) (l : L) (f : Functor L) :
    (cfg.runInLoop t l f).filterMap Instr.task? = f.task?.toList := by
  rw [Config.runInLoop]
  split_ifs
  · cases hf : f.task? <;> simp [Instr.task?, hf]
  · cases hf : f.task? <;> simp [Instr.task?, hf]

theorem task_activeChannels (p : EPollPoller (ChannelPtr L)) (ready : List (ℕ × EventMask)) :
    (activeChannels p ready ++ [Instr.beginPendingFunctors l]).filterMap Instr.task? = [] := by
  rw [List.filterMap_eq_nil_iff]
  intro i hi
  rcases List.mem_append.mp hi with hi | hi
  · obtain ⟨b, -, e, -, rfl⟩ := mem_activeChannels hi
    rfl
  · obtain rfl := List.mem_singleton.mp hi
    rfl

theorem task_eventCallbacks (c : ConnPtr L) (revents : EventMask) (tied : Bool) :
    (eventCallbacks c revents ++ if tied then [Instr.unguard c] else []).filterMap
      Instr.task? = [] := by
  rw [List.filterMap_eq_nil_iff]
  intro i hi
  rcases mem_eventCallbacks hi with rfl | rfl | rfl | rfl | rfl
  all_goals rfl

section Step

variable [DecidableEq L] [Fintype L] [DecidableEq U]

/-! ### The members -/

/-- Another connection than the one whose member runs. -/
theorem bystander_performed {t : Thread L U} {c d : ConnPtr L} {conn : TcpConnection}
    {events : List (Event L U)} {e : Endpoint (ChannelPtr L)} {js : List (Instr L)}
    (hledger : Ledger cfg s) (hconn : s.heap c = some conn) (hframe : (s.endpoint c conn).Frame e)
    (hd : d ≠ c)
    (hestablish : ((s.performed t c events e).setStack t js).tasks .establish d =
      s.tasks .establish d)
    (hclosing : ((s.performed t c events e).setStack t js).closing d = s.closing d) :
    Bystander s ((s.performed t c events e).setStack t js) d := by
  have hfd : ∀ conn', s.heap d = some conn' → conn'.channel.fd ≠ conn.channel.fd := by
    intro conn' hconn' heq
    rw [hledger.fd_eq d conn' hconn', hledger.fd_eq c conn hconn] at heq
    exact hd (hledger.fd_injective d c (by rw [hconn']; rfl) (by rw [hconn]; rfl) heq)
  have hpoller : ∀ fd, fd ≠ conn.channel.fd →
      ((s.performed t c events e).pollers d.loop).channels fd = (s.pollers d.loop).channels fd ∧
      ((s.performed t c events e).pollers d.loop).epoll fd = (s.pollers d.loop).epoll fd := by
    intro fd hne
    by_cases hl : d.loop = c.loop
    · rw [hl]
      have hself : (s.performed t c events e).pollers c.loop = e.poller :=
        Function.update_self _ _ _
      rw [hself]
      exact ⟨hframe.channels fd hne, hframe.epoll fd hne⟩
    · have hother : (s.performed t c events e).pollers d.loop = s.pollers d.loop :=
        Function.update_of_ne hl _ _
      rw [hother]
      exact ⟨rfl, rfl⟩
  refine ⟨Function.update_of_ne hd _ _, fun conn' hconn' => (hpoller _ (hfd conn' hconn')).1,
    fun conn' hconn' => (hpoller _ (hfd conn' hconn')).2, fun _ _ _ hholds => hholds,
    hestablish, hclosing, fun x hx => ?_⟩
  exact List.mem_append_left _ (List.mem_append_left _ hx)

/-- The account of a member. -/
theorem tasks_performed {c : ConnPtr L} {i : Instr L} {o : Outcome} {rest : List (Instr L)}
    {events : List (Event L U)} {e : Endpoint (ChannelPtr L)}
    (hstack : s.stack (.loop l) = i :: rest)
    (hruns : Runs cfg (.loop l) s i o (s.performed (.loop l) c events e)
      (e.trace.flatMap (effectInstrs c)))
    (hi : i.transfers = false) (k : Task) (d : ConnPtr L) :
    ((s.performed (.loop l) c events e).setStack (.loop l)
        (e.trace.flatMap (effectInstrs c) ++ rest)).tasks k d + i.task?.toList.count (k, d) =
      s.tasks k d +
        (((callbacks e.trace).flatMap (effectInstrs c)).filterMap Instr.task?).count (k, d) := by
  have hcount := tasks_runs (k := k) (c := d) hstack hruns hi
  rwa [tasks_effects] at hcount

theorem Invariant.life_performed (h : Invariant cfg s) {c : ConnPtr L} {conn : TcpConnection}
    {i : Instr L} {o : Outcome} {rest : List (Instr L)} {events : List (Event L U)}
    {e : Endpoint (ChannelPtr L)} (hstack : s.stack (.loop l) = i :: rest)
    (hconn : s.heap c = some conn)
    (hruns : Runs cfg (.loop l) s i o (s.performed (.loop l) c events e)
      (e.trace.flatMap (effectInstrs c)))
    (hi : i.transfers = false) (hshift : Shift c i (s.endpoint c conn) e)
    (hframe : (s.endpoint c conn).Frame e)
    (hreturned : i = .removeChannel c → .returned (.loop c.loop) c ∈ events) (d : ConnPtr L) :
    Life ((s.performed (.loop l) c events e).setStack (.loop l)
      (e.trace.flatMap (effectInstrs c) ++ rest)) d := by
  have hmem : i ∈ s.stack (.loop l) := hstack ▸ List.mem_cons_self
  generalize hs₂ : (s.performed (.loop l) c events e).setStack (.loop l)
    (e.trace.flatMap (effectInstrs c) ++ rest) = s₂
  -- what the instruction spends, and what it leaves to do
  have hcount : ∀ k d, s₂.tasks k d + i.task?.toList.count (k, d) = s.tasks k d +
      (((callbacks e.trace).flatMap (effectInstrs c)).filterMap Instr.task?).count (k, d) := by
    intro k d
    rw [← hs₂]
    exact tasks_performed hstack hruns hi k d
  by_cases hd : d = c
  · subst hd
    have hheap : s₂.heap d = some e.conn := hs₂ ▸ Function.update_self _ _ _
    have hstage : Stage s₂ d e.conn := by
      refine ((h.life d).stage conn hconn).shift hshift ?_ ?_ (hcount · d)
        (fun k => task_of_mem hmem) fun hremove => ?_
      · exact hs₂ ▸ Function.update_self _ _ _
      · exact hs₂ ▸ id
      · exact hs₂ ▸ List.mem_append_left _ (List.mem_append_right _ (hreturned hremove))
    refine ⟨fun hnone => absurd (hheap.symm.trans hnone) (by simp), fun conn' hconn' => ?_⟩
    obtain rfl : e.conn = conn' := Option.some.inj (hheap.symm.trans hconn')
    exact hstage
  · have htasks : ∀ k, s₂.tasks k d = s.tasks k d := by
      intro k
      have hspent : i.task?.toList.count (k, d) = 0 := by
        refine List.count_eq_zero.mpr fun hmem => hd ?_
        exact hshift.task_self (Option.mem_toList.mp hmem)
      have hleft := count_effects_of_ne hd (callbacks e.trace) k
      have hk := hcount k d
      omega
    refine (h.life d).bystander ?_
    rw [← hs₂]
    refine bystander_performed h.ledger hconn hframe hd ?_ ?_
    · rw [hs₂]
      exact htasks .establish
    · rw [hs₂, State.closing, htasks, htasks, htasks, State.closing]

/-! ### The other instructions -/

/-- A connection is made: nothing is known of its number or its descriptor. -/
theorem Invariant.life_newConnection (h : Invariant cfg s) {sockfd : ℕ} {i : Instr L}
    {o : Outcome} {rest : List (Instr L)} (hstack : s.stack (.loop l) = i :: rest)
    (hfree : s.isOpen sockfd = false)
    (hi : i.transfers = false) (htask : i.task? = none)
    (hruns : Runs cfg (.loop l) s i o (s.newConnection cfg (.loop l) sockfd).1
      (s.newConnection cfg (.loop l) sockfd).2) (d : ConnPtr L) :
    Life ((s.newConnection cfg (.loop l) sockfd).1.setStack (.loop l)
      ((s.newConnection cfg (.loop l) sockfd).2 ++ rest)) d := by
  let c : ConnPtr L := ⟨s.nextConnId, (cfg.getNextLoop s.next).1, sockfd⟩
  generalize hs₂ : (s.newConnection cfg (.loop l) sockfd).1.setStack (.loop l)
    ((s.newConnection cfg (.loop l) sockfd).2 ++ rest) = s₂
  have hcount : ∀ k d, s₂.tasks k d = s.tasks k d + [(Task.establish, c)].count (k, d) := by
    intro k d
    have hk := tasks_runs (k := k) (c := d) hstack hruns hi
    rw [hs₂, htask] at hk
    have hpush : (s.newConnection cfg (.loop l) sockfd).2.filterMap Instr.task? =
        [(Task.establish, c)] := task_runInLoop _ _ _
    rwa [hpush] at hk
  have hheap : ∀ d, d ≠ c → s₂.heap d = s.heap d := by
    intro d hd
    rw [← hs₂]
    exact Function.update_of_ne hd _ _
  have hnew : s.heap c = none := by
    by_contra hsome
    obtain ⟨conn, hconn⟩ := Option.ne_none_iff_exists'.mp hsome
    exact absurd (h.ledger.id_lt c conn hconn) (Nat.lt_irrefl _)
  have hconnections : s₂.connections = (cfg.connName s.nextConnId, c) ::
      s.connections.filter fun item => item.1 ≠ cfg.connName s.nextConnId := by
    rw [← hs₂]
    rfl
  by_cases hd : d = c
  · -- the new connection: in the map, not registered, one `connectionEstablished` to come
    subst hd
    have hself : s₂.heap c = some (TcpConnection.make sockfd cfg.writeCompleteCallback) := by
      rw [← hs₂]
      exact Function.update_self _ _ _
    have hpollers : s₂.pollers = s.pollers := by
      rw [← hs₂]
      rfl
    refine ⟨fun hnone => absurd (hself.symm.trans hnone) (by simp), fun conn' hconn' => ?_⟩
    obtain rfl := Option.some.inj (hself.symm.trans hconn')
    obtain ⟨hestablish, hclosing⟩ := (h.life c).absent hnew
    rw [State.closing] at hclosing
    refine .connecting rfl ⟨rfl, rfl, ?_, ?_⟩ ⟨_, hconnections ▸ List.mem_cons_self, rfl⟩ ?_ ?_
    · show (s₂.pollers c.loop).channels sockfd = none
      rw [hpollers]
      exact (h.wiring.none_of_closed h.ledger hfree c.loop).1
    · show (s₂.pollers c.loop).epoll sockfd = none
      rw [hpollers]
      exact (h.wiring.none_of_closed h.ledger hfree c.loop).2
    · rw [hcount, hestablish]
      simp
    · rw [State.closing, hcount, hcount, hcount]
      simp only [List.count_singleton, beq_iff_eq, Prod.mk.injEq, reduceCtorEq, false_and,
        if_false]
      omega
  · have hsame : ∀ k, s₂.tasks k d = s.tasks k d := by
      intro k
      rw [hcount, List.count_singleton, if_neg, Nat.add_zero]
      simp [Ne.symm hd]
    refine (h.life d).bystander ⟨hheap d hd, fun _ _ => ?_, fun _ _ => ?_, fun conn hconn _ => ?_,
      hsame _, ?_, fun x hx => ?_⟩
    · rw [← hs₂]
      rfl
    · rw [← hs₂]
      rfl
    · rintro ⟨item, hitem, rfl⟩
      have hid := h.ledger.id_lt item.2 conn hconn
      have hname := (h.ledger.names item hitem).1
      refine ⟨item, ?_, rfl⟩
      rw [hconnections]
      -- the new name is a new one, so the assignment overwrites no other entry
      refine List.mem_cons_of_mem _ (List.mem_filter.mpr ⟨hitem, ?_⟩)
      have hne : item.1 ≠ cfg.connName s.nextConnId := by
        intro heq
        have hbound := h.ledger.nextConnId_lt
        have := cfg.connName_injective (by omega) hbound (hname.symm.trans heq)
        omega
      simpa using hne
    · rw [State.closing, hsame, hsame, hsame, State.closing]
    · rw [← hs₂]
      exact List.mem_append_left _ hx

/-- The store of `shutdown` finds the connection still open. -/
theorem Invariant.life_setDisconnecting (h : Invariant cfg s) {c : ConnPtr L}
    {conn : TcpConnection} {o : Outcome} {rest : List (Instr L)}
    (hstack : s.stack (.loop l) = .setDisconnecting c :: rest) (hconn : s.heap c = some conn)
    (hruns : Runs cfg (.loop l) s (.setDisconnecting c) o
      (s.setConn c { conn with state := .kDisconnecting })
      (cfg.runInLoop (.loop l) c.loop (.shutdownInLoop c))) (d : ConnPtr L) :
    Life ((s.setConn c { conn with state := .kDisconnecting }).setStack (.loop l)
      (cfg.runInLoop (.loop l) c.loop (.shutdownInLoop c) ++ rest)) d := by
  have hpush : (cfg.runInLoop (.loop l) c.loop (.shutdownInLoop c)).filterMap Instr.task? = [] :=
    task_runInLoop _ _ _
  generalize hs₂ : (s.setConn c { conn with state := .kDisconnecting }).setStack (.loop l)
    (cfg.runInLoop (.loop l) c.loop (.shutdownInLoop c) ++ rest) = s₂
  have hestablish : s₂.tasks .establish d = s.tasks .establish d :=
    hs₂ ▸ tasks_same hstack hruns (.inr hpush)
  have hclosing : s₂.closing d = s.closing d :=
    hs₂ ▸ closing_same hstack hruns (.inr hpush)
  have hheap : s₂.heap = Function.update s.heap c (some { conn with state := .kDisconnecting }) :=
    hs₂ ▸ rfl
  have hpollers : s₂.pollers = s.pollers := hs₂ ▸ rfl
  have hconnections : s₂.connections = s.connections := hs₂ ▸ rfl
  by_cases hd : d = c
  · subst hd
    have hi : Instr.setDisconnecting d ∈ s.stack (.loop l) := hstack ▸ List.mem_cons_self
    obtain ⟨-, conn', hconn', hopen⟩ := (h.work.tame l _ hi).urgent d rfl
    obtain rfl := Option.some.inj (hconn.symm.trans hconn')
    obtain ⟨hchannel, hhold, hzero, hzero'⟩ := ((h.life d).stage conn hconn).of_open hopen
    refine ⟨fun hnone => ?_, fun conn₂ hconn₂ => ?_⟩
    · rw [hheap, Function.update_self] at hnone
      exact absurd hnone (by simp)
    · rw [hheap, Function.update_self] at hconn₂
      obtain rfl := Option.some.inj hconn₂
      refine .up (.inr rfl) ?_ ?_ (hestablish.trans hzero) (hclosing.trans hzero')
      · exact hchannel.of_eq rfl (congrFun hpollers d.loop)
      · rwa [State.Holds, hconnections]
  · refine (h.life d).bystander ⟨?_, fun _ _ => by rw [hpollers], fun _ _ => by rw [hpollers],
      fun _ _ _ hhold => ?_, hestablish, hclosing, fun x hx => ?_⟩
    · rw [hheap]
      exact Function.update_of_ne hd _ _
    · rwa [State.Holds, hconnections]
    · exact hs₂ ▸ hx

/-- `removeConnectionInLoop` erases the entry of a connection that is down. -/
theorem Invariant.life_removeConnectionInLoop (h : Invariant cfg s) {c : ConnPtr L}
    {o : Outcome} {rest : List (Instr L)}
    (hstack : s.stack (.loop l) = .functor (.removeConnectionInLoop c) :: rest)
    (hruns : Runs cfg (.loop l) s (.functor (.removeConnectionInLoop c)) o
      { s with
        connections := s.connections.filter fun item => item.1 ≠ cfg.connName c.id
        log := s.log ++ [.connections (.loop l)] }
      [.queueInLoop c.loop (.connectionDestroyed c)]) (d : ConnPtr L) :
    Life (State.setStack { s with
        connections := s.connections.filter fun item => item.1 ≠ cfg.connName c.id
        log := s.log ++ [.connections (.loop l)] } (.loop l)
      ([.queueInLoop c.loop (.connectionDestroyed c)] ++ rest)) d := by
  have hi : Instr.functor (.removeConnectionInLoop c) ∈ s.stack (.loop l) :=
    hstack ▸ List.mem_cons_self
  have hpos : 0 < s.closing c :=
    (task_of_mem hi rfl : 0 < s.tasks .remove c).trans_le (tasks_le_closing (by simp))
  obtain ⟨conn, hconn⟩ : ∃ conn, s.heap c = some conn := by
    refine Option.ne_none_iff_exists'.mp fun hnone => ?_
    have := ((h.life c).absent hnone).2
    omega
  have hdown := (((h.life c).stage conn hconn).of_closing hpos).1
  refine (h.life d).bystander ⟨rfl, fun _ _ => rfl, fun _ _ => rfl, fun conn' hconn' hup => ?_,
    tasks_same hstack hruns (.inr rfl), closing_same hstack hruns (.inr rfl),
    fun x hx => List.mem_append_left _ hx⟩
  rintro ⟨item, hitem, rfl⟩
  refine ⟨item, List.mem_filter.mpr ⟨hitem, ?_⟩, rfl⟩
  have hne : item.1 ≠ cfg.connName c.id := by
    intro heq
    have hbound := h.ledger.nextConnId_lt
    have hid := h.ledger.id_lt c conn hconn
    have hid' := h.ledger.id_lt item.2 conn' hconn'
    have hsame : item.2.id = c.id := cfg.connName_injective (by omega) (by omega)
      ((h.ledger.names item hitem).1.symm.trans heq)
    have hitem' : item.2 = c :=
      h.ledger.id_injective item.2 c (by rw [hconn']; rfl) (by rw [hconn]; rfl) hsame
    rw [hitem', hconn] at hconn'
    exact hup (Option.some.inj hconn' ▸ hdown)
  simpa using hne

/-- An instruction that only moves work. -/
theorem Invariant.life_quiet (h : Invariant cfg s) {i : Instr L} {o : Outcome}
    {rest is : List (Instr L)} (hstack : s.stack (.loop l) = i :: rest)
    (hruns : Runs cfg (.loop l) s i o s' is) (hs : Undisturbed s s')
    (htasks : i.transfers = true ∨ is.filterMap Instr.task? = i.task?.toList) (d : ConnPtr L) :
    Life (s'.setStack (.loop l) (is ++ rest)) d := by
  have hset : Undisturbed s (s'.setStack (.loop l) (is ++ rest)) :=
    ⟨hs.heap, hs.pollers, hs.acceptChannel, hs.connections, hs.nextConnId, hs.isOpen, hs.log⟩
  exact (h.life d).bystander
    (hset.bystander (tasks_same hstack hruns htasks) (closing_same hstack hruns htasks))

/-- An instruction that hands a connection on, one task further. -/
theorem Invariant.life_handOver (h : Invariant cfg s) {i : Instr L} {o : Outcome}
    {rest is : List (Instr L)} {c : ConnPtr L} {k k' : Task}
    (hstack : s.stack (.loop l) = i :: rest) (hruns : Runs cfg (.loop l) s i o s' is)
    (hs : Undisturbed s s') (hi : i.transfers = false) (hk : k ≠ .establish)
    (hk' : k' ≠ .establish) (htask : i.task? = some (k, c))
    (his : is.filterMap Instr.task? = [(k', c)]) (d : ConnPtr L) :
    Life (s'.setStack (.loop l) (is ++ rest)) d := by
  obtain ⟨hestablish, hclosing⟩ := closing_handOver hstack hruns hi hk hk' htask his d
  have hset : Undisturbed s (s'.setStack (.loop l) (is ++ rest)) :=
    ⟨hs.heap, hs.pollers, hs.acceptChannel, hs.connections, hs.nextConnId, hs.isOpen, hs.log⟩
  exact (h.life d).bystander (hset.bystander hestablish hclosing)

theorem Invariant.life_runs (h : Invariant cfg s) {i : Instr L} {o : Outcome}
    {rest is : List (Instr L)} (hstack : s.stack (.loop l) = i :: rest)
    (hruns : Runs cfg (.loop l) s i o s' is) (d : ConnPtr L) :
    Life (s'.setStack (.loop l) (is ++ rest)) d := by
  have hi : i ∈ s.stack (.loop l) := hstack ▸ List.mem_cons_self
  have hrun := hruns
  cases hruns with
  | @calls c conn i o events f hconn hcalls =>
    obtain ⟨hloop, hshift, hframe⟩ := h.shift hi hconn hcalls
    refine h.life_performed hstack hconn hrun hcalls.not_transfers hshift hframe ?_ d
    rintro rfl
    cases hcalls
    rw [hloop]
    exact List.mem_cons_of_mem _ List.mem_cons_self
  | setDisconnecting hconn => exact h.life_setDisconnecting hstack hconn hrun d
  | newConnection hfree => exact h.life_newConnection hstack hfree rfl rfl hrun d
  | removeConnectionInLoop => exact h.life_removeConnectionInLoop hstack hrun d
  | removeAcceptor => exact absurd rfl (h.work.tame l _ hi).removeAcceptor
  | listen =>
    -- the registration of the acceptor is at a descriptor of its own
    have hother : ∀ conn, s.heap d = some conn → conn.channel.fd ≠ s.acceptChannel.fd := by
      intro conn hconn heq
      rw [h.ledger.fd_eq d conn hconn, h.wiring.acceptor_fd] at heq
      exact h.ledger.fd_ne_acceptFd d (by rw [hconn]; rfl) heq
    have hpoller : ∀ fd, fd ≠ s.acceptChannel.fd →
        ((s.onAcceptor cfg (Channel.enableReading .acceptor)).pollers d.loop).channels fd =
          (s.pollers d.loop).channels fd ∧
        ((s.onAcceptor cfg (Channel.enableReading .acceptor)).pollers d.loop).epoll fd =
          (s.pollers d.loop).epoll fd := by
      intro fd hfd
      by_cases hbase : d.loop = cfg.base
      · rw [hbase]
        simp only [State.onAcceptor, Function.update_self]
        exact EPollPoller.updateChannel_other hfd
      · simp only [State.onAcceptor, Function.update_of_ne hbase, and_self]
    exact (h.life d).bystander ⟨rfl, fun conn hconn => (hpoller _ (hother conn hconn)).1,
      fun conn hconn => (hpoller _ (hother conn hconn)).2, fun _ _ _ hhold => hhold,
      tasks_same hstack hrun (.inr rfl), closing_same hstack hrun (.inr rfl), fun _ hx => hx⟩
  | destroyFound =>
    exact h.life_handOver hstack hrun
      ⟨rfl, rfl, rfl, rfl, rfl, rfl, fun _ => List.mem_append_left _⟩ rfl (by simp)
      (show Task.unhook ≠ .establish by simp) rfl rfl d
  | destroySkips =>
    exact h.life_handOver hstack hrun
      ⟨rfl, rfl, rfl, rfl, rfl, rfl, fun _ => List.mem_append_left _⟩ rfl (by simp)
      (show Task.unhook ≠ .establish by simp) rfl rfl d
  | removeConnection =>
    exact h.life_handOver hstack hrun
      ⟨rfl, rfl, rfl, rfl, rfl, rfl, fun _ => List.mem_append_left _⟩ rfl (by simp)
      (show Task.remove ≠ .establish by simp) rfl (task_runInLoop _ _ _) d
  | poll =>
    exact h.life_quiet hstack hrun ⟨rfl, rfl, rfl, rfl, rfl, rfl, fun _ => id⟩
      (.inr (task_activeChannels _ _)) d
  | handleEvent =>
    exact h.life_quiet hstack hrun ⟨rfl, rfl, rfl, rfl, rfl, rfl, fun _ => id⟩
      (.inr (task_eventCallbacks _ _ _)) d
  | swap =>
    exact h.life_quiet hstack hrun ⟨rfl, rfl, rfl, rfl, rfl, rfl, fun _ => id⟩ (.inl rfl) d
  | queueInLoop =>
    exact h.life_quiet hstack hrun ⟨rfl, rfl, rfl, rfl, rfl, rfl, fun _ => id⟩ (.inl rfl) d
  | @quit m =>
    refine h.life_quiet hstack hrun ⟨rfl, rfl, rfl, rfl, rfl, rfl, fun _ => id⟩ (.inr ?_) d
    split_ifs <;> rfl
  | _ => exact h.life_quiet hstack hrun ⟨rfl, rfl, rfl, rfl, rfl, rfl, fun _ => id⟩ (.inr rfl) d

end Step

end TcpServer

end Moduo
