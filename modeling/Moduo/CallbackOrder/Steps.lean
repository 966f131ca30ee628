/-
The order of the callbacks, instruction by instruction.

* `orderly_runs` — one instruction of a loop thread goes on with the history of
  the connection it is about, and leaves that of the others alone;
* `fit_runs` — the events it reports are those of Linux.
-/
import Moduo.CallbackOrder.Chapters

namespace Moduo

namespace TcpServer

variable {L U : Type*} {cfg : Config L U} {s s' : State L U} {l : L}

section Step

variable [DecidableEq L] [Fintype L] [DecidableEq U] {c d : ConnPtr L} {i : Instr L} {o : Outcome}
  {rest is : List (Instr L)}

omit [DecidableEq U] [Fintype L] [DecidableEq L] in
theorem trigger_runInLoop (t : Thread L U) (m : L) (f : Functor L) :
    ∀ j ∈ cfg.runInLoop t m f, j.trigger? = none := by
  intro j hj
  rcases Config.mem_runInLoop hj with rfl | rfl
  · rfl
  · rfl

omit [DecidableEq U] [Fintype L] in
theorem history_record (s : State L U) (events : List (Event L U)) (d : ConnPtr L) :
    (s.record events).history d = s.history d ++ marks d events := by
  rw [State.history, State.history, ← marks_append]
  rfl

/-- An instruction that no user hears of, and that hands its task on. -/
theorem InOrder.quiet (h : InOrder cfg s) (hstack : s.stack (.loop l) = i :: rest)
    (hruns : Runs cfg (.loop l) s i o s' is) (hheap : s'.heap = s.heap)
    (hid : s'.nextConnId = s.nextConnId) (hlog : ∀ d, s'.history d = s.history d)
    (htasks : i.transfers = true ∨ is.filterMap Instr.task? = i.task?.toList)
    (htriggers : ∀ j ∈ is, j.trigger? = none) (d : ConnPtr L) :
    Orderly (s'.setStack (.loop l) (is ++ rest)) d := by
  refine (h.orderly d).congr (congrFun hheap d) hid.ge (hlog d)
    (fun k => tasks_same hstack hruns htasks) (triggers_le hstack hruns fun j hj => ?_)
  rw [htriggers j hj]
  simp

/-- An instruction that hands a connection that is down one task further. -/
theorem InOrder.handOver (h : InOrder cfg s) {k k' : Task} (ms : List Mark)
    (hstack : s.stack (.loop l) = i :: rest) (hruns : Runs cfg (.loop l) s i o s' is)
    (hheap : s'.heap = s.heap) (hid : s'.nextConnId = s.nextConnId)
    (hlog : ∀ d, s'.history d = s.history d ++ if d = c then ms else [])
    (hi : i.transfers = false) (hk : k ≠ .establish) (htask : i.task? = some (k, c))
    (his : is.filterMap Instr.task? = [(k', c)]) (htriggers : ∀ j ∈ is, j.trigger? = none)
    (hnext : ∀ ph, Left s c ph → 0 < s.tasks k c →
      (∀ k₀, (s'.setStack (.loop l) (is ++ rest)).tasks k₀ c + [(k, c)].count (k₀, c) =
        s.tasks k₀ c + [(k', c)].count (k₀, c)) →
      ∃ ph', lifeCycle.run ph ms = some ph' ∧ Left (s'.setStack (.loop l) (is ++ rest)) c ph')
    (d : ConnPtr L) : Orderly (s'.setStack (.loop l) (is ++ rest)) d := by
  have hcount : ∀ k₀ d, (s'.setStack (.loop l) (is ++ rest)).tasks k₀ d +
      [(k, c)].count (k₀, d) = s.tasks k₀ d + [(k', c)].count (k₀, d) := by
    intro k₀ d
    have hcount := tasks_runs (k := k₀) (c := d) hstack hruns hi
    rwa [htask, his] at hcount
  have hle : (s'.setStack (.loop l) (is ++ rest)).triggers d ≤ s.triggers d := by
    refine triggers_le hstack hruns fun j hj => ?_
    rw [htriggers j hj]
    simp
  have hpos : 0 < s.tasks k c := task_of_mem (hstack ▸ List.mem_cons_self) htask
  by_cases hd : d = c
  · subst hd
    have hmarks := hlog d
    rw [if_pos rfl] at hmarks
    obtain ⟨conn, hconn⟩ : ∃ conn, s.heap d = some conn := by
      refine Option.ne_none_iff_exists'.mp fun hnone => ?_
      have hclosing := ((h.invariant.life d).absent hnone).2
      have := tasks_le_closing (s := s) (c := d) hk
      omega
    obtain ⟨ph, hstate, hphase, hleft, hzero⟩ := h.down_of_task hconn hk hpos
    obtain ⟨ph', hrun, hleft'⟩ := hnext ph hleft hpos fun k₀ => hcount k₀ d
    refine .of_chapter ((congrFun hheap d).trans hconn) ?_
      (.down ph' hstate (hphase.extend hmarks hrun) hleft' (by omega))
      ((h.orderly d).paired conn hconn)
    show d.id < s'.nextConnId
    rw [hid]
    exact h.invariant.ledger.id_lt d conn hconn
  · have hmarks := hlog d
    rw [if_neg hd, List.append_nil] at hmarks
    refine (h.orderly d).congr (congrFun hheap d) hid.ge hmarks (fun k₀ => ?_) hle
    have hother := hcount k₀ d
    have hforeign : ∀ k : Task, [(k, c)].count (k₀, d) = 0 := by
      intro k
      rw [List.count_singleton, if_neg]
      simp [Ne.symm hd]
    rw [hforeign, hforeign] at hother
    omega

/-- A new connection starts its history. -/
theorem InOrder.newConnection (h : InOrder cfg s) {sockfd : ℕ}
    (hstack : s.stack (.loop l) = i :: rest) (hi : i.transfers = false) (htask : i.task? = none)
    (hruns : Runs cfg (.loop l) s i o (s.newConnection cfg (.loop l) sockfd).1
      (s.newConnection cfg (.loop l) sockfd).2) (d : ConnPtr L) :
    Orderly ((s.newConnection cfg (.loop l) sockfd).1.setStack (.loop l)
      ((s.newConnection cfg (.loop l) sockfd).2 ++ rest)) d := by
  let c : ConnPtr L := ⟨s.nextConnId, (cfg.getNextLoop s.next).1, sockfd⟩
  have hhistory : ((s.newConnection cfg (.loop l) sockfd).1.setStack (.loop l)
      ((s.newConnection cfg (.loop l) sockfd).2 ++ rest)).history d = s.history d := by
    have hlog : ((s.newConnection cfg (.loop l) sockfd).1.setStack (.loop l)
      ((s.newConnection cfg (.loop l) sockfd).2 ++ rest)).history d =
        marks d (s.log ++ [.nextConnId (.loop l), .connections (.loop l)]) := rfl
    rw [hlog, marks_append]
    exact List.append_nil _
  have hle : ((s.newConnection cfg (.loop l) sockfd).1.setStack (.loop l)
      ((s.newConnection cfg (.loop l) sockfd).2 ++ rest)).triggers d ≤ s.triggers d := by
    refine triggers_le hstack hruns fun j hj => ?_
    rw [trigger_runInLoop _ _ _ j hj]
    simp
  by_cases hd : d = c
  · subst hd
    have hnew : s.heap c = none := by
      by_contra hsome
      obtain ⟨conn, hconn⟩ := Option.ne_none_iff_exists'.mp hsome
      exact absurd (h.invariant.ledger.id_lt c conn hconn) (Nat.lt_irrefl _)
    have hzero : s.triggers c = 0 :=
      h.invariant.triggers_eq_zero fun conn hconn => absurd (hnew.symm.trans hconn) (by simp)
    refine .of_chapter (Function.update_self _ _ _) (Nat.lt_succ_self _)
      (.connecting rfl ?_ (by omega)) ?_
    · rw [State.Reports, hhistory, (h.orderly c).unborn le_rfl]
      rfl
    · intro _
      show 0#32 &&& EPOLLPRI = 0
      decide
  · refine (h.orderly d).congr (Function.update_of_ne hd _ _) (Nat.le_succ _) hhistory
      (fun k => ?_) hle
    have hcount := tasks_runs (k := k) (c := d) hstack hruns hi
    have hpush : (s.newConnection cfg (.loop l) sockfd).2.filterMap Instr.task? =
        [(Task.establish, c)] := task_runInLoop _ _ _
    have hforeign : [(Task.establish, c)].count (k, d) = 0 := by
      rw [List.count_singleton, if_neg]
      simp [Ne.symm hd]
    rw [htask, hpush, hforeign] at hcount
    exact hcount

/-- `shutdown` leaves its connection up. -/
theorem InOrder.setDisconnecting (h : InOrder cfg s) {conn : TcpConnection}
    (hstack : s.stack (.loop l) = .setDisconnecting c :: rest) (hconn : s.heap c = some conn)
    (hruns : Runs cfg (.loop l) s (.setDisconnecting c) o
      (s.setConn c { conn with state := .kDisconnecting })
      (cfg.runInLoop (.loop l) c.loop (.shutdownInLoop c))) (d : ConnPtr L) :
    Orderly ((s.setConn c { conn with state := .kDisconnecting }).setStack (.loop l)
      (cfg.runInLoop (.loop l) c.loop (.shutdownInLoop c) ++ rest)) d := by
  have htasks : ∀ k, ((s.setConn c { conn with state := .kDisconnecting }).setStack (.loop l)
      (cfg.runInLoop (.loop l) c.loop (.shutdownInLoop c) ++ rest)).tasks k d = s.tasks k d :=
    fun k => tasks_same hstack hruns (.inr (task_runInLoop _ _ _))
  have hle : ((s.setConn c { conn with state := .kDisconnecting }).setStack (.loop l)
      (cfg.runInLoop (.loop l) c.loop (.shutdownInLoop c) ++ rest)).triggers d ≤
        s.triggers d := by
    refine triggers_le hstack hruns fun j hj => ?_
    rw [trigger_runInLoop _ _ _ j hj]
    simp
  by_cases hd : d = c
  · subst hd
    have hmem : Instr.setDisconnecting d ∈ s.stack (.loop l) := hstack ▸ List.mem_cons_self
    obtain ⟨-, conn', hconn', hopen⟩ := (h.invariant.work.tame l _ hmem).urgent d rfl
    obtain rfl := Option.some.inj (hconn.symm.trans hconn')
    refine .of_chapter (Function.update_self _ _ _) (h.invariant.ledger.id_lt d conn hconn) ?_
      ((h.orderly d).paired conn hconn)
    cases (h.orderly d).chapter conn hconn with
    | connecting hstate => exact absurd hstate hopen.ne_connecting
    | up _ hphase hone => exact .up (.inr rfl) hphase (by omega)
    | down ph hstate => exact absurd hstate hopen.ne_disconnected
  · exact (h.orderly d).congr (Function.update_of_ne hd _ _) le_rfl rfl htasks hle

/-- A poll reports an event of a connection that is up, or none. -/
theorem InOrder.poll (h : InOrder cfg s) {ready : List (ℕ × EventMask)}
    (hstack : s.stack (.loop l) = .poll l :: rest) (hnodup : (ready.map Prod.fst).Nodup)
    (hruns : Runs cfg (.loop l) s (.poll l) o s
      (activeChannels (s.pollers l) ready ++ [.beginPendingFunctors l])) (d : ConnPtr L) :
    Orderly (s.setStack (.loop l)
      ((activeChannels (s.pollers l) ready ++ [.beginPendingFunctors l]) ++ rest)) d := by
  have htasks := fun k => tasks_same (k := k) (c := d) hstack hruns
    (.inr (task_activeChannels _ _))
  rcases h.invariant.triggers_poll (c := d) hstack hruns hnodup with
    hle | ⟨hone, rfl, x, hx, hptr⟩
  · exact (h.orderly d).congr rfl le_rfl rfl htasks hle
  · have hknown := h.invariant.wiring.epoll d.loop d.fd x hx
    rw [hptr] at hknown
    obtain ⟨-, -, conn, hconn, hindex⟩ := hknown
    refine .of_chapter hconn (h.invariant.ledger.id_lt d conn hconn) ?_
      ((h.orderly d).paired conn hconn)
    -- a channel that has been silenced is not in the epoll set
    have hopen : conn.Open := by
      rcases (((h.invariant.life d).stage conn hconn).of_added hindex).2 with
        ⟨hopen, -⟩ | ⟨-, hsilenced, -⟩
      · exact hopen
      · have hnone : (s.pollers d.loop).epoll conn.channel.fd = none := hsilenced.epoll
        rw [h.invariant.ledger.fd_eq d conn hconn, hx] at hnone
        exact absurd hnone (by simp)
    cases (h.orderly d).chapter conn hconn with
    | connecting hstate => exact absurd hstate hopen.ne_connecting
    | up _ hphase _ => exact .up hopen hphase hone
    | down ph hstate => exact absurd hstate hopen.ne_disconnected

/-- One instruction of a loop thread keeps every connection in order. -/
theorem InOrder.orderly_runs (h : InOrder cfg s) (hstack : s.stack (.loop l) = i :: rest)
    (hruns : Runs cfg (.loop l) s i o s' is) (d : ConnPtr L) :
    Orderly (s'.setStack (.loop l) (is ++ rest)) d := by
  have hmem : i ∈ s.stack (.loop l) := hstack ▸ List.mem_cons_self
  have hrun := hruns
  have hnothing : ∀ j ∈ ([] : List (Instr L)), j.trigger? = none :=
    fun j hj => absurd hj List.not_mem_nil
  have hsingle : ∀ {j : Instr L}, j.trigger? = none → ∀ j' ∈ [j], j'.trigger? = none := by
    intro j hj j' hj'
    rw [List.mem_singleton.mp hj', hj]
  cases hruns with
  | @calls c conn i o events f hconn hcalls =>
    by_cases hd : d = c
    · subst hd
      exact h.performed_self hstack hconn hcalls hrun
    · exact (h.orderly d).performed_of_ne hd hstack hcalls hrun
  | setDisconnecting hconn => exact h.setDisconnecting hstack hconn hrun d
  | newConnection => exact h.newConnection hstack rfl rfl hrun d
  | @poll m ready hnodup hready =>
    obtain rfl : l = m :=
      Thread.loop.inj ((h.invariant.confined.stack _ _ hmem).thread (l := m) rfl)
    exact h.poll hstack hnodup hrun d
  | @handleEvent c conn revents o hconn =>
    refine (h.orderly d).congr rfl le_rfl rfl
      (fun k => tasks_same hstack hrun (.inr (task_eventCallbacks _ _ _))) ?_
    exact triggers_handleEvent hstack hrun (h.fit l c revents hmem)
  | removeAcceptor => exact absurd rfl (h.invariant.work.tame l _ hmem).removeAcceptor
  | @removeConnection c =>
    -- the report becomes the task of removing the entry
    refine h.handOver (c := c) [.close] hstack hrun rfl rfl (fun d => ?_) rfl
      (show Task.report ≠ .establish by simp) rfl (task_runInLoop _ _ _) (trigger_runInLoop _ _ _)
      (fun ph hleft hpos hcount => ?_) d
    · rw [history_record]
      by_cases hd : d = c
      · simp [hd, marks, Event.mark?]
      · simp [hd, Ne.symm hd, marks, Event.mark?]
    · have hreport := hcount .report
      have hremove := hcount .remove
      have hunhook := hcount .unhook
      simp only [count_task, reduceCtorEq, if_false, if_true] at hreport hremove hunhook
      cases hleft with
      | report => exact ⟨.closed, rfl, .remove (by omega) (by omega) (by omega)⟩
      | _ => omega
  | @removeConnectionInLoop c =>
    -- the same task, now in the queue of the connection's loop
    refine h.handOver (c := c) [] hstack hrun rfl rfl (fun d => ?_) rfl
      (show Task.remove ≠ .establish by simp) rfl rfl (hsingle rfl)
      (fun ph hleft hpos hcount => ⟨ph, rfl, hleft.congr fun k => ?_⟩) d
    · rw [ite_self]
      have hlog : State.history { s with
          connections := s.connections.filter fun item => item.1 ≠ cfg.connName c.id
          log := s.log ++ [.connections (.loop l)] } d =
          marks d (s.log ++ [.connections (.loop l)]) := rfl
      rw [hlog, marks_append]
      rfl
    · have := hcount k
      omega
  | destroyFound hconn hstate =>
    -- not while the server lives: the connection is down by then
    obtain ⟨ph, hdown, -⟩ := h.down_of_task hconn (by simp) (task_of_mem (k := .remove) hmem rfl)
    exact absurd (hstate.symm.trans hdown) (by simp)
  | @destroySkips c conn o hconn hstate =>
    -- the task of removing becomes that of taking the channel out
    refine h.handOver (c := c) [.destroyed] hstack hrun rfl rfl (fun d => ?_) rfl
      (show Task.remove ≠ .establish by simp) rfl rfl (hsingle rfl)
      (fun ph hleft hpos hcount => ?_) d
    · rw [history_record]
      by_cases hd : d = c
      · simp [hd, marks, Event.mark?]
      · simp [hd, Ne.symm hd, marks, Event.mark?]
    · have hreport := hcount .report
      have hremove := hcount .remove
      have hunhook := hcount .unhook
      simp only [count_task, reduceCtorEq, if_false, if_true] at hreport hremove hunhook
      cases hleft with
      | remove => exact ⟨.destroyed, rfl, .unhook (by omega) (by omega) (by omega)⟩
      | _ => omega
  | @swap m =>
    refine h.quiet hstack hrun rfl rfl (fun _ => rfl) (.inl rfl) (fun j hj => ?_) d
    rcases List.mem_append.mp hj with hj | hj
    · obtain ⟨g, -, rfl⟩ := List.mem_map.mp hj
      rfl
    · exact hsingle rfl j hj
  | queueInLoop => exact h.quiet hstack hrun rfl rfl (fun _ => rfl) (.inl rfl) (hsingle rfl) d
  | testQuit => exact h.quiet hstack hrun rfl rfl (fun _ => rfl) (.inr rfl) (hsingle rfl) d
  | beginPendingFunctors =>
    exact h.quiet hstack hrun rfl rfl (fun _ => rfl) (.inr rfl) (hsingle rfl) d
  | endPendingFunctors =>
    exact h.quiet hstack hrun rfl rfl (fun _ => rfl) (.inr rfl) (hsingle rfl) d
  | notice => exact h.quiet hstack hrun rfl rfl (fun _ => rfl) (.inr rfl) (hsingle rfl) d
  | testWakeup => exact h.quiet hstack hrun rfl rfl (fun _ => rfl) (.inr rfl) (hsingle rfl) d
  | quit =>
    refine h.quiet hstack hrun rfl rfl (fun _ => rfl) (.inr ?_) ?_ d
    · split_ifs <;> rfl
    · split_ifs
      · exact hnothing
      · exact hsingle rfl
  | _ => exact h.quiet hstack hrun rfl rfl (fun _ => rfl) (.inr rfl) hnothing d

/-! ### What Linux reports -/

omit [Fintype L] [DecidableEq U] [DecidableEq L] in
/-- What is not registered is not reported, unless it is `EPOLLHUP` or `EPOLLERR`. -/
theorem Reportable.and_eq_zero {e : EventMask × ChannelPtr L} {revents bit : EventMask}
    (h : Reportable (some e) revents) (hmask : e.1 &&& bit = 0)
    (hother : (EPOLLHUP ||| EPOLLERR) &&& bit = 0) : revents &&& bit = 0 := by
  obtain ⟨e', he, hzero⟩ := h
  obtain rfl := Option.some.inj he
  have hbit : (e.1 ||| EPOLLHUP ||| EPOLLERR) &&& bit = 0 := by
    rw [BitVec.or_assoc, BitVec.and_or_distrib_right, hmask, hother]
    rfl
  apply BitVec.eq_of_getLsbD_eq
  intro n hn
  have hzero := congrArg (fun v : EventMask => v.getLsbD n) hzero
  have hbit := congrArg (fun v : EventMask => v.getLsbD n) hbit
  simp only [BitVec.getLsbD_and, BitVec.getLsbD_not, BitVec.ofNat_eq_ofNat, BitVec.getLsbD_zero,
    hn, decide_true, Bool.true_and] at hzero hbit ⊢
  cases hrevents : revents.getLsbD n with
  | false => rfl
  | true =>
    rw [hrevents] at hzero
    simp only [Bool.true_and, Bool.not_eq_false'] at hzero
    rw [hzero] at hbit
    simpa using hbit

omit [DecidableEq U] in
/-- The reports of Linux are fit: without `EPOLLIN` a channel has no `EPOLLPRI`. -/
theorem InOrder.fit_runs (h : InOrder cfg s) (hmem : i ∈ s.stack (.loop l))
    (hrule : HangupRule s (.exec (.loop l) o)) (hruns : Runs cfg (.loop l) s i o s' is)
    {revents : EventMask} (hj : .handleEvent (.conn c) revents ∈ is) : Fit revents := by
  have hnone : ∀ {js : List (Instr L)}, (∀ j ∈ js, j.trigger? = none) →
      .handleEvent (.conn c) revents ∉ js :=
    fun hjs hj => absurd (hjs _ hj) (by simp [Instr.trigger?])
  cases hruns with
  | @poll m ready hnodup hready =>
    obtain rfl : l = m :=
      Thread.loop.inj ((h.invariant.confined.stack _ _ hmem).thread (l := m) rfl)
    rcases List.mem_append.mp hj with hj | hj
    · obtain ⟨b, hb, x, hx, heq⟩ := mem_activeChannels hj
      obtain ⟨hptr, rfl⟩ := Instr.handleEvent.inj heq
      have hknown := h.invariant.wiring.epoll l b.1 x hx
      rw [← hptr] at hknown
      obtain ⟨rfl, hfd, conn, hconn, hindex⟩ := hknown
      -- the kernel has the events of the channel
      have hevents : x.1 = conn.channel.events := by
        rcases (((h.invariant.life c).stage conn hconn).of_added hindex).2 with
          ⟨-, hregistered⟩ | ⟨-, hsilenced, -⟩
        · have hentry : (s.pollers c.loop).epoll conn.channel.fd =
              some (conn.channel.events, .conn c) := hregistered.epoll
          rw [h.invariant.ledger.fd_eq c conn hconn, ← hfd, hx] at hentry
          exact congrArg Prod.fst (Option.some.inj hentry)
        · have hgone : (s.pollers c.loop).epoll conn.channel.fd = none := hsilenced.epoll
          rw [h.invariant.ledger.fd_eq c conn hconn, ← hfd, hx] at hgone
          exact absurd hgone (by simp)
      intro hhup hin
      have hquiet : x.1 &&& EPOLLIN = 0 := hrule b hb x hx hhup hin
      have hpaired := (h.orderly c).paired conn hconn
      have hreport := hready b hb
      rw [hx] at hreport
      rw [hevents] at hquiet
      exact hreport.and_eq_zero (hevents ▸ hpaired hquiet) (by decide)
    · exact absurd (List.mem_singleton.mp hj) (by simp)
  | calls _ _ => exact absurd hj (hnone fun j hj => trigger_effects hj)
  | handleEvent =>
    rcases mem_eventCallbacks hj with hj | hj | hj | hj | hj
    all_goals exact absurd hj (by simp)
  | swap =>
    rcases List.mem_append.mp hj with hj | hj
    · obtain ⟨g, -, hg⟩ := List.mem_map.mp hj
      exact absurd hg (by simp)
    · exact absurd (List.mem_singleton.mp hj) (by simp)
  | newConnection => exact absurd hj (hnone (trigger_runInLoop _ _ _))
  | setDisconnecting => exact absurd hj (hnone (trigger_runInLoop _ _ _))
  | removeConnection => exact absurd hj (hnone (trigger_runInLoop _ _ _))
  | destroyFound => exact absurd hj (by simp)
  | _ => simp at hj

end Step

end TcpServer

end Moduo
