/-
Every connection of a server is a connection on its loop.

* `connection_of_server` — as long as a server is not destroyed, whatever its threads
  do, each of its connections goes through a run of `ConnectionLoop`, on the thread of
  its loop and with the calls of `send` and `shutdown` of all threads;
* `streams_of_server` — so what holds of every run of `ConnectionLoop` holds of all
  connections of a server at once.
-/
import Moduo.OutputStream
import Moduo.ServerConnections.Steps

namespace Moduo

namespace TcpServer

variable {L U : Type*} [DecidableEq L]

/-- State `u` of `ConnectionLoop` is what connection `c` of an observed server has
come to. -/
structure Mirrors (cfg : Config L U) (c : ConnPtr L)
    (p : State L U × (ConnPtr L → Record (Thread L U)))
    (u : ConnectionLoop.State (Thread L U)) : Prop where
  trace : u.trace = (p.2 c).trace
  called : u.called = (p.2 c).called
  closed : u.closed = true → Closes c p.1.log
  unborn : p.1.nextConnId ≤ c.id → u = .make (.make c.fd cfg.writeCompleteCallback)
  alive : ∀ conn, p.1.heap c = some conn → ∃ lay : Layout L U, lay.Fits p.1 ∧ Shows c lay p.1 conn u

variable [DecidableEq U] [Fintype L] {cfg : Config L U} {c : ConnPtr L} {s s' : State L U}
  {a : Label L U} {u : ConnectionLoop.State (Thread L U)}

omit [DecidableEq U] [Fintype L] in
theorem later_log_runs {t : Thread L U} {i : Instr L} {o : Outcome} {is : List (Instr L)}
    (hruns : Runs cfg t s i o s' is) :
    s.nextConnId ≤ s'.nextConnId ∧ ∀ e ∈ s.log, e ∈ s'.log := by
  cases hruns with
  | calls =>
    exact ⟨le_rfl, fun e he => List.mem_append_left _ (List.mem_append_left _ he)⟩
  | newConnection => exact ⟨Nat.le_succ _, fun e he => List.mem_append_left _ he⟩
  | destroyFound => exact ⟨le_rfl, fun e he => List.mem_append_left _ he⟩
  | destroySkips => exact ⟨le_rfl, fun e he => List.mem_append_left _ he⟩
  | removeConnectionInLoop => exact ⟨le_rfl, fun e he => List.mem_append_left _ he⟩
  | removeConnection => exact ⟨le_rfl, fun e he => List.mem_append_left _ he⟩
  | _ => exact ⟨le_rfl, fun _ he => he⟩

/-- Numbers and the log only grow. -/
theorem later_log (hstep : step cfg s a = some s') :
    s.nextConnId ≤ s'.nextConnId ∧ ∀ e ∈ s.log, e ∈ s'.log := by
  cases move_of_step hstep with
  | exec _ hruns => exact ⟨(later_log_runs hruns).1, (later_log_runs hruns).2⟩
  | destroyServer => exact ⟨le_rfl, fun e he => List.mem_append_left _ he⟩
  | destroyConnection => exact ⟨le_rfl, fun e he => List.mem_append_left _ he⟩
  | _ => exact ⟨le_rfl, fun _ he => he⟩

/-- No `send` on a connection that is not there. -/
theorem sends_absent (hnone : s.heap c = none) (hstep : step cfg s a = some s') :
    sends c a = [] := by
  cases a with
  | send t d message =>
    refine if_neg ?_
    rintro rfl
    simp only [step, hnone, Option.map_none] at hstep
    split_ifs at hstep
  | _ => rfl

theorem not_exited_of_system (h : (system cfg).step s a = some s') :
    ∀ l, (s.pollers l).exited = false := by
  simp only [system] at h
  split_ifs at h with hexit
  intro l
  by_contra hl
  exact hexit ⟨l, by simpa using hl⟩

/-- One step of the server. -/
theorem mirrors_step {p q : State L U × (ConnPtr L → Record (Thread L U))}
    (hground : Ground cfg p.1) (hserving : Serving p.1 a) (h : Mirrors cfg c p u)
    (hstep : (observed cfg).step p a = some q) :
    ∃ bs v, (ConnectionLoop.system (.loop c.loop)).run u bs = some v ∧ Mirrors cfg c q v := by
  obtain ⟨hsystem, hrecords⟩ := Machine.recording_step hstep
  have hrunning := not_exited_of_system hsystem
  have hstep := step_of_system hsystem
  obtain ⟨hnext, hlog⟩ := later_log hstep
  have hrecord : q.2 c = ⟨(p.2 c).trace ++ p.1.effects c a, (p.2 c).called ++ sends c a⟩ := by
    rw [hrecords]
    rfl
  cases hheap : p.1.heap c with
  | some conn =>
    have hid := hground.ledger.id_lt c conn hheap
    obtain ⟨lay, hfits, hshows⟩ := h.alive conn hheap
    rcases hshows.step hground hfits hrunning hheap hserving hstep with
      ⟨hgone, heffects, hsends⟩ | ⟨conn', lay', hheap', hfits', bs, v, hrun, htrace, hcalled,
        hclosed, hshows'⟩
    · refine ⟨[], u, rfl, ?_, ?_, fun hc => (h.closed hc).mono hlog, fun hle => ?_,
        fun conn' hconn' => ?_⟩
      · rw [hrecord, heffects, List.append_nil, h.trace]
      · rw [hrecord, hsends, List.append_nil, h.called]
      · omega
      · rw [hgone] at hconn'
        contradiction
    · refine ⟨bs, v, hrun, ?_, ?_, fun hc => ?_, fun hle => ?_, fun conn'' hconn'' => ?_⟩
      · rw [htrace, hrecord, h.trace]
      · rw [hcalled, hrecord, h.called]
      · rcases hclosed hc with hold | hnew
        · exact (h.closed hold).mono hlog
        · exact hnew
      · omega
      · obtain rfl := Option.some.inj (hheap'.symm.trans hconn'')
        exact ⟨lay', hfits', hshows'⟩
  | none =>
    refine ⟨[], u, rfl, ?_, ?_, fun hc => (h.closed hc).mono hlog,
      fun hle => h.unborn (hnext.trans hle), fun conn hconn => ?_⟩
    · rw [hrecord, effects_absent hheap, List.append_nil, h.trace]
    · rw [hrecord, sends_absent hheap hstep, List.append_nil, h.called]
    · obtain ⟨hid, rfl, lay', hfits', hshows'⟩ :=
        Shows.newborn hground hrunning hheap hstep hconn
      rw [h.unborn hid.ge]
      exact ⟨lay', hfits', hshows'⟩

/-- Each connection of a server that is not destroyed is simulated by
`ConnectionLoop` on the thread of its loop. -/
theorem server_simulates (cfg : Config L U) (c : ConnPtr L) :
    Machine.ForwardSimulation (observed cfg) (ConnectionLoop.system (.loop c.loop))
      (fun p a => Serving p.1 a) (fun p => Ground cfg p.1) (Mirrors cfg c) where
  init p hp := by
    refine ⟨.make (.make c.fd cfg.writeCompleteCallback),
      ConnectionLoop.start_make (TcpConnection.make_fresh _ _), ?_, ?_, ?_, fun _ => rfl,
      fun conn hconn => ?_⟩
    · rw [hp.2]
      rfl
    · rw [hp.2]
      rfl
    · exact fun hc => absurd hc (by simp [ConnectionLoop.State.make])
    · rw [hp.1.heap c] at hconn
      contradiction
  step _ _ _ _ hground hserving h hstep := mirrors_step hground hserving h hstep

theorem mirrored {p : State L U × (ConnPtr L → Record (Thread L U))}
    (hp : (observed cfg).ReachableUnder (fun p a => Serving p.1 a) p) (c : ConnPtr L) :
    ∃ u, (ConnectionLoop.system (.loop c.loop)).Reachable u ∧ Mirrors cfg c p u :=
  (server_simulates cfg c).reachable
    (fun h => ground_reachable (Machine.ReachableUnder.of_recording h)) hp

/-- What the members of a connection have done and the calls of `send` on it are those
of a run of `ConnectionLoop`, which closes only where the server has called
`handleClose` or `connectionDestroyed`; and while the connection is there, the run
leads to its state and the entries of its channel. -/
theorem connection_of_server {p : State L U × (ConnPtr L → Record (Thread L U))}
    (hp : (observed cfg).ReachableUnder (fun p a => Serving p.1 a) p) (c : ConnPtr L) :
    ∃ u, (ConnectionLoop.system (.loop c.loop)).Reachable u ∧ u.trace = (p.2 c).trace ∧
      u.called = (p.2 c).called ∧ (u.closed = true → Closes c p.1.log) ∧
      ∀ conn, p.1.heap c = some conn → u.conn = conn ∧
        ((∀ l, (p.1.pollers l).exited = false) →
          u.poller = (p.1.pollers c.loop).view (.conn c) c.fd) := by
  obtain ⟨u, hu, hmirrors⟩ := mirrored hp c
  refine ⟨u, hu, hmirrors.trace, hmirrors.called, hmirrors.closed, fun conn hconn => ?_⟩
  obtain ⟨lay, -, hshows⟩ := hmirrors.alive conn hconn
  exact ⟨hshows.same, hshows.poller⟩

/-- A thread outside of the loops sends two bytes, of which the io loop gets one out. -/
def sendFromOutside : List (Label Bool Unit) :=
  acceptOne ++ [.callbackReturn (.loop true), .exec (.loop true) .none,
    .exec (.loop true) .none, .send (.user ()) ⟨1, true, 7⟩ [7, 8], .exec (.user ()) .none,
    .exec (.user ()) .none, .exec (.user ()) .none, .exec (.loop true) (.polled [(5, EPOLLIN)]),
    .exec (.loop true) .none, .exec (.loop true) .none, .exec (.loop true) .none,
    .exec (.loop true) (.wrote (.wrote 1))]

theorem connection_of_server_send :
    ∃ p : State Bool Unit × (ConnPtr Bool → Record (Thread Bool Unit)),
      (observed twoLoops).ReachableUnder (fun p a => Serving p.1 a) p ∧
      (p.2 ⟨1, true, 7⟩).called = [⟨.user (), [7, 8]⟩] ∧
      ∃ u, (ConnectionLoop.system (.loop true)).Reachable u ∧
        u.trace = (p.2 ⟨1, true, 7⟩).trace ∧ u.called = (p.2 ⟨1, true, 7⟩).called ∧
        (u.closed = true → Closes ⟨1, true, 7⟩ p.1.log) ∧
        ∀ conn, p.1.heap ⟨1, true, 7⟩ = some conn → u.conn = conn ∧
          ((∀ l, (p.1.pollers l).exited = false) →
            u.poller = (p.1.pollers true).view (.conn ⟨1, true, 7⟩) 7) := by
  have hrun : ∃ p, (observed twoLoops).runUnder (fun p a => Serving p.1 a)
      (State.make twoLoops, fun _ => ⟨[], []⟩) sendFromOutside = some p ∧
      (p.2 ⟨1, true, 7⟩).called = [⟨.user (), [7, 8]⟩] := ⟨_, rfl, rfl⟩
  obtain ⟨p, hp, hcalled⟩ := hrun
  have hinit : (observed twoLoops).init (State.make twoLoops, fun _ => ⟨[], []⟩) :=
    ⟨start_make twoLoops, rfl⟩
  have hreach : (observed twoLoops).ReachableUnder (fun p a => Serving p.1 a) p :=
    Machine.ReachableUnder.runUnder _ (.init hinit) hp
  exact ⟨p, hreach, hcalled, connection_of_server hreach ⟨1, true, 7⟩⟩

/-- The accepted messages are the first of the admitted ones. -/
theorem accepted_in_order {T : Type*} [DecidableEq T] {loopThread : T}
    {u : ConnectionLoop.State T} (hu : (ConnectionLoop.system loopThread).Reachable u) (t : T) :
    (u.accepted.filter fun m => m.caller = t).Sublist (u.called.filter fun m => m.caller = t) := by
  have hord := ConnectionLoop.OutputStream.ordered_reachable hu
  refine (List.Sublist.filter _ ?_).trans ((List.sublist_append_left _ _).trans (hord.order t))
  rw [ConnectionLoop.OutputStream.admitted, List.append_assoc]
  exact List.sublist_append_left _ _

/-- For every connection of a server, also one that is gone: the bytes the kernel has
accepted are the beginning of the payloads of some of the messages sent, and all of
them with what is left in `outputBuffer`; each thread's are in the order of its calls;
and until the connection closes, it is half closed only with an empty buffer. -/
theorem streams_of_server {p : State L U × (ConnPtr L → Record (Thread L U))}
    (hp : (observed cfg).ReachableUnder (fun p a => Serving p.1 a) p) (c : ConnPtr L) :
    ∃ accepted : List (Message (Thread L U)),
      sent (p.2 c).trace <+: accepted.flatMap Message.payload ∧
      (∀ conn, p.1.heap c = some conn →
        sent (p.2 c).trace ++ conn.outputBuffer.content = accepted.flatMap Message.payload) ∧
      (∀ t, (accepted.filter fun m => m.caller = t).Sublist
        ((p.2 c).called.filter fun m => m.caller = t)) ∧
      (¬ Closes c p.1.log → ∀ n ∈ halfCloses (p.2 c).trace, n = 0) := by
  obtain ⟨u, hu, hmirrors⟩ := mirrored hp c
  have hinv : ConnectionLoop.OutputStream.Inv u :=
    Machine.Reachable.invariant (I := ConnectionLoop.OutputStream.Inv)
      (fun _ h => ConnectionLoop.OutputStream.inv_start h) (fun _ _ _ h hstep =>
        ConnectionLoop.OutputStream.inv_move h (ConnectionLoop.move_of_system hstep).2) hu
  have hstream : sent (p.2 c).trace ++ u.conn.outputBuffer.content =
      u.accepted.flatMap Message.payload := by
    rw [← hmirrors.trace]
    exact hinv.stream
  refine ⟨u.accepted, ⟨_, hstream⟩, fun conn hconn => ?_, fun t => ?_, fun hopen => ?_⟩
  · obtain ⟨lay, -, hshows⟩ := hmirrors.alive conn hconn
    rw [← hshows.same]
    exact hstream
  · rw [← hmirrors.called]
    exact accepted_in_order hu t
  · rw [← hmirrors.trace]
    refine hinv.unsent ?_
    by_contra hc
    exact hopen (hmirrors.closed (by simpa using hc))

theorem streams_of_server_send :
    ∃ p : State Bool Unit × (ConnPtr Bool → Record (Thread Bool Unit)),
      (observed twoLoops).ReachableUnder (fun p a => Serving p.1 a) p ∧
      sent (p.2 ⟨1, true, 7⟩).trace = [7] ∧
      (p.1.heap ⟨1, true, 7⟩).map (fun conn => conn.outputBuffer.content) = some [8] ∧
      ∃ accepted : List (Message (Thread Bool Unit)),
        sent (p.2 ⟨1, true, 7⟩).trace <+: accepted.flatMap Message.payload ∧
        (∀ conn, p.1.heap ⟨1, true, 7⟩ = some conn →
          sent (p.2 ⟨1, true, 7⟩).trace ++ conn.outputBuffer.content =
            accepted.flatMap Message.payload) ∧
        (∀ t, (accepted.filter fun m => m.caller = t).Sublist
          ((p.2 ⟨1, true, 7⟩).called.filter fun m => m.caller = t)) ∧
        (¬ Closes ⟨1, true, 7⟩ p.1.log →
          ∀ n ∈ halfCloses (p.2 ⟨1, true, 7⟩).trace, n = 0) := by
  have hrun : ∃ p, (observed twoLoops).runUnder (fun p a => Serving p.1 a)
      (State.make twoLoops, fun _ => ⟨[], []⟩) sendFromOutside = some p ∧
      sent (p.2 ⟨1, true, 7⟩).trace = [7] ∧
      (p.1.heap ⟨1, true, 7⟩).map (fun conn => conn.outputBuffer.content) = some [8] :=
    ⟨_, rfl, rfl, rfl⟩
  obtain ⟨p, hp, hsent, hcontent⟩ := hrun
  have hinit : (observed twoLoops).init (State.make twoLoops, fun _ => ⟨[], []⟩) :=
    ⟨start_make twoLoops, rfl⟩
  have hreach : (observed twoLoops).ReachableUnder (fun p a => Serving p.1 a) p :=
    Machine.ReachableUnder.runUnder _ (.init hinit) hp
  exact ⟨p, hreach, hsent, hcontent, streams_of_server hreach ⟨1, true, 7⟩⟩

end TcpServer

end Moduo
