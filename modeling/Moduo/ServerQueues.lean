/-
Every loop of a server is a loop with its queue.

* `queue_of_server` — as long as a server is not destroyed, each of its loops goes
  through a run of `TaskQueue`, in which all threads of the server push;
* `queues_of_server` — so on every loop what has been run, what is left of the batch and
  what is in the queue are what has been pushed, in that order, and a loop that waits with
  a functor in its queue will be woken.

The loops are observed together with their histories.
-/
import Moduo.ServerQueues.Steps

namespace Moduo

namespace TcpServer

variable {L U : Type*}

section Reachable

variable [DecidableEq L] [DecidableEq U] [Fintype L] {cfg : Config L U}
  {p : State L U × (L → History L)}

/-- A state of `TaskQueue` shows a loop of the server, and the history of the loop tells
what is left of its batch. -/
structure Follows (cfg : Config L U) (l : L) (lay : Layout L U) (s : State L U) (h : History L)
    (u : TaskQueue.State (Thread L U) (Functor L)) : Prop where
  fits : lay.Fits s
  drives : Drives cfg l lay s h.pushed u
  running : h.running = (lay.round l).rest
  ordered : h.Ordered (s.loops l)

/-- Each loop of a server that is not destroyed is simulated by `TaskQueue`. -/
theorem withHistories_simulates (cfg : Config L U) (l : L) :
    Machine.ForwardSimulation (withHistories cfg) (TaskQueue.system (.loop l))
      (fun p a => Serving p.1 a ∧ Regular cfg p.1 a) (fun p => Ground cfg p.1)
      (fun p u => ∃ lay : Layout L U, Follows cfg l lay p.1 (p.2 l) u) where
  init p hp := by
    obtain ⟨lay, hfits⟩ := (ground_start hp.1).layout
    have hout : lay.body (.loop l) = [] ∧ lay.round l = .outside := by
      rcases hfits.of_userCode (.inl (hp.1.stack (.loop l))) with huser | hout
      · have hnil := hp.1.stack (.loop l)
        rw [hfits.stack] at hnil
        rw [(List.append_eq_nil_iff.mp hnil).1] at huser
        contradiction
      · exact hout
    rw [hp.2]
    refine ⟨TaskQueue.start, rfl, lay, hfits, ⟨⟨(hp.1.loops l).symm, rfl, fun t => ?_⟩, ?_, ?_⟩,
      ?_, ?_⟩
    · rw [hp.1.stack t]
      exact fun j hj => by contradiction
    · rw [hout.2]
      rfl
    · rw [hout.1]
      exact fun _ j hj => absurd hj List.not_mem_nil
    · rw [hout.2]
      rfl
    · rw [hp.1.loops l]
      rfl
  step p a q u hground hP hR hstep := by
    obtain ⟨lay, hfits, hdrives, hrunning, hord⟩ := hR
    obtain ⟨hsystem, hrecord⟩ := Machine.recording_step hstep
    have hstep := step_of_system hsystem
    obtain ⟨v, lay', ⟨as, -, has⟩, hfits', hrest, hdrives'⟩ :=
      drives_step hground hfits hdrives hP.1 hP.2 hstep
    refine ⟨as, v, has, lay', ?_⟩
    rw [hrecord]
    refine ⟨hfits', hdrives', ?_, ordered_step hfits hrunning hord hstep⟩
    rw [hrest, ← hrunning]
    rfl

theorem followed (hp : (withHistories cfg).ReachableUnder
    (fun p a => Serving p.1 a ∧ Regular cfg p.1 a) p) (l : L) :
    ∃ u, (TaskQueue.system (.loop l)).Reachable u ∧
      ∃ lay : Layout L U, Follows cfg l lay p.1 (p.2 l) u :=
  (withHistories_simulates cfg l).reachable (fun h => ground_reachable
    ((Machine.ReachableUnder.of_recording (P := fun s a => Serving s a ∧ Regular cfg s a) h).mono
      fun _ _ hP => hP.1)) hp

omit [DecidableEq L] [DecidableEq U] [Fintype L] in
theorem Layout.Fits.polling_iff {lay : Layout L U} {s : State L U} (hfits : lay.Fits s) (l : L) :
    s.stack (.loop l) = [.poll l] ↔ lay.round l = .polling := by
  constructor
  · intro hstack
    exact (hfits.polls hstack).2.2
  · intro hround
    rw [hfits.stack, hfits.idle l (by rw [hround]; rfl), Layout.rest, hround]
    rfl

omit [DecidableEq U] [Fintype L] in
theorem Round.phase_eq_polling {l : L} {r : Round L} {b : List (Instr L)} :
    r.phase l b = .polling ↔ r = .polling := by
  cases r <;> cases b <;> simp [Round.phase]

omit [DecidableEq U] [Fintype L] in
theorem Round.phase_rest (l : L) (r : Round L) (b : List (Instr L)) :
    (r.phase l b).rest = r.rest := by
  cases r <;> cases b <;> rfl

omit [Fintype L] [DecidableEq U] in
theorem Follows.rest {l : L} {lay : Layout L U} {s : State L U} {h : History L}
    {u : TaskQueue.State (Thread L U) (Functor L)} (hm : Follows cfg l lay s h u) :
    u.phase.rest = h.running := by
  rw [hm.drives.phase, Round.phase_rest, hm.running]

omit [Fintype L] [DecidableEq U] in
/-- The functors that the history says have been run are those that have been. -/
theorem Follows.executed {l : L} {lay : Layout L U} {s : State L U} {h : History L}
    {u : TaskQueue.State (Thread L U) (Functor L)} (hm : Follows cfg l lay s h u)
    (hu : TaskQueue.Inv (.loop l) u) : u.executed = h.executed := by
  have hord : u.executed ++ u.phase.rest ++ u.loop.pendingFunctors = u.pushed := hu.ordered
  rw [hm.rest, hm.drives.loop, hm.drives.pushed, ← hm.ordered] at hord
  exact List.append_cancel_right (List.append_cancel_right hord)

/-- The queue of each loop, what has been pushed on it, what has been run and what is left
of the batch, and the threads inside a `queueInLoop` or `quit` on it are those of a run
of `TaskQueue`; its `loop()` waits in `poll` where the run does. -/
theorem queue_of_server (hp : (withHistories cfg).ReachableUnder
    (fun p a => Serving p.1 a ∧ Regular cfg p.1 a) p) (l : L) :
    ∃ u, (TaskQueue.system (.loop l)).Reachable u ∧ u.loop = p.1.loops l ∧
      u.pushed = (p.2 l).pushed ∧ u.executed = (p.2 l).executed ∧
      u.phase.rest = (p.2 l).running ∧ (∀ t, Stands l (p.1.stack t) (u.caller t)) ∧
      (p.1.stack (.loop l) = [.poll l] ↔ u.phase = .polling) := by
  obtain ⟨u, hu, lay, hm⟩ := followed hp l
  refine ⟨u, hu, hm.drives.loop, hm.drives.pushed, hm.executed (TaskQueue.inv_reachable hu),
    hm.rest, hm.drives.caller, ?_⟩
  rw [hm.fits.polling_iff, hm.drives.phase, Round.phase_eq_polling]

/-- A thread outside of the loops pushes a functor while the loop waits in `poll`. -/
def pushWhilePolling : List (Label Bool Unit) :=
  acceptOne ++ [.callbackReturn (.loop true), .exec (.loop true) .none,
    .exec (.loop true) .none, .send (.user ()) ⟨1, true, 7⟩ [7, 8], .exec (.user ()) .none]

/-- The state after it. -/
theorem withHistories_pushWhilePolling :
    ∃ p : State Bool Unit × (Bool → History Bool),
      (withHistories twoLoops).ReachableUnder
        (fun p a => Serving p.1 a ∧ Regular twoLoops p.1 a ∧ Staying twoLoops a) p ∧
      p.1.stack (.loop true) = [.poll true] ∧
      (p.1.loops true).pendingFunctors = [.sendInLoop ⟨1, true, 7⟩ [7, 8]] ∧
      (p.2 true).executed = [.connectionEstablished ⟨1, true, 7⟩] := by
  have hrun : ∃ p, (withHistories twoLoops).runUnder
      (fun p a => Serving p.1 a ∧ Regular twoLoops p.1 a ∧ Staying twoLoops a)
      (State.make twoLoops, fun _ => .empty) pushWhilePolling = some p ∧
      p.1.stack (.loop true) = [.poll true] ∧
      (p.1.loops true).pendingFunctors = [.sendInLoop ⟨1, true, 7⟩ [7, 8]] ∧
      (p.2 true).executed = [.connectionEstablished ⟨1, true, 7⟩] := ⟨_, rfl, rfl, rfl, rfl⟩
  obtain ⟨p, hp, hstack, hqueue, hexecuted⟩ := hrun
  have hinit : (withHistories twoLoops).init (State.make twoLoops, fun _ => .empty) :=
    ⟨start_make twoLoops, rfl⟩
  exact ⟨p, Machine.ReachableUnder.runUnder _ (.init hinit) hp, hstack, hqueue, hexecuted⟩

theorem queue_of_server_polling :
    ∃ p : State Bool Unit × (Bool → History Bool), p.1.stack (.loop true) = [.poll true] ∧
      ∃ u, (TaskQueue.system (.loop true)).Reachable u ∧ u.loop = p.1.loops true ∧
        u.pushed = (p.2 true).pushed ∧ u.executed = (p.2 true).executed ∧
        u.phase.rest = (p.2 true).running ∧
        (∀ t, Stands true (p.1.stack t) (u.caller t)) ∧
        (p.1.stack (.loop true) = [.poll true] ↔ u.phase = .polling) := by
  obtain ⟨p, hreach, hstack, -, -⟩ := withHistories_pushWhilePolling
  exact ⟨p, hstack, queue_of_server (hreach.mono fun _ _ hP => ⟨hP.1, hP.2.1⟩) true⟩

omit [DecidableEq L] [DecidableEq U] [Fintype L] in
/-- The functors of a round lie below the other code of the loop. -/
theorem Layout.Fits.batch_below {lay : Layout L U} {s : State L U} (hfits : lay.Fits s) (l : L) :
    (lay.round l).rest = [] ∨
      ∃ b, s.stack (.loop l) = b ++ batch l (lay.round l).rest := by
  rw [hfits.stack, Layout.rest]
  generalize lay.round l = r
  cases r with
  | running functors => exact .inr ⟨lay.body (.loop l), rfl⟩
  | disconnecting c functors =>
    exact .inr ⟨lay.body (.loop l) ++ [.disconnect c, .removeChannel c], by
      simp [Round.instrs, Round.rest, batch]⟩
  | removing c functors =>
    exact .inr ⟨lay.body (.loop l) ++ [.removeChannel c], by
      simp [Round.instrs, Round.rest, batch]⟩
  | _ => exact .inl rfl

/-- On every loop of a server the functors that have been run from the queue, then those
left of the batch, which lie on the stack of the loop, and then those in
`pendingFunctors_` are the ones that have been pushed, in the order of the pushes; and
while the loop waits in `poll` with a functor in its queue, its eventfd is readable or
another thread is about to write it. -/
theorem queues_of_server (hp : (withHistories cfg).ReachableUnder
    (fun p a => Serving p.1 a ∧ Regular cfg p.1 a ∧ Staying cfg a) p) (l : L) :
    (p.2 l).executed ++ (p.2 l).running ++ (p.1.loops l).pendingFunctors = (p.2 l).pushed ∧
      ((p.2 l).running = [] ∨ ∃ b, p.1.stack (.loop l) = b ++ batch l (p.2 l).running) ∧
      (p.1.stack (.loop l) = [.poll l] → (p.1.loops l).pendingFunctors ≠ [] →
        0 < (p.1.loops l).wakeupCounter ∨ ∃ t, t ≠ .loop l ∧
          ((p.1.stack t).head? = some (.testWakeup l) ∨
            (p.1.stack t).head? = some (.wakeup l))) := by
  obtain ⟨u, hu, lay, hm⟩ := followed (hp.mono fun _ _ hP => ⟨hP.1, hP.2.1⟩) l
  have hinv := TaskQueue.inv_reachable hu
  refine ⟨hm.ordered, ?_, fun hpoll hne => ?_⟩
  · rw [hm.running]
    exact hm.fits.batch_below l
  · have hphase : u.phase = .polling := by
      rw [hm.drives.phase, Round.phase_eq_polling]
      exact (hm.fits.polling_iff l).mp hpoll
    have hcovered := hinv.covered_of (by rw [hphase]; rfl) (by rw [hphase]; rfl)
    rw [← hm.drives.loop] at hne ⊢
    rcases hcovered hne with hpos | ⟨t, ht, hbusy⟩
    · exact .inl hpos
    · -- where the thread is inside its call is at the head of its stack
      refine .inr ⟨t, ht, ?_⟩
      have hcaller := hm.drives.caller t
      rcases hbusy with hb | hb
      · rw [hb] at hcaller
        exact .inl hcaller
      · rw [hb] at hcaller
        exact .inr hcaller

theorem queues_of_server_polling :
    ∃ p : State Bool Unit × (Bool → History Bool), p.1.stack (.loop true) = [.poll true] ∧
      (p.1.loops true).pendingFunctors = [.sendInLoop ⟨1, true, 7⟩ [7, 8]] ∧
      (p.2 true).executed = [.connectionEstablished ⟨1, true, 7⟩] ∧
      (p.2 true).executed ++ (p.2 true).running ++ (p.1.loops true).pendingFunctors =
        (p.2 true).pushed ∧
      ((p.2 true).running = [] ∨
        ∃ b, p.1.stack (.loop true) = b ++ batch true (p.2 true).running) ∧
      (p.1.stack (.loop true) = [.poll true] → (p.1.loops true).pendingFunctors ≠ [] →
        0 < (p.1.loops true).wakeupCounter ∨ ∃ t, t ≠ .loop true ∧
          ((p.1.stack t).head? = some (.testWakeup true) ∨
            (p.1.stack t).head? = some (.wakeup true))) := by
  obtain ⟨p, hreach, hstack, hqueue, hexecuted⟩ := withHistories_pushWhilePolling
  exact ⟨p, hstack, hqueue, hexecuted, queues_of_server hreach true⟩

end Reachable

end TcpServer

end Moduo
