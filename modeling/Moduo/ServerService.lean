/-
What is pushed on a loop before its `poll` returns has run before it polls again.

* `Due` — a functor that was pushed before `poll` returned leaves the queue with the swap
  that follows, and nothing else keeps it there;
* `served_in_round` — so in a server, whatever the threads do during a round of a loop,
  all that was pushed before it has been run at its end, and the queue holds only what
  has been pushed during that round.

A round ends where the loop waits in `poll` again, or where `loop()` has returned.
-/
import Moduo.ServerQueues

namespace Moduo

namespace TaskQueue

variable {T φ : Type*} {loopThread : T} {s s' : State T φ}

/-- The functors `fs` were the first to be pushed and have left the queue, unless the
loop is on its way to the swap. -/
def Due (fs : List φ) (s : State T φ) : Prop :=
  fs <+: s.pushed ∧ (s.phase.settled = true → fs <+: s.executed ++ s.phase.rest)

section Step

variable [DecidableEq T]

theorem Due.move {fs : List φ} {a : Label T φ} (h : Due fs s) (hinv : Inv loopThread s)
    (hmove : Move loopThread s a s') : Due fs s' := by
  obtain ⟨hpushed, hdue⟩ := h
  have hord : s.executed ++ s.phase.rest ++ s.loop.pendingFunctors = s.pushed := hinv.ordered
  cases hmove with
  | push => exact ⟨hpushed.trans (List.prefix_append _ _), hdue⟩
  | test => exact ⟨hpushed, hdue⟩
  | wake => exact ⟨hpushed, hdue⟩
  | quit => exact ⟨hpushed, hdue⟩
  | enterLoop hp =>
    rw [hp] at hdue
    exact ⟨hpushed, hdue⟩
  | testQuit hp =>
    rw [hp] at hdue
    refine ⟨hpushed, fun _ => ?_⟩
    have hfs := hdue rfl
    show fs <+: s.executed ++ Phase.rest (if s.loop.quit then .outside else .polling)
    split_ifs
    · exact hfs
    · exact hfs
  | pollReturn => exact ⟨hpushed, fun hs => by contradiction⟩
  | dispatchWakeup => exact ⟨hpushed, fun hs => by contradiction⟩
  | dispatchOther => exact ⟨hpushed, fun hs => by contradiction⟩
  | handlerReturn => exact ⟨hpushed, fun hs => by contradiction⟩
  | beginPendingFunctors => exact ⟨hpushed, fun hs => by contradiction⟩
  | swap hp =>
    -- all that has been pushed leaves the queue
    rw [hp] at hord
    refine ⟨hpushed, fun _ => ?_⟩
    show fs <+: s.executed ++ s.loop.pendingFunctors
    rw [← hord] at hpushed
    simpa [Phase.rest] using hpushed
  | @runFunctor cb rest hp =>
    rw [hp] at hdue
    refine ⟨hpushed, fun _ => ?_⟩
    show fs <+: s.executed ++ [cb] ++ rest
    rw [List.append_assoc]
    exact hdue rfl
  | functorReturn hp =>
    rw [hp] at hdue
    exact ⟨hpushed, fun _ => hdue rfl⟩
  | endPendingFunctors hp =>
    rw [hp] at hdue
    exact ⟨hpushed, fun _ => hdue rfl⟩

theorem inv_leads {u v : State T φ} (hu : Inv loopThread u)
    (hlead : (system loopThread).Leads u v) : Inv loopThread v := by
  obtain ⟨bs, -, hv⟩ := hlead
  exact Machine.run_invariant (I := Inv loopThread)
    (fun _ _ _ h ht => inv_move h (move_of_step ht)) bs hu hv

theorem Due.leads {fs : List φ} {u v : State T φ} (h : Due fs u) (hu : Inv loopThread u)
    (hlead : (system loopThread).Leads u v) : Due fs v := by
  obtain ⟨bs, -, hv⟩ := hlead
  have hboth := Machine.run_invariant (I := fun w => Inv loopThread w ∧ Due fs w)
    (fun _ _ _ h ht => ⟨inv_move h.1 (move_of_step ht), h.2.move h.1 (move_of_step ht)⟩)
    bs ⟨hu, h⟩ hv
  exact hboth.2

end Step

end TaskQueue

namespace TcpServer

variable {L U : Type*}

/-- After `poll` has returned the loop is on its way to the swap. -/
theorem Layout.Fits.dispatching {lay : Layout L U} {s : State L U} (hfits : lay.Fits s) {l : L}
    {is : List (Instr L)} (hstack : s.stack (.loop l) = is ++ [.beginPendingFunctors l]) :
    ∃ events, lay.round l = .dispatching events := by
  have hlast : (lay.body (.loop l) ++ (lay.round l).instrs l).getLast? =
      some (.beginPendingFunctors l) := by
    have hsame := hfits.stack (.loop l)
    rw [Layout.rest] at hsame
    rw [← hsame, hstack, List.getLast?_concat]
  generalize hround : lay.round l = r at hlast
  cases r with
  | outside =>
    -- a body does not take the loop on in its round
    rw [Round.instrs, List.append_nil] at hlast
    have hin := hfits.inside (.loop l) _ (List.mem_of_getLast? hlast)
    contradiction
  | dispatching events => exact ⟨events, rfl⟩
  | testing => simp [Round.instrs] at hlast
  | polling => simp [Round.instrs] at hlast
  | swapping => simp [Round.instrs] at hlast
  | running functors => simp [Round.instrs] at hlast
  | disconnecting c functors => simp [Round.instrs, List.getLast?_cons] at hlast
  | removing c functors => simp [Round.instrs, List.getLast?_cons] at hlast

theorem Layout.Fits.outside_of_nil {lay : Layout L U} {s : State L U} (hfits : lay.Fits s) {l : L}
    (hstack : s.stack (.loop l) = []) : lay.round l = .outside := by
  rw [hfits.stack] at hstack
  have hrest : (lay.round l).instrs l = [] := (List.append_eq_nil_iff.mp hstack).2
  generalize lay.round l = r at hrest
  cases r <;> simp [Round.instrs] at hrest
  rfl

section Reachable

variable [DecidableEq L] [DecidableEq U] [Fintype L] {cfg : Config L U}
  {p q : State L U × (L → History L)}

theorem follows_queue (hp : (withHistories cfg).ReachableUnder
    (fun p a => Serving p.1 a ∧ Regular cfg p.1 a) p) {l : L} {lay : Layout L U}
    {u : TaskQueue.State (Thread L U) (Functor L)} (h : Follows cfg l lay p.1 (p.2 l) u)
    {as : List (Label L U)}
    (hmeet : (withHistories cfg).StepsMeet (fun p a => Serving p.1 a ∧ Regular cfg p.1 a) p as)
    (hq : (withHistories cfg).run p as = some q) :
    ∃ v, (TaskQueue.system (.loop l)).Leads u v ∧
      ∃ lay : Layout L U, Follows cfg l lay q.1 (q.2 l) v :=
  (withHistories_simulates cfg l).follows (fun h => ground_reachable
    ((Machine.ReachableUnder.of_recording (P := fun s a => Serving s a ∧ Regular cfg s a) h).mono
      fun _ _ hP => hP.1)) as hp ⟨lay, h⟩ hmeet hq

/-- What `poll` returns is dispatched before anything else is done with the queue. -/
theorem polled_stack {l : L} {ready : List (ℕ × EventMask)}
    (hpoll : p.1.stack (.loop l) = [.poll l])
    (hstep : (withHistories cfg).step p (.exec (.loop l) (.polled ready)) = some q) :
    (q.2 l).pushed = (p.2 l).pushed ∧
      ∃ is, q.1.stack (.loop l) = is ++ [.beginPendingFunctors l] := by
  obtain ⟨hsystem, hrecord⟩ := Machine.recording_step hstep
  obtain ⟨i, rest, ⟨s', is⟩, hstack, hr, hs⟩ := exec_of_step (step_of_system hsystem)
  rw [hpoll] at hstack
  obtain ⟨rfl, rfl⟩ := List.cons.inj hstack
  constructor
  · rw [hrecord]
    simp [History.next, State.pushes, hpoll, Instr.pushes]
  · have hruns := runs_of_exec hr
    cases hruns with
    | calls _ hcalls => cases hcalls
    | poll =>
      refine ⟨activeChannels (p.1.pollers l) ready, ?_⟩
      rw [hs, State.setStack_self, List.append_nil]
      rfl

/-- Where a loop waits in `poll`, or has returned from `loop()`, all that was pushed
before its last `poll` returned has been run, first of all and in the order of the
pushes: in the queue is only what has been pushed since. -/
theorem served_in_round (hp : (withHistories cfg).ReachableUnder
      (fun p a => Serving p.1 a ∧ Regular cfg p.1 a ∧ Staying cfg a) p) {l : L}
    (hpoll : p.1.stack (.loop l) = [.poll l]) {ready : List (ℕ × EventMask)}
    {as : List (Label L U)}
    (hmeet : (withHistories cfg).StepsMeet
      (fun p a => Serving p.1 a ∧ Regular cfg p.1 a ∧ Staying cfg a) p
      (.exec (.loop l) (.polled ready) :: as))
    (hq : (withHistories cfg).run p (.exec (.loop l) (.polled ready) :: as) = some q)
    (hend : q.1.stack (.loop l) = [.poll l] ∨ q.1.stack (.loop l) = []) :
    (p.2 l).pushed <+: (q.2 l).executed ∧
      (q.2 l).executed ++ (q.1.loops l).pendingFunctors = (q.2 l).pushed := by
  obtain ⟨p', hp', has⟩ := ((withHistories cfg).run_cons_eq_some).mp hq
  obtain ⟨hP, hmeet'⟩ := hmeet p' hp'
  have hreach := (Machine.ReachableUnder.step hp hP hp').mono
    (Q := fun p a => Serving p.1 a ∧ Regular cfg p.1 a) fun _ _ h => ⟨h.1, h.2.1⟩
  have hmeet' : (withHistories cfg).StepsMeet
      (fun p a => Serving p.1 a ∧ Regular cfg p.1 a) p' as :=
    hmeet'.mono fun _ _ h => ⟨h.1, h.2.1⟩
  obtain ⟨hsame, is, his⟩ := polled_stack hpoll hp'
  obtain ⟨u, hu, lay, hfollows⟩ := followed hreach l
  -- `poll` has just returned, so nothing is due yet
  have hdue : TaskQueue.Due (p.2 l).pushed u := by
    obtain ⟨events, hround⟩ := hfollows.fits.dispatching his
    refine ⟨by rw [hfollows.drives.pushed, hsame], fun hs => ?_⟩
    rw [hfollows.drives.phase, hround] at hs
    cases hb : lay.body (.loop l) <;> simp [hb, Round.phase, TaskQueue.Phase.settled] at hs
  obtain ⟨v, hlead, lay', hfollows'⟩ := follows_queue hreach hfollows hmeet' has
  have hinv := TaskQueue.inv_reachable hu
  have hinv' := TaskQueue.inv_leads hinv hlead
  -- at the end of the round the batch is done
  have hdone : v.phase.settled = true ∧ v.phase.rest = [] := by
    rw [hfollows'.drives.phase]
    rcases hend with hend | hend
    · rw [(hfollows'.fits.polling_iff l).mp hend]
      exact ⟨rfl, rfl⟩
    · rw [hfollows'.fits.outside_of_nil hend]
      exact ⟨rfl, rfl⟩
  have hserved := (hdue.leads hinv hlead).2 hdone.1
  rw [hdone.2, List.append_nil, hfollows'.executed hinv'] at hserved
  refine ⟨hserved, ?_⟩
  have hord : (q.2 l).executed ++ (q.2 l).running ++ (q.1.loops l).pendingFunctors =
      (q.2 l).pushed := hfollows'.ordered
  rwa [← hfollows'.rest, hdone.2, List.append_nil] at hord

end Reachable

/-- The rest of a round in which a queued message is sent, and another one queued. -/
def sendAndPush : List (Label Bool Unit) :=
  [.exec (.loop true) .none, .exec (.loop true) .none,
    .exec (.loop true) (.wrote (.wrote 2)), .exec (.user ()) .none, .exec (.user ()) .none,
    .send (.user ()) ⟨1, true, 7⟩ [9], .exec (.user ()) .none, .exec (.loop true) .none,
    .exec (.loop true) .none]

theorem served_in_round_push :
    ∃ p q : State Bool Unit × (Bool → History Bool),
      (p.1.loops true).pendingFunctors = [.sendInLoop ⟨1, true, 7⟩ [7, 8]] ∧
      (withHistories twoLoops).run p (.exec (.loop true) (.polled []) :: sendAndPush) = some q ∧
      (q.1.loops true).pendingFunctors = [.sendInLoop ⟨1, true, 7⟩ [9]] ∧
      (p.2 true).pushed <+: (q.2 true).executed ∧
      (q.2 true).executed ++ (q.1.loops true).pendingFunctors = (q.2 true).pushed := by
  have hrun : ∃ p q, (withHistories twoLoops).runUnder
      (fun p a => Serving p.1 a ∧ Regular twoLoops p.1 a ∧ Staying twoLoops a)
      (State.make twoLoops, fun _ => .empty) pushWhilePolling = some p ∧
      p.1.stack (.loop true) = [.poll true] ∧
      (p.1.loops true).pendingFunctors = [.sendInLoop ⟨1, true, 7⟩ [7, 8]] ∧
      (withHistories twoLoops).runUnder
        (fun p a => Serving p.1 a ∧ Regular twoLoops p.1 a ∧ Staying twoLoops a) p
        (.exec (.loop true) (.polled []) :: sendAndPush) = some q ∧
      (withHistories twoLoops).run p (.exec (.loop true) (.polled []) :: sendAndPush) = some q ∧
      q.1.stack (.loop true) = [.poll true] ∧
      (q.1.loops true).pendingFunctors = [.sendInLoop ⟨1, true, 7⟩ [9]] :=
    ⟨_, _, rfl, rfl, rfl, rfl, rfl, rfl, rfl⟩
  obtain ⟨p, q, hp, hpoll, hqueue, hunder, hq, hend, hlast⟩ := hrun
  have hinit : (withHistories twoLoops).init (State.make twoLoops, fun _ => .empty) :=
    ⟨start_make twoLoops, rfl⟩
  have hreach := Machine.ReachableUnder.runUnder _ (.init hinit) hp
  exact ⟨p, q, hqueue, hq, hlast,
    served_in_round hreach hpoll (.of_runUnder _ hunder) hq (.inl hend)⟩

end TcpServer

end Moduo
