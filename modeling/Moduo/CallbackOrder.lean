/-
The order of the callbacks of a connection in a live server.

* `inOrder_reachable` — every connection is in order in every state that a live
  server on Linux can reach;
* `callbacks_bracketed` — whatever the interleaving, the history of every
  connection is the beginning of a whole life: established and up, messages,
  down, close, destroyed, freed.
-/
import Moduo.CallbackOrder.Steps

namespace Moduo

namespace TcpServer

variable {L U : Type*} {cfg : Config L U} {s s' : State L U}

section Step

variable [DecidableEq L] [Fintype L]

theorem inOrder_start (h : Start cfg s) : InOrder cfg s := by
  have hhistory : ∀ c, s.history c = [] := by
    intro c
    rw [State.history, h.log]
    rfl
  have hnone : ∀ c conn, s.heap c ≠ some conn := by
    intro c conn hconn
    exact absurd ((h.heap c).symm.trans hconn) (by simp)
  refine ⟨invariant_start h, fun l c revents hi => ?_, fun c => ⟨fun _ => hhistory c, fun _ => ?_,
    fun conn hconn => absurd hconn (hnone c conn), fun conn hconn => absurd hconn (hnone c conn)⟩⟩
  · rw [h.stack] at hi
    exact absurd hi List.not_mem_nil
  · refine ⟨.fresh, ?_, by simp⟩
    rw [State.Reports, hhistory]
    rfl

/-- A step that no connection hears of. -/
theorem InOrder.undisturbed (h : InOrder cfg s) (hinvariant : Invariant cfg s')
    (hheap : s'.heap = s.heap) (hid : s'.nextConnId = s.nextConnId) (hlog : s'.log = s.log)
    (htasks : ∀ k c, s'.tasks k c = s.tasks k c) (htriggers : ∀ c, s'.triggers c = s.triggers c)
    (hfit : ∀ l c revents, .handleEvent (.conn c) revents ∈ s'.stack (.loop l) →
      .handleEvent (.conn c) revents ∈ s.stack (.loop l)) : InOrder cfg s' where
  invariant := hinvariant
  fit l c revents hi := h.fit l c revents (hfit l c revents hi)
  orderly c := by
    refine (h.orderly c).congr (congrFun hheap c) hid.ge ?_ (fun k => htasks k c) (htriggers c).le
    rw [State.history, hlog, State.history]

/-- A flag of a loop changes. -/
theorem InOrder.setLoop (h : InOrder cfg s) {l : L} {loop : EventLoop (Functor L)}
    (hq : loop.pendingFunctors = (s.loops l).pendingFunctors) : InOrder cfg (s.setLoop l loop) :=
  h.undisturbed (h.invariant.setLoop hq) rfl rfl rfl (fun _ _ => tokens_setLoop_same hq)
    (fun _ => tokens_setLoop_same hq) fun _ _ _ hi => hi

variable [DecidableEq U]

/-- A thread calls something that is neither a task nor an event. -/
theorem InOrder.push (h : InOrder cfg s) {t : Thread L U} {is : List (Instr L)}
    (hinvariant : Invariant cfg (s.push t is)) (htask : is.filterMap Instr.task? = [])
    (htrigger : ∀ i ∈ is, i.trigger? = none) : InOrder cfg (s.push t is) := by
  have htokens : ∀ w : Instr L → ℕ, weight w is = 0 → tokens w (s.push t is) = tokens w s := by
    intro w hw
    cases t with
    | loop l => rw [tokens_push, hw, Nat.add_zero]
    | user u => exact tokens_setStack_user u _
  refine h.undisturbed hinvariant rfl rfl rfl (fun k c => htokens _ ?_) (fun c => htokens _ ?_)
    (fun l c revents hi => ?_)
  · rw [weight_duty, htask]
    rfl
  · refine weight_eq_zero fun i hi => triggering_eq_zero ?_
    rw [htrigger i hi]
    simp
  · by_cases ht : .loop l = t
    · subst ht
      rw [State.push, State.setStack_self] at hi
      rcases List.mem_append.mp hi with hi | hi
      · exact absurd (htrigger _ hi) (by simp [Instr.trigger?])
      · exact hi
    · rwa [State.push, State.setStack_of_ne ht] at hi

/-- A user callback returns. -/
theorem InOrder.callbackReturn (h : InOrder cfg s) {t : Thread L U} {rest : List (Instr L)}
    (hstack : s.stack t = .user :: rest) : InOrder cfg (s.setStack t rest) := by
  have htokens : ∀ w : Instr L → ℕ, Fair w → tokens w (s.setStack t rest) = tokens w s := by
    intro w hw
    cases t with
    | loop l =>
      have hcount := tokens_setStack (w := w) (s := s) l rest
      rw [hstack, weight_cons, hw.user] at hcount
      omega
    | user u => exact tokens_setStack_user u _
  refine h.undisturbed (h.invariant.callbackReturn hstack) rfl rfl rfl
    (fun k c => htokens _ (fair_duty k c)) (fun c => htokens _ (fair_triggering c))
    (fun l c revents hi => ?_)
  by_cases ht : .loop l = t
  · subst ht
    rw [State.setStack_self] at hi
    rw [hstack]
    exact List.mem_cons_of_mem _ hi
  · rwa [State.setStack_of_ne ht] at hi

omit [DecidableEq U] in
/-- A connection is freed at the end of its history. -/
theorem InOrder.free (h : InOrder cfg s) {c : ConnPtr L} {conn : TcpConnection}
    (hconn : s.heap c = some conn) (hgone : ¬ s.Referenced c)
    (hinvariant : Invariant cfg (s.free c)) : InOrder cfg (s.free c) := by
  refine ⟨hinvariant, h.fit, fun d => ?_⟩
  have hhistory : (s.free c).history d =
      s.history d ++ marks d ([.freed c] : List (Event L U)) := by
    rw [State.history, State.history, ← marks_append]
    rfl
  by_cases hd : d = c
  · subst hd
    have hnone : (s.free d).heap d = none := Function.update_self _ _ _
    have hmark : marks d ([.freed d] : List (Event L U)) = [.freed] := by simp [marks, Event.mark?]
    rw [hmark] at hhistory
    obtain ⟨-, hclosing, hstate, -⟩ := h.invariant.removed hconn hgone
    rw [State.closing] at hclosing
    refine ⟨fun hunborn => ?_, fun _ => ?_, fun conn' hconn' => ?_, fun conn' hconn' => ?_⟩
    · have hid : d.id < s.nextConnId := h.invariant.ledger.id_lt d conn hconn
      have hle : s.nextConnId ≤ d.id := hunborn
      omega
    · -- nothing is left of the way down
      cases (h.orderly d).chapter conn hconn with
      | connecting hconnecting => exact absurd (hstate.symm.trans hconnecting) (by simp)
      | up hopen => exact absurd hstate hopen.ne_disconnected
      | down ph _ hphase hleft =>
        cases hleft with
        | done => exact ⟨.freed, hphase.extend hhistory rfl, by simp⟩
        | _ => omega
    · exact absurd (hnone.symm.trans hconn') (by simp)
    · exact absurd (hnone.symm.trans hconn') (by simp)
  · have hmark : marks d ([.freed c] : List (Event L U)) = [] := by
      simp [marks, Event.mark?, Ne.symm hd]
    refine (h.orderly d).congr (Function.update_of_ne hd _ _) le_rfl ?_
      (fun k => tokens_congr rfl) (tokens_congr rfl).le
    rw [hhistory, hmark, List.append_nil]

omit [Fintype L] [DecidableEq U] in
/-- A thread without a loop records nothing. -/
theorem plain_log {t : Thread L U} {i : Instr L} {o : Outcome} {is : List (Instr L)}
    (hi : i.Plain cfg) (hruns : Runs cfg t s i o s' is) : s'.log = s.log := by
  rcases hi with rfl | ⟨m, rfl⟩ | ⟨m, rfl⟩
  all_goals
    cases hruns with
    | calls _ hcalls => exact nomatch hcalls
    | _ => rfl

theorem InOrder.exec (h : InOrder cfg s) {t : Thread L U} {i : Instr L} {o : Outcome}
    {rest is : List (Instr L)} (hstack : s.stack t = i :: rest)
    (hlive : LiveOnLinux s (.exec t o)) (hruns : Runs cfg t s i o s' is) :
    InOrder cfg (s'.setStack t (is ++ rest)) := by
  have hmem : i ∈ s.stack t := hstack ▸ List.mem_cons_self
  have hinvariant := h.invariant.exec hstack hlive.1 hruns
  have hother : ∀ l, .loop l ≠ t → (s'.setStack t (is ++ rest)).stack (.loop l) =
      s.stack (.loop l) := by
    intro l ht
    rw [State.setStack_of_ne ht, stack_runs hruns]
  cases t with
  | loop m =>
    refine ⟨hinvariant, fun l c revents hi => ?_, h.orderly_runs hstack hruns⟩
    by_cases hl : l = m
    · subst hl
      rw [State.setStack_self] at hi
      rcases List.mem_append.mp hi with hi | hi
      · exact h.fit_runs hmem hlive.2 hruns hi
      · exact h.fit l c revents (hstack ▸ List.mem_cons_of_mem i hi)
    · rw [hother l (by simp [hl])] at hi
      exact h.fit l c revents hi
  | user u =>
    have hplain := h.invariant.work.user u i hmem
    have hs := (plain_runs hplain hruns).1
    have hlog : s'.log = s.log := plain_log hplain hruns
    refine h.undisturbed hinvariant hs.heap hs.nextConnId hlog (fun k c => tasks_user hruns hplain)
      (fun c => tokens_user (fair_triggering c) hruns hplain) fun l c revents hi => ?_
    rwa [hother l (by simp)] at hi

theorem inOrder_move (h : InOrder cfg s) {a : Label L U} (hlive : LiveOnLinux s a)
    (hmove : Move cfg s a s') : InOrder cfg s' := by
  have hinvariant := invariant_move h.invariant hlive.1 hmove
  cases hmove with
  | exec hstack hruns => exact h.exec hstack hlive hruns
  | callbackReturn hstack => exact h.callbackReturn hstack
  | send => exact h.push hinvariant (task_runInLoop _ _ _) (trigger_runInLoop _ _ _)
  | shutdown =>
    refine h.push hinvariant rfl fun i hi => ?_
    rw [List.mem_singleton.mp hi]
    rfl
  | refused => exact h
  | setThreadNum => exact h.push hinvariant (task_runInLoop _ _ _) (trigger_runInLoop _ _ _)
  | @loop l =>
    have hset : InOrder cfg (s.setLoop l { s.loops l with quit := false }) := h.setLoop rfl
    refine hset.push hinvariant rfl fun i hi => ?_
    rw [List.mem_singleton.mp hi]
    rfl
  | @quit t l =>
    have hset : InOrder cfg (s.setLoop l { s.loops l with quit := true }) := h.setLoop rfl
    refine hset.push hinvariant ?_ fun i hi => ?_
    · split_ifs <;> rfl
    · obtain rfl := Config.mem_quit hi
      rfl
  | destroyServer => exact hlive.1.elim
  | destroyConnection hconn hgone => exact h.free hconn hgone hinvariant

/-- In every state that a live server on Linux reaches, every connection is in
order. -/
theorem inOrder_reachable (hs : (system cfg).ReachableUnder LiveOnLinux s) : InOrder cfg s :=
  Machine.ReachableUnder.invariant (I := InOrder cfg) (fun _ h => inOrder_start h)
    (fun _ _ _ h hlive hstep => inOrder_move h hlive (move_of_system hstep)) hs

omit [DecidableEq U] in
/-- The phase that the history of a connection has led to. -/
theorem InOrder.exists_phase (h : InOrder cfg s) (c : ConnPtr L) :
    ∃ ph, s.Reports c ph ∧ ph ≠ .establishing := by
  cases hheap : s.heap c with
  | none => exact (h.orderly c).gone hheap
  | some conn =>
    cases (h.orderly c).chapter conn hheap with
    | connecting _ hphase => exact ⟨.fresh, hphase, by simp⟩
    | up _ hphase => exact ⟨.up, hphase, by simp⟩
    | down ph _ hphase hleft =>
      refine ⟨ph, hphase, ?_⟩
      rintro rfl
      cases hleft

/-- In every run of a live server on Linux, with any number of loops, what
happens to a connection is the beginning of: established, reported as up, some
messages, reported as down, closed, destroyed, freed.  A connection that has been
established has been reported as up. -/
theorem callbacks_bracketed (hs : (system cfg).ReachableUnder LiveOnLinux s) (c : ConnPtr L) :
    (∃ n, s.history c <+: fullHistory n) ∧ (.established ∈ s.history c → .up ∈ s.history c) := by
  obtain ⟨ph, hphase, hne⟩ := (inOrder_reachable hs).exists_phase c
  obtain ⟨n, hhistory⟩ := history_of_run hphase
  rw [hhistory]
  exact ⟨⟨n, ph.history_prefix n⟩, Phase.up_mem_history hne⟩

end Step

/-- The connection is accepted, established and closed by its peer. -/
theorem callbacks_bracketed_close :
    ∃ s : State Bool Unit, (system twoLoops).ReachableUnder LiveOnLinux s ∧
      s.history ⟨1, true, 7⟩ = [.established, .up, .down] ∧
      ∃ n, [.established, .up, .down] <+: fullHistory n := by
  have hrun : ∃ s, (system twoLoops).runUnder LiveOnLinux (State.make twoLoops)
      (acceptOne ++ [.callbackReturn (.loop true), .exec (.loop true) .none,
        .exec (.loop true) .none, .exec (.loop true) (.polled [(7, EPOLLIN)]),
        .exec (.loop true) .none, .exec (.loop true) (.read (.read []))]) = some s ∧
      s.history ⟨1, true, 7⟩ = [.established, .up, .down] := ⟨_, rfl, by decide⟩
  obtain ⟨s, hs, hhistory⟩ := hrun
  have hreach : (system twoLoops).ReachableUnder LiveOnLinux s :=
    Machine.ReachableUnder.runUnder _ (.init (start_make twoLoops)) hs
  exact ⟨s, hreach, hhistory, hhistory ▸ (callbacks_bracketed hreach ⟨1, true, 7⟩).1⟩

end TcpServer

end Moduo
