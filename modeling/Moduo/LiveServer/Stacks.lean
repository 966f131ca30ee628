/-
The stacks in a live server.

What is pushed on the stack of a loop is in order: callbacks of events lie above
the instructions that go on with the round, and a `send` or `shutdown` that has
found its connection open lies on top.
-/
import Moduo.LiveServer.Stages
import Moduo.ServerLoops

namespace Moduo

namespace TcpServer

variable {L U : Type*} {cfg : Config L U} {s s' : State L U} {l : L}

/-! ### Order -/

theorem pairwise_of_calm {is : List (Instr L)}
    (h : ∀ i ∈ is, i.late = false ∧ i.urgent? = none) : is.Pairwise Instr.Over := by
  refine List.pairwise_of_forall_mem_list fun i hi j hj => ⟨fun hlate => ?_, (h j hj).2⟩
  rw [(h i hi).1] at hlate
  exact absurd hlate (by simp)

theorem pairwise_of_idle {is : List (Instr L)}
    (h : ∀ i ∈ is, i.dispatches? = none ∧ i.urgent? = none) : is.Pairwise Instr.Over :=
  List.pairwise_of_forall_mem_list fun _ _ j hj => ⟨fun _ => (h j hj).1, (h j hj).2⟩

/-- An instruction that concerns no open channel. -/
theorem Tame.of_idle {i : Instr L} (hdispatches : i.dispatches? = none)
    (hurgent : i.urgent? = none) (hdisconnect : ∀ c, i ≠ .disconnect c)
    (hacceptor : i ≠ .removeAcceptor) (hqueue : ∀ m f, i ≠ .queueInLoop m f) : Tame s l i where
  target c hc := absurd (hdispatches.symm.trans hc) (by simp)
  urgent c hc := absurd (hurgent.symm.trans hc) (by simp)
  disconnect := hdisconnect
  removeAcceptor := hacceptor
  queue m f h := absurd h (hqueue m f)

theorem Tame.of_queueInLoop {m : L} {f : Functor L} (hf : f.raw? = none) :
    Tame s l (.queueInLoop m f) where
  target c hc := absurd hc (by simp [Instr.dispatches?])
  urgent c hc := absurd hc (by simp [Instr.urgent?])
  disconnect := by simp
  removeAcceptor := by simp
  queue m' f' h := by
    obtain ⟨-, rfl⟩ := Instr.queueInLoop.inj h
    exact hf

/-- A functor that is not bound to a raw pointer may run. -/
theorem Tame.of_functor {f : Functor L} (hf : f.raw? = none) : Tame s l (.functor f) :=
  .of_idle rfl hf (by simp) (by simp) (by simp)

theorem tame_runInLoop (t : Thread L U) (m : L) {f : Functor L} (hf : f.raw? = none) :
    ∀ i ∈ cfg.runInLoop t m f, Tame s l i := by
  intro i hi
  rcases Config.mem_runInLoop hi with rfl | rfl
  · exact .of_functor hf
  · exact .of_queueInLoop hf

theorem calm_runInLoop (t : Thread L U) (m : L) {f : Functor L} (hf : f.raw? = none)
    (hlate : ∀ c, f ≠ .connectionDestroyed c) :
    ∀ i ∈ cfg.runInLoop t m f, i.late = false ∧ i.urgent? = none := by
  intro i hi
  rcases Config.mem_runInLoop hi with rfl | rfl
  · refine ⟨?_, hf⟩
    cases f <;> simp_all [Instr.late]
  · exact ⟨rfl, rfl⟩

/-- What a step of loop `l` pushes in place of `i`. -/
structure Pushes (s' : State L U) (l : L) (i : Instr L) (is : List (Instr L)) : Prop where
  tame : ∀ j ∈ is, Tame s' l j
  sorted : is.Pairwise Instr.Over
  late : ∀ j ∈ is, j.late = true → i.late = true

theorem Pushes.nil {i : Instr L} : Pushes s' l i [] :=
  ⟨fun _ hj => absurd hj List.not_mem_nil, List.Pairwise.nil,
    fun _ hj => absurd hj List.not_mem_nil⟩

theorem Pushes.of_calm {i : Instr L} {is : List (Instr L)} (htame : ∀ j ∈ is, Tame s' l j)
    (hcalm : ∀ j ∈ is, j.late = false ∧ j.urgent? = none) : Pushes s' l i is where
  tame := htame
  sorted := pairwise_of_calm hcalm
  late j hj hlate := by
    rw [(hcalm j hj).1] at hlate
    exact absurd hlate (by simp)

/-- One idle instruction takes the place of another. -/
theorem Pushes.singleton {i j : Instr L} (htame : Tame s' l j)
    (hlate : j.late = true → i.late = true) : Pushes s' l i [j] where
  tame k hk := by
    obtain rfl := List.mem_singleton.mp hk
    exact htame
  sorted := List.pairwise_singleton _ _
  late k hk h := by
    obtain rfl := List.mem_singleton.mp hk
    exact hlate h

theorem pushes_effects {c : ConnPtr L} {i : Instr L} (tr : List Effect) :
    Pushes s' l i (tr.flatMap (effectInstrs c)) := by
  refine .of_calm (fun j hj => ?_) fun j hj => ?_
  · rcases mem_effects hj with ⟨cb, rfl⟩ | rfl | rfl
    · exact .of_queueInLoop rfl
    · exact .of_idle rfl rfl (by simp) (by simp) (by simp)
    · exact .of_idle rfl rfl (by simp) (by simp) (by simp)
  · rcases mem_effects hj with ⟨cb, rfl⟩ | rfl | rfl
    all_goals exact ⟨rfl, rfl⟩

/-- The callbacks of an event find the channel as the event did. -/
theorem pushes_eventCallbacks {c : ConnPtr L} {i : Instr L}
    (htarget : ∃ conn, s.heap c = some conn ∧ conn.channel.index = .kAdded)
    (revents : EventMask) (tied : Bool) :
    Pushes s l i (eventCallbacks c revents ++ if tied then [.unguard c] else []) := by
  have hdispatch : ∀ j : Instr L, j.dispatches? = some c → j.urgent? = none →
      (∀ d, j ≠ .disconnect d) → j ≠ .removeAcceptor → (∀ m f, j ≠ .queueInLoop m f) →
      Tame s l j := by
    intro j hc hu hd ha hq
    refine ⟨fun d hd => ?_, fun d hd => absurd (hu.symm.trans hd) (by simp), hd, ha,
      fun m f h => absurd h (hq m f)⟩
    obtain rfl := Option.some.inj (hc.symm.trans hd)
    exact htarget
  refine .of_calm (fun j hj => ?_) fun j hj => ?_
  · rcases mem_eventCallbacks hj with rfl | rfl | rfl | rfl | rfl
    · exact hdispatch _ rfl rfl (by simp) (by simp) (by simp)
    · exact hdispatch _ rfl rfl (by simp) (by simp) (by simp)
    · exact hdispatch _ rfl rfl (by simp) (by simp) (by simp)
    · exact hdispatch _ rfl rfl (by simp) (by simp) (by simp)
    · exact .of_idle rfl rfl (by simp) (by simp) (by simp)
  · rcases mem_eventCallbacks hj with rfl | rfl | rfl | rfl | rfl <;> exact ⟨rfl, rfl⟩

section Step

variable [DecidableEq L] [Fintype L]

/-- `poll` reports pointers that the loop knows. -/
theorem Invariant.pushes_poll (h : Invariant cfg s) (ready : List (ℕ × EventMask)) :
    Pushes s l (.poll l) (activeChannels (s.pollers l) ready ++ [.beginPendingFunctors l]) := by
  have hactive : ∀ j ∈ activeChannels (s.pollers l) ready, ∃ p revents,
      j = .handleEvent p revents ∧ ∃ fd, p.Known cfg s l fd := by
    intro j hj
    obtain ⟨b, -, x, hx, rfl⟩ := mem_activeChannels hj
    exact ⟨x.2, b.2, rfl, b.1, h.wiring.epoll l b.1 x hx⟩
  refine ⟨fun j hj => ?_, ?_, fun _ _ _ => rfl⟩
  · rcases List.mem_append.mp hj with hj | hj
    · obtain ⟨p, revents, rfl, fd, hknown⟩ := hactive j hj
      refine ⟨fun c hc => ?_, fun c hc => absurd hc (by simp [Instr.urgent?]), by simp, by simp,
        by simp⟩
      cases p with
      | wakeup m => exact absurd hc (by simp [Instr.dispatches?])
      | acceptor => exact absurd hc (by simp [Instr.dispatches?])
      | conn d =>
        obtain rfl := Option.some.inj hc
        exact hknown.2.2
    · obtain rfl := List.mem_singleton.mp hj
      exact .of_idle rfl rfl (by simp) (by simp) (by simp)
  · refine List.pairwise_append.mpr ⟨?_, List.pairwise_singleton _ _, fun j hj k hk => ?_⟩
    · refine pairwise_of_calm fun j hj => ?_
      obtain ⟨p, revents, rfl, -⟩ := hactive j hj
      exact ⟨rfl, rfl⟩
    · obtain rfl := List.mem_singleton.mp hk
      exact ⟨fun _ => rfl, rfl⟩

/-- The batch of functors: none of them dispatches an event. -/
theorem Invariant.pushes_swap (h : Invariant cfg s) (s' : State L U) :
    Pushes s' l (.swap l)
      ((s.loops l).pendingFunctors.map .functor ++ [.endPendingFunctors l]) := by
  have hidle : ∀ j ∈ (s.loops l).pendingFunctors.map Instr.functor ++ [.endPendingFunctors l],
      Tame s' l j ∧ j.dispatches? = none ∧ j.urgent? = none := by
    intro j hj
    rcases List.mem_append.mp hj with hj | hj
    · obtain ⟨f, hf, rfl⟩ := List.mem_map.mp hj
      have hraw := h.work.queue l f hf
      exact ⟨.of_functor hraw, rfl, hraw⟩
    · obtain rfl := List.mem_singleton.mp hj
      exact ⟨.of_idle rfl rfl (by simp) (by simp) (by simp), rfl, rfl⟩
  exact ⟨fun j hj => (hidle j hj).1, pairwise_of_idle fun j hj => (hidle j hj).2,
    fun _ _ _ => rfl⟩

/-! ### One instruction -/

variable {i : Instr L} {o : Outcome} {is : List (Instr L)}

/-- An instruction of loop `l` changes connections of loop `l` only, and before
the end of the round it takes no channel out of the poller. -/
theorem Invariant.runs_heap (h : Invariant cfg s) (hi : i ∈ s.stack (.loop l))
    (hruns : Runs cfg (.loop l) s i o s' is) {d : ConnPtr L} {conn : TcpConnection}
    (hd : s.heap d = some conn) :
    ∃ conn', s'.heap d = some conn' ∧ (d.loop ≠ l → conn' = conn) ∧
      (i.late = false → conn.channel.index = .kAdded → conn'.channel.index = .kAdded) := by
  cases hruns with
  | @calls c conn₀ _ _ _ f hconn hcalls =>
    obtain ⟨hloop, hshift, -⟩ := h.shift hi hconn hcalls
    by_cases hdc : d = c
    · subst hdc
      refine ⟨_, Function.update_self _ _ _, fun hne => absurd hloop hne, fun hlate _ => ?_⟩
      cases hshift with
      | establishes _ _ _ hchannel => exact hchannel.index
      | works _ _ _ hchannel => exact hchannel.index
      | idles _ _ _ _ hchannel => exact hchannel.index
      | closes _ _ _ hchannel => exact hchannel.index
      | removes hi => exact absurd hlate (by simp [hi, Instr.late])
    · exact ⟨conn, (Function.update_of_ne hdc _ _).trans hd, fun _ => rfl, fun _ h => h⟩
  | @setDisconnecting c conn₀ _ hconn =>
    by_cases hdc : d = c
    · subst hdc
      obtain rfl := Option.some.inj (hconn.symm.trans hd)
      have hloop := ((h.work.tame l _ hi).urgent d rfl).1
      exact ⟨_, Function.update_self _ _ _, fun hne => absurd hloop hne, fun _ h => h⟩
    · exact ⟨conn, (Function.update_of_ne hdc _ _).trans hd, fun _ => rfl, fun _ h => h⟩
  | @newConnection _ connfd _ =>
    have hdc : d ≠ ⟨s.nextConnId, (cfg.getNextLoop s.next).1, connfd⟩ := by
      rintro rfl
      exact absurd (h.ledger.id_lt _ conn hd) (Nat.lt_irrefl _)
    exact ⟨conn, (Function.update_of_ne hdc _ _).trans hd, fun _ => rfl, fun _ h => h⟩
  | _ => exact ⟨conn, hd, fun _ => rfl, fun _ h => h⟩

theorem Invariant.runs_pushes (h : Invariant cfg s) (hi : i ∈ s.stack (.loop l))
    (hruns : Runs cfg (.loop l) s i o s' is) : Pushes s' l i is := by
  have hplaced := h.confined.stack _ i hi
  have hthread : ∀ m, i.home? cfg = some m → m = l := fun m hm =>
    (Thread.loop.inj (hplaced.thread hm)).symm
  cases hruns with
  | calls => exact pushes_effects _
  | testQuit => exact .singleton (.of_idle rfl rfl (by simp) (by simp) (by simp)) fun _ => rfl
  | leave => exact .nil
  | @poll m ready _ _ =>
    obtain rfl := hthread m rfl
    exact h.pushes_poll ready
  | beginPendingFunctors =>
    exact .singleton (.of_idle rfl rfl (by simp) (by simp) (by simp)) fun _ => rfl
  | @swap m =>
    obtain rfl := hthread m rfl
    exact h.pushes_swap _
  | endPendingFunctors =>
    exact .singleton (.of_idle rfl rfl (by simp) (by simp) (by simp)) fun _ => rfl
  | listen => exact .nil
  | @destroyFound c conn _ hconn hstate =>
    -- a connection on its way to `connectionDestroyed` is down
    have hpos : 0 < s.closing c :=
      (task_of_mem hi rfl : 0 < s.tasks .remove c).trans_le (tasks_le_closing (by simp))
    have hdown := (((h.life c).stage conn hconn).of_closing hpos).1
    exact absurd (hstate.symm.trans hdown) (by simp)
  | destroySkips => exact .singleton (.of_idle rfl rfl (by simp) (by simp) (by simp)) fun _ => rfl
  | removeConnectionInLoop => exact .singleton (.of_queueInLoop rfl) fun h => h
  | notice => exact .singleton (.of_idle rfl rfl (by simp) (by simp) (by simp)) fun h => h
  | queueInLoop =>
    exact .singleton (.of_idle rfl rfl (by simp) (by simp) (by simp)) fun h => h
  | testWakeup =>
    exact .singleton (.of_idle rfl rfl (by simp) (by simp) (by simp)) fun h => h
  | noWakeup => exact .nil
  | wakeup => exact .nil
  | handleWakeup => exact .nil
  | ignored => exact .nil
  | newConnection =>
    exact .of_calm (tame_runInLoop _ _ rfl) (calm_runInLoop _ _ rfl (by simp))
  | handleEvent => exact pushes_eventCallbacks ((h.work.tame l _ hi).target _ rfl) _ _
  | unguard => exact .nil
  | @setDisconnecting c conn _ hconn =>
    -- `shutdown` was called on the loop of the connection, so its functor runs next
    obtain ⟨rfl, -⟩ := (h.work.tame l _ hi).urgent c rfl
    have hinline : cfg.runInLoop (.loop c.loop) c.loop (.shutdownInLoop c) =
        [.functor (.shutdownInLoop c)] := by
      simp [Config.runInLoop, Config.isInLoopThread]
    rw [hinline]
    refine .singleton ⟨fun d hd => absurd hd (by simp [Instr.dispatches?]), fun d hd => ?_,
      by simp, by simp, by simp⟩ fun h => h
    obtain rfl := Option.some.inj hd
    exact ⟨rfl, _, Function.update_self _ _ _, .inr rfl⟩
  | removeConnection =>
    exact .of_calm (tame_runInLoop _ _ rfl) (calm_runInLoop _ _ rfl (by simp))
  | @quit m =>
    split_ifs
    · exact .nil
    · exact .singleton (.of_idle rfl rfl (by simp) (by simp) (by simp)) fun h => h
  | join => exact .nil
  | removeAcceptor => exact .nil

omit [Fintype L] in
/-- No raw pointer gets into a queue. -/
theorem Work.runs_queue (h : Work cfg s) {t : Thread L U}
    (hi : ∀ m f, i = .queueInLoop m f → f.raw? = none) (hruns : Runs cfg t s i o s' is) (m : L) :
    ∀ f ∈ (s'.loops m).pendingFunctors, f.raw? = none := by
  intro f hf
  rcases mem_pending_runs hruns hf with hold | rfl
  · exact h.queue m f hold
  · exact hi m f rfl

/-- What is left on the stacks may stay there. -/
theorem Invariant.work_runs [DecidableEq U] (h : Invariant cfg s) {rest : List (Instr L)}
    (hstack : s.stack (.loop l) = i :: rest) (hruns : Runs cfg (.loop l) s i o s' is) :
    Work cfg (s'.setStack (.loop l) (is ++ rest)) := by
  have hi : i ∈ s.stack (.loop l) := hstack ▸ List.mem_cons_self
  have hpushes := h.runs_pushes hi hruns
  have hsorted := h.work.sorted l
  rw [hstack] at hsorted
  obtain ⟨hover, hrest⟩ := List.pairwise_cons.mp hsorted
  have hself : (s'.setStack (.loop l) (is ++ rest)).stack (.loop l) = is ++ rest :=
    Function.update_self _ _ _
  have hother : ∀ t, t ≠ .loop l → (s'.setStack (.loop l) (is ++ rest)).stack t = s.stack t := by
    intro t ht
    rw [← stack_runs hruns]
    exact Function.update_of_ne ht _ _
  constructor
  · intro u j hj
    rw [hother _ (by simp)] at hj
    exact h.work.user u j hj
  · intro m j hj
    by_cases hm : m = l
    · subst hm
      rw [hself] at hj
      rcases List.mem_append.mp hj with hj | hj
      · have htame := hpushes.tame j hj
        exact ⟨htame.target, htame.urgent, htame.disconnect, htame.removeAcceptor, htame.queue⟩
      · -- below `i`: no raw pointer, and no event if `i` is late
        obtain ⟨hlate, hurgent⟩ := hover j hj
        have htame := h.work.tame m j (hstack ▸ List.mem_cons_of_mem i hj)
        refine ⟨fun d hd => ?_, fun d hd => absurd (hurgent.symm.trans hd) (by simp),
          htame.disconnect, htame.removeAcceptor, htame.queue⟩
        have hearly : i.late = false := by
          by_contra hne
          have := hlate (by simpa using hne)
          exact absurd (this.symm.trans hd) (by simp)
        obtain ⟨conn, hconn, hindex⟩ := htame.target d hd
        obtain ⟨conn', hconn', -, hkeep⟩ := h.runs_heap hi hruns hconn
        exact ⟨conn', hconn', hkeep hearly hindex⟩
    · -- on another loop: its connections are not touched
      rw [hother _ (by simp [hm])] at hj
      have htame := h.work.tame m j hj
      refine ⟨fun d hd => ?_, fun d hd => ?_, htame.disconnect, htame.removeAcceptor, htame.queue⟩
      · obtain ⟨conn, hconn, hindex⟩ := htame.target d hd
        have hloop : d.loop = m := (Thread.loop.inj
          ((h.confined.stack _ j hj).thread (Instr.home_of_dispatches hd))).symm
        obtain ⟨conn', hconn', hsame, -⟩ := h.runs_heap hi hruns hconn
        rw [hsame (hloop ▸ hm)] at hconn'
        exact ⟨conn, hconn', hindex⟩
      · obtain ⟨hloop, conn, hconn, hopen⟩ := htame.urgent d hd
        obtain ⟨conn', hconn', hsame, -⟩ := h.runs_heap hi hruns hconn
        rw [hsame (hloop ▸ hm)] at hconn'
        exact ⟨hloop, conn, hconn', hopen⟩
  · intro m
    by_cases hm : m = l
    · subst hm
      rw [hself]
      refine List.pairwise_append.mpr ⟨hpushes.sorted, hrest, fun a ha b hb => ?_⟩
      exact ⟨fun hlate => (hover b hb).1 (hpushes.late a ha hlate), (hover b hb).2⟩
    · rw [hother _ (by simp [hm])]
      exact h.work.sorted m
  · intro m f hf
    exact h.work.runs_queue (h.work.tame l i hi).queue hruns m f hf

end Step

end TcpServer

end Moduo
