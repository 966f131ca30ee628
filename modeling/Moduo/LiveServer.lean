/-
A live server: no stale channel and no fatal `epoll_ctl`.

* `invariant_reachable` — the invariant holds in every state that a live server
  can reach;
* `no_stale_channel` — so the pollers and the batches of events point to
  channels that exist, no entry of a poller is overwritten, every `ADD` and
  `MOD` succeeds, and a connection goes after its `connectionDestroyed`.
-/
import Moduo.LiveServer.Stacks

namespace Moduo

namespace TcpServer

variable {L U : Type*} {cfg : Config L U} {s s' : State L U} {l : L}

section Step

variable [DecidableEq L] [Fintype L]

theorem invariant_start (h : Start cfg s) : Invariant cfg s := by
  have hempty : ∀ p, places s p = [] := by
    intro p
    rcases p with m | m
    · exact h.stack _
    · show (s.loops m).pendingFunctors.map Instr.functor = []
      rw [h.loops m]
      rfl
  have htasks : ∀ k c, s.tasks k c = 0 := fun k c =>
    tally_eq_zero fun p i hi => absurd (hempty p ▸ hi) List.not_mem_nil
  have habsent : ∀ c, (s.heap c).isSome → False := by
    intro c hc
    rw [h.heap] at hc
    exact absurd hc (by simp)
  have hsome : ∀ c conn, s.heap c ≠ some conn := by
    intro c conn hc
    rw [h.heap] at hc
    exact absurd hc (by simp)
  refine ⟨confined_start h, ?_, ?_, fun c => ?_, ?_⟩
  · refine ⟨?_, fun c conn hc => absurd hc (hsome c conn), fun c _ hc => (habsent c hc).elim,
      fun c _ hc => (habsent c hc).elim, fun c conn hc => absurd hc (hsome c conn),
      fun c hc => (habsent c hc).elim, fun c hc => (habsent c hc).elim,
      fun c hc => (habsent c hc).elim, h.wakeupFd_isOpen, h.acceptFd_isOpen, ?_⟩
    · rw [h.nextConnId]
      decide
    · rw [h.connections]
      exact fun item hitem => absurd hitem List.not_mem_nil
  · refine ⟨fun m fd p hp => ?_, fun m fd x hx => ?_, ?_, ?_, fun m => ?_⟩
    · rw [h.pollers m] at hp
      by_cases hfd : fd = cfg.wakeupFd m
      · subst hfd
        simp only [Function.update_self, Option.some.injEq] at hp
        exact hp ▸ ⟨rfl, rfl⟩
      · simp only [Function.update_of_ne hfd, reduceCtorEq] at hp
    · rw [h.pollers m] at hx
      by_cases hfd : fd = cfg.wakeupFd m
      · subst hfd
        simp only [Function.update_self, Option.some.injEq] at hx
        exact hx ▸ ⟨rfl, rfl⟩
      · simp only [Function.update_of_ne hfd, reduceCtorEq] at hx
    · rw [h.acceptChannel]
      rfl
    · rw [h.acceptChannel, h.pollers]
      simp [Channel.make, Function.update_of_ne (cfg.acceptFd_ne cfg.base).symm]
    · rw [h.pollers m]
  · refine ⟨fun _ => ⟨htasks _ c, ?_⟩, fun conn hc => absurd hc (hsome c conn)⟩
    rw [State.closing, htasks, htasks, htasks]
  · refine ⟨fun u i hi => ?_, fun m i hi => ?_, fun m => ?_, fun m f hf => ?_⟩
    · exact absurd (h.stack _ ▸ hi) List.not_mem_nil
    · exact absurd (h.stack _ ▸ hi) List.not_mem_nil
    · rw [h.stack]
      exact List.Pairwise.nil
    · rw [h.loops m] at hf
      exact absurd hf List.not_mem_nil

/-! ### Threads without a loop -/

omit [Fintype L] in
theorem plain_runs {t : Thread L U} {i : Instr L} {o : Outcome} {is : List (Instr L)}
    (hi : i.Plain cfg) (hruns : Runs cfg t s i o s' is) :
    Undisturbed s s' ∧ ∀ j ∈ is, j.Plain cfg := by
  rcases hi with rfl | ⟨m, rfl⟩ | ⟨m, rfl⟩
  · cases hruns with
    | calls _ hcalls => exact nomatch hcalls
    | queueInLoop =>
      refine ⟨⟨rfl, rfl, rfl, rfl, rfl, rfl, fun _ h => h⟩, fun j hj => ?_⟩
      exact .inr (.inl ⟨_, List.mem_singleton.mp hj⟩)
  · cases hruns with
    | calls _ hcalls => exact nomatch hcalls
    | testWakeup =>
      refine ⟨⟨rfl, rfl, rfl, rfl, rfl, rfl, fun _ h => h⟩, fun j hj => ?_⟩
      exact .inr (.inr ⟨_, List.mem_singleton.mp hj⟩)
    | noWakeup =>
      exact ⟨⟨rfl, rfl, rfl, rfl, rfl, rfl, fun _ h => h⟩, fun j hj => absurd hj List.not_mem_nil⟩
  · cases hruns with
    | calls _ hcalls => exact nomatch hcalls
    | wakeup =>
      exact ⟨⟨rfl, rfl, rfl, rfl, rfl, rfl, fun _ h => h⟩, fun j hj => absurd hj List.not_mem_nil⟩

/-- A step that only moves work, on whatever thread. -/
theorem Invariant.undisturbed (h : Invariant cfg s) (hconfined : Confined cfg s')
    (hs : Undisturbed s s') (htasks : ∀ k c, s'.tasks k c = s.tasks k c) (hwork : Work cfg s') :
    Invariant cfg s' where
  confined := hconfined
  ledger := h.ledger.undisturbed hs
  wiring := h.wiring.undisturbed hs
  life c := by
    refine (h.life c).bystander (hs.bystander (htasks _ c) ?_)
    rw [State.closing, htasks, htasks, htasks, State.closing]
  work := hwork

variable [DecidableEq U]

theorem Invariant.exec (h : Invariant cfg s) {t : Thread L U} {i : Instr L} {o : Outcome}
    {rest is : List (Instr L)} (hstack : s.stack t = i :: rest)
    (hlive : Live s (.exec t o)) (hruns : Runs cfg t s i o s' is) :
    Invariant cfg (s'.setStack t (is ++ rest)) := by
  have hconfined : Confined cfg (s'.setStack t (is ++ rest)) :=
    confined_move h.confined (.exec hstack hruns)
  have hi : i ∈ s.stack t := hstack ▸ List.mem_cons_self
  cases t with
  | loop l =>
    have hset : Undisturbed s' (s'.setStack (.loop l) (is ++ rest)) :=
      ⟨rfl, rfl, rfl, rfl, rfl, rfl, fun _ hx => hx⟩
    exact ⟨hconfined, (h.ledger_runs hi hlive hruns).undisturbed hset,
      (h.wiring_runs hi hruns).undisturbed hset, h.life_runs hstack hruns,
      h.work_runs hstack hruns⟩
  | user u =>
    have hplain := h.work.user u i hi
    obtain ⟨hs, his⟩ := plain_runs hplain hruns
    have hset : Undisturbed s (s'.setStack (.user u) (is ++ rest)) :=
      ⟨hs.heap, hs.pollers, hs.acceptChannel, hs.connections, hs.nextConnId, hs.isOpen, hs.log⟩
    have hother : ∀ t, t ≠ .user u →
        (s'.setStack (.user u) (is ++ rest)).stack t = s.stack t := by
      intro t ht
      rw [← stack_runs hruns]
      exact State.setStack_of_ne ht _
    refine h.undisturbed hconfined hset (fun k c => tasks_user hruns hplain) ⟨?_, ?_, ?_, ?_⟩
    · intro v j hj
      by_cases hv : v = u
      · subst hv
        rw [State.setStack_self] at hj
        rcases List.mem_append.mp hj with hj | hj
        · exact his j hj
        · exact h.work.user v j (hstack ▸ List.mem_cons_of_mem i hj)
      · rw [hother _ (by simp [hv])] at hj
        exact h.work.user v j hj
    · intro m j hj
      rw [hother _ (by simp)] at hj
      exact (h.work.tame m j hj).undisturbed hset
    · intro m
      rw [hother _ (by simp)]
      exact h.work.sorted m
    · intro m f hf
      refine h.work.runs_queue (fun n g hq => ?_) hruns m f hf
      rcases hplain with rfl | ⟨n, rfl⟩ | ⟨n, rfl⟩
      · obtain ⟨-, rfl⟩ := Instr.queueInLoop.inj hq
        rfl
      · exact absurd hq (by simp)
      · exact absurd hq (by simp)

/-! ### Calls from user code -/

omit [DecidableEq L] [Fintype L] [DecidableEq U] in
/-- User code has nothing urgent below it. -/
theorem Work.not_urgent (h : Work cfg s) (huser : s.InUserCode (.loop l)) :
    ∀ i ∈ s.stack (.loop l), i.urgent? = none := by
  intro i hi
  rcases huser with hempty | htop
  · rw [hempty] at hi
    exact absurd hi List.not_mem_nil
  · obtain ⟨rest, hstack⟩ := List.head?_eq_some_iff.mp htop
    have hsorted := h.sorted l
    rw [hstack] at hi hsorted
    rcases List.mem_cons.mp hi with rfl | hi
    · rfl
    · exact ((List.pairwise_cons.mp hsorted).1 i hi).2

/-- A loop thread calls something. -/
theorem Invariant.push_loop (h : Invariant cfg s) {is : List (Instr L)}
    (huser : s.InUserCode (.loop l)) (hplaced : ∀ i ∈ is, Placed cfg (.loop l) i)
    (htask : is.filterMap Instr.task? = []) (htame : ∀ i ∈ is, Tame s l i)
    (hsorted : is.Pairwise Instr.Over)
    (hlate : s.stack (.loop l) = [] ∨ ∀ i ∈ is, i.late = false) :
    Invariant cfg (s.push (.loop l) is) := by
  have hset : Undisturbed s (s.push (.loop l) is) :=
    ⟨rfl, rfl, rfl, rfl, rfl, rfl, fun _ hx => hx⟩
  have hother : ∀ t, t ≠ .loop l → (s.push (.loop l) is).stack t = s.stack t :=
    fun t ht => State.setStack_of_ne ht _
  have hself : (s.push (.loop l) is).stack (.loop l) = is ++ s.stack (.loop l) :=
    State.setStack_self _ _ _
  refine h.undisturbed (h.confined.push hplaced) hset (fun k c => ?_) ⟨?_, ?_, ?_, h.work.queue⟩
  · rw [State.tasks, tokens_push, weight_duty, htask]
    rfl
  · intro u i hi
    rw [hother _ (by simp)] at hi
    exact h.work.user u i hi
  · intro m i hi
    by_cases hm : m = l
    · subst hm
      rw [hself] at hi
      rcases List.mem_append.mp hi with hi | hi
      · exact (htame i hi).undisturbed hset
      · exact (h.work.tame m i hi).undisturbed hset
    · rw [hother _ (by simp [hm])] at hi
      exact (h.work.tame m i hi).undisturbed hset
  · intro m
    by_cases hm : m = l
    · subst hm
      rw [hself]
      refine List.pairwise_append.mpr ⟨hsorted, h.work.sorted m, fun i hi j hj => ?_⟩
      refine ⟨fun hi' => ?_, h.work.not_urgent huser j hj⟩
      rcases hlate with hempty | hlate
      · rw [hempty] at hj
        exact absurd hj List.not_mem_nil
      · rw [hlate i hi] at hi'
        exact absurd hi' (by simp)
    · rw [hother _ (by simp [hm])]
      exact h.work.sorted m

/-- Another thread calls something. -/
theorem Invariant.push_user (h : Invariant cfg s) {u : U} {is : List (Instr L)}
    (hplaced : ∀ i ∈ is, Placed cfg (.user u) i) (hplain : ∀ i ∈ is, i.Plain cfg) :
    Invariant cfg (s.push (.user u) is) := by
  have hset : Undisturbed s (s.push (.user u) is) :=
    ⟨rfl, rfl, rfl, rfl, rfl, rfl, fun _ hx => hx⟩
  have hother : ∀ t, t ≠ .user u → (s.push (.user u) is).stack t = s.stack t :=
    fun t ht => State.setStack_of_ne ht _
  refine h.undisturbed (h.confined.push hplaced) hset (fun k c => tokens_setStack_user u _)
    ⟨?_, ?_, ?_, h.work.queue⟩
  · intro v i hi
    by_cases hv : v = u
    · subst hv
      rw [State.push, State.setStack_self] at hi
      rcases List.mem_append.mp hi with hi | hi
      · exact hplain i hi
      · exact h.work.user v i hi
    · rw [hother _ (by simp [hv])] at hi
      exact h.work.user v i hi
  · intro m i hi
    rw [hother _ (by simp)] at hi
    exact (h.work.tame m i hi).undisturbed hset
  · intro m
    rw [hother _ (by simp)]
    exact h.work.sorted m

omit [DecidableEq U] in
/-- A flag of a loop changes. -/
theorem Invariant.setLoop (h : Invariant cfg s) {loop : EventLoop (Functor L)}
    (hq : loop.pendingFunctors = (s.loops l).pendingFunctors) :
    Invariant cfg (s.setLoop l loop) := by
  have hset : Undisturbed s (s.setLoop l loop) :=
    ⟨rfl, rfl, rfl, rfl, rfl, rfl, fun _ hx => hx⟩
  refine h.undisturbed (h.confined.setLoop hq) hset (fun k c => tokens_setLoop_same hq)
    ⟨h.work.user, ?_, h.work.sorted, fun m f hf => ?_⟩
  · exact fun m i hi => (h.work.tame m i hi).undisturbed hset
  · rw [pending_setLoop_same hq m] at hf
    exact h.work.queue m f hf

/-- A user callback returns. -/
theorem Invariant.callbackReturn (h : Invariant cfg s) {t : Thread L U} {rest : List (Instr L)}
    (hstack : s.stack t = .user :: rest) : Invariant cfg (s.setStack t rest) := by
  have hset : Undisturbed s (s.setStack t rest) := ⟨rfl, rfl, rfl, rfl, rfl, rfl, fun _ hx => hx⟩
  have hsub : ∀ t', ((s.setStack t rest).stack t').Sublist (s.stack t') := by
    intro t'
    by_cases ht : t' = t
    · subst ht
      rw [State.setStack_self, hstack]
      exact List.sublist_cons_self _ _
    · rw [State.setStack_of_ne ht]
  refine h.undisturbed (confined_move h.confined (.callbackReturn hstack)) hset (fun k c => ?_)
    ⟨fun u i hi => h.work.user u i ((hsub _).subset hi),
      fun m i hi => (h.work.tame m i ((hsub _).subset hi)).undisturbed hset,
      fun m => (h.work.sorted m).sublist (hsub _), h.work.queue⟩
  cases t with
  | loop l =>
    have hcount := tokens_setStack (w := duty k c) (s := s) l rest
    rw [hstack, weight_cons] at hcount
    have huser : duty k c .user = 0 := rfl
    rw [State.tasks, State.tasks]
    omega
  | user u => exact tokens_setStack_user u _

/-! ### The end of a connection -/

omit [DecidableEq U] in
/-- A connection that nothing refers to has been removed. -/
theorem Invariant.removed (h : Invariant cfg s) {c : ConnPtr L} {conn : TcpConnection}
    (hconn : s.heap c = some conn) (hgone : ¬ s.Referenced c) :
    s.tasks .establish c = 0 ∧ s.closing c = 0 ∧ conn.state = .kDisconnected ∧
      (s.endpoint c conn).Unregistered ∧ .returned (.loop c.loop) c ∈ s.log := by
  have hnone : ∀ k, s.tasks k c = 0 := by
    intro k
    by_contra hne
    exact hgone (referenced_of_tasks (Nat.pos_of_ne_zero hne))
  have hholds : ¬ s.Holds c := fun hheld => hgone (.inl hheld)
  have hclosing : s.closing c = 0 := by
    rw [State.closing, hnone, hnone, hnone]
  cases (h.life c).stage conn hconn with
  | connecting _ _ hheld => exact absurd hheld hholds
  | up _ _ hheld => exact absurd hheld hholds
  | silenced _ _ _ hpos => omega
  | removed hstate hchannel hestablish hreturned =>
    exact ⟨hestablish, hclosing, hstate, hchannel, hreturned⟩

omit [DecidableEq U] in
theorem Invariant.free (h : Invariant cfg s) {c : ConnPtr L} {conn : TcpConnection}
    (hconn : s.heap c = some conn) (hgone : ¬ s.Referenced c)
    (hconfined : Confined cfg (s.free c)) : Invariant cfg (s.free c) := by
  obtain ⟨hestablish, hclosing, hstate, hun, -⟩ := h.removed hconn hgone
  have htasks : ∀ k d, (s.free c).tasks k d = s.tasks k d := fun k d => tokens_congr rfl
  have hsame : ∀ d, (s.free c).closing d = s.closing d := by
    intro d
    rw [State.closing, htasks, htasks, htasks, State.closing]
  have hother : ∀ d, d ≠ c → (s.free c).heap d = s.heap d :=
    fun d hd => Function.update_of_ne hd _ _
  refine ⟨hconfined, h.ledger.free hconn fun hheld => hgone (.inl hheld),
    h.wiring.free h.ledger hconn hun, fun d => ?_, h.work.user, fun m i hi => ?_, h.work.sorted,
    h.work.queue⟩
  · by_cases hd : d = c
    · subst hd
      have hself : (s.free d).heap d = none := Function.update_self _ _ _
      refine ⟨fun _ => ⟨?_, ?_⟩, fun conn' hconn' => absurd (hself.symm.trans hconn') (by simp)⟩
      · rw [htasks, hestablish]
      · rw [hsame, hclosing]
    · refine (h.life d).bystander ⟨hother d hd, fun _ _ => rfl, fun conn' hconn' => ?_,
        fun _ _ _ hheld => hheld, htasks _ d, hsame d, fun x hx => List.mem_append_left _ hx⟩
      have hfd : conn'.channel.fd ≠ c.fd := by
        rw [h.ledger.fd_eq d conn' hconn']
        exact fun heq => hd
          (h.ledger.fd_injective d c (by rw [hconn']; rfl) (by rw [hconn]; rfl) heq)
      exact Function.update_of_ne hfd _ _
  · have htame := h.work.tame m i hi
    refine ⟨fun d hd => ?_, fun d hd => ?_, htame.disconnect, htame.removeAcceptor, htame.queue⟩
    · obtain ⟨conn', hconn', hindex⟩ := htame.target d hd
      have hne : d ≠ c := by
        rintro rfl
        obtain rfl := Option.some.inj (hconn.symm.trans hconn')
        have hnew : conn.channel.index = .kNew := hun.index
        exact absurd (hindex.symm.trans hnew) (by simp)
      exact ⟨conn', (hother d hne).trans hconn', hindex⟩
    · obtain ⟨hloop, conn', hconn', hopen⟩ := htame.urgent d hd
      have hne : d ≠ c := by
        rintro rfl
        obtain rfl := Option.some.inj (hconn.symm.trans hconn')
        exact hopen.ne_disconnected hstate
      exact ⟨hloop, conn', (hother d hne).trans hconn', hopen⟩

/-! ### Runs -/

theorem invariant_move (h : Invariant cfg s) {a : Label L U} (hlive : Live s a)
    (hmove : Move cfg s a s') : Invariant cfg s' := by
  cases hmove with
  | exec hstack hruns => exact h.exec hstack hlive hruns
  | callbackReturn hstack => exact h.callbackReturn hstack
  | @send t c conn message huser hconn hstate =>
    -- on the loop of the connection, `send` runs its functor at once
    obtain rfl : t = .loop c.loop := hlive
    have hinline : cfg.runInLoop (.loop c.loop) c.loop (.sendInLoop c message) =
        [.functor (.sendInLoop c message)] := by
      simp [Config.runInLoop, Config.isInLoopThread]
    have hplaced : ∀ i ∈ cfg.runInLoop (.loop c.loop) c.loop (.sendInLoop c message),
        Placed cfg (.loop c.loop) i := placed_runInLoop rfl
    rw [hinline] at hplaced ⊢
    refine h.push_loop huser hplaced rfl (fun i hi => ?_) (List.pairwise_singleton _ _)
      (.inr fun i hi => ?_)
    · obtain rfl := List.mem_singleton.mp hi
      refine ⟨fun d hd => absurd hd (by simp [Instr.dispatches?]), fun d hd => ?_, by simp,
        by simp, by simp⟩
      obtain rfl := Option.some.inj hd
      exact ⟨rfl, conn, hconn, .inl hstate⟩
    · obtain rfl := List.mem_singleton.mp hi
      rfl
  | @shutdown t c conn huser hconn hstate =>
    obtain rfl : t = .loop c.loop := hlive
    refine h.push_loop huser (fun i hi => ?_) rfl (fun i hi => ?_) (List.pairwise_singleton _ _)
      (.inr fun i hi => ?_)
    · obtain rfl := List.mem_singleton.mp hi
      exact .anywhere rfl (by simp)
    · obtain rfl := List.mem_singleton.mp hi
      refine ⟨fun d hd => absurd hd (by simp [Instr.dispatches?]), fun d hd => ?_, by simp,
        by simp, by simp⟩
      obtain rfl := Option.some.inj hd
      exact ⟨rfl, conn, hconn, .inl hstate⟩
    · obtain rfl := List.mem_singleton.mp hi
      rfl
  | refused => exact h
  | @setThreadNum t huser =>
    have hplaced : ∀ i ∈ cfg.runInLoop t cfg.base .listen, Placed cfg t i :=
      placed_runInLoop rfl
    cases t with
    | loop m =>
      have hcalm : ∀ i ∈ cfg.runInLoop (.loop m) cfg.base .listen,
          i.late = false ∧ i.urgent? = none := calm_runInLoop _ _ rfl (by simp)
      exact h.push_loop huser hplaced (task_runInLoop _ _ _) (tame_runInLoop _ _ rfl)
        (pairwise_of_calm hcalm) (.inr fun i hi => (hcalm i hi).1)
    | user u =>
      -- from another thread, `listen` goes through the queue
      refine h.push_user hplaced fun i hi => ?_
      have hother : cfg.isInLoopThread (.user u) cfg.base = false := by
        rw [Config.isInLoopThread, decide_eq_false_iff_not]
        exact fun heq => absurd (cfg.tid_injective heq) (by simp)
      rw [Config.runInLoop, hother, if_neg (by simp)] at hi
      exact .inl (List.mem_singleton.mp hi)
  | @loop m hstack =>
    have hset : Invariant cfg (s.setLoop m { s.loops m with quit := false }) := h.setLoop rfl
    refine hset.push_loop (.inl hstack) (fun i hi => ?_) ?_ (fun i hi => ?_)
      (List.pairwise_singleton _ _) (.inl hstack)
    · obtain rfl := List.mem_singleton.mp hi
      exact .of_home rfl rfl (by simp)
    · rfl
    · obtain rfl := List.mem_singleton.mp hi
      exact .of_idle rfl rfl (by simp) (by simp) (by simp)
  | @quit t m huser =>
    have hset : Invariant cfg (s.setLoop m { s.loops m with quit := true }) := h.setLoop rfl
    have hplaced : ∀ i ∈ (if cfg.isInLoopThread t m then [] else [Instr.wakeup m]),
        Placed cfg t i := fun i hi => Config.mem_quit hi ▸ .anywhere rfl (by simp)
    cases t with
    | loop n =>
      refine hset.push_loop huser hplaced ?_ (fun i hi => ?_) (pairwise_of_calm fun i hi => ?_)
        (.inr fun i hi => ?_)
      · split_ifs <;> rfl
      · exact Config.mem_quit hi ▸ .of_idle rfl rfl (by simp) (by simp) (by simp)
      · exact Config.mem_quit hi ▸ ⟨rfl, rfl⟩
      · exact Config.mem_quit hi ▸ rfl
    | user u => exact hset.push_user hplaced fun i hi => .inr (.inr ⟨m, Config.mem_quit hi⟩)
  | destroyServer => exact hlive.elim
  | destroyConnection hconn hgone =>
    exact h.free hconn hgone (confined_move h.confined (.destroyConnection hconn hgone))

theorem invariant_reachable (hs : (system cfg).ReachableUnder Live s) : Invariant cfg s :=
  Machine.ReachableUnder.invariant (I := Invariant cfg) (fun _ h => invariant_start h)
    (fun _ _ _ h hlive hstep => invariant_move h hlive (move_of_system hstep)) hs

/-- A step keeps every connection, or it is the end of one. -/
theorem Invariant.heap_move (h : Invariant cfg s) {a : Label L U} (hlive : Live s a)
    (hmove : Move cfg s a s') :
    (∀ c, (s.heap c).isSome → (s'.heap c).isSome) ∨
      ∃ c conn, s.heap c = some conn ∧ ¬ s.Referenced c ∧ s' = s.free c := by
  cases hmove with
  | @exec t o i rest is s₁ hstack hruns =>
    refine .inl fun c hc => ?_
    have hi : i ∈ s.stack t := hstack ▸ List.mem_cons_self
    obtain ⟨conn, hconn⟩ := Option.isSome_iff_exists.mp hc
    cases t with
    | loop l =>
      obtain ⟨conn', hconn', -⟩ := h.runs_heap hi hruns hconn
      exact Option.isSome_iff_exists.mpr ⟨conn', hconn'⟩
    | user u =>
      have hheap := (plain_runs (h.work.user u i hi) hruns).1.heap
      show (s₁.heap c).isSome
      rwa [hheap]
  | destroyServer => exact hlive.elim
  | destroyConnection hconn hgone => exact .inr ⟨_, _, hconn, hgone, rfl⟩
  | _ => exact .inl fun c hc => hc

omit [Fintype L] [DecidableEq L] [DecidableEq U] in
/-- Two pointers that a loop knows for one descriptor, the connections of both
being there, are the same. -/
theorem Ledger.known_unique (h : Ledger cfg s') {s₁ s₂ : State L U} {fd : ℕ}
    {p q : ChannelPtr L} (hp : p.Known cfg s₁ l fd) (hq : q.Known cfg s₂ l fd)
    (hp' : ∀ c, p = .conn c → (s'.heap c).isSome) (hq' : ∀ c, q = .conn c → (s'.heap c).isSome) :
    q = p := by
  cases p with
  | wakeup m =>
    obtain ⟨rfl, rfl⟩ := hp
    cases q with
    | wakeup n => rw [hq.1]
    | acceptor => exact absurd hq.2 (cfg.acceptFd_ne m)
    | conn d => exact absurd hq.2.1.symm (h.fd_ne_wakeupFd d (hq' d rfl) m)
  | acceptor =>
    obtain ⟨rfl, rfl⟩ := hp
    cases q with
    | wakeup n => exact absurd hq.2.symm (cfg.acceptFd_ne _)
    | acceptor => rfl
    | conn d => exact absurd hq.2.1.symm (h.fd_ne_acceptFd d (hq' d rfl))
  | conn c =>
    obtain ⟨rfl, rfl, -⟩ := hp
    cases q with
    | wakeup n => exact absurd hq.2 (h.fd_ne_wakeupFd c (hp' c rfl) _)
    | acceptor => exact absurd hq.2 (h.fd_ne_acceptFd c (hp' c rfl))
    | conn d => rw [h.fd_injective d c (hq' d rfl) (hp' c rfl) hq.2.1.symm]

omit [Fintype L] [DecidableEq L] [DecidableEq U] in
theorem ChannelPtr.Known.isSome {c : ConnPtr L} {fd : ℕ}
    (h : (ChannelPtr.conn c).Known cfg s l fd) : (s.heap c).isSome := by
  obtain ⟨-, -, conn, hconn, -⟩ := h
  rw [hconn]
  rfl

/-- The channel that `p` points to exists: the wakeup channel of the loop, the
acceptor's, or that of a connection whose descriptor is open. -/
def ChannelPtr.Valid (cfg : Config L U) (s : State L U) (l : L) : ChannelPtr L → Prop
  | .wakeup m => m = l
  | .acceptor => l = cfg.base
  | .conn c => (∃ conn, s.heap c = some conn ∧ conn.channel.fd = c.fd) ∧ s.isOpen c.fd = true

omit [Fintype L] [DecidableEq L] [DecidableEq U] in
theorem Ledger.valid (h : Ledger cfg s) {p : ChannelPtr L} {fd : ℕ} (hp : p.Known cfg s l fd) :
    p.Valid cfg s l := by
  cases p with
  | wakeup m => exact hp.1
  | acceptor => exact hp.1
  | conn c =>
    obtain ⟨-, -, conn, hconn, -⟩ := hp
    exact ⟨⟨conn, hconn, h.fd_eq c conn hconn⟩, h.fd_isOpen c (by rw [hconn]; rfl)⟩

/-- In every run of a live server the pollers and the batches of events point to
channels that exist, no `epoll_ctl` is fatal, no step exchanges an entry of a
poller for another one, and a connection ends after `connectionDestroyed`. -/
theorem no_stale_channel (hs : (system cfg).ReachableUnder Live s) :
    (∀ l fd p, (s.pollers l).channels fd = some p → p.Valid cfg s l) ∧
    (∀ l p revents, .handleEvent p revents ∈ s.stack (.loop l) → p.Valid cfg s l) ∧
    (∀ l, (s.pollers l).exited = false) ∧
    ∀ a s', Live s a → (system cfg).step s a = some s' →
      (∀ l fd p q, (s.pollers l).channels fd = some p → (s'.pollers l).channels fd = some q →
        q = p) ∧
      ∀ c, (s.heap c).isSome → s'.heap c = none → .returned (.loop c.loop) c ∈ s.log := by
  have h := invariant_reachable hs
  refine ⟨fun l fd p hp => ?_, fun l p revents hp => ?_, h.wiring.exited,
    fun a s' hlive hstep => ?_⟩
  · exact h.ledger.valid (h.wiring.channels l fd p hp)
  · have hhome := (h.confined.stack _ _ hp).thread (l := p.home cfg) rfl
    cases p with
    | wakeup m => exact (Thread.loop.inj hhome).symm
    | acceptor => exact Thread.loop.inj hhome
    | conn c =>
      obtain ⟨conn, hconn, -⟩ := (h.work.tame l _ hp).target c rfl
      exact ⟨⟨conn, hconn, h.ledger.fd_eq c conn hconn⟩,
        h.ledger.fd_isOpen c (by rw [hconn]; rfl)⟩
  · have hmove := move_of_system hstep
    have h' := invariant_move h hlive hmove
    rcases h.heap_move hlive hmove with hkeep | ⟨c, conn, hconn, hgone, rfl⟩
    · refine ⟨fun l fd p q hp hq => ?_, fun c hc hnone => ?_⟩
      · -- the connections of both entries are there after the step
        have hknown := h.wiring.channels l fd p hp
        have hknown' := h'.wiring.channels l fd q hq
        refine h'.ledger.known_unique hknown hknown' (fun c hc => ?_) (fun c hc => ?_)
        · subst hc
          exact hkeep c hknown.isSome
        · subst hc
          exact hknown'.isSome
      · have hsome := hkeep c hc
        rw [hnone] at hsome
        exact absurd hsome (by simp)
    · refine ⟨fun l fd p q hp hq => ?_, fun d hd hnone => ?_⟩
      · exact Option.some.inj (hq.symm.trans hp)
      · have hdc : d = c := by
          by_contra hne
          have hsame : (s.free c).heap d = s.heap d := Function.update_of_ne hne _ _
          rw [hsame] at hnone
          rw [hnone] at hd
          exact absurd hd (by simp)
        subst hdc
        exact (h.removed hconn hgone).2.2.2.2

end Step

theorem no_stale_channel_accept :
    ∃ s : State Bool Unit, (system twoLoops).ReachableUnder Live s ∧
      (s.pollers true).channels 7 = some (.conn ⟨1, true, 7⟩) ∧
      (ChannelPtr.conn ⟨1, true, 7⟩).Valid twoLoops s true := by
  have hrun : ∃ s, (system twoLoops).runUnder Live (State.make twoLoops) acceptOne = some s ∧
      (s.pollers true).channels 7 = some (.conn ⟨1, true, 7⟩) := ⟨_, rfl, rfl⟩
  obtain ⟨s, hs, hentry⟩ := hrun
  have hreach : (system twoLoops).ReachableUnder Live s :=
    Machine.ReachableUnder.runUnder acceptOne (.init (start_make twoLoops)) hs
  exact ⟨s, hreach, hentry, (no_stale_channel hreach).1 true 7 _ hentry⟩

end TcpServer

end Moduo
