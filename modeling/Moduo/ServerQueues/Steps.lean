/-
One step of a server is a run of `TaskQueue` for each of its loops.

* `Drives.foreign` — an instruction of another thread;
* `Drives.body`, `Drives.turn`, `Drives.enter` — one of the loop's own thread, in the
  three places of a layout;
* `drives_step` — every step.
-/
import Moduo.ServerQueues.History

namespace Moduo

namespace TcpServer

variable {L U : Type*}

section Queue

variable [DecidableEq L] [DecidableEq U] {cfg : Config L U} {l : L} {s s' : State L U}
  {t : Thread L U} {i : Instr L} {o : Outcome} {rest is : List (Instr L)}
  {pushed : List (Functor L)} {u v : TaskQueue.State (Thread L U) (Functor L)}

/-! ### The loop's own thread -/

omit [DecidableEq L] [DecidableEq U] in
theorem calm_follows (hcall : ∀ f, i ≠ .queueInLoop l f) (htest : i ≠ .testWakeup l)
    (hquit : i ≠ .quit l) {j : Instr L}
    (hj : (j = .testWakeup l → ∃ f, i = .queueInLoop l f) ∧
      (j = .wakeup l → i = .testWakeup l ∨ i = .quit l)) : j.Calm l := by
  constructor
  · intro heq
    obtain ⟨f, hf⟩ := hj.1 heq
    exact hcall f hf
  · intro heq
    rcases hj.2 heq with hi | hi
    · exact htest hi
    · exact hquit hi

omit [DecidableEq U] in
theorem Round.phase_cons (r : Round L) (j k : Instr L) (b b' : List (Instr L)) :
    r.phase l (j :: b) = r.phase l (k :: b') := by
  cases r <;> rfl

/-- What a handler or functor leaves behind it; when it has nothing left to do, it
returns. -/
theorem SameQueue.settle (h : SameQueue l s pushed v) {r : Round L} {j : Instr L}
    {b : List (Instr L)} (b' : List (Instr L)) (hphase : v.phase = r.phase l (j :: b))
    (hidle : v.caller (.loop l) = .idle) :
    ∃ w, (TaskQueue.system (.loop l)).Leads v w ∧ SameQueue l s pushed w ∧
      w.phase = r.phase l b' := by
  cases b' with
  | cons k b' => exact ⟨v, .refl _ _, h, hphase.trans (Round.phase_cons r j k b b')⟩
  | nil =>
    cases r with
    | dispatching events =>
      have hstep : (TaskQueue.system (.loop l)).step v .handlerReturn =
          some { v with phase := .dispatching (events.map (readyOf l)) } := by
        simp only [TaskQueue.system, TaskQueue.step, hphase, Round.phase, hidle, if_true]
      exact ⟨_, .single hstep, ⟨h.loop, h.pushed, h.caller⟩, rfl⟩
    | running functors =>
      have hstep : (TaskQueue.system (.loop l)).step v .functorReturn =
          some { v with phase := .running functors } := by
        simp only [TaskQueue.system, TaskQueue.step, hphase, Round.phase, hidle, if_true]
      exact ⟨_, .single hstep, ⟨h.loop, h.pushed, h.caller⟩, rfl⟩
    | _ => exact ⟨v, .refl _ _, h, hphase⟩

/-- Another thread runs an instruction. -/
theorem Drives.foreign {lay lay' : Layout L U} [Fintype L] (hground : Ground cfg s)
    (hfits : lay.Fits s) (h : Drives cfg l lay s pushed u) (hstack : s.stack t = i :: rest)
    (hruns : Runs cfg t s i o s' is) (hgoes : lay.Goes t i is lay') (ht : t ≠ .loop l) :
    ∃ v, (TaskQueue.system (.loop l)).Leads u v ∧
      Drives cfg l lay' (s'.setStack t (is ++ rest)) (pushed ++ i.pushes l) v := by
  have hi : i ∈ s.stack t := hstack ▸ List.mem_cons_self
  have hplaced := hground.confined.stack t i hi
  have hsame : lay'.round l = lay.round l ∧ lay'.body (.loop l) = lay.body (.loop l) := by
    cases hgoes with
    | body => exact ⟨rfl, Layout.setBody_of_ne ht.symm⟩
    | @turn m =>
      have hm : l ≠ m := fun heq => ht (by rw [heq])
      exact ⟨Layout.setRound_of_ne hm, rfl⟩
    | @enter m =>
      have hm : l ≠ m := fun heq => ht (by rw [heq])
      exact ⟨Layout.setRound_of_ne hm, Layout.setBody_of_ne ht.symm⟩
  have hcall : i.loop? = some l → (∃ f, i = .queueInLoop l f) ∨ i = .wakeup l := by
    intro hl
    cases i with
    | queueInLoop m f => exact .inl ⟨f, by rw [Option.some.inj hl]⟩
    | wakeup m => exact .inr (by rw [Option.some.inj hl])
    | quit m => exact absurd (hfits.not_leaves hi) (by simp [Instr.leaves])
    | beginPendingFunctors m => exact absurd (hplaced.thread hl) ht
    | swap m => exact absurd (hplaced.thread hl) ht
    | endPendingFunctors m => exact absurd (hplaced.thread hl) ht
    | handleEvent p revents =>
      cases p with
      | wakeup m => exact absurd (hplaced.thread hl) ht
      | _ => contradiction
    | _ => contradiction
  obtain ⟨v, hv, hqueue, hphase⟩ :=
    h.toSameQueue.exec hstack hruns (hfits.calm hstack) (fun heq => absurd heq ht) hcall
  refine ⟨v, hv, hqueue, ?_, ?_⟩
  · rw [hphase, h.phase, hsame.1, hsame.2]
  · rw [hsame.1, hsame.2]
    exact h.outside

omit [DecidableEq U] in
/-- What follows the start of a server, before `loop()`. -/
theorem starting_runs (hi : i.Starting cfg l) (hruns : Runs cfg t s i o s' is) :
    ∀ j ∈ is, j.Starting cfg l := by
  intro j hj
  rcases hi with rfl | ⟨hne, rfl | rfl | rfl⟩
  · cases hruns with
    | calls _ hcalls => cases hcalls
    | listen => exact absurd hj List.not_mem_nil
  · cases hruns with
    | calls _ hcalls => cases hcalls
    | queueInLoop => exact List.mem_singleton.mp hj ▸ .inr ⟨hne, .inr (.inl rfl)⟩
  · cases hruns with
    | calls _ hcalls => cases hcalls
    | testWakeup => exact List.mem_singleton.mp hj ▸ .inr ⟨hne, .inr (.inr rfl)⟩
    | noWakeup => exact absurd hj List.not_mem_nil
  · cases hruns with
    | calls _ hcalls => cases hcalls
    | wakeup => exact absurd hj List.not_mem_nil

/-- The loop goes on with a handler, a functor or the code outside of `loop()`. -/
theorem Drives.body {lay : Layout L U} (hfits : lay.Fits s)
    (h : Drives cfg l lay s pushed u) (hstack : s.stack (.loop l) = i :: rest)
    (hruns : Runs cfg (.loop l) s i o s' is) {b : List (Instr L)}
    (hbody : lay.body (.loop l) = i :: b) :
    ∃ v, (TaskQueue.system (.loop l)).Leads u v ∧
      Drives cfg l (lay.setBody (.loop l) (is ++ b)) (s'.setStack (.loop l) (is ++ rest))
        (pushed ++ i.pushes l) v := by
  have hin : i.inside (lay.round l) = true :=
    hfits.inside (.loop l) i (hbody ▸ List.mem_cons_self)
  have hcall : i.loop? = some l → (∃ f, i = .queueInLoop l f) ∨ i = .wakeup l := by
    intro hl
    cases i with
    | queueInLoop m f => exact .inl ⟨f, by rw [Option.some.inj hl]⟩
    | wakeup m => exact .inr (by rw [Option.some.inj hl])
    | handleEvent => contradiction
    | _ => contradiction
  have hphase := h.phase
  rw [hbody] at hphase
  have hpush : .loop l = (.loop l : Thread L U) → (∃ f, i = .queueInLoop l f) →
      u.phase.inBody = true := by
    rintro - ⟨f, rfl⟩
    rw [hphase]
    cases hr : lay.round l with
    | outside =>
      -- nothing is pushed on the loop before it runs
      rcases h.outside hr _ (hbody ▸ List.mem_cons_self) with hi | ⟨hne, hi | hi | hi⟩
      · contradiction
      · obtain ⟨rfl, -⟩ := Instr.queueInLoop.inj hi
        exact absurd rfl hne
      · contradiction
      · contradiction
    | dispatching => rfl
    | running => rfl
    | disconnecting => rfl
    | removing => rfl
    | _ =>
      have hnil := hfits.idle l (by rw [hr]; rfl)
      rw [hbody] at hnil
      contradiction
  obtain ⟨v, hv, hqueue, hsame⟩ :=
    h.toSameQueue.exec hstack hruns (hfits.calm hstack) hpush hcall
  have hother : ∀ m, (lay.setBody (.loop l) (is ++ b)).round m = lay.round m := fun _ => rfl
  have houtside : (lay.setBody (.loop l) (is ++ b)).round l = .outside →
      ∀ j ∈ (lay.setBody (.loop l) (is ++ b)).body (.loop l), j.Starting cfg l := by
    intro hout j hj
    rw [Layout.setBody_self] at hj
    have hold := h.outside hout
    rw [hbody] at hold
    rcases List.mem_append.mp hj with hj | hj
    · exact starting_runs (hold i List.mem_cons_self) hruns j hj
    · exact hold j (List.mem_cons_of_mem i hj)
  by_cases hnil : is ++ b = []
  · -- the body is done: the handler or functor returns
    have hidle : v.caller (.loop l) = .idle := by
      have hcaller := hqueue.caller (.loop l)
      obtain ⟨rfl, rfl⟩ := List.append_eq_nil_iff.mp hnil
      rw [State.setStack_self, List.nil_append] at hcaller
      have hcalm := hfits.calm (l := l) hstack
      exact hcaller.idle (fun heq => (hcalm _ heq).2 rfl) (fun heq => (hcalm _ heq).1 rfl)
    obtain ⟨w, hw, hqueue', hphase'⟩ :=
      hqueue.settle (is ++ b) (hsame.trans hphase) hidle
    refine ⟨w, hv.trans hw, hqueue', ?_, houtside⟩
    rw [Layout.setBody_self, hphase', hother]
  · obtain ⟨j, b', hb⟩ := List.exists_cons_of_ne_nil hnil
    refine ⟨v, hv, hqueue, ?_, houtside⟩
    rw [Layout.setBody_self, hsame, hphase, hother, hb]
    exact Round.phase_cons _ _ _ _ _

omit [DecidableEq U] in
/-- An event of a batch that is a wakeup comes from the eventfd. -/
theorem wakeup_of_ready [Fintype L] (hground : Ground cfg s) {ready : List (ℕ × EventMask)}
    (hregular : Regular cfg s (.exec (.loop l) (.polled ready)))
    {events : List (ChannelPtr L × EventMask)}
    (hevents : events.map (fun e => Instr.handleEvent e.1 e.2) =
      activeChannels (s.pollers l) ready)
    (hwakeup : .wakeup ∈ events.map (readyOf l)) : 0 < (s.loops l).wakeupCounter := by
  obtain ⟨⟨p, revents⟩, he, hready⟩ := List.mem_map.mp hwakeup
  rw [readyOf] at hready
  split_ifs at hready with hp
  obtain ⟨rfl, hin⟩ := hp
  have hmem : Instr.handleEvent (.wakeup l) revents ∈ activeChannels (s.pollers l) ready := by
    rw [← hevents]
    exact List.mem_map.mpr ⟨_, he, rfl⟩
  obtain ⟨b, hb, e, hentry, heq⟩ := mem_activeChannels hmem
  obtain ⟨hchannel, rfl⟩ := Instr.handleEvent.inj heq
  have hfd := hground.entries l b.1 e hentry
  rw [← hchannel] at hfd
  exact hregular b hb hfd.2 hin

/-- The loop takes its round on. -/
theorem Drives.turn {lay : Layout L U} [Fintype L] (hground : Ground cfg s) (hfits : lay.Fits s)
    (h : Drives cfg l lay s pushed u) (hregular : Regular cfg s (.exec (.loop l) o))
    (hstack : s.stack (.loop l) = i :: rest) (hruns : Runs cfg (.loop l) s i o s' is)
    (hbody : lay.body (.loop l) = []) {r : Round L} (hturn : (lay.round l).Turn l i is r) :
    ∃ v, (TaskQueue.system (.loop l)).Leads u v ∧
      Drives cfg l (lay.setRound l r) (s'.setStack (.loop l) (is ++ rest)) pushed v := by
  have hphase := h.phase
  rw [hbody] at hphase
  have hsame := stack_runs hruns
  have hrest := hfits.calm (l := l) hstack
  have hcaller := h.caller (.loop l)
  rw [hstack] at hcaller
  have hloop := h.loop
  have hself : ∀ loop : EventLoop (Functor L), (s.setLoop l loop).loops l = loop :=
    fun _ => Function.update_self _ _ _
  generalize hround : lay.round l = r₀ at hturn hphase
  -- a step of the loop that changes its phase, and its fields as the instruction does
  have hmove : ∀ v : TaskQueue.State (Thread L U) (Functor L),
      (TaskQueue.system (.loop l)).Leads u v → v.loop = s'.loops l → v.pushed = u.pushed →
      v.caller = u.caller → v.phase = r.phase l [] → i.Calm l → (∀ j ∈ is, j.Calm l) →
      ∃ v, (TaskQueue.system (.loop l)).Leads u v ∧
        Drives cfg l (lay.setRound l r) (s'.setStack (.loop l) (is ++ rest)) pushed v := by
    intro v hv hvloop hvpushed hvcaller hvphase hi his
    have hidle : u.caller (.loop l) = .idle :=
      hcaller.idle (fun heq => hi.2 (Option.some.inj heq)) fun heq => hi.1 (Option.some.inj heq)
    refine ⟨v, hv, h.toSameQueue.setStack hvloop (hvpushed.trans h.pushed) ?_ hsame
      (head_append his hrest), ?_, ?_⟩
    · rw [hvcaller, ← hidle, Function.update_eq_self]
    · rw [Layout.setRound_self, Layout.setRound_body, hbody, hvphase]
    · rw [Layout.setRound_body, hbody]
      exact fun _ j hj => absurd hj List.not_mem_nil
  have hcalm : i.Calm l → (∀ f, i ≠ .queueInLoop l f) → i ≠ .quit l → ∀ j ∈ is, j.Calm l :=
    fun hi hcall hquit j hj => calm_follows hcall hi.1 hquit (waking_follows hruns hj)
  generalize hfollow : is = follow at hturn
  cases hturn with
  | testQuit =>
    cases hruns with
    | calls _ hcalls => cases hcalls
    | leave => contradiction
    | testQuit hquit =>
      have hstep : (TaskQueue.system (.loop l)).step u .testQuit =
          some { u with phase := .polling } := by
        simp [TaskQueue.system, TaskQueue.step, hphase, Round.phase, hloop, hquit]
      exact hmove _ (.single hstep) hloop rfl rfl rfl ⟨by simp, by simp⟩
        (hcalm ⟨by simp, by simp⟩ (by simp) (by simp))
  | leave =>
    cases hruns with
    | calls _ hcalls => cases hcalls
    | testQuit => contradiction
    | leave hquit =>
      have hstep : (TaskQueue.system (.loop l)).step u .testQuit =
          some { u with phase := .outside } := by
        simp [TaskQueue.system, TaskQueue.step, hphase, Round.phase, hloop, hquit]
      exact hmove _ (.single hstep) hloop rfl rfl rfl ⟨by simp, by simp⟩
        (hcalm ⟨by simp, by simp⟩ (by simp) (by simp))
  | poll events =>
    cases hruns with
    | calls _ hcalls => cases hcalls
    | @poll _ ready =>
      have hevents := ((List.append_left_inj _).mp hfollow).symm
      have hactive : .wakeup ∈ events.map (readyOf l) → 0 < u.loop.wakeupCounter := by
        rw [hloop]
        exact wakeup_of_ready hground hregular hevents
      have hstep : (TaskQueue.system (.loop l)).step u (.pollReturn (events.map (readyOf l))) =
          some { u with phase := .dispatching (events.map (readyOf l)) } := by
        simp only [TaskQueue.system, TaskQueue.step, hphase, Round.phase, if_pos hactive]
      rw [← hfollow]
      exact hmove _ (.single hstep) hloop rfl rfl rfl ⟨by simp, by simp⟩
        (hcalm ⟨by simp, by simp⟩ (by simp) (by simp))
  | beginPendingFunctors =>
    cases hruns with
    | calls _ hcalls => cases hcalls
    | beginPendingFunctors =>
      have hstep : (TaskQueue.system (.loop l)).step u .beginPendingFunctors =
          some { u with phase := .swapping, loop := u.loop.beginPendingFunctors } := by
        simp [TaskQueue.system, TaskQueue.step, hphase, Round.phase]
      refine hmove _ (.single hstep) ?_ rfl rfl rfl ⟨by simp, by simp⟩
        (hcalm ⟨by simp, by simp⟩ (by simp) (by simp))
      rw [hself, ← hloop]
  | swap functors =>
    cases hruns with
    | calls _ hcalls => cases hcalls
    | swap =>
      have hbatch : functors = (s.loops l).pendingFunctors :=
        List.map_injective_iff.mpr (fun _ _ hf => Instr.functor.inj hf)
          ((List.append_left_inj _).mp hfollow).symm
      have hstep : (TaskQueue.system (.loop l)).step u .swap =
          some { u with
            phase := .running u.loop.pendingFunctors
            loop := u.loop.swapFunctors } := by
        simp [TaskQueue.system, TaskQueue.step, hphase, Round.phase]
      rw [← hfollow]
      refine hmove _ (.single hstep) ?_ rfl rfl ?_ ⟨by simp, by simp⟩
        (hcalm ⟨by simp, by simp⟩ (by simp) (by simp))
      · rw [hself, ← hloop]
      · rw [hbatch, ← hloop]
        rfl
  | endPendingFunctors =>
    cases hruns with
    | calls _ hcalls => cases hcalls
    | endPendingFunctors =>
      have hstep : (TaskQueue.system (.loop l)).step u .endPendingFunctors =
          some { u with phase := .testing, loop := u.loop.endPendingFunctors } := by
        simp [TaskQueue.system, TaskQueue.step, hphase, Round.phase]
      refine hmove _ (.single hstep) ?_ rfl rfl rfl ⟨by simp, by simp⟩
        (hcalm ⟨by simp, by simp⟩ (by simp) (by simp))
      rw [hself, ← hloop]
  | @destroyFound c functors =>
    subst hfollow
    have hstep : (TaskQueue.system (.loop l)).step u .runFunctor =
        some { u with
          phase := .executing functors, executed := u.executed ++ [.connectionDestroyed c] } := by
      simp [TaskQueue.system, TaskQueue.step, hphase, Round.phase]
    exact hmove _ (.single hstep) (hloop.trans (loops_runs hruns (by simp [Instr.loop?])).symm)
      rfl rfl rfl ⟨by simp, by simp⟩ (hcalm ⟨by simp, by simp⟩ (by simp) (by simp))
  | @destroySkips c functors =>
    subst hfollow
    have hstep : (TaskQueue.system (.loop l)).step u .runFunctor =
        some { u with
          phase := .executing functors, executed := u.executed ++ [.connectionDestroyed c] } := by
      simp [TaskQueue.system, TaskQueue.step, hphase, Round.phase]
    exact hmove _ (.single hstep) (hloop.trans (loops_runs hruns (by simp [Instr.loop?])).symm)
      rfl rfl rfl ⟨by simp, by simp⟩ (hcalm ⟨by simp, by simp⟩ (by simp) (by simp))
  | @removeChannel c functors =>
    subst hfollow
    have hidle : u.caller (.loop l) = .idle := hcaller.idle (by simp) (by simp)
    have hstep : (TaskQueue.system (.loop l)).step u .functorReturn =
        some { u with phase := .running functors } := by
      simp [TaskQueue.system, TaskQueue.step, hphase, Round.phase, hidle]
    exact hmove _ (.single hstep) (hloop.trans (loops_runs hruns (by simp [Instr.loop?])).symm)
      rfl rfl rfl ⟨by simp, by simp⟩ (hcalm ⟨by simp, by simp⟩ (by simp) (by simp))

/-- The loop calls a handler or a functor. -/
theorem Drives.enter {lay : Layout L U} [Fintype L] (hground : Ground cfg s) (hfits : lay.Fits s)
    (h : Drives cfg l lay s pushed u) (hstack : s.stack (.loop l) = i :: rest)
    (hexec : TcpServer.exec cfg (.loop l) o s i = some (s', is)) (hbody : lay.body (.loop l) = [])
    {r : Round L} (henter : (lay.round l).Enters i r) :
    ∃ v, (TaskQueue.system (.loop l)).Leads u v ∧
      Drives cfg l ((lay.setRound l r).setBody (.loop l) is)
        (s'.setStack (.loop l) (is ++ rest)) pushed v := by
  have hruns : Runs cfg (.loop l) s i o s' is := runs_of_exec hexec
  have hplaced := hground.confined.stack (.loop l) i (hstack ▸ List.mem_cons_self)
  have hphase := h.phase
  rw [hbody] at hphase
  have hsame := stack_runs hruns
  have hrest := hfits.calm (l := l) hstack
  have hcaller := h.caller (.loop l)
  rw [hstack] at hcaller
  have hround : r ≠ .outside := by
    generalize lay.round l = r₀ at henter
    rintro rfl
    cases henter
  have hi : i ≠ .testWakeup l ∧ i ≠ .wakeup l ∧ (∀ f, i ≠ .queueInLoop l f) ∧ i ≠ .quit l := by
    generalize lay.round l = r₀ at henter
    cases henter <;> simp
  have hidle : u.caller (.loop l) = .idle :=
    hcaller.idle (fun heq => hi.2.1 (Option.some.inj heq)) fun heq => hi.1 (Option.some.inj heq)
  have hcalm : ∀ j ∈ (is ++ rest).head?, j.Calm l :=
    head_append (fun j hj => calm_follows hi.2.2.1 hi.1 hi.2.2.2 (waking_follows hruns hj)) hrest
  -- the loop is inside the handler or functor, which goes on with `is`
  have hmove : ∀ v : TaskQueue.State (Thread L U) (Functor L),
      (TaskQueue.system (.loop l)).Leads u v → v.loop = s'.loops l → v.pushed = u.pushed →
      v.caller = u.caller → v.phase = r.phase l [.user] →
      ∃ v, (TaskQueue.system (.loop l)).Leads u v ∧
        Drives cfg l ((lay.setRound l r).setBody (.loop l) is)
          (s'.setStack (.loop l) (is ++ rest)) pushed v := by
    intro v hv hvloop hvpushed hvcaller hvphase
    have hqueue : SameQueue l (s'.setStack (.loop l) (is ++ rest)) pushed v := by
      refine h.toSameQueue.setStack hvloop (hvpushed.trans h.pushed) ?_ hsame hcalm
      rw [hvcaller, ← hidle, Function.update_eq_self]
    obtain ⟨w, hw, hqueue', hwphase⟩ :=
      hqueue.settle is hvphase (by rw [hvcaller, hidle])
    refine ⟨w, hv.trans hw, hqueue', ?_, ?_⟩
    · rw [Layout.setBody_round, Layout.setRound_self, Layout.setBody_self, hwphase]
    · rw [Layout.setBody_round, Layout.setRound_self]
      exact fun hout => absurd hout hround
  generalize hold : lay.round l = r₀ at henter hphase
  cases henter with
  | @handleEvent p revents events =>
    by_cases hready : readyOf l (p, revents) = .wakeup
    · -- the eventfd is read
      have hp : p = .wakeup l ∧ revents &&& (EPOLLIN ||| EPOLLPRI) ≠ 0 := by
        by_contra hne
        rw [readyOf, if_neg hne] at hready
        contradiction
      obtain ⟨rfl, hin⟩ := hp
      have hresult : some (s.setLoop l (s.loops l).handleRead, []) = some (s', is) := by
        rw [← hexec]
        exact (if_pos hin).symm
      obtain ⟨rfl, rfl⟩ := Prod.mk.inj (Option.some.inj hresult)
      have hstep : (TaskQueue.system (.loop l)).step u .dispatch =
          some { u with
            phase := .dispatching (events.map (readyOf l)), loop := u.loop.handleRead } := by
        simp [TaskQueue.system, TaskQueue.step, hphase, Round.phase, hready]
      refine ⟨_, .single hstep, h.toSameQueue.setStack ?_ h.pushed ?_ hsame hcalm, ?_, ?_⟩
      · show u.loop.handleRead = Function.update s.loops l (s.loops l).handleRead l
        rw [Function.update_self, h.loop]
      · rw [← hidle, Function.update_eq_self]
      · rw [Layout.setBody_round, Layout.setRound_self, Layout.setBody_self]
        rfl
      · rw [Layout.setBody_round, Layout.setRound_self]
        exact fun hout => absurd hout hround
    · have hother : readyOf l (p, revents) = .other := by
        cases hr : readyOf l (p, revents) with
        | wakeup => exact absurd hr hready
        | other => rfl
      have hstep : (TaskQueue.system (.loop l)).step u .dispatch =
          some { u with phase := .handling (events.map (readyOf l)) } := by
        simp [TaskQueue.system, TaskQueue.step, hphase, Round.phase, hother]
      refine hmove _ (.single hstep) (h.loop.trans ?_) rfl rfl rfl
      cases p with
      | wakeup m =>
        obtain rfl : l = m := Thread.loop.inj (hplaced.thread rfl)
        have hout : ¬ revents &&& (EPOLLIN ||| EPOLLPRI) ≠ 0 :=
          fun hin => hready (if_pos ⟨rfl, hin⟩)
        have hresult : some (s, []) = some (s', is) := by
          rw [← hexec]
          exact (if_neg hout).symm
        obtain ⟨rfl, rfl⟩ := Prod.mk.inj (Option.some.inj hresult)
        rfl
      | acceptor => exact (loops_runs hruns (by simp [Instr.loop?])).symm
      | conn c => exact (loops_runs hruns (by simp [Instr.loop?])).symm
  | @functor f functors hf =>
    have hstep : (TaskQueue.system (.loop l)).step u .runFunctor =
        some { u with phase := .executing functors, executed := u.executed ++ [f] } := by
      simp [TaskQueue.system, TaskQueue.step, hphase, Round.phase]
    exact hmove _ (.single hstep) (h.loop.trans (loops_runs hruns (by simp [Instr.loop?])).symm)
      rfl rfl rfl
  | @disconnect c functors =>
    exact hmove u (.refl _ _) (h.loop.trans (loops_runs hruns (by simp [Instr.loop?])).symm)
      rfl rfl hphase

/-- One instruction of any thread. -/
theorem Drives.exec {lay lay' : Layout L U} [Fintype L] (hground : Ground cfg s)
    (hfits : lay.Fits s) (h : Drives cfg l lay s pushed u) (hregular : Regular cfg s (.exec t o))
    (hstack : s.stack t = i :: rest) (hexec : TcpServer.exec cfg t o s i = some (s', is))
    (hgoes : lay.Goes t i is lay') :
    ∃ v, (TaskQueue.system (.loop l)).Leads u v ∧
      Drives cfg l lay' (s'.setStack t (is ++ rest)) (pushed ++ i.pushes l) v := by
  have hruns : Runs cfg t s i o s' is := runs_of_exec hexec
  by_cases ht : t = .loop l
  · subst ht
    cases hgoes with
    | body hbody => exact h.body hfits hstack hruns hbody
    | turn hbody hturn =>
      have hnil : i.pushes l = [] := by
        generalize lay.round l = r₀ at hturn
        cases hturn <;> rfl
      rw [hnil, List.append_nil]
      exact h.turn hground hfits hregular hstack hruns hbody hturn
    | enter hbody henter =>
      have hnil : i.pushes l = [] := by
        generalize lay.round l = r₀ at henter
        cases henter <;> rfl
      rw [hnil, List.append_nil]
      exact h.enter hground hfits hstack hexec hbody henter
  · exact h.foreign hground hfits hstack hruns hgoes ht

omit [DecidableEq U] in
/-- User code is not in the middle of a call. -/
theorem Drives.userCode {lay : Layout L U} (h : Drives cfg l lay s pushed u)
    (hu : s.InUserCode t) : u.caller t = .idle := by
  have hcaller := h.caller t
  rcases hu with hnil | huser
  · rw [hnil] at hcaller
    exact hcaller.idle (by simp) (by simp)
  · exact hcaller.idle (by simp [huser]) (by simp [huser])

omit [DecidableEq U] in
/-- User code inside of `loop()` is part of a handler or functor. -/
theorem Drives.inBody {lay : Layout L U} (hfits : lay.Fits s) (h : Drives cfg l lay s pushed u)
    (hu : s.InUserCode (.loop l)) (hin : s.stack (.loop l) ≠ []) :
    (∃ b, lay.body (.loop l) = .user :: b) ∧ lay.round l ≠ .outside ∧ u.phase.inBody = true := by
  rcases hfits.of_userCode hu with huser | ⟨hnil, hout⟩
  · obtain ⟨b, hb⟩ := List.head?_eq_some_iff.mp huser
    have hround : lay.round l ≠ .outside := by
      intro hout
      have hstart := h.outside hout .user (hb ▸ List.mem_cons_self)
      simp [Instr.Starting] at hstart
    have hbody : (lay.round l).hasBody = true := by
      by_contra hno
      have hnil := hfits.idle l (by simpa using hno)
      rw [hb] at hnil
      contradiction
    refine ⟨⟨b, hb⟩, hround, ?_⟩
    rw [h.phase, hb]
    cases hr : lay.round l with
    | dispatching => rfl
    | running => rfl
    | removing => rfl
    | outside => exact absurd hr hround
    | _ =>
      rw [hr] at hbody
      contradiction
  · refine absurd ?_ hin
    have hout : lay.round l = .outside := hout
    rw [hfits.stack, hnil, Layout.rest, hout]
    rfl

/-- User code calls something that is no call on loop `l` yet. -/
theorem Drives.push {lay : Layout L U} (hfits : lay.Fits s) (h : Drives cfg l lay s pushed u)
    (hu : s.InUserCode t) (hcalm : ∀ j ∈ is, j.Calm l)
    (hstart : t = .loop l → s.stack t ≠ [] ∨ ∀ j ∈ is, j.Starting cfg l) :
    Drives cfg l (lay.setBody t (is ++ lay.body t)) (s.push t is) pushed u := by
  have hqueue : SameQueue l (s.push t is) pushed u := by
    refine h.toSameQueue.aside (h.userCode hu) rfl rfl (head_append hcalm fun j hj => ?_)
    rcases hu with hnil | huser
    · rw [hnil] at hj
      contradiction
    · rw [huser] at hj
      exact Option.some.inj hj ▸ .of_not_immediate rfl
  by_cases ht : t = .loop l
  · subst ht
    refine ⟨hqueue, ?_, ?_⟩
    · rw [Layout.setBody_self, Layout.setBody_round, h.phase]
      rcases hfits.of_userCode hu with huser | ⟨-, hout⟩
      · obtain ⟨b, hb⟩ := List.head?_eq_some_iff.mp huser
        cases is with
        | nil => rfl
        | cons j is =>
          rw [hb]
          exact Round.phase_cons _ _ _ _ _
      · have hout : lay.round l = .outside := hout
        rw [hout]
        rfl
    · intro hout j hj
      rw [Layout.setBody_self] at hj
      rcases hstart rfl with hin | hstart
      · exact absurd hout (h.inBody hfits hu hin).2.1
      · rcases List.mem_append.mp hj with hj | hj
        · exact hstart j hj
        · exact h.outside hout j hj
  · refine ⟨hqueue, ?_, ?_⟩
    · rw [Layout.setBody_of_ne (Ne.symm ht)]
      exact h.phase
    · rw [Layout.setBody_of_ne (Ne.symm ht)]
      exact h.outside

/-- A user callback returns. -/
theorem Drives.callbackReturn {lay : Layout L U} (hfits : lay.Fits s)
    (h : Drives cfg l lay s pushed u) (hstack : s.stack t = .user :: rest) {b : List (Instr L)}
    (hbody : lay.body t = .user :: b) :
    ∃ v, (TaskQueue.system (.loop l)).Leads u v ∧
      Drives cfg l (lay.setBody t b) (s.setStack t rest) pushed v := by
  have hidle : u.caller t = .idle := h.userCode (.inr (by rw [hstack]; rfl))
  have hqueue : SameQueue l (s.setStack t rest) pushed u :=
    h.toSameQueue.aside hidle rfl rfl (hfits.calm hstack)
  by_cases ht : t = .loop l
  · subst ht
    have hphase := h.phase
    rw [hbody] at hphase
    obtain ⟨w, hw, hqueue', hwphase⟩ := hqueue.settle b hphase hidle
    refine ⟨w, hw, hqueue', ?_, ?_⟩
    · rw [Layout.setBody_self]
      exact hwphase
    · intro hout j hj
      rw [Layout.setBody_self] at hj
      exact h.outside hout j (hbody ▸ List.mem_cons_of_mem _ hj)
  · refine ⟨u, .refl _ _, hqueue, ?_, ?_⟩
    · rw [Layout.setBody_of_ne (Ne.symm ht)]
      exact h.phase
    · rw [Layout.setBody_of_ne (Ne.symm ht)]
      exact h.outside

/-- A loop starts. -/
theorem Drives.startLoop {lay : Layout L U} {m : L} (h : Drives cfg l lay s pushed u)
    (hround : lay.round m = .outside) (hstack : s.stack (.loop m) = []) :
    ∃ v, (TaskQueue.system (.loop l)).Leads u v ∧ Drives cfg l (lay.setRound m .testing)
      ((s.setLoop m { s.loops m with quit := false }).push (.loop m) [.testQuit m]) pushed v := by
  have hidle : u.caller (.loop m) = .idle := h.userCode (.inl hstack)
  have hcalm : ∀ j ∈ ([Instr.testQuit m] ++ s.stack (.loop m)).head?, j.Calm l :=
    fun j hj => Option.some.inj hj ▸ .of_not_immediate rfl
  by_cases hm : m = l
  · subst hm
    have hphase := h.phase
    rw [hround] at hphase
    have hstep : (TaskQueue.system (.loop m)).step u .enterLoop =
        some { u with phase := .testing, loop := { u.loop with quit := false } } := by
      simp [TaskQueue.system, TaskQueue.step, hphase, Round.phase]
    refine ⟨_, .single hstep, h.toSameQueue.setStack ?_ h.pushed ?_ rfl hcalm, ?_, ?_⟩
    · show { u.loop with quit := false } =
        Function.update s.loops m { s.loops m with quit := false } m
      rw [Function.update_self, h.loop]
    · rw [← hidle, Function.update_eq_self]
    · rw [Layout.setRound_self]
      rfl
    · rw [Layout.setRound_self]
      exact fun hout => absurd hout (by simp)
  · have hother : (s.setLoop m { s.loops m with quit := false }).loops l = s.loops l :=
      Function.update_of_ne (Ne.symm hm) _ _
    refine ⟨u, .refl _ _, h.toSameQueue.aside hidle hother rfl hcalm, ?_, ?_⟩
    · rw [Layout.setRound_of_ne (Ne.symm hm)]
      exact h.phase
    · rw [Layout.setRound_of_ne (Ne.symm hm)]
      exact h.outside

/-- User code calls `quit` on a loop. -/
theorem Drives.quit {lay : Layout L U} {m : L} (hfits : lay.Fits s)
    (h : Drives cfg l lay s pushed u) (hu : s.InUserCode t)
    (hin : t = .loop l → s.stack t ≠ []) :
    ∃ v, (TaskQueue.system (.loop l)).Leads u v ∧ Drives cfg l
      (lay.setBody t ((if cfg.isInLoopThread t m then [] else [.wakeup m]) ++ lay.body t))
      ((s.setLoop m { s.loops m with quit := true }).push t
        (if cfg.isInLoopThread t m then [] else [.wakeup m])) pushed v := by
  have hidle := h.userCode hu
  by_cases hm : m = l
  · subst hm
    have hself : (s.setLoop m { s.loops m with quit := true }).loops m =
        { s.loops m with quit := true } := Function.update_self _ _ _
    have hloop : { u.loop with quit := true } =
        (s.setLoop m { s.loops m with quit := true }).loops m := by
      rw [h.loop, hself]
    by_cases ht : t = .loop m
    · -- on the loop's own thread, in a handler or functor
      subst ht
      obtain ⟨-, hround, hbody⟩ := h.inBody hfits hu (hin rfl)
      have hstep : (TaskQueue.system (.loop m)).step u (.quit (.loop m)) =
          some { u.setCaller (.loop m) .idle with loop := { u.loop with quit := true } } := by
        simp [TaskQueue.system, TaskQueue.step, hidle, hbody]
      have hcalm : ∀ j ∈ (s.stack (.loop m)).head?, j.Calm m := by
        intro j hj
        have hcaller := h.caller (.loop m)
        rw [hidle] at hcaller
        exact hcaller j hj
      rw [if_pos (isInLoopThread_iff.mpr rfl)]
      refine ⟨_, .single hstep, h.toSameQueue.setStack hloop h.pushed rfl rfl hcalm, ?_, ?_⟩
      · rw [Layout.setBody_self, Layout.setBody_round]
        exact h.phase
      · exact fun hout => absurd hout hround
    · have hstep : (TaskQueue.system (.loop m)).step u (.quit t) =
          some { u.setCaller t .quitting with loop := { u.loop with quit := true } } := by
        simp [TaskQueue.system, TaskQueue.step, hidle, ht]
      rw [if_neg (fun heq => ht (isInLoopThread_iff.mp heq))]
      refine ⟨_, .single hstep, ⟨hloop, h.pushed, fun t' => ?_⟩, ?_, ?_⟩
      · show Stands m _ (Function.update u.caller t .quitting t')
        by_cases ht' : t' = t
        · subst ht'
          rw [State.push, State.setStack_self, Function.update_self]
          rfl
        · rw [State.push, State.setStack_of_ne ht', Function.update_of_ne ht']
          exact h.caller t'
      · rw [Layout.setBody_of_ne (Ne.symm ht)]
        exact h.phase
      · rw [Layout.setBody_of_ne (Ne.symm ht)]
        exact h.outside
  · have hother : (s.setLoop m { s.loops m with quit := true }).loops l = s.loops l :=
      Function.update_of_ne (Ne.symm hm) _ _
    have hset : Drives cfg l lay (s.setLoop m { s.loops m with quit := true }) pushed u :=
      ⟨⟨h.loop.trans hother.symm, h.pushed, h.caller⟩, h.phase, h.outside⟩
    refine ⟨u, .refl _ _,
      hset.push (hfits.of_stack rfl) hu (fun j hj => ?_) fun ht => .inl (hin ht)⟩
    rw [Config.mem_quit hj]
    exact ⟨by simp, by simp [hm]⟩

/-- One step of the server, which leaves of the batch what its history says. -/
theorem drives_step {lay : Layout L U} [Fintype L] {a : Label L U} (hground : Ground cfg s)
    (hfits : lay.Fits s) (h : Drives cfg l lay s pushed u) (hserving : Serving s a)
    (hregular : Regular cfg s a) (hstep : step cfg s a = some s') :
    ∃ v lay', (TaskQueue.system (.loop l)).Leads u v ∧ lay'.Fits s' ∧
      (lay'.round l).rest = s.left l (lay.round l).rest a ∧
      Drives cfg l lay' s' (pushed ++ s.pushes l a) v := by
  cases a with
  | exec t o =>
    obtain ⟨i, rest, r, hstack, hr, rfl⟩ := exec_of_step hstep
    obtain ⟨lay', hgoes, hfits'⟩ := hfits.exec hstack (runs_of_exec hr)
    obtain ⟨v, hv, hdrives⟩ := h.exec hground hfits hregular hstack hr hgoes
    have hpushes : s.pushes l (.exec t o) = i.pushes l := by simp [State.pushes, hstack]
    rw [hpushes]
    exact ⟨v, lay', hv, hfits', hgoes.rest hfits (runs_of_exec hr), hdrives⟩
  | callbackReturn t =>
    simp only [step] at hstep
    split at hstep
    next rest hstack =>
      obtain rfl := Option.some.inj hstep
      obtain ⟨b, hbody, hfits'⟩ := hfits.callbackReturn hstack
      obtain ⟨v, hv, hdrives⟩ := h.callbackReturn hfits hstack hbody
      exact ⟨v, _, hv, hfits', rfl, (List.append_nil pushed).symm ▸ hdrives⟩
    next => exact absurd hstep (by simp)
  | send t c message =>
    simp only [step] at hstep
    split_ifs at hstep with hu
    obtain ⟨conn, hconn, rfl⟩ := Option.map_eq_some_iff.mp hstep
    have hnil : pushed ++ s.pushes l (.send t c message) = pushed := List.append_nil _
    rw [hnil]
    by_cases hstate : conn.state = .kConnected
    · rw [if_pos hstate]
      refine ⟨u, _, .refl _ _, hfits.push hu (Round.admits_runInLoop rfl), rfl,
        h.push hfits hu (fun j hj => ?_) fun ht => .inl ?_⟩
      · rcases Config.mem_runInLoop hj with rfl | rfl
        · exact ⟨by simp, by simp⟩
        · exact ⟨by simp, by simp⟩
      · subst ht
        exact hregular
    · rw [if_neg hstate]
      exact ⟨u, lay, .refl _ _, hfits, rfl, h⟩
  | shutdown t c =>
    simp only [step] at hstep
    split_ifs at hstep with hu
    obtain ⟨conn, hconn, rfl⟩ := Option.map_eq_some_iff.mp hstep
    have hnil : pushed ++ s.pushes l (.shutdown t c) = pushed := List.append_nil _
    rw [hnil]
    by_cases hstate : conn.state = .kConnected
    · rw [if_pos hstate]
      refine ⟨u, _, .refl _ _, hfits.push hu (Round.admits_singleton rfl), rfl,
        h.push hfits hu (fun j hj => ?_) fun ht => .inl ?_⟩
      · exact List.mem_singleton.mp hj ▸ ⟨by simp, by simp⟩
      · subst ht
        exact hregular
    · rw [if_neg hstate]
      exact ⟨u, lay, .refl _ _, hfits, rfl, h⟩
  | setThreadNum t =>
    simp only [step] at hstep
    split_ifs at hstep with hu
    obtain rfl := Option.some.inj hstep
    have hnil : pushed ++ s.pushes l (.setThreadNum t) = pushed := List.append_nil _
    rw [hnil]
    refine ⟨u, _, .refl _ _, hfits.push hu (Round.admits_runInLoop rfl), rfl,
      h.push hfits hu (fun j hj => ?_) fun ht => .inr fun j hj => ?_⟩
    · rcases Config.mem_runInLoop hj with rfl | rfl
      · exact ⟨by simp, by simp⟩
      · exact ⟨by simp, by simp⟩
    · rw [Config.runInLoop] at hj
      split_ifs at hj with hthread
      · exact .inl (List.mem_singleton.mp hj)
      · refine .inr ⟨?_, .inl (List.mem_singleton.mp hj)⟩
        rintro rfl
        exact hthread (isInLoopThread_iff.mpr ht)
  | loop m =>
    simp only [step] at hstep
    split_ifs at hstep with hstack
    obtain rfl := Option.some.inj hstep
    obtain ⟨-, hround, hfits'⟩ := hfits.loop hstack (Eq.refl
      ((s.setLoop m { s.loops m with quit := false }).push (.loop m) [.testQuit m]).stack)
    obtain ⟨v, hv, hdrives⟩ := h.startLoop hround hstack
    refine ⟨v, _, hv, hfits', ?_, (List.append_nil pushed).symm ▸ hdrives⟩
    show ((lay.setRound m .testing).round l).rest = (lay.round l).rest
    by_cases hm : l = m
    · subst hm
      rw [Layout.setRound_self, hround]
      rfl
    · rw [Layout.setRound_of_ne hm]
  | quit t m =>
    rw [step] at hstep
    by_cases hu : s.InUserCode t
    · rw [if_pos hu] at hstep
      obtain rfl := Option.some.inj hstep
      have hin : t = .loop l → s.stack t ≠ [] := by
        rintro rfl
        exact hregular
      obtain ⟨v, hv, hdrives⟩ := h.quit (m := m) hfits hu hin
      have hset : lay.Fits (s.setLoop m { s.loops m with quit := true }) := hfits.of_stack rfl
      refine ⟨v, _, hv, hset.push hu ?_, rfl, (List.append_nil pushed).symm ▸ hdrives⟩
      split_ifs
      · exact Round.admits_nil
      · exact Round.admits_singleton rfl
    · rw [if_neg hu] at hstep
      contradiction
  | destroyServer order => exact absurd hserving id
  | destroyConnection c =>
    simp only [step] at hstep
    split_ifs at hstep with hgone
    obtain rfl := Option.some.inj hstep
    refine ⟨u, lay, .refl _ _, hfits.of_stack rfl, rfl, ?_⟩
    have hnil : pushed ++ s.pushes l (.destroyConnection c) = pushed := List.append_nil _
    rw [hnil]
    exact ⟨⟨h.loop, h.pushed, h.caller⟩, h.phase, h.outside⟩

end Queue

end TcpServer

end Moduo
