/-
How often an event may still reach `handleClose`.

`triggers c` counts the reported events of connection `c`, and the close and read
callbacks they have led to, that have not run yet.  One report leads to at most
one of the two callbacks: Linux reports `EPOLLHUP` without `EPOLLIN` only when
`EPOLLIN` is not registered, and then `EPOLLPRI` is not registered either.

* `triggers_poll` — a poll leaves at most one trigger;
* `triggers_handleEvent` — the dispatch of an event does not add one.
-/
import Moduo.LiveServer

namespace Moduo

namespace TcpServer

variable {L U : Type*}

/-- The connection whose `handleClose` the instruction may lead to. -/
def Instr.trigger? : Instr L → Option (ConnPtr L)
  | .handleEvent (.conn c) _ => some c
  | .closeCallback c => some c
  | .readCallback c => some c
  | _ => none

theorem Instr.dispatches_of_trigger {i : Instr L} {c : ConnPtr L} (h : i.trigger? = some c) :
    i.dispatches? = some c := by
  cases i with
  | handleEvent p revents =>
    cases p with
    | conn d => exact h
    | _ => exact absurd h (by simp [Instr.trigger?])
  | closeCallback d => exact h
  | readCallback d => exact h
  | _ => exact absurd h (by simp [Instr.trigger?])

/-- The events of one report: without `EPOLLIN` a hangup comes alone. -/
def Fit (revents : EventMask) : Prop :=
  revents &&& EPOLLHUP ≠ 0 → revents &&& EPOLLIN = 0 → revents &&& EPOLLPRI = 0

section Step

variable [DecidableEq L]

def triggering (c : ConnPtr L) (i : Instr L) : ℕ := if i.trigger? = some c then 1 else 0

theorem triggering_eq_zero {c : ConnPtr L} {i : Instr L} (h : i.trigger? ≠ some c) :
    triggering c i = 0 :=
  if_neg h

theorem triggering_eq_one {c : ConnPtr L} {i : Instr L} (h : i.trigger? = some c) :
    triggering c i = 1 :=
  if_pos h

theorem fair_triggering (c : ConnPtr L) : Fair (triggering c) where
  queueInLoop _ _ := rfl
  listen := rfl
  notice _ _ := rfl
  user := rfl
  testQuit _ := rfl
  poll _ := rfl
  beginPendingFunctors _ := rfl
  swap _ := rfl
  endPendingFunctors _ := rfl
  testWakeup _ := rfl
  wakeup _ := rfl

/-! ### One report, one callback -/

/-- The callbacks of a fit report: the close and the read callback exclude each
other. -/
theorem weight_eventCallbacks (c d : ConnPtr L) {revents : EventMask} (h : Fit revents)
    (tied : Bool) :
    weight (triggering d) (eventCallbacks c revents ++ if tied then [.unguard c] else []) ≤
      triggering d (.handleEvent (.conn c) revents) := by
  have hguard : weight (triggering d) (if tied then [Instr.unguard c] else []) = 0 := by
    split_ifs <;> rfl
  have herror : weight (triggering d)
      (if revents &&& EPOLLERR ≠ 0 then [Instr.errorCallback c] else []) = 0 := by
    split_ifs <;> rfl
  have hwrite : weight (triggering d)
      (if revents &&& EPOLLOUT ≠ 0 then [Instr.writeCallback c] else []) = 0 := by
    split_ifs <;> rfl
  have hclose : triggering d (.closeCallback c) =
      triggering d (.handleEvent (.conn c) revents) := rfl
  have hread : triggering d (.readCallback c) =
      triggering d (.handleEvent (.conn c) revents) := rfl
  rw [eventCallbacks, weight_append, weight_append, weight_append, weight_append, hguard, herror,
    hwrite]
  by_cases hhup : revents &&& EPOLLHUP ≠ 0 ∧ revents &&& EPOLLIN = 0
  · -- a hangup without input: nothing to read
    have hpri := h hhup.1 hhup.2
    have hnone : ¬ revents &&& (EPOLLIN ||| EPOLLPRI) ≠ 0 := by
      rw [BitVec.and_or_distrib_left, hhup.2, hpri]
      decide
    rw [if_pos hhup, if_neg hnone, weight_cons, weight_nil, hclose]
    omega
  · rw [if_neg hhup, weight_nil]
    split_ifs
    · rw [weight_cons, weight_nil, hread]
      omega
    · rw [weight_nil]
      omega

/-- A batch has at most one event of a descriptor. -/
theorem weight_activeChannels {p : EPollPoller (ChannelPtr L)} {c : ConnPtr L}
    (hentry : ∀ fd x, p.epoll fd = some x → x.2 = .conn c → fd = c.fd)
    {ready : List (ℕ × EventMask)} (hnodup : (ready.map Prod.fst).Nodup) :
    weight (triggering c) (activeChannels p ready) ≤ 1 := by
  have hcount : weight (triggering c) (activeChannels p ready) ≤
      (ready.map Prod.fst).count c.fd := by
    clear hnodup
    induction ready with
    | nil => exact Nat.zero_le _
    | cons b ready ih =>
      rw [activeChannels] at ih
      rw [activeChannels, List.filterMap_cons, List.map_cons, List.count_cons]
      cases hb : p.epoll b.1 with
      | none => exact ih.trans (Nat.le_add_right _ _)
      | some x =>
        simp only [Option.map_some, weight_cons]
        by_cases hx : x.2 = .conn c
        · have hfd := hentry b.1 x hb hx
          have hone : triggering c (.handleEvent x.2 b.2) = 1 :=
            triggering_eq_one (by rw [hx]; rfl)
          rw [hone, hfd, beq_self_eq_true, if_pos rfl]
          omega
        · have hzero : triggering c (.handleEvent x.2 b.2) = 0 := by
            refine triggering_eq_zero fun heq => hx ?_
            cases hp : x.2 with
            | conn d =>
              rw [hp] at heq
              rw [Option.some.inj heq]
            | _ =>
              rw [hp] at heq
              exact absurd heq (by simp [Instr.trigger?])
          rw [hzero]
          omega
  exact hcount.trans (List.nodup_iff_count_le_one.mp hnodup c.fd)

variable [Fintype L] {cfg : Config L U} {s s' : State L U} {l : L}

def State.triggers (s : State L U) (c : ConnPtr L) : ℕ := tokens (triggering c) s

/-- A channel that is not in the poller is not being dispatched. -/
theorem Invariant.triggers_eq_zero (h : Invariant cfg s) {c : ConnPtr L}
    (hc : ∀ conn, s.heap c = some conn → conn.channel.index ≠ .kAdded) : s.triggers c = 0 := by
  refine tally_eq_zero fun p i hi => triggering_eq_zero fun htrigger => ?_
  rcases p with m | m
  · obtain ⟨conn, hconn, hindex⟩ :=
      (h.work.tame m i hi).target c (Instr.dispatches_of_trigger htrigger)
    exact hc conn hconn hindex
  · obtain ⟨f, -, rfl⟩ := List.mem_map.mp hi
    exact absurd htrigger (by simp [Instr.trigger?])

variable {i : Instr L} {o : Outcome} {rest is : List (Instr L)} [DecidableEq U]

/-- Instructions that are no triggers do not add one. -/
theorem triggers_le {c : ConnPtr L} (hstack : s.stack (.loop l) = i :: rest)
    (hruns : Runs cfg (.loop l) s i o s' is) (his : ∀ j ∈ is, j.trigger? ≠ some c) :
    (s'.setStack (.loop l) (is ++ rest)).triggers c ≤ s.triggers c := by
  rcases Bool.eq_false_or_eq_true i.transfers with hi | hi
  · exact (tokens_transfer (fair_triggering c) hstack hruns hi).le
  · have hcount := tokens_runs (w := triggering c) hstack hruns hi
    have hzero : weight (triggering c) is = 0 :=
      weight_eq_zero fun j hj => triggering_eq_zero (his j hj)
    rw [State.triggers, State.triggers]
    omega

/-- A trigger that runs is spent. -/
theorem triggers_spent {c : ConnPtr L} (hstack : s.stack (.loop l) = i :: rest)
    (hruns : Runs cfg (.loop l) s i o s' is) (hi : i.transfers = false)
    (htrigger : i.trigger? = some c) (his : ∀ j ∈ is, j.trigger? ≠ some c) :
    (s'.setStack (.loop l) (is ++ rest)).triggers c + 1 = s.triggers c := by
  have hcount := tokens_runs (w := triggering c) hstack hruns hi
  have hzero : weight (triggering c) is = 0 :=
    weight_eq_zero fun j hj => triggering_eq_zero (his j hj)
  rw [triggering_eq_one htrigger] at hcount
  rw [State.triggers, State.triggers]
  omega

theorem triggers_handleEvent {c d : ConnPtr L} {revents : EventMask} {tied : Bool}
    (hstack : s.stack (.loop l) = .handleEvent (.conn c) revents :: rest)
    (hruns : Runs cfg (.loop l) s (.handleEvent (.conn c) revents) o s
      (eventCallbacks c revents ++ if tied then [.unguard c] else [])) (hfit : Fit revents) :
    (s.setStack (.loop l) ((eventCallbacks c revents ++
      if tied then [.unguard c] else []) ++ rest)).triggers d ≤ s.triggers d := by
  have hcount := tokens_runs (w := triggering d) hstack hruns rfl
  have hle := weight_eventCallbacks c d hfit tied
  rw [State.triggers, State.triggers]
  omega

/-- Before a poll the loop has nothing left to dispatch. -/
theorem Invariant.triggers_poll (h : Invariant cfg s) {c : ConnPtr L}
    {ready : List (ℕ × EventMask)} (hstack : s.stack (.loop l) = .poll l :: rest)
    (hruns : Runs cfg (.loop l) s (.poll l) o s
      (activeChannels (s.pollers l) ready ++ [.beginPendingFunctors l]))
    (hnodup : (ready.map Prod.fst).Nodup) :
    (s.setStack (.loop l) ((activeChannels (s.pollers l) ready ++
      [.beginPendingFunctors l]) ++ rest)).triggers c ≤ s.triggers c ∨
    (s.setStack (.loop l) ((activeChannels (s.pollers l) ready ++
      [.beginPendingFunctors l]) ++ rest)).triggers c ≤ 1 ∧ c.loop = l ∧
      ∃ x, (s.pollers l).epoll c.fd = some x ∧ x.2 = .conn c := by
  have hcount := tokens_runs (w := triggering c) hstack hruns rfl
  have hpoll : triggering c (.poll l) = 0 := rfl
  have hbegin : triggering c (.beginPendingFunctors l) = 0 := rfl
  rw [weight_append, weight_cons, weight_nil] at hcount
  rw [State.triggers, State.triggers]
  by_cases hentry : ∃ fd x, (s.pollers l).epoll fd = some x ∧ x.2 = .conn c
  · obtain ⟨fd, x, hx, hptr⟩ := hentry
    have hknown := h.wiring.epoll l fd x hx
    rw [hptr] at hknown
    obtain ⟨rfl, rfl, -⟩ := hknown
    refine .inr ⟨?_, rfl, x, hx, hptr⟩
    have hweight : weight (triggering c) (activeChannels (s.pollers c.loop) ready) ≤ 1 := by
      refine weight_activeChannels (fun fd y hy hp => ?_) hnodup
      have hknown := h.wiring.epoll c.loop fd y hy
      rw [hp] at hknown
      exact hknown.2.1
    -- nothing of `c` is on a stack: not below the poll, and not on another loop
    have hzero : tokens (triggering c) s = 0 := by
      refine tally_eq_zero fun p i hi => triggering_eq_zero fun htrigger => ?_
      have hdispatch := Instr.dispatches_of_trigger htrigger
      rcases p with m | m
      · have hhome : i.home? cfg = some c.loop := Instr.home_of_dispatches hdispatch
        obtain rfl := Thread.loop.inj ((h.confined.stack _ i hi).thread hhome)
        have hsorted := h.work.sorted c.loop
        have hi : i ∈ s.stack (.loop c.loop) := hi
        rw [hstack] at hsorted hi
        rcases List.mem_cons.mp hi with rfl | hi
        · exact absurd hdispatch (by simp [Instr.dispatches?])
        · have hnone := ((List.pairwise_cons.mp hsorted).1 i hi).1 rfl
          exact absurd (hnone.symm.trans hdispatch) (by simp)
      · obtain ⟨f, -, rfl⟩ := List.mem_map.mp hi
        exact absurd htrigger (by simp [Instr.trigger?])
    omega
  · refine .inl ?_
    have hweight : weight (triggering c) (activeChannels (s.pollers l) ready) = 0 := by
      refine weight_eq_zero fun j hj => triggering_eq_zero fun htrigger => ?_
      obtain ⟨b, -, hb⟩ := List.mem_filterMap.mp hj
      obtain ⟨x, hx, rfl⟩ := Option.map_eq_some_iff.mp hb
      refine hentry ⟨b.1, x, hx, ?_⟩
      cases hp : x.2 with
      | conn d =>
        rw [hp] at htrigger
        rw [Option.some.inj htrigger]
      | _ =>
        rw [hp] at htrigger
        exact absurd htrigger (by simp [Instr.trigger?])
    omega

end Step

end TcpServer

end Moduo
