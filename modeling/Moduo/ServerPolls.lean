/-
The polls of a server, with the arrays and the `revents_` that they go through.

`polling` is a server together with the `events_` of each loop's poller and the
`revents_` of each channel.

* `dispatch_sees_poll` — what is dispatched is what `poll` has read from its array and
  stored in the channels: no later poll of any loop overwrites a `revents_` that is still
  to be looked at;
* `event_list_size` — an array has doubled as often as a poll has filled it, and never
  outgrows twice the channels there have been at once.
-/
import Moduo.EventList
import Moduo.ServerDescriptors
import Moduo.ServerGround

namespace Moduo

namespace TcpServer

variable {L U : Type*}

/-- `events_` of each loop, `revents_` of each channel, and the number of polls of each
loop that have filled its array. -/
structure Polls (L : Type*) where
  events : L → List (EpollEvent (ChannelPtr L))
  revents : ChannelPtr L → EventMask
  full : L → ℕ

def Polls.start : Polls L :=
  ⟨fun _ => List.replicate EPollPoller.kInitEventListSize EPollPoller.unwritten, fun _ => 0,
    fun _ => 0⟩

/-- What `epoll_wait` writes for these descriptors: their pointers and masks. -/
def State.delivered (s : State L U) (l : L) (ready : List (ℕ × EventMask)) :
    List (ChannelPtr L × EventMask) :=
  ready.filterMap fun b => ((s.pollers l).epoll b.1).map fun e => (e.2, b.2)

section Observe

variable [DecidableEq L]

/-- The loop that polls, and what it is delivered. -/
def State.polled? (s : State L U) : Label L U → Option (L × List (ChannelPtr L × EventMask))
  | .exec (.loop l) (.polled ready) =>
    if (s.stack (.loop l)).head? = some (.poll l) then some (l, s.delivered l ready) else none
  | _ => none

def Polls.poll (r : Polls L) (l : L) (batch : List (ChannelPtr L × EventMask)) : Polls L :=
  (EPollPoller.poll (r.events l) r.revents [] (.ready batch)).elim r fun polled =>
    { events := Function.update r.events l polled.events
      revents := polled.revents
      full :=
        if batch.length = (r.events l).length then Function.update r.full l (r.full l + 1)
        else r.full }

/-- A server, with what its polls go through. -/
def polling [Fintype L] [DecidableEq U] (cfg : Config L U) :
    Machine (State L U × Polls L) (Label L U) :=
  (system cfg).recording .start fun s a r => (s.polled? a).elim r fun x => r.poll x.1 x.2

/-- The kernel delivers at most what it is asked for. -/
def Delivers (p : State L U × Polls L) (a : Label L U) : Prop :=
  ∀ x ∈ p.1.polled? a, (x.2.length : ℤ) ≤ EPollPoller.maxevents (p.2.events x.1)

/-- The array has room for what is delivered. -/
theorem Delivers.length_le {p : State L U × Polls L} {a : Label L U} (h : Delivers p a) {l : L}
    {batch : List (ChannelPtr L × EventMask)} (hpolled : p.1.polled? a = some (l, batch)) :
    batch.length ≤ (p.2.events l).length := by
  have hasked : (batch.length : ℤ) ≤ EPollPoller.maxevents (p.2.events l) := h _ hpolled
  exact_mod_cast hasked.trans (EPollPoller.maxevents_le _)

instance (p : State L U × Polls L) (a : Label L U) : Decidable (Delivers p a) :=
  inferInstanceAs (Decidable (∀ x ∈ p.1.polled? a, _))

end Observe

/-- Every event still to be dispatched is in the `revents_` of its channel. -/
def Stored (p : State L U × Polls L) : Prop :=
  ∀ t ptr mask, .handleEvent ptr mask ∈ p.1.stack t → p.2.revents ptr = mask

/-- Each array has been doubled by the polls that have filled it, which were delivered no
more than one event for each of at most `N` connections and the two other channels. -/
def Sized (N : ℕ) (r : Polls L) : Prop :=
  ∀ l, (r.events l).length = EPollPoller.kInitEventListSize * 2 ^ r.full l ∧
    (r.full l ≠ 0 → (r.events l).length ≤ 2 * (N + 2))

variable {cfg : Config L U} {s s' : State L U} {l : L} {ready : List (ℕ × EventMask)}

/-! ### Batches -/

section Batch

variable [DecidableEq L] [Fintype L]

/-- The descriptor behind a pointer in the epoll set of a loop. -/
def ChannelPtr.fdOf (cfg : Config L U) : ChannelPtr L → ℕ
  | .wakeup l => cfg.wakeupFd l
  | .acceptor => cfg.acceptFd
  | .conn c => c.fd

theorem Ground.fd_eq (hground : Ground cfg s) {fd : ℕ} {e : EventMask × ChannelPtr L}
    (he : (s.pollers l).epoll fd = some e) : fd = e.2.fdOf cfg := by
  have hentry := hground.entries l fd e he
  cases hptr : e.2 with
  | wakeup m =>
    rw [hptr] at hentry
    obtain ⟨rfl, hfd⟩ := hentry
    exact hfd
  | acceptor =>
    rw [hptr] at hentry
    exact hentry.2
  | conn c =>
    rw [hptr] at hentry
    exact hentry.2.1

omit [DecidableEq L] [Fintype L] in
theorem State.mem_delivered {b : ChannelPtr L × EventMask} (h : b ∈ s.delivered l ready) :
    ∃ fd e, (s.pollers l).epoll fd = some e ∧ e.2 = b.1 := by
  obtain ⟨x, -, hx⟩ := List.mem_filterMap.mp h
  obtain ⟨e, he, rfl⟩ := Option.map_eq_some_iff.mp hx
  exact ⟨x.1, e, he, rfl⟩

/-- Different descriptors are those of different channels. -/
theorem Ground.nodup_batch (hground : Ground cfg s) (hready : (ready.map Prod.fst).Nodup) :
    ((s.delivered l ready).map Prod.fst).Nodup := by
  have hmap : (s.delivered l ready).map Prod.fst =
      (ready.map Prod.fst).filterMap fun fd => ((s.pollers l).epoll fd).map Prod.snd := by
    rw [State.delivered, List.map_filterMap, List.filterMap_map]
    refine List.filterMap_congr fun b _ => ?_
    rw [Option.map_map]
    rfl
  rw [hmap]
  -- the descriptor can be read off the channel
  refine List.Nodup.filterMap (fun fd fd' ptr hfd hfd' => ?_) hready
  obtain ⟨e, he, rfl⟩ := Option.map_eq_some_iff.mp hfd
  obtain ⟨e', he', hsame⟩ := Option.map_eq_some_iff.mp hfd'
  rw [hground.fd_eq he, hground.fd_eq he', hsame]

/-- A batch is no longer than there are channels on the loop. -/
theorem Ground.length_batch_le (hground : Ground cfg s) (hready : (ready.map Prod.fst).Nodup) :
    (s.delivered l ready).length ≤ s.existing.ncard + 2 := by
  have hnodup := hground.nodup_batch (l := l) hready
  have hfinite := hground.ledger.finite
  -- the wakeup channel of the loop, the acceptor, and the connections
  have hsub : ((s.delivered l ready).map Prod.fst).toFinset ⊆
      insert (.wakeup l) (insert .acceptor (hfinite.toFinset.image ChannelPtr.conn)) := by
    intro ptr hptr
    obtain ⟨b, hb, rfl⟩ := List.mem_map.mp (List.mem_toFinset.mp hptr)
    obtain ⟨fd, e, he, hsame⟩ := State.mem_delivered hb
    have hentry := hground.entries l fd e he
    rw [hsame] at hentry
    cases hb1 : b.1 with
    | wakeup m =>
      rw [hb1] at hentry
      obtain ⟨rfl, -⟩ := hentry
      exact Finset.mem_insert_self _ _
    | acceptor => exact Finset.mem_insert_of_mem (Finset.mem_insert_self _ _)
    | conn c =>
      rw [hb1] at hentry
      have hc : c ∈ s.existing := hentry.2.2.1
      exact Finset.mem_insert_of_mem (Finset.mem_insert_of_mem
        (Finset.mem_image_of_mem _ (hfinite.mem_toFinset.mpr hc)))
  calc (s.delivered l ready).length
      = ((s.delivered l ready).map Prod.fst).toFinset.card := by
        rw [List.toFinset_card_of_nodup hnodup, List.length_map]
    _ ≤ _ := Finset.card_le_card hsub
    _ ≤ (hfinite.toFinset.image ChannelPtr.conn).card + 1 + 1 :=
        (Finset.card_insert_le _ _).trans (Nat.add_le_add_right (Finset.card_insert_le _ _) 1)
    _ ≤ s.existing.ncard + 2 := by
        rw [Set.ncard_eq_toFinset_card s.existing hfinite]
        exact Nat.add_le_add_right Finset.card_image_le 2

end Batch

/-! ### The array of a loop -/

section Poll

variable [DecidableEq L] {r : Polls L} {batch : List (ChannelPtr L × EventMask)}

theorem Polls.poll_revents (h : batch.length ≤ (r.events l).length) :
    (r.poll l batch).revents = EPollPoller.stored r.revents batch := by
  rw [Polls.poll, EPollPoller.poll_ready r.revents h]
  rfl

theorem Polls.poll_of_ne {m : L} (hm : m ≠ l) : (r.poll l batch).events m = r.events m ∧
    (r.poll l batch).full m = r.full m := by
  rw [Polls.poll]
  cases EPollPoller.poll (r.events l) r.revents [] (.ready batch) with
  | none => exact ⟨rfl, rfl⟩
  | some polled =>
    refine ⟨Function.update_of_ne hm _ _, ?_⟩
    show (if _ then _ else _ : L → ℕ) m = r.full m
    split_ifs
    · exact Function.update_of_ne hm _ _
    · rfl

/-- A poll that fills the array doubles it; any other leaves its length alone. -/
theorem Polls.poll_self (hpos : 0 < (r.events l).length)
    (h : batch.length ≤ (r.events l).length) :
    if batch.length = (r.events l).length then
      ((r.poll l batch).events l).length = 2 * (r.events l).length ∧
        (r.poll l batch).full l = r.full l + 1
    else ((r.poll l batch).events l).length = (r.events l).length ∧
      (r.poll l batch).full l = r.full l := by
  have hwritten := EPollPoller.length_written h
  rw [Polls.poll, EPollPoller.poll_ready r.revents h]
  by_cases hfull : batch.length = (r.events l).length
  · have hbatch : 0 < batch.length := by omega
    simp only [if_pos hfull, Option.elim_some, Function.update_self, hbatch, true_and,
      List.length_append, List.length_replicate, hwritten, and_true]
    omega
  · have hnot : ¬ (0 < batch.length ∧ batch.length = (r.events l).length) := fun h => hfull h.2
    simp only [if_neg hfull, if_neg hnot, Option.elim_some, Function.update_self, hwritten,
      and_self]

end Poll

/-! ### Steps -/

section Step

variable [DecidableEq L]

/-- Only a poll announces events. -/
theorem event_follows {t : Thread L U} {i : Instr L} {o : Outcome} {is : List (Instr L)}
    (hruns : Runs cfg t s i o s' is) {ptr : ChannelPtr L} {mask : EventMask}
    (hj : .handleEvent ptr mask ∈ is) : ∃ l, i = .poll l := by
  have hrunInLoop : ∀ {m : L} {f : Functor L}, .handleEvent ptr mask ∉ cfg.runInLoop t m f := by
    intro m f hmem
    rcases Config.mem_runInLoop hmem with h | h
    · contradiction
    · contradiction
  cases hruns with
  | poll => exact ⟨_, rfl⟩
  | calls =>
    rcases mem_effects hj with ⟨cb, h⟩ | h | h
    all_goals contradiction
  | swap =>
    rcases List.mem_append.mp hj with h | h
    · obtain ⟨f, -, hf⟩ := List.mem_map.mp h
      contradiction
    · exact absurd (List.mem_singleton.mp h) (by simp)
  | handleEvent =>
    rcases mem_eventCallbacks hj with h | h | h | h | h
    all_goals contradiction
  | newConnection => exact absurd hj hrunInLoop
  | setDisconnecting => exact absurd hj hrunInLoop
  | removeConnection => exact absurd hj hrunInLoop
  | quit =>
    have h := Config.mem_quit hj
    contradiction
  | _ => simp at hj

variable [DecidableEq U] [Fintype L]

/-- What is announced after a step was announced before, or is what it has polled. -/
theorem announced_step {a : Label L U} (hserving : Serving s a) (hstep : step cfg s a = some s')
    {t : Thread L U} {ptr : ChannelPtr L} {mask : EventMask}
    (hj : .handleEvent ptr mask ∈ s'.stack t) :
    .handleEvent ptr mask ∈ s.stack t ∨
      ∃ o l rest, a = .exec t o ∧ s.stack t = .poll l :: rest := by
  cases comes_move (move_of_step hstep) hj with
  | kept hold => exact .inl hold
  | @follows o i rest is s₁ ha hstack hruns hnew =>
    obtain ⟨l, rfl⟩ := event_follows hruns hnew
    exact .inr ⟨o, l, rest, ha, hstack⟩
  | pushed hpushed =>
    cases hpushed with
    | send hsend => exact absurd (Config.mem_runInLoop hsend) (by simp)
    | setThreadNum hlisten => exact absurd (Config.mem_runInLoop hlisten) (by simp)
    | destroyServer => exact absurd hserving id

/-- What a step does with the announced events: it polls, and then the batch is
announced on the loop that has polled, or it announces nothing. -/
theorem polled_cases {a : Label L U} (hground : Ground cfg s) (hserving : Serving s a)
    (hstep : step cfg s a = some s') :
    (s.polled? a = none ∧ ∀ t ptr mask, .handleEvent ptr mask ∈ s'.stack t →
        .handleEvent ptr mask ∈ s.stack t) ∨
      ∃ l ready, s.polled? a = some (l, s.delivered l ready) ∧ (ready.map Prod.fst).Nodup ∧
        s'.stack (.loop l) = (s.delivered l ready).map (fun e => .handleEvent e.1 e.2) ++
          [.beginPendingFunctors l] ∧
        ∀ t, t ≠ .loop l → s'.stack t = s.stack t := by
  by_cases hpolls : ∃ t o l rest, a = .exec t o ∧ s.stack t = .poll l :: rest
  · obtain ⟨t, o, l, rest, rfl, hstack⟩ := hpolls
    -- a loop polls: `poll` is all that is on its stack
    obtain ⟨lay, hfits⟩ := hground.layout
    obtain ⟨rfl, rfl, -⟩ := hfits.polls hstack
    obtain ⟨i, rest, r, hstack', hr, rfl⟩ := exec_of_step hstep
    rw [hstack] at hstack'
    obtain ⟨rfl, rfl⟩ := List.cons.inj hstack'
    cases o with
    | polled ready =>
      rw [exec] at hr
      split_ifs at hr with hready
      obtain rfl := Option.some.inj hr
      refine .inr ⟨l, ready, ?_, hready.1, ?_, fun t ht => State.setStack_of_ne ht _⟩
      · rw [State.polled?, hstack]
        exact if_pos rfl
      · rw [State.setStack_self, List.append_nil, activeChannels_eq]
        rfl
    | _ => contradiction
  · refine .inl ⟨?_, fun t ptr mask hmem => ?_⟩
    · cases a with
      | exec t o =>
        cases t with
        | user u => rfl
        | loop l =>
          cases o with
          | polled ready =>
            refine if_neg fun hhead => hpolls ?_
            obtain ⟨rest, hstack⟩ := List.head?_eq_some_iff.mp hhead
            exact ⟨_, _, l, rest, rfl, hstack⟩
          | _ => rfl
      | _ => rfl
    · refine (announced_step hserving hstep hmem).resolve_right ?_
      rintro ⟨o, l, rest, ha, hstack⟩
      exact hpolls ⟨t, o, l, rest, ha, hstack⟩

omit [DecidableEq U] in
/-- The channels that a loop reports are its own. -/
theorem Ground.home_of_batch (hground : Ground cfg s) {b : ChannelPtr L × EventMask}
    (hb : b ∈ s.delivered l ready) : b.1.home cfg = l := by
  obtain ⟨fd, e, he, hsame⟩ := State.mem_delivered hb
  have hentry := hground.entries l fd e he
  rw [hsame] at hentry
  cases hptr : b.1 with
  | wakeup m =>
    rw [hptr] at hentry
    exact hentry.1
  | acceptor =>
    rw [hptr] at hentry
    exact hentry.1.symm
  | conn c =>
    rw [hptr] at hentry
    exact hentry.1.symm

/-- A poll stores the masks of its batch, and those that other loops have still to look
at are not among them. -/
theorem stored_step {p q : State L U × Polls L} {a : Label L U} (hground : Ground cfg p.1)
    (hserving : Serving p.1 a) (hdelivers : Delivers p a) (h : Stored p)
    (hstep : (polling cfg).step p a = some q) : Stored q := by
  obtain ⟨hsystem, hrecord⟩ := Machine.recording_step hstep
  have hmove := step_of_system hsystem
  intro t ptr mask hmem
  rcases polled_cases hground hserving hmove with ⟨hnone, hold⟩ |
    ⟨l, ready, hpolled, hready, hself, hother⟩
  · rw [hrecord, hnone]
    exact h t ptr mask (hold t ptr mask hmem)
  · have hlength : (p.1.delivered l ready).length ≤ (p.2.events l).length :=
      hdelivers.length_le hpolled
    have hnodup := hground.nodup_batch (l := l) hready
    rw [hrecord, hpolled]
    show (p.2.poll l (p.1.delivered l ready)).revents ptr = mask
    rw [Polls.poll_revents hlength]
    by_cases ht : t = .loop l
    · subst ht
      rw [hself] at hmem
      rcases List.mem_append.mp hmem with hmem | hmem
      · obtain ⟨b, hb, heq⟩ := List.mem_map.mp hmem
        obtain ⟨rfl, rfl⟩ := Instr.handleEvent.inj heq
        exact EPollPoller.stored_of_mem hnodup hb
      · exact absurd (List.mem_singleton.mp hmem) (by simp)
    · -- the event of another loop is on a channel of that loop
      rw [hother t ht] at hmem
      rw [EPollPoller.stored_of_not_mem, h t ptr mask hmem]
      intro hin
      obtain ⟨b, hb, rfl⟩ := List.mem_map.mp hin
      refine ht ((hground.confined.stack t _ hmem).thread ?_)
      rw [Instr.home?, hground.home_of_batch hb]

/-- An array is doubled by the polls that fill it. -/
theorem sized_step {N : ℕ} {p q : State L U × Polls L} {a : Label L U} (hground : Ground cfg p.1)
    (hserving : Serving p.1 a) (hdelivers : Delivers p a) (hN : p.1.existing.ncard ≤ N)
    (h : Sized N p.2) (hstep : (polling cfg).step p a = some q) : Sized N q.2 := by
  obtain ⟨hsystem, hrecord⟩ := Machine.recording_step hstep
  rcases polled_cases hground hserving (step_of_system hsystem) with ⟨hnone, -⟩ |
    ⟨m, ready, hpolled, hready, -, -⟩
  · rw [hrecord, hnone]
    exact h
  · have hlength : (p.1.delivered m ready).length ≤ (p.2.events m).length :=
      hdelivers.length_le hpolled
    have hchannels := hground.length_batch_le (l := m) hready
    rw [hrecord, hpolled]
    show Sized N (p.2.poll m (p.1.delivered m ready))
    intro l
    obtain ⟨hsize, hbound⟩ := h l
    rcases eq_or_ne l m with rfl | hne
    · have hpos : 0 < (p.2.events l).length := by
        rw [hsize]
        exact Nat.mul_pos (by decide) (Nat.two_pow_pos _)
      have hself := Polls.poll_self hpos hlength
      split_ifs at hself with hfull
      · -- the batch that fills the array has at most one entry for each channel
        refine ⟨?_, fun _ => ?_⟩
        · rw [hself.1, hself.2, Nat.pow_succ, ← Nat.mul_assoc, ← hsize, Nat.mul_comm]
        · rw [hself.1]
          omega
      · rw [hself.1, hself.2]
        exact ⟨hsize, hbound⟩
    · rw [(Polls.poll_of_ne hne).1, (Polls.poll_of_ne hne).2]
      exact ⟨hsize, hbound⟩

/-! ### Runs -/

theorem ground_of_polling {P : State L U × Polls L → Label L U → Prop}
    (hP : ∀ p a, P p a → Serving p.1 a) {p : State L U × Polls L}
    (hp : (polling cfg).ReachableUnder P p) : Ground cfg p.1 :=
  ground_reachable (Machine.ReachableUnder.of_recording (P := Serving) (hp.mono hP))

/-- Whenever an event is still to be dispatched, its mask is in the `revents_` of its
channel; and a poll, whatever is left in its array, ends with the loop dispatching the
channels it has collected, each with what is in its `revents_`. -/
theorem dispatch_sees_poll {p : State L U × Polls L}
    (hp : (polling cfg).ReachableUnder (fun p a => Serving p.1 a ∧ Delivers p a) p) :
    (∀ t ptr mask, .handleEvent ptr mask ∈ p.1.stack t → p.2.revents ptr = mask) ∧
    ∀ l ready q, p.1.stack (.loop l) = [.poll l] → Delivers p (.exec (.loop l) (.polled ready)) →
      (polling cfg).step p (.exec (.loop l) (.polled ready)) = some q →
      ∃ polled, EPollPoller.poll (p.2.events l) p.2.revents [] (.ready (p.1.delivered l ready)) =
          some polled ∧ polled.exited = false ∧ polled.revents = q.2.revents ∧
        q.1.stack (.loop l) = polled.activeChannels.map
          (fun ptr => .handleEvent ptr (polled.revents ptr)) ++ [.beginPendingFunctors l] := by
  have hground := ground_of_polling (fun _ _ h => h.1) hp
  constructor
  · have hinit : ∀ p, (polling cfg).init p → Ground cfg p.1 ∧ Stored p := by
      intro p h
      refine ⟨ground_start h.1, fun t ptr mask hmem => ?_⟩
      rw [h.1.stack t] at hmem
      exact absurd hmem List.not_mem_nil
    have hboth : Ground cfg p.1 ∧ Stored p :=
      Machine.ReachableUnder.invariant hinit (fun p a q hI hP hstep =>
        ⟨ground_step hI.1 hP.1 (step_of_system (Machine.recording_step hstep).1),
          stored_step hI.1 hP.1 hP.2 hI.2 hstep⟩) hp
    exact hboth.2
  · intro l ready q hpoll hdelivers hstep
    obtain ⟨hsystem, hrecord⟩ := Machine.recording_step hstep
    have hserving : Serving p.1 (.exec (.loop l) (.polled ready)) := trivial
    have hnow : p.1.polled? (.exec (.loop l) (.polled ready)) = some (l, p.1.delivered l ready) :=
      if_pos (by rw [hpoll]; rfl)
    rcases polled_cases hground hserving (step_of_system hsystem) with ⟨hnone, -⟩ |
      ⟨m, ready', hpolled, hready, hself, -⟩
    · rw [hnow] at hnone
      contradiction
    · have hsame : some (l, p.1.delivered l ready) = some (m, p.1.delivered m ready') :=
        hnow.symm.trans hpolled
      obtain ⟨rfl, hbatch⟩ := Prod.mk.inj (Option.some.inj hsame)
      have hlength := hdelivers.length_le hpolled
      have hnodup := hground.nodup_batch (l := l) hready
      have hrevents : q.2.revents = EPollPoller.stored p.2.revents (p.1.delivered l ready') := by
        rw [hrecord, hpolled]
        exact Polls.poll_revents hlength
      rw [hbatch, EPollPoller.poll_ready _ hlength]
      refine ⟨_, rfl, rfl, hrevents.symm, ?_⟩
      have hmasks : ((p.1.delivered l ready').map Prod.fst).map
          (fun ptr => (ptr, EPollPoller.stored p.2.revents (p.1.delivered l ready') ptr)) =
          p.1.delivered l ready' := EPollPoller.revents_poll hnodup
      rw [hself]
      congr 1
      conv_lhs => rw [← hmasks]
      rw [List.map_map]
      rfl

/-- The base loop polls, and the kernel reports a connection to accept. -/
theorem dispatch_sees_poll_accept :
    ∃ p q : State Bool Unit × Polls Bool, p.1.stack (.loop false) = [.poll false] ∧
      (polling twoLoops).step p (.exec (.loop false) (.polled [(6, EPOLLIN)])) = some q ∧
      q.2.revents .acceptor = EPOLLIN ∧
      ∃ polled, EPollPoller.poll (p.2.events false) p.2.revents []
          (.ready (p.1.delivered false [(6, EPOLLIN)])) = some polled ∧ polled.exited = false ∧
        polled.revents = q.2.revents ∧
        q.1.stack (.loop false) = polled.activeChannels.map
          (fun ptr => .handleEvent ptr (polled.revents ptr)) ++ [.beginPendingFunctors false] := by
  have hrun : ∃ p q, (polling twoLoops).runUnder (fun p a => Serving p.1 a ∧ Delivers p a)
      (State.make twoLoops, .start) (acceptOne.take 4) = some p ∧
      p.1.stack (.loop false) = [.poll false] ∧
      Delivers p (.exec (.loop false) (.polled [(6, EPOLLIN)])) ∧
      (polling twoLoops).step p (.exec (.loop false) (.polled [(6, EPOLLIN)])) = some q ∧
      .handleEvent .acceptor EPOLLIN ∈ q.1.stack (.loop false) :=
    ⟨_, _, rfl, rfl, by decide, rfl, List.mem_cons_self⟩
  obtain ⟨p, q, hp, hpoll, hdelivers, hstep, hmem⟩ := hrun
  have hinit : (polling twoLoops).init (State.make twoLoops, .start) := ⟨start_make twoLoops, rfl⟩
  have hreach : (polling twoLoops).ReachableUnder (fun p a => Serving p.1 a ∧ Delivers p a) p :=
    Machine.ReachableUnder.runUnder _ (.init hinit) hp
  have hserving : Serving p.1 (.exec (.loop false) (.polled [(6, EPOLLIN)])) := trivial
  exact ⟨p, q, hpoll, hstep,
    (dispatch_sees_poll (hreach.step ⟨hserving, hdelivers⟩ hstep)).1 _ _ _ hmem,
    (dispatch_sees_poll hreach).2 false _ q hpoll hdelivers hstep⟩

omit [DecidableEq L] [DecidableEq U] [Fintype L] in
/-- There are no more connections than have been accepted. -/
theorem Ledger.ncard_le (h : Ledger cfg s) : s.existing.ncard ≤ s.nextConnId := by
  have hmaps : Set.MapsTo ConnPtr.id s.existing (Set.Iio s.nextConnId) := by
    intro c hc
    obtain ⟨conn, hconn⟩ := Option.isSome_iff_exists.mp hc
    exact h.id_lt c conn hconn
  calc s.existing.ncard
      ≤ (Set.Iio s.nextConnId).ncard :=
        Set.ncard_le_ncard_of_injOn ConnPtr.id hmaps
          (fun c hc d hd heq => h.id_injective c d hc hd heq) (Set.finite_Iio _)
    _ = s.nextConnId := by simp [Set.ncard_eq_toFinset_card']

theorem reachable_few {N : ℕ} {p : State L U × Polls L}
    (hp : (polling cfg).ReachableUnder
      (fun p a => Serving p.1 a ∧ Delivers p a ∧ p.1.nextConnId ≤ N) p) :
    (polling cfg).ReachableUnder
      (fun p a => Serving p.1 a ∧ Delivers p a ∧ p.1.existing.ncard ≤ N) p := by
  induction hp with
  | init hinit => exact .init hinit
  | step _ hP hstep ih =>
    have hground := ground_of_polling (fun _ _ h => h.1) ih
    exact .step ih ⟨hP.1, hP.2.1, hground.ledger.ncard_le.trans hP.2.2⟩ hstep

/-- An array starts with 16 entries and has twice as many after each poll that has filled
it; while there are at most `N` connections at once it never outgrows twice the channels
of a loop, and where these are fewer than `2 ^ 30`, `epoll_wait` is told its true size. -/
theorem event_list_size {N : ℕ} {p : State L U × Polls L}
    (hp : (polling cfg).ReachableUnder
      (fun p a => Serving p.1 a ∧ Delivers p a ∧ p.1.existing.ncard ≤ N) p) (l : L) :
    (p.2.events l).length = 16 * 2 ^ p.2.full l ∧
    (p.2.full l ≠ 0 → (p.2.events l).length ≤ 2 * (N + 2)) ∧
    (N + 2 < 2 ^ 30 → EPollPoller.maxevents (p.2.events l) = (p.2.events l).length) := by
  have hinit : ∀ p, (polling cfg).init p → Ground cfg p.1 ∧ Sized N p.2 := by
    intro p h
    refine ⟨ground_start h.1, fun l => ?_⟩
    rw [h.2]
    exact ⟨rfl, fun hne => absurd rfl hne⟩
  have hboth : Ground cfg p.1 ∧ Sized N p.2 :=
    Machine.ReachableUnder.invariant hinit (fun p a q hI hP hstep =>
      ⟨ground_step hI.1 hP.1 (step_of_system (Machine.recording_step hstep).1),
        sized_step hI.1 hP.1 hP.2.1 hP.2.2 hI.2 hstep⟩) hp
  obtain ⟨hsize, hbound⟩ := hboth.2 l
  refine ⟨hsize, hbound, fun hN => EPollPoller.maxevents_eq ?_⟩
  by_cases hfull : p.2.full l = 0
  · rw [hsize, hfull]
    decide
  · have hle := hbound hfull
    omega

/-- A server without io loops. -/
def baseOnly : Config Bool Unit := { twoLoops with loops := [] }

/-- One connection is accepted and established on the base loop. -/
def acceptHere (connfd : ℕ) : List (Label Bool Unit) :=
  [.exec (.loop false) (.polled [(6, EPOLLIN)]), .exec (.loop false) (.accepted (some connfd)),
    .exec (.loop false) .none, .callbackReturn (.loop false)] ++
    List.replicate 4 (.exec (.loop false) .none)

/-- 14 connections are accepted, and then all 16 channels of the loop are ready at once. -/
def pollAll : List (Label Bool Unit) :=
  [.setThreadNum (.loop false), .exec (.loop false) .none, .loop false,
    .exec (.loop false) .none] ++
  (List.range 14).flatMap (fun k => acceptHere (7 + k)) ++
  [.exec (.loop false)
    (.polled ((4, EPOLLIN) :: (List.range 15).map fun k => (6 + k, EPOLLIN)))]

theorem event_list_size_doubled :
    ∃ p : State Bool Unit × Polls Bool, p.2.full false = 1 ∧
      (p.2.events false).length = 16 * 2 ^ 1 ∧ (p.2.events false).length ≤ 2 * (15 + 2) ∧
      EPollPoller.maxevents (p.2.events false) = (p.2.events false).length := by
  have hrun : ((polling baseOnly).runUnder
      (fun p a => Serving p.1 a ∧ Delivers p a ∧ p.1.nextConnId ≤ 15)
      (State.make baseOnly, .start) pollAll).map (fun p => p.2.full false) = some 1 := by
    decide +kernel
  obtain ⟨p, hp, hfull⟩ := Option.map_eq_some_iff.mp hrun
  have hinit : (polling baseOnly).init (State.make baseOnly, .start) :=
    ⟨start_make baseOnly, rfl⟩
  have hreach := reachable_few (Machine.ReachableUnder.runUnder _ (.init hinit) hp)
  obtain ⟨hsize, hbound, hcast⟩ := event_list_size hreach false
  rw [hfull] at hsize hbound
  exact ⟨p, hfull, hsize, hbound (by decide), hcast (by decide)⟩

end Step

end TcpServer

end Moduo
