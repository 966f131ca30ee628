/-
The account of the destructions of a connection.

`destructions c` counts the `connectionDestroyed` of connection `c` together:
those executed, and those that wait in a queue or on a stack.

* `destructions_step` — every step but the destructor adds one exactly when it
  runs the removal of `c`;
* `untouched_reachable` — so a connection that is still registered has none.
-/
import Moduo.Registry

namespace Moduo

namespace TcpServer

variable {L U : Type*}

/-- The functor that an instruction hands on or runs. -/
def Instr.functor? : Instr L → Option (Functor L)
  | .functor f => some f
  | .queueInLoop _ f => some f
  | _ => none

def destroyWeight [DecidableEq L] (c : ConnPtr L) (i : Instr L) : ℕ :=
  if i.functor? = some (.connectionDestroyed c) then 1 else 0

namespace State

variable [DecidableEq L]

/-- How often `connectionDestroyed` of `c` waits in a queue or on a stack. -/
def outstanding [Fintype L] (s : State L U) (c : ConnPtr L) : ℕ := tokens (destroyWeight c) s

/-- How often it was executed on the loop of `c`. -/
def executed [DecidableEq U] (s : State L U) (c : ConnPtr L) : ℕ :=
  s.log.count (.member (.loop c.loop) c .connectionDestroyed)

def destructions [Fintype L] [DecidableEq U] (s : State L U) (c : ConnPtr L) : ℕ :=
  s.executed c + s.outstanding c

end State

variable {cfg : Config L U} {s s' : State L U} {t : Thread L U} {i : Instr L} {o : Outcome}
  {is : List (Instr L)} {c : ConnPtr L}

/-! ### What an instruction spawns -/

theorem functor_runInLoop {l : L} {f g : Functor L} {j : Instr L}
    (hj : j ∈ cfg.runInLoop t l f) (hg : j.functor? = some g) : g = f := by
  rcases Config.mem_runInLoop hj with rfl | rfl
  · exact (Option.some.inj hg).symm
  · exact (Option.some.inj hg).symm

theorem functor_effects {d : ConnPtr L} {tr : List Effect} {j : Instr L} {f : Functor L}
    (hj : j ∈ tr.flatMap (effectInstrs d)) (hf : j.functor? = some f) :
    ∃ cb, f = .notice d cb := by
  rcases mem_effects hj with ⟨cb, rfl⟩ | rfl | rfl
  · exact ⟨cb, (Option.some.inj hf).symm⟩
  · contradiction
  · contradiction

/-- Destructions come from queues and from removals, removals from queues and
from `removeConnection`. -/
inductive Spawned (s : State L U) : Instr L → Functor L → Prop
  | swap {l : L} {f : Functor L} : f ∈ (s.loops l).pendingFunctors → Spawned s (.swap l) f
  | removeConnectionInLoop {c : ConnPtr L} :
      Spawned s (.functor (.removeConnectionInLoop c)) (.connectionDestroyed c)
  | removeConnection {c : ConnPtr L} :
      Spawned s (.removeConnection c) (.removeConnectionInLoop c)
  | other {i : Instr L} {f : Functor L} : (∀ c, f ≠ .connectionDestroyed c) →
      (∀ c, f ≠ .removeConnectionInLoop c) → Spawned s i f

section Step

variable [DecidableEq L]

theorem spawned_runs (hruns : Runs cfg t s i o s' is) {j : Instr L} {f : Functor L}
    (hj : j ∈ is) (hf : j.functor? = some f) : Spawned s i f := by
  cases hruns with
  | calls =>
    obtain ⟨cb, rfl⟩ := functor_effects hj hf
    exact .other (by simp) (by simp)
  | poll =>
    rcases List.mem_append.mp hj with hj | hj
    · obtain ⟨b, -, e, -, rfl⟩ := mem_activeChannels hj
      contradiction
    · obtain rfl := List.mem_singleton.mp hj
      contradiction
  | swap =>
    rcases List.mem_append.mp hj with hj | hj
    · obtain ⟨g, hg, rfl⟩ := List.mem_map.mp hj
      obtain rfl := Option.some.inj hf
      exact .swap hg
    · obtain rfl := List.mem_singleton.mp hj
      contradiction
  | removeConnectionInLoop =>
    obtain rfl := List.mem_singleton.mp hj
    obtain rfl := Option.some.inj hf
    exact .removeConnectionInLoop
  | newConnection =>
    obtain rfl := functor_runInLoop hj hf
    exact .other (by simp) (by simp)
  | setDisconnecting =>
    obtain rfl := functor_runInLoop hj hf
    exact .other (by simp) (by simp)
  | removeConnection =>
    obtain rfl := functor_runInLoop hj hf
    exact .removeConnection
  | handleEvent =>
    rcases mem_eventCallbacks hj with rfl | rfl | rfl | rfl | rfl
    all_goals contradiction
  | destroyFound =>
    rcases List.mem_pair.mp hj with rfl | rfl
    · contradiction
    · contradiction
  | quit =>
    obtain rfl := Config.mem_quit hj
    contradiction
  | leave => exact absurd hj List.not_mem_nil
  | listen => exact absurd hj List.not_mem_nil
  | noWakeup => exact absurd hj List.not_mem_nil
  | wakeup => exact absurd hj List.not_mem_nil
  | handleWakeup => exact absurd hj List.not_mem_nil
  | ignored => exact absurd hj List.not_mem_nil
  | unguard => exact absurd hj List.not_mem_nil
  | join => exact absurd hj List.not_mem_nil
  | removeAcceptor => exact absurd hj List.not_mem_nil
  | _ =>
    obtain rfl := List.mem_singleton.mp hj
    contradiction

/-! ### What an instruction executes -/

section Log

variable [DecidableEq U]

theorem executed_append {events : List (Event L U)} (hlog : s'.log = s.log ++ events)
    (hevents : .member (.loop c.loop) c .connectionDestroyed ∉ events) :
    s'.executed c = s.executed c := by
  rw [State.executed, hlog, List.count_append, List.count_eq_zero_of_not_mem hevents]
  rfl

theorem executed_destroyed {d : ConnPtr L}
    (hlog : s'.log = s.log ++ [.member (.loop d.loop) d .connectionDestroyed]) :
    s'.executed c = s.executed c + if d = c then 1 else 0 := by
  rw [State.executed, hlog, List.count_append, List.count_singleton, State.executed]
  by_cases hd : d = c
  · subst hd
    simp
  · simp [hd]

omit [DecidableEq L] [DecidableEq U] in
theorem Calls.not_destroys {d : ConnPtr L} {conn : TcpConnection} {events : List (Event L U)}
    {f : Endpoint (ChannelPtr L) → Endpoint (ChannelPtr L)} (h : Calls t d conn i o events f) :
    i ≠ .functor (.connectionDestroyed c) ∧
      .member (.loop c.loop) c .connectionDestroyed ∉ events := by
  cases h <;> simp

/-- Only its functor executes `connectionDestroyed`. -/
theorem executed_runs (hi : Placed cfg t i) (hruns : Runs cfg t s i o s' is) :
    s'.executed c = s.executed c + if i = .functor (.connectionDestroyed c) then 1 else 0 := by
  cases hruns with
  | @calls d conn _ _ events f hconn hcalls =>
    obtain ⟨hnot, hevents⟩ := hcalls.not_destroys (c := c)
    rw [if_neg hnot]
    refine executed_append (s := s) (List.append_assoc _ _ _) fun hmem => ?_
    rcases List.mem_append.mp hmem with hmem | hmem
    · exact hevents hmem
    · obtain ⟨x, -, hx⟩ := List.mem_filterMap.mp hmem
      cases x <;> simp [effectEvent] at hx
  | @destroyFound d =>
    -- executed on the loop of the connection, as its event says
    obtain rfl : t = .loop d.loop := hi.thread rfl
    rw [executed_destroyed (s := s) (d := d) rfl]
    simp
  | @destroySkips d =>
    obtain rfl : t = .loop d.loop := hi.thread rfl
    rw [executed_destroyed (s := s) (d := d) rfl]
    simp
  | removeConnectionInLoop => exact executed_append (s := s) rfl (by simp)
  | newConnection => exact executed_append (s := s) rfl (by simp)
  | removeConnection => exact executed_append (s := s) rfl (by simp)
  | _ => rfl

end Log

/-! ### The account -/

theorem fair_destroyWeight (c : ConnPtr L) : Fair (destroyWeight c) where
  queueInLoop _ _ := rfl
  listen := rfl
  notice _ _ := rfl
  user := rfl
  testQuit _ := rfl
  poll _ := rfl
  beginPendingFunctors _ := rfl
  swap _ := rfl
  endPendingFunctors _ := rfl
  testWakeup _ := rfl
  wakeup _ := rfl

/-- The instructions hand on no destruction. -/
def Idle (is : List (Instr L)) : Prop :=
  ∀ j ∈ is, ∀ c, j.functor? ≠ some (.connectionDestroyed c)

theorem Idle.weight (h : Idle is) : weight (destroyWeight c) is = 0 :=
  weight_eq_zero fun j hj => if_neg (h j hj c)

omit [DecidableEq L] in
theorem idle_runInLoop {l : L} {f : Functor L} (hf : ∀ c, f ≠ .connectionDestroyed c) :
    Idle (cfg.runInLoop t l f) :=
  fun _ hj c hc => hf c (functor_runInLoop hj hc).symm

theorem idle_runs (hswap : ∀ l, i ≠ .swap l)
    (hremove : ∀ d, i ≠ .functor (.removeConnectionInLoop d))
    (hruns : Runs cfg t s i o s' is) : Idle is := by
  intro j hj d hd
  cases spawned_runs hruns hj hd with
  | swap => exact hswap _ rfl
  | removeConnectionInLoop => exact hremove _ rfl
  | other hnot => exact hnot d rfl

variable [DecidableEq U] [Fintype L]

/-- One instruction of a loop thread: only a removal adds a destruction. -/
theorem destructions_exec {l : L} {rest : List (Instr L)} (hi : Placed cfg (.loop l) i)
    (hstack : s.stack (.loop l) = i :: rest) (hruns : Runs cfg (.loop l) s i o s' is) :
    (s'.setStack (.loop l) (is ++ rest)).destructions c =
      s.destructions c + if i = .functor (.removeConnectionInLoop c) then 1 else 0 := by
  have hexecuted := executed_runs (c := c) hi hruns
  have hlog : (s'.setStack (.loop l) (is ++ rest)).executed c = s'.executed c := rfl
  rw [State.destructions, State.destructions, hlog, hexecuted]
  rcases Bool.eq_false_or_eq_true i.transfers with htransfer | htransfer
  · -- between the queue and the stack, a functor only changes its place
    have hsame : (s'.setStack (.loop l) (is ++ rest)).outstanding c = s.outstanding c :=
      tokens_transfer (fair_destroyWeight c) hstack hruns htransfer
    rw [hsame, if_neg (by rintro rfl; contradiction),
      if_neg (by rintro rfl; contradiction)]
    rfl
  have hcount : (s'.setStack (.loop l) (is ++ rest)).outstanding c + destroyWeight c i =
      s.outstanding c + weight (destroyWeight c) is := tokens_runs hstack hruns htransfer
  by_cases hremove : ∃ d, i = .functor (.removeConnectionInLoop d)
  · obtain ⟨d, rfl⟩ := hremove
    cases hruns with
    | calls _ hcalls => cases hcalls
    | removeConnectionInLoop =>
      rw [weight_cons, weight_nil] at hcount
      simp only [destroyWeight, Instr.functor?, Option.some.injEq, reduceCtorEq, if_false,
        Functor.connectionDestroyed.injEq] at hcount
      simp only [Instr.functor.injEq, reduceCtorEq, if_false,
        Functor.removeConnectionInLoop.injEq]
      omega
  · -- what is executed is no longer outstanding, and nothing else is added
    have hidle : Idle is := by
      refine idle_runs (fun m => ?_) (fun d heq => hremove ⟨d, heq⟩) hruns
      rintro rfl
      contradiction
    have hweight : destroyWeight c i = if i = .functor (.connectionDestroyed c) then 1 else 0 := by
      cases i with
      | functor f => simp [destroyWeight, Instr.functor?]
      | queueInLoop m f => contradiction
      | _ => rfl
    rw [hidle.weight, hweight] at hcount
    rw [if_neg fun heq => hremove ⟨c, heq⟩]
    omega

/-- What a thread without a loop has to do. -/
def Bystanders (s : State L U) : Prop := ∀ u, Idle (s.stack (.user u))

/-- One instruction of another thread adds none. -/
theorem destructions_user {u : U} {js : List (Instr L)} (hi : Placed cfg (.user u) i)
    (hfunctor : ∀ c, i.functor? ≠ some (.connectionDestroyed c))
    (hruns : Runs cfg (.user u) s i o s' is) :
    (s'.setStack (.user u) js).destructions c = s.destructions c := by
  have hexecuted := executed_runs (c := c) hi hruns
  rw [if_neg (by rintro rfl; exact hfunctor c rfl)] at hexecuted
  have houtstanding : tokens (destroyWeight c) s' = tokens (destroyWeight c) s := by
    rcases Bool.eq_false_or_eq_true i.transfers with htransfer | htransfer
    · cases hruns with
      | calls _ hcalls => exact absurd htransfer (by simp [hcalls.not_transfers])
      | swap => exact absurd (hi.thread rfl) (by simp)
      | @queueInLoop m f =>
        have hloop := tokens_setLoop (w := destroyWeight c) (s := s) m ((s.loops m).push f)
        have hf : destroyWeight c (.functor f) = 0 := if_neg (hfunctor c)
        have hpush : weight (destroyWeight c) (((s.loops m).push f).pendingFunctors.map .functor) =
            weight (destroyWeight c) ((s.loops m).pendingFunctors.map .functor) := by
          rw [EventLoop.push, List.map_append, weight_append, List.map_singleton, weight_cons, hf]
          rfl
        omega
      | _ => contradiction
    · exact places_runs hruns htransfer
  rw [State.destructions, State.outstanding, tokens_setStack_user, houtstanding]
  have hlog : (s'.setStack (.user u) js).executed c = s'.executed c := rfl
  rw [hlog, hexecuted]
  rfl

theorem destructions_push (his : Idle is) :
    (s.push t is).destructions c = s.destructions c := by
  have hpush : tokens (destroyWeight c) (s.push t is) = tokens (destroyWeight c) s := by
    cases t with
    | loop l =>
      have hpush := tokens_push (w := destroyWeight c) (s := s) l is
      rwa [his.weight] at hpush
    | user u => exact tokens_setStack_user u _
  rw [State.destructions, State.outstanding, hpush]
  rfl

/-- A callback returns. -/
theorem destructions_pop {rest : List (Instr L)} (hstack : s.stack t = .user :: rest) :
    (s.setStack t rest).destructions c = s.destructions c := by
  have hpop : tokens (destroyWeight c) (s.setStack t rest) = tokens (destroyWeight c) s := by
    cases t with
    | loop l =>
      have hset := tokens_setStack (w := destroyWeight c) (s := s) l rest
      rw [hstack, weight_cons, (fair_destroyWeight c).user] at hset
      omega
    | user u => exact tokens_setStack_user u _
  rw [State.destructions, State.outstanding, hpop]
  rfl

theorem destructions_setLoop {l : L} {loop : EventLoop (Functor L)}
    (hq : loop.pendingFunctors = (s.loops l).pendingFunctors) :
    (s.setLoop l loop).destructions c = s.destructions c := by
  rw [State.destructions, State.outstanding, tokens_setLoop_same hq]
  rfl

/-- Every step but the destructor adds a destruction exactly when it is a
removal. -/
theorem destructions_step {a : Label L U} (hconfined : Confined cfg s) (hidle : Bystanders s)
    (ha : a.isDestroyServer = false) (h : step cfg s a = some s') :
    s'.destructions c =
      s.destructions c + if change cfg s a = some (.removed c) then 1 else 0 := by
  by_cases hexec : ∃ t o, a = .exec t o
  · obtain ⟨t, o, rfl⟩ := hexec
    obtain ⟨i, rest, r, hstack, hr, rfl⟩ := exec_of_step h
    have hi : i ∈ s.stack t := hstack ▸ List.mem_cons_self
    have hplaced := hconfined.stack t i hi
    have hchange : change cfg s (.exec t o) = some (.removed c) ↔
        i = .functor (.removeConnectionInLoop c) := by
      rw [change, hstack]
      exact instrChange_eq_removed
    simp only [hchange]
    cases t with
    | loop l => exact destructions_exec hplaced hstack (runs_of_exec hr)
    | user u =>
      rw [if_neg]
      · exact destructions_user hplaced (hidle u i hi) (runs_of_exec hr)
      · rintro rfl
        exact absurd (hplaced.thread rfl) (by simp)
  rw [change_of_not_exec fun t o heq => hexec ⟨t, o, heq⟩, if_neg (by simp), Nat.add_zero]
  cases move_of_step h with
  | exec => exact absurd ⟨_, _, rfl⟩ hexec
  | callbackReturn hstack => exact destructions_pop hstack
  | send => exact destructions_push (idle_runInLoop (by simp))
  | shutdown => exact destructions_push (by simp [Idle, Instr.functor?])
  | refused => rfl
  | setThreadNum => exact destructions_push (idle_runInLoop (by simp))
  | loop =>
    exact (destructions_push (by simp [Idle, Instr.functor?])).trans (destructions_setLoop rfl)
  | quit =>
    refine (destructions_push fun j hj c hc => ?_).trans (destructions_setLoop rfl)
    obtain rfl := Config.mem_quit hj
    contradiction
  | destroyServer => contradiction
  | @destroyConnection d =>
    have hexecuted : (s.free d).executed c = s.executed c :=
      executed_append (s := s) rfl (by simp)
    rw [State.destructions, hexecuted]
    rfl

/-- A thread without a loop never has a destruction to hand on. -/
theorem bystanders_move {a : Label L U} (hconfined : Confined cfg s) (h : Bystanders s)
    (hmove : Move cfg s a s') : Bystanders s' := by
  intro u j hj
  cases comes_move hmove hj with
  | kept hold => exact h u j hold
  | @follows o i rest is s₁ _ hstack hruns hnew =>
    -- neither a swap nor a removal runs on such a thread
    have hplaced := hconfined.stack _ i (hstack ▸ List.mem_cons_self)
    refine idle_runs (fun l => ?_) (fun d => ?_) hruns j hnew
    · rintro rfl
      exact absurd (hplaced.thread rfl) (by simp)
    · rintro rfl
      exact absurd (hplaced.thread rfl) (by simp)
  | pushed hpushed =>
    cases hpushed with
    | send hmem => exact idle_runInLoop (by simp) j hmem
    | setThreadNum hmem => exact idle_runInLoop (by simp) j hmem
    | shutdown => exact fun c hc => by contradiction
    | quit => exact fun c hc => by contradiction

/-- Destructions are queued from the base loop only. -/
def Senders (cfg : Config L U) (s : State L U) : Prop :=
  ∀ t l c, .queueInLoop l (.connectionDestroyed c) ∈ s.stack t → t = .loop cfg.base

omit [DecidableEq U] [Fintype L] in
theorem sends_runs {l : L} (hruns : Runs cfg t s i o s' is)
    (hj : .queueInLoop l (.connectionDestroyed c) ∈ is) :
    i = .functor (.removeConnectionInLoop c) := by
  cases spawned_runs hruns hj rfl with
  | swap =>
    cases hruns with
    | calls _ hcalls => cases hcalls
    | swap => simp at hj
  | removeConnectionInLoop => rfl
  | other hnot => exact absurd rfl (hnot c)

theorem senders_move {a : Label L U} (hconfined : Confined cfg s) (h : Senders cfg s)
    (hmove : Move cfg s a s') : Senders cfg s' := by
  intro t l c hmem
  cases comes_move hmove hmem with
  | kept hold => exact h t l c hold
  | follows _ hstack hruns hnew =>
    -- a removal, which runs on the base loop
    obtain rfl := sends_runs hruns hnew
    exact (hconfined.stack t _ (hstack ▸ List.mem_cons_self)).thread rfl
  | pushed hpushed =>
    cases hpushed with
    | send hsend => exact absurd (functor_runInLoop hsend rfl) (by simp)
    | setThreadNum hlisten => exact absurd (functor_runInLoop hlisten rfl) (by simp)
    | destroyServer => rfl

/-! ### Before the destructor -/

/-- A connection that is registered, or not yet created, is not to be destroyed. -/
structure Unclaimed (cfg : Config L U) (s : State L U) : Prop where
  names : ∀ item ∈ s.connections, item.1 = cfg.connName item.2.id ∧ item.2.id < s.nextConnId
  nodup : (s.connections.map Prod.fst).Nodup
  unborn : ∀ c, s.nextConnId ≤ c.id → s.destructions c = 0
  kept : ∀ item ∈ s.connections, s.destructions item.2 = 0

structure Untouched (cfg : Config L U) (s : State L U) : Prop where
  confined : Confined cfg s
  bystanders : Bystanders s
  senders : Senders cfg s
  sources : Sources (fun c => c.id < s.nextConnId) s
  unclaimed : Unclaimed cfg s

theorem Unclaimed.created (h : Unclaimed cfg s) (hc : c.id = s.nextConnId)
    (hid : s'.nextConnId = s.nextConnId + 1)
    (hconnections : s'.connections = (cfg.connName s.nextConnId, c) ::
      s.connections.filter fun item => item.1 ≠ cfg.connName s.nextConnId)
    (hcount : ∀ d, s'.destructions d = s.destructions d) : Unclaimed cfg s' := by
  have hcases : ∀ item ∈ s'.connections, item = (cfg.connName s.nextConnId, c) ∨
      item ∈ s.connections := by
    intro item hitem
    rw [hconnections] at hitem
    rcases List.mem_cons.mp hitem with rfl | hold
    · exact .inl rfl
    · exact .inr (List.mem_filter.mp hold).1
  refine ⟨?_, ?_, ?_, ?_⟩
  · intro item hitem
    rcases hcases item hitem with rfl | hold
    · refine ⟨by rw [hc], ?_⟩
      show c.id < s'.nextConnId
      omega
    · obtain ⟨hname, hlt⟩ := h.names item hold
      exact ⟨hname, by omega⟩
  · rw [hconnections, List.map_cons, List.nodup_cons]
    refine ⟨fun hmem => ?_, h.nodup.sublist (List.filter_sublist.map Prod.fst)⟩
    obtain ⟨item, hitem, hname⟩ := List.mem_map.mp hmem
    exact absurd hname (by simpa using (List.mem_filter.mp hitem).2)
  · intro d hd
    rw [hcount, h.unborn d (by omega)]
  · intro item hitem
    rcases hcases item hitem with rfl | hold
    · rw [hcount, h.unborn c hc.ge]
    · rw [hcount, h.kept item hold]

theorem Unclaimed.removed (h : Unclaimed cfg s) (hc : c.id < s.nextConnId)
    (hid : s'.nextConnId = s.nextConnId)
    (hconnections : s'.connections =
      s.connections.filter fun item => item.1 ≠ cfg.connName c.id)
    (hcount : ∀ d, d ≠ c → s'.destructions d = s.destructions d) : Unclaimed cfg s' := by
  -- the entry of `c` is under its own name
  have hold : ∀ item ∈ s'.connections, item ∈ s.connections ∧ item.2 ≠ c := by
    intro item hitem
    rw [hconnections] at hitem
    obtain ⟨hmem, hname⟩ := List.mem_filter.mp hitem
    refine ⟨hmem, ?_⟩
    rintro rfl
    exact absurd (h.names item hmem).1 (by simpa using hname)
  refine ⟨?_, ?_, ?_, ?_⟩
  · intro item hitem
    rw [hid]
    exact h.names item (hold item hitem).1
  · rw [hconnections]
    exact h.nodup.sublist (List.filter_sublist.map Prod.fst)
  · intro d hd
    have hne : d ≠ c := by
      rintro rfl
      omega
    rw [hcount d hne, h.unborn d (hid ▸ hd)]
  · intro item hitem
    obtain ⟨hmem, hne⟩ := hold item hitem
    rw [hcount _ hne, h.kept item hmem]

theorem untouched_start (h : Start cfg s) : Untouched cfg s := by
  have hnone : ∀ c, s.destructions c = 0 := by
    intro c
    have hlog : s.executed c = 0 := by
      rw [State.executed, h.log]
      rfl
    have hplaces : s.outstanding c = 0 := by
      refine tally_eq_zero fun p i hi => ?_
      rcases p with l | l
      · have hstack : places s (.inl l) = [] := h.stack (.loop l)
        rw [hstack] at hi
        exact absurd hi List.not_mem_nil
      · have hqueue : (s.loops l).pendingFunctors = [] := by
          rw [h.loops]
          rfl
        rw [places, hqueue] at hi
        exact absurd hi List.not_mem_nil
    rw [State.destructions, hlog, hplaces]
  refine ⟨confined_start h, fun u => ?_, fun t l c hmem => ?_, sources_start h, ?_, ?_,
    fun c _ => hnone c, fun item _ => hnone item.2⟩
  · rw [h.stack]
    exact fun j hj => absurd hj List.not_mem_nil
  · rw [h.stack] at hmem
    exact absurd hmem List.not_mem_nil
  · rw [h.connections]
    exact fun item hitem => absurd hitem List.not_mem_nil
  · rw [h.connections]
    exact List.nodup_nil

theorem untouched_step {a : Label L U} (h : Untouched cfg s) (ha : a.isDestroyServer = false)
    (hstep : step cfg s a = some s') : Untouched cfg s' := by
  have hmove := move_of_step hstep
  have hregisters := registers_step ha hstep
  have hcount := fun c => destructions_step (c := c) h.confined h.bystanders ha hstep
  have hsources : (∀ c, change cfg s a = some (.created c) → c.id < s'.nextConnId) →
      s.nextConnId ≤ s'.nextConnId → Sources (fun c => c.id < s'.nextConnId) s' :=
    fun hnew hle => sources_step (h.sources.mono fun c hc => hc.trans_le hle) hnew hstep
  have hremoved : ∀ c, change cfg s a = some (.removed c) → c.id < s.nextConnId :=
    fun _ => h.sources.removed
  have hconfined := confined_move h.confined hmove
  have hbystanders := bystanders_move h.confined h.bystanders hmove
  have hsenders := senders_move h.confined h.senders hmove
  generalize change cfg s a = x at hregisters hcount hsources hremoved
  cases hregisters with
  | none hconnections hid =>
    have hsame : ∀ c, s'.destructions c = s.destructions c := hcount
    refine ⟨hconfined, hbystanders, hsenders, hsources (by simp) hid.ge, ?_, ?_, ?_, ?_⟩
    · rw [hconnections, hid]
      exact h.unclaimed.names
    · rw [hconnections]
      exact h.unclaimed.nodup
    · intro c hc
      rw [hsame, h.unclaimed.unborn c (hid ▸ hc)]
    · intro item hitem
      rw [hsame, h.unclaimed.kept item (hconnections ▸ hitem)]
  | @created c _ hc hid hconnections =>
    refine ⟨hconfined, hbystanders, hsenders, hsources (fun d hd => ?_) (by omega),
      h.unclaimed.created hc hid hconnections hcount⟩
    obtain rfl : c = d := Change.created.inj (Option.some.inj hd)
    omega
  | @removed c _ hid hconnections =>
    refine ⟨hconfined, hbystanders, hsenders, hsources (by simp) hid.ge,
      h.unclaimed.removed (hremoved c rfl) hid hconnections fun d hd => ?_⟩
    rw [hcount, if_neg fun heq => hd (Change.removed.inj (Option.some.inj heq)).symm,
      Nat.add_zero]

theorem untouched_reachable
    (hs : (system cfg).ReachableUnder (fun _ a => a.isDestroyServer = false) s) :
    Untouched cfg s :=
  hs.invariant (fun _ h => untouched_start h)
    fun _ _ _ h ha hstep => untouched_step h ha (step_of_system hstep)

end Step

end TcpServer

end Moduo
