/-
Where the work on a connection is.

The life of a connection is driven by a few instructions and functors, such as
the functor that establishes it.  They wait on the stacks of the loop threads
and in the queues of the loops; `tokens w s` is the total weight of what is
there, and moving a functor from a stack to a queue and back does not change it.
`tasks k c` counts the work of kind `k` on connection `c`.

* `tokens_runs`, `tokens_transfer` — the account of one instruction;
* `tasks_runs`, `tasks_same`, `tasks_user` — the same for `tasks`;
* `referenced_of_tasks` — work that holds a `shared_ptr` keeps a connection.
-/
import Moduo.Lib.Tally
import Moduo.ServerLoops

namespace Moduo

namespace TcpServer

variable {L U : Type*}

/-- The stacks of the loop threads, and the queues of the loops. -/
def places (s : State L U) : L ⊕ L → List (Instr L)
  | .inl l => s.stack (.loop l)
  | .inr l => (s.loops l).pendingFunctors.map .functor

def tokens [Fintype L] (w : Instr L → ℕ) (s : State L U) : ℕ := tally w (places s)

/-- A weight that the passage of a functor through a queue does not change, and
that control instructions do not carry. -/
structure Fair (w : Instr L → ℕ) : Prop where
  queueInLoop : ∀ l f, w (.queueInLoop l f) = w (.functor f)
  listen : w (.functor .listen) = 0
  notice : ∀ c cb, w (.functor (.notice c cb)) = 0
  user : w .user = 0
  testQuit : ∀ l, w (.testQuit l) = 0
  poll : ∀ l, w (.poll l) = 0
  beginPendingFunctors : ∀ l, w (.beginPendingFunctors l) = 0
  swap : ∀ l, w (.swap l) = 0
  endPendingFunctors : ∀ l, w (.endPendingFunctors l) = 0
  testWakeup : ∀ l, w (.testWakeup l) = 0
  wakeup : ∀ l, w (.wakeup l) = 0

/-- The instruction moves functors between a stack and a queue. -/
def Instr.transfers : Instr L → Bool
  | .swap _ => true
  | .queueInLoop _ _ => true
  | _ => false

theorem Calls.not_transfers {t : Thread L U} {c : ConnPtr L} {conn : TcpConnection} {i : Instr L}
    {o : Outcome} {events : List (Event L U)}
    {f : Endpoint (ChannelPtr L) → Endpoint (ChannelPtr L)} (h : Calls t c conn i o events f) :
    i.transfers = false := by
  cases h <;> rfl

section Step

variable [DecidableEq L] [DecidableEq U]

theorem places_setStack (s : State L U) (l : L) (is : List (Instr L)) :
    places (s.setStack (.loop l) is) = Function.update (places s) (.inl l) is := by
  funext p
  rcases p with m | m
  · by_cases hm : m = l
    · subst hm
      rw [Function.update_self]
      exact Function.update_self _ _ _
    · have hp : (.inl m : L ⊕ L) ≠ .inl l := fun h => hm (Sum.inl.inj h)
      have ht : (.loop m : Thread L U) ≠ .loop l := fun h => hm (Thread.loop.inj h)
      rw [Function.update_of_ne hp]
      exact Function.update_of_ne ht _ _
  · rw [Function.update_of_ne (by simp)]
    rfl

theorem places_setStack_user (s : State L U) (u : U) (is : List (Instr L)) :
    places (s.setStack (.user u) is) = places s := by
  funext p
  rcases p with m | m
  · have ht : (.loop m : Thread L U) ≠ .user u := by simp
    exact Function.update_of_ne ht is s.stack
  · rfl

omit [DecidableEq U] in
theorem places_setLoop (s : State L U) (l : L) (loop : EventLoop (Functor L)) :
    places (s.setLoop l loop) =
      Function.update (places s) (.inr l) (loop.pendingFunctors.map .functor) := by
  funext p
  rcases p with m | m
  · rw [Function.update_of_ne (by simp)]
    rfl
  · by_cases hm : m = l
    · subst hm
      rw [Function.update_self]
      simp only [places, State.setLoop, Function.update_self]
    · have hp : (.inr m : L ⊕ L) ≠ .inr l := fun h => hm (Sum.inr.inj h)
      rw [Function.update_of_ne hp]
      simp only [places, State.setLoop, Function.update_of_ne hm]

variable {w : Instr L → ℕ} {cfg : Config L U} {s s' : State L U}

variable [Fintype L]

/-- A loop thread goes from one stack to another. -/
theorem tokens_setStack (l : L) (is : List (Instr L)) :
    tokens w (s.setStack (.loop l) is) + weight w (s.stack (.loop l)) =
      tokens w s + weight w is := by
  rw [tokens, places_setStack]
  exact tally_update (Sum.inl l) is

theorem tokens_push (l : L) (is : List (Instr L)) :
    tokens w (s.push (.loop l) is) = tokens w s + weight w is := by
  have h := tokens_setStack (w := w) (s := s) l (is ++ s.stack (.loop l))
  rw [weight_append] at h
  rw [State.push]
  omega

theorem tokens_setStack_user (u : U) (is : List (Instr L)) :
    tokens w (s.setStack (.user u) is) = tokens w s := by
  rw [tokens, places_setStack_user, tokens]

omit [DecidableEq U] in
theorem tokens_setLoop (l : L) (loop : EventLoop (Functor L)) :
    tokens w (s.setLoop l loop) + weight w ((s.loops l).pendingFunctors.map .functor) =
      tokens w s + weight w (loop.pendingFunctors.map .functor) := by
  rw [tokens, places_setLoop]
  exact tally_update (Sum.inr l) _

omit [DecidableEq U] in
/-- A change of a loop that leaves its queue alone. -/
theorem tokens_setLoop_same {l : L} {loop : EventLoop (Functor L)}
    (hq : loop.pendingFunctors = (s.loops l).pendingFunctors) :
    tokens w (s.setLoop l loop) = tokens w s := by
  have h := tokens_setLoop (w := w) (s := s) l loop
  rw [hq] at h
  omega

omit [DecidableEq L] [DecidableEq U] in
theorem tokens_congr (hplaces : places s' = places s) : tokens w s' = tokens w s := by
  rw [tokens, hplaces, tokens]

omit [DecidableEq U] in
/-- Stacks and, but for a transfer, queues are not touched by an instruction. -/
theorem places_runs {t : Thread L U} {i : Instr L} {o : Outcome} {is : List (Instr L)}
    (hruns : Runs cfg t s i o s' is) (hi : i.transfers = false) : tokens w s' = tokens w s := by
  cases hruns with
  | swap => exact absurd hi (by simp [Instr.transfers])
  | queueInLoop => exact absurd hi (by simp [Instr.transfers])
  | beginPendingFunctors => exact tokens_setLoop_same rfl
  | endPendingFunctors => exact tokens_setLoop_same rfl
  | handleWakeup => exact tokens_setLoop_same rfl
  | wakeup => exact tokens_setLoop_same (EventLoop.wakeup_pendingFunctors _)
  | quit => exact tokens_setLoop_same rfl
  | _ => rfl

/-- An instruction that transfers nothing spends its own weight and adds that of
what follows. -/
theorem tokens_runs {l : L} {i : Instr L} {o : Outcome} {rest is : List (Instr L)}
    (hstack : s.stack (.loop l) = i :: rest) (hruns : Runs cfg (.loop l) s i o s' is)
    (hi : i.transfers = false) :
    tokens w (s'.setStack (.loop l) (is ++ rest)) + w i = tokens w s + weight w is := by
  have hset := tokens_setStack (w := w) (s := s') l (is ++ rest)
  rw [stack_runs hruns, hstack, weight_append, weight_cons, places_runs hruns hi] at hset
  omega

/-- A transfer leaves the total as it is. -/
theorem tokens_transfer (hw : Fair w) {l : L} {i : Instr L} {o : Outcome}
    {rest is : List (Instr L)} (hstack : s.stack (.loop l) = i :: rest)
    (hruns : Runs cfg (.loop l) s i o s' is) (hi : i.transfers = true) :
    tokens w (s'.setStack (.loop l) (is ++ rest)) = tokens w s := by
  have hset := tokens_setStack (w := w) (s := s') l (is ++ rest)
  rw [stack_runs hruns, hstack, weight_append, weight_cons] at hset
  cases hruns with
  | @swap m =>
    have hloop := tokens_setLoop (w := w) (s := s) m (s.loops m).swapFunctors
    have hempty : weight w ((s.loops m).swapFunctors.pendingFunctors.map .functor) = 0 := rfl
    have hbatch : weight w ((s.loops m).pendingFunctors.map .functor ++
        [.endPendingFunctors m]) = weight w ((s.loops m).pendingFunctors.map .functor) := by
      rw [weight_append, weight_cons, weight_nil, hw.endPendingFunctors]
      rfl
    have hswap := hw.swap m
    omega
  | @queueInLoop m f =>
    have hloop := tokens_setLoop (w := w) (s := s) m ((s.loops m).push f)
    have hpush : weight w (((s.loops m).push f).pendingFunctors.map .functor) =
        weight w ((s.loops m).pendingFunctors.map .functor) + w (.functor f) := by
      rw [EventLoop.push, List.map_append, weight_append]
      rfl
    rw [weight_cons, weight_nil, hw.queueInLoop, hw.testWakeup] at hset
    omega
  | calls _ hcalls => exact absurd hi (by simp [hcalls.not_transfers])
  | _ => exact absurd hi (by simp [Instr.transfers])

omit [DecidableEq L] [DecidableEq U] in
/-- Work that holds a `shared_ptr` to `c` is a reference to `c`. -/
theorem referenced_of_tokens {c : ConnPtr L} (hw : ∀ i, 0 < w i → i.holds c)
    (hpos : 0 < tokens w s) : s.Referenced c := by
  obtain ⟨p, i, hi, hwi⟩ := exists_of_tally_pos hpos
  rcases p with l | l
  · exact .inr (.inr ⟨l, i, hi, hw i hwi⟩)
  · obtain ⟨f, hf, rfl⟩ := List.mem_map.mp hi
    exact .inr (.inl ⟨l, f, hf, hw _ hwi⟩)

/-! ### The tasks in the life of a connection -/

/-- `report` is the call of `closeCallback_`, `remove` the way of the connection
from there through `removeConnectionInLoop` to `connectionDestroyed`, `unhook`
the removal of its channel. -/
inductive Task
  | establish
  | report
  | remove
  | unhook
  deriving DecidableEq, Repr

def Functor.task? : Functor L → Option (Task × ConnPtr L)
  | .connectionEstablished c => some (.establish, c)
  | .removeConnectionInLoop c => some (.remove, c)
  | .connectionDestroyed c => some (.remove, c)
  | _ => none

def Instr.task? : Instr L → Option (Task × ConnPtr L)
  | .functor f => f.task?
  | .queueInLoop _ f => f.task?
  | .removeConnection c => some (.report, c)
  | .removeChannel c => some (.unhook, c)
  | _ => none

def duty (k : Task) (c : ConnPtr L) (i : Instr L) : ℕ := if i.task? = some (k, c) then 1 else 0

/-- How often task `k` on `c` is waiting or under way. -/
def State.tasks (s : State L U) (k : Task) (c : ConnPtr L) : ℕ := tokens (duty k c) s

/-- The tasks that wait for a connection that goes down. -/
def State.closing (s : State L U) (c : ConnPtr L) : ℕ :=
  s.tasks .report c + s.tasks .remove c + s.tasks .unhook c

variable {k : Task} {c : ConnPtr L}

omit [DecidableEq U] [Fintype L] in
theorem fair_duty (k : Task) (c : ConnPtr L) : Fair (duty k c) where
  queueInLoop _ _ := rfl
  listen := rfl
  notice _ _ := rfl
  user := rfl
  testQuit _ := rfl
  poll _ := rfl
  beginPendingFunctors _ := rfl
  swap _ := rfl
  endPendingFunctors _ := rfl
  testWakeup _ := rfl
  wakeup _ := rfl

omit [DecidableEq U] [Fintype L] in
theorem duty_eq (i : Instr L) : duty k c i = i.task?.toList.count (k, c) := by
  rw [duty]
  cases hi : i.task? with
  | none => simp
  | some p =>
    by_cases hp : p = (k, c)
    · simp [hp]
    · simp [hp]

omit [DecidableEq U] [Fintype L] in
theorem weight_duty (is : List (Instr L)) :
    weight (duty k c) is = (is.filterMap Instr.task?).count (k, c) := by
  induction is with
  | nil => rfl
  | cons i is ih =>
    rw [weight_cons, ih, duty_eq, List.filterMap_cons]
    cases i.task? with
    | none => simp
    | some p => simp [List.count_cons, Nat.add_comm]

/-- One instruction of a loop thread exchanges its task for those of what
follows. -/
theorem tasks_runs {l : L} {i : Instr L} {o : Outcome} {rest is : List (Instr L)}
    (hstack : s.stack (.loop l) = i :: rest) (hruns : Runs cfg (.loop l) s i o s' is)
    (hi : i.transfers = false) :
    (s'.setStack (.loop l) (is ++ rest)).tasks k c + i.task?.toList.count (k, c) =
      s.tasks k c + (is.filterMap Instr.task?).count (k, c) := by
  have h := tokens_runs (w := duty k c) hstack hruns hi
  rwa [duty_eq, weight_duty] at h

/-- An instruction that hands its task on. -/
theorem tasks_same {l : L} {i : Instr L} {o : Outcome} {rest is : List (Instr L)}
    (hstack : s.stack (.loop l) = i :: rest) (hruns : Runs cfg (.loop l) s i o s' is)
    (h : i.transfers = true ∨ is.filterMap Instr.task? = i.task?.toList) :
    (s'.setStack (.loop l) (is ++ rest)).tasks k c = s.tasks k c := by
  rcases Bool.eq_false_or_eq_true i.transfers with hi | hi
  · exact tokens_transfer (fair_duty k c) hstack hruns hi
  · have hsame : is.filterMap Instr.task? = i.task?.toList := by
      rcases h with h | h
      · exact absurd h (by simp [hi])
      · exact h
    have hcount := tasks_runs (k := k) (c := c) hstack hruns hi
    rw [hsame] at hcount
    omega

theorem closing_same {l : L} {i : Instr L} {o : Outcome} {rest is : List (Instr L)}
    (hstack : s.stack (.loop l) = i :: rest) (hruns : Runs cfg (.loop l) s i o s' is)
    (h : i.transfers = true ∨ is.filterMap Instr.task? = i.task?.toList) :
    (s'.setStack (.loop l) (is ++ rest)).closing c = s.closing c := by
  rw [State.closing, tasks_same hstack hruns h, tasks_same hstack hruns h,
    tasks_same hstack hruns h, State.closing]

omit [DecidableEq U] [Fintype L] in
theorem count_task (k j : Task) (c : ConnPtr L) :
    [(k, c)].count (j, c) = if k = j then 1 else 0 := by
  rw [List.count_singleton]
  cases k <;> cases j <;> simp

omit [DecidableEq U] [Fintype L] in
/-- A task on the way down is one of those that wait for it. -/
theorem count_closing (hk : k ≠ .establish) (d : ConnPtr L) :
    [(k, c)].count (.establish, d) = 0 ∧
      [(k, c)].count (.report, d) + [(k, c)].count (.remove, d) + [(k, c)].count (.unhook, d) =
        [c].count d := by
  simp only [List.count_singleton, beq_iff_eq, Prod.mk.injEq]
  cases k with
  | establish => exact absurd rfl hk
  | report => simp
  | remove => simp
  | unhook => simp

/-- A task that makes way for the next one on the way down. -/
theorem closing_handOver {l : L} {i : Instr L} {o : Outcome} {rest is : List (Instr L)}
    {k k' : Task} (hstack : s.stack (.loop l) = i :: rest)
    (hruns : Runs cfg (.loop l) s i o s' is) (hi : i.transfers = false)
    (hk : k ≠ .establish) (hk' : k' ≠ .establish) (htask : i.task? = some (k, c))
    (his : is.filterMap Instr.task? = [(k', c)]) (d : ConnPtr L) :
    (s'.setStack (.loop l) (is ++ rest)).tasks .establish d = s.tasks .establish d ∧
      (s'.setStack (.loop l) (is ++ rest)).closing d = s.closing d := by
  have hcount : ∀ k₀, (s'.setStack (.loop l) (is ++ rest)).tasks k₀ d + [(k, c)].count (k₀, d) =
      s.tasks k₀ d + [(k', c)].count (k₀, d) := by
    intro k₀
    have h := tasks_runs (k := k₀) (c := d) hstack hruns hi
    rwa [htask, his] at h
  have hestablish := hcount .establish
  have hreport := hcount .report
  have hremove := hcount .remove
  have hunhook := hcount .unhook
  obtain ⟨hnone, hone⟩ := count_closing (c := c) hk d
  obtain ⟨hnone', hone'⟩ := count_closing (c := c) hk' d
  rw [State.closing, State.closing]
  constructor
  · omega
  · omega

omit [DecidableEq U] in
theorem tasks_le_closing (hk : k ≠ .establish) : s.tasks k c ≤ s.closing c := by
  rw [State.closing]
  cases k with
  | establish => exact absurd rfl hk
  | report => omega
  | remove => omega
  | unhook => omega

omit [DecidableEq U] in
theorem task_of_mem {l : L} {i : Instr L} (hi : i ∈ s.stack (.loop l))
    (htask : i.task? = some (k, c)) : 0 < s.tasks k c := by
  have hle : duty k c i ≤ s.tasks k c := le_tally (i := Sum.inl l) hi
  rw [duty, if_pos htask] at hle
  omega

omit [DecidableEq U] in
theorem referenced_of_tasks (h : 0 < s.tasks k c) : s.Referenced c := by
  refine referenced_of_tokens (fun i hi => ?_) h
  have htask : i.task? = some (k, c) := by
    rw [duty] at hi
    split_ifs at hi with htask
    · exact htask
    · exact absurd hi (lt_irrefl 0)
  have hfunctor : ∀ f : Functor L, f.task? = some (k, c) → f.holds c := by
    intro f hf
    cases f <;> simp_all [Functor.task?, Functor.holds]
  cases i with
  | functor f => exact hfunctor f htask
  | queueInLoop l f => exact hfunctor f htask
  | removeConnection d => simp_all [Instr.task?, Instr.holds]
  | removeChannel d => simp_all [Instr.task?, Instr.holds]
  | _ => exact absurd htask (by simp [Instr.task?])

/-- The work a thread without a loop has: calls of `queueInLoop`. -/
def Instr.Plain (cfg : Config L U) (i : Instr L) : Prop :=
  i = .queueInLoop cfg.base .listen ∨ (∃ l, i = .testWakeup l) ∨ ∃ l, i = .wakeup l

/-- Such work has no weight. -/
theorem tokens_user (hw : Fair w) {u : U} {i : Instr L} {o : Outcome} {is js : List (Instr L)}
    (hruns : Runs cfg (.user u) s i o s' is) (hi : i.Plain cfg) :
    tokens w (s'.setStack (.user u) js) = tokens w s := by
  rw [tokens_setStack_user]
  rcases hi with rfl | ⟨l, rfl⟩ | ⟨l, rfl⟩
  · cases hruns with
    | calls _ hcalls => exact nomatch hcalls
    | queueInLoop =>
      have hloop := tokens_setLoop (w := w) (s := s) cfg.base ((s.loops cfg.base).push .listen)
      have hpush : weight w (((s.loops cfg.base).push .listen).pendingFunctors.map .functor) =
          weight w ((s.loops cfg.base).pendingFunctors.map .functor) := by
        rw [EventLoop.push, List.map_append, weight_append, List.map_singleton, weight_cons,
          weight_nil, hw.listen]
        rfl
      omega
  · exact places_runs hruns rfl
  · exact places_runs hruns rfl

theorem tasks_user {u : U} {i : Instr L} {o : Outcome} {is js : List (Instr L)}
    (hruns : Runs cfg (.user u) s i o s' is) (hi : i.Plain cfg) :
    (s'.setStack (.user u) js).tasks k c = s.tasks k c :=
  tokens_user (fair_duty k c) hruns hi

end Step

end TcpServer

end Moduo
