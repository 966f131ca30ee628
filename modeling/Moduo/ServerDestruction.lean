/-
The destruction of a server.

`~TcpServer` hands `connectionDestroyed` of every connection to its loop, and
then quits and joins the threads of the pool one after the other.

* `reaches_of_inTime` — every connection of the server is destroyed exactly once,
  before its loop returns and its thread is joined, if the loop is in `loop()` when
  the task is queued, and `quit_` is set only before the swap that takes the task
  or after it; and the base loop comes to no removal;
* `quit_before_swap_drops` — a loop that has swapped its queue before, and finds
  `quit_` set, returns with the task in its queue.

What was executed and what waits are counted together: only a removal and the
destructor add to the sum.
-/
import Moduo.ServerDestruction.Account
import Moduo.ServerDestruction.Loops

namespace Moduo

namespace TcpServer

variable {L U : Type*}

section Definitions

variable [DecidableEq L] (cfg : Config L U)

/-- The destructor has joined the thread of loop `l`. -/
def Joins [DecidableEq U] (s : State L U) (l : L) : Label L U → Bool
  | .exec t _ => t = .loop cfg.base && (s.stack t).head? = some (.join l)
  | _ => false

/-- The base loop does not come to a removal: it takes no batch with one in it and
closes no connection of its own.  The destructor runs once. -/
def Unremoving (s : State L U) : Label L U → Bool
  | .exec t _ =>
    match s.stack t with
    | .swap l :: _ => l ≠ cfg.base || (s.loops l).pendingFunctors.all fun f => f.removes?.isNone
    | .removeConnection c :: _ => c.loop ≠ cfg.base
    | _ => true
  | .destroyServer _ => false
  | _ => true

/-- The destructor and its loops meet in time.  When `connectionDestroyed` of a connection
of `order` is queued, its loop is inside `loop()`; and if at once the task waits and `quit_`
is set, whichever came first, the loop has tested `quit_` before and has yet to swap its
queue.  It does not return before the task is queued. -/
structure InTime (order : List (ConnPtr L)) (s : State L U) (a : Label L U) : Prop where
  removes : Unremoving cfg s a = true
  queues : ∀ c ∈ order, Queues s c.loop (.connectionDestroyed c) a = true →
    s.InLoop c.loop ∧ ((s.loops c.loop).quit = true → s.SwapAhead c.loop)
  quits : ∀ c ∈ order, Quits s c.loop a = true →
    .connectionDestroyed c ∈ (s.loops c.loop).pendingFunctors → s.SwapAhead c.loop
  leaves : ∀ c ∈ order, Leaves s c.loop a = true →
    .queueInLoop c.loop (.connectionDestroyed c) ∉ s.stack (.loop cfg.base)

instance (order : List (ConnPtr L)) (s : State L U) (a : Label L U) :
    Decidable (InTime cfg order s a) :=
  decidable_of_iff (Unremoving cfg s a = true ∧
    (∀ c ∈ order, Queues s c.loop (.connectionDestroyed c) a = true →
      s.InLoop c.loop ∧ ((s.loops c.loop).quit = true → s.SwapAhead c.loop)) ∧
    (∀ c ∈ order, Quits s c.loop a = true →
      .connectionDestroyed c ∈ (s.loops c.loop).pendingFunctors → s.SwapAhead c.loop) ∧
    ∀ c ∈ order, Leaves s c.loop a = true →
      .queueInLoop c.loop (.connectionDestroyed c) ∉ s.stack (.loop cfg.base))
    ⟨fun ⟨h₁, h₂, h₃, h₄⟩ => ⟨h₁, h₂, h₃, h₄⟩, fun ⟨h₁, h₂, h₃, h₄⟩ => ⟨h₁, h₂, h₃, h₄⟩⟩

/-- What the destructor owes to the connections of `order`: no step executes
`connectionDestroyed` of one a second time, or lets its loop return or joins its thread
before the first, or runs a removal. -/
structure Reaches [DecidableEq U] (order : List (ConnPtr L)) (s : State L U) (a : Label L U)
    (s' : State L U) : Prop where
  once : ∀ c ∈ order, s'.executed c ≤ 1
  returns : ∀ c ∈ order, Leaves s c.loop a = true → s'.executed c = 1
  joined : ∀ c ∈ order, Joins cfg s c.loop a = true → s'.executed c = 1
  noRemoval : ∀ c, change cfg s a ≠ some (.removed c)

end Definitions

variable {cfg : Config L U} {s s' : State L U} {t : Thread L U} {i : Instr L} {o : Outcome}
  {is : List (Instr L)} {c : ConnPtr L}

section Step

variable [DecidableEq L] [DecidableEq U] [Fintype L]

/-! ### The destructor -/

omit [DecidableEq U] [Fintype L] in
theorem weight_runInLoop {d : ConnPtr L} {l : L} :
    weight (destroyWeight c) (cfg.runInLoop t l (.connectionDestroyed d)) =
      [d].count c := by
  have hone : ∀ j : Instr L, j.functor? = some (.connectionDestroyed d) →
      weight (destroyWeight c) [j] = [d].count c := by
    intro j hj
    rw [weight_cons, weight_nil, destroyWeight, hj, List.count_singleton]
    by_cases hd : d = c
    · simp [hd]
    · simp [hd]
  rw [Config.runInLoop]
  split_ifs
  · exact hone _ rfl
  · exact hone _ rfl

omit [DecidableEq U] [Fintype L] in
/-- `~TcpServer` hands on one destruction of each of its connections. -/
theorem weight_destroyServer (order : List (ConnPtr L)) :
    weight (destroyWeight c) (destroyServer cfg order) = order.count c := by
  have hpool : weight (destroyWeight c)
      (cfg.loops.flatMap (fun l => [.quit l, .join l]) ++ [.removeAcceptor]) = 0 := by
    refine weight_eq_zero fun j hj => ?_
    rcases List.mem_append.mp hj with hj | hj
    · obtain ⟨l, -, hl⟩ := List.mem_flatMap.mp hj
      rcases List.mem_pair.mp hl with rfl | rfl
      · rfl
      · rfl
    · obtain rfl := List.mem_singleton.mp hj
      rfl
  rw [destroyServer, List.append_assoc, weight_append, hpool, Nat.add_zero]
  induction order with
  | nil => rfl
  | cons d order ih =>
    rw [List.flatMap_cons, weight_append, ih, weight_runInLoop, ← List.count_append]
    rfl

/-- The base loop is not in the middle of a removal. -/
def Clear (cfg : Config L U) (s : State L U) : Prop :=
  ∀ i ∈ s.stack (.loop cfg.base), ∀ c, i ≠ .functor (.removeConnectionInLoop c)

omit [DecidableEq L] [DecidableEq U] [Fintype L] in
theorem clear_runInLoop {l : L} {f : Functor L} (hf : ∀ c, f ≠ .removeConnectionInLoop c) :
    ∀ j ∈ cfg.runInLoop t l f, ∀ c, j.functor? ≠ some (.removeConnectionInLoop c) :=
  fun _ hj c hc => hf c (functor_runInLoop hj hc).symm

theorem clear_step {a : Label L U} (hconfined : Confined cfg s) (h : Clear cfg s)
    (ha : Unremoving cfg s a = true) (hstep : step cfg s a = some s') : Clear cfg s' := by
  rintro j hj c rfl
  cases comes_move (move_of_step hstep) hj with
  | kept hold => exact h _ hold c rfl
  | @follows o i rest is s₁ hexec hstack hruns hnew =>
    subst hexec
    have hplaced := hconfined.stack _ i (hstack ▸ List.mem_cons_self)
    simp only [Unremoving, hstack] at ha
    cases spawned_runs hruns hnew rfl with
    | @swap l _ hf =>
      -- the base loop takes no removal out of its queue
      obtain rfl : cfg.base = l := Thread.loop.inj (hplaced.thread (l := l) rfl)
      simp only [ne_eq, not_true_eq_false, decide_false, Bool.false_or, List.all_eq_true] at ha
      exact absurd (ha _ hf) (by simp [Functor.removes?])
    | removeConnection =>
      have hloop : c.loop = cfg.base :=
        (Thread.loop.inj (hplaced.thread (l := c.loop) rfl)).symm
      simp [hloop] at ha
    | other _ hnot => exact hnot c rfl
  | pushed hpushed =>
    cases hpushed with
    | send hsend => exact clear_runInLoop (by simp) _ hsend c rfl
    | setThreadNum hlisten => exact clear_runInLoop (by simp) _ hlisten c rfl
    | destroyServer => contradiction

omit [DecidableEq U] [Fintype L] in
/-- Removals run on the base loop only. -/
theorem Clear.no_removal {a : Label L U} (h : Clear cfg s) (hconfined : Confined cfg s) :
    change cfg s a ≠ some (.removed c) := by
  intro hchange
  cases a with
  | exec t o =>
    obtain ⟨i, hi, hinstr⟩ := Option.bind_eq_some_iff.mp hchange
    obtain rfl := instrChange_eq_removed.mp hinstr
    have hmem := List.mem_of_head? hi
    obtain rfl : t = .loop cfg.base := (hconfined.stack t _ hmem).thread rfl
    exact h _ hmem c rfl
  | _ => contradiction

/-- No destruction of `c` is left below a join of the base loop's thread. -/
def JoinsLast (cfg : Config L U) (s : State L U) (c : ConnPtr L) : Prop :=
  (s.stack (.loop cfg.base)).Pairwise fun i j =>
    i.joins = true → j.functor? ≠ some (.connectionDestroyed c)

omit [DecidableEq L] [DecidableEq U] [Fintype L] in
theorem pairwise_of_joins {rest : List (Instr L)} (his : ∀ j ∈ is, j.joins = false)
    (hrest : rest.Pairwise fun i j =>
      i.joins = true → j.functor? ≠ some (.connectionDestroyed c)) :
    (is ++ rest).Pairwise fun i j =>
      i.joins = true → j.functor? ≠ some (.connectionDestroyed c) := by
  have hnot : ∀ j ∈ is, ¬ j.joins = true := by
    intro j hj hjoin
    rw [his j hj] at hjoin
    contradiction
  exact List.pairwise_append.mpr ⟨List.pairwise_of_forall_mem_list fun j hj _ _ hjoin =>
    absurd hjoin (hnot j hj), hrest, fun j hj _ _ hjoin => absurd hjoin (hnot j hj)⟩

omit [Fintype L] in
theorem JoinsLast.setStack (h : JoinsLast cfg s c) (hstack : s'.stack = s.stack)
    (his : t = .loop cfg.base → is.Pairwise fun i j =>
      i.joins = true → j.functor? ≠ some (.connectionDestroyed c)) :
    JoinsLast cfg (s'.setStack t is) c := by
  by_cases ht : .loop cfg.base = t
  · subst ht
    rw [JoinsLast, State.setStack_self]
    exact his rfl
  · rw [JoinsLast, State.setStack_of_ne ht, hstack]
    exact h

omit [Fintype L] in
theorem JoinsLast.push (h : JoinsLast cfg s c) (hstack : s'.stack = s.stack)
    (his : ∀ j ∈ is, j.joins = false) : JoinsLast cfg (s'.push t is) c := by
  refine h.setStack hstack fun ht => ?_
  subst ht
  rw [hstack]
  exact pairwise_of_joins his h

omit [Fintype L] in
theorem joinsLast_move {a : Label L U} (h : JoinsLast cfg s c)
    (ha : a.isDestroyServer = false) (hmove : Move cfg s a s') : JoinsLast cfg s' c := by
  cases hmove with
  | @exec t o i rest is s₁ hstack hruns =>
    refine h.setStack (stack_runs hruns) fun ht => ?_
    subst ht
    rw [JoinsLast, hstack, List.pairwise_cons] at h
    exact pairwise_of_joins (fun j hj => (ofLoop_runs hruns j hj).2) h.2
  | @callbackReturn t rest hstack =>
    refine h.setStack rfl fun ht => ?_
    subst ht
    rw [JoinsLast, hstack, List.pairwise_cons] at h
    exact h.2
  | send => exact h.push rfl fun j hj => (ofLoop_runInLoop j hj).2
  | shutdown => exact h.push rfl (by simp [Instr.joins])
  | refused => exact h
  | setThreadNum => exact h.push rfl fun j hj => (ofLoop_runInLoop j hj).2
  | loop => exact h.push rfl (by simp [Instr.joins])
  | quit =>
    refine h.push rfl fun j hj => ?_
    obtain rfl := Config.mem_quit hj
    rfl
  | destroyServer => contradiction
  | destroyConnection => exact h

/-- While the destructor is at work and after it: every connection that the server
had is destroyed or about to be, and the base loop has no removal before it. -/
structure Doomed (cfg : Config L U) (order : List (ConnPtr L)) (s : State L U) : Prop where
  confined : Confined cfg s
  bystanders : Bystanders s
  senders : Senders cfg s
  bottoms : Bottoms s
  pending : ∀ c ∈ order, s.destructions c = 1
  attends : ∀ c ∈ order, Attends s c.loop (.connectionDestroyed c)
  joins : ∀ c ∈ order, JoinsLast cfg s c
  clear : Clear cfg s

variable {order : List (ConnPtr L)}

theorem Unclaimed.nodup_connections (h : Unclaimed cfg s) :
    (s.connections.map Prod.snd).Nodup := by
  have hnames : s.connections.map Prod.fst =
      (s.connections.map Prod.snd).map fun c => cfg.connName c.id := by
    rw [List.map_map]
    exact List.map_congr_left fun item hitem => (h.names item hitem).1
  exact (hnames ▸ h.nodup).of_map _

omit [DecidableEq U] in
/-- Of a connection that is not to be destroyed no destruction is on a stack or in a queue. -/
theorem functor_ne_of_place (h : s.outstanding c = 0) {p : L ⊕ L} (hi : i ∈ places s p) :
    i.functor? ≠ some (.connectionDestroyed c) := by
  intro hf
  have hle : _ ≤ tally (destroyWeight c) (places s) := le_tally hi
  have hone : destroyWeight c i = 1 := if_pos hf
  rw [State.outstanding, tokens] at h
  omega

omit [DecidableEq U] in
theorem not_mem_pending (h : s.outstanding c = 0) {l : L} :
    .connectionDestroyed c ∉ (s.loops l).pendingFunctors := by
  intro hmem
  have hplace : .functor (.connectionDestroyed c) ∈ places s (.inr l) :=
    List.mem_map_of_mem hmem
  exact functor_ne_of_place h hplace rfl

/-- The destructor starts: it is about to hand each connection of `order` over once. -/
theorem destructions_destroyServer (hnodup : order.Nodup) (hc : c ∈ order)
    (hnone : s.destructions c = 0) :
    ((State.record { s with connections := [] } [.connections (.loop cfg.base)]).push
      (.loop cfg.base) (destroyServer cfg order)).destructions c = 1 := by
  have hpush := tokens_push (w := destroyWeight c) (s := State.record
    { s with connections := [] } [.connections (.loop cfg.base)]) cfg.base
    (destroyServer cfg order)
  have hplaces : tokens (destroyWeight c) (State.record { s with connections := [] }
      [.connections (.loop cfg.base)]) = s.outstanding c := rfl
  have hexecuted : ((State.record { s with connections := [] }
      [.connections (.loop cfg.base)]).push (.loop cfg.base)
        (destroyServer cfg order)).executed c = s.executed c :=
    executed_append (s := s) rfl (by simp)
  rw [State.destructions] at hnone
  rw [weight_destroyServer, List.count_eq_one_of_mem hnodup hc, hplaces] at hpush
  rw [State.destructions, hexecuted, State.outstanding, hpush]
  omega

omit [DecidableEq U] in
/-- The destructor queues the destructions first, and joins after that. -/
theorem joinsLast_destroyServer (hidle : s.outstanding c = 0)
    (hstack : s'.stack (.loop cfg.base) =
      destroyServer cfg order ++ s.stack (.loop cfg.base)) : JoinsLast cfg s' c := by
  have hsplit : s'.stack (.loop cfg.base) =
      order.flatMap (fun d : ConnPtr L =>
        cfg.runInLoop (.loop cfg.base) d.loop (.connectionDestroyed d)) ++
      (cfg.loops.flatMap (fun l => [.quit l, .join l]) ++ [.removeAcceptor] ++
        s.stack (.loop cfg.base)) := by
    rw [hstack, destroyServer]
    simp only [List.append_assoc]
  rw [JoinsLast, hsplit]
  refine pairwise_of_joins (fun j hj => ?_)
    (List.pairwise_of_forall_mem_list fun _ _ j hj _ => ?_)
  · obtain ⟨d, -, hd⟩ := List.mem_flatMap.mp hj
    exact (ofLoop_runInLoop j hd).2
  · rcases List.mem_append.mp hj with hj | hj
    · rcases List.mem_append.mp hj with hj | hj
      · obtain ⟨l, -, hl⟩ := List.mem_flatMap.mp hj
        rcases List.mem_pair.mp hl with rfl | rfl
        · simp [Instr.functor?]
        · simp [Instr.functor?]
      · obtain rfl := List.mem_singleton.mp hj
        simp [Instr.functor?]
    · exact functor_ne_of_place hidle (p := .inl cfg.base) hj

theorem doomed_destroyServer (h : Untouched cfg s) (hbottoms : Bottoms s)
    (hquiet : ∀ i ∈ s.stack (.loop cfg.base), i.removes? = none)
    (hstep : step cfg s (.destroyServer order) = some s') : Doomed cfg order s' := by
  have hmove := move_of_step hstep
  have hclear : Clear cfg s := by
    rintro i hi c rfl
    exact absurd (hquiet _ hi) (by simp [Instr.removes?, Functor.removes?])
  simp only [step] at hstep
  split_ifs at hstep with hcalled
  obtain rfl := Option.some.inj hstep
  have hnodup : order.Nodup := hcalled.2.nodup_iff.mpr h.unclaimed.nodup_connections
  have hnone : ∀ c ∈ order, s.destructions c = 0 := by
    intro c hc
    obtain ⟨item, hitem, rfl⟩ := List.mem_map.mp (hcalled.2.mem_iff.mp hc)
    exact h.unclaimed.kept item hitem
  have hidle : ∀ c ∈ order, s.outstanding c = 0 := by
    intro c hc
    have hzero := hnone c hc
    rw [State.destructions] at hzero
    omega
  refine ⟨confined_move h.confined hmove, bystanders_move h.confined h.bystanders hmove,
    senders_move h.confined h.senders hmove, bottoms_move hbottoms hmove, fun c hc => ?_,
    fun c hc hmem => absurd hmem (not_mem_pending (hidle c hc)), fun c hc => ?_, ?_⟩
  · exact destructions_destroyServer hnodup hc (hnone c hc)
  · refine joinsLast_destroyServer (hidle c hc) (?_ : _ = destroyServer cfg order ++ _)
    rw [State.push, State.setStack_self]
    rfl
  · rintro j hj c rfl
    cases comes_move hmove hj with
    | kept hold => exact hclear _ hold c rfl
    | follows hexec => contradiction
    | pushed hpushed =>
      cases hpushed with
      | destroyServer hnew =>
        rcases mem_destroyServer hnew with ⟨d, hd⟩ | ⟨l, hl | hl⟩ | hacceptor
        · exact clear_runInLoop (by simp) _ hd c rfl
        · contradiction
        · contradiction
        · contradiction

theorem doomed_step {a : Label L U} (h : Doomed cfg order s) (ha : InTime cfg order s a)
    (hstep : step cfg s a = some s') : Doomed cfg order s' := by
  have hmove := move_of_step hstep
  have hnot : a.isDestroyServer = false := by
    cases a with
    | destroyServer => exact absurd ha.removes (by simp [Unremoving])
    | _ => rfl
  refine ⟨confined_move h.confined hmove, bystanders_move h.confined h.bystanders hmove,
    senders_move h.confined h.senders hmove, bottoms_move h.bottoms hmove, fun c hc => ?_,
    fun c hc => ?_, fun c hc => joinsLast_move (h.joins c hc) hnot hmove,
    clear_step h.confined h.clear ha.removes hstep⟩
  · rw [destructions_step h.confined h.bystanders hnot hstep,
      if_neg (h.clear.no_removal h.confined), h.pending c hc]
  · exact attends_move h.confined h.bottoms (h.attends c hc) (ha.queues c hc) (ha.quits c hc) hmove

/-! ### What is owed -/

/-- The destruction of a connection is executed once it is nowhere else. -/
theorem Doomed.executed (h : Doomed cfg order s) (hc : c ∈ order)
    (hstack : .functor (.connectionDestroyed c) ∉ s.stack (.loop c.loop))
    (hqueue : .connectionDestroyed c ∉ (s.loops c.loop).pendingFunctors)
    (hbase : .queueInLoop c.loop (.connectionDestroyed c) ∉ s.stack (.loop cfg.base)) :
    s.executed c = 1 := by
  have hnone : s.outstanding c = 0 := by
    refine tally_eq_zero fun p j hj => if_neg fun hf => ?_
    cases p with
    | inl l =>
      have hplaced := h.confined.stack (.loop l) j hj
      cases j with
      | functor f =>
        obtain rfl := Option.some.inj hf
        obtain rfl : l = c.loop := Thread.loop.inj (hplaced.thread rfl)
        exact hstack hj
      | queueInLoop m f =>
        obtain rfl := Option.some.inj hf
        obtain rfl : c.loop = m := hplaced.queue m _ rfl
        obtain rfl : l = cfg.base := Thread.loop.inj (h.senders _ _ _ hj)
        exact hbase hj
      | _ => contradiction
    | inr l =>
      obtain ⟨f, hmem, rfl⟩ := List.mem_map.mp hj
      obtain rfl := Option.some.inj hf
      obtain rfl : c.loop = l := h.confined.homed.queue l _ hmem
      exact hqueue hmem
  have hpending := h.pending c hc
  rw [State.destructions, hnone] at hpending
  exact hpending

/-- A loop that returns executes nothing. -/
theorem executed_leaves {a : Label L U} {l : L} (hconfined : Confined cfg s)
    (hleaves : Leaves s l a = true) (hstep : step cfg s a = some s') :
    s'.executed c = s.executed c := by
  cases a with
  | exec t o =>
    obtain ⟨i, rest, r, hstack, hr, rfl⟩ := exec_of_step hstep
    have hi : i ∈ s.stack t := hstack ▸ List.mem_cons_self
    have hexecuted := executed_runs (c := c) (hconfined.stack t i hi) (runs_of_exec hr)
    rw [Leaves, hstack, Bool.and_eq_true, decide_eq_true_eq] at hleaves
    obtain rfl := Option.some.inj hleaves.1
    exact hexecuted
  | _ => contradiction

/-- A loop that returns has executed the destructions of its connections. -/
theorem Doomed.returns {a : Label L U} (h : Doomed cfg order s) (ha : InTime cfg order s a)
    (hc : c ∈ order) (hleaves : Leaves s c.loop a = true) : s.executed c = 1 := by
  have hbase := ha.leaves c hc hleaves
  cases a with
  | exec t o =>
    simp only [Leaves, Bool.and_eq_true, decide_eq_true_eq] at hleaves
    obtain ⟨hhead, hquit⟩ := hleaves
    obtain ⟨rest, hstack⟩ := List.head?_eq_some_iff.mp hhead
    obtain rfl : t = .loop c.loop :=
      (h.confined.stack t _ (hstack ▸ List.mem_cons_self)).thread rfl
    obtain rfl := h.bottoms.rest_eq_nil hstack rfl
    refine h.executed hc ?_ (fun hmem => ?_) hbase
    · rw [hstack]
      simp
    · -- the loop would have its swap ahead
      obtain ⟨j, hj, hbefore⟩ := (h.attends c hc hmem).2 hquit
      rw [hstack, List.mem_singleton] at hj
      rw [hj] at hbefore
      contradiction
  | _ => contradiction

/-- When a thread is joined its loop has executed them. -/
theorem Doomed.joined {a : Label L U} (h : Doomed cfg order s) (hc : c ∈ order)
    (hjoins : Joins cfg s c.loop a = true) (hstep : step cfg s a = some s') :
    s'.executed c = 1 := by
  cases a with
  | exec t o =>
    simp only [Joins, Bool.and_eq_true, decide_eq_true_eq] at hjoins
    obtain ⟨rfl, hhead⟩ := hjoins
    obtain ⟨i, rest, r, hstack, hr, rfl⟩ := exec_of_step hstep
    rw [hstack] at hhead
    obtain rfl := Option.some.inj hhead
    have hruns := runs_of_exec hr
    have hplaced := h.confined.stack _ _ (hstack ▸ List.mem_cons_self)
    have hexecuted := executed_runs (c := c) hplaced hruns
    have hend : s.stack (.loop c.loop) = [] := by
      generalize r.1 = s₁, r.2 = is at hruns
      cases hruns with
      | calls _ hcalls => cases hcalls
      | join hend => exact hend
    have hone : s.executed c = 1 := by
      refine h.executed hc ?_ (fun hmem => ?_) fun hmem => ?_
      · rw [hend]
        exact List.not_mem_nil
      · obtain ⟨⟨j, hj, -⟩, -⟩ := h.attends c hc hmem
        rw [hend] at hj
        exact absurd hj List.not_mem_nil
      · -- the destructor has queued all destructions
        have hlast := h.joins c hc
        rw [JoinsLast, hstack, List.pairwise_cons] at hlast
        rw [hstack] at hmem
        rcases List.mem_cons.mp hmem with heq | hrest
        · contradiction
        · exact hlast.1 _ hrest rfl rfl
    exact hexecuted.trans hone
  | _ => contradiction

theorem Doomed.reaches {a : Label L U} (h : Doomed cfg order s) (ha : InTime cfg order s a)
    (hstep : step cfg s a = some s') : Reaches cfg order s a s' := by
  have hnext := doomed_step h ha hstep
  refine ⟨fun c hc => ?_, fun c hc hleaves => ?_, fun c hc hjoins => h.joined hc hjoins hstep,
    fun c => h.clear.no_removal h.confined⟩
  · have hpending := hnext.pending c hc
    rw [State.destructions] at hpending
    omega
  · rw [executed_leaves h.confined hleaves hstep]
    exact h.returns ha hc hleaves

/-- Let the destructor start when the base loop is not in the middle of a removal, and let
the destructor and its loops meet in time.  Then every connection that the server had is
destroyed exactly once, before its loop returns and before its thread is joined, and the
base loop runs no removal. -/
theorem reaches_of_inTime {s₀ s₁ : State L U} {as : List (Label L U)}
    (hs : (system cfg).ReachableUnder (fun _ a => a.isDestroyServer = false) s₀)
    (hquiet : ∀ i ∈ s₀.stack (.loop cfg.base), i.removes? = none)
    (hstep : (system cfg).step s₀ (.destroyServer order) = some s₁)
    (has : (system cfg).StepsMeet (InTime cfg order) s₁ as) :
    (system cfg).StepsRelate (Reaches cfg order) s₁ as := by
  have hbottoms : Bottoms s₀ :=
    hs.invariant (fun _ h => bottoms_start h) fun _ _ _ h _ hnext =>
      bottoms_move h (move_of_system hnext)
  have hdoomed : Doomed cfg order s₁ :=
    doomed_destroyServer (untouched_reachable hs) hbottoms hquiet (step_of_system hstep)
  exact Machine.StepsMeet.stepsRelate (I := Doomed cfg order)
    (fun _ _ _ h ha hnext => doomed_step h ha (step_of_system hnext))
    (fun _ _ _ h ha hnext => h.reaches ha (step_of_system hnext)) as hdoomed has

end Step

/-- A connection is established, the base loop returns, and the io loop is about to
test `quit_`. -/
def acceptAndStop : List (Label Bool Unit) :=
  acceptOne ++ [.quit (.user ()) false, .exec (.user ()) .none, .exec (.loop false) .none,
    .exec (.loop false) .none, .exec (.loop false) .none, .exec (.loop false) .none,
    .callbackReturn (.loop true), .exec (.loop true) .none]

/-- The destructor queues `connectionDestroyed`, wakes the io loop up and quits
it. -/
def queueAndQuit : List (Label Bool Unit) :=
  [.exec (.loop false) .none, .exec (.loop false) .none, .exec (.loop false) .none,
    .exec (.loop false) .none, .exec (.loop false) .none]

/-- The io loop finds `quit_` set and returns with the task in its queue. -/
theorem quit_before_swap_drops :
    ∃ s₀ s₁ s : State Bool Unit,
      (system twoLoops).ReachableUnder (fun _ a => a.isDestroyServer = false) s₀ ∧
      (system twoLoops).step s₀ (.destroyServer [⟨1, true, 7⟩]) = some s₁ ∧
      (system twoLoops).run s₁ (queueAndQuit ++ [.exec (.loop true) .none]) = some s ∧
      s.stack (.loop true) = [] ∧ s.executed ⟨1, true, 7⟩ = 0 ∧
      .connectionDestroyed ⟨1, true, 7⟩ ∈ (s.loops true).pendingFunctors ∧
      ¬ (system twoLoops).StepsRelate (Reaches twoLoops [⟨1, true, 7⟩]) s₁
        (queueAndQuit ++ [.exec (.loop true) .none]) := by
  have hrun : ∃ s₀ s₁ t s : State Bool Unit,
      (system twoLoops).runUnder (fun _ a => a.isDestroyServer = false)
        (State.make twoLoops) acceptAndStop = some s₀ ∧
      (system twoLoops).step s₀ (.destroyServer [⟨1, true, 7⟩]) = some s₁ ∧
      (system twoLoops).run s₁ queueAndQuit = some t ∧
      (system twoLoops).step t (.exec (.loop true) .none) = some s ∧
      (system twoLoops).run s₁ (queueAndQuit ++ [.exec (.loop true) .none]) = some s ∧
      Leaves t true (.exec (.loop true) .none : Label Bool Unit) = true ∧
      s.stack (.loop true) = [] ∧ s.executed ⟨1, true, 7⟩ = 0 ∧
      .connectionDestroyed ⟨1, true, 7⟩ ∈ (s.loops true).pendingFunctors :=
    ⟨_, _, _, _, rfl, rfl, rfl, rfl, rfl, rfl, rfl, by decide, by decide⟩
  obtain ⟨s₀, s₁, t, s, hs₀, hdestroy, ht, hs, hrun, hleaves, hstack, hexecuted, hqueue⟩ := hrun
  refine ⟨s₀, s₁, s, ?_, hdestroy, hrun, hstack, hexecuted, hqueue, fun hreaches => ?_⟩
  · exact Machine.ReachableUnder.runUnder _ (.init (start_make twoLoops)) hs₀
  · have hone := (hreaches.at queueAndQuit [] ht hs).returns ⟨1, true, 7⟩
      (List.mem_singleton.mpr rfl) hleaves
    omega

/-- Here the io loop polls first, and takes the task before it tests `quit_`; in the end the
destructor joins its thread. -/
def pollAndQuit : List (Label Bool Unit) :=
  .exec (.loop true) .none :: queueAndQuit ++
    [.exec (.loop true) (.polled []), .exec (.loop true) .none, .exec (.loop true) .none,
      .exec (.loop true) .none, .exec (.loop true) .none, .callbackReturn (.loop true),
      .exec (.loop true) .none, .exec (.loop true) .none, .exec (.loop true) .none,
      .exec (.loop false) .none]

theorem reaches_of_inTime_polled :
    ∃ s₀ s₁ s : State Bool Unit,
      (system twoLoops).step s₀ (.destroyServer [⟨1, true, 7⟩]) = some s₁ ∧
      (system twoLoops).run s₁ pollAndQuit = some s ∧
      s.stack (.loop true) = [] ∧ s.stack (.loop false) = [.removeAcceptor] ∧
      s.executed ⟨1, true, 7⟩ = 1 ∧
      (system twoLoops).StepsRelate (Reaches twoLoops [⟨1, true, 7⟩]) s₁ pollAndQuit := by
  have hrun : ∃ s₀ s₁ s : State Bool Unit,
      (system twoLoops).runUnder (fun _ a => a.isDestroyServer = false)
        (State.make twoLoops) acceptAndStop = some s₀ ∧
      s₀.stack (.loop false) = [] ∧
      (system twoLoops).step s₀ (.destroyServer [⟨1, true, 7⟩]) = some s₁ ∧
      (system twoLoops).run s₁ pollAndQuit = some s ∧
      (system twoLoops).runUnder (InTime twoLoops [⟨1, true, 7⟩]) s₁ pollAndQuit = some s ∧
      s.stack (.loop true) = [] ∧ s.stack (.loop false) = [.removeAcceptor] ∧
      s.executed ⟨1, true, 7⟩ = 1 :=
    ⟨_, _, _, rfl, rfl, rfl, rfl, rfl, rfl, rfl, by decide⟩
  obtain ⟨s₀, s₁, s, hs₀, hempty, hdestroy, hs, htime, hstack, hbase, hexecuted⟩ := hrun
  have hreach : (system twoLoops).ReachableUnder (fun _ a => a.isDestroyServer = false) s₀ :=
    Machine.ReachableUnder.runUnder _ (.init (start_make twoLoops)) hs₀
  have hquiet : ∀ i ∈ s₀.stack (.loop false), i.removes? = none := by
    rw [hempty]
    exact fun i hi => absurd hi List.not_mem_nil
  exact ⟨s₀, s₁, s, hdestroy, hs, hstack, hbase, hexecuted,
    reaches_of_inTime hreach hquiet hdestroy (.of_runUnder _ htime)⟩

end TcpServer

end Moduo
