/-
Where a loop is in its round, also while the server is being destroyed.

The functions of `loop()` and `doPendingFunctors` lie at the bottom of a stack:
below an instruction of theirs there is none.  So a loop that is about to test
`quit_` has nothing else to do, and one that has yet to swap its queue will do so
before it tests `quit_` again.
-/
import Moduo.ServerLoops
import Moduo.ServerTokens
import Moduo.ThreadConfinement

namespace Moduo

namespace TcpServer

variable {L U : Type*}

/-- The instruction is part of `loop()` or of `doPendingFunctors`. -/
def Instr.ofLoop : Instr L → Bool
  | .testQuit _ => true
  | .poll _ => true
  | .beginPendingFunctors _ => true
  | .swap _ => true
  | .endPendingFunctors _ => true
  | _ => false

/-- The loop has tested `quit_`, and the swap is still to come. -/
def Instr.beforeSwap : Instr L → Bool
  | .poll _ => true
  | .beginPendingFunctors _ => true
  | .swap _ => true
  | _ => false

/-- The destructor waits for the end of a thread. -/
def Instr.joins : Instr L → Bool
  | .join _ => true
  | _ => false

theorem Instr.ofLoop_of_beforeSwap {i : Instr L} (h : i.beforeSwap = true) :
    i.ofLoop = true := by
  cases i <;> first | rfl | contradiction

/-- The thread of loop `l` is inside `loop()`. -/
def State.InLoop (s : State L U) (l : L) : Prop := ∃ i ∈ s.stack (.loop l), i.ofLoop = true

instance (s : State L U) (l : L) : Decidable (s.InLoop l) :=
  inferInstanceAs (Decidable (∃ i ∈ s.stack (.loop l), _))

/-- Loop `l` will swap its queue before it tests `quit_`. -/
def State.SwapAhead (s : State L U) (l : L) : Prop :=
  ∃ i ∈ s.stack (.loop l), i.beforeSwap = true

instance (s : State L U) (l : L) : Decidable (s.SwapAhead l) :=
  inferInstanceAs (Decidable (∃ i ∈ s.stack (.loop l), _))

/-- Functor `f` is queued for loop `l`. -/
def Queues [DecidableEq L] (s : State L U) (l : L) (f : Functor L) : Label L U → Bool
  | .exec t _ => (s.stack t).head? = some (.queueInLoop l f)
  | _ => false

/-- `quit_` of loop `l` is set. -/
def Quits [DecidableEq L] (s : State L U) (l : L) : Label L U → Bool
  | .exec t _ => (s.stack t).head? = some (.quit l)
  | .quit _ m => m = l
  | _ => false

/-- Loop `l` returns: it finds `quit_` set. -/
def Leaves [DecidableEq L] (s : State L U) (l : L) : Label L U → Bool
  | .exec t _ => (s.stack t).head? = some (.testQuit l) && (s.loops l).quit
  | _ => false

/-- Loop `l` takes `f` out of its queue before it returns. -/
def Attends (s : State L U) (l : L) (f : Functor L) : Prop :=
  f ∈ (s.loops l).pendingFunctors →
    s.InLoop l ∧ ((s.loops l).quit = true → s.SwapAhead l)

/-- An instruction of `loop()` is the last one of its stack. -/
def Bottoms (s : State L U) : Prop :=
  ∀ t, (s.stack t).Pairwise fun i _ => i.ofLoop = false

section Step

variable [DecidableEq L] {cfg : Config L U} {s s' : State L U} {t : Thread L U} {i : Instr L}
  {o : Outcome} {is rest : List (Instr L)}

/-! ### What an instruction pushes -/

omit [DecidableEq L] in
/-- The instruction is no part of `loop()` and no join. -/
theorem ofLoop_runInLoop {l : L} {f : Functor L} :
    ∀ j ∈ cfg.runInLoop t l f, j.ofLoop = false ∧ j.joins = false := by
  intro j hj
  rcases Config.mem_runInLoop hj with rfl | rfl
  · exact ⟨rfl, rfl⟩
  · exact ⟨rfl, rfl⟩

/-- Only `loop()` goes on with `loop()`, and no instruction with a join. -/
theorem ofLoop_runs (hruns : Runs cfg t s i o s' is) :
    ∀ j ∈ is, (i.ofLoop = false → j.ofLoop = false) ∧ j.joins = false := by
  intro j hj
  cases hruns with
  | calls => rcases mem_effects hj with ⟨cb, rfl⟩ | rfl | rfl <;> exact ⟨fun _ => rfl, rfl⟩
  | poll =>
    rcases List.mem_append.mp hj with hj | hj
    · obtain ⟨b, -, e, -, rfl⟩ := mem_activeChannels hj
      exact ⟨fun _ => rfl, rfl⟩
    · obtain rfl := List.mem_singleton.mp hj
      exact ⟨id, rfl⟩
  | swap =>
    rcases List.mem_append.mp hj with hj | hj
    · obtain ⟨f, -, rfl⟩ := List.mem_map.mp hj
      exact ⟨fun _ => rfl, rfl⟩
    · obtain rfl := List.mem_singleton.mp hj
      exact ⟨id, rfl⟩
  | newConnection =>
    obtain ⟨hloop, hjoins⟩ := ofLoop_runInLoop j hj
    exact ⟨fun _ => hloop, hjoins⟩
  | setDisconnecting =>
    obtain ⟨hloop, hjoins⟩ := ofLoop_runInLoop j hj
    exact ⟨fun _ => hloop, hjoins⟩
  | removeConnection =>
    obtain ⟨hloop, hjoins⟩ := ofLoop_runInLoop j hj
    exact ⟨fun _ => hloop, hjoins⟩
  | handleEvent =>
    rcases mem_eventCallbacks hj with rfl | rfl | rfl | rfl | rfl <;> exact ⟨fun _ => rfl, rfl⟩
  | destroyFound => rcases List.mem_pair.mp hj with rfl | rfl <;> exact ⟨fun _ => rfl, rfl⟩
  | quit =>
    obtain rfl := Config.mem_quit hj
    exact ⟨fun _ => rfl, rfl⟩
  | leave => exact absurd hj List.not_mem_nil
  | listen => exact absurd hj List.not_mem_nil
  | noWakeup => exact absurd hj List.not_mem_nil
  | wakeup => exact absurd hj List.not_mem_nil
  | handleWakeup => exact absurd hj List.not_mem_nil
  | ignored => exact absurd hj List.not_mem_nil
  | unguard => exact absurd hj List.not_mem_nil
  | join => exact absurd hj List.not_mem_nil
  | removeAcceptor => exact absurd hj List.not_mem_nil
  | _ =>
    obtain rfl := List.mem_singleton.mp hj
    exact ⟨id, rfl⟩

omit [DecidableEq L] in
theorem pairwise_of_ofLoop (h : ∀ j ∈ is, j.ofLoop = false) :
    is.Pairwise fun j _ => j.ofLoop = false :=
  List.pairwise_of_forall_mem_list fun j hj _ _ => h j hj

theorem bottoms_runs (hruns : Runs cfg t s i o s' is) :
    is.Pairwise fun j _ => j.ofLoop = false := by
  cases hi : i.ofLoop with
  | false => exact pairwise_of_ofLoop fun j hj => (ofLoop_runs hruns j hj).1 hi
  | true =>
    cases hruns with
    | poll =>
      refine List.pairwise_append.mpr ⟨pairwise_of_ofLoop fun j hj => ?_,
        List.pairwise_singleton _ _, fun j hj _ _ => ?_⟩
      · obtain ⟨b, -, e, -, rfl⟩ := mem_activeChannels hj
        rfl
      · obtain ⟨b, -, e, -, rfl⟩ := mem_activeChannels hj
        rfl
    | swap =>
      refine List.pairwise_append.mpr ⟨pairwise_of_ofLoop fun j hj => ?_,
        List.pairwise_singleton _ _, fun j hj _ _ => ?_⟩
      · obtain ⟨f, -, rfl⟩ := List.mem_map.mp hj
        rfl
      · obtain ⟨f, -, rfl⟩ := List.mem_map.mp hj
        rfl
    | calls _ hcalls => cases hcalls <;> contradiction
    | testQuit => exact List.pairwise_singleton _ _
    | leave => exact List.Pairwise.nil
    | beginPendingFunctors => exact List.pairwise_singleton _ _
    | endPendingFunctors => exact List.pairwise_singleton _ _
    | _ => contradiction

omit [DecidableEq L] in
/-- What an instruction of `loop()` leaves below itself. -/
theorem Bottoms.rest_eq_nil (h : Bottoms s) (hstack : s.stack t = i :: rest)
    (hi : i.ofLoop = true) : rest = [] := by
  have hpairwise := h t
  rw [hstack, List.pairwise_cons] at hpairwise
  refine List.eq_nil_iff_forall_not_mem.mpr fun j hj => ?_
  rw [hpairwise.1 j hj] at hi
  contradiction

/-! ### Steps -/

variable [DecidableEq U]

theorem Bottoms.setStack (h : Bottoms s) (hstack : s'.stack = s.stack)
    (his : is.Pairwise fun j _ => j.ofLoop = false) : Bottoms (s'.setStack t is) := by
  intro u
  by_cases hu : u = t
  · subst hu
    rw [State.setStack_self]
    exact his
  · rw [State.setStack_of_ne hu, hstack]
    exact h u

theorem Bottoms.push (h : Bottoms s) (hstack : s'.stack = s.stack)
    (his : ∀ j ∈ is, j.ofLoop = false) : Bottoms (s'.push t is) := by
  refine h.setStack hstack (List.pairwise_append.mpr ⟨pairwise_of_ofLoop his, ?_,
    fun j hj _ _ => his j hj⟩)
  rw [hstack]
  exact h t

omit [DecidableEq L] [DecidableEq U] in
theorem bottoms_start (h : Start cfg s) : Bottoms s := by
  intro t
  rw [h.stack]
  exact List.Pairwise.nil

theorem bottoms_move {a : Label L U} (h : Bottoms s) (hmove : Move cfg s a s') : Bottoms s' := by
  cases hmove with
  | @exec t o i rest is s₁ hstack hruns =>
    refine h.setStack (stack_runs hruns) ?_
    have hpairwise := h t
    rw [hstack, List.pairwise_cons] at hpairwise
    cases hi : i.ofLoop with
    | true =>
      rw [h.rest_eq_nil hstack hi, List.append_nil]
      exact bottoms_runs hruns
    | false => exact List.pairwise_append.mpr ⟨bottoms_runs hruns, hpairwise.2,
        fun j hj _ _ => (ofLoop_runs hruns j hj).1 hi⟩
  | @callbackReturn t rest hstack =>
    refine h.setStack rfl ?_
    have hpairwise := h t
    rw [hstack, List.pairwise_cons] at hpairwise
    exact hpairwise.2
  | send => exact h.push rfl fun j hj => (ofLoop_runInLoop j hj).1
  | shutdown => exact h.push rfl (by simp [Instr.ofLoop])
  | refused => exact h
  | setThreadNum => exact h.push rfl fun j hj => (ofLoop_runInLoop j hj).1
  | @loop l hstack =>
    refine h.setStack rfl ?_
    show ([Instr.testQuit l] ++ s.stack (.loop l)).Pairwise _
    rw [hstack]
    exact List.pairwise_singleton _ _
  | quit =>
    refine h.push rfl fun j hj => ?_
    obtain rfl := Config.mem_quit hj
    rfl
  | destroyServer =>
    refine h.push rfl fun j hj => ?_
    rcases mem_destroyServer hj with ⟨d, hd⟩ | ⟨l, rfl | rfl⟩ | rfl
    · exact (ofLoop_runInLoop j hd).1
    · rfl
    · rfl
    · rfl
  | destroyConnection => exact h

omit [DecidableEq L] [DecidableEq U] in
/-- What was left of `loop()` is left of it, and no more has happened to the loop than the
conditions allow. -/
theorem Attends.mono {l : L} {f : Functor L} (h : Attends s l f)
    (hstack : ∀ j ∈ s.stack (.loop l), j.ofLoop = true → j ∈ s'.stack (.loop l))
    (hpending : f ∈ (s'.loops l).pendingFunctors → f ∈ (s.loops l).pendingFunctors ∨
      s.InLoop l ∧ ((s.loops l).quit = true → s.SwapAhead l))
    (hquit : f ∈ (s'.loops l).pendingFunctors → (s'.loops l).quit = true →
      (s.loops l).quit = true ∨ s.SwapAhead l) : Attends s' l f := by
  intro hf
  obtain ⟨⟨i, hi, hloop⟩, hahead⟩ := (hpending hf).elim h id
  refine ⟨⟨i, hstack i hi hloop, hloop⟩, fun hq => ?_⟩
  obtain ⟨j, hj, hbefore⟩ := (hquit hf hq).elim hahead id
  exact ⟨j, hstack j hj (Instr.ofLoop_of_beforeSwap hbefore), hbefore⟩

omit [DecidableEq L] in
/-- New code on a stack leaves the rest of `loop()` where it is. -/
theorem mem_push [DecidableEq L] {u : Thread L U} {j : Instr L} (hj : j ∈ s.stack u) :
    j ∈ (s.push t is).stack u := by
  by_cases hu : u = t
  · subst hu
    rw [State.push, State.setStack_self]
    exact List.mem_append_right _ hj
  · rwa [State.push, State.setStack_of_ne hu]

theorem Attends.push {l : L} {f : Functor L} (h : Attends s l f) :
    Attends (s.push t is) l f :=
  h.mono (fun _ hj _ => mem_push hj) .inl fun _ => .inl

omit [DecidableEq U] in
/-- Another loop changes. -/
theorem Attends.aside {l m : L} {f : Functor L} (h : Attends s l f) (hne : l ≠ m)
    {loop : EventLoop (Functor L)} : Attends (s.setLoop m loop) l f := by
  have hold : (s.setLoop m loop).loops l = s.loops l := setLoop_of_ne hne
  exact h.mono (fun _ hj _ => hj) (fun hf => .inl (hold ▸ hf)) fun _ hq => .inl (hold ▸ hq)

/-- One instruction that is not part of `loop()`. -/
theorem Attends.exec {l : L} {f : Functor L} (h : Attends s l f)
    (hstack : s.stack t = i :: rest) (hruns : Runs cfg t s i o s' is) (hi : i.ofLoop = false)
    (hqueues : i = .queueInLoop l f →
      s.InLoop l ∧ ((s.loops l).quit = true → s.SwapAhead l))
    (hquits : i = .quit l → f ∈ (s.loops l).pendingFunctors → s.SwapAhead l) :
    Attends (s'.setStack t (is ++ rest)) l f := by
  refine h.mono (fun j hj hloop => ?_) (fun hf => (mem_pending_runs hruns hf).imp id hqueues)
    fun hf hq => ?_
  · by_cases ht : .loop l = t
    · subst ht
      rw [State.setStack_self]
      rw [hstack] at hj
      rcases List.mem_cons.mp hj with rfl | hj
      · rw [hi] at hloop
        contradiction
      · exact List.mem_append_right _ hj
    · rwa [State.setStack_of_ne ht, stack_runs hruns]
  · refine (quit_runs hruns hq).imp id fun hquit => hquits hquit ?_
    refine (mem_pending_runs hruns hf).resolve_right fun hqueue => ?_
    rw [hquit] at hqueue
    contradiction

/-- The loop goes on: it swaps its queue before it can find `quit_` set. -/
theorem Attends.turn {l : L} {f : Functor L} (h : Attends s l f)
    (hstack : s.stack (.loop l) = [i]) (hruns : Runs cfg (.loop l) s i o s' is)
    (hi : i.home? cfg = some l) (hloop : i.ofLoop = true) :
    Attends (s'.setStack (.loop l) is) l f := by
  have hahead : s.SwapAhead l ↔ i.beforeSwap = true := by
    rw [State.SwapAhead, hstack]
    simp
  have hnext : ∀ {j : Instr L}, j ∈ is → j.beforeSwap = true →
      (s'.setStack (.loop l) is).InLoop l ∧ (s'.setStack (.loop l) is).SwapAhead l := by
    intro j hj hbefore
    have hmem : j ∈ (s'.setStack (.loop l) is).stack (.loop l) := by
      rwa [State.setStack_self]
    exact ⟨⟨j, hmem, Instr.ofLoop_of_beforeSwap hbefore⟩, j, hmem, hbefore⟩
  intro hf
  cases hruns with
  | @testQuit m =>
    obtain ⟨hin, hswap⟩ := hnext (j := .poll m) List.mem_cons_self rfl
    exact ⟨hin, fun _ => hswap⟩
  | leave hquit =>
    obtain rfl := Option.some.inj hi
    exact absurd (hahead.mp ((h hf).2 hquit)) (by simp [Instr.beforeSwap])
  | @poll m =>
    obtain ⟨hin, hswap⟩ := hnext (j := .beginPendingFunctors m) (by simp) rfl
    exact ⟨hin, fun _ => hswap⟩
  | @beginPendingFunctors m =>
    obtain ⟨hin, hswap⟩ := hnext (j := .swap m) List.mem_cons_self rfl
    exact ⟨hin, fun _ => hswap⟩
  | swap =>
    obtain rfl := Option.some.inj hi
    have hempty : f ∈ ((s.setLoop _ (s.loops _).swapFunctors).loops _).pendingFunctors := hf
    rw [setLoop_self] at hempty
    exact absurd hempty List.not_mem_nil
  | @endPendingFunctors m =>
    obtain rfl := Option.some.inj hi
    have hold : (s.setLoop m (s.loops m).endPendingFunctors).loops m =
        (s.loops m).endPendingFunctors := setLoop_self
    have hbefore : f ∈ (s.loops m).pendingFunctors := by
      have hafter : f ∈ ((s.setLoop m (s.loops m).endPendingFunctors).loops m).pendingFunctors := hf
      rwa [hold] at hafter
    refine ⟨⟨.testQuit m, ?_, rfl⟩, fun hquit => ?_⟩
    · rw [State.setStack_self]
      exact List.mem_cons_self
    · have hset : ((s.setLoop m (s.loops m).endPendingFunctors).loops m).quit = true := hquit
      rw [hold] at hset
      exact absurd (hahead.mp ((h hbefore).2 hset)) (by simp [Instr.beforeSwap])
  | calls _ hcalls => cases hcalls <;> contradiction
  | _ => contradiction

theorem attends_move {a : Label L U} {l : L} {f : Functor L} (hconfined : Confined cfg s)
    (hbottoms : Bottoms s) (h : Attends s l f)
    (hqueues : Queues s l f a = true →
      s.InLoop l ∧ ((s.loops l).quit = true → s.SwapAhead l))
    (hquits : Quits s l a = true → f ∈ (s.loops l).pendingFunctors → s.SwapAhead l)
    (hmove : Move cfg s a s') : Attends s' l f := by
  cases hmove with
  | @exec t o i rest is s₁ hstack hruns =>
    simp only [Queues, Quits, hstack, List.head?_cons, Option.some.injEq,
      decide_eq_true_eq] at hqueues hquits
    cases hi : i.ofLoop with
    | false => exact h.exec hstack hruns hi hqueues hquits
    | true =>
      -- an instruction of `loop()` is the last one on its stack
      obtain rfl := hbottoms.rest_eq_nil hstack hi
      rw [List.append_nil]
      have hhome : ∃ m, i.home? cfg = some m := by
        cases i <;> first | exact ⟨_, rfl⟩ | contradiction
      obtain ⟨m, hm⟩ := hhome
      obtain rfl : t = .loop m :=
        (hconfined.stack t i (hstack ▸ List.mem_cons_self)).thread hm
      rcases eq_or_ne l m with rfl | hne
      · exact h.turn hstack hruns hm hi
      · -- another loop goes on
        refine h.mono (fun j hj _ => ?_) (fun hf => .inl ?_) fun _ hq => .inl ?_
        · rw [State.setStack_of_ne fun heq => hne (Thread.loop.inj heq), stack_runs hruns]
          exact hj
        · refine (mem_pending_runs hruns hf).resolve_right ?_
          rintro rfl
          contradiction
        · refine (quit_runs hruns hq).resolve_right ?_
          rintro rfl
          contradiction
  | @callbackReturn t rest hstack =>
    refine h.mono (fun j hj hloop => ?_) .inl fun _ => .inl
    by_cases ht : .loop l = t
    · subst ht
      rw [State.setStack_self]
      rw [hstack] at hj
      rcases List.mem_cons.mp hj with rfl | hj
      · contradiction
      · exact hj
    · rwa [State.setStack_of_ne ht]
  | send => exact h.push
  | shutdown => exact h.push
  | refused => exact h
  | setThreadNum => exact h.push
  | @loop m hempty =>
    rcases eq_or_ne l m with rfl | hne
    · -- a loop that is not in `loop()` has not been handed `f`
      intro hf
      have hbefore : f ∈ (s.loops l).pendingFunctors := by
        have hafter : f ∈
            ((s.setLoop l { s.loops l with quit := false }).loops l).pendingFunctors := hf
        rwa [setLoop_self] at hafter
      obtain ⟨⟨j, hj, -⟩, -⟩ := h hbefore
      rw [hempty] at hj
      exact absurd hj List.not_mem_nil
    · exact (h.aside hne).push
  | @quit t m =>
    -- the store to `quit_` first, then what the caller has still to do
    have hset : Attends (s.setLoop m { s.loops m with quit := true }) l f := by
      rcases eq_or_ne l m with rfl | hne
      · refine h.mono (fun _ hj _ => hj) (fun hf => .inl ?_) fun hf _ => .inr ?_
        · rwa [setLoop_self] at hf
        · rw [setLoop_self] at hf
          exact hquits (by simp [Quits]) hf
      · exact h.aside hne
    exact hset.push
  | destroyServer => exact h.push
  | destroyConnection => exact h

end Step

end TcpServer

end Moduo
