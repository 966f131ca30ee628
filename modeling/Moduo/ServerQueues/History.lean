/-
What is done with the queue of a loop of a server.

* `History` — what has been pushed on the loop, what of it has been run from a batch,
  and what is left of the batch that `doPendingFunctors` has swapped out;
* `Layout.Goes.rest` — what is left of the batch is what the round of the loop has
  still to run;
* `ordered_step` — what has been run, what is left of the batch and what is in
  `pendingFunctors_` are together what has been pushed.

The functors of a batch lie on the stack of the loop, so the one that is run next is
known by what is below it: the others that are left, and nothing else.
-/
import Moduo.ServerQueues.Callers

namespace Moduo

namespace TcpServer

variable {L U : Type*}

section Observe

variable [DecidableEq L]

/-- The stack of loop `l` where these functors are left of its batch and none is running. -/
def batch (l : L) (functors : List (Functor L)) : List (Instr L) :=
  functors.map .functor ++ [.endPendingFunctors l]

/-- What a step runs of the batch of loop `l`, of which `functors` are left. -/
def State.started (s : State L U) (l : L) (functors : List (Functor L)) :
    Label L U → List (Functor L)
  | .exec (.loop m) _ =>
    if m = l ∧ s.stack (.loop l) = batch l functors then functors.take 1 else []
  | _ => []

/-- What a step leaves of the batch of loop `l`; a swap makes a new one. -/
def State.left (s : State L U) (l : L) (functors : List (Functor L)) :
    Label L U → List (Functor L)
  | .exec (.loop m) _ =>
    if m ≠ l then functors
    else if s.stack (.loop l) = [.swap l] then (s.loops l).pendingFunctors
    else if s.stack (.loop l) = batch l functors then functors.tail
    else functors
  | _ => functors

/-- What has been done with the queue of a loop. -/
structure History (L : Type*) where
  pushed : List (Functor L)
  running : List (Functor L)
  executed : List (Functor L)

def History.empty : History L := ⟨[], [], []⟩

/-- The history of loop `l` after a step. -/
def History.next (s : State L U) (l : L) (h : History L) (a : Label L U) : History L where
  pushed := h.pushed ++ s.pushes l a
  running := s.left l h.running a
  executed := h.executed ++ s.started l h.running a

/-- A server, with the history of each loop. -/
def withHistories [Fintype L] [DecidableEq U] (cfg : Config L U) :
    Machine (State L U × (L → History L)) (Label L U) :=
  (system cfg).recording (fun _ => .empty) fun s a h l => (h l).next s l a

end Observe

/-! ### The round and the batch -/

section Rest

variable {l : L} {r r' : Round L} {i : Instr L} {is : List (Instr L)} {s s' : State L U}

/-- What a round has still to do is no less than its functors and the end of the batch. -/
theorem Round.rest_length (r : Round L) (l : L) :
    r.rest = [] ∨ r.rest.length < (r.instrs l).length := by
  cases r with
  | running functors => exact .inr (by simp [Round.rest, Round.instrs])
  | disconnecting c functors => exact .inr (by simp [Round.rest, Round.instrs]; omega)
  | removing c functors => exact .inr (by simp [Round.rest, Round.instrs])
  | _ => exact .inl rfl

/-- While other code runs above the round, the batch does not go on. -/
theorem Layout.Fits.above {lay : Layout L U} (hfits : lay.Fits s) {b : List (Instr L)}
    (hbody : lay.body (.loop l) = i :: b) :
    s.stack (.loop l) ≠ [.swap l] ∧ s.stack (.loop l) ≠ batch l (lay.round l).rest := by
  have hin := hfits.inside (.loop l) i (hbody ▸ List.mem_cons_self)
  have hstack := hfits.stack (.loop l)
  rw [hbody, Layout.rest, List.cons_append] at hstack
  rw [hstack]
  constructor
  · intro heq
    obtain rfl := (List.cons.inj heq).1
    contradiction
  · intro heq
    rcases (lay.round l).rest_length l with hnil | hlt
    · -- then the end of the batch would be part of the other code
      rw [hnil] at heq
      obtain rfl := (List.cons.inj heq).1
      contradiction
    · have hlength := congrArg List.length heq
      simp only [batch, List.length_cons, List.length_append, List.length_map,
        List.length_nil] at hlength
      omega

variable [DecidableEq L] {functors : List (Functor L)} {o : Outcome}

theorem left_swap (hstack : s.stack (.loop l) = [.swap l]) :
    s.left l functors (.exec (.loop l) o) = (s.loops l).pendingFunctors := by
  rw [State.left, if_neg (by simp), if_pos hstack]

theorem left_batch (hstack : s.stack (.loop l) = batch l functors) :
    s.left l functors (.exec (.loop l) o) = functors.tail := by
  have hswap : batch l functors ≠ [.swap l] := by
    cases functors <;> simp [batch]
  rw [State.left, if_neg (by simp), hstack, if_neg hswap, if_pos rfl]

theorem left_other {t : Thread L U} (hswap : t = .loop l → s.stack t ≠ [.swap l])
    (hbatch : t = .loop l → s.stack t ≠ batch l functors) :
    s.left l functors (.exec t o) = functors := by
  cases t with
  | user u => rfl
  | loop m =>
    by_cases hm : m = l
    · subst hm
      rw [State.left, if_neg (by simp), if_neg (hswap rfl), if_neg (hbatch rfl)]
    · rw [State.left, if_pos hm]

variable {cfg : Config L U}

/-- The loop takes its round on. -/
theorem Round.Turn.rest (hturn : r.Turn l i is r') (hruns : Runs cfg (.loop l) s i o s' is)
    (hstack : s.stack (.loop l) = r.instrs l) :
    r'.rest = s.left l r.rest (.exec (.loop l) o) := by
  generalize hfollow : is = follow at hturn
  cases hturn with
  | swap functors =>
    rw [left_swap hstack]
    cases hruns with
    | calls _ hcalls => cases hcalls
    | swap =>
      exact List.map_injective_iff.mpr (fun _ _ hf => Instr.functor.inj hf)
        ((List.append_left_inj _).mp hfollow).symm
  | destroyFound => exact (left_batch hstack).symm
  | destroySkips => exact (left_batch hstack).symm
  | endPendingFunctors => exact (left_batch hstack).symm
  | @removeChannel c functors =>
    -- the functor that runs is not part of what is left
    refine (left_other (fun _ => ?_) fun _ => ?_).symm
    · rw [hstack]
      simp [Round.instrs]
    · rw [hstack]
      cases functors <;> simp [Round.instrs, Round.rest, batch]
  | _ =>
    refine (left_other (fun _ => ?_) fun _ => ?_).symm
    · rw [hstack]
      simp [Round.instrs]
    · rw [hstack]
      simp [Round.instrs, Round.rest, batch]

/-- The loop starts other code. -/
theorem Round.Enters.rest (henter : r.Enters i r') (hstack : s.stack (.loop l) = r.instrs l) :
    r'.rest = s.left l r.rest (.exec (.loop l) o) := by
  cases henter with
  | functor => exact (left_batch hstack).symm
  | handleEvent =>
    refine (left_other (fun _ => ?_) fun _ => ?_).symm
    · rw [hstack]
      simp [Round.instrs]
    · rw [hstack]
      simp [Round.instrs, Round.rest, batch]
  | @disconnect c functors =>
    refine (left_other (fun _ => ?_) fun _ => ?_).symm
    · rw [hstack]
      simp [Round.instrs]
    · rw [hstack]
      cases functors <;> simp [Round.instrs, Round.rest, batch]

variable [DecidableEq U] {t : Thread L U}

/-- What the round has still to run after an instruction. -/
theorem Layout.Goes.rest {lay lay' : Layout L U} (hgoes : lay.Goes t i is lay')
    (hfits : lay.Fits s) (hruns : Runs cfg t s i o s' is) :
    (lay'.round l).rest = s.left l (lay.round l).rest (.exec t o) := by
  cases hgoes with
  | body hbody =>
    refine (left_other (fun ht => ?_) fun ht => ?_).symm
    · subst ht
      exact (hfits.above hbody).1
    · subst ht
      exact (hfits.above hbody).2
  | @turn m _ _ r hbody hturn =>
    by_cases hm : l = m
    · subst hm
      rw [Layout.setRound_self]
      refine hturn.rest hruns ?_
      rw [hfits.stack, hbody]
      rfl
    · rw [Layout.setRound_of_ne hm, left_other]
      all_goals exact fun ht => absurd (Thread.loop.inj ht).symm hm
  | @enter m _ _ r hbody henter =>
    rw [Layout.setBody_round]
    by_cases hm : l = m
    · subst hm
      rw [Layout.setRound_self]
      refine henter.rest ?_
      rw [hfits.stack, hbody]
      rfl
    · rw [Layout.setRound_of_ne hm, left_other]
      all_goals exact fun ht => absurd (Thread.loop.inj ht).symm hm

end Rest

/-! ### The order -/

section Order

variable [DecidableEq L] {cfg : Config L U} {l : L} {s s' : State L U} {t : Thread L U}
  {i : Instr L} {o : Outcome} {is : List (Instr L)}

/-- A call from outside of `loop()` leaves the functors of a queue alone. -/
theorem pending_move [DecidableEq U] [Fintype L] {a : Label L U} (hmove : Move cfg s a s')
    (ha : ∀ t o, a ≠ .exec t o) :
    (s'.loops l).pendingFunctors = (s.loops l).pendingFunctors := by
  cases hmove with
  | exec => exact absurd rfl (ha _ _)
  | @loop m =>
    have hq : { s.loops m with quit := false }.pendingFunctors = (s.loops m).pendingFunctors := rfl
    exact pending_setLoop_same hq l
  | @quit _ m =>
    have hq : { s.loops m with quit := true }.pendingFunctors = (s.loops m).pendingFunctors := rfl
    exact pending_setLoop_same hq l
  | _ => rfl

/-- What has been run, what is left of the batch and what is in the queue, in this
order, is what has been pushed. -/
def History.Ordered (h : History L) (loop : EventLoop (Functor L)) : Prop :=
  h.executed ++ h.running ++ loop.pendingFunctors = h.pushed

/-- An instruction runs the next functor of the batch, or it runs none. -/
theorem started_left (functors : List (Functor L))
    (hswap : t = .loop l → s.stack t ≠ [.swap l]) :
    s.started l functors (.exec t o) ++ s.left l functors (.exec t o) = functors := by
  cases t with
  | user u => rfl
  | loop m =>
    by_cases hbatch : m = l ∧ s.stack (.loop l) = batch l functors
    · obtain ⟨rfl, hstack⟩ := hbatch
      rw [left_batch hstack, State.started, if_pos ⟨rfl, hstack⟩]
      cases functors <;> rfl
    · rw [State.started, if_neg hbatch, List.nil_append]
      refine left_other hswap fun ht hstack => hbatch ?_
      obtain rfl := Thread.loop.inj ht
      exact ⟨rfl, hstack⟩

/-- A step keeps the order. -/
theorem ordered_step {lay : Layout L U} [DecidableEq U] [Fintype L] {a : Label L U} {h : History L}
    (hfits : lay.Fits s) (hrest : h.running = (lay.round l).rest)
    (hord : h.Ordered (s.loops l)) (hstep : step cfg s a = some s') :
    (h.next s l a).Ordered (s'.loops l) := by
  have hord : h.executed ++ h.running ++ (s.loops l).pendingFunctors = h.pushed := hord
  show h.executed ++ s.started l h.running a ++ s.left l h.running a ++
    (s'.loops l).pendingFunctors = h.pushed ++ s.pushes l a
  by_cases ha : ∀ t o, a ≠ .exec t o
  · have hq : (s'.loops l).pendingFunctors = (s.loops l).pendingFunctors :=
      pending_move (move_of_step hstep) ha
    have hquiet : s.started l h.running a = [] ∧ s.left l h.running a = h.running ∧
        s.pushes l a = [] := by
      cases a with
      | exec t o => exact absurd rfl (ha t o)
      | _ => exact ⟨rfl, rfl, rfl⟩
    rw [hquiet.1, hquiet.2.1, hquiet.2.2, hq, List.append_nil, List.append_nil, hord]
  · simp only [not_forall, not_not] at ha
    obtain ⟨t, o, rfl⟩ := ha
    obtain ⟨i, rest, r, hstack, hr, rfl⟩ := exec_of_step hstep
    have hq := pending_runs (l := l) (runs_of_exec hr)
    have hpushes : s.pushes l (.exec t o) = i.pushes l := by simp [State.pushes, hstack]
    show _ ++ (r.1.loops l).pendingFunctors = _
    rw [hq, hpushes]
    by_cases hi : i = .swap l
    · -- nothing is left of the batch before, and the queue is the new one
      subst hi
      obtain ⟨rfl, rfl, hround⟩ := hfits.swaps hstack
      have hnone : h.running = [] := by
        rw [hrest, hround]
        rfl
      have hstarted : s.started l h.running (.exec (.loop l) o) = [] := by
        rw [hnone]
        exact if_neg fun hb => by simp [hstack, batch] at hb
      rw [left_swap hstack, hstarted, if_pos rfl, ← hord, hnone]
      simp [Instr.pushes]
    · have hswap : t = .loop l → s.stack t ≠ [.swap l] := by
        rintro rfl heq
        rw [hstack] at heq
        exact hi (List.cons.inj heq).1
      rw [if_neg hi, List.append_assoc h.executed, started_left h.running hswap, ← hord]
      simp only [List.append_assoc]

end Order

end TcpServer

end Moduo
