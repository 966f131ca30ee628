/-
The rounds of the loops of a server.

While a server is not being destroyed, the stack of a loop thread has two parts:
what is left of the round of `loop()`, and above it what is left of the handler
or functor that is running, or of code outside of `loop()`.  A `Layout` is such
a division of all stacks.

* `Round` — the states of one round, with the events and functors still to come;
  `connectionDestroyed`, which no handler calls, is part of the round;
* `Layout.Goes` — how one instruction changes the layout;
* `Layout.Fits.exec`, `Layout.Fits.push`, … — the divisions stay right.
-/
import Moduo.ConnectionStages

namespace Moduo

namespace TcpServer

variable {L U : Type*}

/-- What a server that is not being destroyed may do in state `s`. -/
def Serving (s : State L U) : Label L U → Prop
  | .exec _ (.accepted (some _)) => s.nextConnId < 2 ^ 31 - 1
  | .destroyServer _ => False
  | _ => True

instance (s : State L U) : (a : Label L U) → Decidable (Serving s a)
  | .exec _ .none => .isTrue trivial
  | .exec _ (.polled _) => .isTrue trivial
  | .exec _ (.read _) => .isTrue trivial
  | .exec _ (.wrote _) => .isTrue trivial
  | .exec _ (.accepted none) => .isTrue trivial
  | .exec _ (.accepted (some _)) => inferInstanceAs (Decidable (s.nextConnId < 2 ^ 31 - 1))
  | .callbackReturn _ => .isTrue trivial
  | .send _ _ _ => .isTrue trivial
  | .shutdown _ _ => .isTrue trivial
  | .setThreadNum _ => .isTrue trivial
  | .loop _ => .isTrue trivial
  | .quit _ _ => .isTrue trivial
  | .destroyServer _ => .isFalse id
  | .destroyConnection _ => .isTrue trivial

/-- `quit` is called on the base loop only: the thread of an io loop calls `loop()` once
and destroys the loop after it. -/
def Staying (cfg : Config L U) : Label L U → Prop
  | .quit _ l => l = cfg.base
  | _ => True

instance [DecidableEq L] (cfg : Config L U) : (a : Label L U) → Decidable (Staying cfg a)
  | .exec _ _ => .isTrue trivial
  | .callbackReturn _ => .isTrue trivial
  | .send _ _ _ => .isTrue trivial
  | .shutdown _ _ => .isTrue trivial
  | .setThreadNum _ => .isTrue trivial
  | .loop _ => .isTrue trivial
  | .quit _ l => inferInstanceAs (Decidable (l = cfg.base))
  | .destroyServer _ => .isTrue trivial
  | .destroyConnection _ => .isTrue trivial

/-- Where a loop is in its round. -/
inductive Round (L : Type*)
  | outside
  | testing
  | polling
  | dispatching (events : List (ChannelPtr L × EventMask))
  | swapping
  | running (functors : List (Functor L))
  | disconnecting (c : ConnPtr L) (functors : List (Functor L))
  | removing (c : ConnPtr L) (functors : List (Functor L))

/-- What is left of the round of loop `l`. -/
def Round.instrs (l : L) : Round L → List (Instr L)
  | .outside => []
  | .testing => [.testQuit l]
  | .polling => [.poll l]
  | .dispatching events =>
    events.map (fun e => .handleEvent e.1 e.2) ++ [.beginPendingFunctors l]
  | .swapping => [.swap l]
  | .running functors => functors.map .functor ++ [.endPendingFunctors l]
  | .disconnecting c functors =>
    .disconnect c :: .removeChannel c :: functors.map .functor ++ [.endPendingFunctors l]
  | .removing c functors =>
    .removeChannel c :: functors.map .functor ++ [.endPendingFunctors l]

/-- Other code than that of `loop()` may be running. -/
def Round.hasBody : Round L → Bool
  | .outside => true
  | .dispatching _ => true
  | .running _ => true
  | .removing _ _ => true
  | _ => false

def Round.isDispatching : Round L → Bool
  | .dispatching _ => true
  | _ => false

/-- The functors of the batch that have not been run. -/
def Round.rest : Round L → List (Functor L)
  | .running functors => functors
  | .disconnecting _ functors => functors
  | .removing _ functors => functors
  | _ => []

/-- The functor may be run by `runInLoop`, and not from the queue only. -/
def Functor.direct : Functor L → Bool
  | .connectionDestroyed _ => false
  | .notice _ _ => false
  | _ => true

/-- The instruction may be left of a handler, a functor or other code that runs
in round `r`. -/
def Instr.inside (r : Round L) : Instr L → Bool
  | .user => true
  | .functor f => f.direct
  | .queueInLoop _ _ => true
  | .testWakeup _ => true
  | .wakeup _ => true
  | .setDisconnecting _ => true
  | .removeConnection _ => true
  | .closeCallback _ => r.isDispatching
  | .errorCallback _ => r.isDispatching
  | .readCallback _ => r.isDispatching
  | .writeCallback _ => r.isDispatching
  | .unguard _ => r.isDispatching
  | _ => false

/-- The instruction follows the one that pushed it at once: it goes on with a
`send`, a `shutdown`, a `queueInLoop` or a `quit`. -/
def Instr.immediate : Instr L → Bool
  | .functor f => f.raw?.isSome
  | .queueInLoop _ f => f.raw?.isSome
  | .setDisconnecting _ => true
  | .testWakeup _ => true
  | .wakeup _ => true
  | _ => false

/-- The instruction is part of the end of the server. -/
def Instr.leaves : Instr L → Bool
  | .quit _ => true
  | .join _ => true
  | .removeAcceptor => true
  | _ => false

/-- A division of the stacks. -/
structure Layout (L U : Type*) where
  body : Thread L U → List (Instr L)
  round : L → Round L

namespace Layout

/-- The round of a thread; a thread without a loop is always outside. -/
def roundOf (lay : Layout L U) : Thread L U → Round L
  | .loop l => lay.round l
  | .user _ => .outside

/-- What is left of the round of a thread. -/
def rest (lay : Layout L U) : Thread L U → List (Instr L)
  | .loop l => (lay.round l).instrs l
  | .user _ => []

/-- The layout divides the stacks of `s`. -/
structure Fits (lay : Layout L U) (s : State L U) : Prop where
  stack : ∀ t, s.stack t = lay.body t ++ lay.rest t
  inside : ∀ t, ∀ i ∈ lay.body t, i.inside (lay.roundOf t) = true
  idle : ∀ l, (lay.round l).hasBody = false → lay.body (.loop l) = []
  immediate : ∀ t, ∀ i ∈ (lay.body t).tail, i.immediate = false

end Layout

/-- One instruction takes the loop on in its round, and what follows it belongs to
the round. -/
inductive Round.Turn (l : L) : Round L → Instr L → List (Instr L) → Round L → Prop
  | testQuit : Turn l .testing (.testQuit l) [.poll l] .polling
  | leave : Turn l .testing (.testQuit l) [] .outside
  | poll (events : List (ChannelPtr L × EventMask)) : Turn l .polling (.poll l)
      (events.map (fun e => .handleEvent e.1 e.2) ++ [.beginPendingFunctors l])
      (.dispatching events)
  | beginPendingFunctors : Turn l (.dispatching []) (.beginPendingFunctors l) [.swap l] .swapping
  | swap (functors : List (Functor L)) : Turn l .swapping (.swap l)
      (functors.map .functor ++ [.endPendingFunctors l]) (.running functors)
  | endPendingFunctors : Turn l (.running []) (.endPendingFunctors l) [.testQuit l] .testing
  | destroyFound {c : ConnPtr L} {functors : List (Functor L)} :
      Turn l (.running (.connectionDestroyed c :: functors)) (.functor (.connectionDestroyed c))
        [.disconnect c, .removeChannel c] (.disconnecting c functors)
  | destroySkips {c : ConnPtr L} {functors : List (Functor L)} :
      Turn l (.running (.connectionDestroyed c :: functors)) (.functor (.connectionDestroyed c))
        [.removeChannel c] (.removing c functors)
  | removeChannel {c : ConnPtr L} {functors : List (Functor L)} :
      Turn l (.removing c functors) (.removeChannel c) [] (.running functors)

/-- One instruction of a round starts other code. -/
inductive Round.Enters : Round L → Instr L → Round L → Prop
  | handleEvent {p : ChannelPtr L} {revents : EventMask}
      {events : List (ChannelPtr L × EventMask)} :
      Enters (.dispatching ((p, revents) :: events)) (.handleEvent p revents) (.dispatching events)
  | functor {f : Functor L} {functors : List (Functor L)} : (∀ c, f ≠ .connectionDestroyed c) →
      Enters (.running (f :: functors)) (.functor f) (.running functors)
  | disconnect {c : ConnPtr L} {functors : List (Functor L)} :
      Enters (.disconnecting c functors) (.disconnect c) (.removing c functors)

section Goes

variable [DecidableEq L] [DecidableEq U]

namespace Layout

def setBody (lay : Layout L U) (t : Thread L U) (is : List (Instr L)) : Layout L U :=
  { lay with body := Function.update lay.body t is }

def setRound (lay : Layout L U) (l : L) (r : Round L) : Layout L U :=
  { lay with round := Function.update lay.round l r }

/-- Thread `t` runs instruction `i`, which `is` follows. -/
inductive Goes (lay : Layout L U) :
    Thread L U → Instr L → List (Instr L) → Layout L U → Prop
  | body {t : Thread L U} {i : Instr L} {b is : List (Instr L)} : lay.body t = i :: b →
      Goes lay t i is (lay.setBody t (is ++ b))
  | turn {l : L} {i : Instr L} {is : List (Instr L)} {r : Round L} : lay.body (.loop l) = [] →
      (lay.round l).Turn l i is r → Goes lay (.loop l) i is (lay.setRound l r)
  | enter {l : L} {i : Instr L} {is : List (Instr L)} {r : Round L} : lay.body (.loop l) = [] →
      (lay.round l).Enters i r → Goes lay (.loop l) i is ((lay.setRound l r).setBody (.loop l) is)

end Layout

end Goes

/-! ### What may follow -/

/-- The events of a batch, with the pointers to their channels. -/
theorem activeChannels_eq (p : EPollPoller (ChannelPtr L)) (ready : List (ℕ × EventMask)) :
    activeChannels p ready =
      (ready.filterMap fun b => (p.epoll b.1).map fun e => (e.2, b.2)).map
        fun e => .handleEvent e.1 e.2 := by
  rw [activeChannels, List.map_filterMap]
  refine List.filterMap_congr fun b _ => ?_
  rw [Option.map_map]
  rfl

section Step

variable [DecidableEq L] {cfg : Config L U} {s s' : State L U} {t : Thread L U} {i : Instr L}
  {o : Outcome} {is : List (Instr L)} {r : Round L}

/-- The instructions may be left in round `r`, and only the first is immediate. -/
def Round.Admits (r : Round L) (is : List (Instr L)) : Prop :=
  (∀ i ∈ is, i.inside r = true) ∧ ∀ i ∈ is.tail, i.immediate = false

omit [DecidableEq L] in
theorem Round.admits_nil : r.Admits [] :=
  ⟨fun _ h => absurd h List.not_mem_nil, fun _ h => absurd h List.not_mem_nil⟩

omit [DecidableEq L] in
theorem Round.admits_singleton (h : i.inside r = true) : r.Admits [i] :=
  ⟨fun _ hj => List.mem_singleton.mp hj ▸ h, fun _ hj => absurd hj List.not_mem_nil⟩

omit [DecidableEq L] in
/-- Instructions none of which is immediate. -/
theorem Round.admits_of_forall (h : ∀ i ∈ is, i.inside r = true ∧ i.immediate = false) :
    r.Admits is :=
  ⟨fun i hi => (h i hi).1, fun i hi => (h i (List.mem_of_mem_tail hi)).2⟩

omit [DecidableEq L] in
theorem Round.admits_effects (r : Round L) (c : ConnPtr L) (tr : List Effect) :
    r.Admits (tr.flatMap (effectInstrs c)) := by
  refine Round.admits_of_forall fun j hj => ?_
  rcases mem_effects hj with ⟨cb, rfl⟩ | rfl | rfl
  · exact ⟨rfl, rfl⟩
  · exact ⟨rfl, rfl⟩
  · exact ⟨rfl, rfl⟩

omit [DecidableEq L] in
theorem Round.admits_runInLoop {l : L} {f : Functor L} (hf : f.direct = true) :
    r.Admits (cfg.runInLoop t l f) := by
  rw [Config.runInLoop]
  split_ifs
  · exact Round.admits_singleton hf
  · exact Round.admits_singleton rfl

/-- What follows an instruction of a body belongs to the body. -/
theorem admits_runs (hi : i.inside r = true) (hruns : Runs cfg t s i o s' is) : r.Admits is := by
  cases hruns with
  | calls => exact Round.admits_effects r _ _
  | listen => exact Round.admits_nil
  | removeConnectionInLoop => exact Round.admits_singleton rfl
  | queueInLoop => exact Round.admits_singleton rfl
  | testWakeup => exact Round.admits_singleton rfl
  | noWakeup => exact Round.admits_nil
  | wakeup => exact Round.admits_nil
  | unguard => exact Round.admits_nil
  | setDisconnecting => exact Round.admits_runInLoop rfl
  | removeConnection => exact Round.admits_runInLoop rfl
  | _ => exact absurd hi (by simp [Instr.inside, Functor.direct])

/-- What follows an instruction that starts other code may follow it. -/
theorem admits_enters {r' : Round L} (hr : r.Enters i r') (hruns : Runs cfg t s i o s' is) :
    r'.Admits is := by
  cases hr with
  | handleEvent =>
    cases hruns with
    | calls _ hcalls => cases hcalls
    | handleWakeup => exact Round.admits_nil
    | ignored => exact Round.admits_nil
    | newConnection => exact Round.admits_runInLoop rfl
    | handleEvent =>
      refine Round.admits_of_forall fun j hj => ?_
      rcases mem_eventCallbacks hj with rfl | rfl | rfl | rfl | rfl
      all_goals exact ⟨rfl, rfl⟩
  | functor hf =>
    cases hruns with
    | calls => exact Round.admits_effects _ _ _
    | listen => exact Round.admits_nil
    | destroyFound => exact absurd rfl (hf _)
    | destroySkips => exact absurd rfl (hf _)
    | removeConnectionInLoop => exact Round.admits_singleton rfl
    | notice => exact Round.admits_singleton rfl
  | disconnect =>
    cases hruns with
    | calls => exact Round.admits_effects _ _ _

end Step

/-! ### Steps -/

section Fits

variable [DecidableEq L] [DecidableEq U] {cfg : Config L U} {s s' : State L U} {t : Thread L U}
  {i : Instr L} {o : Outcome} {rest is b : List (Instr L)} {lay : Layout L U}

namespace Layout

@[simp] theorem setBody_self : (lay.setBody t b).body t = b := Function.update_self _ _ _

omit [DecidableEq U] in
@[simp] theorem setRound_self {l : L} {r : Round L} : (lay.setRound l r).round l = r :=
  Function.update_self _ _ _

@[simp] theorem setBody_round : (lay.setBody t b).round = lay.round := rfl

omit [DecidableEq U] in
@[simp] theorem setRound_body {l : L} {r : Round L} : (lay.setRound l r).body = lay.body := rfl

theorem setBody_of_ne {t' : Thread L U} (h : t' ≠ t) : (lay.setBody t b).body t' = lay.body t' :=
  Function.update_of_ne h _ _

omit [DecidableEq U] in
theorem setRound_of_ne {l m : L} {r : Round L} (h : m ≠ l) :
    (lay.setRound l r).round m = lay.round m :=
  Function.update_of_ne h _ _

/-- Another body in the same round. -/
theorem Fits.setBody (h : lay.Fits s) (hother : ∀ t', t' ≠ t → s'.stack t' = s.stack t')
    (hstack : s'.stack t = b ++ lay.rest t) (hadmits : (lay.roundOf t).Admits b)
    (hbody : ∀ l, t = .loop l → (lay.round l).hasBody = true) : (lay.setBody t b).Fits s' := by
  constructor
  case stack =>
    intro t'
    by_cases ht : t' = t
    · subst ht
      rw [setBody_self, hstack]
      cases t' <;> rfl
    · rw [setBody_of_ne ht, hother t' ht, h.stack t']
      cases t' <;> rfl
  case inside =>
    intro t' j hj
    by_cases ht : t' = t
    · subst ht
      rw [setBody_self] at hj
      have hin := hadmits.1 j hj
      cases t' <;> exact hin
    · rw [setBody_of_ne ht] at hj
      have hin := h.inside t' j hj
      cases t' <;> exact hin
  case idle =>
    intro l hl
    by_cases ht : .loop l = t
    · have hopen := hbody l ht.symm
      rw [setBody_round, hopen] at hl
      contradiction
    · rw [setBody_of_ne ht]
      exact h.idle l hl
  case immediate =>
    intro t' j hj
    by_cases ht : t' = t
    · subst ht
      rw [setBody_self] at hj
      exact hadmits.2 j hj
    · rw [setBody_of_ne ht] at hj
      exact h.immediate t' j hj

omit [DecidableEq U] in
/-- A loop that runs no other code takes its round on. -/
theorem Fits.setRound {l : L} {r : Round L} (h : lay.Fits s) (hidle : lay.body (.loop l) = [])
    (hother : ∀ t', t' ≠ .loop l → s'.stack t' = s.stack t')
    (hstack : s'.stack (.loop l) = r.instrs l) : (lay.setRound l r).Fits s' := by
  constructor
  case stack =>
    intro t'
    rw [setRound_body]
    cases t' with
    | loop m =>
      by_cases hm : m = l
      · subst hm
        rw [hidle, hstack, rest, setRound_self]
        rfl
      · rw [hother _ (by simp [hm]), h.stack, rest, rest, setRound_of_ne hm]
    | user u =>
      rw [hother _ (by simp), h.stack]
      rfl
  case inside =>
    intro t' j hj
    rw [setRound_body] at hj
    cases t' with
    | loop m =>
      by_cases hm : m = l
      · subst hm
        rw [hidle] at hj
        exact absurd hj List.not_mem_nil
      · rw [roundOf, setRound_of_ne hm]
        exact h.inside _ j hj
    | user u => exact h.inside _ j hj
  case idle =>
    intro m hm
    rw [setRound_body]
    by_cases hml : m = l
    · rw [hml]
      exact hidle
    · rw [setRound_of_ne hml] at hm
      exact h.idle m hm
  case immediate => exact h.immediate

omit [DecidableEq L] [DecidableEq U] in
theorem Fits.of_stack (h : lay.Fits s) (hs : s'.stack = s.stack) : lay.Fits s' :=
  ⟨fun t => by rw [hs, h.stack t], h.inside, h.idle, h.immediate⟩

omit [DecidableEq L] [DecidableEq U] in
/-- The server is not being destroyed. -/
theorem Fits.not_leaves (h : lay.Fits s) (hi : i ∈ s.stack t) : i.leaves = false := by
  rw [h.stack t] at hi
  rcases List.mem_append.mp hi with hi | hi
  · have hin := h.inside t _ hi
    cases i <;> first | rfl | contradiction
  · cases t with
    | user u => exact absurd hi List.not_mem_nil
    | loop l =>
      have hround : i ∈ (lay.round l).instrs l := hi
      cases i
      case quit => cases hr : lay.round l <;> simp [hr, Round.instrs] at hround
      case join => cases hr : lay.round l <;> simp [hr, Round.instrs] at hround
      case removeAcceptor => cases hr : lay.round l <;> simp [hr, Round.instrs] at hround
      all_goals rfl

omit [DecidableEq L] [DecidableEq U] in
/-- The first instruction of a stack is that of the body, or the round's. -/
theorem Fits.cases_stack (h : lay.Fits s) (hstack : s.stack t = i :: rest) :
    (∃ b, lay.body t = i :: b ∧ rest = b ++ lay.rest t) ∨
      ∃ l, t = .loop l ∧ lay.body (.loop l) = [] ∧ (lay.round l).instrs l = i :: rest := by
  rw [h.stack t] at hstack
  cases hbody : lay.body t with
  | cons j b =>
    rw [hbody, List.cons_append] at hstack
    obtain ⟨rfl, rfl⟩ := List.cons.inj hstack
    exact .inl ⟨b, rfl, rfl⟩
  | nil =>
    rw [hbody, List.nil_append] at hstack
    cases t with
    | loop l => exact .inr ⟨l, rfl, hbody, hstack⟩
    | user u => exact absurd hstack (by simp [Layout.rest])

omit [DecidableEq L] [DecidableEq U] in
/-- A loop that comes to `poll` has nothing below it. -/
theorem Fits.polls (h : lay.Fits s) {l : L} (hstack : s.stack t = .poll l :: rest) :
    t = .loop l ∧ rest = [] ∧ lay.round l = .polling := by
  rcases h.cases_stack hstack with ⟨b, hbody, -⟩ | ⟨m, rfl, -, hround⟩
  · have hin := h.inside t (.poll l) (hbody ▸ List.mem_cons_self)
    contradiction
  · cases hr : lay.round m with
    | polling =>
      rw [hr] at hround
      obtain ⟨hl, rfl⟩ := List.cons.inj hround
      obtain rfl := Instr.poll.inj hl
      exact ⟨rfl, rfl, hr⟩
    | dispatching events => cases events <;> simp [hr, Round.instrs] at hround
    | running functors => cases functors <;> simp [hr, Round.instrs] at hround
    | _ => simp [hr, Round.instrs] at hround

omit [DecidableEq L] [DecidableEq U] in
/-- A loop that comes to the swap has nothing below it. -/
theorem Fits.swaps (h : lay.Fits s) {l : L} (hstack : s.stack t = .swap l :: rest) :
    t = .loop l ∧ rest = [] ∧ lay.round l = .swapping := by
  rcases h.cases_stack hstack with ⟨b, hbody, -⟩ | ⟨m, rfl, -, hround⟩
  · have hin := h.inside t (.swap l) (hbody ▸ List.mem_cons_self)
    contradiction
  · cases hr : lay.round m with
    | swapping =>
      rw [hr] at hround
      obtain ⟨hl, rfl⟩ := List.cons.inj hround
      obtain rfl := Instr.swap.inj hl
      exact ⟨rfl, rfl, hr⟩
    | dispatching events => cases events <;> simp [hr, Round.instrs] at hround
    | running functors => cases functors <;> simp [hr, Round.instrs] at hround
    | _ => simp [hr, Round.instrs] at hround

end Layout

omit [DecidableEq U] in
/-- An instruction of a round takes it on or starts other code. -/
theorem Round.turn_or_enters {l : L} {r : Round L} (hr : r.instrs l = i :: rest)
    (hruns : Runs cfg (.loop l) s i o s' is) :
    (∃ r', r.Turn l i is r' ∧ r'.instrs l = is ++ rest) ∨
      ∃ r', r.Enters i r' ∧ r'.instrs l = rest ∧ r'.hasBody = true := by
  cases r with
  | outside => contradiction
  | testing =>
    obtain ⟨rfl, rfl⟩ := List.cons.inj hr
    cases hruns with
    | calls _ hcalls => cases hcalls
    | testQuit => exact .inl ⟨_, .testQuit, rfl⟩
    | leave => exact .inl ⟨_, .leave, rfl⟩
  | polling =>
    obtain ⟨rfl, rfl⟩ := List.cons.inj hr
    cases hruns with
    | calls _ hcalls => cases hcalls
    | poll =>
      rw [activeChannels_eq]
      exact .inl ⟨_, .poll _, by simp [Round.instrs]⟩
  | dispatching events =>
    cases events with
    | nil =>
      obtain ⟨rfl, rfl⟩ := List.cons.inj hr
      cases hruns with
      | calls _ hcalls => cases hcalls
      | beginPendingFunctors => exact .inl ⟨_, .beginPendingFunctors, rfl⟩
    | cons e events =>
      obtain ⟨rfl, rfl⟩ := List.cons.inj hr
      exact .inr ⟨_, .handleEvent, rfl, rfl⟩
  | swapping =>
    obtain ⟨rfl, rfl⟩ := List.cons.inj hr
    cases hruns with
    | calls _ hcalls => cases hcalls
    | swap => exact .inl ⟨_, .swap _, by simp [Round.instrs]⟩
  | running functors =>
    cases functors with
    | nil =>
      obtain ⟨rfl, rfl⟩ := List.cons.inj hr
      cases hruns with
      | calls _ hcalls => cases hcalls
      | endPendingFunctors => exact .inl ⟨_, .endPendingFunctors, rfl⟩
    | cons f functors =>
      obtain ⟨rfl, rfl⟩ := List.cons.inj hr
      by_cases hf : ∀ c, f ≠ .connectionDestroyed c
      · exact .inr ⟨_, .functor hf, rfl, rfl⟩
      · obtain ⟨c, rfl⟩ := not_forall_not.mp hf
        cases hruns with
        | calls _ hcalls => cases hcalls
        | destroyFound => exact .inl ⟨_, .destroyFound, rfl⟩
        | destroySkips => exact .inl ⟨_, .destroySkips, rfl⟩
  | disconnecting c functors =>
    obtain ⟨rfl, rfl⟩ := List.cons.inj hr
    exact .inr ⟨_, .disconnect, rfl, rfl⟩
  | removing c functors =>
    obtain ⟨rfl, rfl⟩ := List.cons.inj hr
    cases hruns with
    | calls _ hcalls =>
      cases hcalls
      exact .inl ⟨_, .removeChannel, rfl⟩

namespace Layout

/-- An instruction changes the layout in one of the four ways. -/
theorem Fits.exec (h : lay.Fits s) (hstack : s.stack t = i :: rest)
    (hruns : Runs cfg t s i o s' is) :
    ∃ lay', lay.Goes t i is lay' ∧ lay'.Fits (s'.setStack t (is ++ rest)) := by
  have hother : ∀ t', t' ≠ t → (s'.setStack t (is ++ rest)).stack t' = s.stack t' := by
    intro t' ht
    rw [State.setStack_of_ne ht, stack_runs hruns]
  rcases h.cases_stack hstack with ⟨b, hbody, rfl⟩ | ⟨l, rfl, hbody, hround⟩
  · have hadmits := admits_runs (h.inside t i (hbody ▸ List.mem_cons_self)) hruns
    refine ⟨_, .body hbody, h.setBody hother ?_ ⟨fun j hj => ?_, fun j hj => ?_⟩ fun l hl => ?_⟩
    · rw [State.setStack_self, List.append_assoc]
    · rcases List.mem_append.mp hj with hj | hj
      · exact hadmits.1 j hj
      · exact h.inside t j (hbody ▸ List.mem_cons_of_mem i hj)
    · have hold : ∀ k ∈ b, k.immediate = false := fun k hk => h.immediate t k (by rwa [hbody])
      cases is with
      | nil => exact hold j (List.mem_of_mem_tail hj)
      | cons k is =>
        rcases List.mem_append.mp hj with hj | hj
        · exact hadmits.2 j hj
        · exact hold j hj
    · by_contra hne
      have hnil := h.idle l (by simpa using hne)
      rw [← hl, hbody] at hnil
      contradiction
  · rcases Round.turn_or_enters hround hruns with ⟨r', hturn, hnext⟩ | ⟨r', henter, hnext, hopen⟩
    · refine ⟨_, .turn hbody hturn, h.setRound hbody hother ?_⟩
      rw [State.setStack_self, hnext]
    · -- the round without the instruction, and then what it starts
      have hset : (lay.setRound l r').Fits (s'.setStack (.loop l) (r'.instrs l)) := by
        refine h.setRound hbody (fun t' ht => ?_) (State.setStack_self _ _ _)
        rw [State.setStack_of_ne ht, stack_runs hruns]
      refine ⟨_, .enter hbody henter, hset.setBody (fun t' ht => ?_) ?_ ?_ fun m hm => ?_⟩
      · rw [State.setStack_of_ne ht, State.setStack_of_ne ht]
      · rw [State.setStack_self, Layout.rest, setRound_self, hnext]
      · rw [roundOf, setRound_self]
        exact admits_enters henter hruns
      · obtain rfl := Thread.loop.inj hm
        rw [setRound_self]
        exact hopen

omit [DecidableEq L] [DecidableEq U] in
/-- User code runs in a body, or outside of `loop()`. -/
theorem Fits.of_userCode (h : lay.Fits s) (hu : s.InUserCode t) :
    (lay.body t).head? = some .user ∨ lay.body t = [] ∧ lay.roundOf t = .outside := by
  rcases hu with hnil | huser
  · rw [h.stack t] at hnil
    obtain ⟨hbody, hrest⟩ := List.append_eq_nil_iff.mp hnil
    refine .inr ⟨hbody, ?_⟩
    cases t with
    | user u => rfl
    | loop l =>
      have hround : (lay.round l).instrs l = [] := hrest
      rw [roundOf]
      cases hr : lay.round l <;> simp_all [Round.instrs]
  · obtain ⟨i, rest, hstack⟩ : ∃ i rest, s.stack t = i :: rest := by
      cases hs : s.stack t with
      | nil => simp [hs] at huser
      | cons i rest => exact ⟨i, rest, rfl⟩
    obtain rfl : i = .user := by simpa [hstack] using huser
    rcases h.cases_stack hstack with ⟨b, hbody, -⟩ | ⟨l, rfl, -, hround⟩
    · exact .inl (by rw [hbody]; rfl)
    · cases hr : lay.round l with
      | dispatching events => cases events <;> simp [hr, Round.instrs] at hround
      | running functors => cases functors <;> simp [hr, Round.instrs] at hround
      | _ => simp [hr, Round.instrs] at hround

/-- User code goes on with what it calls. -/
theorem Fits.push (h : lay.Fits s) (hu : s.InUserCode t)
    (hadmits : (lay.roundOf t).Admits is) :
    (lay.setBody t (is ++ lay.body t)).Fits (s.push t is) := by
  refine h.setBody (fun t' ht => State.setStack_of_ne ht _) ?_ ⟨fun j hj => ?_, fun j hj => ?_⟩
    fun l hl => ?_
  · rw [State.push, State.setStack_self, h.stack t, List.append_assoc]
  · rcases List.mem_append.mp hj with hj | hj
    · exact hadmits.1 j hj
    · exact h.inside t j hj
  · have hold : ∀ k ∈ lay.body t, k.immediate = false := by
      intro k hk
      rcases h.of_userCode hu with huser | ⟨hnil, -⟩
      · obtain ⟨b, hb⟩ := List.head?_eq_some_iff.mp huser
        rcases List.mem_cons.mp (hb ▸ hk) with rfl | hk
        · rfl
        · exact h.immediate t k (by rwa [hb])
      · rw [hnil] at hk
        exact absurd hk List.not_mem_nil
    cases is with
    | nil => exact hold j (List.mem_of_mem_tail hj)
    | cons k is =>
      rcases List.mem_append.mp hj with hj | hj
      · exact hadmits.2 j hj
      · exact hold j hj
  · rcases h.of_userCode hu with huser | ⟨-, hout⟩
    · by_contra hne
      rw [hl, h.idle l (by simpa using hne)] at huser
      contradiction
    · rw [hl] at hout
      have hround : lay.round l = .outside := hout
      rw [hround]
      rfl

/-- A user callback returns. -/
theorem Fits.callbackReturn (h : lay.Fits s) (hstack : s.stack t = .user :: rest) :
    ∃ b, lay.body t = .user :: b ∧ (lay.setBody t b).Fits (s.setStack t rest) := by
  have hu : s.InUserCode t := .inr (by rw [hstack]; rfl)
  obtain ⟨b, hbody, rfl⟩ : ∃ b, lay.body t = .user :: b ∧ rest = b ++ lay.rest t := by
    rcases h.of_userCode hu with huser | ⟨hnil, hout⟩
    · obtain ⟨b, hb⟩ := List.head?_eq_some_iff.mp huser
      rw [h.stack t, hb, List.cons_append] at hstack
      exact ⟨b, hb, (List.cons.inj hstack).2.symm⟩
    · rw [h.stack t, hnil] at hstack
      cases t with
      | user u => contradiction
      | loop l =>
        have hround : lay.round l = .outside := hout
        simp [Layout.rest, hround, Round.instrs] at hstack
  refine ⟨b, hbody, h.setBody (fun t' ht => State.setStack_of_ne ht _)
    (State.setStack_self _ _ _) ⟨fun j hj => ?_, fun j hj => ?_⟩ fun l hl => ?_⟩
  · exact h.inside t j (hbody ▸ List.mem_cons_of_mem _ hj)
  · exact h.immediate t j (by rw [hbody]; exact List.mem_of_mem_tail hj)
  · by_contra hne
    have hnil := h.idle l (by simpa using hne)
    rw [← hl, hbody] at hnil
    contradiction

/-- A loop starts. -/
theorem Fits.loop {l : L} (h : lay.Fits s) (hstack : s.stack (.loop l) = [])
    (hs : s'.stack = (s.push (.loop l) [.testQuit l]).stack) :
    lay.body (.loop l) = [] ∧ lay.round l = .outside ∧ (lay.setRound l .testing).Fits s' := by
  rcases h.of_userCode (.inl hstack) with huser | ⟨hnil, hout⟩
  · rw [h.stack] at hstack
    rw [(List.append_eq_nil_iff.mp hstack).1] at huser
    contradiction
  · refine ⟨hnil, hout, h.setRound hnil (fun t' ht => ?_) ?_⟩
    · rw [hs]
      exact State.setStack_of_ne ht _
    · rw [hs, State.push, State.setStack_self, hstack]
      rfl

end Layout

end Fits

end TcpServer

end Moduo
