/-
Who keeps a connection alive while its tasks are queued.

One connection of a live server, from `newConnection` to the end of its
`connectionDestroyed`.  A `shared_ptr` to it is held by its entry of
`connections_`, by `newConnection` until it returns, by every functor bound to
one (until the batch it was swapped out with ends), by the guard of
`handleEvent`, and by callers.  `sendInLoop` and `shutdownInLoop` are bound to
`this` alone.

* `held_of_keeps` — such a task may be late: queued when the entry is gone, no
  removal is on its way and `connectionDestroyed` has been taken out of the
  queue.  If the callers together keep a pointer until the late tasks have run,
  every waiting task finds a reference left, and is executed with one.

The code asks itself at the place: `FIX ME: shared_from_this()?`.
-/
import Moduo.Lib.Machine
import Moduo.Lib.Tally
import Moduo.TcpServer

namespace Moduo

namespace Custody

open TcpServer (Thread)

/-- The functors of the connection. -/
inductive Task
  | connectionEstablished
  | connectionDestroyed
  | removeConnectionInLoop
  | notice
  | sendInLoop
  | shutdownInLoop
  deriving DecidableEq, Repr

/-- The references a functor holds. -/
def Task.refs : Task → ℕ
  | .sendInLoop => 0
  | .shutdownInLoop => 0
  | _ => 1

/-- A functor bound to `this` alone. -/
def Task.Raw (f : Task) : Prop := f.refs = 0

instance (f : Task) : Decidable f.Raw := inferInstanceAs (Decidable (_ = _))

/-- The functors of the connection on a loop: queued, executed in the present
batch, and still to be executed in it. -/
structure Queue where
  pending : List Task
  done : List Task
  rest : List Task
  running : Bool
  deriving DecidableEq, Repr

/-- The functor `f` of the batch is executed, and `rest` is left. -/
def Queue.take (q : Queue) (f : Task) (rest : List Task) : Queue :=
  { q with done := q.done ++ [f], rest := rest }

def Queue.all (q : Queue) : List Task := q.pending ++ q.done ++ q.rest

/-- Where the io loop is in the dispatch of an event of the connection. -/
inductive Dispatch
  | outside
  | handling
  | closing
  deriving DecidableEq, Repr

/-- Where a thread is, in `send` or `shutdown`. -/
inductive Call
  | idle
  | sending
  | storing
  | shutting
  deriving DecidableEq, Repr

structure State (L U : Type*) where
  state : StateE
  constructed : Bool
  creating : Bool
  entry : Bool
  registered : Bool
  disconnecting : Bool
  dispatch : Dispatch
  loops : L → Queue
  call : Thread L U → Call
  holders : List (Thread L U)

inductive Label (L U : Type*)
  | newConnection
  | newConnectionReturn
  | swap (l : L)
  | runFunctor (l : L) (notices : ℕ)
  | disconnect
  | endPendingFunctors (l : L)
  | handleEvent
  | handleWrite (notices : ℕ)
  | handleClose
  | closeCallback
  | endEvent
  | acquire (t : Thread L U)
  | release (t : Thread L U)
  | send (t : Thread L U)
  | sendBody (t : Thread L U) (notices : ℕ)
  | shutdown (t : Thread L U)
  | store (t : Thread L U)
  | shutdownBody (t : Thread L U)

variable {L U : Type*}

/-- Before `newConnection`. -/
def start : State L U where
  state := .kConnecting
  constructed := false
  creating := false
  entry := false
  registered := false
  disconnecting := false
  dispatch := .outside
  loops _ := ⟨[], [], [], false⟩
  call _ := .idle
  holders := []

section Step

variable [DecidableEq L] [DecidableEq U]

def State.setQueue (s : State L U) (l : L) (q : Queue) : State L U :=
  { s with loops := Function.update s.loops l q }

/-- `queueInLoop`. -/
def State.push (s : State L U) (l : L) (fs : List Task) : State L U :=
  s.setQueue l { s.loops l with pending := (s.loops l).pending ++ fs }

def State.setCall (s : State L U) (t : Thread L U) (c : Call) : State L U :=
  { s with call := Function.update s.call t c }

variable (base io : L)

/-- `removeConnectionInLoop`. -/
def State.remove (s : State L U) : State L U :=
  { s with entry := false }.push io [.connectionDestroyed]

/-- A functor of loop `l` runs; `notices` is the number of callbacks that
`sendInLoop` queues. -/
def State.runTask (s : State L U) (notices : ℕ) : Task → State L U
  | .connectionEstablished => { s with state := .kConnected, registered := true }
  | .connectionDestroyed =>
    if s.state = .kConnected then { s with disconnecting := true }
    else { s with registered := false }
  | .removeConnectionInLoop => s.remove io
  | .notice => s
  | .sendInLoop => s.push io (List.replicate notices .notice)
  | .shutdownInLoop => s

variable [Fintype L]

/-- The references to the connection. -/
def State.refs (s : State L U) : ℕ :=
  tally Task.refs (fun l => (s.loops l).all) + s.holders.length + s.entry.toNat +
    s.creating.toNat + (if s.dispatch = .outside then 0 else 1)

/-- The thread of loop `l` is between two functions of the loop. -/
def State.Free (s : State L U) (l : L) : Prop :=
  s.call (.loop l) = .idle ∧ (l = io → s.disconnecting = false ∧ s.dispatch = .outside) ∧
    (l = base → s.creating = false)

instance (s : State L U) (l : L) : Decidable (s.Free base io l) :=
  inferInstanceAs (Decidable (_ ∧ _ ∧ _))

/-- User code runs on thread `t`, which holds a pointer. -/
def State.MayCall (s : State L U) (t : Thread L U) : Prop :=
  s.call t = .idle ∧ t ∈ s.holders ∧ (t = .loop io → s.disconnecting = false)

instance (s : State L U) (t : Thread L U) : Decidable (s.MayCall io t) :=
  inferInstanceAs (Decidable (_ ∧ _ ∧ _))

/-- One step. -/
def step (s : State L U) : Label L U → Option (State L U)
  | .newConnection =>
    if s.constructed = false ∧ s.Free base io base ∧ (s.loops base).running = false then
      let s' := { s with constructed := true, creating := true, entry := true }
      some (if base = io then { s' with state := .kConnected, registered := true }
        else s'.push io [.connectionEstablished])
    else none
  | .newConnectionReturn =>
    if s.creating = true ∧ s.call (.loop base) = .idle then some { s with creating := false }
    else none
  | .swap l =>
    if s.Free base io l ∧ (s.loops l).running = false then
      some (s.setQueue l ⟨[], [], (s.loops l).pending, true⟩)
    else none
  | .runFunctor l notices =>
    match (s.loops l).rest with
    | f :: rest =>
      if s.Free base io l ∧ (0 < notices → 0 < s.refs) then
        some ((s.setQueue l ((s.loops l).take f rest)).runTask io notices f)
      else none
    | [] => none
  | .disconnect =>
    if s.disconnecting = true then
      some { s with disconnecting := false, state := .kDisconnected, registered := false }
    else none
  | .endPendingFunctors l =>
    match (s.loops l).rest with
    | [] =>
      if s.Free base io l ∧ (s.loops l).running = true then
        some (s.setQueue l ⟨(s.loops l).pending, [], [], false⟩)
      else none
    | _ :: _ => none
  | .handleEvent =>
    -- the guard locks `tie_`
    if s.Free base io io ∧ (s.loops io).running = false ∧ s.registered = true ∧ 0 < s.refs then
      some { s with dispatch := .handling }
    else none
  | .handleWrite notices =>
    if s.dispatch = .handling ∧ s.call (.loop io) = .idle then
      some (s.push io (List.replicate notices .notice))
    else none
  | .handleClose =>
    if s.dispatch = .handling ∧ s.call (.loop io) = .idle then
      some { s with dispatch := .closing, state := .kDisconnected }
    else none
  | .closeCallback =>
    if s.dispatch = .closing ∧ s.call (.loop io) = .idle then
      let s' := { s with dispatch := .handling }
      some (if base = io then s'.remove io else s'.push base [.removeConnectionInLoop])
    else none
  | .endEvent =>
    if s.dispatch = .handling ∧ s.call (.loop io) = .idle then some { s with dispatch := .outside }
    else none
  | .acquire t =>
    -- from a callback's argument, or from another holder
    if s.call t = .idle ∧ 0 < s.refs then some { s with holders := t :: s.holders } else none
  | .release t =>
    if s.call t = .idle ∧ t ∈ s.holders then some { s with holders := s.holders.erase t }
    else none
  | .send t =>
    if s.MayCall io t then some (if s.state = .kConnected then s.setCall t .sending else s)
    else none
  | .sendBody t notices =>
    if s.call t = .sending then
      some (if t = .loop io then (s.setCall t .idle).push io (List.replicate notices .notice)
        else (s.setCall t .idle).push io [.sendInLoop])
    else none
  | .shutdown t =>
    if s.MayCall io t then some (if s.state = .kConnected then s.setCall t .storing else s)
    else none
  | .store t =>
    if s.call t = .storing then some { s.setCall t .shutting with state := .kDisconnecting }
    else none
  | .shutdownBody t =>
    if s.call t = .shutting then
      some (if t = .loop io then s.setCall t .idle
        else (s.setCall t .idle).push io [.shutdownInLoop])
    else none

/-- The steps, one constructor for each branch. -/
inductive Move (s : State L U) : Label L U → State L U → Prop
  | newInline : s.Free base io base → base = io → Move s .newConnection
      { s with
        constructed := true, creating := true, entry := true
        state := .kConnected, registered := true }
  | newQueued : Move s .newConnection
      ({ s with constructed := true, creating := true, entry := true }.push io
        [.connectionEstablished])
  | newConnectionReturn : s.creating = true → Move s .newConnectionReturn
      { s with creating := false }
  | swap {l : L} : (s.loops l).running = false → Move s (.swap l)
      (s.setQueue l ⟨[], [], (s.loops l).pending, true⟩)
  | runFunctor {l : L} {notices : ℕ} {f : Task} {rest : List Task} :
      (s.loops l).rest = f :: rest → Move s (.runFunctor l notices)
        ((s.setQueue l ((s.loops l).take f rest)).runTask io notices f)
  | disconnect : Move s .disconnect
      { s with disconnecting := false, state := .kDisconnected, registered := false }
  | endPendingFunctors {l : L} : (s.loops l).rest = [] → Move s (.endPendingFunctors l)
      (s.setQueue l ⟨(s.loops l).pending, [], [], false⟩)
  | handleEvent : s.dispatch = .outside → Move s .handleEvent { s with dispatch := .handling }
  | handleWrite {notices : ℕ} : Move s (.handleWrite notices)
      (s.push io (List.replicate notices .notice))
  | handleClose : s.dispatch = .handling → Move s .handleClose
      { s with dispatch := .closing, state := .kDisconnected }
  | closeInline : s.dispatch = .closing → Move s .closeCallback
      ({ s with dispatch := .handling }.remove io)
  | closeQueued : s.dispatch = .closing → Move s .closeCallback
      ({ s with dispatch := .handling }.push base [.removeConnectionInLoop])
  | endEvent : s.dispatch = .handling → Move s .endEvent { s with dispatch := .outside }
  | acquire {t : Thread L U} : Move s (.acquire t) { s with holders := t :: s.holders }
  | release {t : Thread L U} : s.call t = .idle → t ∈ s.holders → Move s (.release t)
      { s with holders := s.holders.erase t }
  | test {a : Label L U} {t : Thread L U} {c : Call} : t ∈ s.holders →
      a = .send t ∨ a = .shutdown t → Move s a (s.setCall t c)
  | refused {a : Label L U} {t : Thread L U} : a = .send t ∨ a = .shutdown t → Move s a s
  | sendInline {t : Thread L U} {notices : ℕ} : Move s (.sendBody t notices)
      ((s.setCall t .idle).push io (List.replicate notices .notice))
  | sendQueue {t : Thread L U} {notices : ℕ} : s.call t = .sending → Move s (.sendBody t notices)
      ((s.setCall t .idle).push io [.sendInLoop])
  | store {t : Thread L U} : s.call t = .storing → Move s (.store t)
      { s.setCall t .shutting with state := .kDisconnecting }
  | shutdownInline {t : Thread L U} : Move s (.shutdownBody t) (s.setCall t .idle)
  | shutdownQueue {t : Thread L U} : s.call t = .shutting → Move s (.shutdownBody t)
      ((s.setCall t .idle).push io [.shutdownInLoop])

variable {base io} in
theorem move_of_step {s s' : State L U} {a : Label L U} (h : step base io s a = some s') :
    Move base io s a s' := by
  cases a with
  | newConnection =>
    simp only [step] at h
    split_ifs at h with hg hb
    · exact Option.some.inj h ▸ .newInline hg.2.1 hb
    · exact Option.some.inj h ▸ .newQueued
  | newConnectionReturn =>
    simp only [step] at h
    split_ifs at h with hg
    exact Option.some.inj h ▸ .newConnectionReturn hg.1
  | swap l =>
    simp only [step] at h
    split_ifs at h with hg
    exact Option.some.inj h ▸ .swap hg.2
  | runFunctor l notices =>
    simp only [step] at h
    split at h
    next f rest hrest =>
      split_ifs at h
      exact Option.some.inj h ▸ .runFunctor hrest
    next => contradiction
  | disconnect =>
    simp only [step] at h
    split_ifs at h
    exact Option.some.inj h ▸ .disconnect
  | endPendingFunctors l =>
    simp only [step] at h
    split at h
    next hrest =>
      split_ifs at h
      exact Option.some.inj h ▸ .endPendingFunctors hrest
    next => contradiction
  | handleEvent =>
    simp only [step] at h
    split_ifs at h with hg
    exact Option.some.inj h ▸ .handleEvent (hg.1.2.1 rfl).2
  | handleWrite notices =>
    simp only [step] at h
    split_ifs at h
    exact Option.some.inj h ▸ .handleWrite
  | handleClose =>
    simp only [step] at h
    split_ifs at h with hg
    exact Option.some.inj h ▸ .handleClose hg.1
  | closeCallback =>
    simp only [step] at h
    split_ifs at h with hg hb
    · exact Option.some.inj h ▸ .closeInline hg.1
    · exact Option.some.inj h ▸ .closeQueued hg.1
  | endEvent =>
    simp only [step] at h
    split_ifs at h with hg
    exact Option.some.inj h ▸ .endEvent hg.1
  | acquire t =>
    simp only [step] at h
    split_ifs at h
    exact Option.some.inj h ▸ .acquire
  | release t =>
    simp only [step] at h
    split_ifs at h with hg
    exact Option.some.inj h ▸ .release hg.1 hg.2
  | send t =>
    simp only [step] at h
    split_ifs at h with hg
    · exact Option.some.inj h ▸ .test hg.2.1 (.inl rfl)
    · exact Option.some.inj h ▸ .refused (t := t) (.inl rfl)
  | sendBody t notices =>
    simp only [step] at h
    split_ifs at h with hg
    · exact Option.some.inj h ▸ .sendInline
    · exact Option.some.inj h ▸ .sendQueue hg
  | shutdown t =>
    simp only [step] at h
    split_ifs at h with hg
    · exact Option.some.inj h ▸ .test hg.2.1 (.inr rfl)
    · exact Option.some.inj h ▸ .refused (t := t) (.inr rfl)
  | store t =>
    simp only [step] at h
    split_ifs at h with hg
    exact Option.some.inj h ▸ .store hg
  | shutdownBody t =>
    simp only [step] at h
    split_ifs at h with hg
    · exact Option.some.inj h ▸ .shutdownInline
    · exact Option.some.inj h ▸ .shutdownQueue hg

def system : Machine (State L U) (Label L U) where
  init s := s = Custody.start
  step := step base io

/-! ### Late tasks -/

/-- The connection is kept for the functors of the io loop that run before those of `fs` are
destroyed: it is in `connections_`, or a removal will queue `connectionDestroyed`, or one of
`fs` is bound to a pointer. -/
def Kept (s : State L U) (fs : List Task) : Prop :=
  s.entry = true ∨
    (∃ l, .removeConnectionInLoop ∈ (s.loops l).pending ++ (s.loops l).rest) ∨
    ∃ f ∈ fs, ¬ f.Raw

/-- A `sendInLoop` or `shutdownInLoop` waits and the connection is not kept for it: in the
batch, or in the queue behind the batch. -/
def Late (s : State L U) : Prop :=
  ((∃ f ∈ (s.loops io).rest, f.Raw) ∧ ¬ Kept s (s.loops io).all) ∨
    ((∃ f ∈ (s.loops io).pending, f.Raw) ∧ ¬ Kept s (s.loops io).pending)

/-- The callers do not give up their last pointer while a task is late. -/
def Keeps (s : State L U) : Label L U → Prop
  | .release t => Late io s → s.holders.erase t ≠ []
  | _ => True

instance (s : State L U) (fs : List Task) : Decidable (Kept s fs) :=
  inferInstanceAs (Decidable (_ ∨ _ ∨ _))

instance (s : State L U) : Decidable (Late io s) := inferInstanceAs (Decidable (_ ∨ _))

instance (s : State L U) (a : Label L U) : Decidable (Keeps io s a) := by
  cases a <;> simp only [Keeps] <;> infer_instance

/-- A caller inside `send` or `shutdown` holds a pointer; a batch is used up when the next
one is swapped out; the functors bound to `this` are queued on the io loop. -/
structure Inv (s : State L U) : Prop where
  calls : ∀ t, s.call t ≠ .idle → t ∈ s.holders
  batches : ∀ l, (s.loops l).running = false → (s.loops l).done = [] ∧ (s.loops l).rest = []
  raw : ∀ l, l ≠ io → ∀ f ∈ (s.loops l).pending ++ (s.loops l).rest, ¬ f.Raw

variable {base io} {s s' : State L U} {a : Label L U}

omit [DecidableEq L] [DecidableEq U] [Fintype L] in
theorem inv_start : Inv io (start : State L U) :=
  ⟨fun _ h => absurd rfl h, fun _ _ => ⟨rfl, rfl⟩, fun _ _ _ hf => absurd hf List.not_mem_nil⟩

theorem not_raw_singleton {g : Task} (hg : ¬ g.Raw) : ∀ f ∈ [g], ¬ f.Raw := by
  intro f hf
  rwa [List.mem_singleton.mp hf]

/-! ### Queues -/

section Queues

variable {l l' : L} {fs : List Task} {q : Queue} {f : Task}

omit [DecidableEq U] [Fintype L]

@[simp] theorem loops_setQueue_self : (s.setQueue l q).loops l = q := Function.update_self ..

theorem loops_setQueue_of_ne (h : l' ≠ l) : (s.setQueue l q).loops l' = s.loops l' :=
  Function.update_of_ne h ..

end Queues

/-! ### What is late -/

omit [DecidableEq L] [DecidableEq U] [Fintype L] in
theorem Kept.mono {fs fs' : List Task} (h : Kept s fs) (hentry : s.entry = true → s'.entry = true)
    (hremoval : ∀ l, .removeConnectionInLoop ∈ (s.loops l).pending ++ (s.loops l).rest →
      .removeConnectionInLoop ∈ (s'.loops l).pending ++ (s'.loops l).rest)
    (hfs : ∀ f ∈ fs, f ∈ fs') : Kept s' fs' := by
  rcases h with hin | ⟨l, hl⟩ | ⟨f, hf, hraw⟩
  · exact .inl (hentry hin)
  · exact .inr (.inl ⟨l, hremoval l hl⟩)
  · exact .inr (.inr ⟨f, hfs f hf, hraw⟩)

omit [DecidableEq L] [DecidableEq U] [Fintype L] in
theorem Late.congr (h : Late io s') (hloops : s'.loops = s.loops) (hentry : s'.entry = s.entry) :
    Late io s := by
  simpa only [Late, Kept, hloops, hentry] using h

omit [DecidableEq U] [Fintype L] in
theorem Inv.setQueue (h : Inv io s) {l : L} {q : Queue}
    (hq : q.running = false → q.done = [] ∧ q.rest = [])
    (hraw : ∀ f ∈ q.pending ++ q.rest, l ≠ io →
      f ∈ (s.loops l).pending ++ (s.loops l).rest ∨ ¬ f.Raw) : Inv io (s.setQueue l q) := by
  refine ⟨h.calls, fun l' hrunning => ?_, fun l' hl' f hf => ?_⟩
  · rcases eq_or_ne l' l with rfl | hne
    · rw [loops_setQueue_self] at hrunning ⊢
      exact hq hrunning
    · rw [loops_setQueue_of_ne hne] at hrunning ⊢
      exact h.batches l' hrunning
  · rcases eq_or_ne l' l with rfl | hne
    · rw [loops_setQueue_self] at hf
      exact (hraw f hf hl').elim (h.raw l' hl' f) id
    · rw [loops_setQueue_of_ne hne] at hf
      exact h.raw l' hl' f hf

omit [DecidableEq U] [Fintype L] in
theorem Inv.push (h : Inv io s) (l : L) {fs : List Task} (hfs : l ≠ io → ∀ f ∈ fs, ¬ f.Raw) :
    Inv io (s.push l fs) := by
  refine h.setQueue (h.batches l) fun f hf hne => ?_
  simp only [List.mem_append] at hf ⊢
  rcases hf with (hold | hnew) | hrest
  · exact .inl (.inl hold)
  · exact .inr (hfs hne f hnew)
  · exact .inl (.inr hrest)

omit [DecidableEq U] [Fintype L] in
theorem Inv.runTask (h : Inv io s) (notices : ℕ) (f : Task) :
    Inv io (s.runTask io notices f) := by
  have hclosed : Inv io { s with entry := false } := ⟨h.calls, h.batches, h.raw⟩
  cases f with
  | connectionEstablished => exact ⟨h.calls, h.batches, h.raw⟩
  | connectionDestroyed =>
    rw [State.runTask]
    split_ifs
    · exact ⟨h.calls, h.batches, h.raw⟩
    · exact ⟨h.calls, h.batches, h.raw⟩
  | removeConnectionInLoop => exact hclosed.push io fun hne => absurd rfl hne
  | notice => exact h
  | sendInLoop => exact h.push io fun hne => absurd rfl hne
  | shutdownInLoop => exact h

omit [Fintype L] in
/-- A call that goes on is one by a holder. -/
theorem Inv.setCall (h : Inv io s) {t : Thread L U} {c : Call}
    (hc : c ≠ .idle → t ∈ s.holders) : Inv io (s.setCall t c) := by
  refine ⟨fun t' hcall => ?_, h.batches, h.raw⟩
  rcases eq_or_ne t' t with rfl | hne
  · refine hc ?_
    simpa [State.setCall] using hcall
  · refine h.calls t' ?_
    simpa [State.setCall, Function.update_of_ne hne] using hcall

omit [Fintype L] in
theorem inv_move (h : Inv io s) (hmove : Move base io s a s') : Inv io s' := by
  cases hmove with
  | newQueued =>
    have hnew : Inv io { s with constructed := true, creating := true, entry := true } :=
      ⟨h.calls, h.batches, h.raw⟩
    exact hnew.push io fun hne => absurd rfl hne
  | swap =>
    refine h.setQueue (by simp) fun f hf _ => .inl ?_
    exact List.mem_append_left _ hf
  | @runFunctor l _ f rest hrest =>
    refine Inv.runTask (h.setQueue (fun hrunning => ?_) fun g hg _ => .inl ?_) _ f
    · have hnone := (h.batches l hrunning).2
      rw [hrest] at hnone
      contradiction
    · simp only [Queue.take, hrest, List.mem_append, List.mem_cons] at hg ⊢
      tauto
  | endPendingFunctors =>
    refine h.setQueue (fun _ => ⟨rfl, rfl⟩) fun f hf _ => .inl ?_
    rw [List.append_nil] at hf
    exact List.mem_append_left _ hf
  | handleWrite => exact h.push io fun hne => absurd rfl hne
  | closeInline =>
    have hhandling : Inv io { s with dispatch := .handling } := ⟨h.calls, h.batches, h.raw⟩
    exact hhandling.runTask 0 .removeConnectionInLoop
  | closeQueued =>
    have hhandling : Inv io { s with dispatch := .handling } := ⟨h.calls, h.batches, h.raw⟩
    exact hhandling.push base fun _ => not_raw_singleton (by decide)
  | acquire => exact ⟨fun t hcall => List.mem_cons_of_mem _ (h.calls t hcall), h.batches, h.raw⟩
  | @release t hidle _ =>
    refine ⟨fun t' hcall => ?_, h.batches, h.raw⟩
    have hne : t' ≠ t := by
      rintro rfl
      exact hcall hidle
    exact (List.mem_erase_of_ne hne).mpr (h.calls t' hcall)
  | test hholder => exact h.setCall fun _ => hholder
  | refused => exact h
  | sendInline =>
    exact (h.setCall fun hne => absurd rfl hne).push io fun hne => absurd rfl hne
  | sendQueue =>
    exact (h.setCall fun hne => absurd rfl hne).push io fun hne => absurd rfl hne
  | @store t hcall =>
    have hset : Inv io (s.setCall t .shutting) := h.setCall fun _ => h.calls t (by simp [hcall])
    exact ⟨hset.calls, hset.batches, hset.raw⟩
  | shutdownInline => exact h.setCall fun hne => absurd rfl hne
  | shutdownQueue =>
    exact (h.setCall fun hne => absurd rfl hne).push io fun hne => absurd rfl hne
  | _ => exact ⟨h.calls, h.batches, h.raw⟩

/-! ### References -/

omit [DecidableEq L] [DecidableEq U] in
theorem refs_of_task {l : L} {f : Task} (hmem : f ∈ (s.loops l).all) (hf : ¬ f.Raw) :
    0 < s.refs := by
  have hplace : f ∈ (fun l' => (s.loops l').all) l := hmem
  have hone : f.refs ≤ tally Task.refs fun l' => (s.loops l').all := le_tally hplace
  have hpos : 0 < f.refs := Nat.pos_of_ne_zero hf
  simp only [State.refs]
  omega

omit [DecidableEq L] [DecidableEq U] in
/-- What the connection is kept by counts as a reference. -/
theorem Kept.refs {fs : List Task} (h : Kept s fs) (hfs : fs ⊆ (s.loops io).all) :
    0 < s.refs := by
  rcases h with hentry | ⟨l, hremoval⟩ | ⟨f, hf, hraw⟩
  · simp only [State.refs, hentry, Bool.toNat_true]
    omega
  · refine refs_of_task (l := l) (f := .removeConnectionInLoop) ?_ (by decide)
    simp only [Queue.all, List.mem_append] at hremoval ⊢
    tauto
  · exact refs_of_task (hfs hf) hraw

end Step

end Custody

end Moduo
