/-
The registry of the connections of a server.

`connections_` is keyed by the names that `newConnection` prints.

* `registry_exact` — along every run of a server that is not being destroyed,
  `connections_` holds one entry for each connection created and not yet
  removed, under its own name, and nothing else; a new connection replaces no
  entry and its number is not cut short; a removal takes no other connection's
  entry away.

The history of a run is the list of what it created and removed.  Every task
that will remove a connection names one the run has created.
-/
import Moduo.LiveServer.Descriptors

namespace Moduo

namespace TcpServer

variable {L U : Type*}

/-- What happens to the set of connections. -/
inductive Change (L : Type*)
  | created (c : ConnPtr L)
  | removed (c : ConnPtr L)
  deriving DecidableEq, Repr

def Change.isCreated : Change L → Bool
  | .created _ => true
  | .removed _ => false

/-- What an instruction does to the set of connections. -/
def instrChange (cfg : Config L U) (s : State L U) (o : Outcome) : Instr L → Option (Change L)
  | .handleEvent .acceptor revents =>
    match o with
    | .accepted (some connfd) =>
      if revents &&& (EPOLLIN ||| EPOLLPRI) ≠ 0 then
        some (.created ⟨s.nextConnId, (cfg.getNextLoop s.next).1, connfd⟩)
      else none
    | _ => none
  | .functor (.removeConnectionInLoop c) => some (.removed c)
  | _ => none

/-- What a step does to it. -/
def change (cfg : Config L U) (s : State L U) : Label L U → Option (Change L)
  | .exec t o => (s.stack t).head?.bind (instrChange cfg s o)
  | _ => none

def Label.isDestroyServer : Label L U → Bool
  | .destroyServer _ => true
  | _ => false

/-- The connection that a functor will remove. -/
def Functor.removes? : Functor L → Option (ConnPtr L)
  | .removeConnectionInLoop c => some c
  | _ => none

/-- The connection that an instruction will remove. -/
def Instr.removes? : Instr L → Option (ConnPtr L)
  | .functor f => f.removes?
  | .queueInLoop _ f => f.removes?
  | .removeConnection c => some c
  | _ => none

section Definitions

variable [DecidableEq L] (cfg : Config L U)

/-- A new connection replaces no entry and its number is printed in full; a
removal takes the entry of its connection alone. -/
def Exact (s : State L U) (a : Label L U) (s' : State L U) : Prop :=
  (∀ c, change cfg s a = some (.created c) →
    (∀ item ∈ s.connections, item.1 ≠ cfg.connName c.id) ∧
      ("-" ++ cfg.ipPort ++ "#" ++ toString c.id).toList.length < 64) ∧
  ∀ c, change cfg s a = some (.removed c) →
    ∀ item ∈ s.connections, item.2 ≠ c → item ∈ s'.connections

/-- The entries are those of the connections created and not removed. -/
structure Entries (H : List (Change L)) (s : State L U) : Prop where
  nextConnId : s.nextConnId = H.countP Change.isCreated + 1
  id_lt : ∀ c, .created c ∈ H → c.id < s.nextConnId
  id_injective : ∀ c d, .created c ∈ H → .created d ∈ H → c.id = d.id → c = d
  removed : ∀ c, .removed c ∈ H → .created c ∈ H
  items : ∀ item, item ∈ s.connections ↔
    ∃ c, item = (cfg.connName c.id, c) ∧ .created c ∈ H ∧ .removed c ∉ H
  nodup : (s.connections.map Prod.fst).Nodup

end Definitions

/-- The connections that are there, and those that will be removed, are all in
`K`. -/
structure Sources (K : ConnPtr L → Prop) (s : State L U) : Prop where
  heap : ∀ c, (s.heap c).isSome → K c
  stack : ∀ t, ∀ i ∈ s.stack t, ∀ c, i.removes? = some c → K c
  queue : ∀ l, ∀ f ∈ (s.loops l).pendingFunctors, ∀ c, f.removes? = some c → K c

/-- The connections created so far. -/
def Created (H : List (Change L)) (c : ConnPtr L) : Prop := .created c ∈ H

variable {cfg : Config L U} {H : List (Change L)} {K : ConnPtr L → Prop} {s s' : State L U}
  {t : Thread L U}

/-! ### The entries -/

theorem entries_start (h : Start cfg s) : Entries cfg [] s := by
  refine ⟨?_, ?_, ?_, ?_, ?_, ?_⟩
  · rw [h.nextConnId]
    rfl
  · exact fun _ hc => absurd hc List.not_mem_nil
  · exact fun _ _ hc => absurd hc List.not_mem_nil
  · exact fun _ hc => absurd hc List.not_mem_nil
  · intro item
    rw [h.connections]
    simp
  · rw [h.connections]
    exact List.nodup_nil

theorem Entries.congr (h : Entries cfg H s) (hconnections : s'.connections = s.connections)
    (hid : s'.nextConnId = s.nextConnId) : Entries cfg H s' := by
  refine ⟨hid.trans h.nextConnId, ?_, h.id_injective, h.removed, ?_, ?_⟩
  · rw [hid]
    exact h.id_lt
  · rw [hconnections]
    exact h.items
  · rw [hconnections]
    exact h.nodup

/-- The name of a new connection is not taken. -/
theorem Entries.fresh (h : Entries cfg H s) (hbound : s.nextConnId < 2 ^ 31) :
    ∀ item ∈ s.connections, item.1 ≠ cfg.connName s.nextConnId := by
  intro item hitem heq
  obtain ⟨c, rfl, hc, -⟩ := (h.items item).mp hitem
  have hlt := h.id_lt c hc
  have hsame := cfg.connName_injective (by omega) hbound heq
  omega

theorem Entries.created (h : Entries cfg H s) (hbound : s.nextConnId < 2 ^ 31) {c : ConnPtr L}
    (hc : c.id = s.nextConnId) (hid : s'.nextConnId = s.nextConnId + 1)
    (hconnections : s'.connections = (cfg.connName s.nextConnId, c) ::
      s.connections.filter fun item => item.1 ≠ cfg.connName s.nextConnId) :
    Entries cfg (H ++ [.created c]) s' := by
  have hkept : s.connections.filter (fun item => item.1 ≠ cfg.connName s.nextConnId) =
      s.connections :=
    List.filter_eq_self.mpr fun item hitem => by simpa using h.fresh hbound item hitem
  rw [hkept] at hconnections
  -- ids are never given twice, so `c` is not among the connections created before
  have hnew : Change.created c ∉ H := fun hmem => by
    have hlt := h.id_lt c hmem
    omega
  have hcreated : ∀ d, Change.created d ∈ H ++ [.created c] ↔ .created d ∈ H ∨ d = c := by
    intro d
    simp
  have hremoved : ∀ d, Change.removed d ∈ H ++ [.created c] ↔ .removed d ∈ H := by
    intro d
    simp
  refine ⟨?_, ?_, ?_, ?_, ?_, ?_⟩
  · rw [List.countP_append, hid, h.nextConnId]
    rfl
  · intro d hd
    rcases (hcreated d).mp hd with hold | rfl
    · have hlt := h.id_lt d hold
      omega
    · omega
  · intro d e hd he heq
    rcases (hcreated d).mp hd with hold | rfl
    · rcases (hcreated e).mp he with hold' | rfl
      · exact h.id_injective d e hold hold' heq
      · have hlt := h.id_lt d hold
        omega
    · rcases (hcreated e).mp he with hold' | rfl
      · have hlt := h.id_lt e hold'
        omega
      · rfl
  · intro d hd
    exact (hcreated d).mpr (.inl (h.removed d ((hremoved d).mp hd)))
  · intro item
    rw [hconnections, List.mem_cons, h.items]
    constructor
    · rintro (rfl | ⟨d, rfl, hd, hnot⟩)
      · refine ⟨c, by rw [hc], (hcreated c).mpr (.inr rfl), fun hmem => ?_⟩
        exact hnew (h.removed c ((hremoved c).mp hmem))
      · exact ⟨d, rfl, (hcreated d).mpr (.inl hd), fun hmem => hnot ((hremoved d).mp hmem)⟩
    · rintro ⟨d, rfl, hd, hnot⟩
      rcases (hcreated d).mp hd with hold | rfl
      · exact .inr ⟨d, rfl, hold, fun hmem => hnot ((hremoved d).mpr hmem)⟩
      · exact .inl (by rw [hc])
  · rw [hconnections, List.map_cons, List.nodup_cons]
    refine ⟨fun hmem => ?_, h.nodup⟩
    obtain ⟨item, hitem, hname⟩ := List.mem_map.mp hmem
    exact h.fresh hbound item hitem hname

/-- Of two connections that were created, only one has the name. -/
theorem Entries.connName_ne (h : Entries cfg H s) (hbound : s.nextConnId ≤ 2 ^ 31)
    {c d : ConnPtr L} (hc : .created c ∈ H) (hd : .created d ∈ H) :
    cfg.connName d.id ≠ cfg.connName c.id ↔ d ≠ c := by
  have hlt := h.id_lt c hc
  have hlt' := h.id_lt d hd
  constructor
  · rintro hne rfl
    exact hne rfl
  · intro hne heq
    exact hne (h.id_injective d c hd hc (cfg.connName_injective (by omega) (by omega) heq))

theorem Entries.remove (h : Entries cfg H s) (hbound : s.nextConnId ≤ 2 ^ 31) {c : ConnPtr L}
    (hc : .created c ∈ H) (hid : s'.nextConnId = s.nextConnId)
    (hconnections : s'.connections =
      s.connections.filter fun item => item.1 ≠ cfg.connName c.id) :
    Entries cfg (H ++ [.removed c]) s' := by
  have hcreated : ∀ d, Change.created d ∈ H ++ [.removed c] ↔ .created d ∈ H := by
    intro d
    simp
  have hremoved : ∀ d, Change.removed d ∈ H ++ [.removed c] ↔ .removed d ∈ H ∨ d = c := by
    intro d
    simp
  refine ⟨?_, ?_, ?_, ?_, ?_, ?_⟩
  · rw [List.countP_append, hid, h.nextConnId]
    rfl
  · intro d hd
    rw [hid]
    exact h.id_lt d ((hcreated d).mp hd)
  · exact fun d e hd he => h.id_injective d e ((hcreated d).mp hd) ((hcreated e).mp he)
  · intro d hd
    rcases (hremoved d).mp hd with hold | rfl
    · exact (hcreated d).mpr (h.removed d hold)
    · exact (hcreated d).mpr hc
  · intro item
    rw [hconnections, List.mem_filter, h.items]
    constructor
    · rintro ⟨⟨d, rfl, hd, hnot⟩, hname⟩
      refine ⟨d, rfl, (hcreated d).mpr hd, fun hmem => ?_⟩
      rcases (hremoved d).mp hmem with hold | rfl
      · exact hnot hold
      · simp at hname
    · rintro ⟨d, rfl, hd, hnot⟩
      have hd' := (hcreated d).mp hd
      have hne : d ≠ c := fun heq => hnot ((hremoved d).mpr (.inr heq))
      refine ⟨⟨d, rfl, hd', fun hmem => hnot ((hremoved d).mpr (.inl hmem))⟩, ?_⟩
      simpa using (h.connName_ne hbound hc hd').mpr hne
  · rw [hconnections]
    exact h.nodup.sublist (List.filter_sublist.map Prod.fst)

/-! ### The sources of removals -/

theorem sources_start (h : Start cfg s) : Sources K s := by
  refine ⟨?_, ?_, ?_⟩
  · intro c hc
    rw [h.heap c] at hc
    contradiction
  · intro t i hi
    rw [h.stack t] at hi
    exact absurd hi List.not_mem_nil
  · intro l f hf
    rw [h.loops l] at hf
    exact absurd hf List.not_mem_nil

theorem Sources.mono {K' : ConnPtr L → Prop} (h : Sources K s) (hsub : ∀ c, K c → K' c) :
    Sources K' s :=
  ⟨fun c hc => hsub c (h.heap c hc), fun t i hi c hc => hsub c (h.stack t i hi c hc),
    fun l f hf c hc => hsub c (h.queue l f hf c hc)⟩

/-- The instructions will only remove connections in `K`. -/
def Named (K : ConnPtr L → Prop) (is : List (Instr L)) : Prop :=
  ∀ i ∈ is, ∀ c, i.removes? = some c → K c

theorem named_of_none {is : List (Instr L)} (h : ∀ i ∈ is, i.removes? = none) : Named K is := by
  intro i hi c hc
  rw [h i hi] at hc
  contradiction

theorem named_runInLoop {l : L} {f : Functor L}
    (hf : ∀ c, f.removes? = some c → K c) : Named K (cfg.runInLoop t l f) := by
  intro i hi
  rcases Config.mem_runInLoop hi with rfl | rfl
  · exact hf
  · exact hf

theorem named_effects {c : ConnPtr L} (hc : K c) (tr : List Effect) :
    Named K (tr.flatMap (effectInstrs c)) := by
  intro i hi d hd
  rcases mem_effects hi with ⟨cb, rfl⟩ | rfl | rfl
  · contradiction
  · contradiction
  · obtain rfl : c = d := Option.some.inj hd
    exact hc

section Step

variable [DecidableEq L]

omit [DecidableEq L] in
/-- A step that puts no connection into the heap and no removal into a queue. -/
theorem Sources.congr (h : Sources K s) (hstack : s'.stack = s.stack)
    (hheap : ∀ c, (s'.heap c).isSome → (s.heap c).isSome)
    (hqueue : ∀ l, (s'.loops l).pendingFunctors = (s.loops l).pendingFunctors) :
    Sources K s' := by
  refine ⟨fun c hc => h.heap c (hheap c hc), ?_, ?_⟩
  · rw [hstack]
    exact h.stack
  · intro l f hf
    rw [hqueue l] at hf
    exact h.queue l f hf

theorem Sources.setLoop (h : Sources K s) {l : L} {loop : EventLoop (Functor L)}
    (hq : ∀ f ∈ loop.pendingFunctors, ∀ c, f.removes? = some c → K c) :
    Sources K (s.setLoop l loop) := by
  refine ⟨h.heap, h.stack, fun m f hf => ?_⟩
  rcases eq_or_ne m l with rfl | hne
  · simp only [State.setLoop, Function.update_self] at hf
    exact hq f hf
  · simp only [State.setLoop, Function.update_of_ne hne] at hf
    exact h.queue m f hf

theorem Sources.setConn (h : Sources K s) {c : ConnPtr L} (hc : K c)
    (hstack : s'.stack = s.stack) (hloops : s'.loops = s.loops) {conn : TcpConnection}
    (hheap : s'.heap = Function.update s.heap c (some conn)) : Sources K s' := by
  refine ⟨fun d hd => ?_, ?_, ?_⟩
  · rw [hheap] at hd
    rcases eq_or_ne d c with rfl | hne
    · exact hc
    · rw [Function.update_of_ne hne] at hd
      exact h.heap d hd
  · rw [hstack]
    exact h.stack
  · rw [hloops]
    exact h.queue

/-- One instruction other than an accept: what it leaves to do, and to whom. -/
theorem sources_runs {i : Instr L} {o : Outcome} {is : List (Instr L)} (h : Sources K s)
    (hi : ∀ c, i.removes? = some c → K c)
    (hnot : ∀ revents, i ≠ .handleEvent .acceptor revents) (hruns : Runs cfg t s i o s' is) :
    Sources K s' ∧ Named K is := by
  have hknown {c : ConnPtr L} {conn : TcpConnection} (hconn : s.heap c = some conn) :
      K c := h.heap c (by rw [hconn]; rfl)
  cases hruns with
  | calls hconn hcalls =>
    exact ⟨h.setConn (hknown hconn) rfl rfl rfl, named_effects (hknown hconn) _⟩
  | testQuit => exact ⟨h, named_of_none (by simp [Instr.removes?])⟩
  | leave => exact ⟨h, named_of_none (by simp)⟩
  | poll =>
    refine ⟨h, named_of_none fun j hj => ?_⟩
    rcases List.mem_append.mp hj with hj | hj
    · obtain ⟨b, -, e, -, rfl⟩ := mem_activeChannels hj
      rfl
    · obtain rfl := List.mem_singleton.mp hj
      rfl
  | @beginPendingFunctors l =>
    exact ⟨h.setLoop (h.queue l), named_of_none (by simp [Instr.removes?])⟩
  | @swap l =>
    refine ⟨h.setLoop (by simp [EventLoop.swapFunctors]), fun j hj c hc => ?_⟩
    rcases List.mem_append.mp hj with hj | hj
    · -- what was in the queue is now on the stack
      obtain ⟨f, hf, rfl⟩ := List.mem_map.mp hj
      exact h.queue l f hf c hc
    · obtain rfl := List.mem_singleton.mp hj
      contradiction
  | @endPendingFunctors l =>
    exact ⟨h.setLoop (h.queue l), named_of_none (by simp [Instr.removes?])⟩
  | listen =>
    exact ⟨h.congr rfl (fun _ => id) fun _ => rfl, named_of_none (by simp)⟩
  | destroyFound =>
    exact ⟨h.congr rfl (fun _ => id) fun _ => rfl, named_of_none (by simp [Instr.removes?])⟩
  | destroySkips =>
    exact ⟨h.congr rfl (fun _ => id) fun _ => rfl, named_of_none (by simp [Instr.removes?])⟩
  | removeConnectionInLoop =>
    exact ⟨h.congr rfl (fun _ => id) fun _ => rfl,
      named_of_none (by simp [Instr.removes?, Functor.removes?])⟩
  | notice => exact ⟨h, named_of_none (by simp [Instr.removes?])⟩
  | @queueInLoop l f =>
    refine ⟨h.setLoop fun g hg c hc => ?_, named_of_none (by simp [Instr.removes?])⟩
    rcases List.mem_append.mp hg with hg | hg
    · exact h.queue l g hg c hc
    · obtain rfl := List.mem_singleton.mp hg
      exact hi c hc
  | testWakeup => exact ⟨h, named_of_none (by simp [Instr.removes?])⟩
  | noWakeup => exact ⟨h, named_of_none (by simp)⟩
  | @wakeup l =>
    refine ⟨h.setLoop ?_, named_of_none (by simp)⟩
    rw [EventLoop.wakeup_pendingFunctors]
    exact h.queue l
  | @handleWakeup l => exact ⟨h.setLoop (h.queue l), named_of_none (by simp)⟩
  | ignored => exact ⟨h, named_of_none (by simp)⟩
  | newConnection => exact absurd rfl (hnot _)
  | @handleEvent c conn revents _ _ =>
    -- no event callback removes a connection itself: `handleClose` calls for it
    refine ⟨h, named_of_none fun j hj => ?_⟩
    rcases mem_eventCallbacks hj with rfl | rfl | rfl | rfl | rfl
    all_goals rfl
  | unguard => exact ⟨h, named_of_none (by simp)⟩
  | setDisconnecting hconn =>
    exact ⟨h.setConn (hknown hconn) rfl rfl rfl, named_runInLoop (by simp [Functor.removes?])⟩
  | @removeConnection c =>
    exact ⟨h.congr rfl (fun _ => id) fun _ => rfl, named_runInLoop fun d hd => hi d hd⟩
  | @quit l =>
    refine ⟨h.setLoop (h.queue l), named_of_none fun j hj => ?_⟩
    obtain rfl := Config.mem_quit hj
    rfl
  | join => exact ⟨h, named_of_none (by simp)⟩
  | removeAcceptor =>
    exact ⟨h.congr rfl (fun _ => id) fun _ => rfl, named_of_none (by simp)⟩

/-- Only an accept and `removeConnectionInLoop` touch the registry. -/
theorem registry_runs {i : Instr L} {o : Outcome} {is : List (Instr L)}
    (hnot : ∀ revents, i ≠ .handleEvent .acceptor revents)
    (hremove : ∀ c, i ≠ .functor (.removeConnectionInLoop c)) (hruns : Runs cfg t s i o s' is) :
    s'.connections = s.connections ∧ s'.nextConnId = s.nextConnId := by
  cases hruns with
  | newConnection => exact absurd rfl (hnot _)
  | removeConnectionInLoop => exact absurd rfl (hremove _)
  | _ => exact ⟨rfl, rfl⟩

omit [DecidableEq L] in
theorem instrChange_eq_none {i : Instr L} {o : Outcome}
    (hnot : ∀ revents, i ≠ .handleEvent .acceptor revents)
    (hremove : ∀ c, i ≠ .functor (.removeConnectionInLoop c)) : instrChange cfg s o i = none := by
  cases i with
  | handleEvent p revents =>
    cases p with
    | acceptor => exact absurd rfl (hnot revents)
    | _ => rfl
  | functor f =>
    cases f with
    | removeConnectionInLoop c => exact absurd rfl (hremove c)
    | _ => rfl
  | _ => rfl

/-- An instruction removes a connection exactly when it is its removal. -/
theorem instrChange_eq_removed {i : Instr L} {o : Outcome} {c : ConnPtr L} :
    instrChange cfg s o i = some (.removed c) ↔ i = .functor (.removeConnectionInLoop c) := by
  constructor
  · intro h
    by_contra hne
    cases i with
    | handleEvent p revents =>
      cases p with
      | acceptor =>
        cases o with
        | accepted fd =>
          cases fd with
          | none => contradiction
          | some connfd =>
            simp only [instrChange] at h
            split_ifs at h
            simp at h
        | _ => contradiction
      | _ => contradiction
    | functor f =>
      cases f with
      | removeConnectionInLoop d =>
        obtain rfl : d = c := Change.removed.inj (Option.some.inj h)
        exact hne rfl
      | _ => contradiction
    | _ => contradiction
  · rintro rfl
    rfl

omit [DecidableEq L] in
theorem change_of_not_exec {a : Label L U} (h : ∀ t o, a ≠ .exec t o) : change cfg s a = none := by
  cases a with
  | exec t o => exact absurd rfl (h t o)
  | _ => rfl

/-- An event on the acceptor's channel creates a connection or does nothing. -/
theorem exec_acceptor {o : Outcome} {revents : EventMask} {r : State L U × List (Instr L)}
    (h : exec cfg t o s (.handleEvent .acceptor revents) = some r) :
    (instrChange cfg s o (.handleEvent .acceptor revents) = none ∧ r = (s, [])) ∨
      ∃ connfd, instrChange cfg s o (.handleEvent .acceptor revents) =
          some (.created ⟨s.nextConnId, (cfg.getNextLoop s.next).1, connfd⟩) ∧
        r = s.newConnection cfg t connfd := by
  simp only [exec, execEvent] at h
  split_ifs at h with hready
  · split at h
    next connfd =>
      split_ifs at h
      exact .inr ⟨connfd, if_pos hready, (Option.some.inj h).symm⟩
    next => exact .inl ⟨rfl, (Option.some.inj h).symm⟩
    next => contradiction
  · refine .inl ⟨?_, (Option.some.inj h).symm⟩
    cases o with
    | accepted fd =>
      cases fd with
      | none => rfl
      | some connfd => exact if_neg hready
    | _ => rfl

section Run

variable [DecidableEq U]

theorem Sources.setStack (h : Sources K s) {is : List (Instr L)} (his : Named K is) :
    Sources K (s.setStack t is) := by
  refine ⟨h.heap, fun u i hi => ?_, h.queue⟩
  rcases eq_or_ne u t with rfl | hne
  · rw [State.setStack_self] at hi
    exact his i hi
  · rw [State.setStack_of_ne hne] at hi
    exact h.stack u i hi

theorem Sources.push (h : Sources K s) {is : List (Instr L)} (his : Named K is) :
    Sources K (s.push t is) := by
  refine h.setStack fun i hi => ?_
  rcases List.mem_append.mp hi with hi | hi
  · exact his i hi
  · exact h.stack t i hi

/-- The stack that an instruction leaves behind. -/
theorem Sources.next (h : Sources K s') {is rest : List (Instr L)} (his : Named K is)
    (hrest : Named K rest) : Sources K (s'.setStack t (is ++ rest)) := by
  refine h.setStack fun j hj => ?_
  rcases List.mem_append.mp hj with hj | hj
  · exact his j hj
  · exact hrest j hj

omit [DecidableEq U] in
/-- One instruction puts nobody else on the way to a removal. -/
theorem sources_exec {o : Outcome} {i : Instr L} {r : State L U × List (Instr L)}
    (hs : Sources K s) (hi : ∀ c, i.removes? = some c → K c) (hr : exec cfg t o s i = some r)
    (hnew : ∀ c, instrChange cfg s o i = some (.created c) → K c) :
    Sources K r.1 ∧ Named K r.2 := by
  by_cases hacceptor : ∃ revents, i = .handleEvent .acceptor revents
  · obtain ⟨revents, rfl⟩ := hacceptor
    rcases exec_acceptor hr with ⟨-, rfl⟩ | ⟨connfd, hcreated, rfl⟩
    · exact ⟨hs, named_of_none (by simp)⟩
    · refine ⟨hs.setConn (hnew _ hcreated) rfl rfl rfl, ?_⟩
      exact named_runInLoop (by simp [Functor.removes?])
  · exact sources_runs hs hi (fun revents heq => hacceptor ⟨revents, heq⟩) (runs_of_exec hr)

/-- What a step does to the registry. -/
inductive Registers (cfg : Config L U) (s : State L U) : Option (Change L) → State L U → Prop
  | none {s' : State L U} : s'.connections = s.connections → s'.nextConnId = s.nextConnId →
      Registers cfg s none s'
  | created {c : ConnPtr L} {s' : State L U} : c.id = s.nextConnId →
      s'.nextConnId = s.nextConnId + 1 →
      s'.connections = (cfg.connName s.nextConnId, c) ::
        s.connections.filter (fun item => item.1 ≠ cfg.connName s.nextConnId) →
      Registers cfg s (some (.created c)) s'
  | removed {c : ConnPtr L} {s' : State L U} : s'.nextConnId = s.nextConnId →
      s'.connections = s.connections.filter (fun item => item.1 ≠ cfg.connName c.id) →
      Registers cfg s (some (.removed c)) s'

omit [DecidableEq U] in
theorem registers_exec {o : Outcome} {i : Instr L} {r : State L U × List (Instr L)}
    (hr : exec cfg t o s i = some r) : Registers cfg s (instrChange cfg s o i) r.1 := by
  by_cases hacceptor : ∃ revents, i = .handleEvent .acceptor revents
  · obtain ⟨revents, rfl⟩ := hacceptor
    rcases exec_acceptor hr with ⟨hnone, rfl⟩ | ⟨connfd, hcreated, rfl⟩
    · rw [hnone]
      exact .none rfl rfl
    · rw [hcreated]
      exact .created rfl rfl rfl
  by_cases hremove : ∃ c, i = .functor (.removeConnectionInLoop c)
  · obtain ⟨c, rfl⟩ := hremove
    obtain rfl := Option.some.inj hr
    exact .removed rfl rfl
  have hnot : ∀ revents, i ≠ .handleEvent .acceptor revents :=
    fun revents heq => hacceptor ⟨revents, heq⟩
  have hnot' : ∀ c, i ≠ .functor (.removeConnectionInLoop c) := fun c heq => hremove ⟨c, heq⟩
  obtain ⟨hconnections, hid⟩ := registry_runs hnot hnot' (runs_of_exec hr)
  rw [instrChange_eq_none hnot hnot']
  exact .none hconnections hid

omit [DecidableEq U] in
/-- A removal is one that was on its way. -/
theorem Sources.removed {a : Label L U} {c : ConnPtr L} (h : Sources K s)
    (hchange : change cfg s a = some (.removed c)) : K c := by
  cases a with
  | exec t o =>
    obtain ⟨i, hi, hinstr⟩ := Option.bind_eq_some_iff.mp hchange
    obtain rfl := instrChange_eq_removed.mp hinstr
    exact h.stack t _ (List.mem_of_head? hi) c rfl
  | _ => contradiction

variable [Fintype L]

theorem registers_step {a : Label L U} (ha : a.isDestroyServer = false)
    (h : step cfg s a = some s') : Registers cfg s (change cfg s a) s' := by
  by_cases hexec : ∃ t o, a = .exec t o
  · obtain ⟨t, o, rfl⟩ := hexec
    obtain ⟨i, rest, r, hstack, hr, rfl⟩ := exec_of_step h
    have hregisters := registers_exec hr
    rw [change, hstack]
    show Registers cfg s (instrChange cfg s o i) _
    generalize instrChange cfg s o i = x at hregisters ⊢
    cases hregisters with
    | none hconnections hid => exact .none hconnections hid
    | created hc hid hconnections => exact .created hc hid hconnections
    | removed hid hconnections => exact .removed hid hconnections
  rw [change_of_not_exec fun t o heq => hexec ⟨t, o, heq⟩]
  cases move_of_step h with
  | exec => exact absurd ⟨_, _, rfl⟩ hexec
  | destroyServer => contradiction
  | _ => exact .none rfl rfl

theorem sources_step {a : Label L U} (hs : Sources K s)
    (hnew : ∀ c, change cfg s a = some (.created c) → K c) (h : step cfg s a = some s') :
    Sources K s' := by
  have hrest {u : Thread L U} {i : Instr L} {rest : List (Instr L)}
      (hstack : s.stack u = i :: rest) : Named K rest :=
    fun j hj => hs.stack u j (hstack ▸ List.mem_cons_of_mem _ hj)
  by_cases hexec : ∃ t o, a = .exec t o
  · obtain ⟨t, o, rfl⟩ := hexec
    obtain ⟨i, rest, r, hstack, hr, rfl⟩ := exec_of_step h
    rw [change, hstack] at hnew
    obtain ⟨hs', his⟩ :=
      sources_exec hs (hs.stack t i (hstack ▸ List.mem_cons_self)) hr hnew
    exact hs'.next his (hrest hstack)
  cases move_of_step h with
  | exec => exact absurd ⟨_, _, rfl⟩ hexec
  | callbackReturn hstack => exact hs.setStack (hrest hstack)
  | send => exact hs.push (named_runInLoop (by simp [Functor.removes?]))
  | shutdown => exact hs.push (named_of_none (by simp [Instr.removes?]))
  | refused => exact hs
  | setThreadNum => exact hs.push (named_runInLoop (by simp [Functor.removes?]))
  | @loop l =>
    refine Sources.push ?_ (named_of_none (by simp [Instr.removes?]))
    exact hs.setLoop (hs.queue l)
  | @quit t l =>
    refine Sources.push ?_ (named_of_none fun j hj => ?_)
    · exact hs.setLoop (hs.queue l)
    · obtain rfl := Config.mem_quit hj
      rfl
  | @destroyServer order =>
    have hrecord : Sources K
        ({ s with connections := [] }.record [.connections (.loop cfg.base)]) :=
      hs.congr rfl (fun _ => id) fun _ => rfl
    refine hrecord.push fun j hj c hc => ?_
    rcases mem_destroyServer hj with ⟨d, hd⟩ | ⟨l, rfl | rfl⟩ | rfl
    · exact named_runInLoop (by simp [Functor.removes?]) j hd c hc
    · contradiction
    · contradiction
    · contradiction
  | @destroyConnection c =>
    refine hs.congr rfl (fun d hd => ?_) fun _ => rfl
    rcases eq_or_ne d c with rfl | hne
    · simp [State.free] at hd
    · simpa [State.free, Function.update_of_ne hne] using hd

/-! ### The account of the connections -/

/-- What the next step does to the history, to the entries and to the sources of
removals. -/
structure Tracks (cfg : Config L U) (H : List (Change L)) (s : State L U) (a : Label L U)
    (s' : State L U) : Prop where
  entries : Entries cfg (H ++ (change cfg s a).toList) s'
  sources : Sources (Created (H ++ (change cfg s a).toList)) s'
  exact : Exact cfg s a s'

/-- Every step keeps account of the connections. -/
theorem tracks_step {a : Label L U} (he : Entries cfg H s) (hs : Sources (Created H) s)
    (ha : a.isDestroyServer = false)
    (hbound : (H ++ (change cfg s a).toList).countP Change.isCreated < 2 ^ 31 - 1)
    (h : step cfg s a = some s') : Tracks cfg H s a s' := by
  have hsources : Sources (Created (H ++ (change cfg s a).toList)) s' := by
    refine sources_step (hs.mono fun c hc => List.mem_append_left _ hc) (fun c hc => ?_) h
    rw [hc]
    exact List.mem_append_right _ (List.mem_singleton.mpr rfl)
  have hregisters := registers_step ha h
  have hid := he.nextConnId
  rw [List.countP_append] at hbound
  suffices hboth : Entries cfg (H ++ (change cfg s a).toList) s' ∧ Exact cfg s a s' from
    ⟨hboth.1, hsources, hboth.2⟩
  rw [Exact]
  generalize hchange : change cfg s a = x at hregisters hbound ⊢
  cases hregisters with
  | none hconnections hnext =>
    rw [Option.toList_none, List.append_nil]
    exact ⟨he.congr hconnections hnext, fun _ hc => absurd hc (by simp),
      fun _ hc => absurd hc (by simp)⟩
  | @created c _ hc hnext hconnections =>
    have hone : ([.created c] : List (Change L)).countP Change.isCreated = 1 := rfl
    rw [Option.toList_some, hone] at hbound
    refine ⟨he.created (by omega) hc hnext hconnections, fun d hd => ?_,
      fun _ hd => absurd hd (by simp)⟩
    obtain rfl : c = d := Change.created.inj (Option.some.inj hd)
    rw [hc]
    exact ⟨he.fresh (by omega), cfg.suffix_length (by omega)⟩
  | @removed c _ hnext hconnections =>
    have hc : .created c ∈ H := hs.removed hchange
    refine ⟨he.remove (by omega) hc hnext hconnections, fun _ hd => absurd hd (by simp),
      fun d hd item hitem hne => ?_⟩
    obtain rfl : c = d := Change.removed.inj (Option.some.inj hd)
    rw [hconnections, List.mem_filter]
    refine ⟨hitem, ?_⟩
    obtain ⟨e, rfl, he', -⟩ := (he.items item).mp hitem
    simpa using (he.connName_ne (by omega) hc he').mpr hne

/-! ### Runs -/

/-- What a run does to the set of connections. -/
def changes (cfg : Config L U) (s : State L U) (as : List (Label L U)) : List (Change L) :=
  (system cfg).collect (change cfg) s as

theorem tracks_run (as : List (Label L U)) {H : List (Change L)} {s s' : State L U}
    (he : Entries cfg H s) (hs : Sources (Created H) s) (hrun : (system cfg).run s as = some s')
    (has : ∀ a ∈ as, a.isDestroyServer = false)
    (hbound : (H ++ changes cfg s as).countP Change.isCreated < 2 ^ 31 - 1) :
    Entries cfg (H ++ changes cfg s as) s' ∧ (system cfg).StepsRelate (Exact cfg) s as := by
  induction as generalizing H s with
  | nil =>
    obtain rfl : s = s' := Option.some.inj hrun
    rw [changes, Machine.collect, List.append_nil]
    exact ⟨he, trivial⟩
  | cons a as ih =>
    obtain ⟨u, hu, hrest⟩ := (Machine.run_cons_eq_some _).mp hrun
    have hchanges : H ++ changes cfg s (a :: as) =
        (H ++ (change cfg s a).toList) ++ changes cfg u as := by
      rw [changes, Machine.collect_cons hu, List.append_assoc]
      rfl
    rw [hchanges] at hbound ⊢
    have hle : (H ++ (change cfg s a).toList).countP Change.isCreated < 2 ^ 31 - 1 := by
      rw [List.countP_append] at hbound
      omega
    have htracks := tracks_step he hs (has a List.mem_cons_self) hle (step_of_system hu)
    obtain ⟨hentries, hexact⟩ := ih htracks.entries htracks.sources hrest
      (fun b hb => has b (List.mem_cons_of_mem a hb)) hbound
    refine ⟨hentries, fun v hv => ?_⟩
    obtain rfl : u = v := Option.some.inj (hu.symm.trans hv)
    exact ⟨htracks.exact, hexact⟩

/-- In every run of a server that is not being destroyed, with fewer than
`2 ^ 31 - 1` connections: `connections_` has no two entries of one name and holds
exactly the connections created and not removed; and every step is exact. -/
theorem registry_exact {s₀ s : State L U} {as : List (Label L U)} (h₀ : Start cfg s₀)
    (hrun : (system cfg).run s₀ as = some s) (has : ∀ a ∈ as, a.isDestroyServer = false)
    (hbound : (changes cfg s₀ as).countP Change.isCreated < 2 ^ 31 - 1) :
    (s.connections.map Prod.fst).Nodup ∧
      (∀ item, item ∈ s.connections ↔ ∃ c, item = (cfg.connName c.id, c) ∧
        .created c ∈ changes cfg s₀ as ∧ .removed c ∉ changes cfg s₀ as) ∧
      (system cfg).StepsRelate (Exact cfg) s₀ as := by
  obtain ⟨hentries, hexact⟩ :=
    tracks_run as (entries_start h₀) (sources_start h₀) hrun has hbound
  exact ⟨hentries.nodup, hentries.items, hexact⟩

end Run

end Step

/-- A connection is accepted, closed by its peer and removed. -/
def acceptAndRemove : List (Label Bool Unit) :=
  acceptOne ++ [.callbackReturn (.loop true), .exec (.loop true) .none,
    .exec (.loop true) .none, .exec (.loop true) (.polled [(7, EPOLLIN)]),
    .exec (.loop true) .none, .exec (.loop true) (.read (.read [])),
    .callbackReturn (.loop true), .exec (.loop true) .none, .exec (.loop true) .none,
    .exec (.loop false) .none, .exec (.loop false) .none, .exec (.loop false) .none]

theorem registry_exact_remove :
    ∃ s : State Bool Unit,
      (system twoLoops).run (State.make twoLoops) acceptAndRemove = some s ∧
      changes twoLoops (State.make twoLoops) acceptAndRemove =
        [.created ⟨1, true, 7⟩, .removed ⟨1, true, 7⟩] ∧
      ∀ item, item ∉ s.connections := by
  have hrun : ∃ s, (system twoLoops).run (State.make twoLoops) acceptAndRemove = some s :=
    ⟨_, rfl⟩
  obtain ⟨s, hs⟩ := hrun
  have hchanges : changes twoLoops (State.make twoLoops) acceptAndRemove =
      [.created ⟨1, true, 7⟩, .removed ⟨1, true, 7⟩] := rfl
  have hbound : (changes twoLoops (State.make twoLoops) acceptAndRemove).countP
      Change.isCreated < 2 ^ 31 - 1 := by
    rw [hchanges]
    decide
  have hitems := (registry_exact (start_make twoLoops) hs
    (by decide) hbound).2.1
  refine ⟨s, hs, hchanges, fun item hitem => ?_⟩
  obtain ⟨c, -, hcreated, hremoved⟩ := (hitems item).mp hitem
  rw [hchanges] at hcreated hremoved
  obtain rfl : c = ⟨1, true, 7⟩ := by simpa using hcreated
  exact hremoved (by simp)

end TcpServer

end Moduo
