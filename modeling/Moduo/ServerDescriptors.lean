/-
The descriptors of the connections.

A connection owns its descriptor from `accept` to `~TcpConnection`, whose
`Socket` closes it.

* `descriptors_exact` — along every run of a server that is not destroyed and whose io
  loops are not quit, the open descriptors are those open at the start and those of the
  connections that exist, each of one connection; every connection accepted exists or
  has been destroyed, once.
-/
import Moduo.Registry
import Moduo.ServerGround

namespace Moduo

namespace TcpServer

variable {L U : Type*}

/-- The connection whose end is recorded. -/
def Event.freed? : Event L U → Option (ConnPtr L)
  | .freed c => some c
  | _ => none

/-- The connections that have been destroyed. -/
def State.destroyed (s : State L U) : List (ConnPtr L) := s.log.filterMap Event.freed?

/-- The connections that exist. -/
def State.existing (s : State L U) : Set (ConnPtr L) := {c | (s.heap c).isSome}

theorem State.mem_existing {s : State L U} {c : ConnPtr L} :
    c ∈ s.existing ↔ (s.heap c).isSome :=
  Iff.rfl

/-- There are finitely many connections. -/
theorem Ledger.finite {cfg : Config L U} {s : State L U} (h : Ledger cfg s) :
    s.existing.Finite := by
  refine Set.Finite.of_injOn (f := ConnPtr.id) (t := Set.Iio s.nextConnId) ?_ ?_
    (Set.finite_Iio _)
  · intro c hc
    obtain ⟨conn, hconn⟩ := Option.isSome_iff_exists.mp hc
    exact h.id_lt c conn hconn
  · exact fun c hc d hd heq => h.id_injective c d hc hd heq

/-- The descriptors that are open in `s`, after a start from `s₀`, and the account of the
connections. -/
structure Owned (s₀ s : State L U) : Prop where
  isOpen : ∀ fd, s.isOpen fd = true ↔ s₀.isOpen fd = true ∨ ∃ c ∈ s.existing, c.fd = fd
  initial : ∀ c ∈ s.existing, s₀.isOpen c.fd = false
  account : s.existing.ncard + s.destroyed.length + 1 = s.nextConnId
  destroyed_nodup : s.destroyed.Nodup
  destroyed_gone : ∀ c ∈ s.destroyed, c ∉ s.existing ∧ c.id < s.nextConnId

/-- No connection comes or goes. -/
structure Keeps (s s' : State L U) : Prop where
  existing : s'.existing = s.existing
  isOpen : s'.isOpen = s.isOpen
  nextConnId : s'.nextConnId = s.nextConnId
  destroyed : s'.destroyed = s.destroyed

variable {cfg : Config L U} {s₀ s s' : State L U}

theorem owned_start (h : Start cfg s₀) : Owned s₀ s₀ := by
  have hempty : s₀.existing = ∅ := by
    refine Set.eq_empty_of_forall_notMem fun c hc => ?_
    rw [State.mem_existing, h.heap] at hc
    contradiction
  have hnone : s₀.destroyed = [] := by
    rw [State.destroyed, h.log]
    rfl
  constructor
  · intro fd
    constructor
    · exact .inl
    · rintro (hfd | ⟨c, hc, -⟩)
      · exact hfd
      · rw [hempty] at hc
        contradiction
  · intro c hc
    rw [hempty] at hc
    contradiction
  · rw [hempty, hnone, h.nextConnId, Set.ncard_empty]
    rfl
  · rw [hnone]
    exact List.nodup_nil
  · intro c hc
    rw [hnone] at hc
    contradiction

theorem Owned.keeps (h : Owned s₀ s) (hs : Keeps s s') : Owned s₀ s' where
  isOpen := by
    rw [hs.isOpen, hs.existing]
    exact h.isOpen
  initial := by
    rw [hs.existing]
    exact h.initial
  account := by
    rw [hs.existing, hs.destroyed, hs.nextConnId]
    exact h.account
  destroyed_nodup := by
    rw [hs.destroyed]
    exact h.destroyed_nodup
  destroyed_gone := by
    rw [hs.destroyed, hs.existing, hs.nextConnId]
    exact h.destroyed_gone

section Step

variable [DecidableEq L]

/-! ### Instructions -/

omit [DecidableEq L] in
theorem Calls.not_freed {t : Thread L U} {c : ConnPtr L} {conn : TcpConnection} {i : Instr L}
    {o : Outcome} {events : List (Event L U)}
    {f : Endpoint (ChannelPtr L) → Endpoint (ChannelPtr L)} (h : Calls t c conn i o events f) :
    events.filterMap Event.freed? = [] := by
  cases h <;> rfl

omit [DecidableEq L] in
/-- No effect of a member is the end of a connection. -/
theorem effects_not_freed (t : Thread L U) (c : ConnPtr L) (tr : List Effect) :
    (tr.filterMap (effectEvent t c)).filterMap Event.freed? = [] := by
  rw [List.filterMap_filterMap, List.filterMap_eq_nil_iff]
  intro x _
  cases x <;> rfl

theorem existing_setConn {c : ConnPtr L} {conn : TcpConnection} (hc : c ∈ s.existing) :
    (s.setConn c conn).existing = s.existing := by
  ext d
  rw [State.mem_existing]
  show (Function.update s.heap c (some conn) d).isSome ↔ _
  by_cases hd : d = c
  · rw [hd, Function.update_self]
    exact ⟨fun _ => hc, fun _ => rfl⟩
  · rw [Function.update_of_ne hd]
    rfl

/-- An instruction makes a connection, or none comes or goes. -/
theorem keeps_runs {t : Thread L U} {i : Instr L} {o : Outcome} {is : List (Instr L)}
    (hruns : Runs cfg t s i o s' is) :
    Keeps s s' ∨ ∃ connfd, s.isOpen connfd = false ∧ o = .accepted (some connfd) ∧
      s' = (s.newConnection cfg t connfd).1 := by
  have hlog : ∀ (s' : State L U) (events : List (Event L U)), s'.heap = s.heap →
      s'.isOpen = s.isOpen → s'.nextConnId = s.nextConnId → s'.log = s.log ++ events →
      events.filterMap Event.freed? = [] → Keeps s s' := by
    intro s' events hheap hopen hid hlog hevents
    refine ⟨by rw [State.existing, hheap, State.existing], hopen, hid, ?_⟩
    rw [State.destroyed, hlog, List.filterMap_append, hevents, List.append_nil, State.destroyed]
  cases hruns with
  | @calls c conn i o events f hconn hcalls =>
    refine .inl ⟨existing_setConn (Option.isSome_iff_exists.mpr ⟨conn, hconn⟩), rfl, rfl, ?_⟩
    show (s.log ++ events ++ _).filterMap Event.freed? = s.destroyed
    rw [List.filterMap_append, List.filterMap_append, hcalls.not_freed, effects_not_freed,
      List.append_nil, List.append_nil, State.destroyed]
  | setDisconnecting hconn =>
    exact .inl ⟨existing_setConn (Option.isSome_iff_exists.mpr ⟨_, hconn⟩), rfl, rfl, rfl⟩
  | newConnection hfree => exact .inr ⟨_, hfree, rfl, rfl⟩
  | destroyFound => exact .inl (hlog _ _ rfl rfl rfl rfl rfl)
  | destroySkips => exact .inl (hlog _ _ rfl rfl rfl rfl rfl)
  | removeConnectionInLoop => exact .inl (hlog _ _ rfl rfl rfl rfl rfl)
  | removeConnection => exact .inl (hlog _ _ rfl rfl rfl rfl rfl)
  | _ => exact .inl ⟨rfl, rfl, rfl, rfl⟩

/-! ### Making and destroying -/

theorem Owned.newConnection (h : Owned s₀ s) (hledger : Ledger cfg s) {t : Thread L U}
    {connfd : ℕ} (hfree : s.isOpen connfd = false) :
    Owned s₀ (s.newConnection cfg t connfd).1 := by
  generalize hs' : (s.newConnection cfg t connfd).1 = s'
  let c : ConnPtr L := ⟨s.nextConnId, (cfg.getNextLoop s.next).1, connfd⟩
  have hnew : c ∉ s.existing := by
    intro hc
    obtain ⟨conn, hconn⟩ := Option.isSome_iff_exists.mp hc
    exact absurd (hledger.id_lt c conn hconn) (lt_irrefl _)
  have hexisting : s'.existing = insert c s.existing := by
    rw [← hs']
    ext d
    rw [Set.mem_insert_iff, State.mem_existing]
    show (Function.update s.heap c _ d).isSome ↔ _
    by_cases hd : d = c
    · rw [hd, Function.update_self]
      exact ⟨fun _ => .inl rfl, fun _ => rfl⟩
    · rw [Function.update_of_ne hd]
      exact ⟨.inr, fun hor => hor.resolve_left hd⟩
  have hdestroyed : s'.destroyed = s.destroyed := by
    rw [← hs']
    show (s.log ++ [Event.nextConnId t, Event.connections t]).filterMap Event.freed? = _
    rw [List.filterMap_append]
    exact List.append_nil _
  have hid : s'.nextConnId = s.nextConnId + 1 := by rw [← hs']; rfl
  have hopen : s'.isOpen = Function.update s.isOpen connfd true := by rw [← hs']; rfl
  constructor
  · intro fd
    rw [hopen, hexisting]
    by_cases hfd : fd = connfd
    · rw [hfd, Function.update_self]
      exact ⟨fun _ => .inr ⟨c, Set.mem_insert c _, rfl⟩, fun _ => rfl⟩
    · rw [Function.update_of_ne hfd, h.isOpen]
      constructor
      · rintro (hfd₀ | ⟨d, hd, hdfd⟩)
        · exact .inl hfd₀
        · exact .inr ⟨d, Set.mem_insert_of_mem c hd, hdfd⟩
      · rintro (hfd₀ | ⟨d, hd, hdfd⟩)
        · exact .inl hfd₀
        · rcases Set.mem_insert_iff.mp hd with rfl | hd
          · exact absurd hdfd.symm hfd
          · exact .inr ⟨d, hd, hdfd⟩
  · intro d hd
    rw [hexisting] at hd
    rcases Set.mem_insert_iff.mp hd with rfl | hd
    · -- a descriptor that was open at the start still is
      by_contra hopen₀
      have := (h.isOpen connfd).mpr (.inl (by simpa using hopen₀))
      rw [hfree] at this
      contradiction
    · exact h.initial d hd
  · rw [hexisting, hdestroyed, hid, Set.ncard_insert_of_notMem hnew hledger.finite]
    have haccount := h.account
    omega
  · rw [hdestroyed]
    exact h.destroyed_nodup
  · intro d hd
    rw [hdestroyed] at hd
    obtain ⟨hgone, hlt⟩ := h.destroyed_gone d hd
    rw [hexisting, hid]
    refine ⟨fun hmem => ?_, Nat.lt_succ_of_lt hlt⟩
    rcases Set.mem_insert_iff.mp hmem with rfl | hmem
    · exact absurd hlt (lt_irrefl _)
    · exact hgone hmem

theorem Owned.free (h : Owned s₀ s) (hledger : Ledger cfg s) {c : ConnPtr L}
    {conn : TcpConnection} (hconn : s.heap c = some conn) : Owned s₀ (s.free c) := by
  have hc : c ∈ s.existing := Option.isSome_iff_exists.mpr ⟨conn, hconn⟩
  have hexisting : (s.free c).existing = s.existing \ {c} := by
    ext d
    rw [Set.mem_sdiff, Set.mem_singleton_iff, State.mem_existing]
    show (Function.update s.heap c none d).isSome ↔ _
    by_cases hd : d = c
    · rw [hd, Function.update_self]
      simp
    · rw [Function.update_of_ne hd]
      exact ⟨fun hsome => ⟨hsome, hd⟩, fun hmem => hmem.1⟩
  have hdestroyed : (s.free c).destroyed = s.destroyed ++ [c] := by
    show (s.log ++ [Event.freed c]).filterMap Event.freed? = _
    rw [List.filterMap_append]
    rfl
  constructor
  · intro fd
    rw [hexisting]
    show Function.update s.isOpen c.fd false fd = true ↔ _
    by_cases hfd : fd = c.fd
    · rw [hfd, Function.update_self]
      refine ⟨fun hfalse => by contradiction, ?_⟩
      rintro (hopen₀ | ⟨d, ⟨hd, hne⟩, hdfd⟩)
      · rw [h.initial c hc] at hopen₀
        contradiction
      · exact absurd (hledger.fd_injective d c hd hc hdfd) hne
    · rw [Function.update_of_ne hfd, h.isOpen]
      constructor
      · rintro (hopen₀ | ⟨d, hd, rfl⟩)
        · exact .inl hopen₀
        · exact .inr ⟨d, ⟨hd, fun heq => hfd (by rw [Set.mem_singleton_iff.mp heq])⟩, rfl⟩
      · rintro (hopen₀ | ⟨d, hd, hdfd⟩)
        · exact .inl hopen₀
        · exact .inr ⟨d, hd.1, hdfd⟩
  · intro d hd
    rw [hexisting] at hd
    exact h.initial d hd.1
  · rw [hexisting, hdestroyed, List.length_append, List.length_singleton]
    have haccount := h.account
    have hcard := Set.ncard_sdiff_singleton_add_one hc hledger.finite
    show _ = s.nextConnId
    omega
  · rw [hdestroyed]
    refine List.nodup_append.mpr ⟨h.destroyed_nodup, List.nodup_singleton c, ?_⟩
    rintro d hd d' hd' rfl
    rw [List.mem_singleton.mp hd'] at hd
    exact (h.destroyed_gone c hd).1 hc
  · intro d hd
    rw [hdestroyed] at hd
    rw [hexisting]
    rcases List.mem_append.mp hd with hd | hd
    · exact ⟨fun hmem => (h.destroyed_gone d hd).1 hmem.1, (h.destroyed_gone d hd).2⟩
    · obtain rfl := List.mem_singleton.mp hd
      exact ⟨fun hmem => hmem.2 rfl, hledger.id_lt d conn hconn⟩

/-! ### Runs -/

variable [DecidableEq U] [Fintype L]

omit [Fintype L] in
theorem owned_move (h : Owned s₀ s) (hledger : Ledger cfg s) {a : Label L U}
    (hserving : Serving s a) (hmove : Move cfg s a s') : Owned s₀ s' := by
  cases hmove with
  | exec hstack hruns =>
    rcases keeps_runs hruns with hkeeps | ⟨connfd, hfree, -, rfl⟩
    · exact h.keeps ⟨hkeeps.existing, hkeeps.isOpen, hkeeps.nextConnId, hkeeps.destroyed⟩
    · exact (h.newConnection hledger hfree).keeps ⟨rfl, rfl, rfl, rfl⟩
  | destroyServer => exact hserving.elim
  | destroyConnection hconn => exact h.free hledger hconn
  | _ => exact h.keeps ⟨rfl, rfl, rfl, rfl⟩

/-- Along every run of a server that is not destroyed and whose io loops stay in `loop()`:
a descriptor is open exactly when it was at the start or belongs to a connection that
exists, and then to one only; the connections accepted are those that exist and those that
have been destroyed, and none is destroyed twice or lives on. -/
theorem descriptors_exact {as : List (Label L U)} (h₀ : Start cfg s₀)
    (hmeet : (system cfg).StepsMeet (fun s a => Serving s a ∧ Staying cfg a) s₀ as)
    (hrun : (system cfg).run s₀ as = some s) :
    (∀ fd, s.isOpen fd = true ↔ s₀.isOpen fd = true ∨ ∃ c ∈ s.existing, c.fd = fd) ∧
    (∀ c ∈ s.existing, s₀.isOpen c.fd = false ∧ ∀ d ∈ s.existing, d.fd = c.fd → d = c) ∧
    s.existing.ncard + s.destroyed.length + 1 = s.nextConnId ∧
    s.destroyed.Nodup ∧ ∀ c ∈ s.destroyed, c ∉ s.existing := by
  have hboth : Owned s₀ s ∧ Ground cfg s :=
    hmeet.invariant (I := fun s => Owned s₀ s ∧ Ground cfg s) (fun s a t hI ha ht =>
      ⟨owned_move hI.1 hI.2.ledger ha.1 (move_of_system ht),
        ground_step hI.2 ha.1 (step_of_system ht)⟩) as ⟨owned_start h₀, ground_start h₀⟩ hrun
  obtain ⟨h, hground⟩ := hboth
  exact ⟨h.isOpen,
    fun c hc => ⟨h.initial c hc, fun d hd hfd => hground.ledger.fd_injective d c hd hc hfd⟩,
    h.account, h.destroyed_nodup, fun c hc => (h.destroyed_gone c hc).1⟩

end Step

/-- A connection is accepted, closed by its peer and removed, and both loops go back to
`poll`. -/
def acceptAndRest : List (Label Bool Unit) :=
  acceptAndRemove ++ List.replicate 5 (.exec (.loop false) .none) ++
    List.replicate 9 (.exec (.loop true) .none)

/-- And then it is destroyed. -/
def acceptAndDestroy : List (Label Bool Unit) :=
  acceptAndRest ++ [.destroyConnection ⟨1, true, 7⟩]

theorem descriptors_exact_accept :
    ∃ s : State Bool Unit,
      (system twoLoops).run (State.make twoLoops) acceptAndDestroy = some s ∧
      s.destroyed = [⟨1, true, 7⟩] ∧ s.existing.ncard = 0 ∧
      (s.isOpen 7 = true ↔
        (State.make twoLoops).isOpen 7 = true ∨ ∃ c ∈ s.existing, c.fd = 7) := by
  have hunder : ∃ s, (system twoLoops).runUnder (fun s a => Serving s a ∧ Staying twoLoops a)
      (State.make twoLoops) acceptAndDestroy = some s := ⟨_, rfl⟩
  have hrun : ∃ s, (system twoLoops).run (State.make twoLoops) acceptAndDestroy = some s ∧
      s.nextConnId = 2 ∧ s.destroyed = [⟨1, true, 7⟩] := ⟨_, rfl, rfl, rfl⟩
  obtain ⟨u, hu⟩ := hunder
  obtain ⟨s, hs, hid, hdestroyed⟩ := hrun
  have hmeets := Machine.StepsMeet.of_runUnder acceptAndDestroy hu
  obtain ⟨hopen, -, haccount, -⟩ := descriptors_exact (start_make twoLoops) hmeets hs
  rw [hdestroyed, List.length_singleton, hid] at haccount
  exact ⟨s, hs, hdestroyed, by omega, hopen 7⟩

end TcpServer

end Moduo
