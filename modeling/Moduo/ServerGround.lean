/-
What a server keeps about its connections until it is destroyed, whoever calls
`send` and `shutdown`.

* `Instr.Grounded` — an instruction is about a connection that has been made, and
  only its establishing is about a connection that is still connecting;
* `Entry` — an entry of an epoll set belongs to a channel that exists, at its
  descriptor and on its loop;
* `Ground` — the invariant, with the `Ledger` and a `Layout` of the stacks.
-/
import Moduo.EndpointView
import Moduo.LiveServer
import Moduo.ServerRounds

namespace Moduo

namespace TcpServer

variable {L U : Type*}

/-- The connection a functor is about. -/
def Functor.about? : Functor L → Option (ConnPtr L)
  | .listen => none
  | .sendInLoop c _ => some c
  | .shutdownInLoop c => some c
  | .connectionEstablished c => some c
  | .connectionDestroyed c => some c
  | .removeConnectionInLoop c => some c
  | .notice c _ => some c

/-- The connection an instruction is about. -/
def Instr.about? : Instr L → Option (ConnPtr L)
  | .functor f => f.about?
  | .queueInLoop _ f => f.about?
  | .handleEvent (.conn c) _ => some c
  | .closeCallback c => some c
  | .errorCallback c => some c
  | .readCallback c => some c
  | .writeCallback c => some c
  | .unguard c => some c
  | .setDisconnecting c => some c
  | .removeConnection c => some c
  | .disconnect c => some c
  | .removeChannel c => some c
  | _ => none

/-- The connection, while it is there, has been established. -/
def State.Begun (s : State L U) (c : ConnPtr L) : Prop :=
  ∀ conn, s.heap c = some conn → conn.state ≠ .kConnecting

def Instr.Grounded (s : State L U) (i : Instr L) : Prop :=
  ∀ c, i.about? = some c →
    c.id < s.nextConnId ∧ (i.task? ≠ some (.establish, c) → s.Begun c)

/-- A `send` or `shutdown` is queued only from other threads than that of the
connection's loop. -/
def Instr.Remote (t : Thread L U) (i : Instr L) : Prop :=
  ∀ l f c, i = .queueInLoop l f → f.raw? = some c → t ≠ .loop c.loop

/-- An entry of the epoll set of loop `l` for descriptor `fd` may carry this
pointer. -/
def Entry (cfg : Config L U) (s : State L U) (l : L) (fd : ℕ) : ChannelPtr L → Prop
  | .wakeup m => m = l ∧ fd = cfg.wakeupFd l
  | .acceptor => l = cfg.base ∧ fd = cfg.acceptFd
  | .conn c => l = c.loop ∧ fd = c.fd ∧ (s.heap c).isSome ∧ s.Begun c

structure Ground [DecidableEq L] [Fintype L] (cfg : Config L U) (s : State L U) : Prop where
  confined : Confined cfg s
  ledger : Ledger cfg s
  layout : ∃ lay : Layout L U, lay.Fits s
  acceptor_fd : s.acceptChannel.fd = cfg.acceptFd
  entries : ∀ l fd e, (s.pollers l).epoll fd = some e → Entry cfg s l fd e.2
  channels : ∀ l fd c, (s.pollers l).channels fd = some (.conn c) → c.id < s.nextConnId
  stack : ∀ t, ∀ i ∈ s.stack t, i.Grounded s
  remote : ∀ t, ∀ i ∈ s.stack t, i.Remote t
  queues : ∀ l, ∀ f ∈ (s.loops l).pendingFunctors, (Instr.functor f).Grounded s
  users : ∀ u, ∀ i ∈ s.stack (.user u), i.task? = none
  establish : ∀ c, s.tasks .establish c ≤ 1 ∧ (s.Begun c → s.tasks .establish c = 0)

/-! ### Time -/

/-- Connections are numbered upwards, and what has been established stays so. -/
structure Later (s s' : State L U) : Prop where
  nextConnId : s.nextConnId ≤ s'.nextConnId
  begun : ∀ c, c.id < s.nextConnId → s.Begun c → s'.Begun c

variable {s s' : State L U} {cfg : Config L U}

theorem Later.of_eq (hid : s'.nextConnId = s.nextConnId) (hheap : s'.heap = s.heap) :
    Later s s' where
  nextConnId := hid.ge
  begun c _ hc := by rwa [State.Begun, hheap]

theorem Instr.Grounded.later {i : Instr L} (h : i.Grounded s) (hs : Later s s') :
    i.Grounded s' := by
  intro c hc
  obtain ⟨hid, hbegun⟩ := h c hc
  exact ⟨hid.trans_le hs.nextConnId, fun htask => hs.begun c hid (hbegun htask)⟩

theorem Entry.later {l : L} {fd : ℕ} {p : ChannelPtr L} (h : Entry cfg s l fd p)
    (hledger : Ledger cfg s) (hs : Later s s')
    (hkeep : ∀ c, p = .conn c → (s'.heap c).isSome) : Entry cfg s' l fd p := by
  cases p with
  | wakeup m => exact h
  | acceptor => exact h
  | conn c =>
    obtain ⟨hl, hfd, hsome, hbegun⟩ := h
    obtain ⟨conn, hconn⟩ := Option.isSome_iff_exists.mp hsome
    exact ⟨hl, hfd, hkeep c rfl, hs.begun c (hledger.id_lt c conn hconn) hbegun⟩

theorem Instr.Grounded.of_about {i : Instr L} (h : i.about? = none) : i.Grounded s := by
  intro c hc
  rw [h] at hc
  contradiction

/-- Another instruction about the same connection. -/
theorem Instr.Grounded.of_begun {j : Instr L} {c : ConnPtr L} (hj : j.about? = some c)
    (hid : c.id < s.nextConnId) (hbegun : s.Begun c) : j.Grounded s := by
  intro d hd
  obtain rfl := Option.some.inj (hj.symm.trans hd)
  exact ⟨hid, fun _ => hbegun⟩

theorem Instr.Remote.of_ne {t : Thread L U} {i : Instr L} (h : ∀ l f, i ≠ .queueInLoop l f) :
    i.Remote t :=
  fun l f _ hi => absurd hi (h l f)

/-- `runInLoop` queues only what it cannot run at once. -/
theorem remote_runInLoop {t : Thread L U} {l : L} {f : Functor L}
    (hf : ∀ c, f.raw? = some c → c.loop = l) : ∀ j ∈ cfg.runInLoop t l f, j.Remote t := by
  intro j hj
  rw [Config.runInLoop] at hj
  split_ifs at hj with ht
  · exact List.mem_singleton.mp hj ▸ .of_ne (by simp)
  · obtain rfl := List.mem_singleton.mp hj
    intro m g c hi hraw hthread
    obtain ⟨rfl, rfl⟩ := Instr.queueInLoop.inj hi
    rw [hthread, hf c hraw] at ht
    exact ht (by simp [Config.isInLoopThread])

theorem grounded_runInLoop {t : Thread L U} {l : L} {f : Functor L}
    (h : (Instr.functor f).Grounded s) : ∀ j ∈ cfg.runInLoop t l f, j.Grounded s := by
  intro j hj
  rcases Config.mem_runInLoop hj with rfl | rfl
  · exact h
  · exact h

section Step

variable [DecidableEq L] {t : Thread L U} {c : ConnPtr L} {conn : TcpConnection} {i : Instr L}
  {o : Outcome} {is : List (Instr L)} {events : List (Event L U)}
  {f : Endpoint (ChannelPtr L) → Endpoint (ChannelPtr L)}

/-! ### Members -/

omit [DecidableEq L] in
theorem Calls.about (h : Calls t c conn i o events f) : i.about? = some c := by
  cases h <;> rfl

omit [DecidableEq L] in
theorem Calls.elsewhere (h : Calls t c conn i o events f) (p : EPollPoller (ChannelPtr L)) :
    Endpoint.Elsewhere (.conn c) ⟨conn, p, []⟩ (f ⟨conn, p, []⟩) := by
  cases h with
  | sendInLoop => exact Endpoint.elsewhere_sendInLoop _ _ _ _
  | shutdownInLoop => exact Endpoint.elsewhere_shutdownInLoop _ _
  | connectionEstablished => exact Endpoint.elsewhere_connectionEstablished _ _
  | handleClose => exact (Endpoint.elsewhere_disconnect _ _).trans (.of_eq rfl rfl)
  | handleError => exact .of_eq rfl rfl
  | endOfFile => exact Endpoint.elsewhere_handleRead _ _ _
  | handleRead => exact Endpoint.elsewhere_handleRead _ _ _
  | handleWrite hadm => exact Endpoint.elsewhere_handleWrite _ hadm
  | disconnect => exact Endpoint.elsewhere_disconnect _ _
  | removeChannel => exact Endpoint.elsewhere_removeChannel _ _

omit [DecidableEq L] in
/-- A member leaves the connection established; `connectionEstablished` makes it
so. -/
theorem Calls.begun (h : Calls t c conn i o events f) (p : EPollPoller (ChannelPtr L))
    (hbegun : i.task? ≠ some (.establish, c) → conn.state ≠ .kConnecting) :
    (f ⟨conn, p, []⟩).conn.state ≠ .kConnecting := by
  have hkeep : i.task? ≠ some (.establish, c) →
      (f ⟨conn, p, []⟩).conn.state = conn.state → (f ⟨conn, p, []⟩).conn.state ≠ .kConnecting := by
    intro htask hsame
    rw [hsame]
    exact hbegun htask
  cases h with
  | sendInLoop =>
    exact hkeep (by simp [Instr.task?, Functor.task?]) (Endpoint.quiet_sendInLoop _ _ _ _).state
  | shutdownInLoop =>
    refine hkeep (by simp [Instr.task?, Functor.task?]) ?_
    rw [Endpoint.shutdownInLoop]
    split_ifs <;> rfl
  | connectionEstablished =>
    have hstate : (Endpoint.connectionEstablished (.conn c) ⟨conn, p, []⟩).conn.state =
      .kConnected := rfl
    rw [hstate]
    simp
  | handleClose =>
    have hstate : (Endpoint.handleClose (.conn c) ⟨conn, p, []⟩).conn.state = .kDisconnected := rfl
    rw [hstate]
    simp
  | handleError => exact hkeep (by simp [Instr.task?]) rfl
  | endOfFile =>
    have hstate : (Endpoint.handleRead (.conn c) (.read []) ⟨conn, p, []⟩).conn.state =
      .kDisconnected := rfl
    rw [hstate]
    simp
  | handleRead hne => exact hkeep (by simp [Instr.task?]) (Endpoint.handleRead_of_ne _ hne _).1
  | handleWrite hadm =>
    exact hkeep (by simp [Instr.task?]) (Endpoint.quiet_handleWrite _ hadm).state
  | disconnect =>
    have hstate : (Endpoint.disconnect (.conn c) ⟨conn, p, []⟩).conn.state = .kDisconnected := rfl
    rw [hstate]
    simp
  | removeChannel => exact hkeep (by simp [Instr.task?]) rfl

/-! ### One instruction -/

variable [Fintype L]

theorem Ground.later_runs (h : Ground cfg s) (hi : i ∈ s.stack t)
    (hruns : Runs cfg t s i o s' is) : Later s s' := by
  have hground := h.stack t i hi
  cases hruns with
  | @calls c conn _ _ _ f hconn hcalls =>
    refine ⟨le_rfl, fun d _ hd conn' hconn' => ?_⟩
    by_cases hdc : d = c
    · subst hdc
      simp only [State.performed, State.setConn, Function.update_self] at hconn'
      obtain rfl := Option.some.inj hconn'
      exact hcalls.begun _ fun htask => (hground d hcalls.about).2 htask conn hconn
    · simp only [State.performed, State.setConn, Function.update_of_ne hdc] at hconn'
      exact hd conn' hconn'
  | @newConnection _ connfd =>
    refine ⟨Nat.le_succ _, fun d hid hd conn' hconn' => ?_⟩
    have hne : d ≠ ⟨s.nextConnId, (cfg.getNextLoop s.next).1, connfd⟩ := by
      rintro rfl
      exact absurd hid (lt_irrefl _)
    simp only [State.newConnection, Function.update_of_ne hne] at hconn'
    exact hd conn' hconn'
  | @setDisconnecting c conn _ hconn =>
    refine ⟨le_rfl, fun d _ hd conn' hconn' => ?_⟩
    by_cases hdc : d = c
    · subst hdc
      simp only [State.setConn, Function.update_self] at hconn'
      obtain rfl := Option.some.inj hconn'
      simp
    · simp only [State.setConn, Function.update_of_ne hdc] at hconn'
      exact hd conn' hconn'
  | _ => exact .of_eq rfl rfl

theorem Ground.ledger_runs (h : Ground cfg s) (hi : i ∈ s.stack t)
    (hserving : Serving s (.exec t o)) (hruns : Runs cfg t s i o s' is) : Ledger cfg s' := by
  cases hruns with
  | calls hconn hcalls =>
    exact h.ledger.update hconn (hcalls.elsewhere _).fd rfl rfl rfl rfl
  | @setDisconnecting c conn _ hconn =>
    have hheap : (s.setConn c { conn with state := .kDisconnecting }).heap =
        Function.update s.heap c (some { conn with state := .kDisconnecting }) := rfl
    refine h.ledger.update hconn ?_ rfl rfl rfl hheap
    rfl
  | newConnection hfree => exact h.ledger.newConnection hfree hserving
  | removeConnectionInLoop =>
    refine h.ledger.of_heap rfl rfl (fun item hitem => (List.mem_filter.mp hitem).1) ?_ ?_
    · exact fun d conn hd => ⟨conn, hd, rfl⟩
    · exact fun d hd => hd
  | _ =>
    refine h.ledger.of_heap rfl rfl (fun item hitem => hitem) ?_ ?_
    · exact fun d conn hd => ⟨conn, hd, rfl⟩
    · exact fun d hd => hd

omit [Fintype L] in
/-- No instruction frees a connection. -/
theorem heap_isSome_runs (hruns : Runs cfg t s i o s' is) {d : ConnPtr L}
    (hd : (s.heap d).isSome) : (s'.heap d).isSome := by
  have hupdate : ∀ c (conn : TcpConnection),
      (Function.update s.heap c (some conn) d).isSome := by
    intro c conn
    by_cases hdc : d = c
    · rw [hdc, Function.update_self]
      rfl
    · rwa [Function.update_of_ne hdc]
  cases hruns with
  | calls => exact hupdate _ _
  | newConnection => exact hupdate _ _
  | setDisconnecting => exact hupdate _ _
  | _ => exact hd

/-- The pollers change by what a member does to the entries of its channel, or by
`listen`. -/
theorem Ground.entries_runs (h : Ground cfg s) (hi : i ∈ s.stack t)
    (hruns : Runs cfg t s i o s' is) {l : L} {fd : ℕ} {e : EventMask × ChannelPtr L}
    (he : (s'.pollers l).epoll fd = some e) : Entry cfg s' l fd e.2 := by
  have hlater := h.later_runs hi hruns
  have hold : (s.pollers l).epoll fd = some e → Entry cfg s' l fd e.2 := by
    intro he
    have hentry := h.entries l fd e he
    refine hentry.later h.ledger hlater fun c hc => heap_isSome_runs hruns ?_
    rw [hc] at hentry
    exact hentry.2.2.1
  cases hruns with
  | @calls c conn _ _ _ f hconn hcalls =>
    obtain ⟨-, -, hadds⟩ := hcalls.confined (h.confined.stack t i hi)
    have helse := hcalls.elsewhere (s.pollers c.loop)
    by_cases hl : l = c.loop
    · subst hl
      simp only [State.performed, Function.update_self] at he
      by_cases hfd : fd = conn.channel.fd
      · rcases hadds (s.pollers c.loop) fd e he with hthis | hsame
        · -- the member has added its own channel
          have hheap : (s.setConn c (f (s.endpoint c conn)).conn).heap c =
              some (f (s.endpoint c conn)).conn := Function.update_self _ _ _
          rw [hthis]
          refine ⟨rfl, hfd.trans (h.ledger.fd_eq c conn hconn), Option.isSome_of_eq_some hheap,
            fun conn' hconn' => ?_⟩
          obtain rfl := Option.some.inj (hheap.symm.trans hconn')
          exact hcalls.begun _ fun htask =>
            (h.stack t i hi c hcalls.about).2 htask conn hconn
        · exact hold hsame
      · exact hold ((helse.epoll fd hfd).symm.trans he)
    · simp only [State.performed, Function.update_of_ne hl] at he
      exact hold he
  | listen =>
    by_cases hl : l = cfg.base
    · subst hl
      simp only [State.onAcceptor, Function.update_self] at he
      by_cases hfd : fd = s.acceptChannel.fd
      · rcases EPollPoller.updateChannel_entry he with hthis | hsame
        · rw [hthis]
          exact ⟨rfl, hfd.trans h.acceptor_fd⟩
        · exact hold hsame
      · refine hold (Eq.trans ?_ he)
        exact (Channel.setEvents_other _ _ _ _ hfd).2.symm
    · simp only [State.onAcceptor, Function.update_of_ne hl] at he
      exact hold he
  | removeAcceptor =>
    obtain ⟨lay, hlay⟩ := h.layout
    exact absurd (hlay.not_leaves hi) (by simp [Instr.leaves])
  | _ => exact hold he

theorem Ground.channels_runs (h : Ground cfg s) (hi : i ∈ s.stack t)
    (hruns : Runs cfg t s i o s' is) {l : L} {fd : ℕ} {d : ConnPtr L}
    (hp : (s'.pollers l).channels fd = some (.conn d)) : d.id < s'.nextConnId := by
  have hlater := h.later_runs hi hruns
  have hold : (s.pollers l).channels fd = some (.conn d) → d.id < s'.nextConnId :=
    fun hp => (h.channels l fd d hp).trans_le hlater.nextConnId
  cases hruns with
  | @calls c conn _ _ _ f hconn hcalls =>
    have helse := hcalls.elsewhere (s.pollers c.loop)
    by_cases hl : l = c.loop
    · subst hl
      simp only [State.performed, Function.update_self] at hp
      by_cases hfd : fd = conn.channel.fd
      · subst hfd
        rcases helse.added _ hp with hthis | hsame
        · rw [ChannelPtr.conn.inj hthis]
          exact h.ledger.id_lt c conn hconn
        · exact hold hsame
      · exact hold ((helse.channels fd hfd).symm.trans hp)
    · simp only [State.performed, Function.update_of_ne hl] at hp
      exact hold hp
  | listen =>
    by_cases hl : l = cfg.base
    · subst hl
      simp only [State.onAcceptor, Function.update_self] at hp
      rcases EPollPoller.updateChannel_channels hp with hthis | hsame
      · exact absurd hthis (by simp)
      · exact hold hsame
    · simp only [State.onAcceptor, Function.update_of_ne hl] at hp
      exact hold hp
  | removeAcceptor =>
    obtain ⟨lay, hlay⟩ := h.layout
    exact absurd (hlay.not_leaves hi) (by simp [Instr.leaves])
  | _ => exact hold hp

theorem Ground.grounded_runs (h : Ground cfg s) (hi : i ∈ s.stack t)
    (hruns : Runs cfg t s i o s' is) : ∀ j ∈ is, j.Grounded s' := by
  have hlater := h.later_runs hi hruns
  have hground := h.stack t i hi
  -- what goes on with the connection of `i`
  have hnext : ∀ {c : ConnPtr L} {j : Instr L}, i.about? = some c →
      i.task? ≠ some (.establish, c) → j.about? = some c → j.Grounded s' := by
    intro c j habout htask hj
    obtain ⟨hid, hbegun⟩ := hground c habout
    exact .of_begun hj (hid.trans_le hlater.nextConnId) (hlater.begun c hid (hbegun htask))
  intro j hj
  cases hruns with
  | @calls c conn _ _ events f hconn hcalls =>
    have hbegun : (s.performed t c events (f (s.endpoint c conn))).Begun c := by
      intro conn' hconn'
      have hself : Function.update s.heap c (some (f (s.endpoint c conn)).conn) c =
        some conn' := hconn'
      rw [Function.update_self] at hself
      obtain rfl := Option.some.inj hself
      exact hcalls.begun _ fun htask => (hground c hcalls.about).2 htask conn hconn
    have hid : c.id < s.nextConnId := h.ledger.id_lt c conn hconn
    rcases mem_effects hj with ⟨cb, rfl⟩ | rfl | rfl
    · exact .of_begun rfl hid hbegun
    · exact .of_about rfl
    · exact .of_begun rfl hid hbegun
  | poll =>
    rcases List.mem_append.mp hj with hj | hj
    · obtain ⟨b, -, e, he, rfl⟩ := mem_activeChannels hj
      intro c hc
      have hentry := h.entries _ _ _ he
      cases hp : e.2 with
      | conn d =>
        rw [hp] at hc hentry
        obtain rfl := Option.some.inj hc
        obtain ⟨conn, hconn⟩ := Option.isSome_iff_exists.mp hentry.2.2.1
        exact ⟨h.ledger.id_lt _ conn hconn, fun _ => hentry.2.2.2⟩
      | wakeup m =>
        rw [hp] at hc
        contradiction
      | acceptor =>
        rw [hp] at hc
        contradiction
    · obtain rfl := List.mem_singleton.mp hj
      exact .of_about rfl
  | swap =>
    rcases List.mem_append.mp hj with hj | hj
    · obtain ⟨f, hf, rfl⟩ := List.mem_map.mp hj
      exact (h.queues _ f hf).later hlater
    · obtain rfl := List.mem_singleton.mp hj
      exact .of_about rfl
  | destroyFound =>
    rcases List.mem_pair.mp hj with rfl | rfl
    · exact hnext rfl (by simp [Instr.task?, Functor.task?]) rfl
    · exact hnext rfl (by simp [Instr.task?, Functor.task?]) rfl
  | destroySkips =>
    obtain rfl := List.mem_singleton.mp hj
    exact hnext rfl (by simp [Instr.task?, Functor.task?]) rfl
  | removeConnectionInLoop =>
    obtain rfl := List.mem_singleton.mp hj
    exact hnext rfl (by simp [Instr.task?, Functor.task?]) rfl
  | handleEvent =>
    rcases mem_eventCallbacks hj with rfl | rfl | rfl | rfl | rfl
    all_goals exact hnext rfl (by simp [Instr.task?]) rfl
  | newConnection =>
    refine grounded_runInLoop (fun c hc => ?_) j hj
    obtain rfl := Option.some.inj hc
    exact ⟨Nat.lt_succ_self _, fun htask => absurd rfl htask⟩
  | setDisconnecting =>
    exact grounded_runInLoop (hnext rfl (by simp [Instr.task?]) rfl) j hj
  | removeConnection =>
    exact grounded_runInLoop (hnext rfl (by simp [Instr.task?]) rfl) j hj
  | quit => exact Config.mem_quit hj ▸ .of_about rfl
  | leave => exact absurd hj List.not_mem_nil
  | listen => exact absurd hj List.not_mem_nil
  | noWakeup => exact absurd hj List.not_mem_nil
  | wakeup => exact absurd hj List.not_mem_nil
  | handleWakeup => exact absurd hj List.not_mem_nil
  | ignored => exact absurd hj List.not_mem_nil
  | unguard => exact absurd hj List.not_mem_nil
  | join => exact absurd hj List.not_mem_nil
  | removeAcceptor => exact absurd hj List.not_mem_nil
  | _ => exact List.mem_singleton.mp hj ▸ .of_about rfl

omit [Fintype L] in
theorem remote_runs (hruns : Runs cfg t s i o s' is) : ∀ j ∈ is, j.Remote t := by
  intro j hj
  cases hruns with
  | calls =>
    rcases mem_effects hj with ⟨cb, rfl⟩ | rfl | rfl
    · intro l f c hi hraw
      obtain ⟨rfl, rfl⟩ := Instr.queueInLoop.inj hi
      contradiction
    · exact .of_ne (by simp)
    · exact .of_ne (by simp)
  | poll =>
    rcases List.mem_append.mp hj with hj | hj
    · obtain ⟨b, -, e, -, rfl⟩ := mem_activeChannels hj
      exact .of_ne (by simp)
    · exact List.mem_singleton.mp hj ▸ .of_ne (by simp)
  | swap =>
    rcases List.mem_append.mp hj with hj | hj
    · obtain ⟨f, -, rfl⟩ := List.mem_map.mp hj
      exact .of_ne (by simp)
    · exact List.mem_singleton.mp hj ▸ .of_ne (by simp)
  | destroyFound =>
    rcases List.mem_pair.mp hj with rfl | rfl
    · exact .of_ne (by simp)
    · exact .of_ne (by simp)
  | removeConnectionInLoop =>
    obtain rfl := List.mem_singleton.mp hj
    intro l f c hi hraw
    obtain ⟨rfl, rfl⟩ := Instr.queueInLoop.inj hi
    contradiction
  | handleEvent =>
    rcases mem_eventCallbacks hj with rfl | rfl | rfl | rfl | rfl
    all_goals exact .of_ne (by simp)
  | newConnection => exact remote_runInLoop (fun c hc => by contradiction) j hj
  | setDisconnecting =>
    refine remote_runInLoop (fun c hc => ?_) j hj
    rw [Option.some.inj hc]
  | removeConnection => exact remote_runInLoop (fun c hc => by contradiction) j hj
  | quit => exact Config.mem_quit hj ▸ .of_ne (by simp)
  | leave => exact absurd hj List.not_mem_nil
  | listen => exact absurd hj List.not_mem_nil
  | noWakeup => exact absurd hj List.not_mem_nil
  | wakeup => exact absurd hj List.not_mem_nil
  | handleWakeup => exact absurd hj List.not_mem_nil
  | ignored => exact absurd hj List.not_mem_nil
  | unguard => exact absurd hj List.not_mem_nil
  | join => exact absurd hj List.not_mem_nil
  | removeAcceptor => exact absurd hj List.not_mem_nil
  | _ => exact List.mem_singleton.mp hj ▸ .of_ne (by simp)

theorem Ground.queues_runs (h : Ground cfg s) (hi : i ∈ s.stack t)
    (hruns : Runs cfg t s i o s' is) {l : L} {g : Functor L}
    (hg : g ∈ (s'.loops l).pendingFunctors) : (Instr.functor g).Grounded s' := by
  have hlater := h.later_runs hi hruns
  rcases mem_pending_runs hruns hg with hold | rfl
  · exact (h.queues l g hold).later hlater
  · have hpushed : (Instr.queueInLoop l g).Grounded s' := (h.stack t _ hi).later hlater
    exact hpushed

/-! ### Threads without a loop -/

omit [Fintype L] in
/-- Such a thread has no task, whatever it calls. -/
theorem users_runs {u : U} (hi : Placed cfg (.user u) i)
    (hruns : Runs cfg (.user u) s i o s' is) : ∀ j ∈ is, j.task? = none := by
  have hnot : ∀ l, i.home? cfg ≠ some l := by
    intro l hl
    have hthread := hi.thread hl
    contradiction
  intro j hj
  cases hruns with
  | calls _ hcalls =>
    have hthread := (hcalls.confined hi).1
    contradiction
  | queueInLoop => exact List.mem_singleton.mp hj ▸ rfl
  | testWakeup => exact List.mem_singleton.mp hj ▸ rfl
  | setDisconnecting =>
    rcases Config.mem_runInLoop hj with rfl | rfl
    · rfl
    · rfl
  | quit => exact Config.mem_quit hj ▸ rfl
  | noWakeup => exact absurd hj List.not_mem_nil
  | wakeup => exact absurd hj List.not_mem_nil
  | join => exact absurd hj List.not_mem_nil
  | _ => exact absurd rfl (hnot _)

variable [DecidableEq U]

theorem tasks_user_runs {u : U} {k : Task} {js : List (Instr L)} (hi : Placed cfg (.user u) i)
    (htask : i.task? = none) (hruns : Runs cfg (.user u) s i o s' is) :
    (s'.setStack (.user u) js).tasks k c = s.tasks k c := by
  rw [State.tasks, tokens_setStack_user]
  rcases Bool.eq_false_or_eq_true i.transfers with htr | htr
  · cases hruns with
    | calls _ hcalls => exact absurd htr (by simp [hcalls.not_transfers])
    | swap =>
      have hthread := hi.thread rfl
      contradiction
    | @queueInLoop l f =>
      have hloop := tokens_setLoop (w := duty k c) (s := s) l ((s.loops l).push f)
      have hzero : duty k c (.functor f) = 0 := by
        have hnone : (Instr.functor f).task? = none := htask
        rw [duty, hnone, if_neg (by simp)]
      have hpush : weight (duty k c) (((s.loops l).push f).pendingFunctors.map .functor) =
          weight (duty k c) ((s.loops l).pendingFunctors.map .functor) := by
        rw [EventLoop.push, List.map_append, weight_append, List.map_singleton, weight_cons,
          weight_nil, hzero]
        rfl
      rw [State.tasks]
      omega
    | _ => exact absurd htr (by simp [Instr.transfers])
  · exact places_runs hruns htr

/-! ### Establishing -/

omit [DecidableEq U] in
/-- Only `connectionEstablished` makes a connection established. -/
theorem Ground.begun_back (h : Ground cfg s) (hi : i ∈ s.stack t)
    (hruns : Runs cfg t s i o s' is) (htask : i.task? ≠ some (.establish, c))
    (hbegun : s'.Begun c) : s.Begun c := by
  have hground := h.stack t i hi
  cases hruns with
  | @calls d conn _ _ _ f hconn hcalls =>
    by_cases hdc : c = d
    · subst hdc
      exact (hground c hcalls.about).2 htask
    · intro conn' hconn'
      exact hbegun conn' ((Function.update_of_ne hdc _ _).trans hconn')
  | @newConnection _ connfd =>
    intro conn' hconn'
    have hne : c ≠ ⟨s.nextConnId, (cfg.getNextLoop s.next).1, connfd⟩ := by
      rintro rfl
      exact absurd (h.ledger.id_lt _ conn' hconn') (lt_irrefl _)
    exact hbegun conn' ((Function.update_of_ne hne _ _).trans hconn')
  | @setDisconnecting d =>
    by_cases hdc : c = d
    · subst hdc
      exact (hground c rfl).2 htask
    · intro conn' hconn'
      exact hbegun conn' ((Function.update_of_ne hdc _ _).trans hconn')
  | _ => exact hbegun

omit [Fintype L] [DecidableEq U] in
/-- Connections are established by `newConnection`. -/
theorem establish_follows (hruns : Runs cfg t s i o s' is) (htr : i.transfers = false)
    {j : Instr L} (hj : j ∈ is) (htask : j.task? = some (.establish, c)) :
    ∃ connfd, s.isOpen connfd = false ∧ i.task? = none ∧ s' = (s.newConnection cfg t connfd).1 ∧
      is = (s.newConnection cfg t connfd).2 := by
  cases hruns with
  | newConnection hfree => exact ⟨_, hfree, rfl, rfl, rfl⟩
  | calls =>
    rcases mem_effects hj with ⟨cb, rfl⟩ | rfl | rfl
    all_goals exact absurd htask (by simp [Instr.task?, Functor.task?])
  | poll =>
    rcases List.mem_append.mp hj with hj | hj
    · obtain ⟨b, -, e, -, rfl⟩ := mem_activeChannels hj
      exact absurd htask (by simp [Instr.task?])
    · obtain rfl := List.mem_singleton.mp hj
      exact absurd htask (by simp [Instr.task?])
  | swap => exact absurd htr (by simp [Instr.transfers])
  | destroyFound =>
    rcases List.mem_pair.mp hj with rfl | rfl
    all_goals exact absurd htask (by simp [Instr.task?])
  | handleEvent =>
    rcases mem_eventCallbacks hj with rfl | rfl | rfl | rfl | rfl
    all_goals exact absurd htask (by simp [Instr.task?])
  | setDisconnecting =>
    rcases Config.mem_runInLoop hj with rfl | rfl
    all_goals exact absurd htask (by simp [Instr.task?, Functor.task?])
  | removeConnection =>
    rcases Config.mem_runInLoop hj with rfl | rfl
    all_goals exact absurd htask (by simp [Instr.task?, Functor.task?])
  | quit =>
    obtain rfl := Config.mem_quit hj
    exact absurd htask (by simp [Instr.task?])
  | leave => exact absurd hj List.not_mem_nil
  | listen => exact absurd hj List.not_mem_nil
  | noWakeup => exact absurd hj List.not_mem_nil
  | wakeup => exact absurd hj List.not_mem_nil
  | handleWakeup => exact absurd hj List.not_mem_nil
  | ignored => exact absurd hj List.not_mem_nil
  | unguard => exact absurd hj List.not_mem_nil
  | join => exact absurd hj List.not_mem_nil
  | removeAcceptor => exact absurd hj List.not_mem_nil
  | _ =>
    obtain rfl := List.mem_singleton.mp hj
    exact absurd htask (by simp [Instr.task?, Functor.task?])

omit [DecidableEq U] in
/-- Nothing waits for a connection that has not been made. -/
theorem Ground.tasks_unborn (h : Ground cfg s) (k : Task) (hid : s.nextConnId ≤ c.id) :
    s.tasks k c = 0 := by
  refine tally_eq_zero fun p i hi => ?_
  rw [duty, if_neg]
  intro htask
  have habout : i.about? = some c := by
    have hfunctor : ∀ f : Functor L, f.task? = some (k, c) → f.about? = some c := by
      intro f hf
      cases f <;> simp_all [Functor.task?, Functor.about?]
    cases i with
    | functor f => exact hfunctor f htask
    | queueInLoop l f => exact hfunctor f htask
    | removeConnection d => simp_all [Instr.task?, Instr.about?]
    | removeChannel d => simp_all [Instr.task?, Instr.about?]
    | _ => exact absurd htask (by simp [Instr.task?])
  have hlt : c.id < s.nextConnId := by
    rcases p with l | l
    · exact (h.stack _ i hi c habout).1
    · obtain ⟨f, hf, rfl⟩ := List.mem_map.mp hi
      exact (h.queues l f hf c habout).1
  omega

/-- The functor that establishes a connection is made once and run once. -/
theorem Ground.establish_loop (h : Ground cfg s) {l : L} {rest : List (Instr L)}
    (hstack : s.stack (.loop l) = i :: rest) (hruns : Runs cfg (.loop l) s i o s' is)
    (c : ConnPtr L) :
    (s'.setStack (.loop l) (is ++ rest)).tasks .establish c ≤ 1 ∧
      (s'.Begun c → (s'.setStack (.loop l) (is ++ rest)).tasks .establish c = 0) := by
  have hi : i ∈ s.stack (.loop l) := hstack ▸ List.mem_cons_self
  obtain ⟨hle, hzero⟩ := h.establish c
  rcases Bool.eq_false_or_eq_true i.transfers with htr | htr
  · have hheap : s'.heap = s.heap := by
      cases hruns with
      | calls _ hcalls => exact absurd htr (by simp [hcalls.not_transfers])
      | swap => rfl
      | queueInLoop => rfl
      | _ => exact absurd htr (by simp [Instr.transfers])
    rw [tasks_same hstack hruns (.inl htr), State.Begun, hheap]
    exact ⟨hle, hzero⟩
  · have hcount := tasks_runs (k := .establish) (c := c) hstack hruns htr
    by_cases hfollows : ∃ j ∈ is, j.task? = some (.establish, c)
    · obtain ⟨j, hj, htask⟩ := hfollows
      obtain ⟨connfd, -, hnone, rfl, rfl⟩ := establish_follows hruns htr hj htask
      have hnew : c = ⟨s.nextConnId, (cfg.getNextLoop s.next).1, connfd⟩ := by
        rcases Config.mem_runInLoop hj with rfl | rfl
        all_goals exact (Prod.mk.inj (Option.some.inj htask)).2.symm
      subst hnew
      have hone : (State.newConnection cfg (.loop l) connfd s).2.filterMap Instr.task? =
          [(.establish, ⟨s.nextConnId, (cfg.getNextLoop s.next).1, connfd⟩)] :=
        task_runInLoop _ _ _
      rw [hnone, hone, h.tasks_unborn .establish (le_refl s.nextConnId)] at hcount
      simp only [Option.toList_none, List.count_nil, List.count_singleton_self] at hcount
      refine ⟨by omega, fun hbegun => ?_⟩
      exact absurd rfl (hbegun _ (Function.update_self _ _ _))
    · have hno : (is.filterMap Instr.task?).count (.establish, c) = 0 := by
        refine List.count_eq_zero.mpr fun hmem => hfollows ?_
        obtain ⟨j, hj, htask⟩ := List.mem_filterMap.mp hmem
        exact ⟨j, hj, htask⟩
      by_cases htask : i.task? = some (.establish, c)
      · -- this is the functor, and it was the only one
        rw [htask, hno] at hcount
        simp only [Option.toList_some, List.count_singleton_self] at hcount
        omega
      · have hyes : i.task?.toList.count (.establish, c) = 0 := by
          cases hi' : i.task? with
          | none => rfl
          | some p =>
            rw [hi'] at htask
            refine List.count_eq_zero.mpr fun hmem => htask ?_
            rw [List.mem_singleton.mp hmem]
        rw [hyes, hno] at hcount
        have hsame : (s'.setStack (.loop l) (is ++ rest)).tasks .establish c =
          s.tasks .establish c := hcount
        rw [hsame]
        exact ⟨hle, fun hbegun => hzero (h.begun_back hi hruns htask hbegun)⟩

/-! ### Steps -/

omit [DecidableEq U] in
theorem ground_start (h : Start cfg s) : Ground cfg s := by
  have hinv := invariant_start h
  have hbegun : ∀ c, s.heap c = none := h.heap
  refine ⟨hinv.confined, hinv.ledger, ⟨⟨fun _ => [], fun _ => .outside⟩, fun t => ?_, ?_, ?_, ?_⟩,
    hinv.wiring.acceptor_fd, fun l fd e he => ?_, fun l fd c hp => ?_, fun t i hi => ?_,
    fun t i hi => ?_, fun l f hf => ?_, fun u i hi => ?_, fun c => ?_⟩
  · rw [h.stack t]
    cases t <;> rfl
  · exact fun t i hi => absurd hi List.not_mem_nil
  · exact fun l _ => rfl
  · exact fun t i hi => absurd hi List.not_mem_nil
  · have hknown := hinv.wiring.epoll l fd e he
    cases hp : e.2 with
    | wakeup m =>
      rw [hp] at hknown
      exact hknown
    | acceptor =>
      rw [hp] at hknown
      exact hknown
    | conn c =>
      rw [hp] at hknown
      obtain ⟨-, -, conn, hconn, -⟩ := hknown
      rw [hbegun c] at hconn
      contradiction
  · obtain ⟨-, -, conn, hconn, -⟩ := hinv.wiring.channels l fd _ hp
    rw [hbegun c] at hconn
    contradiction
  · rw [h.stack t] at hi
    exact absurd hi List.not_mem_nil
  · rw [h.stack t] at hi
    exact absurd hi List.not_mem_nil
  · rw [h.loops l] at hf
    exact absurd hf List.not_mem_nil
  · rw [h.stack] at hi
    exact absurd hi List.not_mem_nil
  · have hzero := ((hinv.life c).absent (hbegun c)).1
    exact ⟨by omega, fun _ => hzero⟩

/-- An instruction of any thread. -/
theorem Ground.exec (h : Ground cfg s) {rest : List (Instr L)} (hstack : s.stack t = i :: rest)
    (hserving : Serving s (.exec t o)) (hruns : Runs cfg t s i o s' is) :
    Ground cfg (s'.setStack t (is ++ rest)) := by
  have hi : i ∈ s.stack t := hstack ▸ List.mem_cons_self
  have hruns_later := h.later_runs hi hruns
  have hlater : Later s (s'.setStack t (is ++ rest)) := ⟨hruns_later.nextConnId, hruns_later.begun⟩
  have hother : ∀ t', t' ≠ t → (s'.setStack t (is ++ rest)).stack t' = s.stack t' := by
    intro t' ht
    rw [State.setStack_of_ne ht, stack_runs hruns]
  constructor
  case confined => exact confined_move h.confined (.exec hstack hruns)
  case ledger =>
    exact (h.ledger_runs hi hserving hruns).undisturbed
      ⟨rfl, rfl, rfl, rfl, rfl, rfl, fun _ hx => hx⟩
  case layout =>
    obtain ⟨lay, hlay⟩ := h.layout
    obtain ⟨lay', -, hlay'⟩ := hlay.exec hstack hruns
    exact ⟨lay', hlay'⟩
  case acceptor_fd =>
    show s'.acceptChannel.fd = cfg.acceptFd
    cases hruns with
    | listen => exact (congrArg Channel.fd (Channel.setEvents_fst _ _ _ _)).trans h.acceptor_fd
    | removeAcceptor =>
      obtain ⟨lay, hlay⟩ := h.layout
      exact absurd (hlay.not_leaves hi) (by simp [Instr.leaves])
    | _ => exact h.acceptor_fd
  case entries => exact fun l fd e he => h.entries_runs hi hruns he
  case channels => exact fun l fd c hp => h.channels_runs hi hruns hp
  case stack =>
    intro t' j hj
    by_cases ht : t' = t
    · subst ht
      rw [State.setStack_self] at hj
      rcases List.mem_append.mp hj with hj | hj
      · exact h.grounded_runs hi hruns j hj
      · exact (h.stack t' j (hstack ▸ List.mem_cons_of_mem i hj)).later hlater
    · rw [hother t' ht] at hj
      exact (h.stack t' j hj).later hlater
  case remote =>
    intro t' j hj
    by_cases ht : t' = t
    · subst ht
      rw [State.setStack_self] at hj
      rcases List.mem_append.mp hj with hj | hj
      · exact remote_runs hruns j hj
      · exact h.remote t' j (hstack ▸ List.mem_cons_of_mem i hj)
    · rw [hother t' ht] at hj
      exact h.remote t' j hj
  case queues => exact fun l f hf => h.queues_runs hi hruns hf
  case users =>
    intro u j hj
    by_cases ht : .user u = t
    · subst ht
      rw [State.setStack_self] at hj
      rcases List.mem_append.mp hj with hj | hj
      · exact users_runs (h.confined.stack _ i hi) hruns j hj
      · exact h.users u j (hstack ▸ List.mem_cons_of_mem i hj)
    · rw [hother _ ht] at hj
      exact h.users u j hj
  case establish =>
    intro c
    cases t with
    | loop l => exact h.establish_loop hstack hruns c
    | user u =>
      have htask := h.users u i hi
      rw [tasks_user_runs (h.confined.stack _ i hi) htask hruns]
      refine ⟨(h.establish c).1, fun hbegun => (h.establish c).2 ?_⟩
      exact h.begun_back hi hruns (by simp [htask]) hbegun

omit [DecidableEq U] in
/-- A step that only moves work. -/
theorem Ground.undisturbed (h : Ground cfg s) (hs : Undisturbed s s')
    (hconfined : Confined cfg s') (hlay : ∃ lay : Layout L U, lay.Fits s')
    (hstack : ∀ t, ∀ i ∈ s'.stack t, i.Grounded s) (hremote : ∀ t, ∀ i ∈ s'.stack t, i.Remote t)
    (hqueues : ∀ l, (s'.loops l).pendingFunctors = (s.loops l).pendingFunctors)
    (husers : ∀ u, ∀ i ∈ s'.stack (.user u), i.task? = none)
    (htasks : ∀ c, s'.tasks .establish c = s.tasks .establish c) : Ground cfg s' := by
  have hlater : Later s s' := .of_eq hs.nextConnId hs.heap
  constructor
  case confined => exact hconfined
  case ledger => exact h.ledger.undisturbed hs
  case layout => exact hlay
  case acceptor_fd =>
    rw [hs.acceptChannel]
    exact h.acceptor_fd
  case entries =>
    intro l fd e he
    rw [hs.pollers] at he
    refine (h.entries l fd e he).later h.ledger hlater fun c hc => ?_
    have hentry := h.entries l fd e he
    rw [hc] at hentry
    rw [hs.heap]
    exact hentry.2.2.1
  case channels =>
    rw [hs.pollers, hs.nextConnId]
    exact h.channels
  case stack => exact fun t i hi => (hstack t i hi).later hlater
  case remote => exact hremote
  case queues =>
    intro l f hf
    rw [hqueues l] at hf
    exact (h.queues l f hf).later hlater
  case users => exact husers
  case establish =>
    intro c
    rw [htasks c, State.Begun, hs.heap]
    exact h.establish c

/-- User code calls something that is no task. -/
theorem Ground.push (h : Ground cfg s) (hu : s.InUserCode t)
    (hadmits : ∀ r : Round L, r.Admits is) (hplaced : ∀ j ∈ is, Placed cfg t j)
    (hground : ∀ j ∈ is, j.Grounded s) (hremote : ∀ j ∈ is, j.Remote t)
    (htask : ∀ j ∈ is, j.task? = none) :
    Ground cfg (s.push t is) := by
  refine h.undisturbed ⟨rfl, rfl, rfl, rfl, rfl, rfl, fun _ hx => hx⟩ (h.confined.push hplaced)
    ?_ (fun t' j hj => ?_) (fun t' j hj => ?_) (fun _ => rfl) (fun u j hj => ?_) fun c => ?_
  · obtain ⟨lay, hlay⟩ := h.layout
    exact ⟨_, hlay.push hu (hadmits _)⟩
  · by_cases ht : t' = t
    · subst ht
      rw [State.push, State.setStack_self] at hj
      rcases List.mem_append.mp hj with hj | hj
      · exact hground j hj
      · exact h.stack t' j hj
    · rw [State.push, State.setStack_of_ne ht] at hj
      exact h.stack t' j hj
  · by_cases ht : t' = t
    · subst ht
      rw [State.push, State.setStack_self] at hj
      rcases List.mem_append.mp hj with hj | hj
      · exact hremote j hj
      · exact h.remote t' j hj
    · rw [State.push, State.setStack_of_ne ht] at hj
      exact h.remote t' j hj
  · by_cases ht : .user u = t
    · subst ht
      rw [State.push, State.setStack_self] at hj
      rcases List.mem_append.mp hj with hj | hj
      · exact htask j hj
      · exact h.users u j hj
    · rw [State.push, State.setStack_of_ne ht] at hj
      exact h.users u j hj
  · cases t with
    | user u => exact tokens_setStack_user u _
    | loop l =>
      have hzero : weight (duty .establish c) is = 0 := by
        refine weight_eq_zero fun j hj => ?_
        rw [duty, htask j hj, if_neg (by simp)]
      rw [State.tasks, tokens_push, hzero]
      rfl

omit [DecidableEq U] in
/-- A flag of a loop changes. -/
theorem Ground.setLoop (h : Ground cfg s) {l : L} {loop : EventLoop (Functor L)}
    (hq : loop.pendingFunctors = (s.loops l).pendingFunctors) : Ground cfg (s.setLoop l loop) := by
  refine h.undisturbed ⟨rfl, rfl, rfl, rfl, rfl, rfl, fun _ hx => hx⟩ (h.confined.setLoop hq) ?_
    h.stack h.remote (pending_setLoop_same hq) h.users fun c => tokens_setLoop_same hq
  obtain ⟨lay, hlay⟩ := h.layout
  exact ⟨lay, hlay.stack, hlay.inside, hlay.idle, hlay.immediate⟩

theorem Ground.callbackReturn (h : Ground cfg s) {rest : List (Instr L)}
    (hstack : s.stack t = .user :: rest) : Ground cfg (s.setStack t rest) := by
  have hsub : ∀ t', ∀ j ∈ (s.setStack t rest).stack t', j ∈ s.stack t' := by
    intro t' j hj
    by_cases ht : t' = t
    · subst ht
      rw [State.setStack_self] at hj
      exact hstack ▸ List.mem_cons_of_mem _ hj
    · rwa [State.setStack_of_ne ht] at hj
  refine h.undisturbed ⟨rfl, rfl, rfl, rfl, rfl, rfl, fun _ hx => hx⟩
    (confined_move h.confined (.callbackReturn hstack)) ?_
    (fun t' j hj => h.stack t' j (hsub t' j hj)) (fun t' j hj => h.remote t' j (hsub t' j hj))
    (fun _ => rfl) (fun u j hj => h.users u j (hsub _ j hj)) fun c => ?_
  · obtain ⟨lay, hlay⟩ := h.layout
    obtain ⟨b, -, hb⟩ := hlay.callbackReturn hstack
    exact ⟨_, hb⟩
  · cases t with
    | user u => exact tokens_setStack_user u _
    | loop l =>
      have hcount := tokens_setStack (w := duty .establish c) (s := s) l rest
      rw [hstack, weight_cons] at hcount
      have huser : duty .establish c .user = 0 := rfl
      rw [State.tasks, State.tasks]
      omega

theorem Ground.loop (h : Ground cfg s) {l : L} (hstack : s.stack (.loop l) = []) :
    Ground cfg ((s.setLoop l { s.loops l with quit := false }).push (.loop l) [.testQuit l]) := by
  have hset : Ground cfg (s.setLoop l { s.loops l with quit := false }) := h.setLoop rfl
  have hmem : ∀ t', ∀ j ∈ ((s.setLoop l { s.loops l with quit := false }).push (.loop l)
      [.testQuit l]).stack t', j = .testQuit l ∨ j ∈ s.stack t' := by
    intro t' j hj
    by_cases ht : t' = .loop l
    · subst ht
      rw [State.push, State.setStack_self] at hj
      rcases List.mem_append.mp hj with hj | hj
      · exact .inl (List.mem_singleton.mp hj)
      · exact .inr hj
    · rw [State.push, State.setStack_of_ne ht] at hj
      exact .inr hj
  refine hset.undisturbed ⟨rfl, rfl, rfl, rfl, rfl, rfl, fun _ hx => hx⟩
    (confined_move h.confined (.loop hstack)) ?_ (fun t' j hj => ?_) (fun t' j hj => ?_)
    (fun _ => rfl) (fun u j hj => ?_) fun c => ?_
  · obtain ⟨lay, hlay⟩ := h.layout
    refine ⟨_, (hlay.loop hstack ?_).2.2⟩
    rfl
  · rcases hmem t' j hj with rfl | hj
    · exact .of_about rfl
    · exact hset.stack t' j hj
  · rcases hmem t' j hj with rfl | hj
    · exact .of_ne (by simp)
    · exact h.remote t' j hj
  · rcases hmem _ j hj with rfl | hj
    · rfl
    · exact h.users u j hj
  · have hpush := tokens_push (w := duty .establish c)
      (s := s.setLoop l { s.loops l with quit := false }) l [.testQuit l]
    exact hpush

omit [DecidableEq U] in
theorem Ground.free (h : Ground cfg s) (hconn : s.heap c = some conn) (hgone : ¬ s.Referenced c)
    (hconfined : Confined cfg (s.free c)) : Ground cfg (s.free c) := by
  have hbegun : ∀ d, s.Begun d → (s.free c).Begun d :=
    fun d hd conn' hconn' => hd conn' (free_heap hconn').2
  have hlater : Later s (s.free c) := ⟨le_rfl, fun d _ => hbegun d⟩
  constructor
  case confined => exact hconfined
  case ledger => exact h.ledger.free hconn fun hheld => hgone (.inl hheld)
  case layout =>
    obtain ⟨lay, hlay⟩ := h.layout
    exact ⟨lay, hlay.stack, hlay.inside, hlay.idle, hlay.immediate⟩
  case acceptor_fd => exact h.acceptor_fd
  case entries =>
    intro l fd e he
    have he : Function.update (s.pollers l).epoll c.fd none fd = some e := he
    by_cases hfd : fd = c.fd
    · rw [hfd, Function.update_self] at he
      contradiction
    · rw [Function.update_of_ne hfd] at he
      have hentry := h.entries l fd e he
      refine hentry.later h.ledger hlater fun d hd => ?_
      rw [hd] at hentry
      have hdc : d ≠ c := by
        rintro rfl
        exact hfd hentry.2.1
      have hsome : ((s.free c).heap d) = s.heap d := Function.update_of_ne hdc _ _
      rw [hsome]
      exact hentry.2.2.1
  case channels => exact h.channels
  case stack => exact fun t i hi => (h.stack t i hi).later hlater
  case remote => exact h.remote
  case queues => exact fun l f hf => (h.queues l f hf).later hlater
  case users => exact h.users
  case establish =>
    intro d
    have hsame : (s.free c).tasks .establish d = s.tasks .establish d := tokens_congr rfl
    rw [hsame]
    refine ⟨(h.establish d).1, fun hd => ?_⟩
    by_cases hdc : d = c
    · rw [hdc]
      by_contra hne
      exact hgone (referenced_of_tasks (Nat.pos_of_ne_zero hne))
    · refine (h.establish d).2 fun conn' hconn' => hd conn' ?_
      exact (Function.update_of_ne hdc _ _).trans hconn'

theorem ground_step {a : Label L U} (h : Ground cfg s) (hserving : Serving s a)
    (hstep : step cfg s a = some s') : Ground cfg s' := by
  have hbegun : ∀ {c : ConnPtr L} {conn : TcpConnection}, s.heap c = some conn →
      conn.state = .kConnected → s.Begun c := by
    intro c conn hconn hstate conn' hconn'
    obtain rfl := Option.some.inj (hconn.symm.trans hconn')
    simp [hstate]
  cases move_of_step hstep with
  | exec hstack hruns => exact h.exec hstack hserving hruns
  | callbackReturn hstack => exact h.callbackReturn hstack
  | @send t c conn message hu hconn hstate =>
    have hfunctor : (Instr.functor (.sendInLoop c message)).Grounded s :=
      .of_begun rfl (h.ledger.id_lt _ _ hconn) (hbegun hconn hstate)
    refine h.push hu (fun r => Round.admits_runInLoop rfl) (placed_runInLoop rfl)
      (grounded_runInLoop hfunctor) (remote_runInLoop fun d hd => ?_) fun j hj => ?_
    · rw [Option.some.inj hd]
    rcases Config.mem_runInLoop hj with rfl | rfl
    · rfl
    · rfl
  | shutdown hu hconn hstate =>
    refine h.push hu (fun r => Round.admits_singleton rfl) (fun j hj => ?_) (fun j hj => ?_)
      (fun j hj => ?_) fun j hj => ?_
    · exact List.mem_singleton.mp hj ▸ .anywhere rfl (by simp)
    · exact List.mem_singleton.mp hj ▸
        .of_begun rfl (h.ledger.id_lt _ _ hconn) (hbegun hconn hstate)
    · exact List.mem_singleton.mp hj ▸ .of_ne (by simp)
    · exact List.mem_singleton.mp hj ▸ rfl
  | refused => exact h
  | setThreadNum hu =>
    refine h.push hu (fun r => Round.admits_runInLoop rfl) (placed_runInLoop rfl)
      (grounded_runInLoop (.of_about rfl)) (remote_runInLoop fun d hd => by contradiction)
      fun j hj => ?_
    rcases Config.mem_runInLoop hj with rfl | rfl
    · rfl
    · rfl
  | loop hstack => exact h.loop hstack
  | @quit t l hu =>
    have hset : Ground cfg (s.setLoop l { s.loops l with quit := true }) := h.setLoop rfl
    refine hset.push hu (fun r => ?_) (fun j hj => ?_) (fun j hj => ?_) (fun j hj => ?_)
      fun j hj => ?_
    · split_ifs
      · exact Round.admits_nil
      · exact Round.admits_singleton rfl
    · exact Config.mem_quit hj ▸ .anywhere rfl (by simp)
    · exact Config.mem_quit hj ▸ .of_about rfl
    · exact Config.mem_quit hj ▸ .of_ne (by simp)
    · exact Config.mem_quit hj ▸ rfl
  | destroyServer => exact absurd hserving id
  | destroyConnection hconn hgone =>
    exact h.free hconn hgone (confined_move h.confined (.destroyConnection hconn hgone))

theorem ground_reachable (hs : (system cfg).ReachableUnder Serving s) : Ground cfg s :=
  Machine.ReachableUnder.invariant (I := Ground cfg) (fun _ h => ground_start h)
    (fun _ _ _ h hserving hstep => ground_step h hserving (step_of_system hstep)) hs

end Step

end TcpServer

end Moduo
