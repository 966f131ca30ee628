/-
Descriptors and channels of a live server.

One instruction keeps the ledger of the connections and the wiring of the
pollers: a member only touches the entries of its own descriptor, and the
descriptor of a new connection is not in use.
-/
import Moduo.LiveServer.Invariant

namespace Moduo

namespace TcpServer

variable {L U : Type*} {cfg : Config L U} {s s' : State L U} {l : L}

/-! ### The ledger -/

/-- What `newConnection` prints for a number below `2 ^ 31` fits into its buffer
of 64 characters. -/
theorem Config.suffix_length (cfg : Config L U) {id : ℕ} (hid : id < 2 ^ 31) :
    ("-" ++ cfg.ipPort ++ "#" ++ toString id).toList.length < 64 := by
  have hdigits : (Nat.toDigits 10 id).length ≤ 10 := by
    rw [Nat.length_toDigits_le_iff (by omega) (by omega)]
    omega
  have hport : cfg.ipPort.toList.length ≤ 21 := by
    rw [String.length_toList]
    exact cfg.ipPort_length
  have hdash : "-".toList.length = 1 := rfl
  have hhash : "#".toList.length = 1 := rfl
  simp only [String.toList_append, List.length_append, Nat.toString_eq_repr, Nat.toList_repr]
  omega

/-- `snprintf` does not cut a name short, so numbers below `2 ^ 31` have names of
their own. -/
theorem Config.connName_injective (cfg : Config L U) {id id' : ℕ} (hid : id < 2 ^ 31)
    (hid' : id' < 2 ^ 31) (h : cfg.connName id = cfg.connName id') : id = id' := by
  have hkept : ∀ n, n < 2 ^ 31 → ("-" ++ cfg.ipPort ++ "#" ++ toString n).toList.take 63 =
      ("-" ++ cfg.ipPort ++ "#").toList ++ Nat.toDigits 10 n := by
    intro n hn
    have hlist : ("-" ++ cfg.ipPort ++ "#" ++ toString n).toList =
        ("-" ++ cfg.ipPort ++ "#").toList ++ Nat.toDigits 10 n := by
      rw [String.toList_append, Nat.toString_eq_repr, Nat.toList_repr]
    rw [← hlist]
    exact List.take_of_length_le (Nat.le_of_lt_succ (cfg.suffix_length hn))
  rw [Config.connName, Config.connName, hkept id hid, hkept id' hid'] at h
  have hlist := congrArg String.toList h
  simp only [String.toList_append, String.toList_ofList, List.append_assoc,
    List.append_cancel_left_eq] at hlist
  rw [← Nat.ofDigitChars_ten_toDigits (n := id), hlist, Nat.ofDigitChars_ten_toDigits]

/-- Connections change their state, not their number or descriptor, and entries
of `connections_` may go. -/
theorem Ledger.of_heap (h : Ledger cfg s) (hid : s'.nextConnId = s.nextConnId)
    (hopen : s'.isOpen = s.isOpen) (hitems : ∀ item ∈ s'.connections, item ∈ s.connections)
    (hheap : ∀ c conn', s'.heap c = some conn' →
      ∃ conn, s.heap c = some conn ∧ conn'.channel.fd = conn.channel.fd)
    (hkeep : ∀ c, (s.heap c).isSome → (s'.heap c).isSome) : Ledger cfg s' := by
  have hback : ∀ c, (s'.heap c).isSome → (s.heap c).isSome := by
    intro c hc
    obtain ⟨conn', hconn'⟩ := Option.isSome_iff_exists.mp hc
    obtain ⟨conn, hconn, -⟩ := hheap c conn' hconn'
    exact Option.isSome_iff_exists.mpr ⟨conn, hconn⟩
  constructor
  case nextConnId_lt =>
    rw [hid]
    exact h.nextConnId_lt
  case id_lt =>
    intro c conn' hconn'
    obtain ⟨conn, hconn, -⟩ := hheap c conn' hconn'
    rw [hid]
    exact h.id_lt c conn hconn
  case id_injective => exact fun c d hc hd => h.id_injective c d (hback c hc) (hback d hd)
  case fd_injective => exact fun c d hc hd => h.fd_injective c d (hback c hc) (hback d hd)
  case fd_eq =>
    intro c conn' hconn'
    obtain ⟨conn, hconn, hfd⟩ := hheap c conn' hconn'
    exact hfd.trans (h.fd_eq c conn hconn)
  case fd_isOpen =>
    intro c hc
    rw [hopen]
    exact h.fd_isOpen c (hback c hc)
  case fd_ne_wakeupFd => exact fun c hc => h.fd_ne_wakeupFd c (hback c hc)
  case fd_ne_acceptFd => exact fun c hc => h.fd_ne_acceptFd c (hback c hc)
  case wakeupFd_isOpen =>
    rw [hopen]
    exact h.wakeupFd_isOpen
  case acceptFd_isOpen =>
    rw [hopen]
    exact h.acceptFd_isOpen
  case names =>
    intro item hitem
    obtain ⟨hname, hsome⟩ := h.names item (hitems item hitem)
    exact ⟨hname, hkeep _ hsome⟩

/-- A live connection is not one whose descriptor is closed. -/
theorem Ledger.ne_of_closed (h : Ledger cfg s) {fd : ℕ} (hfree : s.isOpen fd = false)
    {c : ConnPtr L} (hc : (s.heap c).isSome) : c.fd ≠ fd := by
  intro heq
  have hopen := h.fd_isOpen c hc
  rw [heq, hfree] at hopen
  exact absurd hopen (by simp)

/-- Whatever a loop knows of has an open descriptor. -/
theorem Ledger.not_known (h : Ledger cfg s) {fd : ℕ} (hfree : s.isOpen fd = false)
    (p : ChannelPtr L) : ¬ p.Known cfg s l fd := by
  intro hp
  cases p with
  | wakeup m =>
    have hopen := h.wakeupFd_isOpen l
    rw [← hp.2, hfree] at hopen
    exact absurd hopen (by simp)
  | acceptor =>
    have hopen := h.acceptFd_isOpen
    rw [← hp.2, hfree] at hopen
    exact absurd hopen (by simp)
  | conn d =>
    obtain ⟨-, hfd, conn, hconn, -⟩ := hp
    exact h.ne_of_closed hfree (by rw [hconn]; rfl) hfd.symm

/-- So no poller has an entry for a descriptor that is not in use. -/
theorem Wiring.none_of_closed (h : Wiring cfg s) (hledger : Ledger cfg s) {fd : ℕ}
    (hfree : s.isOpen fd = false) (l : L) :
    (s.pollers l).channels fd = none ∧ (s.pollers l).epoll fd = none := by
  constructor
  · by_contra hsome
    obtain ⟨p, hp⟩ := Option.ne_none_iff_exists'.mp hsome
    exact hledger.not_known hfree p (h.channels l fd p hp)
  · by_contra hsome
    obtain ⟨x, hx⟩ := Option.ne_none_iff_exists'.mp hsome
    exact hledger.not_known hfree x.2 (h.epoll l fd x hx)

section Step

variable [DecidableEq L]

theorem Ledger.update (h : Ledger cfg s) {c : ConnPtr L} {conn conn' : TcpConnection}
    (hconn : s.heap c = some conn) (hfd : conn'.channel.fd = conn.channel.fd)
    (hid : s'.nextConnId = s.nextConnId) (hopen : s'.isOpen = s.isOpen)
    (hitems : s'.connections = s.connections)
    (hheap : s'.heap = Function.update s.heap c (some conn')) : Ledger cfg s' := by
  refine h.of_heap hid hopen (fun item hitem => hitems ▸ hitem) ?_ ?_
  · intro d conn₁ hconn₁
    rw [hheap] at hconn₁
    by_cases hd : d = c
    · subst hd
      rw [Function.update_self] at hconn₁
      obtain rfl := Option.some.inj hconn₁
      exact ⟨conn, hconn, hfd⟩
    · rw [Function.update_of_ne hd] at hconn₁
      exact ⟨conn₁, hconn₁, rfl⟩
  · intro d hd
    rw [hheap]
    by_cases hdc : d = c
    · subst hdc
      rw [Function.update_self]
      rfl
    · rwa [Function.update_of_ne hdc]

/-- A connection is made for a descriptor that was not open. -/
theorem Ledger.newConnection (h : Ledger cfg s) {t : Thread L U} {sockfd : ℕ}
    (hfree : s.isOpen sockfd = false) (hroom : s.nextConnId < 2 ^ 31 - 1) :
    Ledger cfg (s.newConnection cfg t sockfd).1 := by
  have hheap : ∀ d conn', (s.newConnection cfg t sockfd).1.heap d = some conn' →
      (d = ⟨s.nextConnId, (cfg.getNextLoop s.next).1, sockfd⟩ ∧
        conn' = TcpConnection.make sockfd cfg.writeCompleteCallback) ∨
      (s.heap d = some conn') := by
    intro d conn' hd
    by_cases hnew : d = ⟨s.nextConnId, (cfg.getNextLoop s.next).1, sockfd⟩
    · subst hnew
      simp only [State.newConnection, Function.update_self] at hd
      exact .inl ⟨rfl, (Option.some.inj hd).symm⟩
    · simp only [State.newConnection, Function.update_of_ne hnew] at hd
      exact .inr hd
  have hsome : ∀ d, ((s.newConnection cfg t sockfd).1.heap d).isSome →
      d = ⟨s.nextConnId, (cfg.getNextLoop s.next).1, sockfd⟩ ∨ (s.heap d).isSome := by
    intro d hd
    obtain ⟨conn', hconn'⟩ := Option.isSome_iff_exists.mp hd
    rcases hheap d conn' hconn' with ⟨hnew, -⟩ | hold
    · exact .inl hnew
    · exact .inr (Option.isSome_iff_exists.mpr ⟨conn', hold⟩)
  have hid : ∀ d, (s.heap d).isSome → d.id < s.nextConnId := by
    intro d hd
    obtain ⟨conn, hconn⟩ := Option.isSome_iff_exists.mp hd
    exact h.id_lt d conn hconn
  constructor
  case nextConnId_lt =>
    show s.nextConnId + 1 < 2 ^ 31
    omega
  case id_lt =>
    intro d conn' hd
    show d.id < s.nextConnId + 1
    rcases hheap d conn' hd with ⟨rfl, -⟩ | hold
    · exact Nat.lt_succ_self _
    · exact Nat.lt_succ_of_lt (h.id_lt d conn' hold)
  case id_injective =>
    -- two connections with one id: both are new, or one is old and has a smaller id
    intro c d hc hd hcd
    rcases hsome c hc with rfl | hc
    · rcases hsome d hd with rfl | hd
      · rfl
      · exact absurd hcd (Nat.ne_of_gt (hid d hd))
    · rcases hsome d hd with rfl | hd
      · exact absurd hcd (Nat.ne_of_lt (hid c hc))
      · exact h.id_injective c d hc hd hcd
  case fd_injective =>
    -- `accept` returned a free descriptor, and those of the connections are open
    intro c d hc hd hcd
    rcases hsome c hc with rfl | hc
    · rcases hsome d hd with rfl | hd
      · rfl
      · exact absurd hcd.symm (h.ne_of_closed hfree hd)
    · rcases hsome d hd with rfl | hd
      · exact absurd hcd (h.ne_of_closed hfree hc)
      · exact h.fd_injective c d hc hd hcd
  case fd_eq =>
    intro d conn' hd
    rcases hheap d conn' hd with ⟨rfl, rfl⟩ | hold
    · rfl
    · exact h.fd_eq d conn' hold
  case fd_isOpen =>
    intro d hd
    show Function.update s.isOpen sockfd true d.fd = true
    rcases hsome d hd with rfl | hold
    · exact Function.update_self _ _ _
    · rw [Function.update_of_ne (h.ne_of_closed hfree hold)]
      exact h.fd_isOpen d hold
  case fd_ne_wakeupFd =>
    intro d hd l
    rcases hsome d hd with rfl | hold
    · intro heq
      have hopen := h.wakeupFd_isOpen l
      rw [← heq, hfree] at hopen
      exact absurd hopen (by simp)
    · exact h.fd_ne_wakeupFd d hold l
  case fd_ne_acceptFd =>
    intro d hd
    rcases hsome d hd with rfl | hold
    · intro heq
      have hopen := h.acceptFd_isOpen
      rw [← heq, hfree] at hopen
      exact absurd hopen (by simp)
    · exact h.fd_ne_acceptFd d hold
  case wakeupFd_isOpen =>
    intro l
    show Function.update s.isOpen sockfd true (cfg.wakeupFd l) = true
    by_cases hfd : cfg.wakeupFd l = sockfd
    · rw [hfd, Function.update_self]
    · rw [Function.update_of_ne hfd]
      exact h.wakeupFd_isOpen l
  case acceptFd_isOpen =>
    show Function.update s.isOpen sockfd true cfg.acceptFd = true
    by_cases hfd : cfg.acceptFd = sockfd
    · rw [hfd, Function.update_self]
    · rw [Function.update_of_ne hfd]
      exact h.acceptFd_isOpen
  case names =>
    intro item hitem
    rcases List.mem_cons.mp hitem with rfl | hitem
    · refine ⟨rfl, ?_⟩
      simp [State.newConnection]
    · obtain ⟨hname, hold⟩ := h.names item (List.mem_filter.mp hitem).1
      refine ⟨hname, ?_⟩
      by_cases hnew : item.2 = ⟨s.nextConnId, (cfg.getNextLoop s.next).1, sockfd⟩
      · simp [State.newConnection, hnew]
      · simp only [State.newConnection, Function.update_of_ne hnew]
        exact hold

/-! ### The wiring -/

omit [DecidableEq L] in
/-- A pointer at another place than that of `c` does not point to `c`. -/
theorem ChannelPtr.Known.other {p : ChannelPtr L} {fd : ℕ} {c : ConnPtr L}
    (h : p.Known cfg s l fd) (hne : l ≠ c.loop ∨ fd ≠ c.fd)
    (hheap : ∀ d, d ≠ c → s'.heap d = s.heap d) : p.Known cfg s' l fd := by
  refine h.mono fun d conn hp hconn => ?_
  have hd : d ≠ c := by
    rintro rfl
    subst hp
    rcases hne with hne | hne
    · exact hne h.1
    · exact hne h.2.1
  exact ⟨conn, (hheap d hd).trans hconn, rfl⟩

theorem Wiring.performed (h : Wiring cfg s) (hledger : Ledger cfg s) {c : ConnPtr L}
    {conn : TcpConnection} (hconn : s.heap c = some conn) {i : Instr L}
    {e : Endpoint (ChannelPtr L)} (hshift : Shift c i (s.endpoint c conn) e)
    (hframe : (s.endpoint c conn).Frame e) {t : Thread L U} {events : List (Event L U)} :
    Wiring cfg (s.performed t c events e) := by
  have hfd : conn.channel.fd = c.fd := hledger.fd_eq c conn hconn
  have hfd' : e.conn.channel.fd = c.fd := hframe.fd.trans hfd
  have hlinked := hshift.linked
  have hself : (s.performed t c events e).heap c = some e.conn := Function.update_self _ _ _
  have hother : ∀ d, d ≠ c → (s.performed t c events e).heap d = s.heap d :=
    fun d hd => Function.update_of_ne hd _ _
  have hpoller : (s.performed t c events e).pollers c.loop = e.poller :=
    Function.update_self _ _ _
  have hpollers : ∀ m, m ≠ c.loop → (s.performed t c events e).pollers m = s.pollers m :=
    fun m hm => Function.update_of_ne hm _ _
  constructor
  case channels =>
    -- only the entry of `c` itself changes: on its loop, at its descriptor
    intro m fd p hp
    by_cases hm : m = c.loop
    · subst hm
      rw [hpoller] at hp
      by_cases hc : fd = c.fd
      · subst hc
        rw [← hfd'] at hp
        obtain ⟨rfl, hindex⟩ := hlinked.channels p hp
        exact ⟨rfl, rfl, e.conn, hself, hindex⟩
      · rw [hframe.channels fd (hfd ▸ hc)] at hp
        exact (h.channels c.loop fd p hp).other (.inr hc) hother
    · rw [hpollers m hm] at hp
      exact (h.channels m fd p hp).other (.inl hm) hother
  case epoll =>
    intro m fd x hx
    by_cases hm : m = c.loop
    · subst hm
      rw [hpoller] at hx
      by_cases hc : fd = c.fd
      · subst hc
        rw [← hfd'] at hx
        obtain ⟨hptr, hindex⟩ := hlinked.epoll x hx
        rw [hptr]
        exact ⟨rfl, rfl, e.conn, hself, hindex⟩
      · rw [hframe.epoll fd (hfd ▸ hc)] at hx
        exact (h.epoll c.loop fd x hx).other (.inr hc) hother
    · rw [hpollers m hm] at hx
      exact (h.epoll m fd x hx).other (.inl hm) hother
  case acceptor_fd => exact h.acceptor_fd
  case acceptor_index =>
    -- the acceptor has another descriptor
    have hne : cfg.acceptFd ≠ conn.channel.fd := by
      rw [hfd]
      exact (hledger.fd_ne_acceptFd c (by rw [hconn]; rfl)).symm
    have hsame : ((s.performed t c events e).pollers cfg.base).epoll cfg.acceptFd =
        (s.pollers cfg.base).epoll cfg.acceptFd := by
      by_cases hbase : cfg.base = c.loop
      · rw [hbase, hpoller]
        exact hframe.epoll _ hne
      · rw [hpollers _ hbase]
    rw [hsame]
    exact h.acceptor_index
  case exited =>
    intro m
    by_cases hm : m = c.loop
    · subst hm
      rw [hpoller]
      exact hframe.exited.trans (h.exited c.loop)
    · rw [hpollers m hm]
      exact h.exited m

/-- `Acceptor::listen`: the channel is added once and changed afterwards. -/
theorem Wiring.listen (h : Wiring cfg s) :
    Wiring cfg (s.onAcceptor cfg (Channel.enableReading .acceptor)) := by
  have hin := h.acceptor_index
  rw [← h.acceptor_fd] at hin
  have hout : s.acceptChannel.index ≠ .kAdded →
      (s.pollers cfg.base).epoll s.acceptChannel.fd = none := by
    intro hne
    by_contra hsome
    exact hne (hin.mpr (Option.ne_none_iff_exists'.mp hsome))
  have hset : Channel.enableReading .acceptor s.acceptChannel (s.pollers cfg.base) = _ :=
    Channel.enableReading_registers hin.mp hout
  have hbase : (s.onAcceptor cfg (Channel.enableReading .acceptor)).pollers cfg.base =
      (Channel.enableReading .acceptor s.acceptChannel (s.pollers cfg.base)).2 :=
    Function.update_self _ _ _
  have hpollers : ∀ m, m ≠ cfg.base →
      (s.onAcceptor cfg (Channel.enableReading .acceptor)).pollers m = s.pollers m :=
    fun m hm => Function.update_of_ne hm _ _
  have hknown : ∀ {m fd} {p : ChannelPtr L}, p.Known cfg s m fd →
      p.Known cfg (s.onAcceptor cfg (Channel.enableReading .acceptor)) m fd :=
    fun hp => hp.mono fun _ conn _ hconn => ⟨conn, hconn, rfl⟩
  rw [hset, h.acceptor_fd] at hbase
  constructor
  case channels =>
    intro m fd p hp
    by_cases hm : m = cfg.base
    · subst hm
      rw [hbase] at hp
      by_cases hfd : fd = cfg.acceptFd
      · subst hfd
        simp only at hp
        split_ifs at hp
        · rw [Function.update_self] at hp
          obtain rfl := Option.some.inj hp
          exact ⟨rfl, rfl⟩
        · exact hknown (h.channels _ _ p hp)
      · simp only at hp
        split_ifs at hp
        · rw [Function.update_of_ne hfd] at hp
          exact hknown (h.channels _ _ p hp)
        · exact hknown (h.channels _ _ p hp)
    · rw [hpollers m hm] at hp
      exact hknown (h.channels _ _ p hp)
  case epoll =>
    intro m fd x hx
    by_cases hm : m = cfg.base
    · subst hm
      rw [hbase] at hx
      by_cases hfd : fd = cfg.acceptFd
      · subst hfd
        simp only [Function.update_self, Option.some.injEq] at hx
        rw [← hx]
        exact ⟨rfl, rfl⟩
      · simp only [Function.update_of_ne hfd] at hx
        exact hknown (h.epoll _ _ x hx)
    · rw [hpollers m hm] at hx
      exact hknown (h.epoll _ _ x hx)
  case acceptor_fd =>
    show (Channel.enableReading .acceptor s.acceptChannel (s.pollers cfg.base)).1.fd = _
    rw [hset]
    exact h.acceptor_fd
  case acceptor_index =>
    -- `enableReading` adds the channel or finds it added
    have hchannel : (s.onAcceptor cfg (Channel.enableReading .acceptor)).acceptChannel =
        (Channel.enableReading .acceptor s.acceptChannel (s.pollers cfg.base)).1 := rfl
    rw [hchannel, hset, hbase]
    exact ⟨fun _ => ⟨_, Function.update_self _ _ _⟩, fun _ => rfl⟩
  case exited =>
    intro m
    by_cases hm : m = cfg.base
    · subst hm
      rw [hbase]
      exact h.exited cfg.base
    · rw [hpollers m hm]
      exact h.exited m

/-! ### The end of a connection -/

section Free

variable {c : ConnPtr L} {conn : TcpConnection}

theorem free_heap {d : ConnPtr L} {conn' : TcpConnection} (hd : (s.free c).heap d = some conn') :
    d ≠ c ∧ s.heap d = some conn' := by
  have hd : Function.update s.heap c none d = some conn' := hd
  by_cases hdc : d = c
  · subst hdc
    rw [Function.update_self] at hd
    exact absurd hd (by simp)
  · rw [Function.update_of_ne hdc] at hd
    exact ⟨hdc, hd⟩

theorem Ledger.free (h : Ledger cfg s) (hconn : s.heap c = some conn) (hgone : ¬ s.Holds c) :
    Ledger cfg (s.free c) := by
  have hc : (s.heap c).isSome := by
    rw [hconn]
    rfl
  have hsome : ∀ d, ((s.free c).heap d).isSome → d ≠ c ∧ (s.heap d).isSome := by
    intro d hd
    obtain ⟨conn', hconn'⟩ := Option.isSome_iff_exists.mp hd
    obtain ⟨hdc, hold⟩ := free_heap hconn'
    exact ⟨hdc, Option.isSome_iff_exists.mpr ⟨conn', hold⟩⟩
  have hopen : ∀ fd, fd ≠ c.fd → (s.free c).isOpen fd = s.isOpen fd :=
    fun fd hfd => Function.update_of_ne hfd _ _
  constructor
  case nextConnId_lt => exact h.nextConnId_lt
  case id_lt => exact fun d conn' hd => h.id_lt d conn' (free_heap hd).2
  case id_injective => exact fun d d' hd hd' => h.id_injective d d' (hsome d hd).2 (hsome d' hd').2
  case fd_injective => exact fun d d' hd hd' => h.fd_injective d d' (hsome d hd).2 (hsome d' hd').2
  case fd_eq => exact fun d conn' hd => h.fd_eq d conn' (free_heap hd).2
  case fd_isOpen =>
    intro d hd
    obtain ⟨hdc, hold⟩ := hsome d hd
    rw [hopen d.fd fun hfd => hdc (h.fd_injective d c hold hc hfd)]
    exact h.fd_isOpen d hold
  case fd_ne_wakeupFd => exact fun d hd => h.fd_ne_wakeupFd d (hsome d hd).2
  case fd_ne_acceptFd => exact fun d hd => h.fd_ne_acceptFd d (hsome d hd).2
  case wakeupFd_isOpen =>
    intro l
    rw [hopen _ (h.fd_ne_wakeupFd c hc l).symm]
    exact h.wakeupFd_isOpen l
  case acceptFd_isOpen =>
    rw [hopen _ (h.fd_ne_acceptFd c hc).symm]
    exact h.acceptFd_isOpen
  case names =>
    intro item hitem
    obtain ⟨hname, hold⟩ := h.names item hitem
    have hne : item.2 ≠ c := fun heq => hgone ⟨item, hitem, heq⟩
    refine ⟨hname, ?_⟩
    show (Function.update s.heap c none item.2).isSome
    rwa [Function.update_of_ne hne]

theorem Wiring.free (h : Wiring cfg s) (hledger : Ledger cfg s) (hconn : s.heap c = some conn)
    (hun : (s.endpoint c conn).Unregistered) : Wiring cfg (s.free c) := by
  have hfd : conn.channel.fd = c.fd := hledger.fd_eq c conn hconn
  have hother : ∀ d, d ≠ c → (s.free c).heap d = s.heap d :=
    fun d hd => Function.update_of_ne hd _ _
  constructor
  case channels =>
    intro l fd p hp
    have hp : (s.pollers l).channels fd = some p := hp
    refine (h.channels l fd p hp).other ?_ hother
    by_contra hsame
    obtain ⟨rfl, rfl⟩ := not_or.mp hsame |>.imp not_not.mp not_not.mp
    have hnone := hun.channels
    simp only [State.endpoint, hfd] at hnone
    exact absurd (hp.symm.trans hnone) (by simp)
  case epoll =>
    intro l fd x hx
    simp only [State.free] at hx
    by_cases hc : fd = c.fd
    · subst hc
      rw [Function.update_self] at hx
      exact absurd hx (by simp)
    · rw [Function.update_of_ne hc] at hx
      exact (h.epoll l fd x hx).other (.inr hc) hother
  case acceptor_fd => exact h.acceptor_fd
  case acceptor_index =>
    have hne : cfg.acceptFd ≠ c.fd :=
      (hledger.fd_ne_acceptFd c (by rw [hconn]; rfl)).symm
    have hsame : ((s.free c).pollers cfg.base).epoll cfg.acceptFd =
        (s.pollers cfg.base).epoll cfg.acceptFd := Function.update_of_ne hne _ _
    rw [hsame]
    exact h.acceptor_index
  case exited => exact h.exited

end Free

/-! ### One instruction -/

section Runs

variable [Fintype L] {t : Thread L U} {i : Instr L} {o : Outcome} {is : List (Instr L)}
  {c : ConnPtr L} {conn : TcpConnection} {events : List (Event L U)}
  {f : Endpoint (ChannelPtr L) → Endpoint (ChannelPtr L)}

/-- A member that a live server calls runs on the loop of its connection and is
one of the five shifts. -/
theorem Invariant.shift (h : Invariant cfg s) (hi : i ∈ s.stack (.loop l))
    (hconn : s.heap c = some conn) (hcalls : Calls (.loop l) c conn i o events f) :
    c.loop = l ∧ Shift c i (s.endpoint c conn) (f (s.endpoint c conn)) ∧
      (s.endpoint c conn).Frame (f (s.endpoint c conn)) := by
  have htame := h.work.tame l i hi
  obtain ⟨hthread, -, -⟩ := hcalls.confined (h.confined.stack _ i hi)
  refine ⟨(Thread.loop.inj hthread).symm, ?_⟩
  refine hcalls.shift ((h.life c).stage conn hconn) (fun k hk => task_of_mem hi hk) ?_ ?_
    (htame.disconnect c)
  · intro hc
    obtain ⟨conn', hconn', hindex⟩ := htame.target c hc
    rw [hconn] at hconn'
    exact Option.some.inj hconn' ▸ hindex
  · intro hc
    obtain ⟨-, conn', hconn', hopen⟩ := htame.urgent c hc
    rw [hconn] at hconn'
    exact Option.some.inj hconn' ▸ hopen

theorem Invariant.ledger_runs (h : Invariant cfg s) (hi : i ∈ s.stack (.loop l))
    (hlive : Live s (.exec (.loop l) o)) (hruns : Runs cfg (.loop l) s i o s' is) :
    Ledger cfg s' := by
  cases hruns with
  | calls hconn hcalls =>
    obtain ⟨-, -, hframe⟩ := h.shift hi hconn hcalls
    exact h.ledger.update hconn hframe.fd rfl rfl rfl rfl
  | @setDisconnecting c conn _ hconn =>
    have hheap : (s.setConn c { conn with state := .kDisconnecting }).heap =
        Function.update s.heap c (some { conn with state := .kDisconnecting }) := rfl
    refine h.ledger.update hconn ?_ rfl rfl rfl hheap
    rfl
  | newConnection hfree => exact h.ledger.newConnection hfree hlive
  | removeConnectionInLoop =>
    refine h.ledger.of_heap rfl rfl (fun item hitem => (List.mem_filter.mp hitem).1) ?_ ?_
    · exact fun d conn hd => ⟨conn, hd, rfl⟩
    · exact fun d hd => hd
  | removeAcceptor => exact absurd rfl (h.work.tame l _ hi).removeAcceptor
  | _ =>
    refine h.ledger.of_heap rfl rfl (fun item hitem => hitem) ?_ ?_
    · exact fun d conn hd => ⟨conn, hd, rfl⟩
    · exact fun d hd => hd

theorem Invariant.wiring_runs (h : Invariant cfg s) (hi : i ∈ s.stack (.loop l))
    (hruns : Runs cfg (.loop l) s i o s' is) : Wiring cfg s' := by
  cases hruns with
  | calls hconn hcalls =>
    obtain ⟨-, hshift, hframe⟩ := h.shift hi hconn hcalls
    exact h.wiring.performed h.ledger hconn hshift hframe
  | @setDisconnecting c conn _ hconn =>
    refine h.wiring.of_heap rfl rfl fun d conn' hd => ?_
    by_cases hdc : d = c
    · subst hdc
      rw [hconn] at hd
      obtain rfl := Option.some.inj hd
      exact ⟨_, Function.update_self _ _ _, rfl⟩
    · exact ⟨conn', (Function.update_of_ne hdc _ _).trans hd, rfl⟩
  | @newConnection _ connfd hfree =>
    refine h.wiring.of_heap rfl rfl fun d conn' hd => ?_
    have hdc : d ≠ ⟨s.nextConnId, (cfg.getNextLoop s.next).1, connfd⟩ := by
      rintro rfl
      exact absurd (h.ledger.id_lt _ conn' hd) (Nat.lt_irrefl _)
    exact ⟨conn', (Function.update_of_ne hdc _ _).trans hd, rfl⟩
  | removeAcceptor => exact absurd rfl (h.work.tame l _ hi).removeAcceptor
  | listen => exact h.wiring.listen
  | _ => exact h.wiring.of_heap rfl rfl fun d conn hd => ⟨conn, hd, rfl⟩

end Runs

end Step

end TcpServer

end Moduo
