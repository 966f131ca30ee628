/-
Graceful shutdown.

`shutdown` asks for a half close as soon as `outputBuffer` is empty: at once in
`shutdownInLoop`, or in the `handleWrite` that drains the buffer.

* `halfClose_iff` — throughout a run, a connection that is still open, has run
  `shutdownInLoop` and has nothing left to send is half closed, if and only if
  no step of the run `Misses` the half close.

Both ways to miss it come from `disableWriting`, which leaves the channel armed:
the drain then finds it armed in its own `shutdownInLoop`, and so does every
later `shutdownInLoop`.
-/
import Moduo.ConnectionLoop

namespace Moduo

namespace ConnectionLoop

namespace HalfClose

variable {T : Type*}

/-- The half close is not overdue. -/
def Done (s : State T) : Prop :=
  s.shutdownRan = true → s.conn.outputBuffer.content = [] → s.closed = false → s.HalfClosed

/-- `shutdownInLoop` would find nothing to send and the channel armed. -/
def Stuck (s : State T) : Prop :=
  s.closed = false ∧ ¬ s.HalfClosed ∧ s.conn.outputBuffer.content = [] ∧
    s.conn.channel.isWriting = true

/-- The step should half close the connection and does not. -/
def Misses (loopThread : T) (s : State T) : Label T → Prop
  | .handleWrite res =>
    s.closed = false ∧ ¬ s.HalfClosed ∧ s.endpoint.Drains res ∧ s.conn.state = .kDisconnecting
  | .runFunctor _ => Stuck s ∧ s.rest.head? = some .shutdownInLoop
  | .shutdownBody t => Stuck s ∧ t = loopThread
  | _ => False

/-! ### Who has asked for the half close -/

/-- `shutdown` has stored `kDisconnecting`. -/
def Asked (s : State T) : Prop :=
  s.shutdownRan = true ∨ (∃ t, s.call t = .shutting) ∨ .shutdownInLoop ∈ s.rest ++ s.pending

structure Inv (s : State T) : Prop where
  asked : Asked s → s.closed = false → s.conn.state = .kDisconnecting
  unestablished : s.established = false →
    s.conn.state = .kConnecting ∧ ¬ Asked s ∧ ∀ t, s.call t ≠ .storing
  destroying : s.destroying ≠ .outside → s.closed = true ∧ s.established = true

variable {s s' : State T}

theorem inv_start (h : Start s) : Inv s := by
  have hasked : ¬ Asked s := by
    rintro (hran | ⟨t, ht⟩ | hmem)
    · rw [h.shutdownRan] at hran
      exact absurd hran (by decide)
    · rw [h.call t] at ht
      exact absurd ht (by simp)
    · rw [h.rest, h.pending] at hmem
      exact absurd hmem List.not_mem_nil
  exact ⟨fun ha => absurd ha hasked,
    fun _ => ⟨h.fresh.state, hasked, fun t => by simp [h.call t]⟩,
    fun hne => absurd h.destroying hne⟩

/-- Steps that queue no `shutdownInLoop`. -/
theorem Asked.of_tasks (h : Asked s') (hran : s'.shutdownRan = s.shutdownRan)
    (hcall : s'.call = s.call)
    (htasks : .shutdownInLoop ∈ s'.rest ++ s'.pending → .shutdownInLoop ∈ s.rest ++ s.pending) :
    Asked s := by
  rcases h with hr | ⟨t, ht⟩ | hmem
  · exact .inl (hran ▸ hr)
  · exact .inr (.inl ⟨t, by rwa [hcall] at ht⟩)
  · exact .inr (.inr (htasks hmem))

/-- Steps that ask for nothing new and keep the state. -/
theorem Inv.congr (h : Inv s) (hasked : Asked s' → Asked s)
    (hstate : s'.conn.state = s.conn.state) (hclosed : s'.closed = s.closed)
    (hestablished : s'.established = s.established)
    (hstoring : s.established = false → ∀ t, s'.call t = .storing → s.call t = .storing)
    (hdestroying : s'.destroying = s.destroying) : Inv s' where
  asked ha hopen := by
    rw [hstate]
    exact h.asked (hasked ha) (hclosed ▸ hopen)
  unestablished hne := by
    rw [hestablished] at hne
    obtain ⟨hst, hn, hcall⟩ := h.unestablished hne
    exact ⟨hstate.trans hst, fun ha => hn (hasked ha),
      fun t ht => hcall t (hstoring hne t ht)⟩
  destroying hne := by
    rw [hdestroying] at hne
    rw [hclosed, hestablished]
    exact h.destroying hne

theorem asked_perform {f : Endpoint Unit → Endpoint Unit} (h : Asked (s.perform f)) :
    Asked s := by
  refine h.of_tasks rfl rfl fun hmem => ?_
  simpa [State.perform] using hmem

theorem Inv.perform (h : Inv s) {f : Endpoint Unit → Endpoint Unit}
    (hstate : (f s.endpoint).conn.state = s.conn.state) : Inv (s.perform f) :=
  h.congr asked_perform hstate rfl rfl (fun _ _ => id) rfl

/-- Once the connection is closed, its state no longer matters. -/
theorem inv_of_closed (hclosed : s.closed = true) (hestablished : s.established = true) : Inv s :=
  ⟨fun _ hopen => absurd (hclosed.symm.trans hopen) (by simp),
    fun hne => absurd (hestablished.symm.trans hne) (by simp), fun _ => ⟨hclosed, hestablished⟩⟩

theorem Inv.established_of_connected (h : Inv s) (hst : s.conn.state = .kConnected) :
    s.established = true := by
  by_contra hne
  have hconnecting := (h.unestablished (by simpa using hne)).1
  rw [hst] at hconnecting
  exact absurd hconnecting (by simp)

theorem Inv.established_of_asked (h : Inv s) (ha : Asked s) : s.established = true := by
  by_contra hne
  exact (h.unestablished (by simpa using hne)).2.1 ha

/-- Someone has asked for the half close; whoever asks again changes nothing. -/
theorem Inv.asking (h : Inv s) (ha : Asked s) (hstate : s'.conn.state = s.conn.state)
    (hclosed : s'.closed = s.closed) (hestablished : s'.established = s.established)
    (hdestroying : s'.destroying = s.destroying) : Inv s' where
  asked _ hopen := by
    rw [hclosed] at hopen
    exact hstate.trans (h.asked ha hopen)
  unestablished hne := by
    rw [hestablished, h.established_of_asked ha] at hne
    exact absurd hne (by simp)
  destroying hne := by
    rw [hdestroying] at hne
    rw [hclosed, hestablished]
    exact h.destroying hne

/-! ### The half close -/

/-- Steps that leave the buffer and the write end alone. -/
theorem Done.congr (h : Done s)
    (hran : s'.shutdownRan = true → s.shutdownRan = true)
    (hcontent : s'.conn.outputBuffer.content = [] → s.conn.outputBuffer.content = [])
    (hclosed : s'.closed = false → s.closed = false)
    (hhalf : s.HalfClosed → s'.HalfClosed) : Done s' :=
  fun hr hc ho => hhalf (h (hran hr) (hcontent hc) (hclosed ho))

theorem halfClosed_perform (f : Endpoint Unit → Endpoint Unit)
    (h : s.HalfClosed) : (s.perform f).HalfClosed := by
  rw [State.HalfClosed, State.halfCloses_perform]
  exact List.append_ne_nil_of_left_ne_nil h _

theorem Done.sendInLoop (h : Done s) (m : Message T) (res : WriteResult) :
    Done (s.sendInLoop m res) := by
  have hhalf := halfClosed_perform (s := s) (Endpoint.sendInLoop () m.payload res)
  rcases Endpoint.sendInLoop_conn () m.payload res s.endpoint with hsame | ⟨-, hcontent⟩
  · have hconn : (s.sendInLoop m res).conn = s.conn := hsame
    exact h.congr id (fun hc => by rwa [hconn] at hc) id hhalf
  · exact fun _ hc => absurd hc hcontent

/-- `shutdownInLoop` half closes the connection unless it is stuck. -/
theorem done_shutdownInLoop_iff : Done s.shutdownInLoop ↔ ¬ Stuck s := by
  cases hw : s.conn.channel.isWriting with
  | true =>
    have hsame : s.endpoint.shutdownInLoop = s.endpoint :=
      Endpoint.shutdownInLoop_of_isWriting hw
    have heq : s.shutdownInLoop = { s with shutdownRan := true } := by
      rw [State.shutdownInLoop, State.perform_id hsame]
    rw [heq]
    constructor
    · rintro hdone ⟨hopen, hhalf, hcontent, -⟩
      exact hhalf (hdone rfl hcontent hopen)
    · intro hn _ hcontent hopen
      by_contra hhalf
      exact hn ⟨hopen, hhalf, hcontent, hw⟩
  | false =>
    have heq : s.endpoint.shutdownInLoop = s.endpoint.emit (.shutdownWrite s.conn.unsent) :=
      Endpoint.shutdownInLoop_of_not_isWriting hw
    have hhalf : s.shutdownInLoop.HalfClosed := by
      show halfCloses (s.perform Endpoint.shutdownInLoop).trace ≠ []
      rw [State.halfCloses_perform, heq]
      exact List.append_ne_nil_of_right_ne_nil _ (by simp [halfCloses, Endpoint.emit,
        Effect.halfClose?, State.endpoint])
    refine ⟨fun _ hstuck => ?_, fun _ _ _ _ => hhalf⟩
    exact absurd (hw.symm.trans hstuck.2.2.2) (by simp)

/-- A drain in state `kDisconnecting` leaves the half close undone. -/
theorem done_handleWrite_iff (hinv : Inv s) (h : Done s) {res : WriteResult}
    (hadm : res.Admissible s.conn.unsent) :
    Done (s.handleWrite res) ↔ ¬ (s.closed = false ∧ ¬ s.HalfClosed ∧ s.endpoint.Drains res ∧
      s.conn.state = .kDisconnecting) := by
  have hquiet := Endpoint.quiet_handleWrite (e := s.endpoint) () hadm
  have htrace : halfCloses (s.handleWrite res).trace = halfCloses s.trace :=
    State.halfCloses_perform_quiet hquiet
  have hhalf : (s.handleWrite res).HalfClosed ↔ s.HalfClosed := by
    rw [State.HalfClosed, State.HalfClosed, htrace]
  by_cases hd : s.endpoint.Drains res
  · have hempty : (s.handleWrite res).conn.outputBuffer.content = [] := by
      show (s.endpoint.handleWrite () res).conn.outputBuffer.content = []
      rw [Endpoint.handleWrite_drains _ hd, Endpoint.drained_content]
    have hran : (s.handleWrite res).shutdownRan = true ↔
        s.shutdownRan = true ∨ s.conn.state = .kDisconnecting := by
      simp [State.handleWrite, hd]
    constructor
    · rintro hdone ⟨hopen, hnot, -, hst⟩
      exact hnot (hhalf.mp (hdone (hran.mpr (.inr hst)) hempty hopen))
    · intro hn hr _ hopen
      have hst : s.conn.state = .kDisconnecting := by
        rcases hran.mp hr with hr | hst
        · exact hinv.asked (.inl hr) hopen
        · exact hst
      by_contra hnot
      exact hn ⟨hopen, fun hc => hnot (hhalf.mpr hc), hd, hst⟩
  · refine ⟨fun _ hmiss => hd hmiss.2.2.1, fun _ => ?_⟩
    refine h.congr (fun hr => ?_) (fun hc => ?_) id hhalf.mpr
    · simpa [State.handleWrite, hd] using hr
    · rcases Endpoint.handleWrite_partial () hd hadm with heq | ⟨n, hlt, heq⟩
      · have hconn : (s.handleWrite res).conn = s.conn := congrArg Endpoint.conn heq
        rwa [hconn] at hc
      · -- something is left in the buffer
        have hleft : (s.handleWrite res).conn.outputBuffer.content =
            s.conn.outputBuffer.content.drop n := by
          show (s.endpoint.handleWrite () res).conn.outputBuffer.content = _
          rw [heq]
          exact Fifo.content_take _ n
        rw [hleft, List.drop_eq_nil_iff] at hc
        exact absurd hc (Nat.not_le_of_lt hlt)

section Step

variable [DecidableEq T] {loopThread : T}

theorem asked_setCall {t : T} {c : Call T} (hc : c ≠ .shutting) (h : Asked (s.setCall t c)) :
    Asked s := by
  rcases h with hran | ⟨u, hu⟩ | hmem
  · exact .inl hran
  · refine .inr (.inl ⟨u, ?_⟩)
    by_cases hut : u = t
    · simp [State.setCall, hut, hc] at hu
    · simpa [State.setCall, Function.update_of_ne hut] using hu
  · exact .inr (.inr hmem)

theorem Inv.setCall (h : Inv s) {t : T} {c : Call T} (hc : c ≠ .shutting)
    (hs : c = .storing → s.established = true) : Inv (s.setCall t c) := by
  refine h.congr (asked_setCall hc) rfl rfl rfl (fun hne u hu => ?_) rfl
  by_cases hut : u = t
  · have hcs : c = .storing := by simpa [State.setCall, hut] using hu
    exact absurd ((hs hcs).symm.trans hne) (by simp)
  · simpa [State.setCall, Function.update_of_ne hut] using hu

theorem inv_move {a : Label T} (h : Inv s) (hmove : Move loopThread s a s') : Inv s' := by
  cases hmove with
  | @sendTest t payload =>
    have hset : Inv (s.setCall t (.sending ⟨t, payload⟩)) := h.setCall (by simp) (by simp)
    exact ⟨hset.asked, hset.unestablished, hset.destroying⟩
  | sendRefused => exact ⟨h.asked, h.unestablished, h.destroying⟩
  | @sendDirect m res =>
    have hset : Inv (s.setCall loopThread .idle) := h.setCall (by simp) (by simp)
    have hsend := hset.perform (f := Endpoint.sendInLoop () m.payload res)
      (Endpoint.quiet_sendInLoop () m.payload res _).state
    exact ⟨hsend.asked, hsend.unestablished, hsend.destroying⟩
  | @sendQueue t m =>
    have hset : Inv (s.setCall t .idle) := h.setCall (by simp) (by simp)
    refine hset.congr (fun ha => ha.of_tasks rfl rfl fun hmem => ?_) rfl rfl rfl (fun _ _ => id) rfl
    simpa [State.setCall] using hmem
  | shutdownTest _ hst => exact h.setCall (by simp) fun _ => h.established_of_connected hst
  | shutdownRefused => exact h
  | store ht =>
    -- the test has seen `kConnected`, so the connection has been established
    have hestablished : s.established = true := by
      by_contra hne
      exact (h.unestablished (by simpa using hne)).2.2 _ ht
    exact ⟨fun _ _ => rfl, fun hne => absurd (hestablished.symm.trans hne) (by simp),
      h.destroying⟩
  | shutdownDirect ht =>
    exact h.asking (.inr (.inl ⟨_, ht⟩)) (State.state_shutdownInLoop _) rfl rfl rfl
  | shutdownQueue ht _ => exact h.asking (.inr (.inl ⟨_, ht⟩)) rfl rfl rfl rfl
  | established _ hne =>
    -- nobody has asked yet: `shutdown` refuses in state `kConnecting`
    have hn := (h.unestablished hne).2.1
    refine ⟨fun ha => absurd (asked_perform ha) hn, fun he => absurd he (by simp),
      fun hd => ⟨(h.destroying hd).1, rfl⟩⟩
  | swap _ hrest =>
    refine h.congr (fun ha => ha.of_tasks rfl rfl fun hmem => ?_) rfl rfl rfl (fun _ _ => id) rfl
    simpa [hrest] using hmem
  | @runSend m rest res _ hrest _ =>
    have hrun : Inv { s with rest := rest } := by
      refine h.congr (fun ha => ha.of_tasks rfl rfl fun hmem => ?_) rfl rfl rfl (fun _ _ => id) rfl
      simpa [hrest] using hmem
    have hsend := hrun.perform (f := Endpoint.sendInLoop () m.payload res)
      (Endpoint.quiet_sendInLoop () m.payload res _).state
    exact ⟨hsend.asked, hsend.unestablished, hsend.destroying⟩
  | runShutdown _ hrest =>
    exact h.asking (.inr (.inr (by simp [hrest]))) (State.state_shutdownInLoop _) rfl rfl rfl
  | @runNotice cb rest res _ hrest =>
    refine h.congr (fun ha => ha.of_tasks rfl rfl fun hmem => ?_) rfl rfl rfl (fun _ _ => id) rfl
    simpa [hrest] using hmem
  | endOfFile _ he => exact inv_of_closed rfl he
  | @handleRead res _ _ hne =>
    cases res with
    | failed errno => exact h.perform rfl
    | read data =>
      cases data with
      | nil => exact absurd rfl hne
      | cons b bs => exact h.perform rfl
  | @handleWrite res _ he hadm =>
    have hstate : (s.handleWrite res).conn.state = s.conn.state :=
      (Endpoint.quiet_handleWrite (e := s.endpoint) () hadm).state
    refine ⟨fun ha hopen => ?_, fun hne => absurd (he.symm.trans hne) (by simp), h.destroying⟩
    rw [hstate]
    rcases ha with hran | hcall | hmem
    · -- `handleWrite` calls `shutdownInLoop` in state `kDisconnecting` only
      simp only [State.handleWrite, Bool.or_eq_true, decide_eq_true_eq] at hran
      rcases hran with hran | ⟨-, hst⟩
      · exact h.asked (.inl hran) hopen
      · exact hst
    · exact h.asked (.inr (.inl hcall)) hopen
    · exact h.asked (asked_perform (.inr (.inr hmem))) hopen
  | handleClose _ he => exact inv_of_closed rfl he
  | handleError => exact h.perform rfl
  | retrieve => exact ⟨h.asked, h.unestablished, h.destroying⟩
  | destroyedFound _ he => exact inv_of_closed rfl he
  | destroyedSkips _ he => exact inv_of_closed rfl he
  | disconnect hd =>
    obtain ⟨hclosed, hestablished⟩ := h.destroying (by simp [hd])
    exact inv_of_closed hclosed hestablished
  | remove _ hd =>
    obtain ⟨hclosed, hestablished⟩ := h.destroying (by simp [hd])
    exact inv_of_closed hclosed hestablished

theorem done_move {a : Label T} (hinv : Inv s) (h : Done s)
    (hmove : Move loopThread s a s') : Done s' ↔ ¬ Misses loopThread s a := by
  cases hmove with
  | sendTest => exact ⟨fun _ => id, fun _ => h.congr id id id id⟩
  | sendRefused => exact ⟨fun _ => id, fun _ => h.congr id id id id⟩
  | sendDirect =>
    refine ⟨fun _ => id, fun _ => Done.sendInLoop ?_ _ _⟩
    exact h.congr id id id id
  | sendQueue => exact ⟨fun _ => id, fun _ => h.congr id id id id⟩
  | shutdownTest => exact ⟨fun _ => id, fun _ => h.congr id id id id⟩
  | shutdownRefused => exact ⟨fun _ => id, fun _ => h⟩
  | store => exact ⟨fun _ => id, fun _ => h.congr id id id id⟩
  | shutdownDirect =>
    -- run at once or as a functor, `shutdownInLoop` may find the connection stuck
    rw [done_shutdownInLoop_iff]
    exact ⟨fun hn hmiss => hn hmiss.1, fun hn hstuck => hn ⟨hstuck, rfl⟩⟩
  | shutdownQueue _ hne =>
    exact ⟨fun _ hmiss => hne hmiss.2, fun _ => h.congr id id id id⟩
  | established =>
    refine ⟨fun _ => id, fun _ => h.congr id id id ?_⟩
    exact halfClosed_perform (Endpoint.connectionEstablished ())
  | swap => exact ⟨fun _ => id, fun _ => h.congr id id id id⟩
  | runSend _ hrest =>
    refine ⟨fun _ hmiss => ?_, fun _ => Done.sendInLoop ?_ _ _⟩
    · simp [Misses, hrest] at hmiss
    · exact h.congr id id id id
  | runShutdown _ hrest =>
    rw [done_shutdownInLoop_iff]
    exact ⟨fun hn hmiss => hn hmiss.1, fun hn hstuck => hn ⟨hstuck, by rw [hrest]; rfl⟩⟩
  | runNotice _ hrest =>
    refine ⟨fun _ hmiss => ?_, fun _ => h.congr id id id id⟩
    simp [Misses, hrest] at hmiss
  | endOfFile => exact ⟨fun _ => id, fun _ _ _ hopen => absurd hopen (by simp [State.handleClose])⟩
  | @handleRead res _ _ hne =>
    refine ⟨fun _ => id, fun _ => ?_⟩
    cases res with
    | failed errno => exact h.congr id id id (halfClosed_perform _)
    | read data =>
      cases data with
      | nil => exact absurd rfl hne
      | cons b bs => exact h.congr id id id (halfClosed_perform _)
  | handleWrite _ _ hadm => exact done_handleWrite_iff hinv h hadm
  | handleClose =>
    exact ⟨fun _ => id, fun _ _ _ hopen => absurd hopen (by simp [State.handleClose])⟩
  | handleError => exact ⟨fun _ => id, fun _ => h.congr id id id (halfClosed_perform _)⟩
  | retrieve => exact ⟨fun _ => id, fun _ => h.congr id id id id⟩
  | destroyedFound => exact ⟨fun _ => id, fun _ _ _ hopen => absurd hopen (by simp)⟩
  | destroyedSkips => exact ⟨fun _ => id, fun _ _ _ hopen => absurd hopen (by simp)⟩
  | disconnect => exact ⟨fun _ => id, fun _ => h.congr id id id (halfClosed_perform _)⟩
  | remove => exact ⟨fun _ => id, fun _ => h.congr id id id (halfClosed_perform _)⟩

/-- Exactly the runs without a missed half close complete every graceful
shutdown. -/
theorem halfClose_iff (h : (system loopThread).init s) (as : List (Label T)) :
    (system loopThread).Throughout Done s as ↔
      (system loopThread).StepsMeet (fun s a => ¬ Misses loopThread s a) s as := by
  have hdone : Done s := fun hran => by
    rw [h.shutdownRan] at hran
    exact absurd hran (by simp)
  exact Machine.throughout_iff_stepsMeet (I := Inv)
    (fun _ _ _ hi hstep => inv_move hi (move_of_system hstep).2)
    (fun _ _ _ hi hd hstep => done_move hi hd (move_of_system hstep).2) as (inv_start h) hdone

end Step

theorem halfClose_iff_shutdown :
    (system 0).Throughout Done fresh [.connectionEstablished, .shutdown 0] ↔
      (system 0).StepsMeet (fun s a => ¬ Misses 0 s a) fresh
        [.connectionEstablished, .shutdown 0] :=
  halfClose_iff (start_make (TcpConnection.make_fresh 5 false)) _

/-- The last byte leaves through `handleWrite` after `shutdown`: the write end
stays open. -/
theorem drain_misses_halfClose :
    ¬ (system 0).Throughout Done fresh
      [.connectionEstablished, .send 0 [1, 2], .sendBody 0 (.wrote 1), .shutdown 0, .store 0,
        .shutdownBody 0, .handleWrite (.wrote 1)] := by
  intro h
  have hrun : ∃ t, (system 0).run fresh
      [.connectionEstablished, .send 0 [1, 2], .sendBody 0 (.wrote 1), .shutdown 0, .store 0,
        .shutdownBody 0, .handleWrite (.wrote 1)] = some t ∧ t.shutdownRan = true ∧
      t.conn.outputBuffer.content = [] ∧ t.closed = false ∧ ¬ t.HalfClosed :=
    ⟨_, rfl, rfl, rfl, rfl, by decide⟩
  obtain ⟨t, ht, hran, hcontent, hopen, hhalf⟩ := hrun
  exact hhalf (h.final ht hran hcontent hopen)

end HalfClose

end ConnectionLoop

end Moduo
