/-
The write end after a half close.

Once `socket_->shutdownWrite()` has been called, nothing should be written to the
socket any more, and nothing more should be kept for it.

* `silent_iff` — throughout a run nothing is, if and only if no step of the run
  is `Late`: no `sendInLoop` that starts after the half close gets past its test.

`sendInLoop` is meant to refuse after `shutdown`, but it tests for
`kDisconnected`, and a half closed connection is `kDisconnecting`.
-/
import Moduo.ConnectionLoop

namespace Moduo

namespace ConnectionLoop

namespace WriteEnd

variable {T : Type*}

section Definitions

variable [DecidableEq T] (loopThread : T) (s : State T)

/-- The message with which the step runs `sendInLoop`. -/
def message? : Label T → Option (Message T)
  | .sendBody t _ =>
    match s.call t with
    | .sending m => if t = loopThread then some m else none
    | _ => none
  | .runFunctor _ =>
    match s.rest with
    | .sendInLoop m :: _ => some m
    | _ => none
  | _ => none

/-- The step calls `::write`. -/
def Writes (a : Label T) : Prop :=
  ((∃ res, a = .handleWrite res) ∧ s.conn.channel.isWriting = true) ∨
    ((message? loopThread s a).isSome ∧ s.conn.state ≠ .kDisconnected ∧
      s.conn.writesDirectly = true)

/-- After the half close the step does not write, and keeps nothing to be
written. -/
def Silent (a : Label T) (s' : State T) : Prop :=
  s.HalfClosed → ¬ Writes loopThread s a ∧ s'.wire = s.wire ∧
    s'.conn.outputBuffer.content <:+ s.conn.outputBuffer.content

/-- `sendInLoop` gets past its test and has something to do. -/
def Works (m : Message T) : Prop :=
  s.conn.state ≠ .kDisconnected ∧ (s.conn.writesDirectly = true ∨ m.payload ≠ [])

/-- The step starts such a `sendInLoop` after the half close. -/
def Late (a : Label T) : Prop :=
  s.HalfClosed ∧ ∃ m, message? loopThread s a = some m ∧ Works s m

end Definitions

/-- Nothing waits for the channel of a half closed connection to be writable. -/
def Inv (s : State T) : Prop := s.HalfClosed → s.conn.channel.isWriting = false

variable {s s' : State T}

theorem inv_start (h : Start s) : Inv s := by
  intro hhalf
  rw [State.HalfClosed, h.trace] at hhalf
  exact absurd rfl hhalf

theorem Inv.congr (h : Inv s) (hhalf : halfCloses s'.trace = halfCloses s.trace)
    (hwriting : s'.conn.channel.isWriting = s.conn.channel.isWriting) : Inv s' := by
  intro hclosed
  rw [State.HalfClosed, hhalf] at hclosed
  exact hwriting.trans (h hclosed)

/-- A step that neither half closes nor disarms the channel. -/
theorem Inv.perform (h : Inv s) {f : Endpoint Unit → Endpoint Unit}
    (hhalf : halfCloses (f s.endpoint).trace = [])
    (hwriting : (f s.endpoint).conn.channel.isWriting = s.conn.channel.isWriting ∨
      (f s.endpoint).conn.channel.isWriting = false) : Inv (s.perform f) := by
  have hsame : halfCloses (s.perform f).trace = halfCloses s.trace := by
    rw [State.halfCloses_perform, hhalf, List.append_nil]
  rcases hwriting with hwriting | hoff
  · exact h.congr hsame hwriting
  · exact fun _ => hoff

/-! ### The members that write -/

/-- Behind an armed channel the message goes to the buffer. -/
theorem sendInLoop_buffered {m : Message T} {res : WriteResult}
    (hstate : s.conn.state ≠ .kDisconnected) (hdirect : ¬ s.conn.writesDirectly = true) :
    s.endpoint.sendInLoop () m.payload res = s.endpoint.bufferRemaining () m.payload := by
  unfold Endpoint.sendInLoop
  exact (if_neg hstate).trans (if_neg hdirect)

/-- `sendInLoop` with nothing to do. -/
theorem sendInLoop_idle {m : Message T} (res : WriteResult) (h : ¬ Works s m) :
    (s.sendInLoop m res).conn = s.conn ∧ (s.sendInLoop m res).trace = s.trace := by
  have hsame : s.endpoint.sendInLoop () m.payload res = s.endpoint := by
    by_cases hstate : s.conn.state = .kDisconnected
    · exact Endpoint.sendInLoop_dropped (.inl hstate)
    · have hdirect : ¬ s.conn.writesDirectly = true := fun hd => h ⟨hstate, .inl hd⟩
      have hempty : m.payload = [] := by
        by_contra hne
        exact h ⟨hstate, .inr hne⟩
      rw [sendInLoop_buffered hstate hdirect, hempty, Endpoint.bufferRemaining_nil]
  have hperform : s.perform (Endpoint.sendInLoop () m.payload res) = s := State.perform_id hsame
  rw [State.sendInLoop, hperform]
  exact ⟨rfl, rfl⟩

/-- `sendInLoop` after the half close. -/
theorem silent_sendInLoop_iff (m : Message T) (res : WriteResult) :
    (s.HalfClosed → ¬ (s.conn.state ≠ .kDisconnected ∧ s.conn.writesDirectly = true) ∧
      (s.sendInLoop m res).wire = s.wire ∧
      (s.sendInLoop m res).conn.outputBuffer.content <:+ s.conn.outputBuffer.content) ↔
    ¬ (s.HalfClosed ∧ Works s m) := by
  constructor
  · rintro hsilent ⟨hclosed, hstate, hwork⟩
    -- a silent member neither writes at once nor lets the buffer grow
    obtain ⟨hwrites, -, hsuffix⟩ := hsilent hclosed
    have hdirect : ¬ s.conn.writesDirectly = true := fun hd => hwrites ⟨hstate, hd⟩
    rcases hwork with hd | hne
    · exact hdirect hd
    · -- the message is kept behind what is left
      have hcontent : (s.sendInLoop m res).conn.outputBuffer.content =
          s.conn.outputBuffer.content ++ m.payload := by
        show (s.endpoint.sendInLoop () m.payload res).conn.outputBuffer.content = _
        rw [sendInLoop_buffered hstate hdirect, Endpoint.bufferRemaining_eq hne,
          ← Fifo.content_put]
        dsimp only
        split_ifs <;> rfl
      have hlength := hsuffix.length_le
      rw [hcontent, List.length_append] at hlength
      have hpos := List.length_pos_iff.mpr hne
      omega
  · intro hnot hclosed
    have hidle : ¬ Works s m := fun hworks => hnot ⟨hclosed, hworks⟩
    obtain ⟨hconn, htrace⟩ := sendInLoop_idle res hidle
    refine ⟨?_, ?_, ?_⟩
    · rintro ⟨hstate, hd⟩
      exact hidle ⟨hstate, .inl hd⟩
    · rw [State.wire, htrace, State.wire]
    · rw [hconn]

theorem Inv.sendInLoop (h : Inv s) {m : Message T} {res : WriteResult}
    (hnot : ¬ (s.HalfClosed ∧ Works s m)) : Inv (s.sendInLoop m res) := by
  have htrace : halfCloses (s.sendInLoop m res).trace = halfCloses s.trace :=
    State.halfCloses_perform_quiet (Endpoint.quiet_sendInLoop () m.payload res s.endpoint)
  intro hclosed
  rw [State.HalfClosed, htrace] at hclosed
  rw [(sendInLoop_idle res fun hworks => hnot ⟨hclosed, hworks⟩).1]
  exact h hclosed

/-! ### The other members -/

/-- A half closed connection is not writable. -/
theorem handleWrite_idle (h : s.conn.channel.isWriting = false) (res : WriteResult) :
    s.endpoint.handleWrite () res = s.endpoint := by
  unfold Endpoint.handleWrite
  exact if_neg (by simp [State.endpoint, h])

theorem Inv.handleWrite (h : Inv s) {res : WriteResult} (hadm : res.Admissible s.conn.unsent) :
    Inv (s.handleWrite res) := by
  intro hclosed
  have htrace : halfCloses (s.handleWrite res).trace = halfCloses s.trace :=
    State.halfCloses_perform_quiet (Endpoint.quiet_handleWrite (e := s.endpoint) () hadm)
  rw [State.HalfClosed, htrace] at hclosed
  have hconn : (s.handleWrite res).conn = s.conn :=
    congrArg Endpoint.conn (handleWrite_idle (h hclosed) res)
  rw [hconn]
  exact h hclosed

theorem Inv.shutdownInLoop (h : Inv s) : Inv s.shutdownInLoop := by
  cases hw : s.conn.channel.isWriting with
  | true =>
    have hsame : s.endpoint.shutdownInLoop = s.endpoint :=
      Endpoint.shutdownInLoop_of_isWriting hw
    rw [State.shutdownInLoop, State.perform_id hsame]
    exact h.congr rfl rfl
  | false =>
    intro _
    have hconn : s.shutdownInLoop.conn = s.conn :=
      congrArg Endpoint.conn (Endpoint.shutdownInLoop_of_not_isWriting (e := s.endpoint) hw)
    rw [hconn]
    exact hw

/-- A member that leaves the output alone. -/
theorem silent_perform {f : Endpoint Unit → Endpoint Unit}
    (hsent : sent (f s.endpoint).trace = [])
    (houtput : (f s.endpoint).conn.outputBuffer = s.conn.outputBuffer) :
    (s.perform f).wire = s.wire ∧
      (s.perform f).conn.outputBuffer.content <:+ s.conn.outputBuffer.content := by
  refine ⟨?_, ?_⟩
  · show sent (s.trace ++ (f s.endpoint).trace) = sent s.trace
    rw [sent_append, hsent, List.append_nil]
  · show (f s.endpoint).conn.outputBuffer.content <:+ _
    rw [houtput]

theorem silent_shutdownInLoop (s : State T) : s.shutdownInLoop.wire = s.wire ∧
    s.shutdownInLoop.conn.outputBuffer.content <:+ s.conn.outputBuffer.content := by
  refine silent_perform (f := Endpoint.shutdownInLoop) ?_ ?_
  · rw [Endpoint.shutdownInLoop]
    split_ifs <;> rfl
  · rw [Endpoint.shutdownInLoop]
    split_ifs <;> rfl

section Step

variable [DecidableEq T] {loopThread : T} {a : Label T}

/-- A step that runs no member which writes. -/
theorem silent_iff_of_none (hnone : message? loopThread s a = none)
    (ha : ∀ res, a ≠ .handleWrite res)
    (h : s'.wire = s.wire ∧ s'.conn.outputBuffer.content <:+ s.conn.outputBuffer.content) :
    Silent loopThread s a s' ↔ ¬ Late loopThread s a := by
  constructor
  · rintro - ⟨-, m, hm, -⟩
    exact absurd (hnone.symm.trans hm) (by simp)
  · intro _ _
    refine ⟨?_, h⟩
    rintro (⟨⟨res, rfl⟩, -⟩ | ⟨hsome, -⟩)
    · exact ha res rfl
    · rw [hnone] at hsome
      exact absurd hsome (by simp)

/-- A step that runs `sendInLoop`, in a state that differs in calls and queues. -/
theorem silent_iff_of_some {m : Message T} {res : WriteResult} {s₁ : State T}
    (hsome : message? loopThread s a = some m) (ha : ∀ res, a ≠ .handleWrite res)
    (hconn : s₁.conn = s.conn) (htrace : s₁.trace = s.trace) :
    Silent loopThread s a (s₁.sendInLoop m res) ↔ ¬ Late loopThread s a := by
  have hhalf : s₁.HalfClosed ↔ s.HalfClosed := by rw [State.HalfClosed, htrace, State.HalfClosed]
  have hwire : s₁.wire = s.wire := by rw [State.wire, htrace, State.wire]
  have hworks : Works s₁ m ↔ Works s m := by rw [Works, hconn, Works]
  have hlate : Late loopThread s a ↔ s.HalfClosed ∧ Works s m := by
    constructor
    · rintro ⟨hclosed, m', hm', hw⟩
      obtain rfl := Option.some.inj (hsome.symm.trans hm')
      exact ⟨hclosed, hw⟩
    · rintro ⟨hclosed, hw⟩
      exact ⟨hclosed, m, hsome, hw⟩
  have hwrites : Writes loopThread s a ↔
      s.conn.state ≠ .kDisconnected ∧ s.conn.writesDirectly = true := by
    constructor
    · rintro (⟨⟨res, rfl⟩, -⟩ | ⟨-, hw⟩)
      · exact absurd rfl (ha res)
      · exact hw
    · intro hw
      exact .inr ⟨by rw [hsome]; rfl, hw⟩
  have hmember := silent_sendInLoop_iff (s := s₁) m res
  rw [hhalf, hworks, hconn, hwire] at hmember
  rw [Silent, hwrites, hlate]
  exact hmember

theorem Inv.sendInLoop_step (h : Inv s) {m : Message T} {res : WriteResult} {s₁ : State T}
    (hsome : message? loopThread s a = some m) (hlate : ¬ Late loopThread s a)
    (hconn : s₁.conn = s.conn) (htrace : s₁.trace = s.trace) : Inv (s₁.sendInLoop m res) := by
  have hs₁ : Inv s₁ := h.congr (by rw [htrace]) (by rw [hconn])
  refine hs₁.sendInLoop ?_
  rintro ⟨hclosed, hworks⟩
  rw [State.HalfClosed, htrace] at hclosed
  rw [Works, hconn] at hworks
  exact hlate ⟨hclosed, m, hsome, hworks⟩

theorem inv_move (h : Inv s) (hlate : ¬ Late loopThread s a) (hmove : Move loopThread s a s') :
    Inv s' := by
  cases hmove with
  | @sendDirect m res hcall =>
    exact h.sendInLoop_step (by simp [message?, hcall]) hlate rfl rfl
  | @runSend m rest res _ hrest =>
    exact h.sendInLoop_step (by simp [message?, hrest]) hlate rfl rfl
  | shutdownDirect =>
    have hset : Inv (s.setCall loopThread .idle) := h
    exact hset.shutdownInLoop
  | @runShutdown rest =>
    have hrun : Inv { s with rest := rest } := h
    exact hrun.shutdownInLoop
  | established =>
    -- only `EPOLLIN` is added
    refine h.perform (f := Endpoint.connectionEstablished ()) rfl (.inl ?_)
    exact Channel.enableReading_isWriting _ _ _
  | endOfFile =>
    exact h.perform (f := Endpoint.handleClose ()) rfl (.inr (Channel.disableAll_isWriting _ _ _))
  | @handleRead res _ _ hne =>
    obtain ⟨-, hchannel, -⟩ := Endpoint.handleRead_of_ne () hne s.endpoint
    refine h.perform ?_ (.inl (by rw [hchannel]; rfl))
    cases res with
    | failed errno => rfl
    | read data =>
      cases data with
      | nil => exact absurd rfl hne
      | cons b bs => rfl
  | handleWrite _ _ hadm => exact h.handleWrite hadm
  | handleClose =>
    exact h.perform (f := Endpoint.handleClose ()) rfl (.inr (Channel.disableAll_isWriting _ _ _))
  | handleError => exact h.perform rfl (.inl rfl)
  | disconnect =>
    exact h.perform (f := Endpoint.disconnect ()) rfl (.inr (Channel.disableAll_isWriting _ _ _))
  | remove =>
    refine h.perform (f := Endpoint.removeChannel ()) rfl (.inl ?_)
    exact Channel.isWriting_congr (Channel.remove_events s.conn.channel s.poller ())
  | _ => exact h

theorem silent_move (h : Inv s) (hmove : Move loopThread s a s') :
    Silent loopThread s a s' ↔ ¬ Late loopThread s a := by
  cases hmove with
  | @sendDirect m res hcall =>
    exact silent_iff_of_some (by simp [message?, hcall]) (by simp) rfl rfl
  | @runSend m rest res _ hrest =>
    exact silent_iff_of_some (by simp [message?, hrest]) (by simp) rfl rfl
  | sendQueue hcall hne =>
    exact silent_iff_of_none (by simp [message?, hcall, hne]) (by simp) ⟨rfl, List.suffix_rfl⟩
  | runShutdown _ hrest =>
    exact silent_iff_of_none (by simp [message?, hrest]) (by simp) (silent_shutdownInLoop _)
  | runNotice _ hrest =>
    exact silent_iff_of_none (by simp [message?, hrest]) (by simp) ⟨rfl, List.suffix_rfl⟩
  | shutdownDirect => exact silent_iff_of_none rfl (by simp) (silent_shutdownInLoop _)
  | established => exact silent_iff_of_none rfl (by simp) (silent_perform rfl rfl)
  | endOfFile => exact silent_iff_of_none rfl (by simp) (silent_perform rfl rfl)
  | @handleRead res _ _ hne =>
    refine silent_iff_of_none rfl (by simp) ?_
    cases res with
    | failed errno => exact silent_perform rfl rfl
    | read data =>
      cases data with
      | nil => exact absurd rfl hne
      | cons b bs => exact silent_perform rfl rfl
  | @handleWrite res _ _ _ =>
    constructor
    · rintro - ⟨-, m, hm, -⟩
      exact absurd hm (by simp [message?])
    · intro _ hclosed
      -- after the half close the channel is not armed: `handleWrite` does nothing
      have hidle : s.endpoint.handleWrite () res = s.endpoint := handleWrite_idle (h hclosed) res
      refine ⟨?_, ?_, ?_⟩
      · rintro (⟨-, hwriting⟩ | ⟨hsome, -⟩)
        · rw [h hclosed] at hwriting
          exact absurd hwriting (by simp)
        · exact absurd hsome (by simp [message?])
      · exact (silent_perform (by rw [hidle]; rfl) (by rw [hidle]; rfl)).1
      · exact (silent_perform (by rw [hidle]; rfl) (by rw [hidle]; rfl)).2
  | handleClose => exact silent_iff_of_none rfl (by simp) (silent_perform rfl rfl)
  | handleError => exact silent_iff_of_none rfl (by simp) (silent_perform rfl rfl)
  | disconnect => exact silent_iff_of_none rfl (by simp) (silent_perform rfl rfl)
  | remove => exact silent_iff_of_none rfl (by simp) (silent_perform rfl rfl)
  | _ => exact silent_iff_of_none rfl (by simp) ⟨rfl, List.suffix_rfl⟩

/-- Exactly the runs without a late `sendInLoop` are silent after the half
close. -/
theorem silent_iff (h : (system loopThread).init s) (as : List (Label T)) :
    (system loopThread).StepsRelate (Silent loopThread) s as ↔
      (system loopThread).StepsMeet (fun s a => ¬ Late loopThread s a) s as :=
  Machine.stepsRelate_iff_stepsMeet (I := Inv)
    (fun _ _ _ hi hlate hstep => inv_move hi hlate (move_of_system hstep).2)
    (fun _ _ _ hi hstep => silent_move hi (move_of_system hstep).2) as (inv_start h)

end Step

theorem silent_iff_shutdown :
    (system 0).StepsRelate (Silent 0) fresh
        [.connectionEstablished, .shutdown 0, .store 0, .shutdownBody 0] ↔
      (system 0).StepsMeet (fun s a => ¬ Late 0 s a) fresh
        [.connectionEstablished, .shutdown 0, .store 0, .shutdownBody 0] :=
  silent_iff (start_make (TcpConnection.make_fresh 5 false)) _

/-- The loop thread's `shutdown` overtakes a message queued by thread 1: there is a
`::write` after the half close, which fails with `EPIPE`. -/
theorem queued_send_after_halfClose :
    ¬ (system 0).StepsRelate (Silent 0) fresh
      [.connectionEstablished, .send 1 [1], .sendBody 1 (.wrote 1), .shutdown 0, .store 0,
        .shutdownBody 0, .swap, .runFunctor (.failed .EPIPE .EPIPE)] := by
  intro h
  have hrun : ∃ t u, (system 0).run fresh
      [.connectionEstablished, .send 1 [1], .sendBody 1 (.wrote 1), .shutdown 0, .store 0,
        .shutdownBody 0, .swap] = some t ∧
      (system 0).step t (.runFunctor (.failed .EPIPE .EPIPE)) = some u ∧
      t.HalfClosed ∧ Writes 0 t (.runFunctor (.failed .EPIPE .EPIPE)) :=
    ⟨_, _, rfl, rfl, by decide, .inr ⟨rfl, by decide, by decide⟩⟩
  obtain ⟨t, u, ht, hu, hhalf, hwrites⟩ := hrun
  have hsilent := Machine.StepsRelate.at [.connectionEstablished, .send 1 [1],
    .sendBody 1 (.wrote 1), .shutdown 0, .store 0, .shutdownBody 0, .swap] [] h ht hu hhalf
  exact hsilent.1 hwrites

end WriteEnd

end ConnectionLoop

end Moduo
