/-
A connection seen without the other channels of its poller.

The poller of a loop serves many channels.  `EPollPoller.view` keeps what it holds
for one of them, under the pointer `this`, as if it served no other.

* `Endpoint.view_sendInLoop`, `Endpoint.view_handleWrite`, … — every member does to
  the view what it does to the endpoint;
* `Endpoint.Elsewhere` — no member touches the entries of other descriptors.
-/
import Moduo.TcpConnection

namespace Moduo

namespace EPollPoller

theorem update_channels {ι : Type*} (p : EPollPoller ι) (op : CtlOp) (ptr : ι) (ch : Channel) :
    (p.update op ptr ch).channels = p.channels := by
  rw [update]
  split
  · rfl
  · split_ifs <;> rfl

/-- Whatever `updateChannel` adds to the map is the pointer it was given. -/
theorem updateChannel_channels {ι : Type*} {p : EPollPoller ι} {ptr q : ι} {ch : Channel} {fd : ℕ}
    (h : (p.updateChannel ptr ch).2.channels fd = some q) :
    q = ptr ∨ p.channels fd = some q := by
  simp only [updateChannel] at h
  split_ifs at h with hindex hnew
  · rw [update_channels] at h
    dsimp only at h
    by_cases hfd : fd = ch.fd
    · rw [hfd, Function.update_self] at h
      exact .inl (Option.some.inj h).symm
    · exact .inr ((Function.update_of_ne hfd _ _).symm.trans h)
  · exact .inr (update_channels p _ _ _ ▸ h)
  · exact .inr (update_channels p _ _ _ ▸ h)
  · exact .inr (update_channels p _ _ _ ▸ h)

variable {ι : Type*} [DecidableEq ι] {this : ι} {fd : ℕ} {p : EPollPoller ι} {ch : Channel}

/-- What the poller holds for the channel `this` on descriptor `fd`. -/
def view (this : ι) (fd : ℕ) (p : EPollPoller ι) : EPollPoller Unit where
  channels fd' := if fd' = fd ∧ p.channels fd' = some this then some () else none
  epoll fd' := if fd' = fd then (p.epoll fd').map fun e => (e.1, ()) else none
  exited := p.exited

theorem view_congr {q : EPollPoller ι} (hchannels : q.channels fd = p.channels fd)
    (hepoll : q.epoll fd = p.epoll fd) (hexited : q.exited = p.exited) :
    q.view this fd = p.view this fd := by
  simp only [view, mk.injEq]
  refine ⟨funext fun fd' => ?_, funext fun fd' => ?_, hexited⟩
  · by_cases hfd : fd' = fd
    · rw [hfd, hchannels]
    · simp [hfd]
  · by_cases hfd : fd' = fd
    · rw [hfd, hepoll]
    · simp [hfd]

/-- Nothing is held for the channel. -/
theorem view_eq_empty (hchannels : p.channels fd ≠ some this) (hepoll : p.epoll fd = none)
    (hexited : p.exited = false) : p.view this fd = empty := by
  simp only [view, empty, mk.injEq]
  refine ⟨funext fun fd' => ?_, funext fun fd' => ?_, hexited⟩
  · by_cases hfd : fd' = fd
    · rw [hfd, if_neg fun h => hchannels h.2]
    · rw [if_neg fun h => hfd h.1]
  · by_cases hfd : fd' = fd
    · rw [hfd, if_pos rfl, hepoll]
      rfl
    · rw [if_neg hfd]

theorem view_channels_update (this : ι) (fd : ℕ) (p : EPollPoller ι) (entry : Option ι)
    (hentry : entry = some this ∨ entry = none) :
    { p with channels := Function.update p.channels fd entry }.view this fd =
      { p.view this fd with
        channels := Function.update (p.view this fd).channels fd (entry.map fun _ => ()) } := by
  simp only [view, mk.injEq, and_true]
  funext fd'
  by_cases hfd : fd' = fd
  · subst hfd
    rcases hentry with rfl | rfl
    · simp
    · simp
  · simp [hfd]

theorem view_epoll_update (entry : Option (EventMask × ι)) :
    { p with epoll := Function.update p.epoll fd entry }.view this fd =
      { p.view this fd with
        epoll := Function.update (p.view this fd).epoll fd (entry.map fun e => (e.1, ())) } := by
  simp only [view, mk.injEq, true_and, and_true]
  funext fd'
  by_cases hfd : fd' = fd
  · subst hfd
    simp
  · simp [hfd]

theorem view_update (this : ι) (p : EPollPoller ι) (ch : Channel) (op : CtlOp) :
    (p.update op this ch).view this ch.fd = (p.view this ch.fd).update op () ch := by
  have hslot : (p.view this ch.fd).epoll ch.fd = (p.epoll ch.fd).map fun e => (e.1, ()) := by
    simp [view]
  cases hentry : p.epoll ch.fd with
  | none =>
    rw [hentry] at hslot
    cases op
    · simp [update, Epoll.ctl, hentry, hslot, view_epoll_update]
    · simp [update, Epoll.ctl, hentry, hslot]
      rfl
    · simp [update, Epoll.ctl, hentry, hslot]
  | some e =>
    rw [hentry] at hslot
    cases op
    · simp [update, Epoll.ctl, hentry, hslot]
      rfl
    · simp [update, Epoll.ctl, hentry, hslot, view_epoll_update]
    · simp [update, Epoll.ctl, hentry, hslot, view_epoll_update]

theorem view_updateChannel (this : ι) (p : EPollPoller ι) (ch : Channel) :
    (p.updateChannel this ch).2.view this ch.fd = ((p.view this ch.fd).updateChannel () ch).2 := by
  simp only [updateChannel]
  by_cases hindex : ch.index = .kNew ∨ ch.index = .kDeleted
  · rw [if_pos hindex, if_pos hindex]
    refine (view_update this _ { ch with index := .kAdded } .ADD).trans ?_
    by_cases hnew : ch.index = .kNew
    · rw [if_pos hnew, if_pos hnew]
      exact congrArg (fun q => EPollPoller.update q .ADD () { ch with index := .kAdded })
        (view_channels_update this ch.fd p (some this) (.inl rfl))
    · rw [if_neg hnew, if_neg hnew]
  · rw [if_neg hindex, if_neg hindex]
    by_cases hnone : ch.isNoneEvent = true
    · rw [if_pos hnone, if_pos hnone]
      exact view_update this p ch .DEL
    · rw [if_neg hnone, if_neg hnone]
      exact view_update this p ch .MOD

theorem view_removeChannel (this : ι) (p : EPollPoller ι) (ch : Channel) :
    (p.removeChannel this ch).2.view this ch.fd = ((p.view this ch.fd).removeChannel () ch).2 := by
  simp only [removeChannel]
  by_cases hindex : ch.index = .kAdded
  · rw [if_pos hindex, if_pos hindex]
    have h := view_channels_update this ch.fd (p.update .DEL this ch) none (.inr rfl)
    rw [view_update] at h
    exact h
  · rw [if_neg hindex, if_neg hindex]

end EPollPoller

/-- Other descriptors do not notice what a channel is interested in. -/
theorem Channel.setEvents_other {ι : Type*} (f : EventMask → EventMask) (ptr : ι) (ch : Channel)
    (p : EPollPoller ι) {fd : ℕ} (hfd : fd ≠ ch.fd) :
    (setEvents f ptr ch p).2.channels fd = p.channels fd ∧
      (setEvents f ptr ch p).2.epoll fd = p.epoll fd :=
  EPollPoller.updateChannel_other hfd

namespace Endpoint

section Elsewhere

variable {ι : Type*} {this : ι} {e : Endpoint ι}

/-- The descriptor and the entries of all other descriptors are as before, and a
new entry carries `this`. -/
structure Elsewhere (this : ι) (e e' : Endpoint ι) : Prop where
  fd : e'.conn.channel.fd = e.conn.channel.fd
  channels : ∀ fd, fd ≠ e.conn.channel.fd → e'.poller.channels fd = e.poller.channels fd
  epoll : ∀ fd, fd ≠ e.conn.channel.fd → e'.poller.epoll fd = e.poller.epoll fd
  added : ∀ p, e'.poller.channels e.conn.channel.fd = some p →
    p = this ∨ e.poller.channels e.conn.channel.fd = some p

theorem Elsewhere.of_eq {e' : Endpoint ι} (hfd : e'.conn.channel.fd = e.conn.channel.fd)
    (hpoller : e'.poller = e.poller) : Elsewhere this e e' :=
  ⟨hfd, fun _ _ => by rw [hpoller], fun _ _ => by rw [hpoller], fun _ h => .inr (hpoller ▸ h)⟩

theorem Elsewhere.trans {e₁ e₂ e₃ : Endpoint ι} (h : Elsewhere this e₁ e₂)
    (h' : Elsewhere this e₂ e₃) : Elsewhere this e₁ e₃ where
  fd := h'.fd.trans h.fd
  channels fd hne := (h'.channels fd (h.fd ▸ hne)).trans (h.channels fd hne)
  epoll fd hne := (h'.epoll fd (h.fd ▸ hne)).trans (h.epoll fd hne)
  added p hp := by
    rw [← h.fd] at hp
    rcases h'.added p hp with hthis | hold
    · exact .inl hthis
    · rw [h.fd] at hold
      exact h.added p hold

theorem elsewhere_setEvents (this : ι) (f : EventMask → EventMask) (e : Endpoint ι) :
    Elsewhere this e (e.onChannel (Channel.setEvents f this)) := by
  have hother := @Channel.setEvents_other _ f this e.conn.channel e.poller
  refine ⟨?_, fun _ hfd => (hother hfd).1, fun _ hfd => (hother hfd).2,
    fun p hp => EPollPoller.updateChannel_channels hp⟩
  show (Channel.setEvents f this e.conn.channel e.poller).1.fd = _
  rw [Channel.setEvents_fst]

theorem elsewhere_bufferRemaining (this : ι) (remaining : List Byte) (e : Endpoint ι) :
    Elsewhere this e (e.bufferRemaining this remaining) := by
  by_cases hne : remaining = []
  · rw [hne]
    exact .of_eq rfl rfl
  · have hconn := notifyHighWaterMark_conn remaining.length e
    have hput : Elsewhere this e ((e.notifyHighWaterMark remaining.length).setOutput
        (e.conn.outputBuffer.put remaining)) :=
      .of_eq (congrArg (fun c => c.channel.fd) hconn) (notifyHighWaterMark_poller _ e)
    rw [bufferRemaining_eq hne]
    dsimp only
    split_ifs
    · exact hput.trans (elsewhere_setEvents this _ _)
    · exact hput

theorem elsewhere_sendInLoop (this : ι) (message : List Byte) (res : WriteResult)
    (e : Endpoint ι) : Elsewhere this e (e.sendInLoop this message res) := by
  by_cases hd : e.conn.Drops res
  · rw [sendInLoop_dropped hd]
    exact .of_eq rfl rfl
  · rcases sendInLoop_kept this message hd with heq | ⟨n, -, heq⟩
    · rw [heq]
      exact elsewhere_bufferRemaining this message e
    · rw [heq]
      exact Elsewhere.trans (.of_eq (by rw [directWrite_conn]) (directWrite_poller message n e))
        (elsewhere_bufferRemaining this _ _)

theorem elsewhere_shutdownInLoop (this : ι) (e : Endpoint ι) :
    Elsewhere this e e.shutdownInLoop := by
  rw [shutdownInLoop]
  split_ifs
  · exact .of_eq rfl rfl
  · exact .of_eq rfl rfl

theorem elsewhere_connectionEstablished (this : ι) (e : Endpoint ι) :
    Elsewhere this e (e.connectionEstablished this) := by
  have htied : Elsewhere this e ((e.setState .kConnected).onChannel
      fun ch p => ({ ch with tied := true }, p)) := .of_eq rfl rfl
  have hset := htied.trans (elsewhere_setEvents this (· ||| Channel.kReadEvent) _)
  exact ⟨hset.fd, hset.channels, hset.epoll, hset.added⟩

theorem elsewhere_disconnect (this : ι) (e : Endpoint ι) :
    Elsewhere this e (e.disconnect this) := by
  have hset := elsewhere_setEvents this (fun _ => Channel.kNoneEvent)
    (e.setState .kDisconnected)
  exact ⟨hset.fd, hset.channels, hset.epoll, hset.added⟩

theorem elsewhere_handleRead (this : ι) (res : ReadResult) (e : Endpoint ι) :
    Elsewhere this e (e.handleRead this res) := by
  cases res with
  | failed errno => exact .of_eq rfl rfl
  | read data =>
    cases data with
    | nil => exact (elsewhere_disconnect this e).trans (.of_eq rfl rfl)
    | cons b bs => exact .of_eq rfl rfl

theorem elsewhere_handleWrite (this : ι) {res : WriteResult}
    (hadm : res.Admissible e.conn.unsent) : Elsewhere this e (e.handleWrite this res) := by
  by_cases hd : e.Drains res
  · have hwrite : Elsewhere this e (e.deferredWrite e.conn.unsent) := .of_eq rfl rfl
    have hset := hwrite.trans (elsewhere_setEvents this (· &&& Channel.kWriteEvent) _)
    rw [handleWrite_drains this hd, drained]
    exact hset.trans (.of_eq (congrArg (fun c => c.channel.fd) (notifyWriteComplete_conn _))
      (notifyWriteComplete_poller _))
  · rcases handleWrite_partial this hd hadm with heq | ⟨n, -, heq⟩
    · rw [heq]
      exact .of_eq rfl rfl
    · rw [heq]
      exact .of_eq rfl rfl

theorem elsewhere_removeChannel (this : ι) (e : Endpoint ι) :
    Elsewhere this e (e.removeChannel this) := by
  by_cases hindex : e.conn.channel.index = .kAdded
  · have heq : Channel.remove this e.conn.channel e.poller = _ :=
      EPollPoller.removeChannel_added hindex
    rw [removeChannel, onChannel, heq]
    refine ⟨rfl, fun fd hfd => Function.update_of_ne hfd _ _,
      fun fd hfd => Function.update_of_ne hfd _ _, fun p hp => ?_⟩
    simp at hp
  · have heq : Channel.remove this e.conn.channel e.poller = _ :=
      EPollPoller.removeChannel_not_added hindex
    rw [removeChannel, onChannel, heq]
    exact .of_eq rfl rfl

end Elsewhere

section View

variable {ι : Type*} [DecidableEq ι] {this : ι} {e : Endpoint ι}

/-- The endpoint on a poller of its own. -/
def view (this : ι) (e : Endpoint ι) : Endpoint Unit :=
  ⟨e.conn, e.poller.view this e.conn.channel.fd, e.trace⟩

@[simp] theorem view_conn : (e.view this).conn = e.conn := rfl

@[simp] theorem view_trace : (e.view this).trace = e.trace := rfl

theorem view_emit (x : Effect) : (e.emit x).view this = (e.view this).emit x := rfl

theorem view_setOutput (q : Fifo Byte) : (e.setOutput q).view this = (e.view this).setOutput q :=
  rfl

theorem view_setEvents (this : ι) (e : Endpoint ι) (f : EventMask → EventMask) :
    (e.onChannel (Channel.setEvents f this)).view this =
      (e.view this).onChannel (Channel.setEvents f ()) := by
  have hfd : (Channel.setEvents f this e.conn.channel e.poller).1.fd = e.conn.channel.fd := by
    rw [Channel.setEvents_fst]
  have hpoller := EPollPoller.view_updateChannel this e.poller
    { e.conn.channel with events := f e.conn.channel.events }
  simp only [view, onChannel, hfd, mk.injEq, and_true]
  refine ⟨?_, hpoller⟩
  rw [Channel.setEvents_fst, Channel.setEvents_fst]

theorem view_notifyWriteComplete :
    e.notifyWriteComplete.view this = (e.view this).notifyWriteComplete := by
  rw [notifyWriteComplete, apply_ite (view this)]
  rfl

theorem view_notifyHighWaterMark (n : ℕ) :
    (e.notifyHighWaterMark n).view this = (e.view this).notifyHighWaterMark n := by
  unfold notifyHighWaterMark
  dsimp only
  rw [apply_ite (view this)]
  rfl

theorem view_bufferRemaining (remaining : List Byte) :
    (e.bufferRemaining this remaining).view this =
      (e.view this).bufferRemaining () remaining := by
  by_cases hne : remaining = []
  · rw [hne]
    rfl
  · rw [bufferRemaining_eq hne, bufferRemaining_eq hne]
    dsimp only
    rw [view_conn, ← view_notifyHighWaterMark, ← view_setOutput]
    split_ifs
    · exact view_setEvents this _ _
    · rfl

theorem view_directWrite (message : List Byte) (n : ℕ) :
    (e.directWrite message n).view this = (e.view this).directWrite message n := by
  simp only [directWrite, ← view_emit]
  split_ifs
  · exact view_notifyWriteComplete
  · rfl

variable (this e)

theorem view_sendInLoop (message : List Byte) (res : WriteResult) :
    (e.sendInLoop this message res).view this = (e.view this).sendInLoop () message res := by
  by_cases hd : e.conn.Drops res
  · have hd' : (e.view this).conn.Drops res := hd
    rw [sendInLoop_dropped hd, sendInLoop_dropped hd']
  · unfold sendInLoop
    rw [view_conn]
    by_cases hstate : e.conn.state = .kDisconnected
    · exact absurd (.inl hstate) hd
    · rw [if_neg hstate, if_neg hstate]
      by_cases hdirect : e.conn.writesDirectly = true
      · rw [if_pos hdirect, if_pos hdirect]
        cases res with
        | wrote n =>
          show ((e.directWrite message n).bufferRemaining this (message.drop n)).view this = _
          rw [view_bufferRemaining, view_directWrite]
        | failed errno logged =>
          have hfault : ¬ (WriteResult.failed errno logged).isFault = true := fun h =>
            hd (.inr ⟨hdirect, h⟩)
          dsimp only
          rw [if_neg hfault, if_neg hfault, view_bufferRemaining]
      · rw [if_neg hdirect, if_neg hdirect, view_bufferRemaining]

theorem view_shutdownInLoop : e.shutdownInLoop.view this = (e.view this).shutdownInLoop := by
  rw [shutdownInLoop, apply_ite (view this)]
  rfl

theorem view_connectionEstablished :
    (e.connectionEstablished this).view this = (e.view this).connectionEstablished () := by
  have hset := view_setEvents this
    ((e.setState .kConnected).onChannel fun ch p => ({ ch with tied := true }, p))
    (· ||| Channel.kReadEvent)
  unfold connectionEstablished
  dsimp only
  rw [view_emit]
  exact congrArg (fun e' : Endpoint Unit => e'.emit (.connectionCallback e'.conn.connected)) hset

theorem view_disconnect :
    (e.disconnect this).view this = (e.view this).disconnect () := by
  have hset := view_setEvents this (e.setState .kDisconnected)
    (fun _ => Channel.kNoneEvent)
  unfold disconnect
  dsimp only
  rw [view_emit]
  exact congrArg (fun e' : Endpoint Unit => e'.emit (.connectionCallback e'.conn.connected)) hset

theorem view_handleClose :
    (e.handleClose this).view this = (e.view this).handleClose () := by
  rw [handleClose, view_emit, view_disconnect, handleClose]

theorem view_removeChannel :
    (e.removeChannel this).view this = (e.view this).removeChannel () := by
  have hpoller := EPollPoller.view_removeChannel this e.poller e.conn.channel
  simp only [removeChannel, view, onChannel, mk.injEq, and_true]
  exact ⟨rfl, hpoller⟩

theorem view_handleRead (res : ReadResult) :
    (e.handleRead this res).view this = (e.view this).handleRead () res := by
  cases res with
  | failed errno => rfl
  | read data =>
    cases data with
    | nil => exact view_handleClose this e
    | cons b bs => rfl

theorem view_handleWrite (res : WriteResult) :
    (e.handleWrite this res).view this = (e.view this).handleWrite () res := by
  unfold handleWrite
  rw [view_conn]
  by_cases hwriting : e.conn.channel.isWriting = true
  · rw [if_pos hwriting, if_pos hwriting]
    cases res with
    | failed errno logged => rfl
    | wrote n =>
      by_cases hn : n > 0
      · have hset : (((e.deferredWrite n).onChannel
            (Channel.disableWriting this)).notifyWriteComplete).view this =
            (((e.view this).deferredWrite n).onChannel
              (Channel.disableWriting ())).notifyWriteComplete := by
          rw [view_notifyWriteComplete]
          exact congrArg notifyWriteComplete (view_setEvents this (e.deferredWrite n) _)
        simp only [deferredWrite, view_conn] at hset
        dsimp only
        rw [if_pos hn, if_pos hn, ← hset, apply_ite (view this), apply_ite (view this),
          view_shutdownInLoop]
        rfl
      · dsimp only
        rw [if_neg hn, if_neg hn]
  · rw [if_neg hwriting, if_neg hwriting]

end View

end Endpoint

end Moduo
