/-
Channels and their poller (`Channel.h`, `EPollPoller.cc`).

A `Channel` keeps the events it is interested in and its registration state
`index`; the `EPollPoller` of its loop keeps `channels`, the map from
descriptors to channel pointers, and drives the kernel's epoll set with
`epoll_ctl`.  `ι` is the type of channel pointers.

* `Epoll.ctl` — the kernel: `EPOLL_CTL_ADD` fails exactly on a descriptor that
  is in the set, `MOD` and `DEL` exactly on one that is not;
* `EPollPoller.updateChannel`, `removeChannel` — the branches on `index`, with
  one equation for each outcome of the system call;
* `Channel.enableReading`, …, `disableAll`, `remove` — the calls on a channel,
  which all end in one of the two.
-/
import Mathlib.Tactic

namespace Moduo

/-- Bits of `epoll_event::events`. -/
abbrev EventMask := BitVec 32

def EPOLLIN : EventMask := 0x001
def EPOLLPRI : EventMask := 0x002
def EPOLLOUT : EventMask := 0x004
def EPOLLERR : EventMask := 0x008
def EPOLLHUP : EventMask := 0x010

/-- The three values of `Channel::index_`. -/
inductive Index
  | kNew
  | kAdded
  | kDeleted
  deriving DecidableEq, Repr

/-- `revents_` is not here: it only carries the events of one report from `poll`
to `handleEvent`. -/
structure Channel where
  fd : ℕ
  events : EventMask
  index : Index
  tied : Bool
  deriving DecidableEq, Repr

namespace Channel

def kNoneEvent : EventMask := 0
def kReadEvent : EventMask := EPOLLIN ||| EPOLLPRI
def kWriteEvent : EventMask := EPOLLOUT

/-- A channel as its constructor leaves it. -/
def make (fd : ℕ) : Channel := ⟨fd, 0, .kNew, false⟩

variable (ch : Channel)

def isNoneEvent : Bool := ch.events = kNoneEvent

def isWriting : Bool := ch.events &&& kWriteEvent ≠ 0

def isReading : Bool := ch.events &&& kReadEvent ≠ 0

variable {ch}

theorem isNoneEvent_of_eq (h : ch.events = 0) : ch.isNoneEvent = true :=
  decide_eq_true h

theorem isNoneEvent_of_ne (h : ch.events ≠ 0) : ch.isNoneEvent = false :=
  decide_eq_false h

end Channel

/-! ### The kernel's epoll set -/

inductive CtlOp
  | ADD
  | MOD
  | DEL
  deriving DecidableEq, Repr

/-- The descriptors in an epoll set, each with its mask and `data.ptr`. -/
abbrev Epoll (ι : Type*) := ℕ → Option (EventMask × ι)

/-- `::epoll_ctl`; `none` is the return value `-1`. -/
def Epoll.ctl {ι : Type*} (k : Epoll ι) (op : CtlOp) (fd : ℕ) (event : EventMask × ι) :
    Option (Epoll ι) :=
  match op, k fd with
  | .ADD, none => some (Function.update k fd (some event))
  | .MOD, some _ => some (Function.update k fd (some event))
  | .DEL, some _ => some (Function.update k fd none)
  | _, _ => none

/-- A call that succeeds sets or clears the entry of its descriptor. -/
theorem Epoll.ctl_eq {ι : Type*} {k k' : Epoll ι} {op : CtlOp} {fd : ℕ} {event : EventMask × ι}
    (h : k.ctl op fd event = some k') :
    k' = Function.update k fd (some event) ∨ k' = Function.update k fd none := by
  unfold Epoll.ctl at h
  split at h
  · exact .inl (Option.some.inj h).symm
  · exact .inl (Option.some.inj h).symm
  · exact .inr (Option.some.inj h).symm
  · exact absurd h (by simp)

/-! ### The poller -/

/-- The poller of a loop with the epoll set behind its `epollfd_`; `exited`
records that `LOG_FATAL` has ended the process. -/
structure EPollPoller (ι : Type*) where
  channels : ℕ → Option ι
  epoll : Epoll ι
  exited : Bool

namespace EPollPoller

variable {ι : Type*}

def empty : EPollPoller ι := ⟨fun _ => none, fun _ => none, false⟩

/-- A failed `DEL` is logged; any other failure is `LOG_FATAL`. -/
def update (p : EPollPoller ι) (op : CtlOp) (ptr : ι) (ch : Channel) : EPollPoller ι :=
  match p.epoll.ctl op ch.fd (ch.events, ptr) with
  | some k => { p with epoll := k }
  | none => if op = .DEL then p else { p with exited := true }

def updateChannel (p : EPollPoller ι) (ptr : ι) (ch : Channel) : Channel × EPollPoller ι :=
  if ch.index = .kNew ∨ ch.index = .kDeleted then
    let q := if ch.index = .kNew then
      { p with channels := Function.update p.channels ch.fd (some ptr) } else p
    let ch' := { ch with index := .kAdded }
    (ch', q.update .ADD ptr ch')
  else if ch.isNoneEvent then
    -- `index` stays `kAdded` although the descriptor leaves the epoll set
    (ch, p.update .DEL ptr ch)
  else
    (ch, p.update .MOD ptr ch)

def removeChannel (p : EPollPoller ι) (ptr : ι) (ch : Channel) : Channel × EPollPoller ι :=
  let q := if ch.index = .kAdded then
    let r := p.update .DEL ptr ch
    { r with channels := Function.update r.channels ch.fd none } else p
  ({ ch with index := .kNew }, q)

variable {p : EPollPoller ι} {ptr : ι} {ch : Channel}

/-- Whatever the branch, the channel ends up `kAdded`. -/
@[simp] theorem updateChannel_fst (p : EPollPoller ι) (ptr : ι) (ch : Channel) :
    (p.updateChannel ptr ch).1 = { ch with index := .kAdded } := by
  simp only [updateChannel]
  by_cases h : ch.index = .kNew ∨ ch.index = .kDeleted
  · rw [if_pos h]
  · have hadded : ch.index = .kAdded := by
      cases hindex : ch.index <;> simp_all
    rw [if_neg h]
    split_ifs <;> rw [← hadded]

@[simp] theorem removeChannel_fst (p : EPollPoller ι) (ptr : ι) (ch : Channel) :
    (p.removeChannel ptr ch).1 = { ch with index := .kNew } := rfl

/-- A channel that is not added enters the map and the epoll set. -/
theorem updateChannel_add (hindex : ch.index = .kNew) (habsent : p.epoll ch.fd = none) :
    p.updateChannel ptr ch = ({ ch with index := .kAdded },
      { p with channels := Function.update p.channels ch.fd (some ptr),
               epoll := Function.update p.epoll ch.fd (some (ch.events, ptr)) }) := by
  simp [updateChannel, update, Epoll.ctl, hindex, habsent]

theorem updateChannel_readd (hindex : ch.index = .kDeleted) (habsent : p.epoll ch.fd = none) :
    p.updateChannel ptr ch = ({ ch with index := .kAdded },
      { p with epoll := Function.update p.epoll ch.fd (some (ch.events, ptr)) }) := by
  simp [updateChannel, update, Epoll.ctl, hindex, habsent]

/-- An added channel with events changes its mask. -/
theorem updateChannel_mod (hindex : ch.index = .kAdded) (hevents : ch.events ≠ 0)
    {e : EventMask × ι} (hpresent : p.epoll ch.fd = some e) :
    p.updateChannel ptr ch =
      (ch, { p with epoll := Function.update p.epoll ch.fd (some (ch.events, ptr)) }) := by
  simp [updateChannel, update, Epoll.ctl, hindex, hpresent, Channel.isNoneEvent_of_ne hevents]

/-- An added channel without events leaves the epoll set but stays added. -/
theorem updateChannel_del (hindex : ch.index = .kAdded) (hevents : ch.events = 0) :
    p.updateChannel ptr ch = (ch, { p with epoll := Function.update p.epoll ch.fd none }) := by
  cases hk : p.epoll ch.fd with
  | none =>
    have hsame : Function.update p.epoll ch.fd none = p.epoll := by
      rw [← hk, Function.update_eq_self]
    simp [updateChannel, update, Epoll.ctl, hindex, hk, Channel.isNoneEvent_of_eq hevents, hsame]
  | some e =>
    simp [updateChannel, update, Epoll.ctl, hindex, hk, Channel.isNoneEvent_of_eq hevents]

theorem removeChannel_added (hindex : ch.index = .kAdded) :
    p.removeChannel ptr ch = ({ ch with index := .kNew },
      { p with channels := Function.update p.channels ch.fd none,
               epoll := Function.update p.epoll ch.fd none }) := by
  cases hk : p.epoll ch.fd with
  | none =>
    have hsame : Function.update p.epoll ch.fd none = p.epoll := by
      rw [← hk, Function.update_eq_self]
    simp [removeChannel, update, Epoll.ctl, hindex, hk, hsame]
  | some e => simp [removeChannel, update, Epoll.ctl, hindex, hk]

theorem removeChannel_not_added (hindex : ch.index ≠ .kAdded) :
    p.removeChannel ptr ch = ({ ch with index := .kNew }, p) := by
  simp [removeChannel, hindex]

/-- Whatever an `epoll_ctl` adds to the set carries the pointer it was given. -/
theorem update_entry {op : CtlOp} {fd : ℕ} {e : EventMask × ι}
    (h : (p.update op ptr ch).epoll fd = some e) : e.2 = ptr ∨ p.epoll fd = some e := by
  rw [update] at h
  split at h
  next k hk =>
    have hentry : k fd = some e := h
    by_cases hfd : fd = ch.fd
    · subst hfd
      rcases Epoll.ctl_eq hk with rfl | rfl
      · rw [Function.update_self] at hentry
        exact .inl (Option.some.inj hentry ▸ rfl)
      · rw [Function.update_self] at hentry
        exact absurd hentry (by simp)
    · rcases Epoll.ctl_eq hk with rfl | rfl
      · exact .inr (by rwa [Function.update_of_ne hfd] at hentry)
      · exact .inr (by rwa [Function.update_of_ne hfd] at hentry)
  next =>
    split_ifs at h
    · exact .inr h
    · exact .inr h

theorem updateChannel_entry {fd : ℕ} {e : EventMask × ι}
    (h : (p.updateChannel ptr ch).2.epoll fd = some e) : e.2 = ptr ∨ p.epoll fd = some e := by
  simp only [updateChannel] at h
  by_cases hindex : ch.index = .kNew ∨ ch.index = .kDeleted
  · rw [if_pos hindex] at h
    rcases update_entry h with hptr | hold
    · exact .inl hptr
    · refine .inr ?_
      split_ifs at hold
      · exact hold
      · exact hold
  · rw [if_neg hindex] at h
    split_ifs at h
    · exact update_entry h
    · exact update_entry h

theorem update_other (p : EPollPoller ι) (op : CtlOp) (ptr : ι) (ch : Channel) {fd : ℕ}
    (hfd : fd ≠ ch.fd) : (p.update op ptr ch).channels fd = p.channels fd ∧
      (p.update op ptr ch).epoll fd = p.epoll fd := by
  rw [update]
  split
  next k hk =>
    refine ⟨rfl, ?_⟩
    show k fd = p.epoll fd
    rcases Epoll.ctl_eq hk with rfl | rfl
    · exact Function.update_of_ne hfd _ _
    · exact Function.update_of_ne hfd _ _
  next => split_ifs <;> exact ⟨rfl, rfl⟩

/-- The entries of other descriptors stay. -/
theorem updateChannel_other {fd : ℕ} (hfd : fd ≠ ch.fd) :
    (p.updateChannel ptr ch).2.channels fd = p.channels fd ∧
      (p.updateChannel ptr ch).2.epoll fd = p.epoll fd := by
  simp only [updateChannel]
  split_ifs
  · have h := update_other
      { p with channels := Function.update p.channels ch.fd (some ptr) } .ADD ptr
      { ch with index := .kAdded } hfd
    exact ⟨h.1.trans (Function.update_of_ne hfd _ _), h.2⟩
  · exact update_other p .ADD ptr { ch with index := .kAdded } hfd
  · exact update_other p .DEL ptr ch hfd
  · exact update_other p .MOD ptr ch hfd

theorem removeChannel_entry {fd : ℕ} {e : EventMask × ι}
    (h : (p.removeChannel ptr ch).2.epoll fd = some e) : e.2 = ptr ∨ p.epoll fd = some e := by
  simp only [removeChannel] at h
  split_ifs at h
  · exact update_entry h
  · exact .inr h

end EPollPoller

/-! ### Calls on a channel -/

namespace Channel

variable {ι : Type*}

/-- `events_ = f(events_); update();` -/
def setEvents (f : EventMask → EventMask) (ptr : ι) (ch : Channel) (p : EPollPoller ι) :
    Channel × EPollPoller ι :=
  p.updateChannel ptr { ch with events := f ch.events }

def enableReading (ptr : ι) (ch : Channel) (p : EPollPoller ι) : Channel × EPollPoller ι :=
  setEvents (· ||| kReadEvent) ptr ch p

def disableReading (ptr : ι) (ch : Channel) (p : EPollPoller ι) : Channel × EPollPoller ι :=
  setEvents (· &&& ~~~kReadEvent) ptr ch p

def enableWriting (ptr : ι) (ch : Channel) (p : EPollPoller ι) : Channel × EPollPoller ι :=
  setEvents (· ||| kWriteEvent) ptr ch p

/-- The mask is `kWriteEvent` itself, where `disableReading` complements its. -/
def disableWriting (ptr : ι) (ch : Channel) (p : EPollPoller ι) : Channel × EPollPoller ι :=
  setEvents (· &&& kWriteEvent) ptr ch p

def disableAll (ptr : ι) (ch : Channel) (p : EPollPoller ι) : Channel × EPollPoller ι :=
  setEvents (fun _ => kNoneEvent) ptr ch p

def remove (ptr : ι) (ch : Channel) (p : EPollPoller ι) : Channel × EPollPoller ι :=
  p.removeChannel ptr ch

@[simp] theorem setEvents_fst (f : EventMask → EventMask) (ptr : ι) (ch : Channel)
    (p : EPollPoller ι) :
    (setEvents f ptr ch p).1 = { ch with events := f ch.events, index := .kAdded } :=
  EPollPoller.updateChannel_fst p ptr _

/-- A call that leaves an added channel some event registers the new mask,
whether the channel was in the epoll set before or not. -/
theorem setEvents_registers {f : EventMask → EventMask} {ptr : ι} {ch : Channel}
    {p : EPollPoller ι} (hin : ch.index = .kAdded → ∃ e, p.epoll ch.fd = some e)
    (hout : ch.index ≠ .kAdded → p.epoll ch.fd = none)
    (hevents : ch.index = .kAdded → f ch.events ≠ 0) :
    setEvents f ptr ch p = ({ ch with events := f ch.events, index := .kAdded },
      { p with channels := if ch.index = .kNew then
                 Function.update p.channels ch.fd (some ptr) else p.channels,
               epoll := Function.update p.epoll ch.fd (some (f ch.events, ptr)) }) := by
  cases hindex : ch.index with
  | kNew =>
    have habsent : p.epoll ch.fd = none := hout (by simp [hindex])
    exact EPollPoller.updateChannel_add hindex habsent
  | kAdded =>
    obtain ⟨e, he⟩ := hin hindex
    have hmod : p.updateChannel ptr { ch with events := f ch.events } = _ :=
      EPollPoller.updateChannel_mod hindex (hevents hindex) he
    rw [setEvents, hmod]
    simp [hindex]
  | kDeleted =>
    have habsent : p.epoll ch.fd = none := hout (by simp [hindex])
    exact EPollPoller.updateChannel_readd hindex habsent

/-- `enableReading` always leaves an event. -/
theorem enableReading_registers {ptr : ι} {ch : Channel} {p : EPollPoller ι}
    (hin : ch.index = .kAdded → ∃ e, p.epoll ch.fd = some e)
    (hout : ch.index ≠ .kAdded → p.epoll ch.fd = none) :
    enableReading ptr ch p = ({ ch with events := ch.events ||| kReadEvent, index := .kAdded },
      { p with channels := if ch.index = .kNew then
                 Function.update p.channels ch.fd (some ptr) else p.channels,
               epoll := Function.update p.epoll ch.fd
                 (some (ch.events ||| kReadEvent, ptr)) }) := by
  refine setEvents_registers hin hout fun _ hzero => ?_
  exact absurd (BitVec.or_eq_zero_iff.mp hzero).2 (by decide)

/-- A call that leaves an added channel no event takes it out of the epoll set
and nothing else. -/
theorem setEvents_silences {f : EventMask → EventMask} {ptr : ι} {ch : Channel}
    {p : EPollPoller ι} (hindex : ch.index = .kAdded) (hevents : f ch.events = 0) :
    setEvents f ptr ch p = ({ ch with events := f ch.events },
      { p with epoll := Function.update p.epoll ch.fd none }) :=
  EPollPoller.updateChannel_del hindex hevents

/-- `disableWriting` keeps the write bit and clears every other one. -/
theorem disableWriting_events (ch : Channel) (p : EPollPoller ι) (ptr : ι) :
    (ch.disableWriting ptr p).1.events = ch.events &&& kWriteEvent := by
  rw [disableWriting, setEvents_fst]

/-! ### The two bits -/

/-- `events_` contains `kReadEvent`. -/
def wantsRead (ch : Channel) : Prop := ch.events &&& kReadEvent = kReadEvent

instance (ch : Channel) : Decidable ch.wantsRead :=
  inferInstanceAs (Decidable (_ = _))

theorem isWriting_congr {ch ch' : Channel} (h : ch'.events = ch.events) :
    ch'.isWriting = ch.isWriting := by
  rw [isWriting, h, isWriting]

theorem enableReading_wantsRead (ch : Channel) (p : EPollPoller ι) (ptr : ι) :
    (ch.enableReading ptr p).1.wantsRead := by
  rw [enableReading, setEvents_fst, wantsRead]
  show (ch.events ||| kReadEvent) &&& kReadEvent = kReadEvent
  rw [BitVec.and_or_distrib_right, BitVec.and_self]
  ext i
  simp

theorem enableReading_isWriting (ch : Channel) (p : EPollPoller ι) (ptr : ι) :
    (ch.enableReading ptr p).1.isWriting = ch.isWriting := by
  have hdisjoint : kReadEvent &&& kWriteEvent = 0#32 := by decide
  rw [enableReading, setEvents_fst, isWriting]
  show decide ((ch.events ||| kReadEvent) &&& kWriteEvent ≠ 0) = ch.isWriting
  rw [BitVec.and_or_distrib_right, hdisjoint, BitVec.or_zero, isWriting]

theorem enableWriting_isWriting (ch : Channel) (p : EPollPoller ι) (ptr : ι) :
    (ch.enableWriting ptr p).1.isWriting = true := by
  rw [enableWriting, setEvents_fst, isWriting]
  show decide ((ch.events ||| kWriteEvent) &&& kWriteEvent ≠ 0) = true
  have habsorb : (ch.events ||| kWriteEvent) &&& kWriteEvent = kWriteEvent := by
    ext i
    simp +contextual
  rw [habsorb]
  decide

theorem enableWriting_wantsRead {ch : Channel} (h : ch.wantsRead) (p : EPollPoller ι)
    (ptr : ι) : (ch.enableWriting ptr p).1.wantsRead := by
  rw [wantsRead] at h
  rw [enableWriting, setEvents_fst, wantsRead]
  show (ch.events ||| kWriteEvent) &&& kReadEvent = kReadEvent
  rw [BitVec.and_or_distrib_right, h]
  decide

theorem disableWriting_isWriting (ch : Channel) (p : EPollPoller ι) (ptr : ι) :
    (ch.disableWriting ptr p).1.isWriting = ch.isWriting := by
  rw [isWriting, disableWriting_events, BitVec.and_assoc, BitVec.and_self, isWriting]

theorem disableWriting_not_wantsRead (ch : Channel) (p : EPollPoller ι) (ptr : ι) :
    ¬ (ch.disableWriting ptr p).1.wantsRead := by
  have hdisjoint : kWriteEvent &&& kReadEvent = 0#32 := by decide
  rw [wantsRead, disableWriting_events, BitVec.and_assoc, hdisjoint, BitVec.and_zero]
  decide

/-- `EPOLLPRI` is registered together with `EPOLLIN` only. -/
def Paired (ch : Channel) : Prop := ch.events &&& EPOLLIN = 0 → ch.events &&& EPOLLPRI = 0

theorem enableReading_paired (ch : Channel) (p : EPollPoller ι) (ptr : ι) :
    (ch.enableReading ptr p).1.Paired := by
  rw [enableReading, setEvents_fst, Paired]
  show (ch.events ||| kReadEvent) &&& EPOLLIN = 0 → _
  intro hzero
  rw [BitVec.and_or_distrib_right] at hzero
  exact absurd (BitVec.or_eq_zero_iff.mp hzero).2 (by decide)

theorem enableWriting_paired {ch : Channel} (h : ch.Paired) (p : EPollPoller ι) (ptr : ι) :
    (ch.enableWriting ptr p).1.Paired := by
  have hin : kWriteEvent &&& EPOLLIN = 0#32 := by decide
  have hpri : kWriteEvent &&& EPOLLPRI = 0#32 := by decide
  rw [enableWriting, setEvents_fst, Paired]
  show (ch.events ||| kWriteEvent) &&& EPOLLIN = 0 → (ch.events ||| kWriteEvent) &&& EPOLLPRI = 0
  rw [BitVec.and_or_distrib_right, BitVec.and_or_distrib_right, hin, hpri, BitVec.or_zero,
    BitVec.or_zero]
  exact h

theorem disableWriting_paired (ch : Channel) (p : EPollPoller ι) (ptr : ι) :
    (ch.disableWriting ptr p).1.Paired := by
  have hdisjoint : kWriteEvent &&& EPOLLPRI = 0#32 := by decide
  intro _
  rw [disableWriting_events, BitVec.and_assoc, hdisjoint, BitVec.and_zero]
  rfl

theorem disableAll_paired (ch : Channel) (p : EPollPoller ι) (ptr : ι) :
    (ch.disableAll ptr p).1.Paired := by
  rw [disableAll, setEvents_fst]
  intro _
  show kNoneEvent &&& EPOLLPRI = 0
  decide

theorem remove_events (ch : Channel) (p : EPollPoller ι) (ptr : ι) :
    (Channel.remove ptr ch p).1.events = ch.events := rfl

theorem remove_paired {ch : Channel} (h : ch.Paired) (p : EPollPoller ι) (ptr : ι) :
    (Channel.remove ptr ch p).1.Paired := by
  rw [Paired, remove_events]
  exact h

theorem disableAll_isWriting (ch : Channel) (p : EPollPoller ι) (ptr : ι) :
    (ch.disableAll ptr p).1.isWriting = false := by
  rw [disableAll, setEvents_fst]
  show decide (kNoneEvent &&& kWriteEvent ≠ 0) = false
  decide

end Channel

end Moduo
