/-
Channels, poller and kernel agree.

`system` runs any calls on a set of channels with pairwise distinct
descriptors on one poller.  `Agree` says that the kernel's set holds exactly
the channels with `index = kAdded`, each with the mask `events`, that
`channels` maps exactly the channels with `index ≠ kNew`, and that no
`LOG_FATAL` was reached.

`agree_iff`: a run stays in agreement throughout exactly when no call leaves
an added channel without events.  `EPollPoller::updateChannel` then deletes the
descriptor from the epoll set but keeps `index` at `kAdded` (nothing ever sets
`kDeleted`), so the next enabling call is a `MOD` of an absent descriptor and
ends the process.
-/
import Moduo.Channel
import Moduo.Lib.Machine

namespace Moduo

inductive ChannelCall
  | enableReading
  | disableReading
  | enableWriting
  | disableWriting
  | disableAll
  | remove
  deriving DecidableEq, Repr

namespace ChannelCall

variable {ι : Type*}

def apply (ptr : ι) (ch : Channel) (p : EPollPoller ι) : ChannelCall → Channel × EPollPoller ι
  | .enableReading => ch.enableReading ptr p
  | .disableReading => ch.disableReading ptr p
  | .enableWriting => ch.enableWriting ptr p
  | .disableWriting => ch.disableWriting ptr p
  | .disableAll => ch.disableAll ptr p
  | .remove => ch.remove ptr p

/-- The events a call sets; `remove` sets none. -/
def newEvents (e : EventMask) : ChannelCall → Option EventMask
  | .enableReading => some (e ||| Channel.kReadEvent)
  | .disableReading => some (e &&& ~~~Channel.kReadEvent)
  | .enableWriting => some (e ||| Channel.kWriteEvent)
  | .disableWriting => some (e &&& Channel.kWriteEvent)
  | .disableAll => some Channel.kNoneEvent
  | .remove => none

theorem apply_cases (call : ChannelCall) (ptr : ι) (ch : Channel) (p : EPollPoller ι) :
    (call = .remove ∧ call.newEvents ch.events = none ∧
      call.apply ptr ch p = p.removeChannel ptr ch) ∨
    ∃ f : EventMask → EventMask, call.newEvents ch.events = some (f ch.events) ∧
      call.apply ptr ch p = ch.setEvents f ptr p := by
  cases call with
  | remove => exact .inl ⟨rfl, rfl, rfl⟩
  | enableReading => exact .inr ⟨(· ||| Channel.kReadEvent), rfl, rfl⟩
  | disableReading => exact .inr ⟨(· &&& ~~~Channel.kReadEvent), rfl, rfl⟩
  | enableWriting => exact .inr ⟨(· ||| Channel.kWriteEvent), rfl, rfl⟩
  | disableWriting => exact .inr ⟨(· &&& Channel.kWriteEvent), rfl, rfl⟩
  | disableAll => exact .inr ⟨fun _ => Channel.kNoneEvent, rfl, rfl⟩

end ChannelCall

namespace PollerRun

structure State (ι : Type*) where
  chan : ι → Channel
  poller : EPollPoller ι

variable {ι : Type*}

/-- Channels as constructed, on a poller that knows none of their descriptors. -/
structure Fresh (s : State ι) : Prop where
  distinct : Function.Injective fun i => (s.chan i).fd
  isNew : ∀ i, (s.chan i).index = .kNew
  unknown : ∀ i, s.poller.epoll (s.chan i).fd = none ∧ s.poller.channels (s.chan i).fd = none
  running : s.poller.exited = false

structure Agree (s : State ι) : Prop where
  registered : ∀ i, s.poller.epoll (s.chan i).fd = some ((s.chan i).events, i) ↔
    (s.chan i).index = .kAdded
  absent : ∀ i, (s.chan i).index ≠ .kAdded → s.poller.epoll (s.chan i).fd = none
  mapped : ∀ i, s.poller.channels (s.chan i).fd = some i ↔ (s.chan i).index ≠ .kNew
  running : s.poller.exited = false

/-- The call leaves an added channel without events. -/
def Silences (s : State ι) (a : ι × ChannelCall) : Prop :=
  (s.chan a.1).index = .kAdded ∧ a.2.newEvents (s.chan a.1).events = some 0

theorem Fresh.agree {s : State ι} (h : Fresh s) : Agree s where
  registered i := by simp [(h.unknown i).1, h.isNew i]
  absent i _ := (h.unknown i).1
  mapped i := by simp [(h.unknown i).2, h.isNew i]
  running := h.running

variable [DecidableEq ι]

/-- The state after a call on channel `i`. -/
def State.call (s : State ι) (i : ι) (c : ChannelCall) : State ι :=
  let r := c.apply i (s.chan i) s.poller
  ⟨Function.update s.chan i r.1, r.2⟩

/-- Any call on any channel, as long as the process runs. -/
def system : Machine (State ι) (ι × ChannelCall) where
  init := Fresh
  step s a := if s.poller.exited then none else some (s.call a.1 a.2)

theorem call_fd (s : State ι) (i j : ι) (c : ChannelCall) :
    ((s.call i c).chan j).fd = (s.chan j).fd := by
  by_cases hji : j = i
  · subst hji
    simp only [State.call, Function.update_self]
    rcases c.apply_cases j (s.chan j) s.poller with ⟨-, -, hr⟩ | ⟨f, -, hr⟩
    · rw [hr, EPollPoller.removeChannel_fst]
    · rw [hr, Channel.setEvents_fst]
  · simp [State.call, hji]

/-- A call on `i` that gives it the registration `ch'` and rewrites only the
entries of its descriptor keeps the agreement, if they fit `ch'`. -/
theorem Agree.update {s : State ι} (hd : Function.Injective fun i => (s.chan i).fd)
    (h : Agree s) {i : ι} {ch' : Channel} {m : Option ι} {e : Option (EventMask × ι)}
    (hfd : ch'.fd = (s.chan i).fd) (he : e = some (ch'.events, i) ↔ ch'.index = .kAdded)
    (he' : ch'.index ≠ .kAdded → e = none) (hm : m = some i ↔ ch'.index ≠ .kNew) :
    Agree ⟨Function.update s.chan i ch',
      { s.poller with channels := Function.update s.poller.channels (s.chan i).fd m,
                      epoll := Function.update s.poller.epoll (s.chan i).fd e }⟩ := by
  have hother : ∀ j, j ≠ i → (s.chan j).fd ≠ (s.chan i).fd := fun j hj heq => hj (hd heq)
  refine ⟨fun j => ?_, fun j => ?_, fun j => ?_, h.running⟩
  · by_cases hji : j = i
    · subst hji
      simpa [hfd] using he
    · simpa [hji, hother j hji] using h.registered j
  · by_cases hji : j = i
    · subst hji
      simpa [hfd] using he'
    · simpa [hji, hother j hji] using h.absent j
  · by_cases hji : j = i
    · subst hji
      simpa [hfd] using hm
    · simpa [hji, hother j hji] using h.mapped j

theorem Agree.setEvents {s : State ι} (hd : Function.Injective fun i => (s.chan i).fd)
    (h : Agree s) (i : ι) {f : EventMask → EventMask}
    (hf : (s.chan i).index = .kAdded → f (s.chan i).events ≠ 0) :
    Agree ⟨Function.update s.chan i ((s.chan i).setEvents f i s.poller).1,
      ((s.chan i).setEvents f i s.poller).2⟩ := by
  have hin : (s.chan i).index = .kAdded → ∃ e, s.poller.epoll (s.chan i).fd = some e :=
    fun hi => ⟨_, (h.registered i).mpr hi⟩
  rw [Channel.setEvents_registers hin (h.absent i) hf]
  by_cases hnew : (s.chan i).index = .kNew
  · rw [if_pos hnew]
    exact h.update hd rfl (by simp) (by simp) (by simp)
  · -- the map already holds the pointer
    have hmap : Function.update s.poller.channels (s.chan i).fd (some i) = s.poller.channels := by
      rw [← (h.mapped i).mpr hnew, Function.update_eq_self]
    rw [if_neg hnew, ← hmap]
    exact h.update hd rfl (by simp) (by simp) (by simp)

theorem Agree.remove {s : State ι} (hd : Function.Injective fun i => (s.chan i).fd)
    (hdel : ∀ i, (s.chan i).index ≠ .kDeleted) (h : Agree s) (i : ι) :
    Agree ⟨Function.update s.chan i (s.poller.removeChannel i (s.chan i)).1,
      (s.poller.removeChannel i (s.chan i)).2⟩ := by
  cases hindex : (s.chan i).index with
  | kAdded =>
    rw [EPollPoller.removeChannel_added hindex]
    exact h.update hd rfl (by simp) (by simp) (by simp)
  | kNew =>
    have hsame : { s.chan i with index := .kNew } = s.chan i := by rw [← hindex]
    rw [EPollPoller.removeChannel_not_added (by simp [hindex]), hsame, Function.update_eq_self]
    exact h
  | kDeleted => exact absurd hindex (hdel i)

/-- The call that leaves an added channel without events breaks the agreement:
the channel stays `kAdded` and its descriptor has left the kernel's set. -/
theorem not_agree_of_silences {s : State ι} {a : ι × ChannelCall} (h : Silences s a) :
    ¬ Agree (s.call a.1 a.2) := by
  obtain ⟨i, c⟩ := a
  obtain ⟨hindex, hevents⟩ := h
  intro hagree
  have hreg := hagree.registered i
  rcases c.apply_cases i (s.chan i) s.poller with ⟨-, hnone, -⟩ | ⟨f, hf, hr⟩
  · simp [hnone] at hevents
  · have hzero : f (s.chan i).events = 0 := Option.some.inj (hf.symm.trans hevents)
    simp [State.call, hr, Channel.setEvents_silences hindex hzero, hindex] at hreg

/-- What every call keeps: the descriptors, and that `kDeleted` is never set. -/
structure Stable (s : State ι) : Prop where
  distinct : Function.Injective fun i => (s.chan i).fd
  notDeleted : ∀ i, (s.chan i).index ≠ .kDeleted

theorem Stable.call {s : State ι} (h : Stable s) (i : ι) (c : ChannelCall) :
    Stable (s.call i c) := by
  refine ⟨?_, fun j => ?_⟩
  · have hsame : (fun j => ((s.call i c).chan j).fd) = fun j => (s.chan j).fd := by
      funext j
      exact call_fd s i j c
    rw [hsame]
    exact h.distinct
  · by_cases hji : j = i
    · subst hji
      simp only [State.call, Function.update_self]
      rcases c.apply_cases j (s.chan j) s.poller with ⟨-, -, hr⟩ | ⟨f, -, hr⟩
      · simp [hr]
      · simp [hr]
    · simpa [State.call, hji] using h.notDeleted j

theorem agree_step {s t : State ι} {a : ι × ChannelCall} (hs : Stable s) (h : Agree s)
    (ht : system.step s a = some t) : Agree t ↔ ¬ Silences s a := by
  obtain ⟨i, c⟩ := a
  simp only [system, h.running, Bool.false_eq_true, if_false, Option.some.injEq] at ht
  subst ht
  constructor
  · exact fun hagree hsil => not_agree_of_silences hsil hagree
  · intro hsil
    rcases c.apply_cases i (s.chan i) s.poller with ⟨-, -, hr⟩ | ⟨f, hf, hr⟩
    · simp only [State.call, hr]
      exact h.remove hs.distinct hs.notDeleted i
    · simp only [State.call, hr]
      refine h.setEvents hs.distinct i fun hindex hzero => hsil ⟨hindex, ?_⟩
      rw [hf, hzero]

/-- Channels, poller and kernel agree throughout a run exactly when no call of
it leaves an added channel without events. -/
theorem agree_iff {s : State ι} (hs : Fresh s) (calls : List (ι × ChannelCall)) :
    system.Throughout Agree s calls ↔
      system.StepsMeet (fun s a => ¬ Silences s a) s calls := by
  have hstable : Stable s := ⟨hs.distinct, fun i => by simp [hs.isNew i]⟩
  refine Machine.throughout_iff_stepsMeet (I := Stable) ?_
    (fun _ _ _ hI h ht => agree_step hI h ht) calls hstable hs.agree
  intro s a t hI ht
  simp only [system] at ht
  split_ifs at ht
  exact Option.some.inj ht ▸ hI.call a.1 a.2

/-- Two channels on an empty poller. -/
def pair : State Bool := ⟨fun i => Channel.make (if i then 5 else 4), EPollPoller.empty⟩

theorem pair_fresh : Fresh pair where
  distinct := by decide
  isNew i := rfl
  unknown i := ⟨rfl, rfl⟩
  running := rfl

theorem agree_iff_pair :
    Fresh pair ∧
      (system.Throughout Agree pair [(true, .enableReading), (true, .remove)] ↔
        system.StepsMeet (fun s a => ¬ Silences s a) pair
          [(true, .enableReading), (true, .remove)]) :=
  ⟨pair_fresh, agree_iff pair_fresh _⟩

/-- Enable, disable all, enable again: the channel is still `kAdded`, so the
last call is a `MOD` of an absent descriptor and the process exits. -/
theorem reenable_exits :
    ¬ system.Throughout Agree pair
      [(true, .enableReading), (true, .disableAll), (true, .enableReading)] := by
  intro h
  have hrun : ∃ t, system.run pair
      [(true, .enableReading), (true, .disableAll), (true, .enableReading)] = some t ∧
      t.poller.exited = true := ⟨_, rfl, rfl⟩
  obtain ⟨t, ht, hexit⟩ := hrun
  have hrunning := (h.final ht).running
  rw [hexit] at hrunning
  exact absurd hrunning (by decide)

end PollerRun

end Moduo
