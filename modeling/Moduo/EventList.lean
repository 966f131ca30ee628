/-
The array behind `poll` (`EPollPoller.cc`).

`events_` is reused from poll to poll: `epoll_wait` overwrites its first entries, the
others are left from earlier polls or have never been written, and a poll that fills the
array doubles it.  `fillActiveChannels` follows the pointers in the entries and stores
each mask in the `revents_` of its channel.

* `poll_ready` — what `poll` reads is what `epoll_wait` has just written;
* `revents_poll` — each channel of the batch then carries its own mask.
-/
import Moduo.Buffer
import Moduo.Channel

namespace Moduo

/-- An `epoll_event`; `ptr` is `data.ptr`, null until the entry is written. -/
structure EpollEvent (ι : Type*) where
  events : EventMask
  ptr : Option ι
  deriving DecidableEq, Repr

namespace EPollPoller

variable {ι : Type*}

def kInitEventListSize : ℕ := 16

def EINTR : Errno := .other 4

/-- The entry of a vector that has just been resized. -/
def unwritten : EpollEvent ι := ⟨0, none⟩

/-- What `::epoll_wait` delivers, or `-1` with its `errno`. -/
inductive WaitResult (ι : Type*)
  | ready (batch : List (ι × EventMask))
  | failed (errno : Errno)

/-- `static_cast<int>(events_.size())`. -/
def maxevents (events : List (EpollEvent ι)) : ℤ := (BitVec.ofNat 32 events.length).toInt

/-- The kernel writes the first entries of the array. -/
def written (events : List (EpollEvent ι)) (batch : List (ι × EventMask)) :
    List (EpollEvent ι) :=
  batch.map (fun b => ⟨b.2, some b.1⟩) ++ events.drop batch.length

/-- What `poll` leaves: the array, the `revents_` of the channels, the active channels,
and whether the process has ended. -/
structure Polled (ι : Type*) where
  events : List (EpollEvent ι)
  revents : ι → EventMask
  activeChannels : List ι
  exited : Bool

section Poll

variable [DecidableEq ι]

/-- `fillActiveChannels` from index `i` on, with `n` entries to go; `none` if it follows
a pointer that is not there. -/
def fillActiveChannels (events : List (EpollEvent ι)) :
    ℕ → ℕ → (ι → EventMask) × List ι → Option ((ι → EventMask) × List ι)
  | _, 0, r => some r
  | i, n + 1, (revents, activeChannels) =>
    match events[i]? with
    | some ⟨mask, some channel⟩ =>
      fillActiveChannels events (i + 1) n
        (Function.update revents channel mask, activeChannels ++ [channel])
    | _ => none

/-- `poll`, after `epoll_wait` has returned. -/
def poll (events : List (EpollEvent ι)) (revents : ι → EventMask) (activeChannels : List ι) :
    WaitResult ι → Option (Polled ι)
  | .ready batch =>
    let events := written events batch
    if 0 < batch.length then
      (fillActiveChannels events 0 batch.length (revents, activeChannels)).map fun r =>
        ⟨if batch.length = events.length then
            events ++ List.replicate events.length unwritten
          else events, r.1, r.2, false⟩
    else some ⟨events, revents, activeChannels, false⟩
  | .failed errno => some ⟨events, revents, activeChannels, decide (errno ≠ EINTR)⟩

/-- The `revents_` after a batch. -/
def stored (revents : ι → EventMask) (batch : List (ι × EventMask)) : ι → EventMask :=
  batch.foldl (fun r b => Function.update r b.1 b.2) revents

end Poll

/-! ### The array -/

theorem length_written {events : List (EpollEvent ι)} {batch : List (ι × EventMask)}
    (h : batch.length ≤ events.length) : (written events batch).length = events.length := by
  simp only [written, List.length_append, List.length_map, List.length_drop]
  omega

/-- The cast asks for no more than there is room for. -/
theorem maxevents_le (events : List (EpollEvent ι)) : maxevents events ≤ events.length := by
  have hmod : events.length % 2 ^ 32 ≤ events.length := Nat.mod_le _ _
  rw [maxevents, BitVec.toInt_ofNat', Int.bmod_def]
  split_ifs <;> omega

theorem maxevents_eq {events : List (EpollEvent ι)} (h : events.length < 2 ^ 31) :
    maxevents events = events.length := by
  rw [maxevents, BitVec.toInt_ofNat', Int.bmod_def]
  split_ifs <;> omega

section Poll

variable [DecidableEq ι]

/-- The entries that are read are those of the batch. -/
theorem fillActiveChannels_written (batch : List (ι × EventMask)) {events : List (EpollEvent ι)}
    {i : ℕ} {rest : List (EpollEvent ι)} (revents : ι → EventMask) (activeChannels : List ι)
    (h : events.drop i = batch.map (fun b => ⟨b.2, some b.1⟩) ++ rest) :
    fillActiveChannels events i batch.length (revents, activeChannels) =
      some (stored revents batch, activeChannels ++ batch.map Prod.fst) := by
  induction batch generalizing i revents activeChannels with
  | nil => simp [fillActiveChannels, stored]
  | cons b batch ih =>
    have hhead : events[i]? = some ⟨b.2, some b.1⟩ := by
      have hget := congrArg (·[0]?) h
      simpa using hget
    have htail : events.drop (i + 1) = batch.map (fun b => ⟨b.2, some b.1⟩) ++ rest := by
      rw [← List.tail_drop, h]
      rfl
    have hrec := ih (Function.update revents b.1 b.2) (activeChannels ++ [b.1]) htail
    rw [List.length_cons, fillActiveChannels, hhead]
    show fillActiveChannels events (i + 1) batch.length _ = _
    rw [hrec, List.append_assoc]
    rfl

/-- Whatever earlier polls have left in the array, `poll` reports the batch it was
delivered, in that order. -/
theorem poll_ready {events : List (EpollEvent ι)} (revents : ι → EventMask)
    {batch : List (ι × EventMask)} (h : batch.length ≤ events.length) :
    poll events revents [] (.ready batch) =
      some ⟨if 0 < batch.length ∧ batch.length = events.length then
          written events batch ++ List.replicate events.length unwritten
        else written events batch, stored revents batch, batch.map Prod.fst, false⟩ := by
  have hlength := length_written h
  rw [poll]
  by_cases hpos : 0 < batch.length
  · have hfill := fillActiveChannels_written batch revents []
      (rfl : (written events batch).drop 0 = _)
    simp only [hpos, hfill, hlength, if_true, true_and]
    rfl
  · obtain rfl : batch = [] := List.length_eq_zero_iff.mp (by omega)
    simp [stored]

theorem stored_of_not_mem {revents : ι → EventMask} {batch : List (ι × EventMask)} {ptr : ι}
    (h : ptr ∉ batch.map Prod.fst) : stored revents batch ptr = revents ptr := by
  induction batch generalizing revents with
  | nil => rfl
  | cons b batch ih =>
    obtain ⟨hb, hbatch⟩ := not_or.mp (mt List.mem_cons.mpr h)
    show stored (Function.update revents b.1 b.2) batch ptr = revents ptr
    rw [ih hbatch, Function.update_of_ne hb]

theorem stored_of_mem {revents : ι → EventMask} {batch : List (ι × EventMask)}
    (hnodup : (batch.map Prod.fst).Nodup) {b : ι × EventMask} (hb : b ∈ batch) :
    stored revents batch b.1 = b.2 := by
  induction batch generalizing revents with
  | nil => exact absurd hb List.not_mem_nil
  | cons c batch ih =>
    obtain ⟨hc, hnodup'⟩ := List.nodup_cons.mp hnodup
    show stored (Function.update revents c.1 c.2) batch b.1 = b.2
    rcases List.mem_cons.mp hb with rfl | hb
    · rw [stored_of_not_mem hc, Function.update_self]
    · exact ih hnodup' hb

/-- Each channel of a batch of different channels carries its mask. -/
theorem revents_poll {revents : ι → EventMask} {batch : List (ι × EventMask)}
    (hnodup : (batch.map Prod.fst).Nodup) :
    (batch.map Prod.fst).map (fun ptr => (ptr, stored revents batch ptr)) = batch := by
  rw [List.map_map]
  refine (List.map_congr_left fun b hb => ?_).trans (List.map_id batch)
  show (b.1, stored revents batch b.1) = b
  rw [stored_of_mem hnodup hb]

end Poll

end EPollPoller

end Moduo
