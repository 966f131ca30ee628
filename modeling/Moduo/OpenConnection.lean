/-
The interest set of an open connection.

From `connectionEstablished` on, `sendInLoop`, `handleWrite`, `handleRead` with
data and `shutdownInLoop` run in any order, with any outcome of `::write`.

* `interest_iff` — the channel wants to read, and to write exactly while bytes
  are waiting, throughout a run, if and only if no `handleWrite` of the run
  drains the buffer: `disableWriting` keeps the write bit and drops the read
  bits, where the reverse is meant.
-/
import Moduo.Lib.Machine
import Moduo.TcpConnection

namespace Moduo

namespace OpenConnection

/-- What may happen on the loop thread before the connection closes. -/
inductive Label
  | sendInLoop (message : List Byte) (res : WriteResult)
  | handleWrite (res : WriteResult)
  | handleRead (data : List Byte)
  | shutdownInLoop
  deriving DecidableEq, Repr

variable {ι : Type*}

def step (this : ι) (e : Endpoint ι) : Label → Option (Endpoint ι)
  | .sendInLoop message res =>
    if res.Admissible message.length then some (e.sendInLoop this message res) else none
  | .handleWrite res =>
    if res.Admissible e.conn.unsent then some (e.handleWrite this res) else none
  | .handleRead data => if data ≠ [] then some (e.handleRead this (.read data)) else none
  | .shutdownInLoop => some e.shutdownInLoop

/-- The open part of the life of a connection: it starts as
`connectionEstablished` leaves it. -/
def system (this : ι) : Machine (Endpoint ι) Label where
  init s := ∃ e : Endpoint ι, e.conn.Fresh ∧ s = e.connectionEstablished this
  step := step this

/-- Reading is on, and writing is on exactly while there is something to write. -/
structure Interest (e : Endpoint ι) : Prop where
  wantsRead : e.conn.channel.wantsRead
  armed : e.conn.channel.isWriting = true ↔ e.conn.unsent > 0

/-- The step is a `handleWrite` that empties the buffer. -/
def Empties (e : Endpoint ι) : Label → Prop
  | .handleWrite res => e.Drains res
  | _ => False

variable {this : ι} {e e' : Endpoint ι}

theorem unsent_pos_iff {c : TcpConnection} : c.unsent > 0 ↔ c.outputBuffer.content ≠ [] :=
  List.length_pos_iff

theorem interest_established (h : e.conn.Fresh) : Interest (e.connectionEstablished this) := by
  have hchannel : (e.connectionEstablished this).conn.channel =
      (Channel.enableReading this { e.conn.channel with tied := true } e.poller).1 := rfl
  refine ⟨?_, ?_⟩
  · rw [hchannel]
    exact Channel.enableReading_wantsRead _ _ _
  · have hempty : (e.connectionEstablished this).conn.unsent = 0 := by
      show e.conn.outputBuffer.content.length = 0
      rw [h.output, List.length_nil]
    have hoff : (e.connectionEstablished this).conn.channel.isWriting = false := by
      rw [hchannel, h.channel, Channel.enableReading, Channel.setEvents_fst]
      show decide ((0 ||| Channel.kReadEvent) &&& Channel.kWriteEvent ≠ 0) = false
      decide
    rw [hempty, hoff]
    exact ⟨fun h => absurd h (by decide), fun h => absurd h (Nat.lt_irrefl 0)⟩

theorem Interest.sendInLoop (h : Interest e) (message : List Byte) (res : WriteResult) :
    Interest (e.sendInLoop this message res) := by
  refine ⟨Endpoint.sendInLoop_wantsRead h.wantsRead, ?_⟩
  rcases Endpoint.sendInLoop_conn this message res e with hsame | ⟨hwriting, hcontent⟩
  · rw [hsame]
    exact h.armed
  · exact ⟨fun _ => unsent_pos_iff.mpr hcontent, fun _ => hwriting⟩

/-- A deferred write keeps the interest set right exactly when it leaves
something to write. -/
theorem Interest.handleWrite_iff (h : Interest e) {res : WriteResult}
    (hadm : res.Admissible e.conn.unsent) :
    Interest (e.handleWrite this res) ↔ ¬ e.Drains res := by
  by_cases hd : e.Drains res
  · rw [Endpoint.handleWrite_drains _ hd]
    exact ⟨fun hi => absurd hi.wantsRead (Endpoint.drained_not_wantsRead this e),
      fun hn => absurd hd hn⟩
  · refine ⟨fun _ => hd, fun _ => ?_⟩
    rcases Endpoint.handleWrite_partial this hd hadm with heq | ⟨n, hlt, heq⟩
    · rw [heq]
      exact h
    · rw [heq]
      -- the channel is untouched and bytes are left on both sides
      have hpos : 0 < e.conn.unsent := Nat.zero_lt_of_lt hlt
      have hleft : (e.deferredWrite n).conn.unsent = e.conn.unsent - n := by
        show (e.conn.outputBuffer.take n).content.length = _
        rw [Fifo.content_take, List.length_drop, TcpConnection.unsent]
      refine ⟨h.wantsRead, fun _ => ?_, fun _ => h.armed.mpr hpos⟩
      rw [hleft]
      exact Nat.sub_pos_of_lt hlt

theorem Interest.shutdownInLoop (h : Interest e) : Interest e.shutdownInLoop := by
  rw [Endpoint.shutdownInLoop]
  split_ifs
  · exact ⟨h.wantsRead, h.armed⟩
  · exact h

theorem Interest.handleRead (h : Interest e) {data : List Byte} (hne : data ≠ []) :
    Interest (e.handleRead this (.read data)) := by
  obtain ⟨b, bs, rfl⟩ := List.exists_cons_of_ne_nil hne
  exact ⟨h.wantsRead, h.armed⟩

theorem interest_step {a : Label} (h : Interest e) (hstep : step this e a = some e') :
    Interest e' ↔ ¬ Empties e a := by
  cases a with
  | sendInLoop message res =>
    simp only [step] at hstep
    split_ifs at hstep
    exact Option.some.inj hstep ▸ ⟨fun _ => id, fun _ => h.sendInLoop message res⟩
  | handleWrite res =>
    simp only [step] at hstep
    split_ifs at hstep with hadm
    exact Option.some.inj hstep ▸ h.handleWrite_iff hadm
  | handleRead data =>
    rw [step] at hstep
    by_cases hne : data ≠ []
    · rw [if_pos hne] at hstep
      exact Option.some.inj hstep ▸ ⟨fun _ => id, fun _ => h.handleRead hne⟩
    · rw [if_neg hne] at hstep
      exact absurd hstep (by simp)
  | shutdownInLoop =>
    exact Option.some.inj hstep ▸ ⟨fun _ => id, fun _ => h.shutdownInLoop⟩

/-- Exactly the runs in which no `handleWrite` drains the buffer keep the
interest set right. -/
theorem interest_iff (h : (system this).init e) (as : List Label) :
    (system this).Throughout Interest e as ↔
      (system this).StepsMeet (fun e a => ¬ Empties e a) e as := by
  obtain ⟨e₀, hfresh, rfl⟩ := h
  exact Machine.throughout_iff_stepsMeet (I := fun _ => True) (fun _ _ _ _ _ => trivial)
    (fun _ _ _ _ hi hstep => interest_step hi hstep) as trivial (interest_established hfresh)

/-- An established connection on descriptor 5, alone on its poller. -/
def established : Endpoint Unit :=
  Endpoint.connectionEstablished () ⟨TcpConnection.make 5 false, EPollPoller.empty, []⟩

theorem established_init : (system ()).init established :=
  ⟨_, TcpConnection.make_fresh 5 false, rfl⟩

theorem interest_iff_sends :
    (system ()).Throughout Interest established [.sendInLoop [1, 2] (.wrote 1)] ↔
      (system ()).StepsMeet (fun e a => ¬ Empties e a) established
        [.sendInLoop [1, 2] (.wrote 1)] :=
  interest_iff established_init _

/-- A partial write, buffered and then drained: reading is off, and writing on
with nothing to write. -/
theorem drain_stops_reading :
    ¬ (system ()).Throughout Interest established
      [.sendInLoop [1, 2] (.wrote 1), .handleWrite (.wrote 1)] := by
  intro h
  have hrun : ∃ t, (system ()).run established
      [.sendInLoop [1, 2] (.wrote 1), .handleWrite (.wrote 1)] = some t ∧
      ¬ t.conn.channel.wantsRead := ⟨_, rfl, by decide⟩
  obtain ⟨t, ht, hoff⟩ := hrun
  exact hoff (h.final ht).wantsRead

end OpenConnection

end Moduo
