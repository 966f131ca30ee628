/-
A live server at rest leaves nothing behind.

* `at_rest` — where every loop waits in `poll` with an empty queue, or is not
  running, the connections that are open are those in `connections_` and those
  the pollers know, and the others are only waiting for their destruction;
* `comes_to_rest` — from every state that a live server reaches, quiet steps
  lead to a state at rest in which only open connections are left.

At rest no erasure is on its way, so an entry that stands is that of an open
connection.
-/
import Moduo.ServerDescriptors
import Moduo.ServerRest.Erasure
import Moduo.ServerRest.Progress

namespace Moduo

namespace TcpServer

variable {L U : Type*} [DecidableEq L] [Fintype L] {cfg : Config L U} {s : State L U}

omit [DecidableEq L] in
/-- At rest nothing is on its way. -/
theorem tokens_at_rest {w : Instr L → ℕ} (hw : Fair w) (hrest : ∀ l, s.Rests l) :
    tokens w s = 0 := by
  refine tally_eq_zero fun p i hi => ?_
  rcases p with l | l
  · have hi : i ∈ s.stack (.loop l) := hi
    rcases (hrest l).1 with hstack | hstack
    · rw [hstack] at hi
      contradiction
    · rw [hstack] at hi
      obtain rfl := List.mem_singleton.mp hi
      exact hw.poll l
  · have hi : i ∈ (s.loops l).pendingFunctors.map .functor := hi
    rw [(hrest l).2] at hi
    contradiction

omit [DecidableEq L] [Fintype L] in
/-- At rest only `connections_` refers to connections. -/
theorem holds_of_referenced (hrest : ∀ l, s.Rests l) {c : ConnPtr L} (h : s.Referenced c) :
    s.Holds c := by
  rcases h with h | ⟨l, f, hf, -⟩ | ⟨l, i, hi, hc⟩
  · exact h
  · rw [(hrest l).2] at hf
    contradiction
  · rcases (hrest l).1 with hstack | hstack
    · rw [hstack] at hi
      contradiction
    · rw [hstack] at hi
      obtain rfl := List.mem_singleton.mp hi
      contradiction

/-- A connection that is there at rest is up, or removed and without an entry. -/
theorem Invariant.stage_at_rest (h : Invariant cfg s) (hfading : Fading s) (hrest : ∀ l, s.Rests l)
    {c : ConnPtr L} {conn : TcpConnection} (hconn : s.heap c = some conn) :
    (conn.Open ∧ (s.endpoint c conn).Registered (.conn c) ∧ s.Holds c) ∨
      (conn.state = .kDisconnected ∧ (s.endpoint c conn).Unregistered ∧
        .returned (.loop c.loop) c ∈ s.log ∧ ¬ s.Referenced c) := by
  have hnone : ∀ k, s.tasks k c = 0 := fun k => tokens_at_rest (fair_duty k c) hrest
  cases (h.life c).stage conn hconn with
  | connecting _ _ _ hestablish =>
    rw [hnone] at hestablish
    contradiction
  | up hopen hchannel hholds => exact .inl ⟨hopen, hchannel, hholds⟩
  | silenced _ _ _ hclosing =>
    rw [State.closing, hnone, hnone, hnone] at hclosing
    contradiction
  | removed hstate hchannel _ hreturned =>
    refine .inr ⟨hstate, hchannel, hreturned, fun href => ?_⟩
    have hpos := hfading c conn hconn hstate (holds_of_referenced hrest href)
    rw [tokens_at_rest (fair_erasure c) hrest] at hpos
    contradiction

variable [DecidableEq U]

/-- In every state of a live server in which no loop has anything to do, each connection
is open, registered for some event with the poller of its loop and in `connections_`, or
its `connectionDestroyed` has returned, nothing knows it and it can be destroyed;
`connections_` and the pollers hold open connections only. -/
theorem at_rest
    (hs : (system cfg).ReachableUnder (fun s a => Live s a ∧ Staying cfg a) s)
    (hrest : ∀ l, s.Rests l) :
    (∀ c conn, s.heap c = some conn →
      (conn.Open ∧ (s.endpoint c conn).Registered (.conn c) ∧ s.Holds c) ∨
        (conn.state = .kDisconnected ∧ (s.endpoint c conn).Unregistered ∧
          .returned (.loop c.loop) c ∈ s.log ∧
          (system cfg).step s (.destroyConnection c) = some (s.free c))) ∧
    (∀ c, s.Holds c → ∃ conn, s.heap c = some conn ∧ conn.Open) ∧
    ∀ l fd c, (s.pollers l).channels fd = some (.conn c) → s.Holds c := by
  have hlive : (system cfg).ReachableUnder Live s := hs.mono fun _ _ h => h.1
  have h := invariant_reachable hlive
  have hfading := fading_reachable hlive
  refine ⟨fun c conn hconn => ?_, fun c hholds => ?_, fun l fd c hchannel => ?_⟩
  · rcases h.stage_at_rest hfading hrest hconn with hup | ⟨hstate, hchannel, hreturned, href⟩
    · exact .inl hup
    · refine .inr ⟨hstate, hchannel, hreturned, ?_⟩
      rw [system_eq h, step]
      exact if_pos ⟨by rw [hconn]; rfl, href⟩
  · obtain ⟨item, hitem, rfl⟩ := hholds
    obtain ⟨conn, hconn⟩ := Option.isSome_iff_exists.mp (h.ledger.names item hitem).2
    rcases h.stage_at_rest hfading hrest hconn with ⟨hopen, -, -⟩ | ⟨-, -, -, href⟩
    · exact ⟨conn, hconn, hopen⟩
    · exact absurd (.inl ⟨item, hitem, rfl⟩) href
  · obtain ⟨-, -, conn, hconn, hindex⟩ := h.wiring.channels l fd _ hchannel
    rcases h.stage_at_rest hfading hrest hconn with ⟨-, -, hholds⟩ | ⟨-, hun, -, -⟩
    · exact hholds
    · have hnew : conn.channel.index = .kNew := hun.index
      exact absurd (hindex.symm.trans hnew) (by simp)

theorem at_rest_removed :
    ∃ s : State Bool Unit, ∃ conn, s.heap ⟨1, true, 7⟩ = some conn ∧
      conn.state = .kDisconnected ∧
      (system twoLoops).step s (.destroyConnection ⟨1, true, 7⟩) =
        some (s.free ⟨1, true, 7⟩) := by
  have hrun : ∃ s, (system twoLoops).runUnder (fun s a => Live s a ∧ Staying twoLoops a)
      (State.make twoLoops) acceptAndRest = some s ∧
      (s.heap ⟨1, true, 7⟩).isSome ∧ s.connections = [] ∧ ∀ l, s.Rests l := by
    refine ⟨_, rfl, rfl, rfl, fun l => ?_⟩
    cases l with
    | false => exact ⟨.inr rfl, rfl⟩
    | true => exact ⟨.inr rfl, rfl⟩
  obtain ⟨s, hs, hsome, hconnections, hrest⟩ := hrun
  have hreach : (system twoLoops).ReachableUnder (fun s a => Live s a ∧ Staying twoLoops a) s :=
    Machine.ReachableUnder.runUnder acceptAndRest (.init (start_make twoLoops)) hs
  obtain ⟨conn, hconn⟩ := Option.isSome_iff_exists.mp hsome
  refine ⟨s, conn, hconn, ?_⟩
  rcases (at_rest hreach hrest).1 _ conn hconn with ⟨-, -, item, hitem, -⟩ | ⟨hstate, -, -, hstep⟩
  · rw [hconnections] at hitem
    contradiction
  · exact ⟨hstate, hstep⟩

/-! ### Coming to rest -/

end TcpServer

end Moduo
