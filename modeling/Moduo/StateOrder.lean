/-
The order of the connection states.

`state_` should move along `kConnecting`, `kConnected`, `kDisconnecting`,
`kDisconnected` only, and `shutdownInLoop` should be scheduled at most once.

* `forward_iff` — both hold of a run if and only if every store of `shutdown`
  still finds the state that its test has found.

`shutdown` tests `state_` and then stores it, without compare and swap, on
whichever thread calls it.
-/
import Mathlib.Data.Set.Card
import Moduo.ConnectionLoop

namespace Moduo

/-- The place of a state in the life of a connection. -/
def StateE.stage : StateE → ℕ
  | .kConnecting => 0
  | .kConnected => 1
  | .kDisconnecting => 2
  | .kDisconnected => 3

theorem StateE.stage_le (st : StateE) : st.stage ≤ 3 := by
  cases st <;> decide

namespace ConnectionLoop

namespace StateOrder

variable {T : Type*}

/-- The state does not go back. -/
def Forward (s : State T) (_ : Label T) (s' : State T) : Prop :=
  s.conn.state.stage ≤ s'.conn.state.stage

/-- A store of `shutdown` finds the connection as the test has found it. -/
def Finds (s : State T) (a : Label T) : Prop :=
  ∀ t, a = .store t → s.conn.state = .kConnected

/-- The step schedules `shutdownInLoop`: it is called or queued. -/
def schedules : Label T → Bool
  | .shutdownBody _ => true
  | _ => false

/-- The step is the store of `shutdown`. -/
def stores : Label T → Bool
  | .store _ => true
  | _ => false

/-- The threads that are about to schedule `shutdownInLoop`. -/
def shutting (s : State T) : Set T := {t | s.call t = .shutting}

/-- How often `shutdownInLoop` has been scheduled, or is bound to be, at the end
`t` of the run `as`. -/
noncomputable def scheduled (as : List (Label T)) (t : State T) : ℕ∞ :=
  as.countP schedules + (shutting t).encard

structure Inv (s : State T) : Prop where
  fresh : s.established = false → s.conn.state = .kConnecting
  up : s.established = true → s.conn.state ≠ .kConnecting
  storing : ∀ t, s.call t = .storing → s.established = true
  destroying : s.destroying = .found → s.established = true

variable {s s' : State T}

theorem inv_start (h : Start s) : Inv s := by
  refine ⟨fun _ => h.fresh.state, ?_, ?_, ?_⟩
  · intro hup
    rw [h.established] at hup
    exact absurd hup (by simp)
  · intro t ht
    rw [h.call t] at ht
    exact absurd ht (by simp)
  · intro hfound
    rw [h.destroying] at hfound
    exact absurd hfound (by simp)

theorem Inv.established_of_connected (h : Inv s) (hst : s.conn.state = .kConnected) :
    s.established = true := by
  by_contra hne
  have hconnecting := h.fresh (by simpa using hne)
  rw [hst] at hconnecting
  exact absurd hconnecting (by simp)

section Step

variable [DecidableEq T] {loopThread : T} {a : Label T}

/-! ### What a step does to the state -/

/-- Only the members that open, close and half close a connection set its
state. -/
inductive StateMove (s : State T) (a : Label T) (s' : State T) : Prop
  | keeps (hstore : stores a = false) (hstate : s'.conn.state = s.conn.state)
      (hestablished : s'.established = s.established)
  | opens (hstore : stores a = false) (hfrom : s.established = false)
      (hstate : s'.conn.state = .kConnected) (hestablished : s'.established = true)
  | closes (hstore : stores a = false) (hfrom : s.established = true)
      (hstate : s'.conn.state = .kDisconnected) (hestablished : s'.established = true)
  | halfCloses (t : T) (ha : a = .store t) (hfrom : s.call t = .storing)
      (hstate : s'.conn.state = .kDisconnecting) (hestablished : s'.established = s.established)

theorem stateMove_move (h : Inv s) (hmove : Move loopThread s a s') : StateMove s a s' := by
  cases hmove with
  | @sendDirect m res _ =>
    exact .keeps rfl (Endpoint.quiet_sendInLoop () m.payload res s.endpoint).state rfl
  | @runSend m _ res _ _ =>
    exact .keeps rfl (Endpoint.quiet_sendInLoop () m.payload res s.endpoint).state rfl
  | shutdownDirect => exact .keeps rfl (State.state_shutdownInLoop _) rfl
  | runShutdown => exact .keeps rfl (State.state_shutdownInLoop _) rfl
  | store hcall => exact .halfCloses _ rfl hcall rfl rfl
  | established _ hfresh => exact .opens rfl hfresh rfl rfl
  | endOfFile _ hest => exact .closes rfl hest rfl hest
  | handleRead _ _ hne =>
    exact .keeps rfl (Endpoint.handleRead_of_ne () hne s.endpoint).1 rfl
  | handleWrite _ _ hadm =>
    exact .keeps rfl (Endpoint.quiet_handleWrite (e := s.endpoint) () hadm).state rfl
  | handleClose _ hest => exact .closes rfl hest rfl hest
  | disconnect hfound =>
    have hest := h.destroying hfound
    exact .closes rfl hest rfl hest
  | _ => exact .keeps rfl rfl rfl

/-- Who is past the test of `shutdown` has found the connection `kConnected`. -/
theorem storing_move (hmove : Move loopThread s a s') {t : T} (ht : s'.call t = .storing) :
    s.call t = .storing ∨ s.conn.state = .kConnected := by
  have hset {u : T} {c : Call T} (hc : c ≠ .storing)
      (hu : Function.update s.call u c t = .storing) : s.call t = .storing := by
    simp only [Function.update_apply] at hu
    split_ifs at hu with heq
    · exact absurd hu hc
    · exact hu
  cases hmove with
  | sendTest => exact .inl (hset (by simp) ht)
  | sendDirect => exact .inl (hset (c := .idle) (by simp) ht)
  | sendQueue => exact .inl (hset (c := .idle) (by simp) ht)
  | shutdownTest _ hst => exact .inr hst
  | store => exact .inl (hset (c := .shutting) (by simp) ht)
  | shutdownDirect => exact .inl (hset (c := .idle) (by simp) ht)
  | shutdownQueue => exact .inl (hset (c := .idle) (by simp) ht)
  | _ => exact .inl ht

theorem found_move (hmove : Move loopThread s a s') (hfound : s'.destroying = .found) :
    s.destroying = .found ∨ s.established = true := by
  cases hmove with
  | destroyedFound _ hest => exact .inr hest
  | destroyedSkips _ hest => exact .inr hest
  | disconnect hf => exact .inl hf
  | remove => exact absurd hfound (by simp)
  | _ => exact .inl hfound

theorem inv_move (h : Inv s) (hmove : Move loopThread s a s') : Inv s' := by
  have hup : s.established = true → s'.established = true := by
    intro hest
    cases stateMove_move h hmove with
    | keeps _ _ hsame => rw [hsame, hest]
    | opens _ _ _ hto => exact hto
    | closes _ _ _ hto => exact hto
    | halfCloses _ _ _ _ hsame => rw [hsame, hest]
  refine ⟨?_, ?_, fun t ht => hup ?_, fun hfound => hup ?_⟩
  · intro hdown
    cases stateMove_move h hmove with
    | keeps _ hstate hsame => exact hstate.trans (h.fresh (hsame ▸ hdown))
    | opens _ _ _ hto => exact absurd (hdown.symm.trans hto) (by simp)
    | closes _ _ _ hto => exact absurd (hdown.symm.trans hto) (by simp)
    | halfCloses t _ hfrom _ hsame =>
      rw [hsame, h.storing t hfrom] at hdown
      exact absurd hdown (by simp)
  · intro hest
    cases stateMove_move h hmove with
    | keeps _ hstate hsame => exact hstate ▸ h.up (hsame ▸ hest)
    | opens _ _ hstate _ => simp [hstate]
    | closes _ _ hstate _ => simp [hstate]
    | halfCloses _ _ _ hstate _ => simp [hstate]
  · exact (storing_move hmove ht).elim (h.storing t) h.established_of_connected
  · exact (found_move hmove hfound).elim h.destroying id

/-! ### Going forward -/

/-- Every step but a store goes forward. -/
theorem forward_of_not_store (h : Inv s) (hmove : Move loopThread s a s')
    (hstore : stores a = false) : Forward s a s' := by
  rw [Forward]
  cases stateMove_move h hmove with
  | keeps _ hstate _ => rw [hstate]
  | opens _ hfrom hstate _ =>
    rw [h.fresh hfrom, hstate]
    decide
  | closes _ _ hstate _ =>
    rw [hstate]
    exact StateE.stage_le _
  | halfCloses _ ha _ _ _ =>
    rw [ha] at hstore
    exact absurd hstore (by simp [stores])

/-- A store goes forward unless the connection has gone down since the test. -/
theorem forward_store_iff (h : Inv s) {t : T} (hmove : Move loopThread s (.store t) s') :
    Forward s (.store t) s' ↔ s.conn.state = .kConnected ∨ s.conn.state = .kDisconnecting := by
  cases hmove with
  | store hcall =>
    -- who is about to store has found the connection `kConnected`, so it is established
    have hup : s.conn.state ≠ .kConnecting := h.up (h.storing t hcall)
    show s.conn.state.stage ≤ 2 ↔ _
    cases hst : s.conn.state with
    | kConnecting => exact absurd hst hup
    | kConnected => simp [StateE.stage]
    | kDisconnecting => simp [StateE.stage]
    | kDisconnected => simp [StateE.stage]

theorem forward_of_finds (as : List (Label T)) (hi : Inv s)
    (hfinds : (system loopThread).StepsMeet Finds s as) :
    (system loopThread).StepsRelate Forward s as := by
  induction as generalizing s with
  | nil => trivial
  | cons a as ih =>
    intro u hu
    have hmove := (move_of_system hu).2
    obtain ⟨hhere, hthere⟩ := hfinds u hu
    refine ⟨?_, ih (inv_move hi hmove) hthere⟩
    cases hstore : stores a with
    | false => exact forward_of_not_store hi hmove hstore
    | true =>
      cases a with
      | store t => exact (forward_store_iff hi hmove).mpr (.inl (hhere t rfl))
      | _ => exact absurd hstore (by simp [stores])

/-! ### Counting -/

theorem shutting_setCall {t : T} {c : Call T} (hfrom : s.call t ≠ .shutting)
    (hto : c ≠ .shutting) : shutting (s.setCall t c) = shutting s := by
  ext x
  show Function.update s.call t c x = .shutting ↔ s.call x = .shutting
  rcases eq_or_ne x t with rfl | hne
  · rw [Function.update_self]
    exact iff_of_false hto hfrom
  · rw [Function.update_of_ne hne]

theorem encard_enter {t : T} (hfrom : s.call t ≠ .shutting) :
    (shutting (s.setCall t .shutting)).encard = (shutting s).encard + 1 := by
  have hset : shutting (s.setCall t .shutting) = insert t (shutting s) := by
    ext x
    show Function.update s.call t .shutting x = .shutting ↔ x = t ∨ s.call x = .shutting
    rcases eq_or_ne x t with rfl | hne
    · simp
    · rw [Function.update_of_ne hne]
      simp [hne]
  have hnot : t ∉ shutting s := hfrom
  rw [hset, Set.encard_insert_of_notMem hnot]

theorem encard_leave {t : T} (hfrom : s.call t = .shutting) :
    1 + (shutting (s.setCall t .idle)).encard = (shutting s).encard := by
  have hset : shutting (s.setCall t .idle) = shutting s \ {t} := by
    ext x
    show Function.update s.call t .idle x = .shutting ↔ s.call x = .shutting ∧ x ≠ t
    rcases eq_or_ne x t with rfl | hne
    · simp
    · rw [Function.update_of_ne hne]
      simp [hne]
  have hmem : t ∈ shutting s := hfrom
  rw [hset, add_comm, Set.encard_sdiff_singleton_add_one hmem]

/-- Every store is followed by one scheduling of `shutdownInLoop`. -/
theorem count_move (hmove : Move loopThread s a s') :
    ((if schedules a then 1 else 0 : ℕ) : ℕ∞) + (shutting s').encard =
      ((if stores a then 1 else 0 : ℕ) : ℕ∞) + (shutting s).encard := by
  cases hmove with
  | @sendTest t payload huser _ =>
    have hfrom : s.call t ≠ .shutting := by simp [huser.1]
    have hset : shutting (s.setCall t (.sending ⟨t, payload⟩)) = shutting s :=
      shutting_setCall hfrom (by simp)
    exact congrArg (fun x : Set T => 0 + x.encard) hset
  | sendDirect hcall =>
    have hset : shutting (s.setCall loopThread .idle) = shutting s :=
      shutting_setCall (by simp [hcall]) (by simp)
    exact congrArg (fun x : Set T => 0 + x.encard) hset
  | @sendQueue t _ _ hcall =>
    have hset : shutting (s.setCall t .idle) = shutting s :=
      shutting_setCall (by simp [hcall]) (by simp)
    exact congrArg (fun x : Set T => 0 + x.encard) hset
  | @shutdownTest t huser =>
    have hset : shutting (s.setCall t .storing) = shutting s :=
      shutting_setCall (by simp [huser.1]) (by simp)
    exact congrArg (fun x : Set T => 0 + x.encard) hset
  | @store t hcall =>
    have henter := encard_enter (s := s) (t := t) (by simp [hcall])
    show 0 + (shutting (s.setCall t .shutting)).encard = 1 + (shutting s).encard
    rw [henter, zero_add, add_comm]
  | shutdownDirect hcall =>
    -- the call that has stored schedules `shutdownInLoop` and is over
    have hleave := encard_leave hcall
    show 1 + (shutting (s.setCall loopThread .idle)).encard = 0 + (shutting s).encard
    rw [hleave, zero_add]
  | @shutdownQueue t hcall =>
    have hleave := encard_leave hcall
    show 1 + (shutting (s.setCall t .idle)).encard = 0 + (shutting s).encard
    rw [hleave, zero_add]
  | _ => rfl

theorem scheduled_eq (as : List (Label T)) {t : State T}
    (hrun : (system loopThread).run s as = some t) :
    scheduled as t = as.countP stores + (shutting s).encard := by
  induction as generalizing s with
  | nil =>
    obtain rfl : s = t := Option.some.inj hrun
    rfl
  | cons a as ih =>
    obtain ⟨u, hu, hrest⟩ := Machine.run_cons_eq_some _ |>.mp hrun
    -- scheduled and to be scheduled: the sum grows with the stores only
    have hcount := count_move (move_of_system hu).2
    have hrec := ih hrest
    calc (((a :: as).countP schedules : ℕ) : ℕ∞) + (shutting t).encard
        = (as.countP schedules + (shutting t).encard) + (if schedules a then 1 else 0 : ℕ) := by
          rw [List.countP_cons, Nat.cast_add, add_right_comm]
      _ = as.countP stores + ((if schedules a then 1 else 0 : ℕ) + (shutting u).encard) := by
          rw [← scheduled, hrec, add_assoc, add_comm (shutting u).encard]
      _ = ((a :: as).countP stores : ℕ) + (shutting s).encard := by
          rw [hcount, List.countP_cons, Nat.cast_add, add_assoc]

/-- From a start every store counts. -/
theorem scheduled_start (h : Start s) (as : List (Label T)) {t : State T}
    (hrun : (system loopThread).run s as = some t) :
    scheduled as t = as.countP stores := by
  have hnone : shutting s = ∅ := by
    ext x
    simp [shutting, h.call x]
  rw [scheduled_eq as hrun, hnone, Set.encard_empty, add_zero]

/-- While the stores find what their tests have found, there is one store for a
connection that is not yet `kDisconnecting`, and none after. -/
theorem stores_le (as : List (Label T)) (hi : Inv s)
    (hfinds : (system loopThread).StepsMeet Finds s as) {t : State T}
    (hrun : (system loopThread).run s as = some t) :
    as.countP stores ≤ if s.conn.state.stage ≤ 1 then 1 else 0 := by
  induction as generalizing s with
  | nil => exact Nat.zero_le _
  | cons a as ih =>
    obtain ⟨u, hu, hrest⟩ := Machine.run_cons_eq_some _ |>.mp hrun
    have hmove := (move_of_system hu).2
    obtain ⟨hhere, hthere⟩ := hfinds u hu
    have hrec := ih (inv_move hi hmove) hthere hrest
    rw [List.countP_cons]
    cases hstore : stores a with
    | false =>
      have hforward : s.conn.state.stage ≤ u.conn.state.stage :=
        forward_of_not_store hi hmove hstore
      -- a step without a store does not bring the state back below `kDisconnecting`
      simp only [Bool.false_eq_true, if_false, add_zero]
      split_ifs at hrec ⊢ <;> omega
    | true =>
      cases stateMove_move hi hmove with
      | halfCloses t ha _ hstate _ =>
        -- the connection is `kDisconnecting` from here on
        have hnone : as.countP stores ≤ 0 := by rwa [hstate] at hrec
        have hone : (if s.conn.state.stage ≤ 1 then 1 else 0) = 1 := by
          rw [hhere t ha]
          rfl
        rw [hone, if_pos rfl]
        omega
      | keeps hno => exact absurd (hno.symm.trans hstore) (by simp)
      | opens hno => exact absurd (hno.symm.trans hstore) (by simp)
      | closes hno => exact absurd (hno.symm.trans hstore) (by simp)

/-- A run that goes forward, and has at most one store in all, counted from the
`n` stores before it, finds what its tests have found. -/
theorem finds_of_forward (as : List (Label T)) {n : ℕ} (hi : Inv s)
    (hbefore : s.conn.state = .kDisconnecting → 1 ≤ n)
    (hforward : (system loopThread).StepsRelate Forward s as) {t : State T}
    (hrun : (system loopThread).run s as = some t) (hcount : n + as.countP stores ≤ 1) :
    (system loopThread).StepsMeet Finds s as := by
  induction as generalizing s n with
  | nil => trivial
  | cons a as ih =>
    obtain ⟨u, hu, hrest⟩ := Machine.run_cons_eq_some _ |>.mp hrun
    have hmove := (move_of_system hu).2
    intro v hv
    obtain rfl : u = v := Option.some.inj (hu.symm.trans hv)
    obtain ⟨hhere, hthere⟩ := hforward u hu
    rw [List.countP_cons] at hcount
    refine ⟨?_, ih (n := n + if stores a then 1 else 0) (inv_move hi hmove) ?_ hthere hrest
      (by omega)⟩
    · rintro t rfl
      rcases (forward_store_iff hi hmove).mp hhere with hup | hsecond
      · exact hup
      · have hone := hbefore hsecond
        have hstore : stores (.store t : Label T) = true := rfl
        rw [hstore, if_pos rfl] at hcount
        omega
    · intro hdisconnecting
      cases stateMove_move hi hmove with
      | keeps _ hstate =>
        have hone := hbefore (hstate ▸ hdisconnecting)
        omega
      | opens _ _ hstate => exact absurd (hstate.symm.trans hdisconnecting) (by simp)
      | closes _ _ hstate => exact absurd (hstate.symm.trans hdisconnecting) (by simp)
      | halfCloses t ha =>
        rw [ha]
        exact Nat.le_add_left 1 n

/-- Exactly the runs whose stores find the connection `kConnected` take the
state forward only and schedule one `shutdownInLoop` at most. -/
theorem forward_iff (h : (system loopThread).init s) {as : List (Label T)} {t : State T}
    (hrun : (system loopThread).run s as = some t) :
    (system loopThread).StepsRelate Forward s as ∧ scheduled as t ≤ 1 ↔
      (system loopThread).StepsMeet Finds s as := by
  have hstart : Start s := h
  have hstate : s.conn.state = .kConnecting := hstart.fresh.state
  have hcounted : scheduled as t ≤ 1 ↔ as.countP stores ≤ 1 := by
    rw [scheduled_start hstart as hrun]
    exact Nat.cast_le_one
  rw [hcounted]
  constructor
  · rintro ⟨hforward, hcount⟩
    refine finds_of_forward as (n := 0) (inv_start hstart) ?_ hforward hrun (by omega)
    rw [hstate]
    exact fun hne => absurd hne (by simp)
  · intro hfinds
    refine ⟨?_, ?_⟩
    · exact forward_of_finds as (inv_start hstart) hfinds
    · have hle := stores_le as (inv_start hstart) hfinds hrun
      rwa [hstate] at hle

end Step

/-- The run of one `shutdown` from thread 1. -/
theorem forward_iff_shutdown :
    ∃ t, (system 0).run fresh
        [.connectionEstablished, .shutdown 1, .store 1, .shutdownBody 1] = some t ∧
      ((system 0).StepsRelate Forward fresh
          [.connectionEstablished, .shutdown 1, .store 1, .shutdownBody 1] ∧
        scheduled [.connectionEstablished, .shutdown 1, .store 1, .shutdownBody 1] t ≤ 1 ↔
      (system 0).StepsMeet Finds fresh
        [.connectionEstablished, .shutdown 1, .store 1, .shutdownBody 1]) :=
  ⟨_, rfl, forward_iff (start_make (TcpConnection.make_fresh 5 false)) rfl⟩

/-- Thread 1 is past the test of `shutdown` when the connection closes: its
store leads from `kDisconnected` to `kDisconnecting`. -/
theorem store_after_handleClose :
    ¬ (system 0).StepsRelate Forward fresh
      [.connectionEstablished, .shutdown 1, .handleClose, .store 1] := by
  intro h
  have hrun : ∃ t u, (system 0).run fresh [.connectionEstablished, .shutdown 1, .handleClose] =
      some t ∧ (system 0).step t (.store 1) = some u ∧ t.conn.state = .kDisconnected ∧
      u.conn.state = .kDisconnecting :=
    ⟨_, _, rfl, rfl, rfl, rfl⟩
  obtain ⟨t, u, ht, hu, hdown, hback⟩ := hrun
  have hforward := Machine.StepsRelate.at [.connectionEstablished, .shutdown 1, .handleClose] []
    h ht hu
  rw [Forward, hdown, hback] at hforward
  exact absurd hforward (by decide)

end StateOrder

end ConnectionLoop

end Moduo
