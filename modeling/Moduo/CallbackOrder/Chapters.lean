/-
The history of a connection in a live server.

A connection is in the `Chapter` of its history that fits its stage; what keeps
`handleClose` from running twice is the count of its triggers.

* `orderly_runs` — one instruction of a loop thread goes on with the history of
  the connection it is about, and leaves that of the others alone.
-/
import Moduo.CallbackOrder.Triggers
import Moduo.LifeCycle

namespace Moduo

namespace TcpServer

variable {L U : Type*}

/-- Linux reports `EPOLLHUP` without `EPOLLIN` only if `EPOLLIN` is not
registered. -/
def HangupRule (s : State L U) : Label L U → Prop
  | .exec (.loop l) (.polled ready) => ∀ b ∈ ready, ∀ e, (s.pollers l).epoll b.1 = some e →
      b.2 &&& EPOLLHUP ≠ 0 → b.2 &&& EPOLLIN = 0 → e.1 &&& EPOLLIN = 0
  | _ => True

/-- The steps of a live server on Linux. -/
def LiveOnLinux (s : State L U) (a : Label L U) : Prop := Live s a ∧ HangupRule s a

instance (s : State L U) : (a : Label L U) → Decidable (HangupRule s a)
  | .exec (.loop l) (.polled ready) => inferInstanceAs (Decidable (∀ b ∈ ready,
      ∀ e ∈ (s.pollers l).epoll b.1,
        b.2 &&& EPOLLHUP ≠ 0 → b.2 &&& EPOLLIN = 0 → e.1 &&& EPOLLIN = 0))
  | .exec (.loop _) .none => .isTrue trivial
  | .exec (.loop _) (.read _) => .isTrue trivial
  | .exec (.loop _) (.wrote _) => .isTrue trivial
  | .exec (.loop _) (.accepted _) => .isTrue trivial
  | .exec (.user _) _ => .isTrue trivial
  | .callbackReturn _ => .isTrue trivial
  | .send _ _ _ => .isTrue trivial
  | .shutdown _ _ => .isTrue trivial
  | .setThreadNum _ => .isTrue trivial
  | .loop _ => .isTrue trivial
  | .quit _ _ => .isTrue trivial
  | .destroyServer _ => .isTrue trivial
  | .destroyConnection _ => .isTrue trivial

instance [DecidableEq L] [DecidableEq U] (s : State L U) (a : Label L U) :
    Decidable (LiveOnLinux s a) :=
  inferInstanceAs (Decidable (_ ∧ _))

section Step

variable [DecidableEq L]

/-- What the event means for `c`. -/
def Event.mark? (c : ConnPtr L) : Event L U → Option Mark
  | .member _ d .connectionEstablished => if d = c then some .established else none
  | .member _ d .connectionDestroyed => if d = c then some .destroyed else none
  | .connectionCallback _ d connected =>
    if d = c then some (if connected then .up else .down) else none
  | .messageCallback _ d => if d = c then some .message else none
  | .closeCallback _ d => if d = c then some .close else none
  | .freed d => if d = c then some .freed else none
  | _ => none

def marks (c : ConnPtr L) (events : List (Event L U)) : List Mark :=
  events.filterMap (Event.mark? c)

/-- The history of `c`. -/
def State.history (s : State L U) (c : ConnPtr L) : List Mark := marks c s.log

/-- The history of `c` has led to phase `ph` of the life cycle. -/
def State.Reports (s : State L U) (c : ConnPtr L) (ph : Phase) : Prop :=
  lifeCycle.run .fresh (s.history c) = some ph

@[simp] theorem marks_append (c : ConnPtr L) (events events' : List (Event L U)) :
    marks c (events ++ events') = marks c events ++ marks c events' :=
  List.filterMap_append

variable [Fintype L]

/-- The one task that is left of the way down, and the phase before it. -/
inductive Left (s : State L U) (c : ConnPtr L) : Phase → Prop
  | report (hreport : s.tasks .report c = 1) (hremove : s.tasks .remove c = 0)
      (hunhook : s.tasks .unhook c = 0) : Left s c .down
  | remove (hreport : s.tasks .report c = 0) (hremove : s.tasks .remove c = 1)
      (hunhook : s.tasks .unhook c = 0) : Left s c .closed
  | unhook (hreport : s.tasks .report c = 0) (hremove : s.tasks .remove c = 0)
      (hunhook : s.tasks .unhook c = 1) : Left s c .destroyed
  | done (hreport : s.tasks .report c = 0) (hremove : s.tasks .remove c = 0)
      (hunhook : s.tasks .unhook c = 0) : Left s c .destroyed

inductive Chapter (s : State L U) (c : ConnPtr L) (conn : TcpConnection) : Prop
  | connecting (hstate : conn.state = .kConnecting) (hphase : s.Reports c .fresh)
      (htriggers : s.triggers c = 0)
  | up (hopen : conn.Open) (hphase : s.Reports c .up) (htriggers : s.triggers c ≤ 1)
  | down (ph : Phase) (hstate : conn.state = .kDisconnected) (hphase : s.Reports c ph)
      (hleft : Left s c ph) (htriggers : s.triggers c = 0)

structure Orderly (s : State L U) (c : ConnPtr L) : Prop where
  unborn : s.nextConnId ≤ c.id → s.history c = []
  gone : s.heap c = none → ∃ ph, s.Reports c ph ∧ ph ≠ .establishing
  chapter : ∀ conn, s.heap c = some conn → Chapter s c conn
  paired : ∀ conn, s.heap c = some conn → conn.channel.Paired

/-- The invariant of a live server, with the order of the callbacks. -/
structure InOrder (cfg : Config L U) (s : State L U) : Prop where
  invariant : Invariant cfg s
  fit : ∀ l c revents, .handleEvent (.conn c) revents ∈ s.stack (.loop l) → Fit revents
  orderly : ∀ c, Orderly s c

variable {cfg : Config L U} {s s' : State L U} {l : L} {c d : ConnPtr L} {conn : TcpConnection}

theorem Left.congr {ph : Phase} (h : Left s c ph) (htasks : ∀ k, s'.tasks k c = s.tasks k c) :
    Left s' c ph := by
  cases h with
  | report h₁ h₂ h₃ =>
    exact .report ((htasks _).trans h₁) ((htasks _).trans h₂) ((htasks _).trans h₃)
  | remove h₁ h₂ h₃ =>
    exact .remove ((htasks _).trans h₁) ((htasks _).trans h₂) ((htasks _).trans h₃)
  | unhook h₁ h₂ h₃ =>
    exact .unhook ((htasks _).trans h₁) ((htasks _).trans h₂) ((htasks _).trans h₃)
  | done h₁ h₂ h₃ =>
    exact .done ((htasks _).trans h₁) ((htasks _).trans h₂) ((htasks _).trans h₃)

omit [Fintype L] in
/-- The history goes on by some marks. -/
theorem State.Reports.extend {ph ph' : Phase} (h : s.Reports c ph) {ms : List Mark}
    (hhistory : s'.history c = s.history c ++ ms) (hrun : lifeCycle.run ph ms = some ph') :
    s'.Reports c ph' := by
  have h : lifeCycle.run .fresh (s.history c) = some ph := h
  rw [State.Reports, hhistory, Machine.run_append, h]
  exact hrun

/-- Nothing has happened to `c`, but that it may have fewer triggers. -/
theorem Chapter.congr (h : Chapter s c conn) (hhistory : s'.history c = s.history c)
    (htasks : ∀ k, s'.tasks k c = s.tasks k c) (htriggers : s'.triggers c ≤ s.triggers c) :
    Chapter s' c conn := by
  have hsame : ∀ {ph}, s.Reports c ph → s'.Reports c ph := by
    intro ph hph
    rw [State.Reports, hhistory]
    exact hph
  cases h with
  | connecting hstate hphase hzero => exact .connecting hstate (hsame hphase) (by omega)
  | up hopen hphase hone => exact .up hopen (hsame hphase) (by omega)
  | down ph hstate hphase hleft hzero =>
    exact .down ph hstate (hsame hphase) (hleft.congr htasks) (by omega)

theorem Orderly.congr (h : Orderly s d) (hheap : s'.heap d = s.heap d)
    (hid : s.nextConnId ≤ s'.nextConnId) (hhistory : s'.history d = s.history d)
    (htasks : ∀ k, s'.tasks k d = s.tasks k d) (htriggers : s'.triggers d ≤ s.triggers d) :
    Orderly s' d := by
  constructor
  · intro hunborn
    rw [hhistory]
    exact h.unborn (hid.trans hunborn)
  · intro hnone
    rw [hheap] at hnone
    obtain ⟨ph, hph, hne⟩ := h.gone hnone
    refine ⟨ph, ?_, hne⟩
    rw [State.Reports, hhistory]
    exact hph
  · intro conn hconn
    rw [hheap] at hconn
    exact (h.chapter conn hconn).congr hhistory htasks htriggers
  · intro conn hconn
    rw [hheap] at hconn
    exact h.paired conn hconn

/-- A connection that is there, in its next chapter. -/
theorem Orderly.of_chapter (hheap : s.heap c = some conn) (hid : c.id < s.nextConnId)
    (hchapter : Chapter s c conn) (hpaired : conn.channel.Paired) : Orderly s c := by
  constructor
  · intro hunborn
    omega
  · intro hnone
    exact absurd (hnone.symm.trans hheap) (by simp)
  · intro conn' hconn'
    exact Option.some.inj (hheap.symm.trans hconn') ▸ hchapter
  · intro conn' hconn'
    exact Option.some.inj (hheap.symm.trans hconn') ▸ hpaired

/-- A task of the way down belongs to the last chapter. -/
theorem InOrder.down_of_task (h : InOrder cfg s) (hconn : s.heap c = some conn) {k : Task}
    (hk : k ≠ .establish) (hpos : 0 < s.tasks k c) :
    ∃ ph, conn.state = .kDisconnected ∧ s.Reports c ph ∧ Left s c ph ∧ s.triggers c = 0 := by
  have hdown := (((h.invariant.life c).stage conn hconn).of_closing
    (hpos.trans_le (tasks_le_closing hk))).1
  cases (h.orderly c).chapter conn hconn with
  | connecting hstate => exact absurd (hstate.symm.trans hdown) (by simp)
  | up hopen => exact absurd hdown hopen.ne_disconnected
  | down ph hstate hphase hleft hzero => exact ⟨ph, hstate, hphase, hleft, hzero⟩

/-! ### What a member reports -/

omit [Fintype L] in
theorem marks_effects_of_ne {t : Thread L U} (hd : d ≠ c) (tr : List Effect) :
    marks d (tr.filterMap (effectEvent t c)) = [] := by
  rw [marks, List.filterMap_filterMap, List.filterMap_eq_nil_iff]
  intro x _
  cases x <;> simp [effectEvent, Event.mark?, Ne.symm hd]

omit [Fintype L] in
theorem history_performed {t : Thread L U} {events : List (Event L U)}
    {e : Endpoint (ChannelPtr L)} {is : List (Instr L)} [DecidableEq U] :
    ((s.performed t c events e).setStack t is).history d = s.history d ++
      (marks d events ++ marks d ((callbacks e.trace).filterMap (effectEvent t c))) := by
  have hlog : ((s.performed t c events e).setStack t is).history d =
      marks d (s.log ++ events ++ e.trace.filterMap (effectEvent t c)) := rfl
  rw [hlog, marks_append, marks_append, events_effects, List.append_assoc, State.history]

section Calls

variable {t : Thread L U} {i : Instr L} {o : Outcome} {events : List (Event L U)}
  {f : Endpoint (ChannelPtr L) → Endpoint (ChannelPtr L)}

omit [Fintype L] in
theorem Calls.marks_of_ne (hcalls : Calls t c conn i o events f) (hd : d ≠ c) :
    marks d events = [] := by
  cases hcalls <;> simp [marks, Event.mark?, Ne.symm hd]

omit [Fintype L] in
theorem Calls.marks_self (hcalls : Calls t c conn i o events f) :
    marks c events = if i = .functor (.connectionEstablished c) then [.established] else [] := by
  cases hcalls <;> simp [marks, Event.mark?]

omit [DecidableEq L] [Fintype L] in
/-- A member is a task of its own connection, if of any. -/
theorem Calls.task_self (hcalls : Calls t c conn i o events f) {k : Task}
    (hi : i.task? = some (k, d)) : d = c := by
  cases hcalls <;> simp_all [Instr.task?, Functor.task?]

omit [DecidableEq L] [Fintype L] in
/-- No member asks `epoll` for `EPOLLPRI` alone. -/
theorem Calls.paired (hcalls : Calls t c conn i o events f) (h : conn.channel.Paired) :
    (f (s.endpoint c conn)).conn.channel.Paired := by
  cases hcalls with
  | sendInLoop => exact Endpoint.paired_sendInLoop h _ _
  | shutdownInLoop =>
    rw [Endpoint.shutdownInLoop]
    split_ifs <;> exact h
  | connectionEstablished => exact Channel.enableReading_paired _ _ _
  | handleClose => exact Channel.disableAll_paired _ _ _
  | handleError => exact h
  | endOfFile => exact Channel.disableAll_paired _ _ _
  | handleRead hne =>
    rw [(Endpoint.handleRead_of_ne (.conn c) hne (s.endpoint c conn)).2.1]
    exact h
  | handleWrite hadm => exact Endpoint.paired_handleWrite h hadm
  | disconnect => exact Channel.disableAll_paired _ _ _
  | removeChannel => exact Channel.remove_paired h (s.pollers c.loop) (.conn c)

end Calls

omit [DecidableEq L] [Fintype L] in
theorem trigger_effects {tr : List Effect} {j : Instr L}
    (hj : j ∈ tr.flatMap (effectInstrs c)) : j.trigger? = none := by
  rcases mem_effects hj with ⟨cb, rfl⟩ | rfl | rfl
  · rfl
  · rfl
  · rfl

/-! ### The members -/

section Members

variable [DecidableEq U] {i : Instr L} {o : Outcome} {rest : List (Instr L)}
  {events : List (Event L U)} {f : Endpoint (ChannelPtr L) → Endpoint (ChannelPtr L)}

/-- A member of `c` does not concern `d`. -/
theorem Orderly.performed_of_ne (h : Orderly s d) (hd : d ≠ c)
    (hstack : s.stack (.loop l) = i :: rest) (hcalls : Calls (.loop l) c conn i o events f)
    (hruns : Runs cfg (.loop l) s i o (s.performed (.loop l) c events (f (s.endpoint c conn)))
      ((f (s.endpoint c conn)).trace.flatMap (effectInstrs c))) :
    Orderly ((s.performed (.loop l) c events (f (s.endpoint c conn))).setStack (.loop l)
      ((f (s.endpoint c conn)).trace.flatMap (effectInstrs c) ++ rest)) d := by
  refine h.congr (Function.update_of_ne hd _ _) le_rfl ?_ (fun k => ?_) ?_
  · rw [history_performed, hcalls.marks_of_ne hd, marks_effects_of_ne hd]
    exact List.append_nil _
  · have hcount := tasks_runs (k := k) (c := d) hstack hruns hcalls.not_transfers
    have hspent : i.task?.toList.count (k, d) = 0 := by
      refine List.count_eq_zero.mpr fun hmem => hd ?_
      exact hcalls.task_self (Option.mem_toList.mp hmem)
    have hleft := count_effects_of_ne hd (f (s.endpoint c conn)).trace k
    omega
  · refine triggers_le hstack hruns fun j hj => ?_
    rw [trigger_effects hj]
    simp

omit [DecidableEq U] in
/-- An event that may reach `handleClose` is counted. -/
theorem trigger_of_mem (hi : i ∈ s.stack (.loop l)) (htrigger : i.trigger? = some c) :
    0 < s.triggers c := by
  have hle : triggering c i ≤ s.triggers c := le_tally (i := Sum.inl l) hi
  rw [triggering_eq_one htrigger] at hle
  omega

omit [DecidableEq U] in
/-- The five ways of a member, each with the chapter it writes. -/
theorem Chapter.shift {e : Endpoint (ChannelPtr L)} {t : Thread L U} (h : Chapter s c conn)
    (hstage : Stage s c conn) (hshift : Shift c i (s.endpoint c conn) e)
    (hmarks : s'.history c = s.history c ++
      ((if i = .functor (.connectionEstablished c) then [.established] else []) ++
        marks c ((callbacks e.trace).filterMap (effectEvent t c))))
    (htasks : ∀ k, s'.tasks k c + i.task?.toList.count (k, c) = s.tasks k c +
      (((callbacks e.trace).flatMap (effectInstrs c)).filterMap Instr.task?).count (k, c))
    (hwaits : i.trigger? = some c → 0 < s.triggers c)
    (hle : s'.triggers c ≤ s.triggers c)
    (hspent : i.trigger? = some c → s'.triggers c + 1 = s.triggers c) :
    Chapter s' c e.conn := by
  cases hshift with
  | establishes hi hfrom hto hchannel hcallbacks =>
    rw [if_pos hi, hcallbacks] at hmarks
    cases h with
    | connecting hstate hphase hzero =>
      -- the one callback is the report that the connection is up
      have hup : marks c (([.connectionCallback true] : List Effect).filterMap
          (effectEvent t c)) = [.up] := by simp [marks, effectEvent, Event.mark?]
      rw [hup] at hmarks
      exact .up (.inl hto) (hphase.extend hmarks rfl) (by omega)
    | up hopen => exact absurd hfrom hopen.ne_connecting
    | down ph hstate => exact absurd (hfrom.symm.trans hstate) (by simp)
  | works hi hopen hstate hchannel hcallbacks =>
    have hno : i ≠ .functor (.connectionEstablished c) := by
      rintro rfl
      exact absurd hi (by simp [Instr.task?, Functor.task?])
    rw [if_neg hno] at hmarks
    have hopen' : e.conn.Open := by
      rw [TcpConnection.Open, hstate]
      exact hopen
    cases h with
    | connecting hstate => exact absurd hstate hopen.ne_connecting
    | up _ hphase hone =>
      refine .up hopen' (hphase.extend hmarks ?_) (by omega)
      -- an open connection adds nothing to the word, or a message
      rcases hcallbacks with hnone | ⟨-, hmessage⟩
      · rw [hnone]
        rfl
      · rw [hmessage]
        have hmark : marks c (([.messageCallback] : List Effect).filterMap
            (effectEvent t c)) = [.message] := by simp [marks, effectEvent, Event.mark?]
        rw [hmark]
        rfl
    | down ph hstate => exact absurd hstate hopen.ne_disconnected
  | idles hi hfrom hdown hstate hchannel hcallbacks =>
    cases h with
    | connecting hconnecting => exact absurd (hdown.symm.trans hconnecting) (by simp)
    | up hopen => exact absurd hdown hopen.ne_disconnected
    | down ph _ hphase hleft hzero =>
      -- a message would need an event that has not been dispatched yet
      have hnone : callbacks e.trace = [] := by
        rcases hcallbacks with hnone | ⟨rfl, -⟩
        · exact hnone
        · have hpos := hwaits rfl
          omega
      have hno : i ≠ .functor (.connectionEstablished c) := by
        rintro rfl
        exact absurd hi (by simp [Instr.task?, Functor.task?])
      rw [if_neg hno, hnone] at hmarks
      rw [hi, hnone] at htasks
      exact .down ph (hstate.trans hdown) (hphase.extend hmarks rfl) (hleft.congr htasks) (by omega)
  | closes hi hfrom hto hchannel hcallbacks =>
    have htrigger : i.trigger? = some c := by
      rcases hi with rfl | rfl <;> rfl
    have hpos := hwaits htrigger
    cases h with
    | connecting _ _ hzero => omega
    | up hopen hphase hone =>
      have hno : i ≠ .functor (.connectionEstablished c) := by
        rcases hi with rfl | rfl <;> simp
      have hnotask : i.task? = none := by
        rcases hi with rfl | rfl <;> rfl
      rw [if_neg hno, hcallbacks] at hmarks
      rw [hnotask, hcallbacks] at htasks
      have hdone := hspent htrigger
      have hclosing := (hstage.of_open hopen).2.2.2
      rw [State.closing] at hclosing
      -- the one new task is the call of `closeCallback_`
      have hcount : ∀ k, s'.tasks k c = s.tasks k c + [(Task.report, c)].count (k, c) := htasks
      have hreport := hcount .report
      have hremove := hcount .remove
      have hunhook := hcount .unhook
      simp only [count_task, reduceCtorEq, if_false, if_true] at hreport hremove hunhook
      have hdown : marks c (([.connectionCallback false, .closeCallback] : List Effect).filterMap
          (effectEvent t c)) = [.down] := by simp [marks, effectEvent, Event.mark?]
      rw [hdown] at hmarks
      refine .down .down hto (hphase.extend hmarks rfl) ?_ (by omega)
      exact .report (by omega) (by omega) (by omega)
    | down _ _ _ _ hzero => omega
  | removes hi hfrom hto hchannel hcallbacks =>
    subst hi
    rw [hcallbacks] at hmarks htasks
    have hcount : ∀ k, s'.tasks k c + [(Task.unhook, c)].count (k, c) = s.tasks k c := htasks
    have hreport := hcount .report
    have hremove := hcount .remove
    have hunhook := hcount .unhook
    simp only [count_task, reduceCtorEq, if_false, if_true] at hreport hremove hunhook
    -- the last task goes, so of the ways down only the last is left
    cases h with
    | connecting hconnecting => exact absurd (hfrom.symm.trans hconnecting) (by simp)
    | up hopen => exact absurd hfrom hopen.ne_disconnected
    | down ph _ hphase hleft hzero =>
      refine .down ph hto (hphase.extend hmarks rfl) ?_ (by omega)
      cases hleft with
      | unhook => exact .done (by omega) (by omega) (by omega)
      | _ => omega

/-- A member takes its connection to the chapter it writes. -/
theorem InOrder.performed_self (h : InOrder cfg s) (hstack : s.stack (.loop l) = i :: rest)
    (hconn : s.heap c = some conn) (hcalls : Calls (.loop l) c conn i o events f)
    (hruns : Runs cfg (.loop l) s i o (s.performed (.loop l) c events (f (s.endpoint c conn)))
      ((f (s.endpoint c conn)).trace.flatMap (effectInstrs c))) :
    Orderly ((s.performed (.loop l) c events (f (s.endpoint c conn))).setStack (.loop l)
      ((f (s.endpoint c conn)).trace.flatMap (effectInstrs c) ++ rest)) c := by
  have hmem : i ∈ s.stack (.loop l) := hstack ▸ List.mem_cons_self
  obtain ⟨-, hshift, -⟩ := h.invariant.shift hmem hconn hcalls
  have hno : ∀ j ∈ (f (s.endpoint c conn)).trace.flatMap (effectInstrs c),
      j.trigger? ≠ some c := by
    intro j hj
    rw [trigger_effects hj]
    simp
  refine .of_chapter (Function.update_self _ _ _) (h.invariant.ledger.id_lt c conn hconn) ?_
    (hcalls.paired ((h.orderly c).paired conn hconn))
  refine ((h.orderly c).chapter conn hconn).shift (t := .loop l)
    ((h.invariant.life c).stage conn hconn) hshift ?_
    (fun k => tasks_performed hstack hruns hcalls.not_transfers k c) (trigger_of_mem hmem)
    (triggers_le hstack hruns hno)
    (fun htrigger => triggers_spent hstack hruns hcalls.not_transfers htrigger hno)
  rw [history_performed, hcalls.marks_self]

end Members

end Step

end TcpServer

end Moduo
