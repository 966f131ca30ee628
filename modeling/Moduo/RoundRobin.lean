/-
The connections are dealt to the loops in turn.

* `round_robin` — along every run the `k`-th connection accepted goes to the loop
  at `k` modulo the number of io loops, or to the base loop where there are none;
  so the numbers of connections that two io loops have been given differ by at
  most one.

`next_` is only moved by `getNextLoop`, which is only called for a connection
accepted.
-/
import Mathlib.Data.Int.CardIntervalMod
import Moduo.Registry

namespace Moduo

/-- Of the first `m` numbers, those that leave the rest `i`. -/
theorem countP_range_mod {n i : ℕ} (hi : i < n) (m : ℕ) :
    (List.range m).countP (fun k => k % n = i) = m / n + if i < m % n then 1 else 0 := by
  have hcount : (List.range m).countP (fun k => k % n = i) = m.count (· ≡ i [MOD n]) := by
    induction m with
    | zero => rfl
    | succ m ih =>
      rw [List.range_succ, List.countP_append, ih, Nat.count_succ, List.countP_singleton]
      simp only [Nat.ModEq, Nat.mod_eq_of_lt hi, decide_eq_true_eq]
  rw [hcount, Nat.count_modEq_card m (by omega), Nat.mod_eq_of_lt hi]

namespace TcpServer

variable {L U : Type*}

/-- The loop of the connection that is accepted after `k` others. -/
def Config.loopOf (cfg : Config L U) (k : ℕ) : L :=
  (cfg.loops[k % cfg.loops.length]?).getD cfg.base

/-- `next_` after `k` connections. -/
def Config.nextOf (cfg : Config L U) (k : ℕ) : ℕ :=
  if cfg.loops = [] then 0 else k % cfg.loops.length

theorem Config.loopOf_of_nil {cfg : Config L U} (h : cfg.loops = []) (k : ℕ) :
    cfg.loopOf k = cfg.base := by
  rw [Config.loopOf, h]
  rfl

theorem Config.getElem?_loopOf {cfg : Config L U} (h : cfg.loops ≠ []) (k : ℕ) :
    cfg.loops[k % cfg.loops.length]? = some (cfg.loopOf k) := by
  have hlt : k % cfg.loops.length < cfg.loops.length :=
    Nat.mod_lt _ (List.length_pos_iff.mpr h)
  rw [Config.loopOf, List.getElem?_eq_getElem hlt]
  rfl

/-- `getNextLoop` hands out the loops in turn. -/
theorem Config.getNextLoop_nextOf (cfg : Config L U) (k : ℕ) :
    cfg.getNextLoop (cfg.nextOf k) = (cfg.loopOf k, cfg.nextOf (k + 1)) := by
  by_cases h : cfg.loops = []
  · rw [Config.loopOf_of_nil h, Config.nextOf, Config.nextOf, if_pos h, if_pos h,
      Config.getNextLoop, h]
    rfl
  · have hlt : k % cfg.loops.length < cfg.loops.length :=
      Nat.mod_lt _ (List.length_pos_iff.mpr h)
    rw [Config.nextOf, Config.nextOf, if_neg h, if_neg h, Config.getNextLoop,
      Config.getElem?_loopOf h]
    simp only [Prod.mk.injEq, true_and]
    have hsucc : (k + 1) % cfg.loops.length = (k % cfg.loops.length + 1) % cfg.loops.length :=
      (Nat.mod_add_mod _ _ _).symm
    rw [hsucc]
    split_ifs with hend
    · have hlast : k % cfg.loops.length + 1 = cfg.loops.length := by omega
      rw [hlast, Nat.mod_self]
    · exact (Nat.mod_eq_of_lt (by omega)).symm

/-! ### The connections accepted -/

def Change.created? : Change L → Option (ConnPtr L)
  | .created c => some c
  | .removed _ => none

/-- `cs` have been accepted, and dealt in turn. -/
structure Dealt (cfg : Config L U) (cs : List (ConnPtr L)) (s : State L U) : Prop where
  nextConnId : s.nextConnId = cs.length + 1
  next : s.next = cfg.nextOf cs.length
  turn : ∀ k c, cs[k]? = some c → c.id = k + 1 ∧ c.loop = cfg.loopOf k

variable {cfg : Config L U} {cs : List (ConnPtr L)} {s s' : State L U}

theorem dealt_start (h : Start cfg s) : Dealt cfg [] s where
  nextConnId := h.nextConnId
  next := by
    rw [h.next, Config.nextOf]
    split_ifs
    · rfl
    · exact (Nat.zero_mod _).symm
  turn k c hc := by simp at hc

theorem Dealt.congr (h : Dealt cfg cs s) (hid : s'.nextConnId = s.nextConnId)
    (hnext : s'.next = s.next) : Dealt cfg cs s' :=
  ⟨hid.trans h.nextConnId, hnext.trans h.next, h.turn⟩

section Step

variable [DecidableEq L]

/-- A connection is accepted and dealt. -/
theorem Dealt.newConnection (h : Dealt cfg cs s) (t : Thread L U) (connfd : ℕ) :
    Dealt cfg (cs ++ [⟨s.nextConnId, (cfg.getNextLoop s.next).1, connfd⟩])
      (s.newConnection cfg t connfd).1 := by
  have hdeal := cfg.getNextLoop_nextOf cs.length
  rw [← h.next] at hdeal
  refine ⟨?_, ?_, fun k c hc => ?_⟩
  · rw [List.length_append, List.length_singleton]
    exact congrArg (· + 1) h.nextConnId
  · rw [List.length_append, List.length_singleton]
    exact congrArg Prod.snd hdeal
  · rcases Nat.lt_trichotomy k cs.length with hk | rfl | hk
    · rw [List.getElem?_append_left hk] at hc
      exact h.turn k c hc
    · rw [List.getElem?_concat_length] at hc
      obtain rfl := Option.some.inj hc
      exact ⟨h.nextConnId, congrArg Prod.fst hdeal⟩
    · rw [List.getElem?_eq_none (by simpa using hk)] at hc
      contradiction

theorem next_runs {t : Thread L U} {i : Instr L} {o : Outcome} {is : List (Instr L)}
    (hnot : ∀ revents, i ≠ .handleEvent .acceptor revents) (hruns : Runs cfg t s i o s' is) :
    s'.nextConnId = s.nextConnId ∧ s'.next = s.next := by
  cases hruns with
  | newConnection => exact absurd rfl (hnot _)
  | _ => exact ⟨rfl, rfl⟩

theorem Dealt.exec (h : Dealt cfg cs s) {t : Thread L U} {o : Outcome} {i : Instr L}
    {r : State L U × List (Instr L)} (hr : exec cfg t o s i = some r) :
    Dealt cfg (cs ++ ((instrChange cfg s o i).bind Change.created?).toList) r.1 := by
  by_cases hacceptor : ∃ revents, i = .handleEvent .acceptor revents
  · obtain ⟨revents, rfl⟩ := hacceptor
    rcases exec_acceptor hr with ⟨hnone, rfl⟩ | ⟨connfd, hcreated, rfl⟩
    · rw [hnone]
      exact (List.append_nil cs).symm ▸ h
    · rw [hcreated]
      exact h.newConnection t connfd
  · have hnot : ∀ revents, i ≠ .handleEvent .acceptor revents :=
      fun revents heq => hacceptor ⟨revents, heq⟩
    obtain ⟨hid, hnext⟩ := next_runs hnot (runs_of_exec hr)
    have hnone : (instrChange cfg s o i).bind Change.created? = none := by
      cases hchange : instrChange cfg s o i with
      | none => rfl
      | some x =>
        cases x with
        | removed c => rfl
        | created c =>
          by_cases hremove : ∃ d, i = .functor (.removeConnectionInLoop d)
          · obtain ⟨d, rfl⟩ := hremove
            simp [instrChange] at hchange
          · rw [instrChange_eq_none hnot fun d heq => hremove ⟨d, heq⟩] at hchange
            contradiction
    rw [hnone]
    exact (List.append_nil cs).symm ▸ h.congr hid hnext

variable [DecidableEq U] [Fintype L]

theorem Dealt.step (h : Dealt cfg cs s) {a : Label L U} (hstep : TcpServer.step cfg s a = some s') :
    Dealt cfg (cs ++ ((change cfg s a).bind Change.created?).toList) s' := by
  by_cases hexec : ∃ t o, a = .exec t o
  · obtain ⟨t, o, rfl⟩ := hexec
    obtain ⟨i, rest, r, hstack, hr, rfl⟩ := exec_of_step hstep
    rw [change, hstack]
    exact (h.exec hr).congr rfl rfl
  · rw [change_of_not_exec fun t o heq => hexec ⟨t, o, heq⟩]
    show Dealt cfg (cs ++ []) s'
    rw [List.append_nil]
    cases move_of_step hstep with
    | exec => exact absurd ⟨_, _, rfl⟩ hexec
    | _ => exact h.congr rfl rfl

/-- The connections accepted along a run, in order. -/
def accepted (cfg : Config L U) (s : State L U) (as : List (Label L U)) : List (ConnPtr L) :=
  (changes cfg s as).filterMap Change.created?

theorem Dealt.run (as : List (Label L U)) {cs : List (ConnPtr L)} {s s' : State L U}
    (h : Dealt cfg cs s) (hrun : (system cfg).run s as = some s') :
    Dealt cfg (cs ++ accepted cfg s as) s' := by
  induction as generalizing cs s with
  | nil =>
    obtain rfl : s = s' := Option.some.inj hrun
    exact (List.append_nil cs).symm ▸ h
  | cons a as ih =>
    obtain ⟨u, hu, hrest⟩ := (Machine.run_cons_eq_some _).mp hrun
    have haccepted : accepted cfg s (a :: as) =
        ((change cfg s a).bind Change.created?).toList ++ accepted cfg u as := by
      rw [accepted, changes, Machine.collect_cons hu, List.filterMap_append, accepted, changes]
      congr 1
      cases change cfg s a with
      | none => rfl
      | some x => cases x <;> rfl
    rw [haccepted, ← List.append_assoc]
    exact ih (h.step (step_of_system hu)) hrest

omit [DecidableEq U] [Fintype L] in
/-- How many connections the `i`-th io loop has been given. -/
theorem Dealt.share (h : Dealt cfg cs s) (hnodup : cfg.loops.Nodup) {i : ℕ} {l : L}
    (hl : cfg.loops[i]? = some l) :
    cs.countP (fun c => c.loop = l) =
      cs.length / cfg.loops.length + if i < cs.length % cfg.loops.length then 1 else 0 := by
  obtain ⟨hi, -⟩ := List.getElem?_eq_some_iff.mp hl
  have hne : cfg.loops ≠ [] := List.length_pos_iff.mp (Nat.zero_lt_of_lt hi)
  -- the loops of the connections, by their numbers
  have hloops : cs.map ConnPtr.loop = (List.range cs.length).map cfg.loopOf := by
    refine List.ext_getElem? fun k => ?_
    rw [List.getElem?_map, List.getElem?_map]
    by_cases hk : k < cs.length
    · rw [List.getElem?_range hk, List.getElem?_eq_getElem hk]
      exact congrArg some (h.turn k _ (List.getElem?_eq_getElem hk)).2
    · rw [List.getElem?_eq_none (by omega), List.getElem?_eq_none (by simpa using hk)]
      rfl
  have hturn : ∀ k, cfg.loopOf k = l ↔ k % cfg.loops.length = i := by
    intro k
    have hk := Config.getElem?_loopOf hne k
    constructor
    · intro heq
      rw [heq, ← hl] at hk
      exact (List.getElem?_inj (Nat.mod_lt _ (List.length_pos_iff.mpr hne)) hnodup).mp hk
    · intro heq
      rw [heq, hl] at hk
      exact (Option.some.inj hk).symm
  calc cs.countP (fun c => c.loop = l)
      = (cs.map ConnPtr.loop).countP (· = l) := by rw [List.countP_map]; rfl
    _ = (List.range cs.length).countP (fun k => k % cfg.loops.length = i) := by
        rw [hloops, List.countP_map]
        refine List.countP_congr fun k _ => ?_
        simp only [Function.comp_apply, decide_eq_true_eq]
        exact hturn k
    _ = _ := countP_range_mod hi cs.length

/-- Along every run with fewer than `2 ^ 31 - 1` connections they are dealt to the loops in
turn: the one accepted after `k` others has the number `k + 1`, which an `int` holds, and
the loop at `k` modulo the number of io loops, or the base loop if there are none; and
with `m` accepted, the io loop at `i` has been given `m / n` of them, or one more if
`i < m % n`. -/
theorem round_robin {s₀ : State L U} {as : List (Label L U)} (h₀ : Start cfg s₀)
    (hrun : (system cfg).run s₀ as = some s)
    (hbound : (accepted cfg s₀ as).length < 2 ^ 31 - 1) :
    (∀ k c, (accepted cfg s₀ as)[k]? = some c → c.id = k + 1 ∧ c.id < 2 ^ 31 - 1 ∧
      (cfg.loops ≠ [] → cfg.loops[k % cfg.loops.length]? = some c.loop) ∧
      (cfg.loops = [] → c.loop = cfg.base)) ∧
    (cfg.loops.Nodup → ∀ i l, cfg.loops[i]? = some l →
      (accepted cfg s₀ as).countP (fun c => c.loop = l) =
        (accepted cfg s₀ as).length / cfg.loops.length +
          if i < (accepted cfg s₀ as).length % cfg.loops.length then 1 else 0) := by
  have h : Dealt cfg (accepted cfg s₀ as) s := (dealt_start h₀).run as hrun
  refine ⟨fun k c hc => ?_, fun hnodup i l hl => h.share hnodup hl⟩
  obtain ⟨hid, hloop⟩ := h.turn k c hc
  obtain ⟨hk, -⟩ := List.getElem?_eq_some_iff.mp hc
  refine ⟨hid, by omega, fun hne => ?_, fun hnil => ?_⟩
  · rw [hloop]
    exact Config.getElem?_loopOf hne k
  · rw [hloop]
    exact Config.loopOf_of_nil hnil k

end Step

theorem round_robin_accept :
    accepted twoLoops (State.make twoLoops) acceptOne = [⟨1, true, 7⟩] ∧
      (accepted twoLoops (State.make twoLoops) acceptOne).countP (fun c => c.loop = true) = 1 ∧
      twoLoops.loops[0 % twoLoops.loops.length]? = some true := by
  have hrun : ∃ s, (system twoLoops).run (State.make twoLoops) acceptOne = some s := ⟨_, rfl⟩
  obtain ⟨s, hs⟩ := hrun
  have haccepted : accepted twoLoops (State.make twoLoops) acceptOne = [⟨1, true, 7⟩] := rfl
  have hbound : (accepted twoLoops (State.make twoLoops) acceptOne).length < 2 ^ 31 - 1 := by
    rw [haccepted]
    decide
  obtain ⟨hturn, hshare⟩ := round_robin (start_make twoLoops) hs hbound
  refine ⟨haccepted, ?_, ?_⟩
  · rw [hshare (List.nodup_singleton true) 0 true rfl, haccepted]
    rfl
  · exact (hturn 0 ⟨1, true, 7⟩ (by rw [haccepted]; rfl)).2.2.1 (List.cons_ne_nil _ _)

end TcpServer

end Moduo
