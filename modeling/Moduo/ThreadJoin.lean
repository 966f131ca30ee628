/-
A started loop thread is joined by `~EventLoopThread`.

* `joined_iff` — in every state of a run in which the body of the destructor is
  over, a started thread has been joined once, after its end, and `~Thread`
  neither detaches it nor finds it joinable, if and only if the test of the
  destructor finds `loop_` set whenever the thread was started.

The thread resets `loop_` when its loop ends, so a `quit` from elsewhere makes
the test fail.
-/
import Moduo.EventLoopThread

namespace Moduo

namespace EventLoopThread

namespace ThreadJoin

variable {T φ : Type*}

/-- The body of the destructor is over. -/
def Finished (s : State T φ) : Prop := s.owner = .done ∨ s.owner = .destroyed

/-- What should hold once the body of the destructor is over. -/
def Joined (s : State T φ) : Prop :=
  Finished s → (s.thread.started = true → s.joins = 1 ∧ s.position = .ended) ∧
    s.detached = false ∧ s.terminated = false

/-- The test of the destructor finds the loop of a started thread. -/
def Finds (s : State T φ) (a : Label T φ) : Prop :=
  a = .testLoop → s.thread.started = true → s.loop = true

structure Inv (s : State T φ) : Prop where
  loop : s.loop = true → s.thread.started = true
  joinable : s.thread.joinable = true → s.thread.started = true ∧ s.joins = 0
  joined : s.owner = .joining ∨ s.joins ≠ 0 → s.thread.joined = true
  joins : ¬ Finished s → s.joins = 0
  member : s.owner ≠ .destroyed → s.detached = false ∧ s.terminated = false
  born : s.position ≠ .unborn → s.thread.started = true

variable {s s' : State T φ}

theorem inv_start : Inv (start : State T φ) := by
  refine ⟨?_, ?_, ?_, fun _ => rfl, fun _ => ⟨rfl, rfl⟩, fun h => absurd rfl h⟩
  · intro h
    exact absurd h (by simp [start])
  · intro h
    exact absurd h (by simp [start, Thread.make])
  · intro h
    exact absurd h (by simp [start])

theorem joined_start : Joined (start : State T φ) := by
  rintro (h | h) <;> exact absurd h (by simp [start])

/-- A step that leaves the thread and what became of it alone, and moves the
owner neither into the end of the destructor nor into `join`. -/
theorem Inv.keep (h : Inv s) (hthread : s'.thread = s.thread) (hjoins : s'.joins = s.joins)
    (hdetached : s'.detached = s.detached) (hterminated : s'.terminated = s.terminated)
    (hloop : s'.loop = true → s'.thread.started = true)
    (hborn : s'.position ≠ .unborn → s'.thread.started = true)
    (howner : s'.owner = s.owner ∨
      (s'.owner ≠ .joining ∧ ¬ Finished s ∧ s'.owner ≠ .destroyed)) : Inv s' := by
  refine ⟨hloop, ?_, ?_, ?_, ?_, hborn⟩
  · intro hj
    rw [hthread] at hj ⊢
    rw [hjoins]
    exact h.joinable hj
  · intro hj
    rw [hthread]
    rw [hjoins] at hj
    rcases howner with hsame | ⟨hne, -, -⟩
    · exact h.joined (hsame ▸ hj)
    · exact h.joined (.inr (hj.resolve_left hne))
  · intro hopen
    rw [hjoins]
    rcases howner with hsame | ⟨-, hopen', -⟩
    · exact h.joins (by rwa [Finished, hsame] at hopen)
    · exact h.joins hopen'
  · intro hne
    rw [hdetached, hterminated]
    rcases howner with hsame | ⟨-, hopen', -⟩
    · exact h.member (hsame ▸ hne)
    · exact h.member fun hd => hopen' (.inr hd)

/-- A step that does not end the destructor's body keeps what holds after it. -/
theorem Joined.keep (h : Joined s) (hfin : Finished s' → Finished s)
    (hthread : s'.thread = s.thread) (hjoins : s'.joins = s.joins)
    (hdetached : s'.detached = s.detached) (hterminated : s'.terminated = s.terminated)
    (hended : s.position = .ended → s'.position = .ended) : Joined s' := by
  intro hdone
  obtain ⟨hjoined, hno, hno'⟩ := h (hfin hdone)
  refine ⟨?_, hdetached.trans hno, hterminated.trans hno'⟩
  intro hstarted
  obtain ⟨hone, hpos⟩ := hjoined (hthread ▸ hstarted)
  exact ⟨hjoins.trans hone, hended hpos⟩

section Step

variable [DecidableEq T] {loopThread ownerThread : T} {a : Label T φ}

theorem onQueue_born {b : TaskQueue.Label T φ} {q : TaskQueue.State T φ} (h : Inv s)
    (hb : s.admits loopThread ownerThread b = true)
    (hne : (s.onQueue loopThread b q).position ≠ .unborn) : s.thread.started = true := by
  cases b with
  | enterLoop =>
    have hpos : s.position = .published := by simpa [State.admits] using hb
    exact h.born (by simp [hpos])
  | _ => exact h.born hne

theorem inv_move (h : Inv s) (hmove : Move loopThread ownerThread s a s') : Inv s' := by
  cases hmove with
  | start ho =>
    have hopen : ¬ Finished s := by simp [Finished, ho]
    have hjoins : s.joins = 0 := h.joins hopen
    refine ⟨fun _ => rfl, fun _ => ⟨rfl, hjoins⟩, ?_, fun _ => hjoins, ?_, fun _ => rfl⟩
    · rintro (hj | hj)
      · exact absurd hj (by simp)
      · exact absurd hjoins hj
    · exact fun _ => h.member (by simp [ho])
  | begin hp =>
    exact h.keep rfl rfl rfl rfl h.loop (fun _ => h.born (by simp [hp])) (.inl rfl)
  | semWait ho =>
    exact h.keep rfl rfl rfl rfl h.loop h.born
      (.inr ⟨by simp, by simp [Finished, ho], by simp⟩)
  | publish hp =>
    have hstarted : s.thread.started = true := h.born (by simp [hp])
    exact h.keep rfl rfl rfl rfl (fun _ => hstarted) (fun _ => hstarted) (.inl rfl)
  | startLoop ho =>
    exact h.keep rfl rfl rfl rfl h.loop h.born
      (.inr ⟨by simp, by simp [Finished, ho], by simp⟩)
  | queue hb =>
    exact h.keep rfl rfl rfl rfl h.loop (onQueue_born h hb) (.inl rfl)
  | reset _ hp =>
    exact h.keep rfl rfl rfl rfl (fun hl => absurd hl (by simp)) (fun _ => h.born (by simp [hp]))
      (.inl rfl)
  | finish hp =>
    exact h.keep rfl rfl rfl rfl h.loop (fun _ => h.born (by simp [hp])) (.inl rfl)
  | destructor ho =>
    refine h.keep rfl rfl rfl rfl h.loop h.born (.inr ⟨by simp, ?_, by simp⟩)
    rcases ho with ho | ho <;> simp [Finished, ho]
  | testFinds ho =>
    exact h.keep rfl rfl rfl rfl h.loop h.born
      (.inr ⟨by simp, by simp [Finished, ho], by simp⟩)
  | testMisses ho =>
    exact h.keep rfl rfl rfl rfl h.loop h.born
      (.inr ⟨by simp, by simp [Finished, ho], by simp⟩)
  | loadFinds ho =>
    exact h.keep rfl rfl rfl rfl h.loop h.born
      (.inr ⟨by simp, by simp [Finished, ho], by simp⟩)
  | loadCrashes ho =>
    exact h.keep rfl rfl rfl rfl h.loop h.born
      (.inr ⟨by simp, by simp [Finished, ho], by simp⟩)
  | storeQuit ho =>
    exact h.keep rfl rfl rfl rfl h.loop h.born
      (.inr ⟨by simp, by simp [Finished, ho], by simp⟩)
  | storeLate ho =>
    exact h.keep rfl rfl rfl rfl h.loop h.born
      (.inr ⟨by simp, by simp [Finished, ho], by simp⟩)
  | wake ho =>
    exact h.keep rfl rfl rfl rfl h.loop h.born
      (.inr ⟨by simp, by simp [Finished, ho], by simp⟩)
  | wakeLate ho =>
    exact h.keep rfl rfl rfl rfl h.loop h.born
      (.inr ⟨by simp, by simp [Finished, ho], by simp⟩)
  | join ho =>
    -- the one step that counts a join
    have hopen : ¬ Finished s := by simp [Finished, ho]
    exact ⟨h.loop, h.joinable, fun _ => rfl, fun _ => h.joins hopen,
      fun _ => h.member (by simp [ho]), h.born⟩
  | joinReturn ho =>
    refine ⟨h.loop, fun hj => absurd hj (by simp), fun _ => h.joined (.inl ho), ?_,
      fun _ => h.member (by simp [ho]), h.born⟩
    intro hopen
    exact absurd (.inl rfl) hopen
  | destroyThread ho =>
    refine ⟨h.loop, h.joinable, ?_, ?_, fun hne => absurd rfl hne, h.born⟩
    · rintro (hj | hj)
      · exact absurd hj (by simp)
      · exact h.joined (.inr hj)
    · intro hopen
      exact absurd (.inr rfl) hopen

theorem onQueue_ended {b : TaskQueue.Label T φ} {q : TaskQueue.State T φ}
    (hb : s.admits loopThread ownerThread b = true) (hended : s.position = .ended) :
    (s.onQueue loopThread b q).position = .ended := by
  cases b with
  | enterLoop =>
    have hpos : s.position = .published := by simpa [State.admits] using hb
    rw [hended] at hpos
    exact absurd hpos (by simp)
  | _ => exact hended

theorem joined_move (hinv : Inv s) (h : Joined s) (hmove : Move loopThread ownerThread s a s') :
    Joined s' ↔ Finds s a := by
  have hother (ha : a ≠ .testLoop) (hkept : Joined s') : Joined s' ↔ Finds s a :=
    iff_of_true hkept fun htest => absurd htest ha
  -- the owner's steps before the end of the body
  have hopen {o : Owner} (h₁ : o ≠ .done) (h₂ : o ≠ .destroyed) {t : State T φ}
      (ho : t.owner = o) : Joined t := by
    rintro (hd | hd)
    · exact absurd (ho.symm.trans hd) h₁
    · exact absurd (ho.symm.trans hd) h₂
  cases hmove with
  | start => exact hother (by simp) (hopen (o := .starting) (by simp) (by simp) rfl)
  | begin hp =>
    refine hother (by simp) (h.keep id rfl rfl rfl rfl fun he => ?_)
    rw [hp] at he
    exact absurd he (by simp)
  | semWait => exact hother (by simp) (hopen (o := .waiting) (by simp) (by simp) rfl)
  | publish hp =>
    refine hother (by simp) (h.keep id rfl rfl rfl rfl fun he => ?_)
    rw [hp] at he
    exact absurd he (by simp)
  | startLoop => exact hother (by simp) (hopen (o := .returned) (by simp) (by simp) rfl)
  | queue hb => exact hother (by simp) (h.keep id rfl rfl rfl rfl (onQueue_ended hb))
  | reset _ hp =>
    refine hother (by simp) (h.keep id rfl rfl rfl rfl fun he => ?_)
    rw [hp] at he
    exact absurd he (by simp)
  | finish => exact hother (by simp) (h.keep id rfl rfl rfl rfl fun _ => rfl)
  | destructor => exact hother (by simp) (hopen (o := .exiting) (by simp) (by simp) rfl)
  | testFinds _ hl =>
    exact iff_of_true (hopen (o := .found) (by simp) (by simp) rfl) fun _ _ => hl
  | testMisses ho hl =>
    -- the destructor ends without a join: right only if there is no thread to join
    have hnone : s.joins = 0 := hinv.joins (by simp [Finished, ho])
    obtain ⟨hno, hno'⟩ := hinv.member (by simp [ho])
    constructor
    · intro hjoined _ hstarted
      have hone := ((hjoined (.inl rfl)).1 hstarted).1
      exact absurd (hnone.symm.trans hone) (by simp)
    · intro hfinds _
      refine ⟨fun hstarted => ?_, hno, hno'⟩
      have hset := hfinds rfl hstarted
      exact absurd (hl.symm.trans hset) (by simp)
  | loadFinds => exact hother (by simp) (hopen (o := .quitting) (by simp) (by simp) rfl)
  | loadCrashes => exact hother (by simp) (hopen (o := .crashed) (by simp) (by simp) rfl)
  | storeQuit => exact hother (by simp) (hopen (o := .waking) (by simp) (by simp) rfl)
  | storeLate => exact hother (by simp) (hopen (o := .waking) (by simp) (by simp) rfl)
  | wake => exact hother (by simp) (hopen (o := .calling) (by simp) (by simp) rfl)
  | wakeLate => exact hother (by simp) (hopen (o := .calling) (by simp) (by simp) rfl)
  | join => exact hother (by simp) (hopen (o := .joining) (by simp) (by simp) rfl)
  | joinReturn ho hp =>
    refine hother (by simp) fun _ => ?_
    have hnone : s.joins = 0 := hinv.joins (by simp [Finished, ho])
    obtain ⟨hno, hno'⟩ := hinv.member (by simp [ho])
    exact ⟨fun _ => ⟨by rw [hnone], hp⟩, hno, hno'⟩
  | destroyThread ho =>
    refine hother (by simp) fun _ => ?_
    obtain ⟨hjoined, -, -⟩ := h (.inl ho)
    -- `~Thread` detaches what was started and never joined
    refine ⟨hjoined, ?_, ?_⟩
    · cases hstarted : s.thread.started with
      | false => simp [Thread.detaches, hstarted]
      | true =>
        have hj := hinv.joined (.inr (by rw [(hjoined hstarted).1]; simp))
        simp [Thread.detaches, hj]
    · show s.thread.joinable = false
      by_contra hne
      obtain ⟨hstarted, hnone⟩ := hinv.joinable (by simpa using hne)
      rw [(hjoined hstarted).1] at hnone
      exact absurd hnone (by simp)

/-- Exactly the runs in which the test of the destructor finds the loop of a
started thread join that thread. -/
theorem joined_iff (h : (system loopThread ownerThread).init s) (as : List (Label T φ)) :
    (system loopThread ownerThread).Throughout Joined s as ↔
      (system loopThread ownerThread).StepsMeet Finds s as := by
  obtain rfl : s = start := h
  exact Machine.throughout_iff_stepsMeet (I := Inv)
    (fun _ _ _ hi hstep => inv_move hi (move_of_step hstep))
    (fun _ _ _ hi hj hstep => joined_move hi hj (move_of_step hstep)) as inv_start joined_start

end Step

/-- The owner, thread 1, starts the loop of thread 0 and destroys it. -/
theorem joined_iff_destroyed :
    (system 0 1).Throughout Joined (start : State ℕ ℕ)
        [.start, .begin, .semWait, .publish, .startLoop, .destructor, .testLoop] ↔
      (system 0 1).StepsMeet Finds (start : State ℕ ℕ)
        [.start, .begin, .semWait, .publish, .startLoop, .destructor, .testLoop] :=
  joined_iff rfl _

/-- Thread 2 has stopped the loop before: the destructor does not join, `~Thread`
detaches, and the `std::thread` is destroyed while joinable. -/
theorem stopped_thread_not_joined :
    ¬ (system 0 1).Throughout Joined (start : State ℕ ℕ)
      [.start, .begin, .semWait, .publish, .startLoop, .queue .enterLoop, .queue (.quit 2),
        .queue (.wake 2), .queue .testQuit, .reset, .finish, .destructor, .testLoop,
        .destroyThread] := by
  intro h
  have hrun : ∃ t, (system 0 1).run (start : State ℕ ℕ)
      [.start, .begin, .semWait, .publish, .startLoop, .queue .enterLoop, .queue (.quit 2),
        .queue (.wake 2), .queue .testQuit, .reset, .finish, .destructor, .testLoop,
        .destroyThread] = some t ∧ t.owner = .destroyed ∧ t.detached = true ∧
      t.terminated = true := ⟨_, rfl, rfl, rfl, rfl⟩
  obtain ⟨t, ht, hdestroyed, hdetached, -⟩ := hrun
  obtain ⟨-, hno, -⟩ := h.final ht (.inr hdestroyed)
  rw [hdetached] at hno
  exact absurd hno (by simp)

end ThreadJoin

end EventLoopThread

end Moduo
