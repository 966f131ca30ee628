/-
Back-pressure callbacks.

Over any sequence of `sendInLoop` and `handleWrite`, with any outcome of
`::write`:

* `notices_exact` — a step queues `highWaterMarkCallback_` exactly when it takes
  the number of unsent bytes from below the mark to the mark or beyond, and
  `writeCompleteCallback_` exactly when it gets the last unsent byte out, or an
  empty message; between two crossings the number was below the mark.
-/
import Moduo.Lib.Machine
import Moduo.TcpConnection

namespace Moduo

/-- The callbacks handed to `queueInLoop`. -/
def notices (trace : List Effect) : List Notice := trace.filterMap Effect.notice?

@[simp] theorem notices_append (tr tr' : List Effect) :
    notices (tr ++ tr') = notices tr ++ notices tr' :=
  List.filterMap_append

namespace BackPressure

inductive Label
  | sendInLoop (message : List Byte) (res : WriteResult)
  | handleWrite (res : WriteResult)
  deriving DecidableEq, Repr

/-- The outcome of `::write`, where it is called. -/
def Label.result : Label → WriteResult
  | sendInLoop _ res => res
  | handleWrite res => res

variable {ι : Type*}

def step (this : ι) (e : Endpoint ι) : Label → Option (Endpoint ι)
  | .sendInLoop message res =>
    if res.Admissible message.length then some (e.sendInLoop this message res) else none
  | .handleWrite res =>
    if res.Admissible e.conn.unsent then some (e.handleWrite this res) else none

/-- A connection in any state, with both callbacks set. -/
structure BothSet (e : Endpoint ι) : Prop where
  writeComplete : e.conn.writeCompleteCallback = true
  highWaterMark : e.conn.highWaterMarkCallback = true

def system (this : ι) : Machine (Endpoint ι) Label where
  init := BothSet
  step := step this

/-! ### What a step should queue -/

/-- The bytes the kernel has taken in the step from `e` to `e'`. -/
def handed (e e' : Endpoint ι) : List Byte := (sent e'.trace).drop (sent e.trace).length

/-- The callbacks queued in the step from `e` to `e'`. -/
def queued (e e' : Endpoint ι) : List Notice :=
  (notices e'.trace).drop (notices e.trace).length

/-- The number of unsent bytes reaches the mark. -/
def Crosses (mark : ℕ) (e e' : Endpoint ι) : Prop :=
  e.conn.unsent < mark ∧ mark ≤ e'.conn.unsent

/-- The step gets the last unsent byte out, or an empty message. -/
def Completes (e : Endpoint ι) (a : Label) (e' : Endpoint ι) : Prop :=
  (handed e e' ≠ [] ∧ e'.conn.unsent = 0) ∨
    (a = .sendInLoop [] (.wrote 0) ∧ e.conn.state ≠ .kDisconnected ∧
      e.conn.writesDirectly = true)

instance (mark : ℕ) (e e' : Endpoint ι) : Decidable (Crosses mark e e') :=
  inferInstanceAs (Decidable (_ ∧ _))

instance (e : Endpoint ι) (a : Label) (e' : Endpoint ι) : Decidable (Completes e a e') :=
  inferInstanceAs (Decidable (_ ∨ _))

/-- The step queues what it should. -/
def Exact (mark : ℕ) (e : Endpoint ι) (a : Label) (e' : Endpoint ι) : Prop :=
  notices e'.trace = notices e.trace ++
    (if Crosses mark e e' then [.highWaterMark e'.conn.unsent] else []) ++
    (if Completes e a e' then [.writeComplete] else [])

variable {this : ι} {e e' : Endpoint ι} {mark : ℕ} {a : Label}

theorem handed_eq {bytes : List Byte} (h : sent e'.trace = sent e.trace ++ bytes) :
    handed e e' = bytes := by
  rw [handed, h, List.drop_left]

theorem not_crosses_of_le (h : e'.conn.unsent ≤ e.conn.unsent) : ¬ Crosses mark e e' := by
  rintro ⟨hbelow, hreached⟩
  omega

/-- A step that does nothing queues nothing. -/
theorem exact_refl (hempty : a = .sendInLoop [] (.wrote 0) → e.conn.state = .kDisconnected ∨
    e.conn.writesDirectly = false) : Exact mark e a e := by
  have hnone : ¬ Completes e a e := by
    rintro (⟨hhanded, -⟩ | ⟨ha, hstate, hdirect⟩)
    · exact hhanded (handed_eq (List.append_nil _).symm)
    · rcases hempty ha with hdown | hbusy
      · exact hstate hdown
      · exact absurd (hdirect.symm.trans hbusy) (by simp)
  rw [Exact, if_neg (not_crosses_of_le le_rfl), if_neg hnone, List.append_nil, List.append_nil]

/-! ### What the parts of the members queue -/

theorem notices_notifyWriteComplete (hset : e.conn.writeCompleteCallback = true) :
    notices e.notifyWriteComplete.trace = notices e.trace ++ [.writeComplete] := by
  rw [Endpoint.notifyWriteComplete, if_pos hset]
  exact notices_append _ _

theorem notices_notifyHighWaterMark (hset : e.conn.highWaterMarkCallback = true) (n : ℕ) :
    notices (e.notifyHighWaterMark n).trace = notices e.trace ++
      if e.conn.unsent < e.conn.highWaterMark ∧ e.conn.highWaterMark ≤ e.conn.unsent + n then
        [.highWaterMark (e.conn.unsent + n)] else [] := by
  rw [Endpoint.notifyHighWaterMark]
  by_cases hcross : e.conn.unsent < e.conn.highWaterMark ∧
      e.conn.highWaterMark ≤ e.conn.unsent + n
  · rw [if_pos ⟨hcross.2, hcross.1, hset⟩, if_pos hcross]
    exact notices_append _ _
  · have hnot : ¬ (e.conn.unsent + n ≥ e.conn.highWaterMark ∧
        e.conn.unsent < e.conn.highWaterMark ∧ e.conn.highWaterMarkCallback = true) :=
      fun h => hcross ⟨h.2.1, h.1⟩
    rw [if_neg hnot, if_neg hcross, List.append_nil]

/-- The second half of `sendInLoop` keeps `remaining`, and reports a crossing. -/
theorem bufferRemaining_spec (this : ι) (hset : e.conn.highWaterMarkCallback = true)
    (remaining : List Byte) :
    (e.bufferRemaining this remaining).conn.unsent = e.conn.unsent + remaining.length ∧
      sent (e.bufferRemaining this remaining).trace = sent e.trace ∧
      notices (e.bufferRemaining this remaining).trace = notices e.trace ++
        if e.conn.unsent < e.conn.highWaterMark ∧
            e.conn.highWaterMark ≤ e.conn.unsent + remaining.length then
          [.highWaterMark (e.conn.unsent + remaining.length)] else [] := by
  by_cases hne : remaining = []
  · subst hne
    have hnot : ¬ (e.conn.unsent < e.conn.highWaterMark ∧
        e.conn.highWaterMark ≤ e.conn.unsent + ([] : List Byte).length) := by
      rintro ⟨hbelow, hreached⟩
      rw [List.length_nil] at hreached
      omega
    rw [Endpoint.bufferRemaining_nil, if_neg hnot, List.append_nil]
    exact ⟨rfl, rfl, rfl⟩
  · have hput : (e.conn.outputBuffer.put remaining).content.length =
        e.conn.unsent + remaining.length := by
      rw [Fifo.content_put, List.length_append]
      rfl
    have hsent := Endpoint.sent_notifyHighWaterMark remaining.length e
    have hnotices := notices_notifyHighWaterMark hset remaining.length
    rw [Endpoint.bufferRemaining_eq hne]
    dsimp only
    by_cases hwriting : (!e.conn.channel.isWriting) = true
    · simp only [if_pos hwriting]
      exact ⟨hput, hsent, hnotices⟩
    · simp only [if_neg hwriting]
      exact ⟨hput, hsent, hnotices⟩

theorem notices_directWrite (hset : e.conn.writeCompleteCallback = true) (message : List Byte)
    (n : ℕ) : notices (e.directWrite message n).trace = notices e.trace ++
      if message.length - n = 0 then [.writeComplete] else [] := by
  have hwrite : notices (e.emit (.write (message.take n))).trace = notices e.trace := by
    have happend : notices (e.emit (.write (message.take n))).trace =
        notices e.trace ++ notices [.write (message.take n)] := notices_append _ _
    rw [happend]
    exact List.append_nil _
  simp only [Endpoint.directWrite]
  split_ifs
  · rw [notices_notifyWriteComplete, hwrite]
    exact hset
  · rw [hwrite, List.append_nil]

/-! ### The members -/

/-- A message that goes to the buffer as a whole. -/
theorem exact_buffered (h : BothSet e) {message : List Byte} {res : WriteResult}
    (hlost : res = .wrote 0 → e.conn.writesDirectly = false) :
    Exact e.conn.highWaterMark e (.sendInLoop message res)
      (e.bufferRemaining this message) := by
  obtain ⟨hunsent, hsent, hnotices⟩ := bufferRemaining_spec this h.highWaterMark message
  have hnone : ¬ Completes e (.sendInLoop message res) (e.bufferRemaining this message) := by
    rintro (⟨hhanded, -⟩ | ⟨ha, -, hdirect⟩)
    · exact hhanded (handed_eq (hsent.trans (List.append_nil _).symm))
    · obtain ⟨-, hres⟩ := Label.sendInLoop.inj ha
      exact absurd (hdirect.symm.trans (hlost hres)) (by simp)
  have hcross : Crosses e.conn.highWaterMark e (e.bufferRemaining this message) ↔
      e.conn.unsent < e.conn.highWaterMark ∧
        e.conn.highWaterMark ≤ e.conn.unsent + message.length := by
    rw [Crosses, hunsent]
  rw [Exact, if_neg hnone, List.append_nil, hnotices, hunsent]
  simp only [hcross]

/-- A direct write of `n` bytes; the rest of the message goes to the buffer. -/
theorem exact_direct (h : BothSet e) {message : List Byte} {n : ℕ}
    (hstate : e.conn.state ≠ .kDisconnected) (hdirect : e.conn.writesDirectly = true)
    (hempty : e.conn.unsent = 0) (hadm : n ≤ message.length) :
    Exact e.conn.highWaterMark e (.sendInLoop message (.wrote n))
      ((e.directWrite message n).bufferRemaining this (message.drop n)) := by
  have hconn := Endpoint.directWrite_conn message n e
  have hset : (e.directWrite message n).conn.highWaterMarkCallback = true := by
    rw [hconn]
    exact h.highWaterMark
  obtain ⟨hunsent, hsent, hnotices⟩ := bufferRemaining_spec this hset (message.drop n)
  rw [hconn, hempty, List.length_drop, Nat.zero_add] at hunsent hnotices
  rw [Endpoint.sent_directWrite] at hsent
  rw [notices_directWrite h.writeComplete] at hnotices
  have hcompletes : Completes e (.sendInLoop message (.wrote n))
      ((e.directWrite message n).bufferRemaining this (message.drop n)) ↔
        message.length - n = 0 := by
    rw [Completes, handed_eq hsent, hunsent]
    constructor
    · rintro (⟨-, hzero⟩ | ⟨ha, -, -⟩)
      · exact hzero
      · rw [(Label.sendInLoop.inj ha).1, List.length_nil, Nat.zero_sub]
    · intro hzero
      by_cases hmessage : message = []
      · subst hmessage
        obtain rfl : n = 0 := Nat.le_zero.mp hadm
        exact .inr ⟨rfl, hstate, hdirect⟩
      · refine .inl ⟨?_, hzero⟩
        rw [List.take_of_length_le (by omega)]
        exact hmessage
  have hcross : Crosses e.conn.highWaterMark e
      ((e.directWrite message n).bufferRemaining this (message.drop n)) ↔
        0 < e.conn.highWaterMark ∧ e.conn.highWaterMark ≤ message.length - n := by
    rw [Crosses, hunsent, hempty]
  rw [Exact, hnotices, hunsent]
  simp only [hcompletes, hcross]
  -- a message that has left as a whole crosses no mark
  by_cases hzero : message.length - n = 0
  · have hnot : ¬ (0 < e.conn.highWaterMark ∧ e.conn.highWaterMark ≤ message.length - n) := by
      rintro ⟨hpos, hle⟩
      omega
    rw [if_pos hzero, if_neg hnot, List.append_nil, List.append_nil]
  · rw [if_neg hzero, List.append_nil, List.append_nil]

theorem exact_sendInLoop (h : BothSet e) {message : List Byte} {res : WriteResult}
    (hadm : res.Admissible message.length) :
    Exact e.conn.highWaterMark e (.sendInLoop message res) (e.sendInLoop this message res) := by
  unfold Endpoint.sendInLoop
  by_cases hstate : e.conn.state = .kDisconnected
  · rw [if_pos hstate]
    exact exact_refl fun _ => .inl hstate
  · rw [if_neg hstate]
    cases hdirect : e.conn.writesDirectly with
    | false => exact exact_buffered h fun _ => hdirect
    | true =>
      rw [if_pos rfl]
      cases res with
      | failed errno logged =>
        dsimp only
        split_ifs
        · exact exact_refl fun ha => absurd ha (by simp)
        · exact exact_buffered h fun hres => absurd hres (by simp)
      | wrote n =>
        have hempty : e.conn.unsent = 0 := by
          rw [TcpConnection.unsent, TcpConnection.content_of_writesDirectly hdirect,
            List.length_nil]
        exact exact_direct h hstate hdirect hempty hadm

theorem exact_handleWrite (h : BothSet e) {res : WriteResult}
    (hadm : res.Admissible e.conn.unsent) :
    Exact e.conn.highWaterMark e (.handleWrite res) (e.handleWrite this res) := by
  by_cases hdrains : e.Drains res
  · rw [Endpoint.handleWrite_drains this hdrains]
    have hzero : (e.drained this).conn.unsent = 0 := by
      rw [TcpConnection.unsent, Endpoint.drained_content, List.length_nil]
    have hsent : sent (e.drained this).trace =
        sent e.trace ++ e.conn.outputBuffer.content.take e.conn.unsent := by
      rw [Endpoint.drained, Endpoint.sent_notifyWriteComplete]
      exact Endpoint.sent_emit_write e _
    have hcompletes : Completes e (.handleWrite res) (e.drained this) := by
      refine .inl ⟨?_, hzero⟩
      rw [handed_eq hsent, TcpConnection.unsent, List.take_length]
      exact List.length_pos_iff.mp hdrains.2.1
    have hnot : ¬ Crosses e.conn.highWaterMark e (e.drained this) :=
      not_crosses_of_le (hzero.trans_le (Nat.zero_le _))
    rw [Exact, if_pos hcompletes, if_neg hnot, List.append_nil, Endpoint.drained,
      notices_notifyWriteComplete]
    · congr 1
      have happend : notices (e.deferredWrite e.conn.unsent).trace = notices e.trace ++
          notices [.write (e.conn.outputBuffer.content.take e.conn.unsent)] :=
        notices_append _ _
      exact happend.trans (List.append_nil _)
    · exact h.writeComplete
  · rcases Endpoint.handleWrite_partial this hdrains hadm with heq | ⟨n, hlt, heq⟩
    · rw [heq]
      exact exact_refl fun ha => absurd ha (by simp)
    · rw [heq]
      have hleft : (e.deferredWrite n).conn.unsent = e.conn.unsent - n := by
        show (e.conn.outputBuffer.take n).content.length = _
        rw [Fifo.content_take, List.length_drop]
        rfl
      have hnone : ¬ Completes e (.handleWrite res) (e.deferredWrite n) := by
        rintro (⟨-, hzero⟩ | ⟨ha, -⟩)
        · omega
        · exact absurd ha (by simp)
      have happend : notices (e.deferredWrite n).trace = notices e.trace ++
          notices [.write (e.conn.outputBuffer.content.take n)] := notices_append _ _
      rw [Exact, if_neg hnone, if_neg (not_crosses_of_le (by omega)), List.append_nil,
        List.append_nil, happend]
      exact List.append_nil _

/-! ### Runs -/

/-- The callbacks and the mark are as before. -/
structure SameSettings (e e' : Endpoint ι) : Prop where
  writeComplete : e'.conn.writeCompleteCallback = e.conn.writeCompleteCallback
  callback : e'.conn.highWaterMarkCallback = e.conn.highWaterMarkCallback
  mark : e'.conn.highWaterMark = e.conn.highWaterMark

theorem SameSettings.of_conn (h : e'.conn = e.conn) : SameSettings e e' := by
  constructor
  · rw [h]
  · rw [h]
  · rw [h]

theorem settings_bufferRemaining (this : ι) (remaining : List Byte) (e : Endpoint ι) :
    SameSettings e (e.bufferRemaining this remaining) := by
  by_cases hne : remaining = []
  · subst hne
    exact .of_conn rfl
  · obtain ⟨h₁, h₂, h₃⟩ :=
      SameSettings.of_conn (Endpoint.notifyHighWaterMark_conn remaining.length e)
    rw [Endpoint.bufferRemaining_eq hne]
    dsimp only
    split_ifs
    · exact ⟨h₁, h₂, h₃⟩
    · exact ⟨h₁, h₂, h₃⟩

theorem settings_step (h : step this e a = some e') : SameSettings e e' := by
  cases a with
  | sendInLoop message res =>
    simp only [step] at h
    split_ifs at h
    obtain rfl := Option.some.inj h
    by_cases hdrops : e.conn.Drops res
    · rw [Endpoint.sendInLoop_dropped hdrops]
      exact .of_conn rfl
    · rcases Endpoint.sendInLoop_kept this message hdrops with heq | ⟨n, -, heq⟩
      · rw [heq]
        exact settings_bufferRemaining this message e
      · rw [heq]
        have hdirect := SameSettings.of_conn (Endpoint.directWrite_conn message n e)
        have hrest := settings_bufferRemaining this (message.drop n) (e.directWrite message n)
        exact ⟨hrest.writeComplete.trans hdirect.writeComplete,
          hrest.callback.trans hdirect.callback, hrest.mark.trans hdirect.mark⟩
  | handleWrite res =>
    simp only [step] at h
    split_ifs at h with hadm
    obtain rfl := Option.some.inj h
    by_cases hdrains : e.Drains res
    · rw [Endpoint.handleWrite_drains this hdrains]
      obtain ⟨h₁, h₂, h₃⟩ := SameSettings.of_conn (Endpoint.notifyWriteComplete_conn
        ((e.deferredWrite e.conn.unsent).onChannel (Channel.disableWriting this)))
      exact ⟨h₁, h₂, h₃⟩
    · rcases Endpoint.handleWrite_partial this hdrains hadm with heq | ⟨n, -, heq⟩
      · rw [heq]
        exact .of_conn rfl
      · rw [heq]
        exact ⟨rfl, rfl, rfl⟩

theorem exact_step (h : BothSet e) (hstep : step this e a = some e') :
    Exact e.conn.highWaterMark e a e' := by
  cases a with
  | sendInLoop message res =>
    simp only [step] at hstep
    split_ifs at hstep with hadm
    obtain rfl := Option.some.inj hstep
    exact exact_sendInLoop h hadm
  | handleWrite res =>
    simp only [step] at hstep
    split_ifs at hstep with hadm
    obtain rfl := Option.some.inj hstep
    exact exact_handleWrite h hadm

theorem Exact.queued_eq (h : Exact mark e a e') : queued e e' =
    (if Crosses mark e e' then [.highWaterMark e'.conn.unsent] else []) ++
      (if Completes e a e' then [.writeComplete] else []) := by
  rw [Exact, List.append_assoc] at h
  rw [queued, h, List.drop_left]

/-- A notification is a crossing. -/
theorem Exact.crosses (h : Exact mark e a e') {n : ℕ} (hn : .highWaterMark n ∈ queued e e') :
    Crosses mark e e' := by
  by_contra hnot
  rw [h.queued_eq, if_neg hnot, List.nil_append] at hn
  split_ifs at hn
  · exact absurd (List.mem_singleton.mp hn) (by simp)
  · exact absurd hn List.not_mem_nil

/-- A step at which `::write` fails hands nothing over. -/
theorem sent_of_failed (hset : e.conn.highWaterMarkCallback = true) {errno logged : Errno}
    (ha : a.result = .failed errno logged) (hstep : step this e a = some e') :
    sent e'.trace = sent e.trace := by
  cases a with
  | sendInLoop message res =>
    obtain rfl : res = .failed errno logged := ha
    simp only [step] at hstep
    split_ifs at hstep
    obtain rfl := Option.some.inj hstep
    simp only [Endpoint.sendInLoop]
    split_ifs
    · rfl
    · rfl
    · exact (bufferRemaining_spec this hset message).2.1
    · exact (bufferRemaining_spec this hset message).2.1
  | handleWrite res =>
    obtain rfl : res = .failed errno logged := ha
    simp only [step] at hstep
    split_ifs at hstep
    obtain rfl := Option.some.inj hstep
    simp only [Endpoint.handleWrite]
    split_ifs <;> rfl

theorem not_completes_of_failed (hset : e.conn.highWaterMarkCallback = true) {errno logged : Errno}
    (ha : a.result = .failed errno logged) (hstep : step this e a = some e') :
    ¬ Completes e a e' := by
  have hsent := sent_of_failed hset ha hstep
  rintro (⟨hhanded, -⟩ | ⟨rfl, -⟩)
  · exact hhanded (handed_eq (hsent.trans (List.append_nil _).symm))
  · exact absurd ha (by simp [Label.result])

/-- In every run of `sendInLoop` and `handleWrite` with both callbacks set, each
step queues exactly the callbacks that are due, none of them a completion if
`::write` fails; and after a notification of the mark the number of unsent bytes
has been below it before the next one. -/
theorem notices_exact (this : ι) {e : Endpoint ι} (h : (system this).init e) (as : List Label) :
    (system this).StepsRelate (fun e₁ a e₂ => Exact e.conn.highWaterMark e₁ a e₂ ∧
        ((∃ errno logged, a.result = .failed errno logged) → .writeComplete ∉ queued e₁ e₂)) e as ∧
      ∀ {as₁ a as₂ b as₃ e₁ e₂ e₃ e₄ n m}, as = as₁ ++ a :: as₂ ++ b :: as₃ →
        (system this).run e as₁ = some e₁ → (system this).step e₁ a = some e₂ →
        (system this).run e₂ as₂ = some e₃ → (system this).step e₃ b = some e₄ →
        .highWaterMark n ∈ queued e₁ e₂ → .highWaterMark m ∈ queued e₃ e₄ →
        e.conn.highWaterMark ≤ e₂.conn.unsent ∧ e₃.conn.unsent < e.conn.highWaterMark := by
  have hrelate : (system this).StepsRelate (fun e₁ a e₂ => Exact e.conn.highWaterMark e₁ a e₂ ∧
      ((∃ errno logged, a.result = .failed errno logged) →
        .writeComplete ∉ queued e₁ e₂)) e as := by
    refine Machine.StepsRelate.of_invariant
      (I := fun e₁ => BothSet e₁ ∧ e₁.conn.highWaterMark = e.conn.highWaterMark) ?_ ?_ as ⟨h, rfl⟩
    · rintro e₁ a e₂ ⟨hset, hmark⟩ hstep
      have hsame := settings_step hstep
      exact ⟨⟨hsame.writeComplete.trans hset.writeComplete,
        hsame.callback.trans hset.highWaterMark⟩, hsame.mark.trans hmark⟩
    · rintro e₁ a e₂ ⟨hset, hmark⟩ hstep
      have hexact := exact_step hset hstep
      rw [hmark] at hexact
      refine ⟨hexact, fun ⟨errno, logged, ha⟩ hqueued => ?_⟩
      rw [hexact.queued_eq, if_neg (not_completes_of_failed hset.highWaterMark ha hstep),
        List.append_nil] at hqueued
      split_ifs at hqueued
      · exact absurd (List.mem_singleton.mp hqueued) (by simp)
      · exact absurd hqueued List.not_mem_nil
  refine ⟨hrelate, ?_⟩
  rintro as₁ a as₂ b as₃ e₁ e₂ e₃ e₄ n m rfl h₁ ha h₂ hb hn hm
  have hfirst : (system this).run e (as₁ ++ a :: as₂) = some e₃ := by
    rw [Machine.run_append, h₁, Option.bind_some, Machine.run, ha, Option.bind_some, h₂]
  have hrelate' := hrelate
  rw [List.append_assoc] at hrelate'
  exact ⟨((hrelate'.at _ _ h₁ ha).1.crosses hn).2, ((hrelate.at _ _ hfirst hb).1.crosses hm).1⟩

/-- A connection with both callbacks and a mark of 3. -/
def watched : Endpoint Unit where
  conn := { TcpConnection.make 5 true with
    state := .kConnected
    highWaterMark := 3
    highWaterMarkCallback := true }
  poller := EPollPoller.empty
  trace := []

/-- The mark is crossed, the buffer drained, and the mark crossed again. -/
def crossTwice : List Label :=
  [.sendInLoop [1, 2, 3, 4] (.wrote 1), .handleWrite (.wrote 3),
    .sendInLoop [5, 6, 7, 8] (.wrote 0)]

theorem notices_exact_watched :
    (system ()).StepsRelate (fun e₁ a e₂ => Exact 3 e₁ a e₂ ∧
        ((∃ errno logged, a.result = .failed errno logged) → .writeComplete ∉ queued e₁ e₂)) watched
      crossTwice ∧
      ∃ e₂ e₃ e₄ : Endpoint Unit,
        (system ()).step watched (.sendInLoop [1, 2, 3, 4] (.wrote 1)) = some e₂ ∧
        (system ()).run e₂ [.handleWrite (.wrote 3)] = some e₃ ∧
        (system ()).step e₃ (.sendInLoop [5, 6, 7, 8] (.wrote 0)) = some e₄ ∧
        .highWaterMark 3 ∈ queued watched e₂ ∧ .highWaterMark 4 ∈ queued e₃ e₄ ∧
        3 ≤ e₂.conn.unsent ∧ e₃.conn.unsent < 3 := by
  have hrun : ∃ e₂ e₃ e₄ : Endpoint Unit,
      (system ()).step watched (.sendInLoop [1, 2, 3, 4] (.wrote 1)) = some e₂ ∧
      (system ()).run e₂ [.handleWrite (.wrote 3)] = some e₃ ∧
      (system ()).step e₃ (.sendInLoop [5, 6, 7, 8] (.wrote 0)) = some e₄ ∧
      .highWaterMark 3 ∈ queued watched e₂ ∧ .highWaterMark 4 ∈ queued e₃ e₄ :=
    ⟨_, _, _, rfl, rfl, rfl, by decide, by decide⟩
  obtain ⟨e₂, e₃, e₄, ha, h₂, hb, hn, hm⟩ := hrun
  have hsplit : crossTwice = [] ++ .sendInLoop [1, 2, 3, 4] (.wrote 1) ::
      [.handleWrite (.wrote 3)] ++ .sendInLoop [5, 6, 7, 8] (.wrote 0) :: [] := rfl
  obtain ⟨hexact, hcrossings⟩ := notices_exact () (e := watched) ⟨rfl, rfl⟩ crossTwice
  exact ⟨hexact, e₂, e₃, e₄, ha, h₂, hb, hn, hm, hcrossings hsplit rfl ha h₂ hb hn hm⟩

end BackPressure

end Moduo
