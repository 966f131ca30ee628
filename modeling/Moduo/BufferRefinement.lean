/-
`Buffer` against its reference queue.

`system` runs a buffer in step with a `Fifo`: the queue records all bytes
appended or read from the descriptor and the prefix retrieved.  `Refines` says
that the buffer is well formed and that its readable bytes are the content of
the queue.

* `ensureWritableBytes_spec`, `append_spec`, `readFd_spec` — the operations
  keep the correspondence, unless `makeSpace` slides (`Buffer.Misplaces`);
* `refines_iff` — a run corresponds throughout exactly when no step slides the
  readable bytes to a misplaced `writerIndex`: the sliding branch adds
  `len - readable` to the old `writerIndex` where the new `readerIndex` was
  meant, which is right only if `readerIndex + len = KCheapPrend + readable`.
-/
import Moduo.Buffer
import Moduo.Lib.Fifo
import Moduo.Lib.Machine

namespace Moduo

namespace Buffer

/-- The bytes in `[readerIndex, writerIndex)`. -/
def content (b : Buffer) : List Byte :=
  Memory.segment b.buffer b.readerIndex (b.writerIndex - b.readerIndex)

structure WellFormed (b : Buffer) : Prop where
  prepend_le : KCheapPrend ≤ b.readerIndex
  reader_le : b.readerIndex ≤ b.writerIndex
  writer_le : b.writerIndex ≤ b.buffer.length
  size_lt : b.buffer.length < 2 ^ 64

/-- The sizes computed for `len` more bytes fit in a `size_t`. -/
def Fits (b : Buffer) (len : ℕ) : Prop :=
  b.writerIndex + len < 2 ^ 64 ∧ len + KCheapPrend < 2 ^ 64

/-- `ensureWritableBytes(len)` slides the readable bytes down and leaves
`writerIndex` somewhere else than behind them. -/
def Misplaces (b : Buffer) (len : ℕ) : Prop :=
  b.writableBytes < len ∧ len + KCheapPrend ≤ b.writableBytes + b.prependableBytes ∧
    b.readerIndex + len ≠ KCheapPrend + b.readableBytes

instance (b : Buffer) (len : ℕ) : Decidable (b.Fits len) :=
  inferInstanceAs (Decidable (_ ∧ _))

instance (b : Buffer) (len : ℕ) : Decidable (b.Misplaces len) :=
  inferInstanceAs (Decidable (_ ∧ _ ∧ _))

variable {b c : Buffer}

theorem make_wellFormed {n : ℕ} (hn : KCheapPrend + n < 2 ^ 64) : (make n).WellFormed := by
  have hlen : (make n).buffer.length = KCheapPrend + n := by
    simp only [make, List.length_replicate, sizeAdd]
    exact Word.add_of_lt hn
  refine ⟨Nat.le_refl _, Nat.le_refl _, ?_, ?_⟩
  · rw [hlen]
    exact Nat.le_add_right _ _
  · rw [hlen]
    exact hn

@[simp] theorem content_make (n : ℕ) : (make n).content = [] := by
  simp [content, make]

theorem WellFormed.readableBytes_eq (h : b.WellFormed) :
    b.readableBytes = b.writerIndex - b.readerIndex :=
  Word.sub_of_le h.reader_le (Nat.lt_of_le_of_lt h.writer_le h.size_lt)

theorem WellFormed.writableBytes_eq (h : b.WellFormed) :
    b.writableBytes = b.buffer.length - b.writerIndex :=
  Word.sub_of_le h.writer_le h.size_lt

theorem WellFormed.length_content (h : b.WellFormed) :
    b.content.length = b.writerIndex - b.readerIndex := by
  have h1 := h.reader_le
  have h2 := h.writer_le
  exact Memory.length_segment (by omega)

/-! ### The read side -/

theorem WellFormed.retrieveAll (h : b.WellFormed) : b.retrieveAll.WellFormed := by
  have h1 := h.prepend_le
  have h2 := h.reader_le
  have h3 := h.writer_le
  refine ⟨Nat.le_refl _, Nat.le_refl _, ?_, h.size_lt⟩
  show KCheapPrend ≤ b.buffer.length
  omega

@[simp] theorem content_retrieveAll (b : Buffer) : b.retrieveAll.content = [] := by
  simp [content, Buffer.retrieveAll]

/-- `retrieve(len)` keeps the invariant and drops `len` readable bytes. -/
theorem retrieve_spec (h : b.WellFormed) (len : ℕ) :
    (b.retrieve len).WellFormed ∧ (b.retrieve len).content = b.content.drop len := by
  have h1 := h.reader_le
  have h2 := h.writer_le
  have h3 := h.size_lt
  rw [retrieve, h.readableBytes_eq]
  by_cases hlen : len < b.writerIndex - b.readerIndex
  · rw [if_pos hlen]
    have hadd : sizeAdd b.readerIndex len = b.readerIndex + len :=
      Word.add_of_lt (by omega)
    rw [hadd]
    refine ⟨⟨Nat.le_add_right_of_le h.prepend_le, ?_, h.writer_le, h.size_lt⟩, ?_⟩
    · show b.readerIndex + len ≤ b.writerIndex
      omega
    · rw [content, content, Memory.drop_segment]
      show Memory.segment b.buffer (b.readerIndex + len) (b.writerIndex - (b.readerIndex + len)) = _
      rw [Nat.sub_add_eq]
  · rw [if_neg hlen]
    refine ⟨h.retrieveAll, ?_⟩
    rw [content_retrieveAll, List.drop_of_length_le]
    rw [h.length_content]
    omega

theorem retrieveAsString_spec (h : b.WellFormed) {len : ℕ} (hlen : len ≤ b.readableBytes) :
    b.retrieveAsString len = some (b.content.take len, b.retrieve len) := by
  have h1 := h.reader_le
  have h2 := h.writer_le
  rw [h.readableBytes_eq] at hlen
  rw [retrieveAsString, Memory.load_of_le (by omega), content, Memory.take_segment _ _ hlen]
  rfl

/-! ### Making space -/

/-- The sliding branch moves the readable bytes to `KCheapPrend` and sets
`writerIndex` to the old `readerIndex` plus `len`. -/
theorem slide_spec (h : b.WellFormed) {len : ℕ} (hfits : b.Fits len)
    (hslide : len + KCheapPrend ≤ b.writableBytes + b.prependableBytes) :
    ∃ c, b.makeSpace len = some c ∧ c.readerIndex = KCheapPrend ∧
      c.writerIndex = b.readerIndex + len ∧ c.buffer.length = b.buffer.length ∧
      Memory.segment c.buffer KCheapPrend (b.writerIndex - b.readerIndex) = b.content := by
  have h0 := h.prepend_le
  have h1 := h.reader_le
  have h2 := h.writer_le
  have h3 := h.size_lt
  obtain ⟨hf1, hf2⟩ := hfits
  rw [h.writableBytes_eq] at hslide
  simp only [prependableBytes] at hslide
  have hsum : sizeAdd (b.buffer.length - b.writerIndex) b.readerIndex
      = b.buffer.length - b.writerIndex + b.readerIndex := Word.add_of_lt (by omega)
  have hlen : sizeAdd len KCheapPrend = len + KCheapPrend := Word.add_of_lt hf2
  -- `len - readable` may wrap around; the sum wraps back
  have hidx : sizeAdd b.writerIndex (sizeSub len (b.writerIndex - b.readerIndex))
      = b.readerIndex + len := by
    have hw : sizeAdd b.writerIndex (sizeSub len (b.writerIndex - b.readerIndex))
        = b.writerIndex - (b.writerIndex - b.readerIndex) + len :=
      Word.add_sub_of_le (by omega) (by omega) (by omega) (by omega)
    rw [hw]
    omega
  -- the copy reads before it writes, so the overlap does no harm
  have hcl : b.content.length = b.writerIndex - b.readerIndex := h.length_content
  have hstore : KCheapPrend + b.content.length ≤ b.buffer.length := by omega
  have hdown : b.slideDown = some (Memory.overwrite b.buffer KCheapPrend b.content) := by
    rw [slideDown, if_pos h1, Memory.load_of_le (by omega), Option.bind_some]
    exact Memory.store_of_le hstore
  rw [makeSpace, h.writableBytes_eq, prependableBytes, hsum, hlen, if_neg (by omega), hdown,
    h.readableBytes_eq]
  refine ⟨_, rfl, rfl, hidx, Memory.length_overwrite hstore, ?_⟩
  rw [← hcl]
  exact Memory.segment_overwrite_self hstore

/-- `ensureWritableBytes(len)` keeps the readable bytes and makes room, if it
does not misplace `writerIndex`. -/
theorem ensureWritableBytes_spec (h : b.WellFormed) {len : ℕ} (hfits : b.Fits len)
    (hm : ¬ b.Misplaces len) :
    ∃ c, b.ensureWritableBytes len = some c ∧ c.WellFormed ∧ c.content = b.content ∧
      len ≤ c.writableBytes := by
  have h0 := h.prepend_le
  have h1 := h.reader_le
  have h2 := h.writer_le
  have h3 := h.size_lt
  rw [ensureWritableBytes]
  by_cases hroom : b.writableBytes < len
  · rw [if_pos hroom]
    by_cases hslide : len + KCheapPrend ≤ b.writableBytes + b.prependableBytes
    · -- the sliding branch, at the coincidence that makes its `writerIndex` right
      have hco : b.readerIndex + len = KCheapPrend + b.readableBytes := by
        by_contra hne
        exact hm ⟨hroom, hslide, hne⟩
      obtain ⟨c, hc, hr, hw, hl, hseg⟩ := slide_spec h hfits hslide
      rw [h.readableBytes_eq] at hco
      rw [h.writableBytes_eq] at hroom hslide
      simp only [prependableBytes] at hslide
      have hc' : c.WellFormed := by
        refine ⟨Nat.le_of_eq hr.symm, ?_, ?_, ?_⟩
        · rw [hr, hw]
          omega
        · rw [hw, hl]
          omega
        · rw [hl]
          exact h3
      refine ⟨c, hc, hc', ?_, ?_⟩
      · rw [content, hr, hw, hco, Nat.add_sub_cancel_left]
        exact hseg
      · rw [hc'.writableBytes_eq, hl, hw]
        omega
    · -- the resizing branch: the sums do not wrap, so the test of `makeSpace` says what it means
      have hgrow : sizeAdd b.writerIndex len = b.writerIndex + len := Word.add_of_lt hfits.1
      have hlt : sizeAdd b.writableBytes b.prependableBytes < sizeAdd len KCheapPrend := by
        rw [h.writableBytes_eq] at hslide ⊢
        have hsum : sizeAdd (b.buffer.length - b.writerIndex) b.prependableBytes
            = b.buffer.length - b.writerIndex + b.prependableBytes :=
          Word.add_of_lt (by simp only [prependableBytes]; omega)
        have hlen : sizeAdd len KCheapPrend = len + KCheapPrend := Word.add_of_lt hfits.2
        rw [hsum, hlen]
        omega
      rw [makeSpace, if_pos hlt, hgrow]
      have hc : WellFormed { b with buffer := Memory.resize b.buffer (b.writerIndex + len) 0 } := by
        refine ⟨h0, h1, ?_, ?_⟩
        · rw [Memory.length_resize]
          exact Nat.le_add_right _ _
        · rw [Memory.length_resize]
          exact hfits.1
      refine ⟨_, rfl, hc, ?_, ?_⟩
      · show Memory.segment (Memory.resize b.buffer (b.writerIndex + len) 0) b.readerIndex
            (b.writerIndex - b.readerIndex) = b.content
        exact Memory.segment_resize (by omega) (by omega)
      · rw [hc.writableBytes_eq, Memory.length_resize]
        show len ≤ b.writerIndex + len - b.writerIndex
        omega
  · rw [if_neg hroom]
    exact ⟨b, rfl, h, rfl, Nat.le_of_not_lt hroom⟩

/-- Where it misplaces `writerIndex`, `ensureWritableBytes(len)` leaves it at
the old `readerIndex` plus `len`. -/
theorem ensureWritableBytes_misplaced (h : b.WellFormed) {len : ℕ} (hfits : b.Fits len)
    (hm : b.Misplaces len) :
    ∃ c, b.ensureWritableBytes len = some c ∧ c.readerIndex = KCheapPrend ∧
      c.writerIndex = b.readerIndex + len ∧ c.buffer.length = b.buffer.length := by
  obtain ⟨hroom, hslide, -⟩ := hm
  obtain ⟨c, hc, hr, hw, hl, -⟩ := slide_spec h hfits hslide
  exact ⟨c, by rw [ensureWritableBytes, if_pos hroom, hc], hr, hw, hl⟩

theorem content_ne_of_misplaced (h : b.WellFormed) {len : ℕ} (hm : b.Misplaces len)
    (hc : c.WellFormed) (hr : c.readerIndex = KCheapPrend) {extra : List Byte}
    (hw : c.writerIndex = b.readerIndex + len + extra.length) :
    c.content ≠ b.content ++ extra := by
  intro heq
  -- the lengths already differ
  have hlen : c.content.length = (b.content ++ extra).length := by rw [heq]
  rw [List.length_append, hc.length_content, h.length_content, hr, hw] at hlen
  have hne := hm.2.2
  rw [h.readableBytes_eq] at hne
  have h0 := h.prepend_le
  omega

/-! ### The write side -/

/-- Storing behind `writerIndex` where there is room appends to the content. -/
theorem commit_spec (h : b.WellFormed) {data : List Byte} (hroom : data.length ≤ b.writableBytes) :
    ∃ storage, Memory.store b.buffer b.writerIndex data = some storage ∧
      WellFormed { b with buffer := storage,
                          writerIndex := sizeAdd b.writerIndex data.length } ∧
      content { b with buffer := storage,
                       writerIndex := sizeAdd b.writerIndex data.length } = b.content ++ data := by
  have h1 := h.reader_le
  have h2 := h.writer_le
  have h3 := h.size_lt
  rw [h.writableBytes_eq] at hroom
  have hin : b.writerIndex + data.length ≤ b.buffer.length := by omega
  have hadd : sizeAdd b.writerIndex data.length = b.writerIndex + data.length :=
    Word.add_of_lt (by omega)
  refine ⟨_, Memory.store_of_le hin, ?_, ?_⟩
  · rw [hadd]
    refine ⟨h.prepend_le, Nat.le_add_right_of_le h1, ?_, ?_⟩
    · rw [Memory.length_overwrite hin]
      exact hin
    · rw [Memory.length_overwrite hin]
      exact h3
  · rw [hadd, content, content]
    have hsplit : b.writerIndex + data.length - b.readerIndex
        = (b.writerIndex - b.readerIndex) + data.length := by omega
    have hend : b.readerIndex + (b.writerIndex - b.readerIndex) = b.writerIndex := by omega
    simp only [hsplit]
    -- the stored bytes lie behind the old content
    rw [Memory.segment_add, hend, Memory.segment_overwrite_self hin,
      Memory.segment_overwrite_below (by omega) h2]

theorem append_spec (h : b.WellFormed) {data : List Byte} (hfits : b.Fits data.length)
    (hm : ¬ b.Misplaces data.length) :
    ∃ c, b.append data = some c ∧ c.WellFormed ∧ c.content = b.content ++ data := by
  obtain ⟨d, hd, hdwf, hdc, hroom⟩ := ensureWritableBytes_spec h hfits hm
  obtain ⟨storage, hs, hwf, hcont⟩ := commit_spec hdwf hroom
  refine ⟨_, ?_, hwf, ?_⟩
  · rw [append, hd, Option.bind_some, hs]
    rfl
  · rw [hcont, hdc]

theorem append_misplaced (h : b.WellFormed) {data : List Byte} (hfits : b.Fits data.length)
    (hm : b.Misplaces data.length) (hc : b.append data = some c) (hcwf : c.WellFormed) :
    c.content ≠ b.content ++ data := by
  obtain ⟨d, hd, hr, hw, hl⟩ := ensureWritableBytes_misplaced h hfits hm
  have h3 := h.size_lt
  rw [append, hd, Option.bind_some] at hc
  by_cases hin : d.writerIndex + data.length ≤ d.buffer.length
  · rw [Memory.store_of_le hin] at hc
    obtain rfl := Option.some.inj hc
    have hadd : sizeAdd d.writerIndex data.length = d.writerIndex + data.length :=
      Word.add_of_lt (by omega)
    refine content_ne_of_misplaced h hm hcwf hr ?_
    show sizeAdd d.writerIndex data.length = b.readerIndex + data.length + data.length
    rw [hadd, hw]
  · rw [Memory.store_of_gt (by omega)] at hc
    exact absurd hc (by simp)

/-! ### Reading from the descriptor -/

/-- The buffer `readFd` spills into: the writable part is full. -/
def filled (b : Buffer) : Buffer := { b with writerIndex := b.buffer.length }

/-- The state in which `readFd` appends the spilled bytes. -/
theorem readFd_spill (h : b.WellFormed) {data : List Byte}
    (hspill : b.writableBytes < data.length) :
    ∃ d : Buffer, b.readFd (.read data) = d.append (data.drop b.writableBytes) ∧ d.WellFormed ∧
      d.content = b.content ++ data.take b.writableBytes ∧ d.readerIndex = b.readerIndex ∧
      d.writerIndex = b.buffer.length ∧ d.buffer.length = b.buffer.length := by
  have htake : (data.take b.writableBytes).length = b.writableBytes := by
    rw [List.length_take]
    omega
  obtain ⟨storage, hs, hwf, hcont⟩ := commit_spec h (Nat.le_of_eq htake)
  have hfull : sizeAdd b.writerIndex (data.take b.writableBytes).length = b.buffer.length := by
    have h2 := h.writer_le
    have h3 := h.size_lt
    rw [htake, h.writableBytes_eq]
    have hadd : sizeAdd b.writerIndex (b.buffer.length - b.writerIndex)
        = b.writerIndex + (b.buffer.length - b.writerIndex) := Word.add_of_lt (by omega)
    rw [hadd]
    omega
  rw [hfull] at hwf hcont
  refine ⟨_, ?_, hwf, hcont, rfl, rfl, ?_⟩
  · simp only [readFd, hs, Option.bind_some]
    rw [if_neg (by omega)]
  · have h2 := hwf.writer_le
    have hin : b.writerIndex + (data.take b.writableBytes).length ≤ b.buffer.length := by
      rw [htake, h.writableBytes_eq]
      have := h.writer_le
      omega
    rw [Memory.store_of_le hin] at hs
    obtain rfl := Option.some.inj hs
    exact Memory.length_overwrite hin

theorem misplaces_congr {d e : Buffer} (hr : d.readerIndex = e.readerIndex)
    (hw : d.writerIndex = e.writerIndex) (hl : d.buffer.length = e.buffer.length) (len : ℕ) :
    d.Misplaces len ↔ e.Misplaces len := by
  simp only [Misplaces, writableBytes, prependableBytes, readableBytes, hr, hw, hl]

/-- A read that fits is stored behind `writerIndex`. -/
theorem readFd_fits (h : b.WellFormed) {data : List Byte}
    (hfit : data.length ≤ b.writableBytes) :
    ∃ c, b.readFd (.read data) = some c ∧ c.WellFormed ∧ c.content = b.content ++ data := by
  obtain ⟨storage, hs, hwf, hcont⟩ := commit_spec h hfit
  refine ⟨_, ?_, hwf, hcont⟩
  simp only [readFd, List.take_of_length_le hfit, hs, Option.bind_some]
  rw [if_pos hfit]

end Buffer

/-! ### Runs -/

namespace BufferRun

open Buffer

inductive Op
  | append (data : List Byte)
  | ensureWritableBytes (len : ℕ)
  | retrieve (len : ℕ)
  | retrieveAll
  | retrieveAsString (len : ℕ)
  | retrieveAllAsString
  | readFd (result : ReadResult)
  deriving DecidableEq, Repr

/-- The buffer after the call; `none` if a copy left the storage. -/
def Op.apply (b : Buffer) : Op → Option Buffer
  | .append data => b.append data
  | .ensureWritableBytes len => b.ensureWritableBytes len
  | .retrieve len => some (b.retrieve len)
  | .retrieveAll => some b.retrieveAll
  | .retrieveAsString len => (b.retrieveAsString len).map Prod.snd
  | .retrieveAllAsString => b.retrieveAllAsString.map Prod.snd
  | .readFd result => b.readFd result

/-- What the call means for the reference queue. -/
def Op.refer (q : Fifo Byte) : Op → Fifo Byte
  | .append data => q.put data
  | .ensureWritableBytes _ => q
  | .retrieve len => q.take len
  | .retrieveAll => q.takeAll
  | .retrieveAsString len => q.take len
  | .retrieveAllAsString => q.takeAll
  | .readFd (.read data) => q.put data
  | .readFd (.failed _) => q

/-- The callers' side: no size overflows, `retrieveAsString` asks for readable
bytes, and `::readv` delivers at most the length of its `iovec`s. -/
def Op.Admissible (b : Buffer) : Op → Prop
  | .append data => b.Fits data.length
  | .ensureWritableBytes len => b.Fits len
  | .retrieveAsString len => len ≤ b.readableBytes
  | .readFd (.read data) => data.length ≤ b.iovecLength ∧ b.Fits data.length
  | _ => True

/-- The call reaches the sliding branch and misplaces `writerIndex`. -/
def Op.Misplaces (b : Buffer) : Op → Prop
  | .append data => b.Misplaces data.length
  | .ensureWritableBytes len => b.Misplaces len
  | .readFd (.read data) =>
    b.writableBytes < data.length ∧ b.filled.Misplaces (data.length - b.writableBytes)
  | _ => False

/-- Room the call promises to leave: `len` after `ensureWritableBytes(len)`. -/
def Op.promised : Op → ℕ
  | .ensureWritableBytes len => len
  | _ => 0

instance (b : Buffer) (op : Op) : Decidable (op.Admissible b) := by
  cases op with
  | readFd result => cases result <;> simp only [Op.Admissible] <;> infer_instance
  | _ => simp only [Op.Admissible]; infer_instance

/-- A buffer next to its reference queue. -/
structure State where
  buffer : Option Buffer
  queue : Fifo Byte
  promised : ℕ

def start (initialSize : ℕ) : State := ⟨some (make initialSize), Fifo.empty, 0⟩

def system : Machine State Op where
  init s := ∃ n, KCheapPrend + n < 2 ^ 64 ∧ s = start n
  step s op := s.buffer.bind fun b =>
    if op.Admissible b then some ⟨op.apply b, op.refer s.queue, op.promised⟩ else none

/-- No copy has left the storage, the indices are in order, the readable bytes
are the content of the queue and a promised room is there. -/
def Refines (s : State) : Prop :=
  ∃ b, s.buffer = some b ∧ b.WellFormed ∧ b.content = s.queue.content ∧
    s.promised ≤ b.writableBytes

/-- The step of the run misplaces `writerIndex`. -/
def Misplacing (s : State) (op : Op) : Prop := ∃ b, s.buffer = some b ∧ op.Misplaces b

theorem start_refines {n : ℕ} (hn : KCheapPrend + n < 2 ^ 64) : Refines (start n) :=
  ⟨make n, rfl, make_wellFormed hn, content_make n, Nat.zero_le _⟩

/-! ### One step -/

/-- A read keeps the correspondence unless the spilled bytes are misplaced. -/
theorem readFd_spec {b : Buffer} (h : b.WellFormed) {data : List Byte}
    (hfits : b.Fits data.length) (hm : ¬ Op.Misplaces b (.readFd (.read data))) :
    ∃ c, b.readFd (.read data) = some c ∧ c.WellFormed ∧ c.content = b.content ++ data := by
  rcases Nat.lt_or_ge b.writableBytes data.length with hspill | hfit
  · obtain ⟨d, hd, hdwf, hdc, hr, hw, hl⟩ := readFd_spill h hspill
    have hlen : (data.drop b.writableBytes).length = data.length - b.writableBytes :=
      List.length_drop
    have hdfits : d.Fits (data.drop b.writableBytes).length := by
      have h2 := h.writer_le
      rw [hlen, h.writableBytes_eq] at *
      exact ⟨by have := hfits.1; omega, by have := hfits.2; omega⟩
    have hdm : ¬ d.Misplaces (data.drop b.writableBytes).length := by
      rw [hlen, misplaces_congr (e := b.filled) hr hw hl]
      exact fun hbad => hm ⟨hspill, hbad⟩
    obtain ⟨c, hc, hcwf, hcc⟩ := append_spec hdwf hdfits hdm
    refine ⟨c, by rw [hd, hc], hcwf, ?_⟩
    rw [hcc, hdc, List.append_assoc, List.take_append_drop]
  · exact readFd_fits h hfit

theorem readFd_misplaced {b c : Buffer} (h : b.WellFormed) {data : List Byte}
    (hfits : b.Fits data.length) (hm : Op.Misplaces b (.readFd (.read data)))
    (hc : b.readFd (.read data) = some c) (hcwf : c.WellFormed) :
    c.content ≠ b.content ++ data := by
  obtain ⟨hspill, hbad⟩ := hm
  obtain ⟨d, hd, hdwf, hdc, hr, hw, hl⟩ := readFd_spill h hspill
  have hlen : (data.drop b.writableBytes).length = data.length - b.writableBytes :=
    List.length_drop
  have hdfits : d.Fits (data.drop b.writableBytes).length := by
    have h2 := h.writer_le
    rw [hlen, h.writableBytes_eq] at *
    exact ⟨by have := hfits.1; omega, by have := hfits.2; omega⟩
  have hdm : d.Misplaces (data.drop b.writableBytes).length := by
    rw [hlen, misplaces_congr (e := b.filled) hr hw hl]
    exact hbad
  have hne := append_misplaced hdwf hdfits hdm (hd ▸ hc) hcwf
  rwa [hdc, List.append_assoc, List.take_append_drop] at hne

/-- An admissible step that does not misplace `writerIndex` keeps the
correspondence. -/
theorem apply_refines {b : Buffer} {q : Fifo Byte} (h : b.WellFormed)
    (hq : b.content = q.content) {op : Op} (hadm : op.Admissible b) (hm : ¬ op.Misplaces b) :
    Refines ⟨op.apply b, op.refer q, op.promised⟩ := by
  cases op with
  | append data =>
    obtain ⟨c, hc, hcwf, hcc⟩ := append_spec h hadm hm
    exact ⟨c, hc, hcwf, by simp [Op.refer, hcc, hq], Nat.zero_le _⟩
  | ensureWritableBytes len =>
    obtain ⟨c, hc, hcwf, hcc, hroom⟩ := ensureWritableBytes_spec h hadm hm
    exact ⟨c, hc, hcwf, by rw [hcc, hq]; rfl, hroom⟩
  | retrieve len =>
    obtain ⟨hwf, hc⟩ := retrieve_spec h len
    exact ⟨_, rfl, hwf, by simp [Op.refer, hc, hq], Nat.zero_le _⟩
  | retrieveAll =>
    exact ⟨_, rfl, h.retrieveAll, by simp [Op.refer], Nat.zero_le _⟩
  | retrieveAsString len =>
    obtain ⟨hwf, hc⟩ := retrieve_spec h len
    refine ⟨b.retrieve len, ?_, hwf, by simp [Op.refer, hc, hq], Nat.zero_le _⟩
    show (b.retrieveAsString len).map Prod.snd = _
    rw [retrieveAsString_spec h hadm]
    rfl
  | retrieveAllAsString =>
    obtain ⟨hwf, hc⟩ := retrieve_spec h b.readableBytes
    refine ⟨b.retrieve b.readableBytes, ?_, hwf, ?_, Nat.zero_le _⟩
    · show (b.retrieveAllAsString).map Prod.snd = _
      rw [retrieveAllAsString, retrieveAsString_spec h (Nat.le_refl _)]
      rfl
    · rw [hc, List.drop_of_length_le
        (Nat.le_of_eq (h.length_content.trans h.readableBytes_eq.symm))]
      simp [Op.refer]
  | readFd result =>
    cases result with
    | failed errno => exact ⟨b, rfl, h, hq, Nat.zero_le _⟩
    | read data =>
      obtain ⟨c, hc, hcwf, hcc⟩ := readFd_spec h hadm.2 hm
      exact ⟨c, hc, hcwf, by simp [Op.refer, hcc, hq], Nat.zero_le _⟩

/-- A step that misplaces `writerIndex` breaks the correspondence. -/
theorem not_refines_of_misplaces {b : Buffer} {q : Fifo Byte} (h : b.WellFormed)
    (hq : b.content = q.content) {op : Op} (hadm : op.Admissible b) (hm : op.Misplaces b) :
    ¬ Refines ⟨op.apply b, op.refer q, op.promised⟩ := by
  rintro ⟨c, hc, hcwf, hcq, -⟩
  cases op with
  | append data =>
    refine append_misplaced h hadm hm hc hcwf ?_
    simpa [Op.refer, ← hq] using hcq
  | ensureWritableBytes len =>
    obtain ⟨d, hd, hr, hw, -⟩ := ensureWritableBytes_misplaced h hadm hm
    obtain rfl : d = c := Option.some.inj (hd.symm.trans hc)
    have hne : d.content ≠ b.content ++ [] := content_ne_of_misplaced h hm hcwf hr hw
    rw [List.append_nil, hq] at hne
    exact hne hcq
  | readFd result =>
    cases result with
    | failed errno => exact hm
    | read data =>
      refine readFd_misplaced h hadm.2 hm hc hcwf ?_
      simpa [Op.refer, ← hq] using hcq
  | retrieve len => exact hm
  | retrieveAll => exact hm
  | retrieveAsString len => exact hm
  | retrieveAllAsString => exact hm

theorem refines_step {s t : State} {op : Op} (h : Refines s) (ht : system.step s op = some t) :
    Refines t ↔ ¬ Misplacing s op := by
  obtain ⟨b, hb, hwf, hq, -⟩ := h
  have hmis : Misplacing s op ↔ op.Misplaces b := by
    constructor
    · rintro ⟨d, hd, hm⟩
      obtain rfl : d = b := Option.some.inj (hd.symm.trans hb)
      exact hm
    · exact fun hm => ⟨b, hb, hm⟩
  simp only [system, hb, Option.bind_some] at ht
  by_cases hadm : op.Admissible b
  · rw [if_pos hadm] at ht
    obtain rfl := Option.some.inj ht
    rw [hmis]
    exact ⟨fun hr hm => not_refines_of_misplaces hwf hq hadm hm hr,
      fun hm => apply_refines hwf hq hadm hm⟩
  · rw [if_neg hadm] at ht
    exact absurd ht (by simp)

/-! ### The run -/

/-- A buffer corresponds to its reference queue throughout a run exactly when
no step of the run misplaces `writerIndex`. -/
theorem refines_iff (initialSize : ℕ) (hsize : KCheapPrend + initialSize < 2 ^ 64)
    (ops : List Op) :
    system.Throughout Refines (start initialSize) ops ↔
      system.StepsMeet (fun s op => ¬ Misplacing s op) (start initialSize) ops :=
  Machine.throughout_iff_stepsMeet (I := fun _ => True) (fun _ _ _ _ _ => trivial)
    (fun _ _ _ _ hs ht => refines_step hs ht) ops trivial (start_refines hsize)

theorem refines_iff_small :
    KCheapPrend + 4 < 2 ^ 64 ∧
      (system.Throughout Refines (start 4) [.append [1, 2, 3, 4], .retrieve 3] ↔
        system.StepsMeet (fun s op => ¬ Misplacing s op) (start 4)
          [.append [1, 2, 3, 4], .retrieve 3]) :=
  ⟨by decide, refines_iff 4 (by decide) _⟩

/-- Four bytes fill a buffer of initial size 4; after three are retrieved the
next two slide the last one down and are copied past the end of the storage. -/
theorem slide_past_end :
    ¬ system.Throughout Refines (start 4)
      [.append [1, 2, 3, 4], .retrieve 3, .append [5, 6]] := by
  intro h
  have hrun : ∃ q p, system.run (start 4)
      [.append [1, 2, 3, 4], .retrieve 3, .append [5, 6]] = some ⟨none, q, p⟩ :=
    ⟨_, _, rfl⟩
  obtain ⟨q, p, hrun⟩ := hrun
  obtain ⟨b, hb, -⟩ := h.final hrun
  exact absurd hb (by simp)

end BufferRun

end Moduo
