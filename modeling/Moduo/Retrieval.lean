/-
Retrieving from a buffer.

A run of retrievals should only show the bytes between `readerIndex` and
`writerIndex`, and each byte once.

* `retrieval_iff` — exactly the runs that never ask `retrieveAsString` for more
  than is readable return the readable bytes; on these, buffers with the same
  content cannot be told apart.

`retrieve` takes a length beyond the content for all of it; `retrieveAsString`
copies before it calls `retrieve`, and copies what it was asked for.
-/
import Moduo.BufferRefinement

namespace Moduo

/-- The members that consume. -/
inductive Retrieval
  | retrieve (len : ℕ)
  | retrieveAsString (len : ℕ)
  | retrieveAll
  | retrieveAllAsString
  deriving DecidableEq, Repr

namespace Retrieval

/-! ### What a queue returns -/

/-- The bytes that the call should return. -/
def expected (content : List Byte) : Retrieval → List Byte
  | retrieve _ => []
  | retrieveAsString len => content.take len
  | retrieveAll => []
  | retrieveAllAsString => content

/-- The content after the call. -/
def after (content : List Byte) : Retrieval → List Byte
  | retrieve len => content.drop len
  | retrieveAsString len => content.drop len
  | retrieveAll => []
  | retrieveAllAsString => []

/-- What a run of calls should return, call by call. -/
def expectedAll : List Byte → List Retrieval → List (List Byte)
  | _, [] => []
  | content, call :: calls => call.expected content :: expectedAll (call.after content) calls

/-- The call does not ask for more than `readable` bytes. -/
def Within (readable : ℕ) : Retrieval → Prop
  | retrieveAsString len => len ≤ readable
  | _ => True

/-- No call of the run asks for more than is readable when it is made. -/
def AllWithin : List Byte → List Retrieval → Prop
  | _, [] => True
  | content, call :: calls => call.Within content.length ∧ AllWithin (call.after content) calls

end Retrieval

namespace Buffer

/-- One call: the bytes returned, and the buffer after it. -/
def call (b : Buffer) : Retrieval → Option (List Byte × Buffer)
  | .retrieve len => some ([], b.retrieve len)
  | .retrieveAsString len => b.retrieveAsString len
  | .retrieveAll => some ([], b.retrieveAll)
  | .retrieveAllAsString => b.retrieveAllAsString

/-- What a run of calls returns, call by call. -/
def results : Buffer → List Retrieval → Option (List (List Byte))
  | _, [] => some []
  | b, call :: calls => (b.call call).bind fun r => (r.2.results calls).map (r.1 :: ·)

variable {b c : Buffer}

/-- A call within the readable bytes returns what the queue would. -/
theorem call_spec (h : b.WellFormed) {call : Retrieval} (hwithin : call.Within b.content.length) :
    ∃ c, b.call call = some (call.expected b.content, c) ∧ c.WellFormed ∧
      c.content = call.after b.content := by
  have hreadable : b.readableBytes = b.content.length := by
    rw [h.readableBytes_eq, h.length_content]
  cases call with
  | retrieve len =>
    obtain ⟨hwf, hcontent⟩ := retrieve_spec h len
    exact ⟨b.retrieve len, rfl, hwf, hcontent⟩
  | retrieveAsString len =>
    obtain ⟨hwf, hcontent⟩ := retrieve_spec h len
    refine ⟨b.retrieve len, ?_, hwf, hcontent⟩
    exact retrieveAsString_spec h (hreadable ▸ hwithin)
  | retrieveAll => exact ⟨b.retrieveAll, rfl, h.retrieveAll, content_retrieveAll b⟩
  | retrieveAllAsString =>
    obtain ⟨hwf, hcontent⟩ := retrieve_spec h b.readableBytes
    refine ⟨b.retrieve b.readableBytes, ?_, hwf, ?_⟩
    · show b.retrieveAsString b.readableBytes = _
      rw [retrieveAsString_spec h le_rfl, hreadable, List.take_length]
      rfl
    · rw [hcontent, hreadable, List.drop_length]
      rfl

/-- A call beyond the readable bytes does not. -/
theorem call_beyond {call : Retrieval}
    (hbeyond : ¬ call.Within b.content.length) :
    ∀ r, b.call call = some r → r.1 ≠ call.expected b.content := by
  intro r hr heq
  cases call with
  | retrieveAsString len =>
    have hlt : b.content.length < len := Nat.lt_of_not_le hbeyond
    obtain ⟨result, hload, rfl⟩ := Option.map_eq_some_iff.mp hr
    -- the copy has the length asked for, the content is shorter
    have hlength : result.length = len := by
      rw [Memory.load] at hload
      split_ifs at hload with hin
      rw [← Option.some.inj hload]
      exact Memory.length_segment hin
    have hshort : result.length = b.content.length := by
      have htake : result = b.content.take len := heq
      rw [htake, List.length_take]
      omega
    omega
  | retrieve len => exact hbeyond trivial
  | retrieveAll => exact hbeyond trivial
  | retrieveAllAsString => exact hbeyond trivial

theorem results_iff (h : b.WellFormed) (calls : List Retrieval) :
    b.results calls = some (Retrieval.expectedAll b.content calls) ↔
      Retrieval.AllWithin b.content calls := by
  induction calls generalizing b with
  | nil => exact ⟨fun _ => trivial, fun _ => rfl⟩
  | cons call calls ih =>
    rw [results, Retrieval.expectedAll, Retrieval.AllWithin]
    constructor
    · intro hresults
      obtain ⟨r, hr, hrest⟩ := Option.bind_eq_some_iff.mp hresults
      obtain ⟨rest, hcalls, hcons⟩ := Option.map_eq_some_iff.mp hrest
      obtain ⟨hhead, htail⟩ := List.cons.inj hcons
      have hwithin : call.Within b.content.length := by
        by_contra hbeyond
        exact call_beyond hbeyond r hr hhead
      obtain ⟨c, hc, hwf, hcontent⟩ := call_spec h hwithin
      obtain rfl := Option.some.inj (hr.symm.trans hc)
      rw [← hcontent] at htail ⊢
      exact ⟨hwithin, (ih hwf).mp (hcalls.trans (congrArg some htail))⟩
    · rintro ⟨hwithin, hrest⟩
      obtain ⟨c, hc, hwf, hcontent⟩ := call_spec h hwithin
      rw [← hcontent] at hrest
      rw [hc, Option.bind_some, (ih hwf).mpr hrest, hcontent]
      rfl

end Buffer

/-- Exactly when no call asks for more than is readable, every buffer with the
content of `b` returns the bytes of that content, in order. -/
theorem retrieval_iff {b : Buffer} (h : b.WellFormed) (calls : List Retrieval) :
    (∀ c : Buffer, c.WellFormed → c.content = b.content →
        c.results calls = some (Retrieval.expectedAll b.content calls)) ↔
      Retrieval.AllWithin b.content calls := by
  constructor
  · intro hsame
    exact (Buffer.results_iff h calls).mp (hsame b h rfl)
  · intro hwithin c hc hcontent
    rw [← hcontent] at hwithin ⊢
    exact (Buffer.results_iff hc calls).mpr hwithin

theorem retrieval_iff_make :
    (∀ c : Buffer, c.WellFormed → c.content = (Buffer.make 4).content →
        c.results [.retrieve 3, .retrieveAllAsString] =
          some (Retrieval.expectedAll (Buffer.make 4).content
            [.retrieve 3, .retrieveAllAsString])) ↔
      Retrieval.AllWithin (Buffer.make 4).content [.retrieve 3, .retrieveAllAsString] :=
  retrieval_iff (Buffer.make_wellFormed (by decide)) _

/-- A buffer of two bytes after `append("\x05\x02")`, `retrieveAll()` and
`append("\x05")`. -/
def Buffer.reused : Buffer := ⟨List.replicate 8 0 ++ [5, 2], 8, 9⟩

/-- The byte behind the content is returned as well. -/
theorem retrieveAsString_stale :
    Buffer.reused.results [.retrieveAsString 2] = some [[5, 2]] ∧
      ¬ ∀ c : Buffer, c.WellFormed → c.content = Buffer.reused.content →
        c.results [.retrieveAsString 2] =
          some (Retrieval.expectedAll Buffer.reused.content [.retrieveAsString 2]) := by
  refine ⟨by decide, fun h => ?_⟩
  have hwf : Buffer.reused.WellFormed := ⟨by decide, by decide, by decide, by decide⟩
  exact absurd (h Buffer.reused hwf rfl) (by decide)

end Moduo
