/-
The byte buffer (`Buffer.h`, `Buffer.cc`).

    | prependable | readable | writable |
    0        readerIndex  writerIndex  size

`buffer` is the storage of the `std::vector<char>`; the two indices are
`size_t`, so their arithmetic wraps at `2 ^ 64`.  An operation that copies
returns `none` when a copy would leave the storage.

* `Buffer.append`, `ensureWritableBytes`, `makeSpace` — the write side;
* `Buffer.retrieve`, `retrieveAsString`, … — the read side;
* `Buffer.readFd`, `writeFd` — the system calls, whose outcome is an argument.
-/
import Moduo.Lib.Memory
import Moduo.Lib.Word

namespace Moduo

/-- A `char`. -/
abbrev Byte := UInt8

/-- The error numbers the code tells apart. -/
inductive Errno
  | EWOULDBLOCK
  | EPIPE
  | ECONNRESET
  | other (code : ℕ)
  deriving DecidableEq, Repr

/-- Outcome of `::readv`: the bytes delivered, or `n < 0`. -/
inductive ReadResult
  | read (data : List Byte)
  | failed (errno : Errno)
  deriving DecidableEq, Repr

/-- Addition of `size_t`. -/
abbrev sizeAdd (a b : ℕ) : ℕ := Word.add 64 a b

/-- Subtraction of `size_t`. -/
abbrev sizeSub (a b : ℕ) : ℕ := Word.sub 64 a b

structure Buffer where
  buffer : List Byte
  readerIndex : ℕ
  writerIndex : ℕ
  deriving DecidableEq, Repr

namespace Buffer

/-- Bytes reserved in front of the data. -/
def KCheapPrend : ℕ := 8

def kInitialSize : ℕ := 1024

/-- `sizeof extrabuf` in `readFd`. -/
def extrabufSize : ℕ := 65536

def make (initialSize : ℕ) : Buffer where
  buffer := List.replicate (sizeAdd KCheapPrend initialSize) 0
  readerIndex := KCheapPrend
  writerIndex := KCheapPrend

variable (b : Buffer)

def readableBytes : ℕ := sizeSub b.writerIndex b.readerIndex

def writableBytes : ℕ := sizeSub b.buffer.length b.writerIndex

def prependableBytes : ℕ := b.readerIndex

def retrieveAll : Buffer :=
  { b with readerIndex := KCheapPrend, writerIndex := KCheapPrend }

def retrieve (len : ℕ) : Buffer :=
  if len < b.readableBytes then
    { b with readerIndex := sizeAdd b.readerIndex len }
  else
    -- nothing is left: both indices go back to the start
    b.retrieveAll

/-- `std::string result(peek(), len)` copies before `retrieve(len)` consumes. -/
def retrieveAsString (len : ℕ) : Option (List Byte × Buffer) :=
  (Memory.load b.buffer b.readerIndex len).map fun result => (result, b.retrieve len)

def retrieveAllAsString : Option (List Byte × Buffer) :=
  b.retrieveAsString b.readableBytes

/-- Slide the readable bytes down to `KCheapPrend`.  `std::copy` over a range
that ends before it begins is undefined. -/
def slideDown : Option (List Byte) :=
  if b.readerIndex ≤ b.writerIndex then
    (Memory.load b.buffer b.readerIndex (b.writerIndex - b.readerIndex)).bind
      (Memory.store b.buffer KCheapPrend)
  else none

def makeSpace (len : ℕ) : Option Buffer :=
  if sizeAdd b.writableBytes b.prependableBytes < sizeAdd len KCheapPrend then
    -- not enough room even with what lies in front: the vector grows
    some { b with buffer := Memory.resize b.buffer (sizeAdd b.writerIndex len) 0 }
  else
    let readable := b.readableBytes
    b.slideDown.map fun storage =>
      { buffer := storage
        readerIndex := KCheapPrend
        -- `writerIndex_ += len - readable`
        writerIndex := sizeAdd b.writerIndex (sizeSub len readable) }

def ensureWritableBytes (len : ℕ) : Option Buffer :=
  if b.writableBytes < len then b.makeSpace len else some b

def append (data : List Byte) : Option Buffer :=
  (b.ensureWritableBytes data.length).bind fun c =>
    (Memory.store c.buffer c.writerIndex data).map fun storage =>
      { c with buffer := storage, writerIndex := sizeAdd c.writerIndex data.length }

/-- Total length of the `iovec`s `readFd` passes to `::readv`. -/
def iovecLength : ℕ :=
  if b.writableBytes < extrabufSize then b.writableBytes + extrabufSize else b.writableBytes

/-- `vec[0]` is the writable part, so the kernel stores at `writerIndex`; what
does not fit there arrives in `extrabuf`. -/
def readFd : ReadResult → Option Buffer
  | .failed _ => some b
  | .read data =>
    let writable := b.writableBytes
    (Memory.store b.buffer b.writerIndex (data.take writable)).bind fun storage =>
      if data.length ≤ writable then
        some { b with buffer := storage, writerIndex := sizeAdd b.writerIndex data.length }
      else
        -- the rest is in `extrabuf`; `append` may move the vector
        append { b with buffer := storage, writerIndex := b.buffer.length } (data.drop writable)

/-- The bytes `writeFd` hands to `::write`: `readableBytes()` from `peek()`. -/
def writeFd : Option (List Byte) :=
  Memory.load b.buffer b.readerIndex b.readableBytes

end Buffer

end Moduo
