import Proactor.Bytes

/-!
# Messages

Data on its way from one socket to another. It stands in the queue of the socket that is to
receive it, and takes up some of the room that its sender has for data under way. A stream is a
queue of messages whose boundaries do not count, except for an urgent byte, of which there is
one at most: reading ends before it, or passes over it, and it is kept for whoever asks for it.
A message without data marks the place of an urgent byte that was taken.

Main statement: reading a stream loses and makes up nothing but urgent bytes.
-/

namespace Proactor

/-- The name of an open file. -/
abbrev FileId := Nat

/-- Data in a queue. -/
structure Message where
  data : Bytes
  /-- The name of the socket it came from; a socket without a name has an empty one. -/
  sender : Bytes := []
  /-- The socket it came from. -/
  origin : FileId
  /-- How much room it takes up. -/
  charge : Nat
  /-- The data is one urgent byte. -/
  isUrgent : Bool := false
  deriving DecidableEq, Repr

namespace Message

/-! ## Room -/

/-- How much room a socket has for data under way. -/
def maxCharge : Nat := 212992

/-- How many bytes a page of memory holds. -/
def pageSize : Nat := 4096

/-- The room that pages for `n` bytes take. -/
def pagesFor (n : Nat) : Nat := (n + pageSize - 1) / pageSize * pageSize

/-- The room that one block for `n` bytes takes: blocks come in powers of two, and keep an
account of their pages. -/
def blockFor (n : Nat) : Nat := max 512 (n + 320).nextPowerOfTwo

/-- The room that `n` bytes take of which the last `paged` are kept in pages. -/
def chargeFor (n paged : Nat) : Nat := 256 + blockFor (n - paged) + pagesFor paged

/-- The room that `n` bytes of a stream take: a small block, and pages. -/
def streamCharge (n : Nat) : Nat := chargeFor n (min n (pagesFor (n - 3776)))

/-- The room that a datagram of `n` bytes takes: a block of some size, and so many pages. -/
def datagramCharge (n : Nat) : Nat := chargeFor n (pagesFor (min (n - 16064) (17 * pageSize)))

/-- How many bytes of a stream make one message at most. -/
def partSize : Nat := 36544

/-- The messages into which bytes of a stream are cut. -/
def parts (content : Bytes) : List Bytes :=
  if _h : content = [] then []
  else content.take partSize :: parts (content.drop partSize)
termination_by content.length
decreasing_by
  have := List.length_pos_iff.mpr _h
  simp only [List.length_drop, partSize]
  omega

/-! ## Reading streams -/

/-- What was read of a stream, and the name of its sender. -/
structure Found where
  data : Bytes
  sender : Bytes

/-- What was found, if anything, with more data behind it. -/
def found (before : Option Found) (data sender : Bytes) : Found :=
  match before with
  | some f => { f with data := f.data ++ data }
  | none => ⟨data, sender⟩

/-- Reading that has found something ends at a message. -/
def endsReading (ms : List Message) (m : Message) : Bool :=
  m.isUrgent || m.data.isEmpty && ms.all (!·.isUrgent)

/-- Reads at most `n` bytes from the front of a stream, behind what was found before: what is
left, and what is found then. Nothing is found if there is no message to read from. -/
def readStream (before : Option Found) (n : Nat) : List Message → List Message × Option Found
  | [] => ([], before)
  | m :: ms =>
    if m.isUrgent || m.data.isEmpty then
      if before.isSome && endsReading ms m then (m :: ms, before) else readStream before n ms
    else if n < m.data.length then
      ({ m with data := m.data.drop n } :: ms, some (found before (m.data.take n) m.sender))
    else if n = m.data.length then (ms, some (found before m.data m.sender))
    else readStream (some (found before m.data m.sender)) (n - m.data.length) ms

/-- The urgent byte of a stream, and the stream without it. -/
def takeUrgent : List Message → Option (Bytes × List Message)
  | [] => none
  | m :: ms =>
    if m.isUrgent then some (m.data, { m with data := [], isUrgent := false } :: ms)
    else (takeUrgent ms).map fun (data, ms) => (data, m :: ms)

/-- A stream whose urgent byte is a byte like all others. -/
def calm (ms : List Message) : List Message := ms.map ({ · with isUrgent := false })

end Message

end Proactor
