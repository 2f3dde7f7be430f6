import Proactor.Address.Socket

/-!
# Address halves

The layout of addresses in buffers: four bytes of length, low byte first, and then the address
bytes. A receive-from buffer is one half; an accept buffer is two, the local end in the first
half of its bytes (rounded down) and the remote end in the rest. Writers clamp to the room
there is, and readers never look past the recorded length.
-/

namespace Proactor.Half

/-- How many bytes the length takes. -/
def headerSize : Nat := 4

/-- The smallest buffer a receive-from accepts: a header and the smallest address record. -/
def minSize : Nat := headerSize + 16

/-- The smallest buffer an accept fills. -/
def minAcceptSize : Nat := 2 * minSize

/-- A buffer of this size holds an address of any family. -/
def fullSize : Nat := headerSize + SocketAddress.size

/-- The header that records a length. -/
def header (n : Nat) : Bytes := Bytes.ofNatLE headerSize n

/-- Where the local half of an accept buffer ends. -/
def split (n : Nat) : Nat := n / 2

/-- The address in a half. -/
def read (half : Bytes) : Address :=
  if half.length < headerSize then .none
  else
    let recorded := Bytes.toNatLE (half.take headerSize)
    Address.ofBytes ((half.drop headerSize).take recorded)

/-- How many bytes of `addr` a half of `n` bytes takes. -/
def fitting (n : Nat) (addr : Option SocketAddress) : Nat :=
  if n < headerSize then 0
  else match addr with
    | some a => min a.bytes.length (n - headerSize)
    | none => 0

/-- The half with an address written to it, cut to the room there is. -/
def write (half : Bytes) (addr : Option SocketAddress) : Bytes :=
  if half.length < headerSize then half
  else
    let front := match addr with
      | some a => a.bytes.take (half.length - headerSize)
      | none => []
    header front.length ++ Bytes.overwrite (half.drop headerSize) front

/-- The half with only its length written, at most what follows the header. -/
def setLength (half : Bytes) (n : Nat) : Bytes :=
  if half.length < headerSize then half
  else header (min n (half.length - headerSize)) ++ half.drop headerSize

/-- Local and remote address in an accept buffer. -/
def readAccept (buffer : Bytes) : Address × Address :=
  (read (buffer.take (split buffer.length)), read (buffer.drop (split buffer.length)))

/-- An accept buffer with both halves written. -/
def writeAccept (buffer : Bytes) (near far : Option SocketAddress) : Bytes :=
  write (buffer.take (split buffer.length)) near ++ write (buffer.drop (split buffer.length)) far

@[simp] theorem length_header (n : Nat) : (header n).length = headerSize := by simp [header]

/-- Writing keeps the number of bytes. -/
@[simp] theorem length_write (half : Bytes) (addr : Option SocketAddress) :
    (write half addr).length = half.length := by
  unfold write
  split
  · rfl
  · simp only [List.length_append, length_header, Bytes.length_overwrite, List.length_drop]
    omega

@[simp] theorem length_setLength (half : Bytes) (n : Nat) :
    (setLength half n).length = half.length := by
  unfold setLength
  split
  · rfl
  · simp only [List.length_append, length_header, List.length_drop]
    omega

@[simp] theorem length_writeAccept (buffer : Bytes) (near far : Option SocketAddress) :
    (writeAccept buffer near far).length = buffer.length := by
  simp only [writeAccept, List.length_append, length_write, List.length_take, List.length_drop]
  omega

end Proactor.Half
