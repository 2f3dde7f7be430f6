import Proactor.Host.Waiting
import Proactor.Port.Ring

/-!
# Rings on a host

How a host takes entries from rings and hands completions back. Entries are taken in order, and
an operation that can be over is over at once; the others hold their files and wait, unless
their flags refuse that.
-/

namespace Proactor.Host

/-- Why an entry is refused before its file is looked for. -/
def refusal? : Request → Option Errno
  | .accept _ flags | .unmapped (.accept _ flags) =>
    if mayAcceptWith flags then none else some Errno.invalid
  | .connect a => if SocketAddress.size < a.length.toNat then some Errno.invalid else none
  | .unmapped (.connect a) =>
    if SocketAddress.size < a.length.toNat then some Errno.invalid
    else if a.length = 0 then none else some Errno.badAddress
  | .unmapped (.receive ..) | .unmapped (.send ..) => some Errno.badAddress
  | _ => none

/-- Takes one entry. An operation that cannot be over at once holds its file from now on. -/
def takeEntry (ring : FileId) (m : Memory) (s : Pending) (e : Entry) : Pending :=
  let (before, due) := s
  match e.request? m, before.fileId? e.fd with
  | some .event, _ => (before.postCompletion ring e.token 0 {}, due)
  | some request, some file =>
    let r : Running := { token := e.token, file, request }
    match before.tryRunning r with
    | (h, .over n t) => wake ring (tell ring (isLate r n) (h, due) r.token n t)
    | (h, .waiting r) => ((h.hold file).await ring r, due)
  | _, _ => (before.postCompletion ring e.token (Int64.ofInt (-Errno.badDescriptor.toInt)) {}, due)

/-- Takes entries up to the first one that is refused, which is taken as well, and tells how
many. -/
def takeEntriesFrom (ring : FileId) (m : Memory) : Pending → List Entry → Pending × Nat
  | s, [] => (s, 0)
  | (h, due), e :: entries =>
    match (e.request? m).bind refusal? with
    | some errno =>
      ((h.postCompletion ring e.token (Int64.ofInt (-errno.toInt)) {}, due), 1)
    | none =>
      let (s, n) := takeEntriesFrom ring m (takeEntry ring m (h, due) e) entries
      (s, n + 1)

/-- Takes entries, and then does what became due meanwhile. -/
def takeEntries (h : Host) (ring : FileId) (m : Memory) (entries : List Entry) : Host × Nat :=
  let (s, n) := takeEntriesFrom ring m (h, []) entries
  (finishRing ring s, n)

/-- Completions are posted and not taken yet. -/
def hasCompletion (h : Host) (ring : FileId) : Bool :=
  ((h.ring? ring).map fun q => !q.completions.isEmpty).getD false

/-- Takes entries, and waits for a completion, if all of them were taken. Whoever waits, or sees
that there was no room for completions, has those posted that there is room for now. That an
operation waits in vain is found out only while somebody waits. -/
def enterRing (h : Host) (fd : Fd) (m : Memory) (entries : List Entry) (patience : Patience) :
    Host × Entered :=
  match h.fileId? fd with
  | none => (h, .failed Errno.badDescriptor)
  | some ring =>
    let overflown := ((h.ring? ring).map (!·.overflow.isEmpty)).getD false
    let (h, n) := h.takeEntries ring m entries
    if n < entries.length then (h, .taken n)
    else
    let h := if patience ≠ .now ∨ overflown then h.postOverflow ring else h
    let h := if h.hasCompletion ring ∨ patience = .now then h else h.endAllInVain ring
    if h.hasCompletion ring then (h, .taken n)
    else match patience with
      | .now => (h, .taken n)
      | .forever => (h, .blocked n)
      | .until_ d =>
        ({ h with clock := h.clock + d.nanoseconds },
          if n = 0 then .failed Errno.timedOut else .taken n)

/-- The completions of a ring that were not taken yet. -/
def untaken (h : Host) (fd : Fd) : List (Completion × Transfer) :=
  match (h.fileId? fd).bind h.ring? with
  | some q => q.completions ++ q.overflow
  | none => []

/-- Takes the oldest completion of a ring. -/
def reapRing (h : Host) (fd : Fd) : Host × Option (Completion × Transfer) :=
  match h.fileId? fd with
  | none => (h, none)
  | some ring =>
    match (h.ring? ring).map RingQueue.completions with
    | some (c :: completions) => (h.modifyRing ring fun q => { q with completions }, some c)
    | _ => (h, none)

/-- The most submissions that a ring is set up for. -/
def maxSubmissions : Nat := 32768

/-- Sets up a ring; the sizes of its queues become powers of two. -/
def setupRing (h : Host) (submissions : Nat) (completions : Option Nat) :
    Host × Except Errno RingParameters :=
  let sq := submissions.nextPowerOfTwo
  let cq := (completions.map Nat.nextPowerOfTwo).getD (2 * sq)
  if submissions = 0 ∨ maxSubmissions < submissions ∨ completions = some 0 ∨
      2 * maxSubmissions < completions.getD 0 ∨ cq < sq then (h, .error Errno.invalid)
  else
    let (h, fd) := h.openFile (.ring { room := cq })
    (h, .ok ⟨fd, sq, cq⟩)

/-- The number of operations that rings offer; they are numbered from zero on. -/
def offeredOperations : Nat := 48

end Proactor.Host
