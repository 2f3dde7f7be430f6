import Proactor.Bytes

/-!
# Buffer memory

Byte storages and who may touch each. A storage is idle, lent to one operation in flight, or
borrowed by one reader or writer at home; it is lent and borrowed only while idle. Several
handles may name one storage. The number of bytes of a storage never changes.
-/

namespace Proactor

/-- The name of a storage: its position in memory. -/
abbrev StorageId := Nat

/-- Who may touch a storage. -/
inductive Lend where
  | idle
  /-- Held by an operation until its completion is retrieved. -/
  | lent
  /-- Held by a reader or writer at home until it returns. -/
  | borrowed
  deriving DecidableEq, Repr, Inhabited

/-- Bytes of fixed number and who may touch them. -/
structure Storage where
  bytes : Bytes
  lend : Lend := .idle
  deriving DecidableEq, Repr, Inhabited

/-- A run of bytes inside a storage. -/
structure Area where
  storage : StorageId
  offset : Nat
  length : Nat
  deriving DecidableEq, Repr, Inhabited

/-- All storages, and the handles that name them, the latest first. -/
structure Memory where
  storages : List Storage := []
  handles : List (String × StorageId) := []
  deriving Repr, Inhabited

namespace Memory

/-- The bytes of a storage, whoever may touch them. -/
def bytes (m : Memory) (id : StorageId) : Bytes := ((m.storages[id]?).map Storage.bytes).getD []

/-- The number of bytes of a storage. -/
def capacity (m : Memory) (id : StorageId) : Nat := (m.bytes id).length

/-- Who may touch a storage. -/
def lend? (m : Memory) (id : StorageId) : Option Lend := (m.storages[id]?).map Storage.lend

/-- The storage exists and nobody holds it. -/
def isIdle (m : Memory) (id : StorageId) : Bool := m.lend? id == some .idle

/-- An operation holds the storage. -/
def isLent (m : Memory) (id : StorageId) : Bool := m.lend? id == some .lent

/-- Memory with a new idle storage behind the others. -/
def alloc (m : Memory) (content : Bytes) : Memory × StorageId :=
  ({ m with storages := m.storages ++ [{ bytes := content }] }, m.storages.length)

/-- Memory with one more handle; it hides older ones of that name. -/
def bind (m : Memory) (handle : String) (id : StorageId) : Memory :=
  { m with handles := (handle, id) :: m.handles }

/-- The storage that a handle names. -/
def find? (m : Memory) (handle : String) : Option StorageId := m.handles.lookup handle

/-- Memory with the holder of a storage replaced. -/
def setLend (m : Memory) (id : StorageId) (l : Lend) : Memory :=
  { m with storages := m.storages.modify id fun s => { s with lend := l } }

/-- Lends an idle storage to an operation. -/
def lease? (m : Memory) (id : StorageId) : Option Memory :=
  if m.isIdle id then some (m.setLend id .lent) else none

/-- Lends an idle storage to a reader or writer at home. -/
def borrow? (m : Memory) (id : StorageId) : Option Memory :=
  if m.isIdle id then some (m.setLend id .borrowed) else none

/-- Gives a storage back. -/
def release (m : Memory) (id : StorageId) : Memory := m.setLend id .idle

/-- Gives several storages back. -/
def releaseAll (m : Memory) (ids : List StorageId) : Memory := ids.foldl release m

/-- Memory with the bytes of a storage replaced by what `f` makes of them. -/
def modifyBytes (m : Memory) (id : StorageId) (f : Bytes → Bytes) : Memory :=
  { m with storages := m.storages.modify id fun s => { s with bytes := f s.bytes } }

/-- The bytes of an idle storage; nobody reads one that is held. -/
def read? (m : Memory) (id : StorageId) : Option Bytes :=
  if m.isIdle id then some (m.bytes id) else none

/-- Copies to the front of an idle storage; the count is how many bytes fit. -/
def fill? (m : Memory) (id : StorageId) (src : Bytes) : Option (Memory × Nat) :=
  if m.isIdle id then
    some (m.modifyBytes id (Bytes.overwrite · src), min src.length (m.capacity id))
  else none

/-- The bytes of an area. -/
def readArea (m : Memory) (a : Area) : Bytes :=
  ((m.bytes a.storage).drop a.offset).take a.length

/-- Memory with as much of `src` written to an area as it has room for. -/
def writeArea (m : Memory) (a : Area) (src : Bytes) : Memory :=
  m.modifyBytes a.storage fun bytes => Bytes.overwriteFrom bytes a.offset (src.take a.length)

/-- The text that shows a buffer in messages. -/
def describe (m : Memory) (id : StorageId) : String :=
  "IoBuffer \x7b capacity: " ++ (m.capacity id).repr ++ ", lent: " ++
    (if m.isLent id then "true" else "false") ++ " \x7d"

/-- Only the holder of one storage changes. -/
theorem lend?_setLend (m : Memory) (id other : StorageId) (l : Lend) :
    (m.setLend id l).lend? other =
      if id = other then (m.lend? other).map fun _ => l else m.lend? other := by
  by_cases h : id = other <;> simp [setLend, lend?, h, Function.comp_def]

/-- Changing a holder changes no bytes. -/
@[simp] theorem bytes_setLend (m : Memory) (id other : StorageId) (l : Lend) :
    (m.setLend id l).bytes other = m.bytes other := by
  by_cases h : id = other <;> simp [setLend, bytes, h, Function.comp_def]

/-- Changing bytes changes no holder. -/
@[simp] theorem lend?_modifyBytes (m : Memory) (id other : StorageId) (f : Bytes → Bytes) :
    (m.modifyBytes id f).lend? other = m.lend? other := by
  by_cases h : id = other <;> simp [modifyBytes, lend?, h, Function.comp_def]

/-- Only the bytes of one storage change. -/
theorem bytes_modifyBytes_of_ne (m : Memory) {id other : StorageId} (f : Bytes → Bytes)
    (h : id ≠ other) : (m.modifyBytes id f).bytes other = m.bytes other := by
  simp [modifyBytes, bytes, h]

end Memory

end Proactor
