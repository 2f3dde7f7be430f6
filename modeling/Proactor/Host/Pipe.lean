import Proactor.Bytes

/-!
# Pipes

A pipe holds sixteen pages of bytes, the oldest first. A write first fills up the page written
last, if what is left over from whole pages fits behind it, and then takes new pages as long as
there are any. A read takes bytes from the front; a page whose bytes are all taken is free
again.
-/

namespace Proactor

namespace Pipe

/-- How many bytes a page holds. -/
def pageSize : Nat := 4096

/-- How many pages a pipe holds. -/
def maxPages : Nat := 16

/-- The bytes of a page that are yet to be taken, behind so many taken ones. -/
structure Page where
  taken : Nat := 0
  bytes : Bytes
  deriving DecidableEq, Repr

end Pipe

/-- The pages of a pipe, and which of its ends are open. -/
structure Pipe where
  pages : List Pipe.Page := []
  readerOpen : Bool := true
  writerOpen : Bool := true
  deriving DecidableEq, Repr, Inhabited

namespace Pipe

/-- All bytes in a pipe, the oldest first. -/
def content (p : Pipe) : Bytes := p.pages.flatMap Page.bytes

/-- There is something to read. -/
def isReadable (p : Pipe) : Bool := !p.pages.isEmpty

/-- There is a page to write to. -/
def isWritable (p : Pipe) : Bool := decide (p.pages.length < maxPages)

/-- Cuts bytes into pages, `n` of them at most. -/
def paginate : Nat → Bytes → List Page
  | 0, _ => []
  | n + 1, bs => if bs.isEmpty then [] else ⟨0, bs.take pageSize⟩ :: paginate n (bs.drop pageSize)

/-- Puts the left-over front of a write behind the page written last, if it fits. -/
def mergeLast : List Page → Bytes → Option (List Page)
  | [], _ => none
  | [page], bs =>
    if page.taken + page.bytes.length + bs.length ≤ pageSize then
      some [{ page with bytes := page.bytes ++ bs }]
    else none
  | page :: pages, bs => (mergeLast pages bs).map (page :: ·)

/-- Writes as much as there is room for; the count is how much that was. -/
def write (p : Pipe) (bs : Bytes) : Pipe × Nat :=
  let overhang := bs.length % pageSize
  let (pages, merged) := match mergeLast p.pages (bs.take overhang) with
    | some pages => (pages, overhang)
    | none => (p.pages, 0)
  let room := (maxPages - pages.length) * pageSize
  let rest := (bs.drop merged).take room
  ({ p with pages := pages ++ paginate (maxPages - pages.length) rest }, merged + rest.length)

/-- Takes bytes from the front of pages. -/
def takeFrom : List Page → Nat → List Page × Bytes
  | [], _ => ([], [])
  | page :: pages, n =>
    if n = 0 then (page :: pages, [])
    else if n < page.bytes.length then
      (⟨page.taken + n, page.bytes.drop n⟩ :: pages, page.bytes.take n)
    else
      let (pages, bs) := takeFrom pages (n - page.bytes.length)
      (pages, page.bytes ++ bs)

/-- Reads at most `n` bytes. -/
def read (p : Pipe) (n : Nat) : Pipe × Bytes :=
  let (pages, bs) := takeFrom p.pages n
  ({ p with pages }, bs)

end Pipe

end Proactor
