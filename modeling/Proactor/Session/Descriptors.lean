import Proactor.Session.Names

/-!
# Descriptor steps

Steps of a session that make, use and close descriptors of the host directly.
-/

namespace Proactor

/-- A step on descriptors. -/
inductive DescriptorStep where
  | pipe (r w : String)
  | socketPair (type : SocketType) (a b : String)
  | socket (name : String) (family : Family) (type : SocketType)
  /-- A bound internet socket; a stream listens. -/
  | bound (name : String) (type : SocketType)
  /-- A local socket bound to a path name; a stream listens. -/
  | named (name : String) (type : SocketType) (path : String)
  | connectPort (fd : FdRef) (port : PortRef)
  | connectPath (fd : FdRef) (path : String)
  | write (fd : FdRef) (content : Bytes)
  | read (fd : FdRef) (room : Nat)
  | fill (fd : FdRef)
  | nonblocking (fd : FdRef) (set : Option Bool)
  | shutDown (fd : FdRef) (how : Int)
  | close (fd : FdRef)
  deriving Inhabited

/-- The answer to a descriptor step. -/
inductive DescriptorAnswer where
  | done
  | count (n : Nat)
  | content (b : Bytes)
  | flag (b : Bool)
  | failed (e : Errno)

/-- A host, and names of its descriptors. -/
structure Desk where
  host : Host := Host.start
  names : FdNames := []

namespace Desk

/-- The desk with its host changed, and operations of rings tried again. -/
def onHost (d : Desk) (h : Host) : Desk := { d with host := h.settle }

/-- The desk with a new descriptor under a name. -/
def named (d : Desk) (h : Host) (name : String) (fd : Fd) : Desk :=
  { host := h.settle, names := d.names.give name fd }

/-- Two new descriptors under their names. -/
def namedPair (d : Desk) (r : Host × Fd × Fd) (a b : String) : Desk × DescriptorAnswer :=
  let (h, x, y) := r
  ((d.named h a x).named h b y, .done)

/-- A new descriptor under its name, or why there is none. -/
def namedResult (d : Desk) (r : Host × Except Errno Fd) (name : String) :
    Desk × DescriptorAnswer :=
  match r with
  | (h, .ok fd) => (d.named h name fd, .done)
  | (h, .error e) => (d.onHost h, .failed e)

/-- The end of a call that answers nothing but success. -/
def plain (d : Desk) (r : Host × Except Errno Unit) : Desk × DescriptorAnswer :=
  match r with
  | (h, .ok ()) => (d.onHost h, .count 0)
  | (h, .error e) => (d.onHost h, .failed e)

/-- One descriptor step. -/
def run (d : Desk) : DescriptorStep → Desk × DescriptorAnswer
  | .pipe r w => d.namedPair d.host.makePipe r w
  | .socketPair type a b => d.namedPair (d.host.makePair type) a b
  | .socket name family type => d.namedResult (d.host.makeSocket family type) name
  | .bound name type =>
    let (h, fd) := d.host.makeInet type
    (d.named h name fd, .done)
  | .named name type path => d.namedResult (d.host.makeNamed type path) name
  | .connectPort fd port =>
    d.plain (d.host.connectPort (d.names.resolve fd) (d.names.resolvePort d.host port))
  | .connectPath fd path => d.plain (d.host.connectPath (d.names.resolve fd) path)
  | .write fd content =>
    match d.host.writeNow (d.names.resolve fd) content with
    | (h, .ok n) => (d.onHost h, .count n)
    | (h, .error e) => (d.onHost h, .failed e)
  | .read fd room =>
    match d.host.readNow (d.names.resolve fd) room with
    | (h, .ok b) => (d.onHost h, .content b)
    | (h, .error e) => (d.onHost h, .failed e)
  | .fill fd =>
    let (h, n) := d.host.fillUp (d.names.resolve fd)
    (d.onHost h, .count n)
  | .nonblocking fd set =>
    let fd := d.names.resolve fd
    let h := match set with
      | some b => d.host.setNonblocking fd b
      | none => d.host
    (d.onHost h, .flag (h.nonblocking fd))
  | .shutDown fd how => d.plain (d.host.shutDown (d.names.resolve fd) how)
  | .close fd => d.plain (d.host.closeFd (d.names.resolve fd))

end Desk

end Proactor
