import Proactor.Host.Services

/-!
# Names of descriptors

In a session descriptors and ports are given by number or by a name. A name stays with the
number it was given to, also when that has been closed, until the name is given away again. A
name that was never given stands for no descriptor.
-/

namespace Proactor

/-- A descriptor in a step. -/
inductive FdRef where
  | number (fd : Fd)
  | name (s : String)
  deriving DecidableEq, Repr, Inhabited

/-- A port in a step: a number, or the local port of a socket. -/
inductive PortRef where
  | number (n : UInt16)
  | of (name : String)
  deriving DecidableEq, Repr, Inhabited

/-- Names and their numbers, the latest first. -/
abbrev FdNames := List (String × Fd)

namespace FdNames

/-- The number that a name stands for. -/
def fd (names : FdNames) (name : String) : Fd := (names.lookup name).getD (-1)

/-- The descriptor of a step. -/
def resolve (names : FdNames) : FdRef → Fd
  | .number n => n
  | .name s => names.fd s

/-- Names with one that is forgotten. -/
def forget (names : FdNames) (name : String) : FdNames := names.filter (·.1 != name)

/-- Names with one that is given to a number. -/
def give (names : FdNames) (name : String) (fd : Fd) : FdNames := (name, fd) :: names.forget name

/-- The name given to a number last. -/
def nameOf? (names : FdNames) (fd : Fd) : Option String :=
  (names.find? (·.2 == fd)).map (·.1)

/-- The local port of an internet socket. -/
def inetPort? (h : Host) (fd : Fd) : Option UInt16 :=
  match h.socketAt fd with
  | .ok (_, s) => s.inetPort?
  | .error _ => none

/-- The port of a step; a name that stands for no such socket is port zero. -/
def resolvePort (names : FdNames) (h : Host) : PortRef → UInt16
  | .number n => n
  | .of name => (inetPort? h (names.fd name)).getD 0

/-- The first name, in order of names, of an internet socket that is bound to a port, which is
not zero. -/
def nameOfPort? (names : FdNames) (h : Host) (port : UInt16) : Option String :=
  ((names.filter fun (_, fd) => port != 0 && inetPort? h fd == some port).map (·.1)).foldl
    (fun best name => match best with
      | some b => if name < b then some name else some b
      | none => some name)
    none

end FdNames

end Proactor
