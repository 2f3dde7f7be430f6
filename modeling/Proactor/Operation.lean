/-!
# Operations

The seven kinds of operation an engine submits, and the opcodes ports know them by.
-/

namespace Proactor

/-- The number a port knows an operation by. -/
abbrev Opcode := UInt8

namespace Opcode

def nop : Opcode := 0
def sendMessage : Opcode := 9
def receiveMessage : Opcode := 10
def accept : Opcode := 13
def connect : Opcode := 16
def read : Opcode := 22
def write : Opcode := 23

/-- The opcodes an engine ever issues. -/
def issued : List Opcode :=
  [nop, read, write, receiveMessage, sendMessage, accept, connect]

end Opcode

/-- What an operation does. -/
inductive Kind where
  | write
  | read
  | receiveFrom
  | sendTo
  | accept
  | connect
  | inject
  deriving DecidableEq, Repr, Inhabited

namespace Kind

/-- The opcode under which operations of this kind are pushed. -/
def opcode : Kind → Opcode
  | write => Opcode.write
  | read => Opcode.read
  | receiveFrom => Opcode.receiveMessage
  | sendTo => Opcode.sendMessage
  | accept => Opcode.accept
  | connect => Opcode.connect
  | inject => Opcode.nop

/-- The name used in messages. -/
def name : Kind → String
  | write => "write"
  | read => "read"
  | receiveFrom => "recv_from"
  | sendTo => "send_to"
  | accept => "accept"
  | connect => "connect"
  | inject => "inject"

/-- All kinds. -/
def all : List Kind := [write, read, receiveFrom, sendTo, accept, connect, inject]

/-- The kind of that name. -/
def ofName? (s : String) : Option Kind := all.find? (·.name == s)

end Kind

end Proactor
