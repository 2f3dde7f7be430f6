import Proactor.Engine.Build
import Proactor.Session.AnyPort
import Proactor.Session.Descriptors

/-!
# Steps on engines

What a session can do with an engine, its buffers, its injector and its script, and what each
step answers.
-/

namespace Proactor

/-- The result that a script gives a completion. -/
inductive ScriptedResult where
  | number (n : Int64)
  /-- The number of a descriptor, whose name is then forgotten. -/
  | take (name : String)
  /-- The number of a descriptor, whose name stays. -/
  | same (name : String)
  deriving Inhabited

/-- An answer that a script gives a wait. -/
inductive ScriptLine where
  | timeout
  | fault (f : Fault)
  | completion (target : Scripted.Target) (result : ScriptedResult) (flags : UInt32)
      (moved : Transfer)
  deriving Inhabited

/-- A step on an engine. Buffers go by their handles. -/
inductive EngineStep where
  | descriptor (s : DescriptorStep)
  | buffer (handle : String) (content : Bytes)
  | clone (handle of_ : String)
  | allocate (handle : String) (size : Nat)
  | addressBuffer (handle : String)
  | acceptBuffer (handle : String)
  | encode (handle : String) (family : Int32) (host : String) (port : PortRef)
  | peek (buffer : String)
  | fill (buffer : String) (content : Bytes)
  | describeBuffer (buffer : String)
  /-- Steps made while a buffer is borrowed. -/
  | borrow (buffer : String) (steps : List EngineStep)
  | write (fd : FdRef) (buffer : String) (length : Option Nat) (cb : Callback)
  | read (fd : FdRef) (buffer : String) (length : Option Nat) (cb : Callback)
  | receiveFrom (fd : FdRef) (buffer sender : String) (length : Option Nat) (flags : Int32)
      (cb : Callback)
  | sendTo (fd : FdRef) (buffer : String) (family : Int32) (host : String) (port : PortRef)
      (length : Option Nat) (flags : Int32) (cb : Callback)
  | accept (fd onto : FdRef) (buffer : String) (cb : Callback)
  | connect (fd : FdRef) (family : Int32) (host : String) (port : PortRef) (cb : Callback)
  | inject (cb : Callback)
  | pump (timeout : Option Duration)
  | post (cb : Callback)
  | pending
  | describeInjector
  | associate (fd : FdRef)
  | dissociate (fd : FdRef)
  | decode (buffer : String)
  | acceptAddresses (buffer : String)
  | socketInfo (fd : FdRef)
  | config
  | portInfo
  | extensions
  | shutdown
  | drop
  /-- Answers appended to those of the next pushes, flushes and associations. -/
  | script (pushes flushes associations : List (Option Fault))
  | complete (line : ScriptLine)
  deriving Inhabited

/-- An address, and the name of the socket of the session that is bound to its port. -/
structure NamedAddress where
  address : Address
  portName : Option String := none

/-- A descriptor as a report shows it. -/
inductive FdLabel where
  /-- The one through which the engine is woken. -/
  | wake
  | name (s : String)
  | number (fd : Fd)
  deriving DecidableEq, Repr

/-- Something a scripted port was asked, and the label of the descriptor it was about. -/
structure LabelledEvent where
  event : Scripted.Event
  label : FdLabel

mutual

/-- The answer to a step. -/
inductive StepAnswer where
  /-- There is nothing to tell. -/
  | nothing
  | noEngine
  | done
  | descriptor (a : DescriptorAnswer)
  | count (n : Nat)
  | flag (b : Bool)
  | text (s : String)
  | fault (f : Fault)
  | content (lent : Bool) (bytes : Option Bytes)
  | token (t : Token)
  | pumped (p : Pumped)
  | addresses (l : List NamedAddress)
  | socketInfo (i : SocketInfo)
  | config (c : Config)
  | portInfo (name : String) (capacity inflight : Nat)
  | extensions (x : Extensions)
  | nested (reports : List StepReport)
  /-- The step does not return. -/
  | halted (h : Halt)

/-- A step's answer, and what was told on the way: by callbacks, by a scripted port, and in
the journal; and the counts of an engine that is there. -/
inductive StepReport where
  | mk (answer : StepAnswer) (calls : List Call) (events : List LabelledEvent)
      (notices : List Notice) (stats : Option (Nat × Stats))

end

end Proactor
