import Proactor.Token
import Proactor.Operation

/-!
# Faults

Everything that a call can be refused for, by cause, with the wording of each cause in one
place. Failures of operations already in flight are not faults: they reach the callback as an
error number.
-/

namespace Proactor

/-- A descriptor as callers name it: a signed 32-bit number. -/
abbrev Fd := Int32

/-- An error number of the host. -/
abbrev Errno := Int32

namespace Errno

def again : Errno := 11
def badDescriptor : Errno := 9
def badAddress : Errno := 14
def busy : Errno := 16
def deadlock : Errno := 35
def notImplemented : Errno := 38
def inputOutput : Errno := 5
def interrupted : Errno := 4
def invalid : Errno := 22
def tooManyFiles : Errno := 24
def brokenPipe : Errno := 32
def notSocket : Errno := 88
def destinationRequired : Errno := 89
def messageTooLong : Errno := 90
def wrongSocketType : Errno := 91
def protocolNotSupported : Errno := 93
def socketTypeNotSupported : Errno := 94
def notSupported : Errno := 95
def familyNotSupported : Errno := 97
def addressInUse : Errno := 98
def unreachable : Errno := 101
def reset : Errno := 104
def isConnected : Errno := 106
def notConnected : Errno := 107
def timedOut : Errno := 62
def refused : Errno := 111
def inProgress : Errno := 115
def noEntry : Errno := 2
def noData : Errno := 61
def notPermitted : Errno := 1

end Errno

/-- Why an argument is refused. -/
inductive Misuse where
  | lengthZero
  | lengthExceedsCapacity
  | lengthTooWide
  | bufferInFlight
  | addressBufferTooSmall
  | acceptBufferTooSmall
  | acceptHandleNegative
  | hostNotIpv4
  | engineShutDown
  /-- A reason given by a port in its own words. -/
  | other (reason : String)
  deriving DecidableEq, Repr

/-- The wording of a misuse. -/
def Misuse.message : Misuse → String
  | lengthZero => "length must be greater than zero"
  | lengthExceedsCapacity => "length exceeds buffer capacity"
  | lengthTooWide => "length does not fit in 32 bits"
  | bufferInFlight => "buffer already in flight"
  | addressBufferTooSmall => "address buffer too small"
  | acceptBufferTooSmall => "accept buffer too small"
  | acceptHandleNegative => "accept handle must be a valid descriptor"
  | hostNotIpv4 => "host is not a valid IPv4 address"
  | engineShutDown => "engine has shut down"
  | other reason => reason

/-- Why a configuration is refused. -/
inductive ConfigFault where
  | submissionsNotPowerOfTwo
  | submissionsTooMany
  | completionsBelowSubmissions
  /-- A reason given by a port in its own words. -/
  | other (reason : String)
  deriving DecidableEq, Repr

/-- The wording of a configuration fault. -/
def ConfigFault.message : ConfigFault → String
  | submissionsNotPowerOfTwo => "sq_entries must be a power of 2"
  | submissionsTooMany => "sq_entries must be <= 32768"
  | completionsBelowSubmissions => "cq_entries must be >= sq_entries"
  | other reason => reason

/-- What a call is refused for. -/
inductive Fault where
  /-- A bad length, buffer, host text or handle; nothing was changed. -/
  | invalidArgument (cause : Misuse)
  /-- A destination of a family other than IPv4. -/
  | unsupportedAddressFamily (family : Int32)
  /-- Something an engine needs to exist could not be had. -/
  | systemResource (what : String) (errno : Errno)
  /-- The port refused the operation; its callback will never run. -/
  | systemCall (kind : Kind) (errno : Errno)
  /-- Waiting, pushing or flushing failed in the port. -/
  | system (errno : Errno)
  /-- A completion named no operation in flight. -/
  | unknownToken (token : Token)
  | config (cause : ConfigFault)
  deriving DecidableEq, Repr

namespace Fault

/-- The error number behind a fault, if there is one. -/
def errno? : Fault → Option Errno
  | systemResource _ e => some e
  | systemCall _ e => some e
  | system e => some e
  | _ => none

/-- The error number behind a fault; a fault without one counts as a general input/output error. -/
def errno (f : Fault) : Errno := f.errno?.getD Errno.inputOutput

def isInvalidArgument : Fault → Bool
  | invalidArgument _ => true
  | _ => false

/-- An error number in decimal. -/
def errnoText (e : Errno) : String := e.toInt.repr

/-- The wording of a fault. -/
def message : Fault → String
  | invalidArgument cause => "invalid argument: " ++ cause.message
  | unsupportedAddressFamily family => "unsupported address family " ++ family.toInt.repr
  | systemResource what e => what ++ ": errno " ++ errnoText e
  | systemCall kind e => kind.name ++ " failed: errno " ++ errnoText e
  | system e => "completion wait failed: errno " ++ errnoText e
  | unknownToken token => "completion for unknown token " ++ token.text
  | config cause => "invalid config: " ++ cause.message

end Fault

end Proactor
