import Proactor.Host.Attempt

/-!
# Receiving

Receiving on sockets: queued data, a failure that is yet to be reported, or the end of a stream
that brings nothing more.
-/

namespace Proactor.Host

/-- Receives the urgent byte of a stream, which goes without a name. -/
def receiveUrgent (h : Host) (id : FileId) (s : Socket) (room : Nat) (nameRoom : Option Nat)
    (flags : UInt32) : Host × Attempt :=
  match Message.takeUrgent s.queue with
  | none => (h, fail Errno.invalid)
  | some (data, queue) =>
    let h := if hasFlag flags flagPeek then h else h.modifySocket id fun s => { s with queue }
    let t : Transfer := { data := data.take room, messageFlags := flagOutOfBand }
    (h, succeed data.length (nameTransfer t [] nameRoom))

/-- Receives from a stream: what is queued comes first, then a failure to report, then the
end. -/
def receiveStream (h : Host) (id : FileId) (s : Socket) (room : Nat) (nameRoom : Option Nat)
    (flags : UInt32) : Host × Attempt :=
  if !s.established then (h, fail Errno.invalid)
  else if hasFlag flags flagOutOfBand then h.receiveUrgent id s room nameRoom flags
  else
    let (queue, found) := Message.readStream none room s.queue
    let h := if hasFlag flags flagPeek then h else h.modifySocket id fun s => { s with queue }
    match found with
    | some f => (h, succeed f.data.length (nameTransfer { data := f.data } f.sender nameRoom))
    | none =>
      match h.takeError id s with
      | some (h, e) => (h, fail e)
      | none =>
        if s.noReceive then (h, succeed 0 (nameTransfer {} [] nameRoom)) else (h, none)

/-- Receives from an internet stream, which has no connection: failures of messages that were
sent are waited for in vain. -/
def receiveInetStream (s : Socket) (nameRoom : Option Nat) (flags : UInt32) : Attempt :=
  if hasFlag flags flagErrorQueue then none
  else if s.listening then fail Errno.notConnected
  else if hasFlag flags flagOutOfBand then fail Errno.invalid
  else if s.noReceive then succeed 0 (nameTransfer {} [] nameRoom)
  else fail Errno.notConnected

/-- Receives one datagram; what there is no room for is lost. -/
def receiveDatagram (h : Host) (id : FileId) (s : Socket) (room : Nat) (nameRoom : Option Nat)
    (flags : UInt32) : Host × Attempt :=
  match h.takeError id s with
  | some (h, e) => (h, fail e)
  | none =>
    match s.queue with
    | m :: queue =>
      let h := if hasFlag flags flagPeek then h else h.modifySocket id fun s => { s with queue }
      let messageFlags := if room < m.data.length then flagTruncate else 0
      let n := if hasFlag flags flagTruncate then m.data.length else min room m.data.length
      (h, succeed n (nameTransfer { data := m.data.take room, messageFlags } m.sender nameRoom))
    | [] => (h, none)

/-- Receives on a socket. -/
def receive (h : Host) (id : FileId) (s : Socket) (room : Nat) (nameRoom : Option Nat)
    (flags : UInt32) : Host × Attempt :=
  let isInet := s.family = Family.inet || s.family = Family.inet6
  match s.type with
  | .stream =>
    if s.family = Family.unix then h.receiveStream id s room nameRoom flags
    else (h, receiveInetStream s nameRoom flags)
  | .seqpacket => (h, fail Errno.notConnected)
  | _ =>
    if isInet then
      if hasFlag flags flagErrorQueue then (h, none)
      else h.receiveDatagram id s room nameRoom flags
    else if hasFlag flags flagOutOfBand then (h, fail Errno.notSupported)
    else h.receiveDatagram id s room nameRoom flags

/-- What is told of a received message besides its data. In the narrower layout the length of the
name and the flags are stored elsewhere. -/
def tellMessage (flags : UInt32) (t : Transfer) : Transfer :=
  if hasFlag flags flagNarrow then { t with nameLength := none, messageFlags := 0 }
  else { t with messageFlags := t.messageFlags ||| flags &&& flagKeepDescriptors }

end Proactor.Host
