import Mathlib.Algebra.Order.Group.Multiset
import Proactor.Proofs.Recorder

/-!
# Runs of a port

What happens to a port when it is asked one thing after the other: to take an entry, to flush, to
wait. Every time it is asked with the memory as it is then, and on a host that has gone on by
itself since the last time. A run keeps what was answered and what was noticed, and from that one
reads which entries the port took and which completions it handed back.
-/

namespace Proactor

variable {P H α β : Type}

/-- What a port can be asked. -/
inductive PortAsk where
  | push (m : Memory) (entry : Entry)
  | flush (m : Memory)
  | wait (m : Memory) (rounds : Nat) (timeout : Option Duration)

/-- The completion that a wait ends with, if it ends with one. -/
def Waited.completion? : Waited → Option Completion
  | .completion c _ => some c
  | _ => none

/-- The completion that a port handed back, if the call is that it did. -/
def PortCall.returned? : PortCall → Option Completion
  | .wait w => w.completion?
  | _ => none

/-- The entries that were taken, one after the other. -/
def takenIn (calls : List PortCall) : List Entry := calls.filterMap PortCall.taken?

/-- The completions that were handed back, one after the other. -/
def returnedIn (calls : List PortCall) : List Completion := calls.filterMap PortCall.returned?

/-- The results that were queued, one after the other. -/
def completedIn (notices : List Notice) : List Completion :=
  notices.filterMap fun
    | .completed token n => some { token, result := n }
    | _ => none

@[simp] theorem takenIn_append (l l' : List PortCall) :
    takenIn (l ++ l') = takenIn l ++ takenIn l' := List.filterMap_append

@[simp] theorem returnedIn_append (l l' : List PortCall) :
    returnedIn (l ++ l') = returnedIn l ++ returnedIn l' := List.filterMap_append

@[simp] theorem takenIn_singleton (call : PortCall) : takenIn [call] = call.taken?.toList := by
  simp only [takenIn, List.filterMap_cons, List.filterMap_nil]
  cases call.taken? <;> rfl

@[simp] theorem returnedIn_singleton (call : PortCall) :
    returnedIn [call] = call.returned?.toList := by
  simp only [returnedIn, List.filterMap_cons, List.filterMap_nil]
  cases call.returned? <;> rfl

@[simp] theorem completedIn_append (l l' : List Notice) :
    completedIn (l ++ l') = completedIn l ++ completedIn l' := List.filterMap_append

/-- The tokens of entries, in no order. -/
def entryTokens (l : List Entry) : Multiset Token := l.map Entry.token

/-- The tokens of completions, in no order. -/
def completionTokens (l : List Completion) : Multiset Token := l.map Completion.token

@[simp] theorem entryTokens_nil : entryTokens [] = 0 := rfl

@[simp] theorem completionTokens_nil : completionTokens [] = 0 := rfl

@[simp] theorem entryTokens_append (l l' : List Entry) :
    entryTokens (l ++ l') = entryTokens l + entryTokens l' := by
  simp [entryTokens]

@[simp] theorem completionTokens_append (l l' : List Completion) :
    completionTokens (l ++ l') = completionTokens l + completionTokens l' := by
  simp [completionTokens]

@[simp] theorem card_entryTokens (l : List Entry) : (entryTokens l).card = l.length := by
  simp [entryTokens]

@[simp] theorem card_completionTokens (l : List Completion) :
    (completionTokens l).card = l.length := by
  simp [completionTokens]

/-- The same reply with its answer put differently. -/
def Reply.map (f : α → β) (r : Reply P H α) : Reply P H β := { r with answer := f r.answer }

/-- Asks a port of some kind; the answer is the call as it went. -/
def PortAsk.put (kind : CompletionPort P H) (p : P) (h : H) : PortAsk → Reply P H PortCall
  | .push m entry => (kind.push p h m entry).map (.push entry)
  | .flush m => (kind.flush p h m).map .flush
  | .wait m rounds timeout => (kind.wait rounds p h m timeout).map .wait

/-- A port of some kind is asked one thing after the other, and before each the host goes on in one
of the ways given: the calls, the notices, and the port and host in the end. -/
inductive PortRun (kind : CompletionPort P H) (goesOn : H → H → Prop) (p : P) (h : H) :
    List PortCall → List Notice → P → H → Prop
  | start : PortRun kind goesOn p h [] [] p h
  | call {calls : List PortCall} {notices : List Notice} {p₁ : P} {h₁ : H}
      (run : PortRun kind goesOn p h calls notices p₁ h₁) (h₂ : H) (hon : goesOn h₁ h₂)
      (ask : PortAsk) :
    PortRun kind goesOn p h (calls ++ [(ask.put kind p₁ h₂).answer])
      (notices ++ (ask.put kind p₁ h₂).notices) (ask.put kind p₁ h₂).port (ask.put kind p₁ h₂).host

end Proactor
