import SmartIdVault.Lib.Machine
import SmartIdVault.Pairing.Channel
import Mathlib.Data.List.AList

/-! The command client of `lib/channel/commandClient.ts` as its calls interleave: every execution of
`sendCommand`, `sendPing` and `sendHeartbeatPing` is at one of its awaits, and an event lets one of
them go on, fires a timer or brings a response.  Payloads, signatures and round-trip times are left
out: they decide neither what is sent next nor who is answered. -/

namespace SmartIdVault.Command

open Pairing (CommandType ResponseStatus maxRetries maxMissedPings heartbeatIntervalMs)

def rotationThreshold : Nat := 1000

/-- Where a call stands.  It awaits the session guard; the read and the write of its sequence
number, the latter with the number it writes; the signature; its turn at the message count with its
read, and the write of the count; the rotation of the key; or the response, after a number of
attempts.  A heartbeat awaits the transport and then its timer.  The promise of an orphaned call
never settles. -/
inductive Pc
  | guarding
  | reading
  | writing (next : Nat)
  | signing
  | counting
  | countWriting (next : Nat)
  | rotating
  | waiting (attempts : Nat)
  | sendingPing
  | pinged
  | resolved
  | rejected
  | orphaned
  deriving DecidableEq, Repr

/-- An execution of `sendCommand` with its command, or of `sendHeartbeatPing` without one.
`aborted` is the signal of its abort controller. -/
structure Call where
  command : Option CommandType
  pc : Pc
  sequence : Option Nat := none
  aborted : Bool := false
  deriving DecidableEq, Repr

/-- The client, with the two counters in session storage.  The entries of `pending` and
`pendingTimeouts` name calls; `countChain` are the calls whose link of `messageCountLock` has not
settled, and a link that rejects breaks the chain for good. -/
structure Client where
  storedSequence : Nat := 0
  storedCount : Nat := 0
  calls : List Call := []
  pending : AList (fun _ : Nat => Nat) := ∅
  pendingTimeouts : AList (fun _ : Nat => Nat) := ∅
  countChain : List Nat := []
  countChainBroken : Bool := false
  pendingPingSeq : Option Nat := none
  missedPings : Nat := 0
  lastCommandTime : Nat := 0
  heartbeatTimer : Bool := false
  transportDead : Nat := 0

/-- A call is made; what call `i` awaits resolves or, for the guard, storage and the rotation,
rejects; a timer of call `i` fires; a response arrives. -/
inductive Event
  | sendCommand (command : CommandType)
  | sendPing
  | heartbeat (now : Nat)
  | settle (i now : Nat)
  | fail (i : Nat)
  | retry (i : Nat)
  | pingTimeout (i : Nat)
  | response (sequence : Nat) (status : ResponseStatus)
  deriving DecidableEq, Repr

namespace Client

def start (s : Client) (c : Call) : Client := { s with calls := s.calls ++ [c] }

def put (s : Client) (i : Nat) (c : Call) : Client := { s with calls := s.calls.set i c }

def isPing (s : Client) (i : Nat) : Bool := s.calls[i]?.any (·.command = some .ping)

/-- `sendPing`, which rejects while the entry of a ping is in the map. -/
def sendPing (s : Client) : Client :=
  if s.pending.entries.any fun entry => s.isPing entry.2 then
    s.start { command := some .ping, pc := .rejected }
  else s.start { command := some .ping, pc := .guarding }

/-- A tick of the heartbeat timer, up to the first `await` of `sendHeartbeatPing`. -/
def heartbeat (s : Client) (now : Nat) : Client :=
  if now - s.lastCommandTime < heartbeatIntervalMs then s
  else s.start { command := none, pc := .reading }

/-- The end of `sendCommand`: `sendCommandWithRetry`, with its first attempt. -/
def dispatch (s : Client) (i now : Nat) (c : Call) (sequence : Nat) : Client :=
  { s.put i { c with pc := .waiting 1 } with
    lastCommandTime := now
    heartbeatTimer := s.heartbeatTimer || c.command ≠ some .ping
    pending := s.pending.insert sequence i
    pendingTimeouts := s.pendingTimeouts.insert sequence i }

/-- The write of the sequence number has been made. -/
def assign (s : Client) (i : Nat) (c : Call) (next : Nat) : Client :=
  match c.command with
  | some _ => { s.put i { c with pc := .signing, sequence := some next } with
      storedSequence := next }
  | none => { s.put i { c with pc := .sendingPing, sequence := some next } with
      storedSequence := next
      pendingPingSeq := some next }

/-- What call `i` awaits resolves.  A link of the chain begins when those before it have settled. -/
def settle (s : Client) (i now : Nat) (c : Call) : Option Client :=
  match c.pc with
  | .guarding => some (s.put i { c with pc := .reading })
  | .reading => some (s.put i { c with pc := .writing (s.storedSequence + 1) })
  | .writing next => some (s.assign i c next)
  | .signing =>
    if s.countChainBroken then some (s.put i { c with pc := .rejected })
    else some { s.put i { c with pc := .counting } with countChain := s.countChain ++ [i] }
  | .counting =>
    if s.countChain.head? = some i then
      some (s.put i { c with pc := .countWriting (s.storedCount + 1) })
    else none
  | .countWriting next =>
    if s.countChain.head? = some i then
      let s := { s with storedCount := next, countChain := s.countChain.tail }
      if next % rotationThreshold = 0 then some (s.put i { c with pc := .rotating })
      else c.sequence.map (s.dispatch i now c)
    else none
  | .rotating => c.sequence.map (s.dispatch i now c)
  | .sendingPing => c.sequence.map fun sequence =>
      { s.put i { c with pc := .pinged } with
        pendingTimeouts := s.pendingTimeouts.insert sequence i }
  | _ => none

/-- The rejection of a link goes down the whole chain of the message count. -/
def breakChain (s : Client) : Client :=
  { s with
    calls := s.calls.mapIdx fun j c => if j ∈ s.countChain then { c with pc := .rejected } else c
    countChain := []
    countChainBroken := true }

/-- What call `i` awaits rejects. -/
def fail (s : Client) (i : Nat) (c : Call) : Option Client :=
  match c.pc with
  | .guarding | .reading | .writing _ | .rotating => some (s.put i { c with pc := .rejected })
  | .counting | .countWriting _ =>
    if s.countChain.head? = some i then some s.breakChain
    else none
  | _ => none

/-- The retry timer of call `i` fires, after a number of attempts. -/
def retry (s : Client) (i : Nat) (c : Call) : Option Client :=
  match c.pc, c.sequence with
  | .waiting attempts, some sequence =>
    if c.aborted then none
    else if (s.pending.lookup sequence).isSome then
      if maxRetries ≤ attempts then
        some { s.put i { c with pc := .rejected } with
          pendingTimeouts := s.pendingTimeouts.erase sequence
          pending := s.pending.erase sequence }
      else some (s.put i { c with pc := .waiting (attempts + 1) })
    else some (s.put i { c with pc := .orphaned })
  | _, _ => none

/-- The timer of the heartbeat ping of call `i` fires. -/
def pingTimeout (s : Client) (i : Nat) (c : Call) : Option Client :=
  match c.pc, c.sequence with
  | .pinged, some sequence =>
    let s := s.put i { c with pc := .resolved }
    if c.aborted then some s
    else if s.pendingPingSeq = some sequence then
      let missed := s.missedPings + 1
      some { s with
        pendingPingSeq := none
        pendingTimeouts := s.pendingTimeouts.erase sequence
        missedPings := missed
        heartbeatTimer := s.heartbeatTimer && missed < maxMissedPings
        transportDead := s.transportDead + if maxMissedPings ≤ missed then 1 else 0 }
    else some s
  | _, _ => none

/-- The controller under a sequence number, if there is one, is aborted and taken out. -/
def abort (s : Client) (sequence : Nat) : Client :=
  match s.pendingTimeouts.lookup sequence with
  | none => s
  | some j => { s with
      calls := s.calls.modify j fun c => { c with aborted := true }
      pendingTimeouts := s.pendingTimeouts.erase sequence }

/-- The part of `handleIncomingResponse` for a pong. -/
def pong (s : Client) (sequence : Nat) (status : ResponseStatus) : Client :=
  if status = .pong ∧ s.pendingPingSeq = some sequence then
    { s with pendingPingSeq := none, missedPings := 0 }.abort sequence
  else s

/-- The call that a response settles. -/
def answer (s : Client) (i : Nat) (status : ResponseStatus) : Client :=
  { s with calls := s.calls.modify i fun c =>
      { c with pc := if status = .error then .rejected else .resolved } }

def handleIncomingResponse (s : Client) (sequence : Nat) (status : ResponseStatus) : Client :=
  let s := s.pong sequence status
  match s.pending.lookup sequence with
  | none => s
  | some i =>
    let s := s.abort sequence
    { s with pending := s.pending.erase sequence }.answer i status

def step (s : Client) : Event → Option Client
  | .sendCommand command => some (s.start { command := some command, pc := .guarding })
  | .sendPing => some s.sendPing
  | .heartbeat now => if s.heartbeatTimer then some (s.heartbeat now) else none
  | .settle i now => s.calls[i]?.bind (s.settle i now)
  | .fail i => s.calls[i]?.bind (s.fail i)
  | .retry i => s.calls[i]?.bind (s.retry i)
  | .pingTimeout i => s.calls[i]?.bind (s.pingTimeout i)
  | .response sequence status => some (s.handleIncomingResponse sequence status)

abbrev Run (s : Client) (es : List Event) (t : Client) : Prop := Machine.Run step s es t

end Client

end SmartIdVault.Command
