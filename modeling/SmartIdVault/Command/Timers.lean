import Mathlib.Data.List.AList
import SmartIdVault.Command.RttEstimator
import SmartIdVault.Lib.Json
import SmartIdVault.Lib.Machine
import SmartIdVault.Lib.Tasks
import SmartIdVault.Pairing.Channel

/-! The command client of `lib/channel/commandClient.ts` with its clock and its timers, from
`sendCommandWithRetry` and the ticks of the heartbeat on.  A timer fires when it is due or later.
What `getNextSequence` returns comes with the events. -/

namespace SmartIdVault.Command

open Pairing (maxRetries maxMissedPings heartbeatIntervalMs)
open Utf16 (ofString)

structure ControlResponse where
  version : Decimal
  sequence : Decimal
  status : Utf16
  -- all of the message, with `error` among its fields
  body : Json

/-- `decodeMessage`, from what `JSON.parse` returns, or `none` where it throws. -/
def decodeMessage (parsed : Option Json) : Option ControlResponse :=
  parsed.bind fun body =>
    match body.field (ofString "version"), body.field (ofString "sequence"),
      body.field (ofString "status") with
    | some (.num version), some (.num sequence), some (.str status) =>
      some { version, sequence, status, body }
    | _, _, _ => none

/-- How the promise of a command is settled; it is rejected with an `Error` made of a value. -/
inductive Outcome
  | resolved (response : ControlResponse)
  | rejected (error : Json)

namespace ControlResponse

def isPong (r : ControlResponse) : Bool := r.status = ofString "pong"

/-- `response.error ?? 'Command failed'`. -/
def error (r : ControlResponse) : Json :=
  match r.body.field (ofString "error") with
  | none | some .null => .str (ofString "Command failed")
  | some error => error

def outcome (r : ControlResponse) : Outcome :=
  if r.status = ofString "error" then .rejected r.error else .resolved r

end ControlResponse

def retriesFailed (sequence : Decimal) : Outcome :=
  .rejected (.str (ofString "Command " ++ Utf16.ofChars sequence.text ++
    ofString s!" failed after {maxRetries} retries"))

/-- A command of `sendCommandWithRetry`, whose abort controller has been aborted or not and clears
the timers it listens for. -/
structure PendingCommand where
  sequence : Decimal
  encoded : Utf16
  attempts : Nat := 0
  sentAt : ℚ
  aborted : Bool := false
  listeners : List Nat := []
  deriving DecidableEq

/-- What has come first for a ping, a pong with its number or the end of its timer. -/
inductive Fate
  | outstanding
  | answered
  | expired (time : ℚ)
  deriving DecidableEq

/-- A ping of `sendHeartbeatPing`, whose abort controller has been aborted or not.  `sent` is the
time at which its `sendData` has settled, with the RTO of that time. -/
structure HeartbeatPing where
  sequence : Decimal
  aborted : Bool := false
  sent : Option (ℚ × ℚ) := none
  fate : Fate := .outstanding
  deriving DecidableEq

/-- A pong answers an outstanding ping with its number. -/
def HeartbeatPing.receive (p : HeartbeatPing) (r : ControlResponse) : HeartbeatPing :=
  if r.isPong ∧ p.sequence = r.sequence ∧ p.fate = .outstanding then { p with fate := .answered }
  else p

/-- Whose timer or abort controller it is. -/
inductive Owner
  | command (i : Nat)
  | ping (i : Nat)
  deriving DecidableEq, Repr

structure Timer where
  owner : Owner
  due : ℚ
  armed : Bool
  deriving DecidableEq

/-- What has happened to the commands. -/
inductive LogEntry
  | started (i : Nat)
  | transmitted (i : Nat)
  | received (r : ControlResponse)
  | timedOut (i : Nat)
  | settled (i : Nat) (outcome : Outcome)

/-- The client, with all its commands, heartbeat pings and timers.  `heartbeatTimer` is the time of
the next tick, `numbering` the number of pings that await `getNextSequence`, and `deaths` are the
pings at whose timeouts `onTransportDead` was called. -/
structure TimedClient where
  now : ℚ
  rttEstimator : RttEstimator := {}
  pending : AList (fun _ : Decimal => Nat) := ∅
  pendingTimeouts : AList (fun _ : Decimal => Owner) := ∅
  heartbeatTimer : Option ℚ := none
  lastCommandTime : ℚ := 0
  pendingPingSeq : Option Decimal := none
  missedPings : Nat := 0
  commands : List PendingCommand := []
  pings : List HeartbeatPing := []
  numbering : Nat := 0
  timers : List Timer := []
  log : List LogEntry := []
  deaths : List Nat := []

inductive Action
  -- the end of `sendCommand`
  | sendCommand (sequence : Decimal) (encoded : Utf16) (isPing : Bool)
  -- a tick of the heartbeat
  | heartbeat
  -- a ping gets its number, or fails to
  | number (sequence : Decimal)
  | numberFails
  -- `sendData` of ping `i` settles
  | sendSettles (i : Nat)
  | response (parsed : Option Json)
  | timer (j : Nat)

structure TimedEvent where
  time : ℚ
  action : Action

namespace TimedClient

/-- `setTimeout`. -/
def arm (s : TimedClient) (owner : Owner) (delay : ℚ) : TimedClient :=
  { s with timers := s.timers ++ [⟨owner, s.now + delay, true⟩] }

/-- The transmission in `attemptSend`, with its timer and the listener that clears it. -/
def transmit (s : TimedClient) (i : Nat) (c : PendingCommand) : TimedClient :=
  let s : TimedClient := { s with
    commands := s.commands.set i { c with
      attempts := c.attempts + 1
      sentAt := s.now
      listeners := c.listeners ++ [s.timers.length] }
    log := s.log ++ [.transmitted i] }
  s.arm (.command i) s.rttEstimator.getRto

def attemptSend (s : TimedClient) (i : Nat) (c : PendingCommand) : TimedClient :=
  if c.aborted then s
  else if maxRetries ≤ c.attempts then
    { s with
      pendingTimeouts := s.pendingTimeouts.erase c.sequence
      pending := s.pending.erase c.sequence
      log := s.log ++ [.settled i (retriesFailed c.sequence)] }
  else s.transmit i c

def sendCommandWithRetry (s : TimedClient) (sequence : Decimal) (encoded : Utf16) : TimedClient :=
  let i := s.commands.length
  let c : PendingCommand := { sequence, encoded, sentAt := s.now }
  let s : TimedClient := { s with
    commands := s.commands ++ [c]
    pending := s.pending.insert sequence i
    pendingTimeouts := s.pendingTimeouts.insert sequence (.command i)
    log := s.log ++ [.started i] }
  s.attemptSend i c

/-- The end of `sendCommand`, with `startHeartbeat` for a command that is no ping. -/
def sendCommand (s : TimedClient) (sequence : Decimal) (encoded : Utf16) (isPing : Bool) :
    TimedClient :=
  let s : TimedClient := { s with
    lastCommandTime := s.now
    heartbeatTimer := if isPing then s.heartbeatTimer else some (s.now + heartbeatIntervalMs) }
  s.sendCommandWithRetry sequence encoded

/-- `abort` of an abort controller; that of a ping has no listeners. -/
def abort (s : TimedClient) : Owner → TimedClient
  | .command i =>
    let listeners := s.commands[i]?.elim [] (·.listeners)
    { s with
      commands := s.commands.modify i fun c => { c with aborted := true }
      timers := s.timers.mapIdx fun j t => if j ∈ listeners then { t with armed := false } else t }
  | .ping i => { s with pings := s.pings.modify i fun p => { p with aborted := true } }

/-- The controller under a number, if there is one, is aborted and taken out. -/
def abortUnder (s : TimedClient) (sequence : Decimal) : TimedClient :=
  match s.pendingTimeouts.lookup sequence with
  | none => s
  | some owner =>
    { s.abort owner with pendingTimeouts := s.pendingTimeouts.erase sequence }

def notePong (s : TimedClient) (r : ControlResponse) : TimedClient :=
  { s with pings := s.pings.map (·.receive r) }

/-- The part of `handleIncomingResponse` for a pong. -/
def pong (s : TimedClient) (r : ControlResponse) : TimedClient :=
  if r.isPong ∧ s.pendingPingSeq = some r.sequence then
    let s : TimedClient := { s with pendingPingSeq := none, missedPings := 0 }
    s.abortUnder r.sequence
  else s

/-- The sample that the response to command `i` gives. -/
def measure (s : TimedClient) (i : Nat) : TimedClient :=
  match s.commands[i]? with
  | none => s
  | some c =>
    let rttSample := s.now - c.sentAt
    if 0 < rttSample ∧ rttSample < 30000 then
      { s with rttEstimator := s.rttEstimator.updateRtt (.finite rttSample) }
    else s

/-- The part of `handleIncomingResponse` for a command. -/
def answer (s : TimedClient) (r : ControlResponse) : TimedClient :=
  let s : TimedClient := { s with log := s.log ++ [.received r] }
  match s.pending.lookup r.sequence with
  | none => s
  | some i =>
    let s := (s.measure i).abortUnder r.sequence
    { s with
      pending := s.pending.erase r.sequence
      log := s.log ++ [.settled i r.outcome] }

def handleIncomingResponse (s : TimedClient) (parsed : Option Json) : TimedClient :=
  match decodeMessage parsed with
  | none => s
  | some r => ((s.notePong r).pong r).answer r

/-- A tick, up to the `await` of `getNextSequence`. -/
def heartbeat (s : TimedClient) : Option TimedClient :=
  s.heartbeatTimer.bind fun due =>
    if due ≤ s.now then
      let s : TimedClient := { s with heartbeatTimer := some (due + heartbeatIntervalMs) }
      if s.now - s.lastCommandTime < (heartbeatIntervalMs : ℚ) then some s
      else some { s with numbering := s.numbering + 1 }
    else none

/-- `sendHeartbeatPing` from its number to the `await` of `sendData`. -/
def number (s : TimedClient) (sequence : Decimal) : Option TimedClient :=
  if s.numbering = 0 then none
  else some { s with
    numbering := s.numbering - 1
    pendingPingSeq := some sequence
    pings := s.pings ++ [{ sequence }] }

/-- The rest of `sendHeartbeatPing`. -/
def sendSettles (s : TimedClient) (i : Nat) : Option TimedClient :=
  s.pings[i]?.bind fun p =>
    if p.sent = none then
      let rto := s.rttEstimator.getRto
      let s : TimedClient := { s with
        pendingTimeouts := s.pendingTimeouts.insert p.sequence (.ping i)
        pings := s.pings.set i { p with sent := some (s.now, rto) } }
      some (s.arm (.ping i) (rto * maxRetries))
    else none

/-- The retry timer of command `i`. -/
def retryTimer (s : TimedClient) (i : Nat) : TimedClient :=
  match s.commands[i]? with
  | none => s
  | some c =>
    let s : TimedClient := { s with log := s.log ++ [.timedOut i] }
    if c.aborted then s
    else if (s.pending.lookup c.sequence).isSome then s.attemptSend i c
    else s

/-- The timer of a ping has ended. -/
def noteExpiry (s : TimedClient) (i : Nat) (p : HeartbeatPing) : TimedClient :=
  { s with
    pings := s.pings.set i
      (if p.fate = .outstanding then { p with fate := .expired s.now } else p) }

/-- The timer of ping `i`. -/
def pingTimer (s : TimedClient) (i : Nat) : TimedClient :=
  match s.pings[i]? with
  | none => s
  | some p =>
    let s := s.noteExpiry i p
    if p.aborted then s
    else if s.pendingPingSeq = some p.sequence then
      let missedPings := s.missedPings + 1
      let s : TimedClient := { s with
        pendingPingSeq := none
        pendingTimeouts := s.pendingTimeouts.erase p.sequence
        missedPings }
      if maxMissedPings ≤ missedPings then
        { s with heartbeatTimer := none, deaths := s.deaths ++ [i] }
      else s
    else s

/-- Timer `j` fires. -/
def timer (s : TimedClient) (j : Nat) : Option TimedClient :=
  s.timers[j]?.bind fun t =>
    if t.armed ∧ t.due ≤ s.now then
      let s : TimedClient := { s with timers := s.timers.set j { t with armed := false } }
      match t.owner with
      | .command i => some (s.retryTimer i)
      | .ping i => some (s.pingTimer i)
    else none

def act (s : TimedClient) : Action → Option TimedClient
  | .sendCommand sequence encoded isPing => some (s.sendCommand sequence encoded isPing)
  | .heartbeat => s.heartbeat
  | .number sequence => s.number sequence
  | .numberFails => if s.numbering = 0 then none else some { s with numbering := s.numbering - 1 }
  | .sendSettles i => s.sendSettles i
  | .response parsed => some (s.handleIncomingResponse parsed)
  | .timer j => s.timer j

def step (s : TimedClient) (e : TimedEvent) : Option TimedClient :=
  if s.now ≤ e.time then act { s with now := e.time } e.action else none

abbrev Run (s : TimedClient) (es : List TimedEvent) (t : TimedClient) : Prop :=
  Machine.Run step s es t

/-- The sequence numbers of the commands and the heartbeat pings. -/
def numbers (s : TimedClient) : List Decimal :=
  s.commands.map (·.sequence) ++ s.pings.map (·.sequence)

/-- A command or ping has a number of its own. -/
def Fresh (s : TimedClient) (e : TimedEvent) : Prop :=
  match e.action with
  | .sendCommand sequence _ _ | .number sequence => sequence ∉ s.numbers
  | _ => True

instance (s : TimedClient) : (e : TimedEvent) → Decidable (s.Fresh e)
  | ⟨_, .sendCommand sequence _ _⟩ | ⟨_, .number sequence⟩ =>
    inferInstanceAs (Decidable (sequence ∉ s.numbers))
  | ⟨_, .heartbeat⟩ | ⟨_, .numberFails⟩ | ⟨_, .sendSettles _⟩ | ⟨_, .response _⟩
  | ⟨_, .timer _⟩ => instDecidableTrue

end TimedClient

end SmartIdVault.Command
