import Mathlib.Data.List.DropRight
import SmartIdVault.ContentScripts.Manager
import SmartIdVault.Lib.Properties

/-! The audit log of `lib/attestation/audit.ts`: a list in session storage that each call reads, adds
its entry to and writes, cut to its last hundred entries.  Nothing keeps two calls apart.  Storage
accesses succeed here. -/

namespace SmartIdVault.Attestation.Audit

open ContentScripts (sha256Hex)
open Utf16 (ofString)

inductive AuditEventType where
  | attestationVerified
  | attestationFailed
  | controlCodeMatch
  | controlCodeMismatch
  | domOnlyFallback
  | manifestRefreshed
  | manifestRejected
  deriving DecidableEq, Repr

/-- What is asked of the values in `details`: if one counts as true, `String(value)`, and the value
that is a string. -/
structure Values (ν : Type) where
  truthy : ν → Bool
  string : ν → Utf16
  ofText : Utf16 → ν

abbrev Details (ν : Type) := List (Utf16 × ν)

variable {ν : Type}

structure AuditEntry (ν : Type) where
  eventType : AuditEventType
  timestamp : Nat
  details : Details ν
  deriving DecidableEq

def maxAuditLog : Nat := 100

/-- The value of a property, if it counts as true. -/
def present (values : Values ν) (details : Details ν) (key : Utf16) : Option ν :=
  (details.lookup key).filter values.truthy

/-- The digest of `details.code` or `details.domCode`. -/
def hashOf (values : Values ν) (details : Details ν) (key : Utf16) : Option Utf16 :=
  (present values details key).map fun v => sha256Hex (values.string v)

def sanitize (values : Values ν) (details : Details ν) : Details ν :=
  let kept := details.filter fun f => f.1 ≠ ofString "code" ∧ f.1 ≠ ofString "domCode"
  let copied : Details ν := kept.foldl (fun sanitized f => Properties.assign sanitized f.1 f.2) []
  let withCode := match hashOf values details (ofString "code") with
    | some codeHash => Properties.assign copied (ofString "codeHash") (values.ofText codeHash)
    | none => copied
  match hashOf values details (ofString "domCode") with
  | some domCodeHash =>
    Properties.assign withCode (ofString "domCodeHash") (values.ofText domCodeHash)
  | none => withCode

/-- Where a call stands: at a digest, at its read, at its write with the log that it has read and the
entry that it has added, or at its end. -/
inductive Stage (ν : Type) where
  | hashingCode
  | hashingDomCode
  | reading
  | writing (auditLog : List (AuditEntry ν)) (entry : AuditEntry ν)
  | finished (entry : AuditEntry ν)
  deriving DecidableEq

def Stage.entry? : Stage ν → Option (AuditEntry ν)
  | .finished entry => some entry
  | _ => none

/-- A call; `after` has the calls that were at their ends when it was made. -/
structure Call (ν : Type) where
  eventType : AuditEventType
  details : Details ν
  after : List Nat
  stage : Stage ν
  deriving DecidableEq

/-- `stored` is 'attestation:auditLog'; `order` has the calls in the order in which they have
written. -/
structure Log (ν : Type) where
  stored : Option (List (AuditEntry ν)) := none
  calls : List (Call ν) := []
  order : List Nat := []
  deriving DecidableEq

/-- A call, and what call `i` awaits: a digest, its read, its write. -/
inductive Event (ν : Type) where
  | logAuditEvent (eventType : AuditEventType) (details : Details ν)
  | digested (i : Nat)
  | got (i now : Nat)
  | set (i : Nat)
  deriving DecidableEq

namespace Log

def getAuditLog (s : Log ν) : List (AuditEntry ν) := s.stored.getD []

/-- The first await of a call that has no digest of its code to wait for. -/
def afterCode (values : Values ν) (details : Details ν) : Stage ν :=
  if (present values details (ofString "domCode")).isSome then .hashingDomCode else .reading

def put (s : Log ν) (i : Nat) (c : Call ν) (stage : Stage ν) : Log ν :=
  { s with calls := s.calls.set i { c with stage } }

/-- The calls that are at their ends. -/
def ended (s : Log ν) : List Nat :=
  (List.range s.calls.length).filter fun i =>
    (s.calls[i]?.bind fun c => c.stage.entry?).isSome

def logAuditEvent (values : Values ν) (s : Log ν) (eventType : AuditEventType)
    (details : Details ν) : Log ν :=
  let stage := if (present values details (ofString "code")).isSome then .hashingCode
    else afterCode values details
  { s with calls := s.calls ++ [{ eventType, details, after := s.ended, stage }] }

def digested (values : Values ν) (s : Log ν) (i : Nat) (c : Call ν) : Option (Log ν) :=
  match c.stage with
  | .hashingCode => some (s.put i c (afterCode values c.details))
  | .hashingDomCode => some (s.put i c .reading)
  | _ => none

def got (values : Values ν) (s : Log ν) (i : Nat) (c : Call ν) (now : Nat) : Option (Log ν) :=
  match c.stage with
  | .reading => some (s.put i c (.writing s.getAuditLog
      { eventType := c.eventType, timestamp := now, details := sanitize values c.details }))
  | _ => none

def set (s : Log ν) (i : Nat) (c : Call ν) : Option (Log ν) :=
  match c.stage with
  | .writing auditLog entry => some { s.put i c (.finished entry) with
    stored := some ((auditLog ++ [entry]).rtake maxAuditLog)
    order := s.order ++ [i] }
  | _ => none

def step (values : Values ν) (s : Log ν) : Event ν → Option (Log ν)
  | .logAuditEvent eventType details => some (s.logAuditEvent values eventType details)
  | .digested i => s.calls[i]?.bind (s.digested values i)
  | .got i now => s.calls[i]?.bind fun c => s.got values i c now
  | .set i => s.calls[i]?.bind (s.set i)

abbrev Run (values : Values ν) (s : Log ν) (es : List (Event ν)) (t : Log ν) : Prop :=
  Machine.Run (step values) s es t

end Log

end SmartIdVault.Attestation.Audit
