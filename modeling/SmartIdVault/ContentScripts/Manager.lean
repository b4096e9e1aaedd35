import SmartIdVault.Lib.Json
import SmartIdVault.Lib.Machine
import SmartIdVault.Lib.Sha256
import SmartIdVault.Lib.Tasks

/-! The manager of the content scripts: the list of the approved domains in sync storage, the
scripts registered with the browser, and the calls that change both.  A call reads the list, has its
script registered or unregistered, and writes a list made from what it has read; the lock keeps only
two registrations of one domain apart. -/

namespace SmartIdVault.ContentScripts

structure ApprovedDomain where
  domain : Utf16
  registeredAt : Nat
  scriptId : Utf16
  deriving DecidableEq

/-- The fields of a registration that are not the same in all of them. -/
structure ContentScript where
  id : Utf16
  pattern : Utf16
  js : Utf16
  deriving DecidableEq

def hexByte (b : UInt8) : Utf16 := [Json.hexUnit (b / 16).toUInt16, Json.hexUnit (b % 16).toUInt16]

def sha256Hex (input : Utf16) : Utf16 := (Sha256.sha256 (Utf8.textEncode input)).flatMap hexByte

def scriptIdForDomain (domain : Utf16) (hash : Option Utf16) : Utf16 :=
  Utf16.ofString "credential-fill-" ++ hash.getD domain

/-- The id of the script of a domain, as `registerForDomain` computes it. -/
def scriptId (domain : Utf16) : Utf16 := scriptIdForDomain domain (some (sha256Hex domain))

def contentScript (domain : Utf16) (jsFile : Option Utf16) : ContentScript where
  id := scriptId domain
  pattern := Utf16.ofString "*://*." ++ domain ++ Utf16.ofString "/*"
  js := jsFile.getD (Utf16.ofString "content-scripts/content.js")

/-- What comes of a call: `registerForDomain` returns the id of the script, or rejects with the
error of the browser. -/
inductive Result where
  | registered (scriptId : Utf16)
  | rejected
  | unregistered
  deriving DecidableEq

/-- Where a call stands.  `registerForDomain`: at its hash, at the lock of call `holder`, at its
read, at the registration, at its write, and with its promise settled, before the lock is let go.
`unregisterForDomain`: at its read, at the unregistration, and at its write.  From the read on a
call has the list that it has read. -/
inductive Stage where
  | hashing (jsFile : Option Utf16)
  | waiting (holder : Nat)
  | readingToRegister (jsFile : Option Utf16)
  | registering (jsFile : Option Utf16) (existing : List ApprovedDomain)
  | adding (existing : List ApprovedDomain) (registeredAt : Nat)
  | settled (result : Result)
  | readingToUnregister
  | unregistering (existing : List ApprovedDomain) (entry : ApprovedDomain)
  | removing (existing : List ApprovedDomain) (entry : ApprovedDomain)
  | finished (result : Result)
  deriving DecidableEq

structure Call where
  domain : Utf16
  stage : Stage
  deriving DecidableEq

/-- What `chrome.scripting.registerContentScripts` does: it fails with a message that says 'already
registered', or for another reason. -/
inductive Registration where
  | succeeds
  | alreadyRegistered
  | fails
  deriving DecidableEq

/-- `stored` is 'approvedDomains'; `scripts` are the registered ones with the manager's prefix;
`approved` has the domains whose last completed effective call is a registration. -/
structure Manager where
  stored : Option (List ApprovedDomain) := none
  scripts : List ContentScript := []
  registerLock : List (Utf16 × Nat) := []
  calls : List Call := []
  approved : List Utf16 := []
  deriving DecidableEq

/-- The calls, and what call `i` awaits: its hash, the lock of another call, the read, the browser,
the write; and the release of its own lock. -/
inductive Event where
  | registerForDomain (domain : Utf16) (jsFile : Option Utf16)
  | unregisterForDomain (domain : Utf16)
  | hashed (i : Nat)
  | released (i : Nat)
  | got (i : Nat)
  | registered (i : Nat) (outcome : Registration) (now : Nat)
  | unregistered (i : Nat) (ok : Bool)
  | set (i : Nat)
  | cleanup (i : Nat)
  deriving DecidableEq

def domains (list : List ApprovedDomain) : List Utf16 := list.map (·.domain)

def scriptIds (list : List ApprovedDomain) : List Utf16 := list.map (·.scriptId)

namespace Manager

def getApprovedDomains (s : Manager) : List ApprovedDomain := s.stored.getD []

def registeredIds (s : Manager) : List Utf16 := s.scripts.map (·.id)

def start (s : Manager) (domain : Utf16) (stage : Stage) : Manager :=
  { s with calls := s.calls ++ [{ domain, stage }] }

def put (s : Manager) (i : Nat) (c : Call) (stage : Stage) : Manager :=
  { s with calls := s.calls.set i { c with stage } }

/-- `registerForDomain` after its hash: behind the lock of another call for the domain, or at the
read with a lock of its own. -/
def hashed (s : Manager) (i : Nat) (c : Call) : Option Manager :=
  match c.stage with
  | .hashing jsFile =>
    some (match s.registerLock.lookup c.domain with
      | some holder => s.put i c (.waiting holder)
      | none => { s.put i c (.readingToRegister jsFile) with
          registerLock := (c.domain, i) :: s.registerLock })
  | _ => none

/-- The lock's promise is fulfilled when the registration has failed, too. -/
def released (s : Manager) (i : Nat) (c : Call) : Option Manager :=
  match c.stage with
  | .waiting holder =>
    match s.calls[holder]? with
    | some ⟨_, .finished _⟩ => some (s.put i c (.finished (.registered (scriptId c.domain))))
    | _ => none
  | _ => none

def got (s : Manager) (i : Nat) (c : Call) : Option Manager :=
  let existing := s.getApprovedDomains
  match c.stage with
  | .readingToRegister jsFile =>
    some (if existing.any (·.domain == c.domain)
      then s.put i c (.settled (.registered (scriptId c.domain)))
      else s.put i c (.registering jsFile existing))
  | .readingToUnregister =>
    some (match existing.find? (·.domain == c.domain) with
      | none => s.put i c (.finished .unregistered)
      | some entry => s.put i c (.unregistering existing entry))
  | _ => none

/-- The browser registers no id twice, and reports one as registered only if it is. -/
def registered (s : Manager) (i : Nat) (c : Call) (outcome : Registration) (now : Nat) :
    Option Manager :=
  match c.stage with
  | .registering jsFile existing =>
    match outcome with
    | .succeeds =>
      if s.registeredIds.contains (scriptId c.domain) then none
      else some { s.put i c (.adding existing now) with
        scripts := s.scripts ++ [contentScript c.domain jsFile] }
    | .alreadyRegistered =>
      if s.registeredIds.contains (scriptId c.domain) then some (s.put i c (.adding existing now))
      else none
    | .fails => some (s.put i c (.settled .rejected))
  | _ => none

/-- A failure to unregister the script is logged, and the call goes on. -/
def unregistered (s : Manager) (i : Nat) (c : Call) (ok : Bool) : Option Manager :=
  match c.stage with
  | .unregistering existing entry =>
    some (if ok
      then { s.put i c (.removing existing entry) with
        scripts := s.scripts.filter (·.id ≠ entry.scriptId) }
      else s.put i c (.removing existing entry))
  | _ => none

/-- What the call writes. -/
def added (existing : List ApprovedDomain) (domain : Utf16) (registeredAt : Nat) :
    List ApprovedDomain :=
  existing ++ [{ domain, registeredAt, scriptId := scriptId domain }]

def removed (existing : List ApprovedDomain) (domain : Utf16) : List ApprovedDomain :=
  existing.filter (·.domain ≠ domain)

def set (s : Manager) (i : Nat) (c : Call) : Option Manager :=
  match c.stage with
  | .adding existing registeredAt =>
    some { s.put i c (.settled (.registered (scriptId c.domain))) with
      stored := some (added existing c.domain registeredAt)
      approved := c.domain :: s.approved }
  | .removing existing _ =>
    some { s.put i c (.finished .unregistered) with
      stored := some (removed existing c.domain)
      approved := s.approved.filter (· ≠ c.domain) }
  | _ => none

def cleanup (s : Manager) (i : Nat) (c : Call) : Option Manager :=
  match c.stage with
  | .settled result =>
    some { s.put i c (.finished result) with
      registerLock := s.registerLock.filter (·.1 ≠ c.domain) }
  | _ => none

def step (s : Manager) : Event → Option Manager
  | .registerForDomain domain jsFile => some (s.start domain (.hashing jsFile))
  | .unregisterForDomain domain => some (s.start domain .readingToUnregister)
  | .hashed i => s.calls[i]?.bind fun c => s.hashed i c
  | .released i => s.calls[i]?.bind fun c => s.released i c
  | .got i => s.calls[i]?.bind fun c => s.got i c
  | .registered i outcome now => s.calls[i]?.bind fun c => s.registered i c outcome now
  | .unregistered i ok => s.calls[i]?.bind fun c => s.unregistered i c ok
  | .set i => s.calls[i]?.bind fun c => s.set i c
  | .cleanup i => s.calls[i]?.bind fun c => s.cleanup i c

end Manager

end SmartIdVault.ContentScripts
