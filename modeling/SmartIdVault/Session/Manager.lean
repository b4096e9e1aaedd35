import Mathlib.Logic.Function.Basic
import SmartIdVault.Lib.Machine
import SmartIdVault.Lib.Tasks
import SmartIdVault.Lib.Utf

/-! The MFA session of the background service worker: a copy in session storage, in PIN mode another
one in local storage, and two alarms that clear them.  A call asks the browser for one thing after
the other, and the calls interleave at these awaits. -/

namespace SmartIdVault.SessionManager

/-! ### What the browser keeps -/

def sessionTtlMs : Int := 5 * 60 * 1000

def idleTimeoutMs : Int := 2 * 60 * 1000

/-- `persistedAt` is what the copy in local storage has besides. -/
structure MfaSession where
  sessionToken : Utf16
  mfaVerifiedAt : Int
  expiry : Int
  deviceName : Option Utf16
  persistedAt : Option Int := none
  deriving DecidableEq

/-- Random bytes in hexadecimal, two digits a byte. -/
def generateSessionToken (bytes : Bytes) : Utf16 :=
  Utf16.ofChars (bytes.flatMap fun b => (Nat.toDigits 16 b.toNat).leftpad 2 '0')

/-- `mfa:session` is a key of session storage, `mfa:session:persisted` one of local storage. -/
inductive StorageKey where
  | session
  | persisted
  deriving DecidableEq

inductive Alarm where
  | ttl
  | idle
  deriving DecidableEq

/-- What is under the two keys, `prf:available` in session storage, when the alarms that are pending
are due, and the clock. -/
structure Browser where
  stored : StorageKey → Option MfaSession := fun _ => none
  prfAvailable : Bool := false
  due : Alarm → Option Int := fun _ => none
  now : Int

/-- What a call awaits of the browser. -/
inductive Request where
  | set (key : StorageKey) (session : MfaSession)
  | remove (key : StorageKey)
  | get
  | alarmsCreate (alarm : Alarm) (delayInMinutes : Int)
  | alarmsClear (alarm : Alarm)
  deriving DecidableEq

def Browser.serve (b : Browser) : Request → Browser
  | .set key session => { b with stored := Function.update b.stored key (some session) }
  | .remove key => { b with stored := Function.update b.stored key none }
  | .get => b
  | .alarmsCreate alarm delayInMinutes =>
    { b with due := Function.update b.due alarm (some (b.now + delayInMinutes * 60000)) }
  | .alarmsClear alarm => { b with due := Function.update b.due alarm none }

/-- Neither alarms nor session storage survive a restart of the browser. -/
def Browser.restarted (b : Browser) : Browser where
  stored := Function.update b.stored .session none
  now := b.now

/-- The session has not run out at `now`. -/
def MfaSession.Live (now : Int) (session : MfaSession) : Prop := now ≤ session.expiry

instance (now : Int) (session : MfaSession) : Decidable (session.Live now) :=
  inferInstanceAs (Decidable (_ ≤ _))

/-! ### The calls -/

/-- What a call settles with; `expired` is a `SessionExpiredError`. -/
inductive Outcome where
  | undefined
  | null
  | session (session : MfaSession)
  | expired
  deriving DecidableEq

/-- Who awaits `getSession`: a message handler, `verifySession`, or the listener of idle states. -/
inductive Caller where
  | handler
  | verifySession
  | onStateChanged
  deriving DecidableEq

inductive Activation where
  | sessionSet
  | isPrfAvailable (reply : Option Bool)
  | localSet (persistedAt : Int)
  | createTtl
  deriving DecidableEq

inductive Clearing where
  | sessionRemove
  | localRemove
  | localCheck
  | clearTtl
  | clearIdle
  deriving DecidableEq

inductive Resetting where
  | clearIdle
  | createIdle
  deriving DecidableEq

inductive Restoring where
  | isPrfAvailable (reply : Option Bool)
  | localGet (reply : Option (Option MfaSession))
  | sessionSet (persisted : MfaSession)
  deriving DecidableEq

/-- A call and the await at which it stands; a read has its reply once the browser has made it.
`clearSession` and `resetIdleTimeout` carry what the call that awaits them settles with. -/
inductive Call where
  | activateSession (session : MfaSession) (pc : Activation)
  | clearSession (pc : Clearing) (outcome : Outcome)
  | getSession (caller : Caller) (reply : Option (Option MfaSession))
  | resetIdleTimeout (pc : Resetting) (outcome : Outcome)
  | restorePersistedSession (pc : Restoring)
  | done (outcome : Outcome)
  deriving DecidableEq

/-- What `getSession` without a session comes to for its caller. -/
def Caller.absent : Caller → Outcome
  | .handler => .null
  | .verifySession => .expired
  | .onStateChanged => .undefined

namespace Call

def isDone : Call → Bool
  | .done _ => true
  | _ => false

/-- What the call asks the browser for, unless it goes on with a reply that it has. -/
def request : Call → Option Request
  | .activateSession session .sessionSet => some (.set .session session)
  | .activateSession _ (.isPrfAvailable none) => some .get
  | .activateSession _ (.isPrfAvailable (some _)) => none
  | .activateSession session (.localSet persistedAt) =>
    some (.set .persisted { session with persistedAt := some persistedAt })
  | .activateSession _ .createTtl => some (.alarmsCreate .ttl 5)
  | .clearSession .sessionRemove _ => some (.remove .session)
  | .clearSession .localRemove _ => some (.remove .persisted)
  | .clearSession .localCheck _ => some .get
  | .clearSession .clearTtl _ => some (.alarmsClear .ttl)
  | .clearSession .clearIdle _ => some (.alarmsClear .idle)
  | .getSession _ none => some .get
  | .getSession _ (some _) => none
  | .resetIdleTimeout .clearIdle _ => some (.alarmsClear .idle)
  | .resetIdleTimeout .createIdle _ => some (.alarmsCreate .idle (idleTimeoutMs / 60000))
  | .restorePersistedSession (.isPrfAvailable none) => some .get
  | .restorePersistedSession (.isPrfAvailable (some _)) => none
  | .restorePersistedSession (.localGet none) => some .get
  | .restorePersistedSession (.localGet (some _)) => none
  | .restorePersistedSession (.sessionSet persisted) => some (.set .session persisted)
  | .done _ => none

/-- `getSession` gives its caller a session. -/
def present (session : MfaSession) : Caller → Call
  | .handler => .done (.session session)
  | .verifySession => .resetIdleTimeout .clearIdle (.session session)
  | .onStateChanged => .resetIdleTimeout .clearIdle .undefined

/-- Where the call stands after that. -/
def next (b : Browser) : Call → Call
  | .activateSession session .sessionSet => .activateSession session (.isPrfAvailable none)
  | .activateSession session (.isPrfAvailable none) =>
    .activateSession session (.isPrfAvailable (some b.prfAvailable))
  | .activateSession session (.isPrfAvailable (some prfAvailable)) =>
    .activateSession session (if prfAvailable then .createTtl else .localSet b.now)
  | .activateSession session (.localSet _) => .activateSession session .createTtl
  | .activateSession session .createTtl => .done (.session session)
  | .clearSession .sessionRemove outcome => .clearSession .localRemove outcome
  | .clearSession .localRemove outcome => .clearSession .localCheck outcome
  -- what is left in local storage only goes to the log
  | .clearSession .localCheck outcome => .clearSession .clearTtl outcome
  | .clearSession .clearTtl outcome => .clearSession .clearIdle outcome
  | .clearSession .clearIdle outcome => .done outcome
  | .getSession caller none => .getSession caller (some (b.stored .session))
  | .getSession caller (some none) => .done caller.absent
  | .getSession caller (some (some session)) =>
    if b.now > session.expiry then .clearSession .sessionRemove caller.absent
    else present session caller
  | .resetIdleTimeout .clearIdle outcome => .resetIdleTimeout .createIdle outcome
  | .resetIdleTimeout .createIdle outcome => .done outcome
  | .restorePersistedSession (.isPrfAvailable none) =>
    .restorePersistedSession (.isPrfAvailable (some b.prfAvailable))
  | .restorePersistedSession (.isPrfAvailable (some prfAvailable)) =>
    if prfAvailable then .done .undefined else .restorePersistedSession (.localGet none)
  | .restorePersistedSession (.localGet none) =>
    .restorePersistedSession (.localGet (some (b.stored .persisted)))
  | .restorePersistedSession (.localGet (some none)) => .done .undefined
  | .restorePersistedSession (.localGet (some (some persisted))) =>
    if b.now > persisted.expiry then .clearSession .sessionRemove .undefined
    else .restorePersistedSession (.sessionSet persisted)
  | .restorePersistedSession (.sessionSet _) => .done .undefined
  | .done outcome => .done outcome

/-- The call that is started without being awaited: `activateSession` ends with one of
`resetIdleTimeout`. -/
def detached : Call → List Call
  | .activateSession _ .createTtl => [.resetIdleTimeout .clearIdle .undefined]
  | _ => []

end Call

/-- The session that a request writes, and its key. -/
def Request.written : Request → Option (StorageKey × MfaSession)
  | .set key session => some (key, session)
  | _ => none

theorem Request.eq_set_of_written {request : Option Request} {key : StorageKey}
    {session : MfaSession} (h : request.bind written = some (key, session)) :
    request = some (.set key session) := by
  obtain ⟨request, rfl, h⟩ := Option.bind_eq_some_iff.mp h
  cases request <;> cases h
  rfl

namespace Browser

/-- The browser after call `c` has gone one step. -/
def after (b : Browser) (c : Call) : Browser := c.request.elim b b.serve

@[simp] theorem now_after (b : Browser) (c : Call) : (b.after c).now = b.now := by
  rw [after]
  cases c.request with
  | none => rfl
  | some r => cases r <;> rfl

/-- What is there after a step has been there before, or the call has written it. -/
theorem stored_after {b : Browser} {c : Call} {key : StorageKey} {session : MfaSession} :
    (b.after c).stored key = some session →
      b.stored key = some session ∨ c.request.bind Request.written = some (key, session) := by
  rw [after]
  rcases c.request with _ | (⟨key', written⟩ | key' | _ | _ | _)
  case some.set =>
    intro h
    by_cases hkey : key = key'
    · subst hkey
      simp only [Option.elim_some, serve, Function.update_self, Option.some.injEq] at h
      exact .inr (by rw [Option.bind_some, Request.written, h])
    · simp only [Option.elim_some, serve, Function.update_of_ne hkey] at h
      exact .inl h
  case some.remove =>
    intro h
    by_cases hkey : key = key'
    · subst hkey
      simp only [Option.elim_some, serve, Function.update_self, reduceCtorEq] at h
    · simp only [Option.elim_some, serve, Function.update_of_ne hkey] at h
      exact .inl h
  all_goals exact .inl

theorem stored_remove {b : Browser} {c : Call} {key : StorageKey}
    (h : c.request = some (.remove key)) : (b.after c).stored key = none := by
  simp [after, h, serve]

end Browser

/-! ### A call on its own -/

namespace Call

/-- A bound on the steps to the end of a call. -/
def steps : Call → Nat
  | .activateSession _ .sessionSet => 5
  | .activateSession _ (.isPrfAvailable none) => 4
  | .activateSession _ (.isPrfAvailable (some _)) => 3
  | .activateSession _ (.localSet _) => 2
  | .activateSession _ .createTtl => 1
  | .clearSession .sessionRemove _ => 5
  | .clearSession .localRemove _ => 4
  | .clearSession .localCheck _ => 3
  | .clearSession .clearTtl _ => 2
  | .clearSession .clearIdle _ => 1
  | .getSession _ none => 7
  | .getSession _ (some _) => 6
  | .resetIdleTimeout .clearIdle _ => 2
  | .resetIdleTimeout .createIdle _ => 1
  | .restorePersistedSession (.isPrfAvailable none) => 9
  | .restorePersistedSession (.isPrfAvailable (some _)) => 8
  | .restorePersistedSession (.localGet none) => 7
  | .restorePersistedSession (.localGet (some _)) => 6
  | .restorePersistedSession (.sessionSet _) => 1
  | .done _ => 0

theorem steps_present (session : MfaSession) (caller : Caller) :
    (present session caller).steps ≤ 2 := by
  cases caller <;> simp [present, steps]

theorem steps_next (b : Browser) {c : Call} (h : c.isDone = false) :
    (c.next b).steps < c.steps := by
  fun_cases next b c
  all_goals first
    | (simp [steps]; done)
    | (cases h; done)
    | exact Nat.lt_of_le_of_lt (steps_present _ _) (by simp only [steps]; decide)
    | (split <;> simp [steps])

/-- `n` steps of a call while no other call goes on. -/
def advance : Nat → Browser → Call → Browser × Call
  | 0, b, c => (b, c)
  | n + 1, b, c => advance n (b.after c) (c.next b)

theorem advance_done (n : Nat) (b : Browser) (outcome : Outcome) :
    advance n b (.done outcome) = (b, .done outcome) := by
  induction n with
  | zero => rfl
  | succ n ih => exact ih

/-- Every call ends. -/
theorem advance_isDone {n : Nat} {b : Browser} {c : Call} (h : c.steps ≤ n) :
    (advance n b c).2.isDone = true := by
  induction n generalizing b c with
  | zero =>
    by_contra hnot
    have hlt := steps_next b (Bool.eq_false_iff.mpr hnot)
    exact Nat.not_lt_zero _ (Nat.lt_of_lt_of_le hlt h)
  | succ n ih =>
    cases hdone : c.isDone with
    | true =>
      obtain ⟨outcome, rfl⟩ : ∃ outcome, c = .done outcome := by
        cases c <;> first | exact ⟨_, rfl⟩ | cases hdone
      rw [advance_done]
      rfl
    | false =>
      have hlt := steps_next b hdone
      exact ih (by omega)

end Call

namespace Browser

/-- The call `c`, alone to its end. -/
def call (b : Browser) (c : Call) : Browser × Call := c.advance c.steps b

def clearSession (b : Browser) : Browser := (b.call (.clearSession .sessionRemove .undefined)).1

/-- What `getSession` comes to when it is called now. -/
def getSession (b : Browser) : Call := (b.call (.getSession .handler none)).2

def restorePersistedSession (b : Browser) : Browser :=
  (b.call (.restorePersistedSession (.isPrfAvailable none))).1

theorem advance_clearSession (b : Browser) (outcome : Outcome) :
    Call.advance 5 b (.clearSession .sessionRemove outcome) = (b.clearSession, .done outcome) := rfl

/-- `getSession` gives what session storage has, as long as that has not run out. -/
theorem getSession_eq (b : Browser) : b.getSession =
    .done (((b.stored .session).filter (·.Live b.now)).elim .null .session) := by
  have hread : b.getSession =
    (Call.advance 6 b (.getSession .handler (some (b.stored .session)))).2 := rfl
  rw [hread]
  cases b.stored .session with
  | none => rfl
  | some session =>
    by_cases hlive : session.Live b.now
    · have hnext : (Call.getSession .handler (some (some session))).next b =
          .done (.session session) := if_neg (not_lt.mpr hlive)
      rw [Option.filter_some, if_pos (decide_eq_true hlive), Call.advance, hnext, Call.advance_done]
      rfl
    · have hnext : (Call.getSession .handler (some (some session))).next b =
          .clearSession .sessionRemove .null := if_pos (not_le.mp hlive)
      rw [Option.filter_some, if_neg (by simpa using hlive), Call.advance, hnext,
        advance_clearSession]
      rfl

theorem getSession_null {b : Browser} (h : ∀ session ∈ b.stored .session, ¬session.Live b.now) :
    b.getSession = .done .null := by
  have hnone : (b.stored .session).filter (·.Live b.now) = none := by
    rw [Option.filter_eq_none_iff]
    intro session hsession
    simpa using h session hsession
  rw [getSession_eq, hnone]
  rfl

/-- `restorePersistedSession` in PIN mode copies what local storage has, as long as that has not run
out. -/
theorem restorePersistedSession_eq (b : Browser) : b.restorePersistedSession =
    if b.prfAvailable then b else
      (b.stored .persisted).elim b fun persisted =>
        if persisted.Live b.now then b.serve (.set .session persisted) else b.clearSession := by
  have hprf : b.restorePersistedSession =
    (Call.advance 8 b (.restorePersistedSession (.isPrfAvailable (some b.prfAvailable)))).1 := rfl
  rw [hprf]
  cases b.prfAvailable with
  | true => rfl
  | false =>
    have hlocal : Call.advance 8 b (.restorePersistedSession (.isPrfAvailable (some false))) =
      Call.advance 6 b (.restorePersistedSession (.localGet (some (b.stored .persisted)))) := rfl
    rw [hlocal]
    cases b.stored .persisted with
    | none => rfl
    | some persisted =>
      by_cases hlive : persisted.Live b.now
      · have hnext : (Call.restorePersistedSession (.localGet (some (some persisted)))).next b =
            .restorePersistedSession (.sessionSet persisted) := if_neg (not_lt.mpr hlive)
        rw [Call.advance, hnext, Option.elim_some, if_pos hlive]
        rfl
      · have hnext : (Call.restorePersistedSession (.localGet (some (some persisted)))).next b =
            .clearSession .sessionRemove .undefined := if_pos (not_le.mp hlive)
        rw [Call.advance, hnext, Option.elim_some, if_neg hlive]
        rfl

end Browser

/-! ### The calls as they interleave -/

/-- A call in flight, and how many calls of `activateSession` had been made when its `clearSession`
began, or so far if it is not in one. -/
structure Task where
  call : Call
  since : Nat
  deriving DecidableEq

inductive IdleState where
  | active
  | idle
  | locked
  deriving DecidableEq

/-- `activations` counts the calls of `activateSession`; `clearedAt` has the count with which a
`clearSession` began that completed before the next of them. -/
structure Manager where
  browser : Browser
  tasks : List Task := []
  activations : Nat := 0
  clearedAt : Option Nat := none

/-- A call is made, an alarm or an idle state wakes its listener, task `i` goes one step, time
passes, or the service worker or the whole browser starts anew. -/
inductive Event where
  | activateSession (bytes : Bytes) (deviceName : Option Utf16)
  | clearSession
  | getSession
  | verifySession
  | resetIdleTimeout
  | restorePersistedSession
  | setPrfAvailable
  | onAlarm (alarm : Alarm)
  | onStateChanged (state : IdleState)
  | run (i : Nat)
  | pass (ms : Nat)
  | restart
  | browserRestart
  deriving DecidableEq

namespace Call

def clearing : Call → Bool
  | .clearSession _ _ => true
  | _ => false

/-- The last await of `clearSession`. -/
def clearEnds : Call → Bool
  | .clearSession .clearIdle _ => true
  | _ => false

end Call

namespace Manager

def init (now : Int) : Manager := { browser := { now } }

def start (s : Manager) (call : Call) : Manager :=
  { s with tasks := s.tasks ++ [⟨call, s.activations⟩] }

/-- The `MfaSession` of a call of `activateSession`. -/
def newSession (s : Manager) (bytes : Bytes) (deviceName : Option Utf16) : MfaSession where
  sessionToken := generateSessionToken bytes
  mfaVerifiedAt := s.browser.now
  expiry := s.browser.now + sessionTtlMs
  deviceName

/-- Task `i`, which is `t`, goes one step. -/
def advance (s : Manager) (i : Nat) (t : Task) : Manager where
  browser := s.browser.after t.call
  tasks :=
    s.tasks.set i ⟨t.call.next s.browser, if t.call.clearing then t.since else s.activations⟩ ++
      t.call.detached.map (⟨·, s.activations⟩)
  activations := s.activations
  clearedAt :=
    if t.call.clearEnds = true ∧ t.since = s.activations then some t.since else s.clearedAt

def step (s : Manager) : Event → Option Manager
  | .activateSession bytes deviceName =>
    some { s.start (.activateSession (s.newSession bytes deviceName) .sessionSet) with
      activations := s.activations + 1 }
  | .clearSession => some (s.start (.clearSession .sessionRemove .undefined))
  | .getSession => some (s.start (.getSession .handler none))
  | .verifySession => some (s.start (.getSession .verifySession none))
  | .resetIdleTimeout => some (s.start (.resetIdleTimeout .clearIdle .undefined))
  | .restorePersistedSession => some (s.start (.restorePersistedSession (.isPrfAvailable none)))
  | .setPrfAvailable => some { s with browser.prfAvailable := true }
  | .onAlarm alarm =>
    (s.browser.due alarm).bind fun due =>
      if due ≤ s.browser.now then
        some { s.start (.clearSession .sessionRemove .undefined) with
          browser := s.browser.serve (.alarmsClear alarm) }
      else none
  | .onStateChanged .active => some (s.start (.getSession .onStateChanged none))
  | .onStateChanged _ => some s
  | .run i =>
    (s.tasks[i]?).bind fun t => if t.call.isDone then none else some (s.advance i t)
  | .pass ms => some { s with browser.now := s.browser.now + ms }
  | .restart => some { s with tasks := [] }
  | .browserRestart => some { s with browser := s.browser.restarted, tasks := [] }

/-- All that a step can do. -/
inductive Effect (s : Manager) : Event → Manager → Prop
  | activate (bytes : Bytes) (deviceName : Option Utf16) :
      Effect s (.activateSession bytes deviceName)
        { s.start (.activateSession (s.newSession bytes deviceName) .sessionSet) with
          activations := s.activations + 1 }
  | start {e : Event} {call : Call}
      (hcall : call.clearing = true → call = .clearSession .sessionRemove .undefined) :
      Effect s e (s.start call)
  | prf : Effect s .setPrfAvailable { s with browser.prfAvailable := true }
  | alarm {alarm : Alarm} :
      Effect s (.onAlarm alarm)
        { s.start (.clearSession .sessionRemove .undefined) with
          browser := s.browser.serve (.alarmsClear alarm) }
  | ignored {e : Event} : Effect s e s
  | run {i : Nat} {t : Task} (ht : s.tasks[i]? = some t) : Effect s (.run i) (s.advance i t)
  | pass (ms : Nat) : Effect s (.pass ms) { s with browser.now := s.browser.now + ms }
  | restart : Effect s .restart { s with tasks := [] }
  | browserRestart : Effect s .browserRestart
      { s with browser := s.browser.restarted, tasks := [] }

theorem step_effect {s s' : Manager} {e : Event} (h : s.step e = some s') : Effect s e s' := by
  cases e with
  | onAlarm alarm =>
    obtain ⟨due, -, h⟩ := Option.bind_eq_some_iff.mp h
    split at h
    · cases h
      exact .alarm
    · cases h
  | run i =>
    obtain ⟨t, ht, h⟩ := Option.bind_eq_some_iff.mp h
    split at h
    · cases h
    · cases h
      exact .run ht
  | onStateChanged state =>
    cases state with
    | active =>
      cases h
      exact .start (fun h => by cases h)
    | idle | locked =>
      cases h
      exact .ignored
  | activateSession bytes deviceName =>
    cases h
    exact .activate bytes deviceName
  | setPrfAvailable =>
    cases h
    exact .prf
  | pass ms =>
    cases h
    exact .pass ms
  | restart =>
    cases h
    exact .restart
  | browserRestart =>
    cases h
    exact .browserRestart
  | clearSession =>
    cases h
    exact .start fun _ => rfl
  | getSession | verifySession | resetIdleTimeout | restorePersistedSession =>
    cases h
    exact .start (fun h => by cases h)

theorem mem_start {s : Manager} {call : Call} {t : Task} :
    t ∈ (s.start call).tasks ↔ t ∈ s.tasks ∨ t = ⟨call, s.activations⟩ := by
  simp [start]

/-- A task after a step is the one that has moved, another one, or one that it has started. -/
theorem mem_advance {s : Manager} {i : Nat} {t t' : Task} (h : t' ∈ (s.advance i t).tasks) :
    t' = ⟨t.call.next s.browser, if t.call.clearing then t.since else s.activations⟩ ∨
      t' ∈ s.tasks ∨ ∃ c ∈ t.call.detached, t' = ⟨c, s.activations⟩ := by
  obtain h | h := List.mem_append.mp h
  · obtain h | ⟨j, -, hj⟩ := Tasks.mem_set h
    · exact .inl h
    · exact .inr (.inl (List.mem_of_getElem? hj))
  · obtain ⟨c, hc, rfl⟩ := List.mem_map.mp h
    exact .inr (.inr ⟨c, hc, rfl⟩)

end Manager

end SmartIdVault.SessionManager
