import Mathlib.Data.List.Nodup
import Mathlib.Data.List.Range
import SmartIdVault.Lib.Bytes
import SmartIdVault.Lib.Machine
import SmartIdVault.Lib.Tasks

/-! The backpressure queue of `backpressureQueue.ts` with its drains.  A drain runs until the
channel's buffer is full, waits for an event or a timer, and runs on in a microtask; between the
two the queue may be cleared, emptied by a close event or taken over by a newer drain.  A step is
what runs without interruption.  What the channel says (its state, its buffered amount, what its
`send` throws) is read from the event each time it is looked at. -/

namespace SmartIdVault.Backpressure

/-- A view of a buffer. -/
structure Uint8Array where
  buffer : Bytes
  byteOffset : Nat
  byteLength : Nat
  inBounds : byteOffset + byteLength ≤ buffer.length
  deriving DecidableEq

/-- `buffer.slice(byteOffset, byteOffset + byteLength)`. -/
def Uint8Array.slice (a : Uint8Array) : Bytes := (a.buffer.drop a.byteOffset).take a.byteLength

structure ExtensionError where
  message : String
  code : String
  recoverable : Bool
  deriving DecidableEq, Repr

def notOpen : ExtensionError := ⟨"DataChannel not open", "DC_NOT_OPEN", false⟩

def queueCleared : ExtensionError := ⟨"Queue cleared", "QUEUE_CLEARED", false⟩

def dcClosed : ExtensionError := ⟨"DataChannel closed during drain", "DC_CLOSED", false⟩

def sendFailed (message : String) : ExtensionError := ⟨message, "SEND_FAILED", false⟩

/-- What `dc.send` throws: an `Error`, or another value with its text as a string. -/
inductive Thrown
  | error (message : String)
  | other (text : String)
  deriving DecidableEq, Repr

/-- The message of a direct send that fails. -/
def Thrown.direct : Thrown → String
  | .error message => message
  | .other _ => "DataChannel send failed"

/-- The message of a drained send that fails. -/
def Thrown.drained : Thrown → String
  | .error message => message
  | .other text => text

inductive Outcome
  | resolved
  | rejected (err : ExtensionError)
  deriving DecidableEq, Repr

/-- A queued payload; its `resolve` and `reject` settle the promise of send call `id`. -/
structure QueuedItem where
  id : Nat
  payload : Uint8Array
  deriving DecidableEq

inductive Phase
  -- `finish` is to be called
  | waiting
  -- the loop is to run on
  | woken
  -- the close listener is removed
  | done
  deriving DecidableEq, Repr

/-- A call of `drain`. -/
structure Drain where
  dc : Nat
  gen : Nat
  phase : Phase
  deriving DecidableEq, Repr

/-- The arguments of a call of `send`. -/
structure Call where
  payload : Uint8Array
  dc : Nat
  deriving DecidableEq

/-- A call of `dc.send` for send call `id`. -/
structure Passed where
  id : Nat
  dc : Nat
  bytes : Bytes
  thrown : Option Thrown
  deriving DecidableEq

/-- The settlement of the promise of send call `id`, and the channel whose close event has led to
it, if one has. -/
structure Settlement where
  id : Nat
  outcome : Outcome
  closed : Option Nat
  deriving DecidableEq

/-- The queue, all its drains, the send calls so far, and what has become of them. -/
structure BackpressureQueue where
  queue : List QueuedItem := []
  pendingBytes : Int := 0
  draining : Bool := false
  drainGeneration : Nat := 0
  drains : List Drain := []
  calls : List Call := []
  passed : List Passed := []
  settled : List Settlement := []
  deriving DecidableEq

/-- What a call of `send` reads of the channel, and what a direct `dc.send` throws. -/
structure Reading where
  -- `dc.readyState === 'open'`
  isOpen : Bool
  bufferedAmount : Int
  thrown : Option Thrown
  deriving DecidableEq, Repr

/-- What a turn of the drain loop reads, and what its `dc.send` throws. -/
structure Turn where
  bufferedAmount : Int
  thrown : Option Thrown
  deriving DecidableEq, Repr

inductive QueueEvent
  -- the turns are those of the drain that the call may start
  | send (payload : Uint8Array) (dc : Nat) (reading : Reading) (turns : List Turn)
  | clear
  -- the close listener of drain `i`; the listeners of one close event run one by one, with
  -- microtasks in between
  | onClose (i : Nat)
  -- the `bufferedamountlow` listener or the fallback timer that drain `i` waits for
  | finish (i : Nat)
  -- the rest of drain `i` after its wait
  | resume (i : Nat) (turns : List Turn)
  deriving DecidableEq

variable (highWaterMark drainThreshold : Int)

namespace BackpressureQueue

def settle (s : BackpressureQueue) (id : Nat) (outcome : Outcome) : BackpressureQueue :=
  { s with settled := s.settled ++ [⟨id, outcome, none⟩] }

/-- `dc.send` for send call `id`, which settles it either way. -/
def dcSend (s : BackpressureQueue) (id : Nat) (payload : Uint8Array) (dc : Nat)
    (thrown : Option Thrown) (message : Thrown → String) : BackpressureQueue :=
  let s : BackpressureQueue := { s with
    passed := s.passed ++ [⟨id, dc, payload.slice, thrown⟩] }
  match thrown with
  | none => s.settle id .resolved
  | some err => s.settle id (.rejected (sendFailed (message err)))

@[simp] theorem dcSend_queue (s : BackpressureQueue) (id : Nat) (payload : Uint8Array) (dc : Nat)
    (thrown : Option Thrown) (message : Thrown → String) :
    (s.dcSend id payload dc thrown message).queue = s.queue := by
  cases thrown with
  | none => rfl
  | some err => rfl

/-- `queue.splice(0)` with the rejection of what it held. -/
def rejectAll (s : BackpressureQueue) (err : ExtensionError) (closed : Option Nat) :
    BackpressureQueue :=
  { s with
    queue := []
    pendingBytes := 0
    settled := s.settled ++ s.queue.map fun item => ⟨item.id, .rejected err, closed⟩ }

def clear (s : BackpressureQueue) : BackpressureQueue :=
  let s := s.rejectAll queueCleared none
  { s with drainGeneration := s.drainGeneration + 1, draining := false }

/-- The queue's first item leaves it and is passed to the channel. -/
def passHead (s : BackpressureQueue) (item : QueuedItem) (rest : List QueuedItem) (dc : Nat)
    (thrown : Option Thrown) : BackpressureQueue :=
  let s : BackpressureQueue := { s with
    queue := rest
    pendingBytes := s.pendingBytes - item.payload.byteLength }
  s.dcSend item.id item.payload dc thrown Thrown.drained

/-- The loop of a drain of generation `gen`, up to its end or to a wait. -/
def drainLoop (dc gen : Nat) (s : BackpressureQueue) (turns : List Turn) :
    Option (BackpressureQueue × Phase) :=
  match s.queue with
  | [] => some (s, .done)
  | item :: rest =>
    if gen ≠ s.drainGeneration then some (s, .done)
    else
      match turns with
      | [] => none
      | turn :: turns =>
        if turn.bufferedAmount ≤ drainThreshold then
          drainLoop dc gen (s.passHead item rest dc turn.thrown) turns
        else some (s, .waiting)

/-- Drain `i` is left in its new phase; a current one that is done ends the draining. -/
def leave (s : BackpressureQueue) (i : Nat) (d : Drain) (phase : Phase) : BackpressureQueue :=
  { s with
    drains := s.drains.set i { d with phase }
    draining := if phase = .done ∧ d.gen = s.drainGeneration then false else s.draining }

/-- Drain `i` runs from the head of its loop. -/
def runDrain (s : BackpressureQueue) (i : Nat) (turns : List Turn) : Option BackpressureQueue :=
  s.drains[i]?.bind fun d =>
    if d.phase = .woken then
      (drainLoop drainThreshold d.dc d.gen s turns).map fun (t, phase) => t.leave i d phase
    else none

/-- A new drain, before its loop. -/
def addDrain (s : BackpressureQueue) (dc : Nat) : BackpressureQueue :=
  { s with
    draining := true
    drainGeneration := s.drainGeneration + 1
    drains := s.drains ++ [⟨dc, s.drainGeneration + 1, .woken⟩] }

def called (s : BackpressureQueue) (payload : Uint8Array) (dc : Nat) : BackpressureQueue :=
  { s with calls := s.calls ++ [⟨payload, dc⟩] }

def enqueue (s : BackpressureQueue) (id : Nat) (payload : Uint8Array) : BackpressureQueue :=
  { s with
    queue := s.queue ++ [⟨id, payload⟩]
    pendingBytes := s.pendingBytes + payload.byteLength }

def send (s : BackpressureQueue) (payload : Uint8Array) (dc : Nat) (reading : Reading)
    (turns : List Turn) : Option BackpressureQueue :=
  let id := s.calls.length
  let s := s.called payload dc
  if !reading.isOpen then some (s.settle id (.rejected notOpen))
  else if s.queue ≠ [] ∨
      highWaterMark < reading.bufferedAmount + s.pendingBytes + payload.byteLength then
    let s := s.enqueue id payload
    if s.draining then some s
    else (s.addDrain dc).runDrain drainThreshold s.drains.length turns
  else some (s.dcSend id payload dc reading.thrown Thrown.direct)

/-- The close listener of drain `i`, which is there until the drain is done. -/
def onClose (s : BackpressureQueue) (i : Nat) : Option BackpressureQueue :=
  s.drains[i]?.bind fun d =>
    if d.phase = .done then none else some (s.rejectAll dcClosed (some d.dc))

def finish (s : BackpressureQueue) (i : Nat) : Option BackpressureQueue :=
  s.drains[i]?.bind fun d =>
    if d.phase = .waiting then
      some { s with drains := s.drains.set i { d with phase := .woken } }
    else none

def step (s : BackpressureQueue) : QueueEvent → Option BackpressureQueue
  | .send payload dc reading turns => s.send highWaterMark drainThreshold payload dc reading turns
  | .clear => some s.clear
  | .onClose i => s.onClose i
  | .finish i => s.finish i
  | .resume i turns => s.runDrain drainThreshold i turns

abbrev Run : BackpressureQueue → List QueueEvent → BackpressureQueue → Prop :=
  Machine.Run (step highWaterMark drainThreshold)

/-- A call of `send` queues its payload. -/
def Queues (s : BackpressureQueue) (payload : Uint8Array) (reading : Reading) : Prop :=
  reading.isOpen = true ∧ (s.queue ≠ [] ∨
    highWaterMark < reading.bufferedAmount + s.pendingBytes + payload.byteLength)

instance (s : BackpressureQueue) (payload : Uint8Array) (reading : Reading) :
    Decidable (s.Queues highWaterMark payload reading) :=
  inferInstanceAs (Decidable (_ ∧ _))

/-- Drain `i` is not done, and its generation is the current one. -/
def IsCurrent (s : BackpressureQueue) (i : Nat) : Prop :=
  ∃ d ∈ s.drains[i]?, d.phase ≠ .done ∧ d.gen = s.drainGeneration

/-- What the queue promises: its count of bytes, its drain, and what becomes of each send call. -/
structure Sound (s : BackpressureQueue) : Prop where
  pendingBytes : s.pendingBytes = (s.queue.map fun item => (item.payload.byteLength : Int)).sum
  drained : s.queue ≠ [] → s.draining = true ∧ ∃! i, s.IsCurrent i
  passedOnce : (s.passed.map (·.id)).Nodup
  inOrder : (s.passed.map (·.id)).Pairwise (· < ·)
  payloads : ∀ p ∈ s.passed, ∃ c ∈ s.calls[p.id]?, p.bytes = c.payload.slice
  settledOnce : (s.settled.map (·.id)).Nodup
  resolved : ∀ x ∈ s.settled, x.outcome = .resolved → ∃ p ∈ s.passed, p.id = x.id ∧ p.thrown = none
  rejected : ∀ x ∈ s.settled, x.outcome = .rejected queueCleared ∨ x.outcome = .rejected dcClosed →
    ∀ p ∈ s.passed, p.id ≠ x.id

/-! ### What a step can do -/

section Steps

variable {highWaterMark drainThreshold} {s t : BackpressureQueue}

/-- A loop passes items from the head of the queue, as long as its generation is the current one;
it ends in a wait with a queue that is not empty, or done with one that is or with a generation
that is not the current one. -/
theorem drainLoop_induct {dc gen : Nat} {turns : List Turn} {phase : Phase}
    {I : BackpressureQueue → Prop} (h : drainLoop drainThreshold dc gen s turns = some (t, phase))
    (h0 : I s)
    (hpass : ∀ s item rest thrown, I s → s.queue = item :: rest → gen = s.drainGeneration →
      I (s.passHead item rest dc thrown)) :
    I t ∧ (phase = .done ∧ (gen = t.drainGeneration → t.queue = []) ∨
      phase = .waiting ∧ gen = t.drainGeneration) := by
  induction turns generalizing s with
  | nil =>
    rw [drainLoop.eq_def] at h
    split at h
    next hq =>
      cases h
      exact ⟨h0, .inl ⟨rfl, fun _ => hq⟩⟩
    next =>
      split at h
      next hgen =>
        cases h
        exact ⟨h0, .inl ⟨rfl, fun hcur => absurd hcur hgen⟩⟩
      next => cases h
  | cons turn turns ih =>
    rw [drainLoop.eq_def] at h
    split at h
    next hq =>
      cases h
      exact ⟨h0, .inl ⟨rfl, fun _ => hq⟩⟩
    next item rest hq =>
      split at h
      next hgen =>
        cases h
        exact ⟨h0, .inl ⟨rfl, fun hcur => absurd hcur hgen⟩⟩
      next hgen =>
        simp only at h
        split at h
        · exact ih h (hpass s item rest turn.thrown h0 hq (not_not.mp hgen))
        · cases h
          exact ⟨h0, .inr ⟨rfl, not_not.mp hgen⟩⟩

theorem runDrain_eq {i : Nat} {turns : List Turn}
    (h : s.runDrain drainThreshold i turns = some t) :
    ∃ d u phase, s.drains[i]? = some d ∧ d.phase = .woken ∧
      drainLoop drainThreshold d.dc d.gen s turns = some (u, phase) ∧ t = u.leave i d phase := by
  obtain ⟨d, hd, h⟩ := Option.bind_eq_some_iff.mp h
  split at h
  next hwoken =>
    obtain ⟨⟨u, phase⟩, hloop, rfl⟩ := Option.map_eq_some_iff.mp h
    exact ⟨d, u, phase, hd, hwoken, hloop, rfl⟩
  next => cases h

/-- A call of `send` is refused, queued behind a drain that runs, queued with a new drain, or passed
directly. -/
theorem send_cases {payload : Uint8Array} {dc : Nat} {reading : Reading} {turns : List Turn}
    (h : s.send highWaterMark drainThreshold payload dc reading turns = some t) :
    t = (s.called payload dc).settle s.calls.length (.rejected notOpen) ∨
    (s.Queues highWaterMark payload reading ∧ s.draining = true ∧
      t = (s.called payload dc).enqueue s.calls.length payload) ∨
    (s.draining = false ∧ (((s.called payload dc).enqueue s.calls.length payload).addDrain
      dc).runDrain drainThreshold s.drains.length turns = some t) ∨
    (s.queue = [] ∧
      t = (s.called payload dc).dcSend s.calls.length payload dc reading.thrown Thrown.direct) := by
  simp only [send] at h
  split at h
  · exact .inl (Option.some.inj h).symm
  next hopen =>
    split at h
    next hqueues =>
      split at h
      next hdraining =>
        have hisOpen : reading.isOpen = true := by simpa using hopen
        exact .inr (.inl ⟨⟨hisOpen, hqueues⟩, hdraining, (Option.some.inj h).symm⟩)
      next hdraining => exact .inr (.inr (.inl ⟨Bool.eq_false_iff.mpr hdraining, h⟩))
    next hdirect =>
      rw [not_or, not_not] at hdirect
      exact .inr (.inr (.inr ⟨hdirect.1, (Option.some.inj h).symm⟩))

theorem onClose_eq {i : Nat} (h : s.onClose i = some t) :
    ∃ d, s.drains[i]? = some d ∧ d.phase ≠ .done ∧ t = s.rejectAll dcClosed (some d.dc) := by
  obtain ⟨d, hd, h⟩ := Option.bind_eq_some_iff.mp h
  split at h
  next => cases h
  next halive => exact ⟨d, hd, halive, (Option.some.inj h).symm⟩

theorem finish_eq {i : Nat} (h : s.finish i = some t) :
    ∃ d, s.drains[i]? = some d ∧ d.phase = .waiting ∧
      t = { s with drains := s.drains.set i { d with phase := .woken } } := by
  obtain ⟨d, hd, h⟩ := Option.bind_eq_some_iff.mp h
  split at h
  next hwaiting => exact ⟨d, hd, hwaiting, (Option.some.inj h).symm⟩
  next => cases h

end Steps

/-! ### The accounts of the send calls -/

/-- Each send call is either queued or settled, the queue holds what has not been passed yet, and
what has been passed is settled by it. -/
structure Accounts (s : BackpressureQueue) : Prop where
  pendingBytes : s.pendingBytes = (s.queue.map fun item => (item.payload.byteLength : Int)).sum
  inOrder : (s.passed.map (·.id) ++ s.queue.map (·.id)).Pairwise (· < ·)
  once : (s.queue.map (·.id) ++ s.settled.map (·.id)).Perm (List.range s.calls.length)
  queued : ∀ item ∈ s.queue, ∃ c ∈ s.calls[item.id]?, item.payload = c.payload
  passed : ∀ p ∈ s.passed, ∃ c ∈ s.calls[p.id]?, p.bytes = c.payload.slice
  outcomes : ∀ p ∈ s.passed, ∃ x ∈ s.settled, x.id = p.id ∧
    (x.outcome = .resolved ∨ ∃ message, x.outcome = .rejected (sendFailed message))
  resolved : ∀ x ∈ s.settled, x.outcome = .resolved → ∃ p ∈ s.passed, p.id = x.id ∧ p.thrown = none

namespace Accounts

variable {s : BackpressureQueue}

theorem init : Accounts {} := by
  constructor <;> simp

theorem lt_of_passed (h : Accounts s) {p : Passed} (hp : p ∈ s.passed) : p.id < s.calls.length := by
  obtain ⟨c, hc, -⟩ := h.passed p hp
  exact (List.getElem?_eq_some_iff.mp hc).1

theorem lt_of_queued (h : Accounts s) {item : QueuedItem} (hi : item ∈ s.queue) :
    item.id < s.calls.length := by
  obtain ⟨c, hc, -⟩ := h.queued item hi
  exact (List.getElem?_eq_some_iff.mp hc).1

theorem refused (h : Accounts s) (payload : Uint8Array) (dc : Nat) (err : ExtensionError) :
    Accounts ((s.called payload dc).settle s.calls.length (.rejected err)) where
  pendingBytes := h.pendingBytes
  inOrder := h.inOrder
  once := by
    have happend := h.once.append_right [s.calls.length]
    rw [List.append_assoc] at happend
    simpa [settle, called, List.range_succ] using happend
  queued item hi := by
    obtain ⟨c, hc, hpayload⟩ := h.queued item hi
    exact ⟨c, Tasks.get_append_of_get hc _, hpayload⟩
  passed p hp := by
    obtain ⟨c, hc, hbytes⟩ := h.passed p hp
    exact ⟨c, Tasks.get_append_of_get hc _, hbytes⟩
  outcomes p hp := by
    obtain ⟨x, hx, hout⟩ := h.outcomes p hp
    exact ⟨x, List.mem_append_left _ hx, hout⟩
  resolved x hx hres := by
    rcases List.mem_append.mp hx with hx | hx
    · exact h.resolved x hx hres
    · rw [List.mem_singleton.mp hx] at hres
      cases hres

theorem enqueued (h : Accounts s) (payload : Uint8Array) (dc : Nat) :
    Accounts ((s.called payload dc).enqueue s.calls.length payload) where
  pendingBytes := by
    simp only [enqueue, called, List.map_append, List.map_cons, List.map_nil, List.sum_append,
      List.sum_singleton, h.pendingBytes]
  inOrder := by
    simp only [enqueue, called, List.map_append, List.map_cons, List.map_nil]
    rw [← List.append_assoc, List.pairwise_append]
    refine ⟨h.inOrder, List.pairwise_singleton _ _, ?_⟩
    intro id hid n hn
    rw [List.mem_singleton.mp hn]
    rcases List.mem_append.mp hid with hid | hid
    · obtain ⟨p, hp, rfl⟩ := List.mem_map.mp hid
      exact h.lt_of_passed hp
    · obtain ⟨item, hi, rfl⟩ := List.mem_map.mp hid
      exact h.lt_of_queued hi
  once := by
    have happend := h.once.append_right [s.calls.length]
    rw [List.append_assoc] at happend
    simp only [enqueue, called, List.map_append, List.map_cons, List.map_nil, List.length_append,
      List.length_singleton, List.range_succ, List.append_assoc]
    exact (List.perm_append_comm.append_left _).trans happend
  queued item hi := by
    rcases List.mem_append.mp hi with hi | hi
    · obtain ⟨c, hc, hpayload⟩ := h.queued item hi
      exact ⟨c, Tasks.get_append_of_get hc _, hpayload⟩
    · rw [List.mem_singleton.mp hi]
      exact ⟨_, Tasks.append_self _ _, rfl⟩
  passed p hp := by
    obtain ⟨c, hc, hbytes⟩ := h.passed p hp
    exact ⟨c, Tasks.get_append_of_get hc _, hbytes⟩
  outcomes := h.outcomes
  resolved := h.resolved

theorem dcSend {item : QueuedItem} {rest : List QueuedItem} (h : Accounts s)
    (hq : s.queue = item :: rest) (dc : Nat) (thrown : Option Thrown) (message : Thrown → String) :
    Accounts ({ s with
      queue := rest
      pendingBytes := s.pendingBytes - item.payload.byteLength }.dcSend item.id item.payload dc
        thrown message) := by
  obtain ⟨outcome, hsent, houtcome⟩ : ∃ outcome : Outcome,
      { s with
        queue := rest
        pendingBytes := s.pendingBytes - item.payload.byteLength }.dcSend item.id item.payload dc
          thrown message =
      { s with
        queue := rest
        pendingBytes := s.pendingBytes - item.payload.byteLength
        passed := s.passed ++ [⟨item.id, dc, item.payload.slice, thrown⟩]
        settled := s.settled ++ [⟨item.id, outcome, none⟩] } ∧
      (outcome = .resolved ∧ thrown = none ∨
        ∃ message, outcome = .rejected (sendFailed message)) := by
    cases thrown with
    | none => exact ⟨_, rfl, .inl ⟨rfl, rfl⟩⟩
    | some err => exact ⟨_, rfl, .inr ⟨_, rfl⟩⟩
  have hinOrder := h.inOrder
  have honce := h.once
  have hbytes := h.pendingBytes
  have hqueued := h.queued
  rw [hq, List.map_cons] at hinOrder honce hbytes
  rw [hq, List.forall_mem_cons] at hqueued
  rw [hsent]
  constructor
  · simp only
    rw [hbytes, List.sum_cons]
    omega
  · simp only [List.map_append, List.map_cons, List.map_nil]
    rw [List.append_assoc]
    exact hinOrder
  · simp only [List.map_append, List.map_cons, List.map_nil]
    rw [← List.append_assoc]
    exact (List.perm_append_singleton _ _).trans honce
  · exact hqueued.2
  · intro p hp
    rcases List.mem_append.mp hp with hp | hp
    · exact h.passed p hp
    · obtain ⟨c, hc, hpayload⟩ := hqueued.1
      rw [List.mem_singleton.mp hp]
      exact ⟨c, hc, congrArg Uint8Array.slice hpayload⟩
  · intro p hp
    rcases List.mem_append.mp hp with hp | hp
    · obtain ⟨x, hx, hout⟩ := h.outcomes p hp
      exact ⟨x, List.mem_append_left _ hx, hout⟩
    · rw [List.mem_singleton.mp hp]
      exact ⟨_, List.mem_append_right _ (List.mem_singleton_self _), rfl,
        houtcome.imp_left And.left⟩
  · intro x hx hres
    rcases List.mem_append.mp hx with hx | hx
    · obtain ⟨p, hp, hout⟩ := h.resolved x hx hres
      exact ⟨p, List.mem_append_left _ hp, hout⟩
    · rw [List.mem_singleton.mp hx] at hres ⊢
      rcases houtcome with ⟨-, hthrown⟩ | ⟨message, hrejected⟩
      · exact ⟨_, List.mem_append_right _ (List.mem_singleton_self _), rfl, hthrown⟩
      · simp only at hres
        rw [hrejected] at hres
        cases hres

theorem direct (h : Accounts s) (hq : s.queue = []) (payload : Uint8Array) (dc : Nat)
    (thrown : Option Thrown) (message : Thrown → String) :
    Accounts ((s.called payload dc).dcSend s.calls.length payload dc thrown message) := by
  -- as if the payload had been queued and passed at once
  have hqueue : ((s.called payload dc).enqueue s.calls.length payload).queue =
      [⟨s.calls.length, payload⟩] := by
    simp [enqueue, called, hq]
  have hsend := (h.enqueued payload dc).dcSend hqueue dc thrown message
  have hbytes : s.pendingBytes + payload.byteLength - payload.byteLength = s.pendingBytes := by
    omega
  simpa only [enqueue, called, hbytes, ← hq] using hsend

theorem rejectAll (h : Accounts s) (err : ExtensionError) (closed : Option Nat) :
    Accounts (s.rejectAll err closed) where
  pendingBytes := rfl
  inOrder := by
    simpa [BackpressureQueue.rejectAll] using (List.pairwise_append.mp h.inOrder).1
  once := by
    have hids : (s.queue.map fun item =>
        (⟨item.id, .rejected err, closed⟩ : Settlement)).map (·.id) = s.queue.map (·.id) := by
      rw [List.map_map]
      rfl
    simp only [BackpressureQueue.rejectAll, List.map_nil, List.nil_append, List.map_append, hids]
    exact List.perm_append_comm.trans h.once
  queued item hi := absurd hi List.not_mem_nil
  passed := h.passed
  outcomes p hp := by
    obtain ⟨x, hx, hout⟩ := h.outcomes p hp
    exact ⟨x, List.mem_append_left _ hx, hout⟩
  resolved x hx hres := by
    rcases List.mem_append.mp hx with hx | hx
    · exact h.resolved x hx hres
    · obtain ⟨item, -, rfl⟩ := List.mem_map.mp hx
      cases hres

end Accounts

/-! ### The drains -/

/-- The generations of the drains grow, and the queue is draining exactly when the drain of the
current generation is not done; it is, as long as there is something to drain. -/
structure Drains (s : BackpressureQueue) : Prop where
  growing : (s.drains.map (·.gen)).Pairwise (· < ·)
  bound : ∀ d ∈ s.drains, d.gen ≤ s.drainGeneration
  draining : s.draining = true ↔ ∃ i, s.IsCurrent i
  nonempty : s.queue ≠ [] → s.draining = true

namespace Drains

variable {drainThreshold} {s t : BackpressureQueue}

theorem init : Drains {} where
  growing := .nil
  bound := by simp
  draining := by simp [IsCurrent]
  nonempty h := absurd rfl h

theorem eq_of_gen {i j : Nat} {d e : Drain} (h : Drains s) (hi : s.drains[i]? = some d)
    (hj : s.drains[j]? = some e) (hgen : d.gen = e.gen) : i = j := by
  have hnodup : (s.drains.map (·.gen)).Nodup := h.growing.imp Nat.ne_of_lt
  have hlength : i < (s.drains.map (·.gen)).length := by
    rw [List.length_map]
    exact (List.getElem?_eq_some_iff.mp hi).1
  refine (List.getElem?_inj hlength hnodup).mp ?_
  rw [List.getElem?_map, List.getElem?_map, hi, hj, Option.map_some, Option.map_some, hgen]

/-- No two drains are current. -/
theorem unique (h : Drains s) {i j : Nat} (hi : s.IsCurrent i) (hj : s.IsCurrent j) : i = j := by
  obtain ⟨d, hd, -, hdgen⟩ := hi
  obtain ⟨e, he, -, hegen⟩ := hj
  exact h.eq_of_gen hd he (hdgen.trans hegen.symm)

theorem rejectAll (h : Drains s) (err : ExtensionError) (closed : Option Nat) :
    Drains (s.rejectAll err closed) :=
  ⟨h.growing, h.bound, h.draining, fun hne => absurd rfl hne⟩

theorem clear (h : Drains s) : Drains s.clear where
  growing := h.growing
  bound d hd := Nat.le_succ_of_le (h.bound d hd)
  draining := by
    refine ⟨fun hdraining => Bool.noConfusion hdraining, ?_⟩
    rintro ⟨i, d, hd, -, hgen⟩
    have hle := h.bound d (List.mem_of_getElem? hd)
    have hgen' : d.gen = s.drainGeneration + 1 := hgen
    omega
  nonempty hne := absurd rfl hne

/-- A payload is queued and starts a drain. -/
theorem started (h : Drains s) (payload : Uint8Array) (dc id : Nat) :
    Drains (((s.called payload dc).enqueue id payload).addDrain dc) where
  growing := by
    simp only [addDrain, enqueue, called, List.map_append, List.map_cons, List.map_nil]
    refine List.pairwise_append.mpr ⟨h.growing, List.pairwise_singleton _ _, ?_⟩
    intro gen hgen n hn
    obtain ⟨d, hd, rfl⟩ := List.mem_map.mp hgen
    rw [List.mem_singleton.mp hn]
    exact Nat.lt_succ_of_le (h.bound d hd)
  bound d hd := by
    rcases List.mem_append.mp hd with hd | hd
    · exact Nat.le_succ_of_le (h.bound d hd)
    · rw [List.mem_singleton.mp hd]
      exact Nat.le_refl _
  draining := ⟨fun _ => ⟨s.drains.length, _, Tasks.append_self _ _, Phase.noConfusion, rfl⟩,
    fun _ => rfl⟩
  nonempty _ := rfl

theorem loop {dc gen : Nat} {turns : List Turn} {phase : Phase} (h : Drains s)
    (hloop : drainLoop drainThreshold dc gen s turns = some (t, phase)) :
    Drains t ∧ t.drains = s.drains ∧ (phase = .done ∧ (gen = t.drainGeneration → t.queue = []) ∨
      phase = .waiting ∧ gen = t.drainGeneration) := by
  have hall := drainLoop_induct (I := fun t => Drains t ∧ t.drains = s.drains) hloop ⟨h, rfl⟩ ?_
  · exact ⟨hall.1.1, hall.1.2, hall.2⟩
  · rintro u item rest thrown ⟨hu, hdrains⟩ hq -
    have hdraining := hu.nonempty (by rw [hq]; exact List.cons_ne_nil _ _)
    cases thrown with
    | none => exact ⟨⟨hu.growing, hu.bound, hu.draining, fun _ => hdraining⟩, hdrains⟩
    | some err => exact ⟨⟨hu.growing, hu.bound, hu.draining, fun _ => hdraining⟩, hdrains⟩

/-- A drain takes another phase. -/
theorem set {i : Nat} {d : Drain} (h : Drains s) (hd : s.drains[i]? = some d) (phase : Phase) :
    ((s.drains.set i { d with phase }).map (·.gen)).Pairwise (· < ·) ∧
      ∀ e ∈ s.drains.set i { d with phase }, e.gen ≤ s.drainGeneration := by
  have hgens : (s.drains.set i { d with phase }).map (·.gen) = s.drains.map (·.gen) :=
    Tasks.map_set hd rfl
  refine ⟨hgens ▸ h.growing, ?_⟩
  intro e he
  rcases Tasks.mem_set he with rfl | ⟨j, -, hj⟩
  · exact h.bound d (List.mem_of_getElem? hd)
  · exact h.bound e (List.mem_of_getElem? hj)

theorem leave {i : Nat} {d : Drain} {phase : Phase} (h : Drains s) (hd : s.drains[i]? = some d)
    (halive : d.phase ≠ .done)
    (hphase : phase = .done ∧ (d.gen = s.drainGeneration → s.queue = []) ∨
      phase = .waiting ∧ d.gen = s.drainGeneration) : Drains (s.leave i d phase) := by
  obtain ⟨hgrowing, hbound⟩ := h.set hd phase
  have hdone : ∀ {j e}, (s.drains.set i { d with phase })[j]? = some e → e.phase ≠ .done →
      phase = .done → j ≠ i ∧ s.drains[j]? = some e := by
    intro j e he hne hphase
    rcases Tasks.get_set he with ⟨-, rfl⟩ | hother
    · exact absurd hphase hne
    · exact hother
  rcases hphase with ⟨rfl, hempty⟩ | ⟨rfl, hgen⟩
  · by_cases hgen : d.gen = s.drainGeneration
    · -- the current drain ends, with an empty queue
      refine ⟨hgrowing, hbound, ?_, fun hne => absurd (hempty hgen) hne⟩
      have hleave : (s.leave i d .done).draining = false := if_pos ⟨rfl, hgen⟩
      rw [hleave]
      refine ⟨fun hdraining => Bool.noConfusion hdraining, ?_⟩
      rintro ⟨j, e, he, hne, hegen⟩
      obtain ⟨hji, hj⟩ := hdone he hne rfl
      exact absurd (h.eq_of_gen hj hd (hegen.trans hgen.symm)) hji
    · -- an old one ends, which changes nothing for the current one
      have hleave : (s.leave i d .done).draining = s.draining := if_neg fun hc => hgen hc.2
      refine ⟨hgrowing, hbound, ?_, fun hne => hleave.trans (h.nonempty hne)⟩
      rw [hleave, h.draining]
      constructor
      · rintro ⟨j, e, he, hne, hegen⟩
        have hji : j ≠ i := by
          rintro rfl
          obtain rfl : d = e := Option.some.inj (hd.symm.trans he)
          exact hgen hegen
        exact ⟨j, e, Tasks.get_set_of_ne hji he, hne, hegen⟩
      · rintro ⟨j, e, he, hne, hegen⟩
        exact ⟨j, e, (hdone he hne rfl).2, hne, hegen⟩
  · -- the current drain waits
    have hdraining : s.draining = true := h.draining.mpr ⟨i, d, hd, halive, hgen⟩
    have hleave : (s.leave i d .waiting).draining = s.draining := rfl
    refine ⟨hgrowing, hbound, ?_, fun hne => hleave.trans (h.nonempty hne)⟩
    rw [hleave, hdraining]
    exact ⟨fun _ => ⟨i, _, Tasks.set_self hd _, Phase.noConfusion, hgen⟩, fun _ => rfl⟩

theorem runDrain {i : Nat} {turns : List Turn} (h : Drains s)
    (hrun : s.runDrain drainThreshold i turns = some t) : Drains t := by
  obtain ⟨d, u, phase, hd, hwoken, hloop, rfl⟩ := runDrain_eq hrun
  obtain ⟨hu, hdrains, hphase⟩ := h.loop hloop
  exact hu.leave (hdrains ▸ hd) (hwoken ▸ Phase.noConfusion) hphase

theorem finish {i : Nat} (h : Drains s) (hfinish : s.finish i = some t) : Drains t := by
  obtain ⟨d, hd, hwaiting, rfl⟩ := finish_eq hfinish
  obtain ⟨hgrowing, hbound⟩ := h.set hd .woken
  refine ⟨hgrowing, hbound, h.draining.trans ⟨?_, ?_⟩, h.nonempty⟩
  · rintro ⟨j, e, he, hne, hgen⟩
    by_cases hji : j = i
    · subst hji
      obtain rfl : d = e := Option.some.inj (hd.symm.trans he)
      exact ⟨j, _, Tasks.set_self hd _, Phase.noConfusion, hgen⟩
    · exact ⟨j, e, Tasks.get_set_of_ne hji he, hne, hgen⟩
  · rintro ⟨j, e, he, hne, hgen⟩
    rcases Tasks.get_set he with ⟨rfl, rfl⟩ | ⟨-, he⟩
    · exact ⟨j, d, hd, hwaiting ▸ Phase.noConfusion, hgen⟩
    · exact ⟨j, e, he, hne, hgen⟩

end Drains

/-! ### Every run -/

section Runs

variable {highWaterMark drainThreshold} {s t : BackpressureQueue}

theorem Accounts.runDrain {i : Nat} {turns : List Turn} (h : Accounts s)
    (hrun : s.runDrain drainThreshold i turns = some t) : Accounts t := by
  obtain ⟨d, u, phase, -, -, hloop, rfl⟩ := runDrain_eq hrun
  have hu := (drainLoop_induct hloop h fun s item rest thrown hs hq _ =>
    hs.dcSend hq d.dc thrown Thrown.drained).1
  exact ⟨hu.pendingBytes, hu.inOrder, hu.once, hu.queued, hu.passed, hu.outcomes, hu.resolved⟩

theorem Accounts.step {e : QueueEvent} (h : Accounts s)
    (hs : step highWaterMark drainThreshold s e = some t) : Accounts t := by
  cases e with
  | send payload dc reading turns =>
    rcases send_cases hs with rfl | ⟨-, -, rfl⟩ | ⟨-, hrun⟩ | ⟨hq, rfl⟩
    · exact h.refused payload dc _
    · exact h.enqueued payload dc
    · have hq := h.enqueued payload dc
      have hstart : Accounts
          (((s.called payload dc).enqueue s.calls.length payload).addDrain dc) :=
        ⟨hq.pendingBytes, hq.inOrder, hq.once, hq.queued, hq.passed, hq.outcomes, hq.resolved⟩
      exact hstart.runDrain hrun
    · exact h.direct hq payload dc _ _
  | clear =>
    obtain rfl := Option.some.inj hs
    have hall := h.rejectAll queueCleared none
    exact ⟨hall.pendingBytes, hall.inOrder, hall.once, hall.queued, hall.passed, hall.outcomes,
      hall.resolved⟩
  | onClose i =>
    obtain ⟨d, -, -, rfl⟩ := onClose_eq hs
    exact h.rejectAll dcClosed (some d.dc)
  | finish i =>
    obtain ⟨d, -, -, rfl⟩ := finish_eq hs
    exact ⟨h.pendingBytes, h.inOrder, h.once, h.queued, h.passed, h.outcomes, h.resolved⟩
  | resume i turns => exact h.runDrain hs

theorem Drains.step {e : QueueEvent} (h : Drains s)
    (hs : step highWaterMark drainThreshold s e = some t) : Drains t := by
  cases e with
  | send payload dc reading turns =>
    rcases send_cases hs with rfl | ⟨-, hdraining, rfl⟩ | ⟨-, hrun⟩ | ⟨hq, rfl⟩
    · exact ⟨h.growing, h.bound, h.draining, h.nonempty⟩
    · exact ⟨h.growing, h.bound, h.draining, fun _ => hdraining⟩
    · exact (h.started payload dc s.calls.length).runDrain hrun
    · cases reading.thrown with
      | none => exact ⟨h.growing, h.bound, h.draining, h.nonempty⟩
      | some err => exact ⟨h.growing, h.bound, h.draining, h.nonempty⟩
  | clear =>
    obtain rfl := Option.some.inj hs
    exact h.clear
  | onClose i =>
    obtain ⟨d, -, -, rfl⟩ := onClose_eq hs
    exact h.rejectAll dcClosed (some d.dc)
  | finish i => exact h.finish hs
  | resume i turns => exact h.runDrain hs

theorem Sound.of_invariants (h : Accounts s) (hd : Drains s) : Sound s where
  pendingBytes := h.pendingBytes
  drained hne := by
    have hdraining := hd.nonempty hne
    obtain ⟨i, hi⟩ := hd.draining.mp hdraining
    exact ⟨hdraining, i, hi, fun j hj => hd.unique hj hi⟩
  passedOnce := (List.pairwise_append.mp h.inOrder).1.imp Nat.ne_of_lt
  inOrder := (List.pairwise_append.mp h.inOrder).1
  payloads := h.passed
  settledOnce := (List.nodup_append.mp (h.once.nodup_iff.mpr List.nodup_range)).2.1
  resolved := h.resolved
  rejected x hx hout p hp hid := by
    have hnodup := (List.nodup_append.mp (h.once.nodup_iff.mpr List.nodup_range)).2.1
    obtain ⟨y, hy, hyid, hyout⟩ := h.outcomes p hp
    obtain rfl : y = x := List.inj_on_of_nodup_map hnodup hy hx (hyid.trans hid)
    rcases hyout with hyout | ⟨message, hyout⟩
    · rcases hout with hout | hout <;> exact Outcome.noConfusion (hyout.symm.trans hout)
    · have hcode : "SEND_FAILED" ≠ queueCleared.code ∧ "SEND_FAILED" ≠ dcClosed.code := by decide
      rcases hout with hout | hout
      · have herr := Outcome.rejected.inj (hyout.symm.trans hout)
        exact hcode.1 (congrArg ExtensionError.code herr)
      · have herr := Outcome.rejected.inj (hyout.symm.trans hout)
        exact hcode.2 (congrArg ExtensionError.code herr)

/-- Every run of the queue, whatever the channel says and whichever drains are still about. -/
theorem sound_of_run {es : List QueueEvent} (h : Run highWaterMark drainThreshold {} es s) :
    s.Sound := by
  have hboth : Accounts s ∧ Drains s := by
    refine h.invariant_all (I := fun s => Accounts s ∧ Drains s) ⟨.init, .init⟩ ?_
    intro s e t hs hstep
    exact ⟨hs.1.step hstep, hs.2.step hstep⟩
  exact .of_invariants hboth.1 hboth.2

/-- Two bytes out of four. -/
def samplePayload : Uint8Array := ⟨[9, 1, 2, 9], 1, 2, by decide⟩

/-- The drain of two cleared payloads wakes up beside that of a third one. -/
def clearedRun : List QueueEvent :=
  [.send samplePayload 0 ⟨true, 100, none⟩ [⟨100, none⟩],
    .send samplePayload 0 ⟨true, 100, none⟩ [], .clear,
    .send samplePayload 0 ⟨true, 100, none⟩ [⟨100, none⟩], .finish 0, .resume 0 [], .finish 1,
    .resume 1 [⟨0, none⟩]]

theorem sound_of_run_cleared : ∃ s, Run 10 5 {} clearedRun s ∧ s.passed = [⟨2, 0, [1, 2], none⟩] ∧
    s.settled = [⟨0, .rejected queueCleared, none⟩, ⟨1, .rejected queueCleared, none⟩,
      ⟨2, .resolved, none⟩] ∧ s.Sound := by
  obtain ⟨s, hrun, hs⟩ : ∃ s, Run 10 5 {} clearedRun s ∧
      (decide (s.passed = [⟨2, 0, [1, 2], none⟩]) && decide (s.settled =
        [⟨0, .rejected queueCleared, none⟩, ⟨1, .rejected queueCleared, none⟩,
          ⟨2, .resolved, none⟩])) = true := Machine.exists_run_with (by decide +kernel)
  rw [Bool.and_eq_true, decide_eq_true_iff, decide_eq_true_iff] at hs
  exact ⟨s, hrun, hs.1, hs.2, sound_of_run hrun⟩

end Runs

end BackpressureQueue

end SmartIdVault.Backpressure
