import Mathlib.Data.List.Destutter
import Mathlib.Data.List.Forall2
import SmartIdVault.NativeHost.Discovery
import SmartIdVault.NativeHost.Steps

/-! The process around the session: the goroutine that reads requests from stdin and dispatches
them, and the hotplug monitor.  A request is read when the one before it has been answered, while
the monitor and the read loops go on. -/

namespace SmartIdVault.NativeHost

/-! ### What the handlers of the session write -/

namespace Host

/-- The handler has ended, and has written the result of its request, after a message that a device
has been connected at most. -/
structure Answers (s t : Host) (type : MsgType) : Prop where
  idle : t.handler = .idle
  replied : ∃ ms m, t.written = s.written ++ (ms ++ [m]).map (Prod.mk Source.stdin) ∧
    (∀ x ∈ ms, x.type = .usbConnected) ∧ m.type = type

variable {gcm : Gcm} {s t : Host} {type : MsgType}

theorem Answers.one {msg : Message} (hidle : t.handler = .idle)
    (h : t.written = s.written ++ [(.stdin, msg)]) (htype : msg.type = type) : s.Answers t type :=
  ⟨hidle, [], msg, h, by simp, htype⟩

theorem answers_connectOpen (hidle : t.handler = .idle) (h : t.written = s.written)
    (opened : Except String Unit) (kex : Kex) :
    s.Answers (t.connectOpen opened kex) .connectResult := by
  cases opened with
  | error e => exact .one hidle (congrArg (· ++ _) h) rfl
  | ok _ =>
    cases kex with
    | failed e => exact .one hidle (congrArg (· ++ _) h) rfl
    | established key =>
      refine ⟨hidle, [{ type := .usbConnected }], result .connectResult true "", ?_, by simp, rfl⟩
      simp [connectOpen, write, startReadLoop, newSession, h]

/-- `connect` answers, or sleeps while the device re-enumerates. -/
theorem answers_connect (hidle : s.handler = .idle)
    (enumerated : Except String (List UsbDevice)) (negotiated opened : Except String Unit)
    (kex : Kex) :
    s.Answers (s.connect enumerated negotiated opened kex) .connectResult ∨
      s.connect enumerated negotiated opened kex = { s with handler := .reenumerating } := by
  unfold connect
  split
  · exact .inl (.one hidle rfl rfl)
  cases enumerated with
  | error e => exact .inl (.one hidle rfl rfl)
  | ok devs =>
    simp only
    split
    · exact .inl (.one hidle rfl rfl)
    · split
      · exact .inl (answers_connectOpen hidle rfl opened kex)
      · cases negotiated with
        | error e => exact .inl (.one hidle rfl rfl)
        | ok _ => exact .inr rfl

theorem answers_connectResume (s : Host) (enumerated : Except String (List UsbDevice))
    (opened : Except String Unit) (kex : Kex) :
    s.Answers (s.connectResume enumerated opened kex) .connectResult := by
  unfold connectResume
  cases enumerated with
  | error e => exact .one rfl rfl rfl
  | ok devs =>
    simp only
    split
    · exact .one rfl rfl rfl
    · exact answers_connectOpen (s := s) (t := { s with handler := .idle }) rfl rfl opened kex

theorem answers_sendPayload (hidle : s.handler = .idle) (data : List Char) (usb : UsbWrite) :
    s.Answers (s.sendPayload gcm data usb) .sendResult := by
  unfold sendPayload
  split
  · exact .one hidle rfl rfl
  split
  · exact .one hidle rfl rfl
  split
  · exact .one hidle rfl rfl
  split
  · exact .one hidle rfl rfl
  unfold sealAndWrite
  simp only
  split
  · exact .one hidle rfl rfl
  · split
    · exact .one hidle rfl rfl
    · exact .one hidle rfl rfl

theorem answers_disconnect (hidle : s.handler = .idle) :
    s.Answers (s.closeLocked.write .stdin (result .disconnectResult true ""))
      .disconnectResult := by
  rw [closeLocked_eq]
  exact .one hidle rfl rfl

/-- `rekey` answers, or goes on to its key exchange. -/
theorem answers_rekeyBegin (hidle : s.handler = .idle) :
    s.Answers s.rekeyBegin .rekeyResult ∨
      s.rekeyBegin.written = s.written ∧ s.rekeyBegin.handler.isExchanging = true := by
  unfold rekeyBegin
  split
  · exact .inl (.one hidle rfl rfl)
  · split
    · rw [stopReadLoop_eq]
      exact .inr ⟨rfl, rfl⟩
    · exact .inl (.one hidle rfl rfl)

theorem answers_rekeyFinish (s : Host) (usbRW : Handle) (old : SessionId) (kex : Kex)
    (flushed : Option Bytes) : s.Answers (s.rekeyFinish usbRW old kex flushed) .rekeyResult := by
  cases kex with
  | failed e =>
    simp only [rekeyFinish]
    split
    · cases flushed <;> exact .one rfl rfl rfl
    · exact .one rfl rfl rfl
  | established key =>
    simp only [rekeyFinish]
    split
    · exact .one rfl rfl rfl
    · exact .one rfl rfl rfl

/-- A step of the stdin goroutine answers a request or writes nothing. -/
theorem answers_of_step {e : Event} (hloop : ∀ i a, e ≠ .loop i a) (hclose : e ≠ .hotplugClose)
    (h : s.step gcm e = some t) : (∃ type, s.Answers t type) ∨ t.written = s.written := by
  cases e with
  | connect enumerated negotiated opened kex =>
    simp only [step, Option.ite_none_right_eq_some, Option.some.injEq] at h
    obtain ⟨hidle, rfl⟩ := h
    obtain hanswers | hsleeps := answers_connect hidle enumerated negotiated opened kex
    · exact .inl ⟨_, hanswers⟩
    · exact .inr (by rw [hsleeps])
  | connectResume enumerated opened kex =>
    simp only [step, Option.ite_none_right_eq_some, Option.some.injEq] at h
    obtain ⟨-, rfl⟩ := h
    exact .inl ⟨_, answers_connectResume ..⟩
  | sendPayload data usb =>
    simp only [step, Option.ite_none_right_eq_some, Option.some.injEq] at h
    obtain ⟨hidle, rfl⟩ := h
    exact .inl ⟨_, answers_sendPayload hidle data usb⟩
  | disconnect =>
    simp only [step, Option.ite_none_right_eq_some, Option.some.injEq] at h
    obtain ⟨hidle, rfl⟩ := h
    exact .inl ⟨_, answers_disconnect hidle⟩
  | rekeyBegin =>
    simp only [step, Option.ite_none_right_eq_some, Option.some.injEq] at h
    obtain ⟨hidle, rfl⟩ := h
    exact (answers_rekeyBegin hidle).imp (fun h => ⟨_, h⟩) And.left
  | kexRead packet =>
    simp only [step] at h
    split at h
    · cases h
      exact .inr rfl
    · cases h
  | rekeyFinish kex flushed =>
    simp only [step] at h
    split at h
    · cases h
      exact .inl ⟨_, answers_rekeyFinish ..⟩
    · cases h
  | hotplugClose => exact absurd rfl hclose
  | loop i a => exact absurd rfl (hloop i a)

/-- The messages of a step of a read loop are its own. -/
theorem written_loopStep {i : LoopId} {a : LoopAction} (h : s.loopStep gcm i a = some t) :
    t.handler = s.handler ∧
      (t.written = s.written ∨ ∃ msg, t.written = s.written ++ [(.loop i, msg)]) := by
  cases loopStep_effect h with
  | polled | copied | received | readAgain | readGone | advanced | dropped | writeFailed =>
    exact ⟨rfl, .inl rfl⟩
  | left l w hl hp hw =>
    refine ⟨rfl, ?_⟩
    rcases hw with rfl | rfl
    · exact .inl rfl
    · exact .inr ⟨_, rfl⟩
  | wrote l msg hl hp => exact ⟨rfl, .inr ⟨msg, rfl⟩⟩
  | closed hw he => rcases he with he | he <;> cases he

end Host

/-! ### The process -/

/-- A message that is read from stdin, with what the environment decides in the course of its
handler. -/
inductive Request
  | ping
  | getStatus
  | connect (enumerated : Except String (List UsbDevice)) (negotiated opened : Except String Unit)
      (kex : Kex)
  | sendPayload (data : List Char) (usb : UsbWrite)
  | disconnect
  | rekey
  -- a type that no handler is registered for
  | unknown (type : String)

/-- What `Dispatch` returns; `status` is what the payload says besides the latency. -/
inductive Reply
  | pong
  | status (connected : Bool)
  | unknownType (type : String)
  | handled (msg : Message)
  deriving DecidableEq, Repr

/-- The types of the results. -/
def Request.result : Request → Option MsgType
  | .connect _ _ _ _ => some .connectResult
  | .sendPayload _ _ => some .sendResult
  | .disconnect => some .disconnectResult
  | .rekey => some .rekeyResult
  | .ping | .getStatus | .unknown _ => none

/-- The reply is one to the request. -/
def Request.AnsweredBy (r : Request) : Reply → Prop
  | .pong => r = .ping
  | .status _ => r = .getStatus
  | .unknownType type => r = .unknown type
  | .handled msg => r.result = some msg.type

/-- The session with the requests that have been read and the replies that have been written, and
the hotplug monitor with what its polls have found. -/
structure Process where
  host : Host := {}
  requests : List Request := []
  replies : List Reply := []
  wasConnected : Bool := false
  polls : List Bool := []

inductive ProcessEvent
  | read (r : Request)
  -- the handler of `connect` or `rekey` goes on
  | connectResume (enumerated : Except String (List UsbDevice)) (opened : Except String Unit)
      (kex : Kex)
  | kexRead (packet : Bytes)
  | rekeyFinish (kex : Kex) (flushed : Option Bytes)
  | tick (devs : List BusDevice)
  | loop (i : LoopId) (a : Host.LoopAction)

namespace Process

variable (gcm : Gcm)

/-- What the goroutine has written to stdout since `s`, less the message that a device has been
connected. -/
def repliesSince (s t : Host) : List Reply :=
  (t.written.drop s.written.length).filterMap fun w =>
    if w.1 = .stdin ∧ w.2.type ≠ .usbConnected then some (.handled w.2) else none

/-- The handler of the request goes one step. -/
def dispatch (s : Process) (e : Host.Event) : Option Process :=
  (s.host.step gcm e).map fun host =>
    { s with host, replies := s.replies ++ repliesSince s.host host }

def reply (s : Process) (r : Reply) : Process := { s with replies := s.replies ++ [r] }

/-- A turn of `poll`. -/
def poll (s : Process) (devs : List BusDevice) : Process :=
  match (Bus.findAccessoryDevice {} devs "").1 with
  | .error _ => s
  | .ok dev =>
    let isConnected := dev.isSome
    { s with
      host :=
        if isConnected ∧ !s.wasConnected then s.host.write .hotplug { type := .usbConnected }
        else if !isConnected ∧ s.wasConnected then
          s.host.closeLocked.write .hotplug { type := .usbDisconnected }
        else s.host
      wasConnected := isConnected
      polls := s.polls ++ [isConnected] }

def step (s : Process) : ProcessEvent → Option Process
  | .read r =>
    if s.host.handler = .idle then
      let s := { s with requests := s.requests ++ [r] }
      match r with
      | .ping => some (s.reply .pong)
      | .getStatus => some (s.reply (.status s.host.connected))
      | .unknown type => some (s.reply (.unknownType type))
      | .connect enumerated negotiated opened kex =>
        s.dispatch gcm (.connect enumerated negotiated opened kex)
      | .sendPayload data usb => s.dispatch gcm (.sendPayload data usb)
      | .disconnect => s.dispatch gcm .disconnect
      | .rekey => s.dispatch gcm .rekeyBegin
    else none
  | .connectResume enumerated opened kex => s.dispatch gcm (.connectResume enumerated opened kex)
  | .kexRead packet => s.dispatch gcm (.kexRead packet)
  | .rekeyFinish kex flushed => s.dispatch gcm (.rekeyFinish kex flushed)
  | .tick devs => some (s.poll devs)
  | .loop i a => (s.host.step gcm (.loop i a)).map fun host => { s with host }

abbrev Run : Process → List ProcessEvent → Process → Prop := Machine.Run (step gcm)

/-- The messages of the hotplug callback: whether each says that a device has been connected. -/
def announced (s : Process) : List Bool :=
  (s.host.written.filter (·.1 = .hotplug)).map (·.2.type = .usbConnected)

/-- The changes in what the polls find, from no device on. -/
def changes (polls : List Bool) : List Bool := (polls.destutter' (· ≠ ·) false).tail

/-- The handler still works on these requests. -/
def Awaited : HandlerPc → List Request → Prop
  | .idle, rs => rs = []
  | .reenumerating, rs => ∃ r, rs = [r] ∧ r.result = some .connectResult
  | .exchanging _ _ _, rs => ∃ r, rs = [r] ∧ r.result = some .rekeyResult

/-- Every request has one reply, in order, except that the handler still works on the last one. -/
def Answered (s : Process) : Prop :=
  ∃ done rest, s.requests = done ++ rest ∧ List.Forall₂ Request.AnsweredBy done s.replies ∧
    Awaited s.host.handler rest

/-- The hotplug callback has announced the changes in what the polls have found. -/
structure Monitored (s : Process) : Prop where
  wasConnected : s.wasConnected = s.polls.getLastD false
  announced : s.announced = changes s.polls

theorem destutter'_append_singleton {α : Type*} [DecidableEq α] (a b : α) (l : List α) :
    (l ++ [b]).destutter' (· ≠ ·) a =
      l.destutter' (· ≠ ·) a ++ if l.getLastD a = b then [] else [b] := by
  induction l generalizing a with
  | nil => by_cases h : a = b <;> simp [h]
  | cons c l ih =>
    rw [List.cons_append, List.getLastD_cons]
    by_cases h : a = c
    · rw [List.destutter'_cons_neg _ (not_not.mpr h), List.destutter'_cons_neg _ (not_not.mpr h),
        ih, h]
    · rw [List.destutter'_cons_pos _ h, List.destutter'_cons_pos _ h, ih, List.cons_append]

theorem changes_append_singleton (polls : List Bool) (b : Bool) :
    changes (polls ++ [b]) = changes polls ++ if polls.getLastD false = b then [] else [b] := by
  rw [changes, destutter'_append_singleton, List.tail_append_of_ne_nil]
  · rfl
  · exact List.destutter'_ne_nil _ _

variable {gcm} {s t : Process} {host : Host} {type : MsgType} {done : List Request} {r : Request}

theorem repliesSince_of_answers (h : s.host.Answers host type) (htype : type ≠ .usbConnected) :
    ∃ m : Message, m.type = type ∧ repliesSince s.host host = [.handled m] := by
  obtain ⟨-, ms, m, hwritten, hms, rfl⟩ := h
  refine ⟨m, rfl, ?_⟩
  have hnone : (ms.map (Prod.mk Source.stdin)).filterMap (fun w : Source × Message =>
      if w.1 = .stdin ∧ w.2.type ≠ .usbConnected then some (Reply.handled w.2) else none) = [] := by
    rw [List.filterMap_eq_nil_iff]
    intro w hw
    obtain ⟨x, hx, rfl⟩ := List.mem_map.mp hw
    simp [hms x hx]
  rw [repliesSince, hwritten, List.drop_left, List.map_append, List.filterMap_append, hnone]
  simp [htype]

theorem announced_of_answers (h : s.host.Answers host type) :
    ({ s with host } : Process).announced = s.announced := by
  obtain ⟨-, ms, m, hwritten, -⟩ := h
  have hnone : ((ms ++ [m]).map (Prod.mk Source.stdin)).filter
      (fun w : Source × Message => w.1 = .hotplug) = [] := by
    rw [List.filter_eq_nil_iff]
    intro w hw
    obtain ⟨x, -, rfl⟩ := List.mem_map.mp hw
    simp
  simp only [announced, hwritten, List.filter_append, hnone, List.append_nil]

/-- A handler that answers ends the work on the last request. -/
theorem answered_of_answers (hrequests : s.requests = done ++ [r])
    (hdone : List.Forall₂ Request.AnsweredBy done s.replies) (h : s.host.Answers host type)
    (htype : r.result = some type) (hne : type ≠ .usbConnected) :
    Answered { s with host, replies := s.replies ++ repliesSince s.host host } := by
  obtain ⟨m, rfl, hreplies⟩ := repliesSince_of_answers h hne
  refine ⟨done ++ [r], [], by simpa using hrequests, ?_, ?_⟩
  · rw [hreplies]
    exact List.rel_append hdone (.cons htype .nil)
  · simp only [h.idle]
    rfl

/-- A handler that goes on without writing still works on the last request. -/
theorem answered_of_waits (hrequests : s.requests = done ++ [r])
    (hdone : List.Forall₂ Request.AnsweredBy done s.replies)
    (hwritten : host.written = s.host.written) (hawaited : Awaited host.handler [r]) :
    Answered { s with host, replies := s.replies ++ repliesSince s.host host } := by
  refine ⟨done, [r], hrequests, ?_, hawaited⟩
  have hnone : repliesSince s.host host = [] := by simp [repliesSince, hwritten]
  rw [hnone, List.append_nil]
  exact hdone

/-- What a request does to an orderly process that is ready to read it. -/
theorem Answered.read (hs : s.Answered) (h : s.step gcm (.read r) = some t) : t.Answered := by
  simp only [Process.step, Option.ite_none_right_eq_some] at h
  obtain ⟨hidle, h⟩ := h
  obtain ⟨done, rest, hrequests, hdone, hawaited⟩ := hs
  rw [hidle] at hawaited
  obtain rfl : rest = [] := hawaited
  rw [List.append_nil] at hrequests
  subst hrequests
  have immediate {answer : Reply}
      (h : some (({ s with requests := s.requests ++ [r] } : Process).reply answer) = some t)
      (hanswer : r.AnsweredBy answer) : t.Answered := by
    cases h
    refine ⟨s.requests ++ [r], [], (List.append_nil _).symm,
      List.rel_append hdone (.cons hanswer .nil), ?_⟩
    simp only [Process.reply, hidle]
    rfl
  have answered {host : Host} {type : MsgType} (h : s.host.Answers host type)
      (htype : r.result = some type) (hne : type ≠ .usbConnected) :
      Answered { s with
        host
        requests := s.requests ++ [r]
        replies := s.replies ++ repliesSince s.host host } :=
    answered_of_answers (s := { s with requests := s.requests ++ [r] }) rfl hdone h htype hne
  cases r with
  | ping => exact immediate h rfl
  | getStatus => exact immediate h rfl
  | unknown type => exact immediate h rfl
  | connect enumerated negotiated opened kex =>
    obtain ⟨host, hstep, rfl⟩ := Option.map_eq_some_iff.mp h
    simp only [Host.step, hidle, if_true, Option.some.injEq] at hstep
    subst hstep
    obtain hanswers | hsleeps := Host.answers_connect hidle enumerated negotiated opened kex
    · exact answered hanswers rfl (by decide)
    · rw [hsleeps]
      exact answered_of_waits (s := { s with requests := s.requests ++ [_] }) rfl hdone rfl
        ⟨_, rfl, rfl⟩
  | sendPayload data usb =>
    obtain ⟨host, hstep, rfl⟩ := Option.map_eq_some_iff.mp h
    simp only [Host.step, hidle, if_true, Option.some.injEq] at hstep
    subst hstep
    exact answered (Host.answers_sendPayload hidle data usb) rfl (by decide)
  | disconnect =>
    obtain ⟨host, hstep, rfl⟩ := Option.map_eq_some_iff.mp h
    simp only [Host.step, hidle, if_true, Option.some.injEq] at hstep
    subst hstep
    exact answered (Host.answers_disconnect hidle) rfl (by decide)
  | rekey =>
    obtain ⟨host, hstep, rfl⟩ := Option.map_eq_some_iff.mp h
    simp only [Host.step, hidle, if_true, Option.some.injEq] at hstep
    subst hstep
    obtain hanswers | ⟨hwritten, hexchanging⟩ := Host.answers_rekeyBegin hidle
    · exact answered hanswers rfl (by decide)
    · refine answered_of_waits (s := { s with requests := s.requests ++ [_] }) rfl hdone hwritten ?_
      generalize s.host.rekeyBegin.handler = handler at hexchanging
      cases handler with
      | exchanging usbRW old got => exact ⟨_, rfl, rfl⟩
      | idle | reenumerating => cases hexchanging

theorem announced_write_loop {i : LoopId} {msg : Message}
    (hwritten : host.written = s.host.written ++ [(.loop i, msg)]) :
    ({ s with host } : Process).announced = s.announced := by
  simp [announced, hwritten]

theorem announced_of_written (hwritten : host.written = s.host.written) :
    ({ s with host } : Process).announced = s.announced := by
  simp only [announced, hwritten]

/-- A poll announces the change that it finds. -/
theorem Monitored.poll (hs : s.Monitored) (devs : List BusDevice) : (s.poll devs).Monitored := by
  unfold Process.poll
  cases (Bus.findAccessoryDevice {} devs "").1 with
  | error e => exact hs
  | ok dev =>
    refine ⟨(List.getLastD_concat ..).symm, ?_⟩
    rw [changes_append_singleton, ← hs.announced, ← hs.wasConnected]
    cases dev with
    | none =>
      cases hwas : s.wasConnected with
      | false => simp [Process.announced]
      | true => simp [Process.announced, Host.closeLocked_eq, Host.write]
    | some d =>
      cases hwas : s.wasConnected with
      | false => simp [Process.announced, Host.write]
      | true => simp [Process.announced]

theorem handler_poll (s : Process) (devs : List BusDevice) :
    (s.poll devs).host.handler = s.host.handler := by
  unfold Process.poll
  cases (Bus.findAccessoryDevice {} devs "").1 with
  | error e => rfl
  | ok dev =>
    simp only
    split
    · rfl
    · split
      · simp [Host.closeLocked_eq, Host.write]
      · rfl

theorem requests_poll (s : Process) (devs : List BusDevice) :
    (s.poll devs).requests = s.requests ∧ (s.poll devs).replies = s.replies := by
  unfold Process.poll
  cases (Bus.findAccessoryDevice {} devs "").1 with
  | error e => exact ⟨rfl, rfl⟩
  | ok dev => exact ⟨rfl, rfl⟩

/-- What one event keeps of the requests. -/
theorem Answered.step {e : ProcessEvent} (hs : s.Answered) (h : s.step gcm e = some t) :
    t.Answered := by
  cases e with
  | read r => exact hs.read h
  | connectResume enumerated opened kex =>
    obtain ⟨host, hstep, rfl⟩ := Option.map_eq_some_iff.mp h
    simp only [Host.step, Option.ite_none_right_eq_some, Option.some.injEq] at hstep
    obtain ⟨hhandler, rfl⟩ := hstep
    obtain ⟨done, rest, hrequests, hdone, hawaited⟩ := hs
    rw [hhandler] at hawaited
    obtain ⟨r, rfl, htype⟩ := hawaited
    exact answered_of_answers hrequests hdone (Host.answers_connectResume _ _ _ _) htype (by decide)
  | kexRead packet =>
    obtain ⟨host, hstep, rfl⟩ := Option.map_eq_some_iff.mp h
    simp only [Host.step] at hstep
    split at hstep
    next usbRW old got hhandler =>
      cases hstep
      obtain ⟨done, rest, hrequests, hdone, hawaited⟩ := hs
      rw [hhandler] at hawaited
      obtain ⟨r, rfl, htype⟩ := hawaited
      exact answered_of_waits hrequests hdone rfl ⟨r, rfl, htype⟩
    next => cases hstep
  | rekeyFinish kex flushed =>
    obtain ⟨host, hstep, rfl⟩ := Option.map_eq_some_iff.mp h
    simp only [Host.step] at hstep
    split at hstep
    next usbRW old got hhandler =>
      cases hstep
      obtain ⟨done, rest, hrequests, hdone, hawaited⟩ := hs
      rw [hhandler] at hawaited
      obtain ⟨r, rfl, htype⟩ := hawaited
      exact answered_of_answers hrequests hdone (Host.answers_rekeyFinish _ _ _ _ _) htype
        (by decide)
    next => cases hstep
  | tick devs =>
    cases h
    obtain ⟨done, rest, hrequests, hdone, hawaited⟩ := hs
    obtain ⟨hreq, hrep⟩ := s.requests_poll devs
    exact ⟨done, rest, hreq.trans hrequests, hrep ▸ hdone, s.handler_poll devs ▸ hawaited⟩
  | loop i a =>
    obtain ⟨host, hstep, rfl⟩ := Option.map_eq_some_iff.mp h
    obtain ⟨done, rest, hrequests, hdone, hawaited⟩ := hs
    obtain ⟨hhandler, -⟩ := Host.written_loopStep hstep
    exact ⟨done, rest, hrequests, hdone, hhandler ▸ hawaited⟩

/-- What one event keeps of the monitor's messages. -/
theorem Monitored.step {e : ProcessEvent} (hs : s.Monitored) (h : s.step gcm e = some t) :
    t.Monitored := by
  have same {u : Process} (hu : u.wasConnected = s.wasConnected) (hpolls : u.polls = s.polls)
      (hannounced : u.announced = s.announced) : u.Monitored :=
    ⟨by rw [hu, hpolls]; exact hs.wasConnected, by rw [hannounced, hpolls]; exact hs.announced⟩
  have dispatched {u : Process} {e : Host.Event} (hhost : u.host = s.host)
      (hu : u.wasConnected = s.wasConnected) (hpolls : u.polls = s.polls)
      (h : u.dispatch gcm e = some t) (hloop : ∀ i a, e ≠ .loop i a) (hclose : e ≠ .hotplugClose) :
      t.Monitored := by
    obtain ⟨host, hstep, rfl⟩ := Option.map_eq_some_iff.mp h
    rw [hhost] at hstep
    refine same hu hpolls ?_
    obtain ⟨type, hanswers⟩ | hwritten := Host.answers_of_step hloop hclose hstep
    · exact announced_of_answers hanswers
    · exact announced_of_written hwritten
  cases e with
  | tick devs =>
    cases h
    exact hs.poll devs
  | loop i a =>
    obtain ⟨host, hstep, rfl⟩ := Option.map_eq_some_iff.mp h
    refine same rfl rfl ?_
    obtain ⟨-, hwritten | ⟨msg, hwritten⟩⟩ := Host.written_loopStep hstep
    · exact announced_of_written hwritten
    · exact announced_write_loop hwritten
  | read r =>
    simp only [Process.step, Option.ite_none_right_eq_some] at h
    obtain ⟨-, h⟩ := h
    cases r with
    | ping | getStatus | unknown =>
      cases h
      exact same rfl rfl rfl
    | connect =>
      exact dispatched (u := { s with requests := s.requests ++ [_] }) rfl rfl rfl h
        (fun _ _ => nofun) nofun
    | sendPayload =>
      exact dispatched (u := { s with requests := s.requests ++ [_] }) rfl rfl rfl h
        (fun _ _ => nofun) nofun
    | disconnect =>
      exact dispatched (u := { s with requests := s.requests ++ [_] }) rfl rfl rfl h
        (fun _ _ => nofun) nofun
    | rekey =>
      exact dispatched (u := { s with requests := s.requests ++ [_] }) rfl rfl rfl h
        (fun _ _ => nofun) nofun
  | connectResume enumerated opened kex => exact dispatched rfl rfl rfl h (fun _ _ => nofun) nofun
  | kexRead packet => exact dispatched rfl rfl rfl h (fun _ _ => nofun) nofun
  | rekeyFinish kex flushed => exact dispatched rfl rfl rfl h (fun _ _ => nofun) nofun

/-- A phone in accessory mode. -/
def samplePhone : BusDevice := { desc := { vendor := 0x18D1, product := 0x2D01 } }

/-- The phone is found twice and then gone, while `rekey` runs its exchange. -/
def sampleRequests : List ProcessEvent :=
  [.read .ping, .tick [samplePhone],
    .read (.connect (.ok [samplePhone.desc]) (.ok ()) (.ok ()) (.established (Host.sampleKey 7))),
    .tick [samplePhone], .read .rekey, .tick [], .rekeyFinish (.failed "EOF") none,
    .read .getStatus]

end Process

end SmartIdVault.NativeHost
