import SmartIdVault.Lib.Bytes

/-! The negotiation with a device that is not in accessory mode (`aoa/negotiation.go`).  What a
device answers to a control transfer may depend on all those before it; the negotiator sends the
transfers of its script one by one, begins anew when one of them is refused, and gives up after four
attempts. -/

namespace SmartIdVault.NativeHost

/-- `dev.Control(requestType, request, 0, 0, data)`, where `data` is the text that is sent. -/
structure Control where
  requestType : UInt8
  request : UInt8
  data : String := ""
  deriving DecidableEq, Repr

/-- The error that a device returns for the last of the transfers that it has been sent. -/
abbrev ControlEndpoint := List Control → Option String

inductive NegotiationState
  | idle | protocolChecked | identSent | accessoryStarted | complete | failed
  deriving DecidableEq, Repr

/-- `Negotiator`, with the transfers that it has sent and its waits in milliseconds. -/
structure Negotiator where
  state : NegotiationState := .idle
  serial : String
  transfers : List Control := []
  waits : List Nat := []
  deriving DecidableEq, Repr

abbrev Negotiation := ExceptT String (StateM Negotiator)

namespace Negotiator

def aoaGetProtocol : UInt8 := 51
def aoaSendIdent : Nat := 52
def aoaStartAccessory : UInt8 := 58
def aoaManufacturer : String := "SmartIDVault"
def aoaModel : String := "TetheredProxy"
def aoaVersion : String := "6.0"
def aoaURI : String := "https://smartid-vault.local"
def controlRequestType : UInt8 := 0x40
def maxRetries : Nat := 3
def retryBackoff : Nat := 500

def setState (state : NegotiationState) : Negotiation Unit := modify fun n => { n with state }

/-- `time.Sleep`. -/
def sleep (milliseconds : Nat) : Negotiation Unit :=
  modify fun n => { n with waits := n.waits ++ [milliseconds] }

section Device

variable (dev : ControlEndpoint)

def control (transfer : Control) : Negotiation Unit := do
  modify fun n => { n with transfers := n.transfers ++ [transfer] }
  match dev (← get).transfers with
  | none => pure ()
  | some err => throw err

/-- `fmt.Errorf("what: %w", err)` for the error of a transfer. -/
def wrap (what : String) (m : Negotiation Unit) : Negotiation Unit :=
  tryCatch m fun err => throw (what ++ ": " ++ err)

def identString (index : Nat) (text : String) : Control :=
  { requestType := controlRequestType, request := UInt8.ofNat index, data := text }

def sendIdentString (index : Nat) (text : String) : Negotiation Unit :=
  control dev (identString index text)

def negotiateOnce : Negotiation Unit := do
  setState .idle
  wrap "get protocol" (control dev { requestType := 0xC0, request := aoaGetProtocol })
  setState .protocolChecked
  wrap "send manufacturer" (sendIdentString dev aoaSendIdent aoaManufacturer)
  wrap "send model" (sendIdentString dev (aoaSendIdent + 1) aoaModel)
  wrap "send version" (sendIdentString dev (aoaSendIdent + 2) aoaVersion)
  wrap "send URI" (sendIdentString dev (aoaSendIdent + 3) aoaURI)
  let serial := (← get).serial
  if serial ≠ "" then wrap "send serial" (sendIdentString dev (aoaSendIdent + 4) serial)
  setState .identSent
  wrap "start accessory"
    (control dev { requestType := controlRequestType, request := aoaStartAccessory })
  setState .complete

/-- The loop of `Negotiate` from `attempt` on; the return after the loop is never reached. -/
def loop (attempt : Nat) : Nat → Negotiation Unit
  | 0 => throw "AOA negotiation failed"
  | remaining + 1 => do
    if 0 < attempt then sleep (retryBackoff * attempt)
    tryCatch (negotiateOnce dev) fun err =>
      if attempt = maxRetries then do
        setState .failed
        throw (s!"AOA negotiation failed after {maxRetries + 1} attempts: " ++ err)
      else loop (attempt + 1) remaining

def negotiate : Negotiation Unit := loop dev 0 (maxRetries + 1)

end Device

/-! ### The script of an attempt -/

/-- A transfer, and what its error is reported under. -/
structure Line where
  what : String
  transfer : Control

def identLines : List Line :=
  [⟨"send manufacturer", identString 52 aoaManufacturer⟩,
    ⟨"send model", identString 53 aoaModel⟩,
    ⟨"send version", identString 54 aoaVersion⟩,
    ⟨"send URI", identString 55 aoaURI⟩]

def serialLines (serial : String) : List Line :=
  if serial ≠ "" then [⟨"send serial", identString 56 serial⟩] else []

def script (serial : String) : List Line :=
  ⟨"get protocol", { requestType := 0xC0, request := aoaGetProtocol }⟩ ::
    (identLines ++ serialLines serial ++
      [⟨"start accessory", { requestType := controlRequestType, request := aoaStartAccessory }⟩])

def transfersOf (lines : List Line) : List Control := lines.map (·.transfer)

section Outcomes

variable {dev : ControlEndpoint} {before : List Control} {line : Line} {lines : List Line}
  {serial : String} {final : NegotiationState}

/-- The device takes the lines one by one. -/
def Accepted (dev : ControlEndpoint) (before : List Control) (lines : List Line) : Prop :=
  ∀ k < lines.length, dev (before ++ transfersOf (lines.take (k + 1))) = none

/-- The device takes the lines up to one that it refuses, with which the attempt ends. -/
def Refused (dev : ControlEndpoint) (before : List Control) (lines : List Line)
    (sent : List Control) (err : String) : Prop :=
  ∃ k line e, lines[k]? = some line ∧ sent = transfersOf (lines.take (k + 1)) ∧
    Accepted dev before (lines.take k) ∧ dev (before ++ sent) = some e ∧
    err = line.what ++ ": " ++ e

theorem Accepted.nil : Accepted dev before [] := fun _ hk => absurd hk (Nat.not_lt_zero _)

theorem Accepted.cons (hline : dev (before ++ [line.transfer]) = none)
    (h : Accepted dev (before ++ [line.transfer]) lines) :
    Accepted dev before (line :: lines) := by
  intro k hk
  cases k with
  | zero => exact hline
  | succ k =>
    have hrest := h k (Nat.lt_of_succ_lt_succ hk)
    rw [List.append_assoc] at hrest
    exact hrest

theorem Refused.head {e : String} (hline : dev (before ++ [line.transfer]) = some e) :
    Refused dev before (line :: lines) [line.transfer] (line.what ++ ": " ++ e) :=
  ⟨0, line, e, rfl, rfl, .nil, hline, rfl⟩

theorem Refused.cons {sent : List Control} {err : String}
    (hline : dev (before ++ [line.transfer]) = none)
    (h : Refused dev (before ++ [line.transfer]) lines sent err) :
    Refused dev before (line :: lines) (line.transfer :: sent) err := by
  obtain ⟨k, last, e, hk, rfl, haccepted, hdev, rfl⟩ := h
  refine ⟨k + 1, last, e, hk, rfl, haccepted.cons hline, ?_, rfl⟩
  rw [List.append_assoc] at hdev
  exact hdev

/-- What comes of the rest of an attempt that has the lines left to send. -/
inductive Outcome (dev : ControlEndpoint) (lines : List Line) (final : NegotiationState)
    (n : Negotiator) : Except String Unit × Negotiator → Prop
  | accepted (h : Accepted dev n.transfers lines) :
      Outcome dev lines final n
        (.ok (), { n with state := final, transfers := n.transfers ++ transfersOf lines })
  | refused (state : NegotiationState) (sent : List Control) (err : String)
      (h : Refused dev n.transfers lines sent err) :
      Outcome dev lines final n (.error err, { n with state, transfers := n.transfers ++ sent })

/-- The rest of an attempt, for a device with this serial number, sends the lines and ends in the
state `final`. -/
def Sends (dev : ControlEndpoint) (serial : String) (m : Negotiation Unit) (lines : List Line)
    (final : NegotiationState) : Prop :=
  ∀ n : Negotiator, n.serial = serial → Outcome dev lines final n (m.run.run n)

/-- A sequence goes on from where its first part has ended, unless that has failed. -/
theorem run_bind {α : Type} (m : Negotiation α) (f : α → Negotiation Unit) (n : Negotiator) :
    (m >>= f).run.run n =
      match m.run.run n with
      | (.ok a, n') => (f a).run.run n'
      | (.error e, n') => (.error e, n') := by
  rw [ExceptT.run_bind, StateT.run_bind]
  rcases m.run.run n with ⟨_ | _, n'⟩ <;> rfl

theorem run_tryCatch (m : Negotiation Unit) (f : String → Negotiation Unit) (n : Negotiator) :
    (tryCatch m f).run.run n =
      match m.run.run n with
      | (.ok a, n') => (.ok a, n')
      | (.error e, n') => (f e).run.run n' := by
  rw [ExceptT.run_tryCatch, StateT.run_bind]
  rcases m.run.run n with ⟨_ | _, n'⟩ <;> rfl

theorem run_control (transfer : Control) (n : Negotiator) :
    (control dev transfer).run.run n =
      ((dev (n.transfers ++ [transfer])).elim (.ok ()) .error,
        { n with transfers := n.transfers ++ [transfer] }) := by
  have hmodify :
      (modify fun n => { n with transfers := n.transfers ++ [transfer] } :
        Negotiation Unit).run.run n =
          (.ok (), { n with transfers := n.transfers ++ [transfer] }) := rfl
  have hget (n : Negotiator) : (get : Negotiation Negotiator).run.run n = (.ok n, n) := rfl
  rw [control, run_bind, hmodify]
  simp only
  rw [run_bind, hget]
  simp only
  cases dev (n.transfers ++ [transfer]) with
  | none => rfl
  | some e => rfl

theorem Sends.setState : Sends dev serial (setState final) [] final := by
  intro n _
  have h : Outcome dev [] final n
      (.ok (), { n with state := final, transfers := n.transfers ++ transfersOf [] }) :=
    .accepted .nil
  rw [transfersOf, List.map_nil, List.append_nil] at h
  exact h

theorem Sends.setState_bind {state : NegotiationState} {m : Negotiation Unit}
    (h : Sends dev serial m lines final) :
    Sends dev serial (Negotiator.setState state >>= fun _ => m) lines final := by
  intro n hn
  have hrun : (Negotiator.setState state >>= fun _ => m).run.run n =
      m.run.run { n with state } := run_bind ..
  have hm := h { n with state } hn
  rw [hrun]
  generalize m.run.run { n with state } = result at hm
  cases hm with
  | accepted haccepted => exact .accepted haccepted
  | refused state sent err hrefused => exact .refused state sent err hrefused

theorem Sends.get_bind {f : Negotiator → Negotiation Unit}
    (h : ∀ n : Negotiator, n.serial = serial → Sends dev serial (f n) lines final) :
    Sends dev serial (get >>= f) lines final := by
  intro n hn
  rw [run_bind]
  exact h n hn n hn

/-- A transfer that the device refuses ends the attempt under the name of its line. -/
theorem Sends.control_bind {what : String} {transfer : Control} {m : Negotiation Unit}
    (h : Sends dev serial m lines final) :
    Sends dev serial (wrap what (control dev transfer) >>= fun _ => m)
      (⟨what, transfer⟩ :: lines) final := by
  intro n hn
  rw [run_bind, wrap, run_tryCatch, run_control]
  cases hdev : dev (n.transfers ++ [transfer]) with
  | some e => exact .refused n.state [transfer] (what ++ ": " ++ e) (.head hdev)
  | none =>
    have hm := h { n with transfers := n.transfers ++ [transfer] } hn
    simp only [Option.elim_none]
    generalize m.run.run _ = result at hm
    cases hm with
    | accepted haccepted =>
      simp only [List.append_assoc]
      exact .accepted (haccepted.cons hdev)
    | refused state sent err hrefused =>
      simp only [List.append_assoc]
      exact .refused state _ err (hrefused.cons hdev)

theorem negotiateOnce_sends :
    Sends dev serial (negotiateOnce dev) (script serial) .complete := by
  have start : Sends dev serial
      (do
        setState .identSent
        wrap "start accessory"
          (control dev { requestType := controlRequestType, request := aoaStartAccessory })
        setState .complete)
      [⟨"start accessory", { requestType := controlRequestType, request := aoaStartAccessory }⟩]
      .complete :=
    Sends.setState_bind (Sends.control_bind .setState)
  refine Sends.setState_bind (Sends.control_bind (Sends.setState_bind ?_))
  refine Sends.control_bind (Sends.control_bind (Sends.control_bind (Sends.control_bind ?_)))
  apply Sends.get_bind
  intro n hn
  show Sends dev serial _ (serialLines serial ++ [_]) .complete
  simp only [hn]
  by_cases hserial : serial = ""
  · rw [if_neg (not_not_intro hserial), serialLines, if_neg (not_not_intro hserial)]
    exact start
  · rw [if_pos hserial, serialLines, if_pos hserial]
    exact Sends.control_bind start

/-- The attempts that have ended with a transfer that the device has refused, each with the
transfers that it has sent and its error. -/
abbrev Attempts := List (List Control × String)

def Attempts.transfers (attempts : Attempts) : List Control := attempts.flatMap (·.1)

/-- Every attempt begins with the first line of the script, whatever was sent before. -/
def AllRefused (dev : ControlEndpoint) (lines : List Line) (attempts : Attempts) : Prop :=
  ∀ k attempt, attempts[k]? = some attempt →
    Refused dev (Attempts.transfers (attempts.take k)) lines attempt.1 attempt.2

/-- The waits before the attempts after the first. -/
def backoffs (retries : Nat) : List Nat := (List.range retries).map fun k => retryBackoff * (k + 1)

/-- What comes of a negotiation. -/
inductive Negotiated (dev : ControlEndpoint) (serial : String) :
    Except String Unit × Negotiator → Prop
  | complete (attempts : Attempts) (hlen : attempts.length ≤ maxRetries)
      (hrefused : AllRefused dev (script serial) attempts)
      (haccepted : Accepted dev attempts.transfers (script serial)) :
      Negotiated dev serial
        (.ok (),
          { state := .complete, serial
            transfers := attempts.transfers ++ transfersOf (script serial)
            waits := backoffs attempts.length })
  | failed (attempts : Attempts) (last : List Control × String)
      (hlen : attempts.length = maxRetries)
      (hrefused : AllRefused dev (script serial) (attempts ++ [last])) :
      Negotiated dev serial
        (.error ("AOA negotiation failed after 4 attempts: " ++ last.2),
          { state := .failed, serial
            transfers := Attempts.transfers (attempts ++ [last])
            waits := backoffs maxRetries })

theorem Attempts.transfers_concat (attempts : Attempts) (attempt : List Control × String) :
    Attempts.transfers (attempts ++ [attempt]) = attempts.transfers ++ attempt.1 := by
  simp [Attempts.transfers]

theorem AllRefused.concat {attempts : Attempts} {sent : List Control} {err : String}
    (h : AllRefused dev lines attempts) (hlast : Refused dev attempts.transfers lines sent err) :
    AllRefused dev lines (attempts ++ [(sent, err)]) := by
  intro k attempt hk
  rcases Nat.lt_trichotomy k attempts.length with hlt | rfl | hgt
  · rw [List.getElem?_append_left hlt] at hk
    rw [List.take_append_of_le_length (Nat.le_of_lt hlt)]
    exact h k attempt hk
  · rw [List.getElem?_concat_length] at hk
    obtain rfl := Option.some.inj hk
    rw [List.take_left]
    exact hlast
  · have hlen : (attempts ++ [(sent, err)]).length ≤ k := by
      rw [List.length_append]
      exact hgt
    rw [List.getElem?_eq_none hlen] at hk
    cases hk

theorem backoffs_succ (retries : Nat) :
    backoffs (retries + 1) = backoffs retries ++ [retryBackoff * (retries + 1)] := by
  simp [backoffs, List.range_succ]

/-- The negotiator when an attempt begins. -/
def paused (attempt : Nat) (n : Negotiator) : Negotiator :=
  if 0 < attempt then { n with waits := n.waits ++ [retryBackoff * attempt] } else n

/-- A negotiator whose attempts up to now have all been refused. -/
structure Trying (dev : ControlEndpoint) (serial : String) (attempts : Attempts)
    (n : Negotiator) : Prop where
  ident : n.serial = serial
  transfers : n.transfers = attempts.transfers
  waits : n.waits = backoffs (attempts.length - 1)
  refused : AllRefused dev (script serial) attempts

theorem Trying.paused {attempts : Attempts} {n : Negotiator} (h : Trying dev serial attempts n) :
    paused attempts.length n =
      { n with serial, transfers := attempts.transfers, waits := backoffs attempts.length } := by
  obtain ⟨state, _, transfers, waits⟩ := n
  obtain ⟨rfl, rfl, rfl, _⟩ := h
  cases hlen : attempts.length with
  | zero => rfl
  | succ retries => simp [Negotiator.paused, backoffs_succ]

theorem loop_succ (attempt remaining : Nat) (n : Negotiator) :
    (loop dev attempt (remaining + 1)).run.run n =
      match (negotiateOnce dev).run.run (paused attempt n) with
      | (.ok (), n') => (.ok (), n')
      | (.error err, n') =>
        if attempt = maxRetries then
          (.error ("AOA negotiation failed after 4 attempts: " ++ err),
            { n' with state := .failed })
        else (loop dev (attempt + 1) remaining).run.run n' := by
  have hfour : s!"AOA negotiation failed after {maxRetries + 1} attempts: " =
      "AOA negotiation failed after 4 attempts: " := by decide
  have hpaused (m : Negotiation Unit) :
      (if 0 < attempt then sleep (retryBackoff * attempt) >>= fun _ => m else m).run.run n =
        m.run.run (paused attempt n) := by
    by_cases hpos : 0 < attempt
    · rw [if_pos hpos, paused, if_pos hpos, run_bind]
      rfl
    · rw [if_neg hpos, paused, if_neg hpos]
  rw [loop, hfour]
  refine (hpaused _).trans ?_
  rw [run_tryCatch]
  rcases (negotiateOnce dev).run.run (paused attempt n) with ⟨err | _, n'⟩
  · simp only
    by_cases hlast : attempt = maxRetries
    · rw [if_pos hlast, if_pos hlast, run_bind]
      rfl
    · rw [if_neg hlast, if_neg hlast]
  · rfl

/-- An attempt either completes the negotiation or is one more that was refused. -/
theorem Trying.attempt {attempts : Attempts} {n : Negotiator} (h : Trying dev serial attempts n)
    (hlen : attempts.length ≤ maxRetries) :
    (∃ n', (negotiateOnce dev).run.run (Negotiator.paused attempts.length n) = (.ok (), n') ∧
      Negotiated dev serial (.ok (), n')) ∨
    ∃ sent err n',
      (negotiateOnce dev).run.run (Negotiator.paused attempts.length n) = (.error err, n') ∧
        Trying dev serial (attempts ++ [(sent, err)]) n' := by
  rw [h.paused]
  have hsends : Sends dev serial (negotiateOnce dev) (script serial) .complete :=
    negotiateOnce_sends
  have honce := hsends
    { n with serial, transfers := attempts.transfers, waits := backoffs attempts.length } rfl
  generalize (negotiateOnce dev).run.run _ = result at honce
  cases honce with
  | accepted haccepted => exact .inl ⟨_, rfl, .complete attempts hlen h.refused haccepted⟩
  | refused state sent err hrefused =>
    refine .inr ⟨sent, err, _, rfl, rfl, ?_, ?_, h.refused.concat hrefused⟩
    · exact (attempts.transfers_concat (sent, err)).symm
    · rw [List.length_append]
      rfl

theorem loop_negotiated (remaining : Nat) (attempts : Attempts) (n : Negotiator)
    (hlen : attempts.length + remaining = maxRetries) (h : Trying dev serial attempts n) :
    Negotiated dev serial ((loop dev attempts.length (remaining + 1)).run.run n) := by
  induction remaining generalizing attempts n with
  | zero =>
    rw [loop_succ]
    rcases h.attempt (Nat.le_of_eq hlen) with ⟨n', hrun, hn'⟩ | ⟨sent, err, n', hrun, hn'⟩
    · rw [hrun]
      exact hn'
    · rw [hrun]
      simp only
      rw [if_pos (show attempts.length = maxRetries from hlen)]
      have hfailed := Negotiated.failed attempts (sent, err) hlen hn'.refused
      obtain ⟨state, _, transfers, waits⟩ := n'
      obtain ⟨rfl, rfl, rfl, _⟩ := hn'
      rw [List.length_append, show attempts.length = maxRetries from hlen]
      exact hfailed
  | succ remaining ih =>
    have hlt : attempts.length < maxRetries := by omega
    rw [loop_succ]
    rcases h.attempt (Nat.le_of_lt hlt) with ⟨n', hrun, hn'⟩ | ⟨sent, err, n', hrun, hn'⟩
    · rw [hrun]
      exact hn'
    · rw [hrun]
      simp only
      rw [if_neg (Nat.ne_of_lt hlt)]
      have hconcat : (attempts ++ [(sent, err)]).length = attempts.length + 1 :=
        List.length_append
      rw [← hconcat]
      apply ih _ _ _ hn'
      omega

end Outcomes

end Negotiator

end SmartIdVault.NativeHost
