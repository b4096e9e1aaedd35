import SmartIdVault.Command.Heartbeat
import SmartIdVault.Lib.Tasks

/-! The command clients of `pairingCoordinator.ts`: every `performXXHandshake` makes one, and the
last is the one that `getCommandClient` returns and that frames of the session reach.  The clients
share the counters in storage and send over whatever session there is, and a client that has been
replaced keeps its timers. -/

namespace SmartIdVault.Command

open Pairing (ResponseStatus maxMissedPings)

/-- The heartbeat ping that `pendingPingSeq` names: the session over which it was sent, if there was
one, and whether the phone has answered it. -/
structure Ping where
  sequence : Nat
  session : Option Nat
  answered : Bool := false
  deriving DecidableEq, Repr

/-- A client, with its pending ping and those that it counts as missed. -/
structure Tracked where
  client : Client := {}
  ping : Option Ping := none
  misses : List Ping := []

/-- An invocation of `onTransportDead`: whether by the client of `getCommandClient`, after which
missed pings, and in which session. -/
structure Death where
  current : Bool
  misses : List Ping
  session : Option Nat
  deriving DecidableEq, Repr

/-- The clients in the order in which they have been made, how many handshakes are under way, and
`currentSession`, numbered.  No code looks at what is known of pings and deaths. -/
structure Coordinator where
  clients : List Tracked := []
  handshakes : Nat := 0
  currentSession : Option Nat := none
  sessions : Nat := 0
  storedSequence : Nat := 0
  storedCount : Nat := 0
  deaths : List Death := []

/-- `performXXHandshake` makes its client; `startPairingFlow` goes on with its session, or without
one; a data frame of a session arrives; client `k` makes a step of its own. -/
inductive CoordinatorEvent
  | performXXHandshake
  | handshakeDone
  | handshakeFailed
  | rejectSasMatch
  | disconnectSession
  | frame (session sequence : Nat) (status : ResponseStatus)
  | client (k : Nat) (e : Event)
  deriving DecidableEq, Repr

/-- The phone answers a ping, if it has it. -/
def Tracked.hear (tc : Tracked) (session sequence : Nat) : Tracked :=
  { tc with ping := tc.ping.map fun p =>
      if p.session = some session ∧ p.sequence = sequence then { p with answered := true } else p }

/-- `handleIncomingResponse`. -/
def Tracked.receive (tc : Tracked) (sequence : Nat) (status : ResponseStatus) : Tracked :=
  let acknowledged := status = .pong ∧ tc.client.pendingPingSeq = some sequence
  { client := tc.client.handleIncomingResponse sequence status
    ping := if acknowledged then none else tc.ping
    misses := if acknowledged then [] else tc.misses }

namespace Coordinator

/-- The client as it finds the counters in storage. -/
def load (s : Coordinator) (c : Client) : Client :=
  { c with storedSequence := s.storedSequence, storedCount := s.storedCount }

def isCurrent (s : Coordinator) (k : Nat) : Bool := k + 1 = s.clients.length

/-- What is known of the pings of a client after its step. -/
def track (s : Coordinator) (tc : Tracked) (e : Event) (c : Client) : Tracked where
  client := c
  ping :=
    match (s.load tc.client).pings e with
    | some sequence => some { sequence, session := s.currentSession }
    | none => if (s.load tc.client).counts e then none else tc.ping
  misses := if (s.load tc.client).counts e then tc.misses ++ tc.ping.toList else tc.misses

/-- A step of client `k`. -/
def clientStep (s : Coordinator) (k : Nat) (e : Event) : Option Coordinator :=
  s.clients[k]?.bind fun tc =>
    ((s.load tc.client).step e).map fun c =>
      let tracked := s.track tc e c
      { s with
        clients := s.clients.set k tracked
        storedSequence := c.storedSequence
        storedCount := c.storedCount
        deaths := if tc.client.transportDead < c.transportDead then
            s.deaths ++ [⟨s.isCurrent k, tracked.misses, s.currentSession⟩]
          else s.deaths }

/-- `processIncomingMessage` for a data frame: one of another session cannot be decrypted. -/
def frame (s : Coordinator) (session sequence : Nat) (status : ResponseStatus) : Coordinator :=
  { s with clients := s.clients.mapIdx fun k tc =>
      let tc := if status = .pong then tc.hear session sequence else tc
      if s.currentSession = some session ∧ s.isCurrent k then tc.receive sequence status else tc }

/-- Commands are called on what `getCommandClient` returns, and responses come by frames. -/
def step (s : Coordinator) : CoordinatorEvent → Option Coordinator
  | .performXXHandshake =>
    some { s with clients := s.clients ++ [{}], handshakes := s.handshakes + 1 }
  | .handshakeDone =>
    if 0 < s.handshakes then
      some { s with
        handshakes := s.handshakes - 1
        currentSession := some s.sessions
        sessions := s.sessions + 1 }
    else none
  | .handshakeFailed =>
    if 0 < s.handshakes then some { s with handshakes := s.handshakes - 1 } else none
  | .rejectSasMatch => some s
  | .disconnectSession => some { s with currentSession := none }
  | .frame session sequence status => some (s.frame session sequence status)
  | .client k e =>
    match e with
    | .response .. => none
    | .sendCommand _ | .sendPing => if s.isCurrent k then s.clientStep k e else none
    | _ => s.clientStep k e

end Coordinator

/-- At most one client has its heartbeat running, the one that `getCommandClient` returns; the
transport has been declared dead by it alone, after at least three pings that it had sent over the
session of that moment, none of them answered. -/
structure Proper (s : Coordinator) : Prop where
  timers : ∀ k tc, s.clients[k]? = some tc → tc.client.heartbeatTimer = true → s.isCurrent k = true
  deaths : ∀ d ∈ s.deaths, d.current = true ∧ d.session.isSome = true ∧
    maxMissedPings ≤ d.misses.length ∧ ∀ p ∈ d.misses, p.session = d.session ∧ p.answered = false

/-- A client is replaced when its heartbeat is not running and no ping of its is pending; the
session changes when the client has no ping pending and none missed; and only the client of
`getCommandClient` starts its heartbeat or sends a ping, the latter in a session. -/
def Sound (s : Coordinator) : CoordinatorEvent → Prop
  | .performXXHandshake => ∀ tc ∈ s.clients.getLast?,
      tc.client.heartbeatTimer = false ∧ tc.client.pendingPingSeq = none
  | .handshakeDone => ∀ tc ∈ s.clients.getLast?,
      tc.client.pendingPingSeq = none ∧ tc.client.missedPings = 0
  | .disconnectSession => s.currentSession.isSome = true → ∀ tc ∈ s.clients.getLast?,
      tc.client.pendingPingSeq = none ∧ tc.client.missedPings = 0
  | .client k e => ∀ tc ∈ s.clients[k]?,
      ((s.load tc.client).commands e = true → s.isCurrent k = true) ∧
        ((s.load tc.client).pings e ≠ none →
          s.isCurrent k = true ∧ s.currentSession.isSome = true)
  | .handshakeFailed | .rejectSasMatch | .frame .. => True

instance (s : Coordinator) : ∀ e, Decidable (Sound s e)
  | .performXXHandshake | .handshakeDone => inferInstanceAs (Decidable (∀ tc ∈ _, _))
  | .disconnectSession => inferInstanceAs (Decidable (_ → ∀ tc ∈ _, _))
  | .client .. => inferInstanceAs (Decidable (∀ tc ∈ s.clients[_]?, _))
  | .handshakeFailed | .rejectSasMatch | .frame .. => isTrue trivial

/-! ### What holds of the clients -/

/-- What holds of the client of `getCommandClient` in a session. -/
structure Own (session : Option Nat) (tc : Tracked) : Prop where
  pending : ∀ sequence, tc.client.pendingPingSeq = some sequence →
    ∃ p, tc.ping = some p ∧ p.sequence = sequence ∧ p.session = session ∧ p.answered = false ∧
      session.isSome = true
  missed : tc.misses.length = tc.client.missedPings
  misses : ∀ p ∈ tc.misses, p.session = session ∧ p.answered = false ∧ session.isSome = true

/-- What holds of the others. -/
structure Retired (tc : Tracked) : Prop where
  timer : tc.client.heartbeatTimer = false
  pending : tc.client.pendingPingSeq = none

structure Kept (s : Coordinator) : Prop where
  clients : ∀ k tc, s.clients[k]? = some tc →
    if s.isCurrent k then Own s.currentSession tc else Retired tc
  deaths : ∀ d ∈ s.deaths, d.current = true ∧ d.session.isSome = true ∧
    maxMissedPings ≤ d.misses.length ∧ ∀ p ∈ d.misses, p.session = d.session ∧ p.answered = false

section Steps

variable {s t : Coordinator} {tc : Tracked} {k : Nat} {session : Option Nat}

theorem Own.of_rest (hpending : tc.client.pendingPingSeq = none)
    (hmissed : tc.client.missedPings = 0) (h : tc.misses.length = tc.client.missedPings) :
    Own session tc where
  pending := by
    rw [hpending]
    exact nofun
  missed := h
  misses := by
    rw [hmissed] at h
    rw [List.eq_nil_of_length_eq_zero h]
    exact nofun

theorem mem_getLast (hk : s.clients[k]? = some tc) (hcur : s.isCurrent k = true) :
    tc ∈ s.clients.getLast? := by
  have hk' : k = s.clients.length - 1 := by
    have := of_decide_eq_true hcur
    omega
  rw [List.getLast?_eq_getElem?, ← hk', hk]
  rfl

theorem Kept.performXXHandshake (h : Kept s) (hsound : Sound s .performXXHandshake) :
    Kept { s with clients := s.clients ++ [{}], handshakes := s.handshakes + 1 } where
  clients k tc hk := by
    rw [List.getElem?_append] at hk
    split at hk
    next hlt =>
      rw [if_neg (by simp [Coordinator.isCurrent]; omega)]
      by_cases hcur : s.isCurrent k = true
      · obtain ⟨htimer, hpending⟩ := hsound tc (mem_getLast hk hcur)
        exact ⟨htimer, hpending⟩
      · have hold := h.clients k tc hk
        rwa [if_neg hcur] at hold
    next hge =>
      obtain ⟨hlt, hk⟩ := List.getElem?_eq_some_iff.mp hk
      simp only [List.length_singleton, List.getElem_singleton] at hlt hk
      subst hk
      rw [if_pos (by simp [Coordinator.isCurrent]; omega)]
      exact .of_rest rfl rfl rfl
  deaths := h.deaths

/-- The session changes while the client is at rest. -/
theorem Kept.changes (h : Kept s) (hclients : t.clients = s.clients) (hdeaths : t.deaths = s.deaths)
    (hrest : ∀ tc ∈ s.clients.getLast?,
      tc.client.pendingPingSeq = none ∧ tc.client.missedPings = 0) : Kept t where
  clients k tc hk := by
    rw [hclients] at hk
    have hold := h.clients k tc hk
    have hsame : t.isCurrent k = s.isCurrent k := by simp only [Coordinator.isCurrent, hclients]
    rw [hsame]
    split
    next hcur =>
      rw [if_pos hcur] at hold
      obtain ⟨hpending, hmissed⟩ := hrest tc (mem_getLast hk hcur)
      exact .of_rest hpending hmissed hold.missed
    next hcur => rwa [if_neg hcur] at hold
  deaths := hdeaths ▸ h.deaths

/-- The phone answers over another session than that of the client. -/
theorem Own.hear {other sequence : Nat} (h : Own session tc) (hne : session ≠ some other) :
    Own session (tc.hear other sequence) where
  pending n hn := by
    obtain ⟨p, hp, hseq, hsession, hanswered, hsome⟩ := h.pending n hn
    refine ⟨p, ?_, hseq, hsession, hanswered, hsome⟩
    have hnot : ¬(p.session = some other ∧ p.sequence = sequence) := fun h => hne (hsession ▸ h.1)
    simp only [Tracked.hear, hp, Option.map_some, if_neg hnot]
  missed := h.missed
  misses := h.misses

/-- It answers over that session, and the client has the answer. -/
theorem Own.receive {other sequence : Nat} {status : Pairing.ResponseStatus} (h : Own session tc) :
    Own session
      ((if status = .pong then tc.hear other sequence else tc).receive sequence status) := by
  have hclient : (if status = .pong then tc.hear other sequence else tc).client = tc.client := by
    split <;> rfl
  have hmisses : (if status = .pong then tc.hear other sequence else tc).misses = tc.misses := by
    split <;> rfl
  have hreset := (@Client.response_heartbeat tc.client sequence status).2
  split at hreset
  next hack =>
    simp only [Tracked.receive, hclient, if_pos hack]
    exact .of_rest hreset.1 hreset.2 hreset.2.symm
  next hack =>
    simp only [Tracked.receive, hclient, hmisses, if_neg hack]
    refine ⟨?_, h.missed.trans hreset.2.symm, h.misses⟩
    intro n hn
    have hsame : tc.client.pendingPingSeq = some n := hreset.1 ▸ hn
    obtain ⟨p, hp, hseq, hsession, hanswered, hsome⟩ := h.pending n hsame
    refine ⟨p, ?_, hseq, hsession, hanswered, hsome⟩
    -- a pong of another number leaves the ping as it is
    dsimp only
    split
    next hpong =>
      have hother : p.sequence ≠ sequence := by
        rintro rfl
        exact hack ⟨hpong, by rw [hsame, hseq]⟩
      simp [Tracked.hear, hp, hother]
    next => exact hp

theorem Kept.frame (h : Kept s) (other sequence : Nat) (status : Pairing.ResponseStatus) :
    Kept (s.frame other sequence status) := by
  refine ⟨?_, h.deaths⟩
  intro k tc hk
  obtain ⟨old, hold, rfl⟩ := Option.map_eq_some_iff.mp (List.getElem?_mapIdx .. ▸ hk)
  have hsame : (s.frame other sequence status).isCurrent k = s.isCurrent k := by
    simp [Coordinator.frame, Coordinator.isCurrent]
  have hkept := h.clients k old hold
  rw [hsame]
  by_cases hcur : s.isCurrent k = true
  · rw [if_pos hcur] at hkept
    by_cases hsession : s.currentSession = some other
    · simp only [hsession, hcur, and_self, if_true]
      rw [hsession] at hkept
      show Own (s.frame other sequence status).currentSession _
      exact hsession ▸ hkept.receive
    · simp only [hsession, hcur, false_and, if_false, if_true]
      split
      · exact hkept.hear hsession
      · exact hkept
  · rw [if_neg hcur] at hkept ⊢
    simp only [hcur, Bool.false_eq_true, and_false, if_false]
    split
    · exact ⟨hkept.timer, hkept.pending⟩
    · exact hkept

theorem pending_of_counts {c : Client} {e : Event} (h : c.counts e = true) :
    c.pendingPingSeq.isSome = true := by
  unfold Client.counts at h
  split at h
  · obtain ⟨call, -, hcall⟩ := (Option.any_eq_true _ _).mp h
    obtain ⟨-, -, hsome, hsame⟩ := of_decide_eq_true hcall
    rw [hsame, hsome]
  · cases h

theorem Retired.track {e : Event} {c : Client} (h : Retired tc)
    (hstep : Client.HeartbeatStep (s.load tc.client) e c)
    (hsound : (s.load tc.client).commands e = false ∧ (s.load tc.client).pings e = none) :
    Retired (s.track tc e c) ∧ c.transportDead = tc.client.transportDead := by
  cases hstep with
  | same _ _ hsame => exact ⟨⟨hsame.2.2.1.trans h.timer, hsame.1.trans h.pending⟩, hsame.2.2.2⟩
  | sends next hpings => cases hpings.symm.trans hsound.2
  | misses _ hcounts =>
    have hsome := pending_of_counts hcounts
    rw [show (s.load tc.client).pendingPingSeq = none from h.pending] at hsome
    cases hsome
  | starts _ _ hcommands => cases hcommands.symm.trans hsound.1

/-- A step that neither sends nor misses a ping. -/
theorem Own.track_of_quiet {e : Event} {c : Client} (h : Own s.currentSession tc)
    (hpings : (s.load tc.client).pings e = none) (hcounts : (s.load tc.client).counts e = false)
    (hpending : c.pendingPingSeq = tc.client.pendingPingSeq)
    (hmissed : c.missedPings = tc.client.missedPings) : Own s.currentSession (s.track tc e c) := by
  constructor
  · intro n hn
    simp only [Coordinator.track, hpings, hcounts]
    exact h.pending n (hpending ▸ hn)
  · simp only [Coordinator.track, hcounts]
    exact h.missed.trans hmissed.symm
  · simp only [Coordinator.track, hcounts]
    exact h.misses

theorem Own.track {e : Event} {c : Client} (h : Own s.currentSession tc)
    (hstep : Client.HeartbeatStep (s.load tc.client) e c)
    (hsound : (s.load tc.client).pings e ≠ none → s.currentSession.isSome = true) :
    Own s.currentSession (s.track tc e c) ∧
      (tc.client.transportDead < c.transportDead → s.currentSession.isSome = true ∧
        maxMissedPings ≤ (s.track tc e c).misses.length) := by
  cases hstep with
  | same hpings hcounts hsame =>
    obtain ⟨hpending, hmissed, -, hdead⟩ := hsame
    exact ⟨h.track_of_quiet hpings hcounts hpending hmissed,
      fun hlt => absurd hlt (by rw [hdead]; exact lt_irrefl _)⟩
  | sends next hpings hcounts hpending hmissed _ hdead =>
    refine ⟨⟨?_, ?_, ?_⟩, fun hlt => absurd hlt (by rw [hdead]; exact lt_irrefl _)⟩
    · intro n hn
      simp only [Coordinator.track, hpings]
      obtain rfl := Option.some.inj (hpending.symm.trans hn)
      exact ⟨_, rfl, rfl, rfl, rfl, hsound (by rw [hpings]; exact nofun)⟩
    · simp only [Coordinator.track, hcounts]
      exact h.missed.trans hmissed.symm
    · simp only [Coordinator.track, hcounts]
      exact h.misses
  | starts hpings hcounts _ hpending hmissed hdead =>
    exact ⟨h.track_of_quiet hpings hcounts hpending hmissed,
      fun hlt => absurd hlt (by rw [hdead]; exact lt_irrefl _)⟩
  | misses hpings hcounts hpending hmissed _ hdead =>
    obtain ⟨n, hn⟩ := Option.isSome_iff_exists.mp (pending_of_counts hcounts)
    obtain ⟨p, hp, -, hsession, hanswered, hsome⟩ := h.pending n hn
    have hlength : (s.track tc e c).misses.length = c.missedPings := by
      simp only [Coordinator.track, hcounts, if_true, hp, Option.toList_some, List.length_append,
        h.missed, hmissed]
      rfl
    refine ⟨⟨?_, hlength, ?_⟩, fun hlt => ⟨hsome, ?_⟩⟩
    · intro n hn
      cases hpending.symm.trans hn
    · intro q hq
      simp only [Coordinator.track, hcounts, if_true, hp, Option.toList_some] at hq
      obtain hq | hq := List.mem_append.mp hq
      · exact h.misses q hq
      · rw [List.mem_singleton.mp hq]
        exact ⟨hsession, hanswered, hsome⟩
    · rw [hlength, hmissed]
      by_contra hfew
      rw [hdead, if_neg hfew] at hlt
      exact lt_irrefl _ hlt

theorem Kept.clientStep {e : Event} (h : Kept s) (hsound : Sound s (.client k e))
    (he : ∀ sequence status, e ≠ .response sequence status) (hs : s.clientStep k e = some t) :
    Kept t := by
  obtain ⟨tc, hk, hs⟩ := Option.bind_eq_some_iff.mp hs
  obtain ⟨c, hc, rfl⟩ := Option.map_eq_some_iff.mp hs
  have hstep := Client.step_heartbeat hc he
  obtain ⟨hcommands, hpings⟩ := hsound tc hk
  have hkept := h.clients k tc hk
  have hnew : (if s.isCurrent k then Own s.currentSession (s.track tc e c)
      else Retired (s.track tc e c)) ∧
      (tc.client.transportDead < c.transportDead → s.isCurrent k = true ∧
        s.currentSession.isSome = true ∧ maxMissedPings ≤ (s.track tc e c).misses.length ∧
          ∀ p ∈ (s.track tc e c).misses, p.session = s.currentSession ∧ p.answered = false) := by
    by_cases hcur : s.isCurrent k = true
    · rw [if_pos hcur] at hkept ⊢
      obtain ⟨hown, hdead⟩ := hkept.track hstep fun hne => (hpings hne).2
      exact ⟨hown, fun hlt => ⟨hcur, (hdead hlt).1, (hdead hlt).2, fun p hp =>
        ⟨(hown.misses p hp).1, (hown.misses p hp).2.1⟩⟩⟩
    · rw [if_neg hcur] at hkept ⊢
      have hcommands : (s.load tc.client).commands e = false :=
        Bool.eq_false_iff.mpr fun h => hcur (hcommands h)
      have hpings : (s.load tc.client).pings e = none := by
        by_contra hne
        exact hcur (hpings hne).1
      obtain ⟨hretired, hdead⟩ := hkept.track hstep ⟨hcommands, hpings⟩
      exact ⟨hretired, fun hlt => absurd hlt (by rw [hdead]; exact lt_irrefl _)⟩
  constructor
  · intro j tc' hj
    have hsame : Coordinator.isCurrent { s with clients := s.clients.set k (s.track tc e c) } j =
        s.isCurrent j := by
      simp [Coordinator.isCurrent]
    apply (congrArg (fun b => if b = true then _ else _) hsame).mpr
    by_cases hjk : j = k
    · subst hjk
      obtain rfl := Option.some.inj ((Tasks.set_self hk _).symm.trans hj)
      exact hnew.1
    · exact h.clients j tc' (by rwa [List.getElem?_set_ne (Ne.symm hjk)] at hj)
  · intro d hd
    dsimp only at hd
    split at hd
    next hlt =>
      obtain hd | hd := List.mem_append.mp hd
      · exact h.deaths d hd
      · rw [List.mem_singleton.mp hd]
        exact hnew.2 hlt
    next => exact h.deaths d hd

theorem Kept.step {e : CoordinatorEvent} (h : Kept s) (hsound : Sound s e)
    (hs : s.step e = some t) : Kept t := by
  cases e with
  | performXXHandshake =>
    obtain rfl := Option.some.inj hs
    exact h.performXXHandshake hsound
  | handshakeDone =>
    simp only [Coordinator.step] at hs
    split at hs
    · obtain rfl := Option.some.inj hs
      exact h.changes rfl rfl hsound
    · cases hs
  | handshakeFailed =>
    simp only [Coordinator.step] at hs
    split at hs
    · obtain rfl := Option.some.inj hs
      exact ⟨h.clients, h.deaths⟩
    · cases hs
  | rejectSasMatch =>
    obtain rfl := Option.some.inj hs
    exact h
  | disconnectSession =>
    obtain rfl := Option.some.inj hs
    by_cases hsome : s.currentSession.isSome = true
    · exact h.changes rfl rfl (hsound hsome)
    · have hnone : s.currentSession = none := by simpa using hsome
      exact ⟨fun k tc hk => hnone ▸ h.clients k tc hk, h.deaths⟩
  | frame session sequence status =>
    obtain rfl := Option.some.inj hs
    exact h.frame session sequence status
  | client k e =>
    have hs : (∀ sequence status, e ≠ .response sequence status) ∧ s.clientStep k e = some t := by
      cases e with
      | response => cases hs
      | sendCommand | sendPing =>
        simp only [Coordinator.step] at hs
        split at hs
        · exact ⟨nofun, hs⟩
        · cases hs
      | heartbeat | settle | fail | retry | pingTimeout => exact ⟨nofun, hs⟩
    exact h.clientStep hsound hs.1 hs.2

theorem Kept.proper (h : Kept s) : Proper s where
  timers k tc hk htimer := by
    by_contra hcur
    have hretired := h.clients k tc hk
    rw [if_neg hcur] at hretired
    cases htimer.symm.trans hretired.timer
  deaths := h.deaths

end Steps

theorem kept_init : Kept {} where
  clients k tc hk := by cases hk
  deaths d hd := by cases hd

/-- In a run whose steps all meet the condition, the heartbeats are in order in every state. -/
theorem proper_of_sound {es : List CoordinatorEvent}
    (hsound : Machine.Throughout Coordinator.step Sound {} es) :
    Machine.Everywhere Coordinator.step Proper {} es :=
  (Machine.everywhere_of_throughout (I := Kept) kept_init hsound
    fun _ _ _ h hsound hs => h.step hsound hs).mono fun _ => Kept.proper

/-- A handshake, and a command to the new client `k`, which is answered in session `session`. -/
def paired (k session sequence : Nat) : List CoordinatorEvent :=
  [.performXXHandshake, .handshakeDone, .client k (.sendCommand .credentialRequest)] ++
    List.replicate 6 (.client k (.settle 0 0)) ++ [.frame session sequence .ok]

/-- Ping `i` of client `k`, as far as its timer. -/
def pinging (k i : Nat) (answer : List CoordinatorEvent) : List CoordinatorEvent :=
  [.client k (.heartbeat 20000), .client k (.settle i 0), .client k (.settle i 0)] ++ answer ++
    [.client k (.settle i 0), .client k (.pingTimeout i)]

/-- The phone is paired and falls silent: the transport is dead after three pings. -/
def silence : List CoordinatorEvent :=
  paired 0 0 1 ++ pinging 0 1 [] ++ pinging 0 2 [] ++ pinging 0 3 []

theorem silence_proper : Machine.Everywhere Coordinator.step Proper {} silence ∧
    (Machine.exec Coordinator.step {} silence).any (·.deaths.length = 1) = true :=
  ⟨proper_of_sound (by decide +kernel), by decide +kernel⟩

/-- The phone is paired a second time, and answers each ping of the first client. -/
def pairedTwice : List CoordinatorEvent :=
  paired 0 0 1 ++ [.performXXHandshake, .handshakeDone] ++ pinging 0 1 [.frame 1 2 .pong] ++
    pinging 0 2 [.frame 1 3 .pong] ++ pinging 0 3 [.frame 1 4 .pong]

/-- All pings that a death is about have been answered, over the session. -/
def diesAnswered (s : Coordinator) : Bool :=
  s.deaths.any fun d => !d.current && d.misses.all fun p => p.answered && p.session = d.session

/-- The pongs reach the second client only, and the first declares the transport dead. -/
theorem replaced_client_declares_death : ∃ s, Machine.Run Coordinator.step {} pairedTwice s ∧
    ¬Proper s := by
  have hdies : (Machine.exec Coordinator.step {} pairedTwice).any diesAnswered = true := by
    decide +kernel
  obtain ⟨s, run, hs⟩ := Machine.exists_run_with hdies
  refine ⟨s, run, ?_⟩
  intro h
  obtain ⟨d, hd, hdead⟩ := List.any_eq_true.mp hs
  obtain ⟨hcurrent, -⟩ := h.deaths d hd
  rw [hcurrent] at hdead
  cases hdead

end SmartIdVault.Command
