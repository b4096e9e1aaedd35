import SmartIdVault.Command.Client

/-! What a step of the command client does to its heartbeat: to the timer, to the ping that is
pending, and to the count of missed ones. -/

namespace SmartIdVault.Command

open Pairing (ResponseStatus maxMissedPings)

/-- The next that `sendCommand` does may be to start the heartbeat. -/
def Pc.last : Pc → Bool
  | .countWriting _ | .rotating => true
  | _ => false

namespace Client

variable {s t : Client} {e : Event} {i now sequence : Nat} {status : ResponseStatus}

/-- The number of the heartbeat ping that a step sends. -/
def pings (s : Client) : Event → Option Nat
  | .settle i _ =>
    match s.calls[i]? with
    | some { command := none, pc := .writing next, .. } => some next
    | _ => none
  | _ => none

/-- A step counts a missed ping. -/
def counts (s : Client) : Event → Bool
  | .pingTimeout i => s.calls[i]?.any fun c =>
      c.pc = .pinged ∧ c.aborted = false ∧ c.sequence.isSome ∧ s.pendingPingSeq = c.sequence
  | _ => false

/-- A step may be the end of `sendCommand` for a command that is no ping. -/
def commands (s : Client) : Event → Bool
  | .settle i _ => s.calls[i]?.any fun c => c.command ≠ some .ping ∧ c.pc.last
  | _ => false

/-- The heartbeat of `t` is that of `s`. -/
def SameHeartbeat (s t : Client) : Prop :=
  t.pendingPingSeq = s.pendingPingSeq ∧ t.missedPings = s.missedPings ∧
    t.heartbeatTimer = s.heartbeatTimer ∧ t.transportDead = s.transportDead

/-- A step sends a heartbeat ping, counts a missed one, starts the heartbeat at the end of a
command, or leaves it alone. -/
inductive HeartbeatStep (s : Client) (e : Event) (t : Client) : Prop
  | same (hpings : s.pings e = none) (hcounts : s.counts e = false) (h : SameHeartbeat s t)
  | sends (next : Nat) (hpings : s.pings e = some next) (hcounts : s.counts e = false)
      (hpending : t.pendingPingSeq = some next) (hmissed : t.missedPings = s.missedPings)
      (htimer : t.heartbeatTimer = s.heartbeatTimer) (hdead : t.transportDead = s.transportDead)
  | misses (hpings : s.pings e = none) (hcounts : s.counts e = true)
      (hpending : t.pendingPingSeq = none) (hmissed : t.missedPings = s.missedPings + 1)
      (htimer : t.heartbeatTimer = true → s.heartbeatTimer = true)
      (hdead : t.transportDead =
        s.transportDead + if maxMissedPings ≤ s.missedPings + 1 then 1 else 0)
  | starts (hpings : s.pings e = none) (hcounts : s.counts e = false)
      (hcommands : s.commands e = true) (hpending : t.pendingPingSeq = s.pendingPingSeq)
      (hmissed : t.missedPings = s.missedPings) (hdead : t.transportDead = s.transportDead)

theorem pings_none {c : Call} (hi : s.calls[i]? = some c) (hpc : ∀ next, c.pc ≠ .writing next) :
    s.pings (.settle i now) = none := by
  simp only [pings, hi]
  split
  next heq =>
    cases heq
    exact absurd rfl (hpc _)
  next => rfl

/-- The end of `sendCommand`, from a client with the same heartbeat. -/
theorem dispatch_heartbeat {c : Call} {u : Client} (hi : s.calls[i]? = some c)
    (hlast : c.pc.last = true) (hu : SameHeartbeat s u)
    (ht : c.sequence.map (u.dispatch i now c) = some t) : HeartbeatStep s (.settle i now) t := by
  obtain ⟨sequence, -, rfl⟩ := Option.map_eq_some_iff.mp ht
  have hpings : s.pings (.settle i now) = none := by
    apply pings_none hi
    intro next hpc
    rw [hpc] at hlast
    cases hlast
  by_cases hping : c.command = some .ping
  · refine .same hpings rfl ⟨hu.1, hu.2.1, ?_, hu.2.2.2⟩
    simp [dispatch, hping, hu.2.2.1]
  · exact .starts hpings rfl (by simp [commands, hi, hping, hlast]) hu.1 hu.2.1 hu.2.2.2

theorem settle_heartbeat {c : Call} (hi : s.calls[i]? = some c) (hs : s.settle i now c = some t) :
    HeartbeatStep s (.settle i now) t := by
  have hsame : c.pc.last = false → (∀ next, c.pc ≠ .writing next) → SameHeartbeat s t →
      HeartbeatStep s (.settle i now) t := fun _ hpc h => .same (pings_none hi hpc) rfl h
  obtain ⟨command, pc, sequence, aborted⟩ := c
  cases pc with
  | guarding | reading =>
    obtain rfl := Option.some.inj hs
    exact hsame rfl nofun ⟨rfl, rfl, rfl, rfl⟩
  | writing next =>
    obtain rfl := Option.some.inj hs
    cases command with
    | some command =>
      exact .same (by simp [pings, hi]) rfl ⟨rfl, rfl, rfl, rfl⟩
    | none => exact .sends next (by simp [pings, hi]) rfl rfl rfl rfl rfl
  | signing =>
    simp only [settle] at hs
    split at hs <;> cases hs <;> exact hsame rfl nofun ⟨rfl, rfl, rfl, rfl⟩
  | counting =>
    simp only [settle] at hs
    split at hs <;> cases hs
    exact hsame rfl nofun ⟨rfl, rfl, rfl, rfl⟩
  | countWriting next =>
    simp only [settle] at hs
    split at hs
    · split at hs
      · obtain rfl := Option.some.inj hs
        exact .same (pings_none hi nofun) rfl ⟨rfl, rfl, rfl, rfl⟩
      · exact dispatch_heartbeat
          (u := { s with storedCount := next, countChain := s.countChain.tail })
          hi rfl ⟨rfl, rfl, rfl, rfl⟩ hs
    · cases hs
  | rotating => exact dispatch_heartbeat hi rfl ⟨rfl, rfl, rfl, rfl⟩ hs
  | sendingPing =>
    obtain ⟨sequence, -, rfl⟩ := Option.map_eq_some_iff.mp hs
    exact hsame rfl nofun ⟨rfl, rfl, rfl, rfl⟩
  | waiting | pinged | resolved | rejected | orphaned => cases hs

theorem pingTimeout_heartbeat {c : Call} (hi : s.calls[i]? = some c)
    (hs : s.pingTimeout i c = some t) : HeartbeatStep s (.pingTimeout i) t := by
  obtain ⟨command, pc, sequence, aborted⟩ := c
  simp only [pingTimeout] at hs
  split at hs
  next sequence =>
    split at hs
    next haborted =>
      obtain rfl := Option.some.inj hs
      exact .same rfl (by simp [counts, hi, haborted]) ⟨rfl, rfl, rfl, rfl⟩
    next haborted =>
      split at hs
      next hpending =>
        obtain rfl := Option.some.inj hs
        have hpending : s.pendingPingSeq = some sequence := hpending
        refine .misses rfl (by simp [counts, hi, haborted, hpending]) rfl rfl (?_) rfl
        intro ht
        exact (Bool.and_eq_true_iff.mp ht).1
      next hpending =>
        obtain rfl := Option.some.inj hs
        have hpending : s.pendingPingSeq ≠ some sequence := hpending
        exact .same rfl (by simp [counts, hi, hpending]) ⟨rfl, rfl, rfl, rfl⟩
  next => cases hs

theorem step_heartbeat (hs : s.step e = some t)
    (he : ∀ sequence status, e ≠ .response sequence status) : HeartbeatStep s e t := by
  cases e with
  | sendCommand command =>
    obtain rfl := Option.some.inj hs
    exact .same rfl rfl ⟨rfl, rfl, rfl, rfl⟩
  | sendPing =>
    obtain rfl := Option.some.inj hs
    simp only [sendPing]
    split <;> exact .same rfl rfl ⟨rfl, rfl, rfl, rfl⟩
  | heartbeat now =>
    simp only [step] at hs
    split at hs
    · obtain rfl := Option.some.inj hs
      simp only [heartbeat]
      split <;> exact .same rfl rfl ⟨rfl, rfl, rfl, rfl⟩
    · cases hs
  | settle i now =>
    obtain ⟨c, hi, hs⟩ := Option.bind_eq_some_iff.mp hs
    exact settle_heartbeat hi hs
  | fail i =>
    obtain ⟨c, -, hs⟩ := Option.bind_eq_some_iff.mp hs
    simp only [fail] at hs
    split at hs
    all_goals try cases hs
    · exact .same rfl rfl ⟨rfl, rfl, rfl, rfl⟩
    · exact .same rfl rfl ⟨rfl, rfl, rfl, rfl⟩
    · exact .same rfl rfl ⟨rfl, rfl, rfl, rfl⟩
    · exact .same rfl rfl ⟨rfl, rfl, rfl, rfl⟩
    all_goals
      split at hs <;> cases hs
      exact .same rfl rfl ⟨rfl, rfl, rfl, rfl⟩
  | retry i =>
    obtain ⟨c, -, hs⟩ := Option.bind_eq_some_iff.mp hs
    simp only [retry] at hs
    split at hs
    · split at hs
      · cases hs
      · split at hs
        · split at hs <;> cases hs <;> exact .same rfl rfl ⟨rfl, rfl, rfl, rfl⟩
        · cases hs
          exact .same rfl rfl ⟨rfl, rfl, rfl, rfl⟩
    · cases hs
  | pingTimeout i =>
    obtain ⟨c, hi, hs⟩ := Option.bind_eq_some_iff.mp hs
    exact pingTimeout_heartbeat hi hs
  | response sequence status => exact absurd rfl (he sequence status)

/-- A response resets the count of missed pings if it is the pong that is waited for. -/
theorem response_heartbeat :
    let t := s.handleIncomingResponse sequence status
    t.heartbeatTimer = s.heartbeatTimer ∧
      if status = .pong ∧ s.pendingPingSeq = some sequence then
        t.pendingPingSeq = none ∧ t.missedPings = 0
      else t.pendingPingSeq = s.pendingPingSeq ∧ t.missedPings = s.missedPings := by
  have habort : ∀ u : Client, SameHeartbeat u (u.abort sequence) := by
    intro u
    simp only [abort]
    split <;> exact ⟨rfl, rfl, rfl, rfl⟩
  have hrest : SameHeartbeat (s.pong sequence status)
      (s.handleIncomingResponse sequence status) := by
    unfold handleIncomingResponse
    generalize s.pong sequence status = u
    dsimp only
    split
    · exact ⟨rfl, rfl, rfl, rfl⟩
    · exact habort u
  obtain ⟨hpending, hmissed, htimer, -⟩ := hrest
  refine ⟨htimer.trans ?_, ?_⟩
  · simp only [pong]
    split
    · exact (habort _).2.2.1
    · rfl
  · rw [hpending, hmissed, pong]
    split
    · exact ⟨(habort _).1, (habort _).2.1⟩
    · exact ⟨rfl, rfl⟩

end Client

end SmartIdVault.Command
