import SmartIdVault.Command.Client

/-! When a command client sends.  It can send without being called again as long as a call has not
made its first attempt or has a retry left, a heartbeat ping waits for its number, or the heartbeat
runs; and only a call makes a client that cannot send one that can. -/

namespace SmartIdVault.Command

open Pairing (ResponseStatus maxRetries)

/-- The call has yet to send its message, or can send it again. -/
def Call.maySend (c : Call) : Bool :=
  match c.pc with
  | .guarding | .reading | .writing _ | .signing | .counting | .countWriting _ | .rotating => true
  | .waiting attempts => !c.aborted && attempts < maxRetries
  | .sendingPing | .pinged | .resolved | .rejected | .orphaned => false

/-- A call in this place has just sent its message. -/
def Pc.sent : Pc → Bool
  | .sendingPing | .waiting _ => true
  | _ => false

/-- A step that a client makes without being called and without a response. -/
def Event.isOwn : Event → Bool
  | .heartbeat _ | .settle .. | .fail _ | .retry _ | .pingTimeout _ => true
  | .sendCommand _ | .sendPing | .response .. => false

namespace Client

variable {s t : Client} {c c' : Call} {i : Nat}

def maySend (s : Client) : Bool := s.heartbeatTimer || s.calls.any (·.maySend)

/-- The call whose message a step to `t` hands to `sendData`. -/
def sends (t : Client) : Event → Option Nat
  | .settle i _ | .retry i => if t.calls[i]?.any (·.pc.sent) then some i else none
  | _ => none

theorem maySend_of_timer (h : s.heartbeatTimer = true) : s.maySend = true := by
  rw [maySend, h, Bool.true_or]

theorem maySend_of_call (hc : s.calls[i]? = some c) (h : c.maySend = true) : s.maySend = true := by
  rw [maySend, Bool.or_eq_true]
  exact .inr (List.any_eq_true.mpr ⟨c, List.mem_of_getElem? hc, h⟩)

/-- A call that cannot send any more adds nothing. -/
theorem maySend_of_put (h : t.maySend = true) (hcalls : t.calls = s.calls.set i c')
    (hc' : c'.maySend = false) (htimer : t.heartbeatTimer = true → s.heartbeatTimer = true) :
    s.maySend = true := by
  rw [maySend, Bool.or_eq_true] at h
  rcases h with h | h
  · exact maySend_of_timer (htimer h)
  · rw [hcalls] at h
    obtain ⟨c, hmem, hc⟩ := List.any_eq_true.mp h
    rcases List.mem_or_eq_of_mem_set hmem with hold | rfl
    · rw [maySend, Bool.or_eq_true]
      exact .inr (List.any_eq_true.mpr ⟨c, hold, hc⟩)
    · rw [hc'] at hc
      contradiction

theorem maySend_of_modify {f : Call → Call} (h : t.maySend = true)
    (hcalls : t.calls = s.calls.modify i f) (hf : ∀ c, (f c).maySend = true → c.maySend = true)
    (htimer : t.heartbeatTimer = s.heartbeatTimer) : s.maySend = true := by
  rw [maySend, Bool.or_eq_true] at h
  rcases h with h | h
  · exact maySend_of_timer (htimer ▸ h)
  · rw [hcalls] at h
    obtain ⟨c, hmem, hc⟩ := List.any_eq_true.mp h
    obtain ⟨j, hj⟩ := List.mem_iff_getElem?.mp hmem
    rw [List.getElem?_modify] at hj
    obtain ⟨c', hc', rfl⟩ := Option.map_eq_some_iff.mp hj
    refine maySend_of_call hc' ?_
    split at hc
    · exact hf c' hc
    · exact hc

theorem not_sent_of_put (hcalls : t.calls = s.calls.set i c') (hc' : c'.pc.sent = false) :
    t.calls[i]?.any (·.pc.sent) = false := by
  rw [hcalls, List.getElem?_set_self']
  cases s.calls[i]? with
  | none => rfl
  | some c => exact hc'

/-! ### One step -/

/-- What call `i` awaits resolves: a client that can send then could before, and so could one that
does. -/
theorem maySend_of_settle {now : Nat} (hc : s.calls[i]? = some c) (hs : s.settle i now c = some t)
    (h : t.maySend = true ∨ t.calls[i]?.any (·.pc.sent) = true) : s.maySend = true := by
  unfold settle at hs
  split at hs
  case h_8 hpc =>
    obtain ⟨sequence, -, rfl⟩ := Option.map_eq_some_iff.mp hs
    rcases h with h | h
    · exact maySend_of_put h rfl rfl id
    · rw [not_sent_of_put rfl rfl] at h
      contradiction
  case h_9 => contradiction
  all_goals
    rename_i hpc
    exact maySend_of_call hc (by rw [Call.maySend, hpc])

theorem maySend_of_fail (hc : s.calls[i]? = some c) (hs : s.fail i c = some t) :
    s.maySend = true := by
  unfold fail at hs
  split at hs
  case h_7 => contradiction
  all_goals
    rename_i hpc
    exact maySend_of_call hc (by rw [Call.maySend, hpc])

theorem maySend_of_retry (hc : s.calls[i]? = some c) (hs : s.retry i c = some t)
    (h : t.maySend = true ∨ t.calls[i]?.any (·.pc.sent) = true) : s.maySend = true := by
  unfold retry at hs
  split at hs
  next attempts sequence hpc hsequence =>
    have hends {u : Client} {pc : Pc}
        (h : u.maySend = true ∨ u.calls[i]?.any (·.pc.sent) = true)
        (hcalls : u.calls = s.calls.set i { c with pc })
        (hpc : Call.maySend { c with pc } = false ∧ pc.sent = false)
        (htimer : u.heartbeatTimer = s.heartbeatTimer) : s.maySend = true := by
      rcases h with h | h
      · exact maySend_of_put h hcalls hpc.1 fun ht => htimer ▸ ht
      · rw [not_sent_of_put hcalls hpc.2] at h
        contradiction
    split at hs
    · contradiction
    next haborted =>
      split at hs
      · split at hs
        · cases hs
          exact hends h rfl ⟨rfl, rfl⟩ rfl
        next hlt =>
          refine maySend_of_call hc ?_
          rw [Call.maySend, hpc]
          simpa [haborted] using Nat.lt_of_not_le hlt
      · cases hs
        exact hends h rfl ⟨rfl, rfl⟩ rfl
  · contradiction

theorem maySend_of_pingTimeout (hs : s.pingTimeout i c = some t) (h : t.maySend = true) :
    s.maySend = true := by
  unfold pingTimeout at hs
  split at hs
  next sequence hpc hsequence =>
    simp only at hs
    split at hs
    · cases hs
      exact maySend_of_put h rfl rfl id
    · split at hs
      · cases hs
        refine maySend_of_put h rfl rfl fun htimer => ?_
        exact (Bool.and_eq_true_iff.mp htimer).1
      · cases hs
        exact maySend_of_put h rfl rfl id
  · contradiction

theorem maySend_of_abort {sequence : Nat} (h : (s.abort sequence).maySend = true) :
    s.maySend = true := by
  unfold abort at h
  split at h
  · exact h
  · refine maySend_of_modify h rfl (fun c hc => ?_) rfl
    unfold Call.maySend at hc ⊢
    split at hc <;> simp_all

theorem maySend_of_response {sequence : Nat} {status : ResponseStatus}
    (h : (s.handleIncomingResponse sequence status).maySend = true) : s.maySend = true := by
  have hpong {u : Client} (hu : (u.pong sequence status).maySend = true) : u.maySend = true := by
    unfold pong at hu
    split at hu
    · have hold := maySend_of_abort hu
      exact hold
    · exact hu
  unfold handleIncomingResponse at h
  simp only at h
  split at h
  · exact hpong h
  · refine hpong (maySend_of_abort (maySend_of_modify h rfl (fun c hc => ?_) rfl))
    by_cases herror : status = .error <;> simp [Call.maySend, herror] at hc

/-- A client that makes a step on its own and can send then could before, and so could one that
sends. -/
theorem maySend_of_step {e : Event} (hown : e.isOwn = true) (hs : s.step e = some t)
    (h : t.maySend = true ∨ (t.sends e).isSome = true) : s.maySend = true := by
  have hsent {i : Nat} (h : (if t.calls[i]?.any (·.pc.sent) then some i else none).isSome = true) :
      t.calls[i]?.any (·.pc.sent) = true := by
    split at h
    next hany => exact hany
    next => contradiction
  cases e with
  | heartbeat now =>
    simp only [step, Option.ite_none_right_eq_some] at hs
    exact maySend_of_timer hs.1
  | settle i now =>
    obtain ⟨c, hc, hs⟩ := Option.bind_eq_some_iff.mp hs
    exact maySend_of_settle hc hs (h.imp_right hsent)
  | fail i =>
    obtain ⟨c, hc, hs⟩ := Option.bind_eq_some_iff.mp hs
    exact maySend_of_fail hc hs
  | retry i =>
    obtain ⟨c, hc, hs⟩ := Option.bind_eq_some_iff.mp hs
    exact maySend_of_retry hc hs (h.imp_right hsent)
  | pingTimeout i =>
    obtain ⟨c, -, hs⟩ := Option.bind_eq_some_iff.mp hs
    exact maySend_of_pingTimeout hs (h.resolve_right (by simp [sends]))
  | sendCommand command => contradiction
  | sendPing => contradiction
  | response sequence status => contradiction

end Client

end SmartIdVault.Command
