import SmartIdVault.Usb.Transport

/-! Transfers of an earlier connection of the USB transport.  `disconnect` clears the flag that a
loop looks at when its transfer rejects, and the next `connect` sets it again, so a transfer that
rejects after that is taken for one of the new connection; data that arrives late is handed on
without a look at anything.  Both are harmless as long as no connection is made while a loop of an
earlier one still waits, and such a loop gets no data any more. -/

namespace SmartIdVault.Usb.WebUsbTransport

variable {s t : WebUsbTransport} {e : Event} {l : Nat} {loop loop' : ReadLoop}

/-- At most one read loop is live. -/
def OneLoop (s : WebUsbTransport) : Prop :=
  ∀ (l l' : Nat) (loop loop' : ReadLoop), s.loops[l]? = some loop → s.loops[l']? = some loop' →
    loop.isLive = true → loop'.isLive = true → l = l'

/-- What a step leaves as it has to be: one loop, data from the device that is connected, and a
connection that no transfer of an earlier one ends. -/
structure Unaffected (s : WebUsbTransport) (e : Event) (t : WebUsbTransport) : Prop where
  alone : t.OneLoop
  delivered : ∀ x ∈ t.delivered, x ∈ s.delivered ∨ s.device = some x.device ∧ s.connected = true
  rejected : ∀ l device connection : Nat, e = .transferFailed l →
    s.loops[l]? = some (.transferring device connection) → connection < s.connections →
      t.device = s.device ∧ t.endpoints = s.endpoints ∧ t.connected = s.connected ∧
        t.notified = s.notified

def Sound (s : WebUsbTransport) (e : Event) : Prop := ∀ t, step s e = some t → Unaffected s e t

/-- A connection is made when all read loops of earlier ones have ended, and a transfer whose device
has been let go brings no data. -/
def Settled (s : WebUsbTransport) : Event → Prop
  | .opened _ configuration _ =>
    (findEndpointPair configuration).isSome = true → ∀ loop ∈ s.loops, loop.isLive = false
  | .transferred _ data => data ≠ [] → s.device.isSome = true
  | _ => True

instance (s : WebUsbTransport) : (e : Event) → Decidable (s.Settled e)
  | .opened _ configuration _ => inferInstanceAs (Decidable
      ((findEndpointPair configuration).isSome = true → ∀ loop ∈ s.loops, loop.isLive = false))
  | .transferred _ data => inferInstanceAs (Decidable (data ≠ [] → s.device.isSome = true))
  | .onMessage _ | .removeMessageListener _ | .onDisconnect _ | .removeDisconnectListener _
  | .connect | .gotDevices .. | .connectFailed _ | .unusableClosed _ | .disconnect | .closed _
  | .transferFailed _ | .looped .. => instDecidableTrue

/-- The one loop waits for the device of the connection made last, which may have been let go. -/
structure Inv (s : WebUsbTransport) : Prop where
  alone : s.OneLoop
  current : ∀ l device connection : Nat, s.loops[l]? = some (.transferring device connection) →
    connection = s.connections ∧ (s.device = some device ∨ s.device = none)
  connected : s.connected = s.device.isSome

/-! ### Frames -/

theorem turn_transferring {isOpened : Bool} {device connection : Nat}
    (h : s.turn isOpened = .transferring device connection) :
    connection = s.connections ∧ s.device = some device := by
  unfold turn at h
  split at h
  · rename_i d _ hdevice _
    split at h
    · obtain ⟨rfl, rfl⟩ := ReadLoop.transferring.inj h
      exact ⟨rfl, hdevice⟩
    · cases h
  · cases h

/-- Only calls, callbacks and the flag change. -/
structure SameLoops (s t : WebUsbTransport) : Prop where
  loops : t.loops = s.loops
  device : t.device = s.device
  connected : t.connected = s.connected
  connections : t.connections = s.connections
  delivered : t.delivered = s.delivered

theorem Inv.congr (h : Inv s) (hsame : SameLoops s t) : Inv t := by
  obtain ⟨halone, hcurrent, hflag⟩ := h
  refine ⟨?_, ?_, ?_⟩
  · rwa [OneLoop, hsame.loops]
  · rwa [hsame.loops, hsame.device, hsame.connections]
  · rwa [hsame.connected, hsame.device]

theorem Inv.release (h : Inv s) : Inv s.release := by
  refine ⟨h.alone, ?_, rfl⟩
  intro l device connection hl
  exact ⟨(h.current l device connection hl).1, .inr rfl⟩

/-- A live loop goes on, to a transfer of the current connection if to any. -/
theorem Inv.putLoop (h : Inv s) (hl : s.loops[l]? = some loop) (hlive : loop.isLive = true)
    (hnew : ∀ device connection, loop' = .transferring device connection →
      connection = s.connections ∧ s.device = some device) : Inv (s.putLoop l loop') := by
  have hplace : ∀ j x, (s.putLoop l loop').loops[j]? = some x → x.isLive = true → j = l := by
    intro j x hj hx
    obtain ⟨rfl, -⟩ | ⟨-, hj⟩ := Tasks.get_set hj
    · rfl
    · exact h.alone j l x loop hj hl hx hlive
  refine ⟨?_, ?_, h.connected⟩
  · intro j j' x x' hj hj' hx hx'
    rw [hplace j x hj hx, hplace j' x' hj' hx']
  · intro j device connection hj
    obtain ⟨-, hx⟩ | ⟨-, hj⟩ := Tasks.get_set hj
    · obtain ⟨hconnection, hdevice⟩ := hnew device connection hx.symm
      exact ⟨hconnection, .inl hdevice⟩
    · exact h.current j device connection hj

/-! ### Steps -/

/-- What a step does to the loops, the connection and the data that has been delivered. -/
inductive LoopStep (s : WebUsbTransport) : Event → WebUsbTransport → Prop
  | same {e : Event} {t : WebUsbTransport} (h : SameLoops s t) : LoopStep s e t
  | releases {e : Event} {t : WebUsbTransport} (h : SameLoops s.release t) : LoopStep s e t
  | opened (i android : Nat) (configuration : Option Configuration) (isOpened : Bool) :
      LoopStep s (.opened i configuration isOpened) (s.opened i android configuration isOpened)
  | transferred (l device connection : Nat) (data : Bytes)
      (hl : s.loops[l]? = some (.transferring device connection)) :
      LoopStep s (.transferred l data) (s.transferred l device data)
  | transferFailed (l device connection : Nat)
      (hl : s.loops[l]? = some (.transferring device connection)) :
      LoopStep s (.transferFailed l) (s.transferFailed l)
  | looped (l : Nat) (isOpened : Bool) (hl : s.loops[l]? = some .looping) :
      LoopStep s (.looped l isOpened) (s.putLoop l (s.turn isOpened))

theorem loop_step (hs : step s e = some t) : LoopStep s e t := by
  cases e with
  | onMessage | removeMessageListener | onDisconnect | removeDisconnectListener =>
    obtain rfl := Option.some.inj hs
    exact .same ⟨rfl, rfl, rfl, rfl, rfl⟩
  | connect =>
    obtain rfl := Option.some.inj hs
    unfold connect
    split <;> exact .same ⟨rfl, rfl, rfl, rfl, rfl⟩
  | gotDevices i devices =>
    simp only [step] at hs
    split at hs
    · obtain rfl := Option.some.inj hs
      unfold gotDevices
      split <;> exact .same ⟨rfl, rfl, rfl, rfl, rfl⟩
    · cases hs
  | opened i configuration isOpened =>
    simp only [step] at hs
    split at hs
    · obtain rfl := Option.some.inj hs
      exact .opened ..
    · cases hs
  | connectFailed i | unusableClosed i =>
    simp only [step] at hs
    split at hs
    all_goals first
      | obtain rfl := Option.some.inj hs
        exact .same ⟨rfl, rfl, rfl, rfl, rfl⟩
      | cases hs
  | disconnect =>
    obtain rfl := Option.some.inj hs
    unfold disconnect
    split
    · exact .same ⟨rfl, rfl, rfl, rfl, rfl⟩
    · exact .releases ⟨rfl, rfl, rfl, rfl, rfl⟩
  | closed i =>
    simp only [step] at hs
    split at hs
    · obtain rfl := Option.some.inj hs
      exact .releases ⟨rfl, rfl, rfl, rfl, rfl⟩
    · cases hs
  | transferred l data =>
    simp only [step] at hs
    split at hs
    · rename_i device connection hl
      obtain rfl := Option.some.inj hs
      exact .transferred l device connection data hl
    · cases hs
  | transferFailed l =>
    simp only [step] at hs
    split at hs
    · rename_i device connection hl
      obtain rfl := Option.some.inj hs
      exact .transferFailed l device connection hl
    · cases hs
  | looped l isOpened =>
    simp only [step] at hs
    split at hs
    · rename_i hl
      obtain rfl := Option.some.inj hs
      exact .looped l isOpened hl
    · cases hs

/-- A loop started after all others have ended is the only one. -/
theorem inv_startReadLoop {isOpened : Bool} (hconnected : s.connected = s.device.isSome)
    (hended : ∀ loop ∈ s.loops, loop.isLive = false) : Inv (s.startReadLoop isOpened) := by
  have hnone : ∀ (l : Nat) (loop : ReadLoop), s.loops[l]? = some loop →
      loop.isLive = true → False := by
    intro l loop hl hlive
    rw [hended loop (List.mem_of_getElem? hl)] at hlive
    cases hlive
  unfold startReadLoop
  split
  · refine ⟨?_, ?_, hconnected⟩
    · intro l l' loop loop' hl _ hlive
      exact (hnone l loop hl hlive).elim
    · intro l device connection hl
      exact (hnone l _ hl rfl).elim
  · refine ⟨?_, ?_, hconnected⟩
    · intro l l' loop loop' hl hl' hlive hlive'
      obtain hl | ⟨hl, -⟩ := Tasks.get_append hl
      · exact (hnone l loop hl hlive).elim
      obtain hl' | ⟨hl', -⟩ := Tasks.get_append hl'
      · exact (hnone l' loop' hl' hlive').elim
      · rw [hl, hl']
    · intro l device connection hl
      obtain hl | ⟨-, hturn⟩ := Tasks.get_append hl
      · exact (hnone l _ hl rfl).elim
      · obtain ⟨hconnection, hdevice⟩ := turn_transferring hturn.symm
        exact ⟨hconnection, .inl hdevice⟩

theorem Inv.opened {i android : Nat} {configuration : Option Configuration} {isOpened : Bool}
    (h : Inv s) (hg : s.Settled (.opened i configuration isOpened)) :
    Inv (s.opened i android configuration isOpened) := by
  unfold WebUsbTransport.opened
  split
  · exact h.congr ⟨rfl, rfl, rfl, rfl, rfl⟩
  · rename_i endpoints hpair
    have hended : ∀ loop ∈ s.loops, loop.isLive = false := hg (by simp [hpair])
    exact inv_startReadLoop rfl hended

theorem Inv.transferred {device connection : Nat} (h : Inv s)
    (hl : s.loops[l]? = some (.transferring device connection)) (data : Bytes) :
    Inv (s.transferred l device data) := by
  obtain ⟨halone, hcurrent, hconnected⟩ : Inv (s.putLoop l .looping) := h.putLoop hl rfl nofun
  unfold WebUsbTransport.transferred
  dsimp only
  split
  · exact ⟨halone, hcurrent, hconnected⟩
  · exact ⟨halone, hcurrent, hconnected⟩

theorem Inv.transferFailed {device connection : Nat} (h : Inv s)
    (hl : s.loops[l]? = some (.transferring device connection)) : Inv (s.transferFailed l) := by
  have hput : Inv (s.putLoop l .ended) := h.putLoop hl rfl nofun
  unfold WebUsbTransport.transferFailed
  dsimp only
  split
  · exact hput.release.congr ⟨rfl, rfl, rfl, rfl, rfl⟩
  · exact hput

theorem Inv.step (h : Inv s) (hg : s.Settled e) (hs : WebUsbTransport.step s e = some t) :
    Inv t := by
  cases loop_step hs with
  | same hsame => exact h.congr hsame
  | releases hsame => exact h.release.congr hsame
  | opened i android configuration isOpened => exact h.opened hg
  | transferred l device connection data hl => exact h.transferred hl data
  | transferFailed l device connection hl => exact h.transferFailed hl
  | looped l isOpened hl => exact h.putLoop hl rfl fun device connection => turn_transferring

theorem delivered_opened (i android : Nat) (configuration : Option Configuration)
    (isOpened : Bool) : (s.opened i android configuration isOpened).delivered = s.delivered := by
  unfold opened
  split
  · rfl
  · unfold startReadLoop
    split <;> rfl

/-- Only a transfer that resolves delivers data, to the callbacks and from its device. -/
theorem delivered_step (hs : step s e = some t) : t.delivered = s.delivered ∨
    ∃ l device connection data, e = .transferred l data ∧ data ≠ [] ∧
      s.loops[l]? = some (.transferring device connection) ∧
      ∀ x ∈ t.delivered, x ∈ s.delivered ∨ x.device = device := by
  cases loop_step hs with
  | same hsame => exact .inl hsame.delivered
  | releases hsame => exact .inl hsame.delivered
  | opened i android configuration isOpened => exact .inl (delivered_opened ..)
  | transferred l device connection data hl =>
    by_cases hdata : data = []
    · refine .inl ?_
      simp [transferred, hdata, putLoop]
    · refine .inr ⟨l, device, connection, data, rfl, hdata, hl, ?_⟩
      intro x hx
      simp only [transferred, if_neg hdata, List.mem_append, List.mem_map] at hx
      obtain hold | ⟨callback, -, rfl⟩ := hx
      · exact .inl hold
      · exact .inr rfl
  | transferFailed l device connection hl =>
    refine .inl ?_
    unfold transferFailed
    dsimp only
    split <;> rfl
  | looped l isOpened hl => exact .inl rfl

theorem Inv.sound (h : Inv s) (hg : s.Settled e) : s.Sound e := by
  intro t hs
  refine ⟨(h.step hg hs).alone, ?_, ?_⟩
  · intro x hx
    obtain hsame | ⟨l, device, connection, data, rfl, hdata, hl, hfrom⟩ := delivered_step hs
    · exact .inl (hsame ▸ hx)
    obtain hold | rfl := hfrom x hx
    · exact .inl hold
    have hsome : s.device.isSome = true := hg hdata
    obtain hdevice | hnone := (h.current l x.device connection hl).2
    · exact .inr ⟨hdevice, by rw [h.connected, hsome]⟩
    · rw [hnone] at hsome
      cases hsome
  · intro l device connection _ hl hlt
    have := (h.current l device connection hl).1
    omega

theorem Inv.init : Inv {} := ⟨nofun, nofun, rfl⟩

/-- In every run of calls, settling awaits, transfers of any device and listeners, in which a
connection is made only when all read loops of earlier ones have ended and a transfer whose device
has been let go brings no data: there is one read loop at most, data is delivered only from the
device that is connected, and no transfer of an earlier connection ends a later one or calls its
disconnect callbacks. -/
theorem sound_of_settled {es : List Event} (hg : Machine.Throughout step Settled {} es) :
    Machine.Throughout step Sound {} es :=
  hg.of_invariant Inv.init (fun _ _ _ (h : Inv _) hg hs => h.step hg hs)
    fun _ _ (h : Inv _) hg => h.sound hg

/-! ### A reconnection -/

/-- A phone with one pair of endpoints. -/
def samplePhone : UsbDevice := ⟨7, 0x18D1⟩

def sampleConfiguration : Option Configuration := some [[[⟨.in_, 1⟩, ⟨.out, 2⟩]]]

def connecting (i : Nat) : List Event :=
  [.connect, .gotDevices i [samplePhone], .opened i sampleConfiguration true]

/-- The phone is disconnected and connected again before its first transfer settles. -/
def reconnected : List Event :=
  [.onDisconnect 0] ++ connecting 0 ++ [.disconnect, .closed 0] ++ connecting 1

/-- When the first transfer rejects after that, it ends the second connection and calls the
disconnect callback, and the second loop is still live. -/
theorem stale_transfer_ends_connection :
    (∃ s t, Run {} reconnected s ∧ step s (.transferFailed 0) = some t ∧
      s.loops = [.transferring 7 1, .transferring 7 2] ∧ s.device = some 7 ∧ s.connected = true ∧
      t.device = none ∧ t.connected = false ∧ t.notified = [0]) ∧
      ¬Machine.Throughout step Sound {} (reconnected ++ [.transferFailed 0]) := by
  have hexec : (Machine.exec step {} reconnected).any (fun s =>
      (step s (.transferFailed 0)).any fun t =>
        s.loops = [.transferring 7 1, .transferring 7 2] ∧ s.device = some 7 ∧
          s.connected = true ∧ s.connections = 2 ∧ t.device = none ∧ t.connected = false ∧
          t.notified = [0]) = true := by decide +kernel
  obtain ⟨s, hrun, hstep⟩ := Machine.exists_run_with hexec
  obtain ⟨t, hs, ht⟩ := (Option.any_eq_true ..).mp hstep
  obtain ⟨hloops, hdevice, hconnected, hcount, hdevice', hconnected', hnotified⟩ :=
    of_decide_eq_true ht
  refine ⟨⟨s, t, hrun, hs, hloops, hdevice, hconnected, hdevice', hconnected', hnotified⟩, ?_⟩
  intro hsound
  have hfirst : s.loops[0]? = some (.transferring 7 1) := by rw [hloops]; rfl
  obtain ⟨hkept, -⟩ := (hsound.at hrun t hs).rejected 0 7 1 rfl hfirst (by omega)
  rw [hdevice, hdevice'] at hkept
  cases hkept

/-- The phone is connected again after its first transfer has rejected. -/
def afterwards : List Event :=
  [.onDisconnect 0] ++ connecting 0 ++ [.disconnect, .closed 0, .transferFailed 0] ++
    connecting 1 ++ [.transferred 1 [1, 2]]

theorem reconnection_afterwards_is_sound :
    (∃ t, Run {} afterwards t ∧ t.connected = true ∧ t.notified = []) ∧
      Machine.Throughout step Sound {} afterwards := by
  have hexec : (Machine.exec step {} afterwards).any
      (fun t => t.connected = true ∧ t.notified = []) = true := by decide +kernel
  obtain ⟨t, hrun, ht⟩ := Machine.exists_run_with hexec
  obtain ⟨hconnected, hnotified⟩ := of_decide_eq_true ht
  exact ⟨⟨t, hrun, hconnected, hnotified⟩, sound_of_settled (by decide +kernel)⟩

end SmartIdVault.Usb.WebUsbTransport
