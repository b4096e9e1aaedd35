import SmartIdVault.NativeHost.Session

/-! What a step of the native host can do, said once: `Effect` lists, for each event, the states it
can lead to together with the guards under which it does, and `step_effect` reads that list off the
handlers.  The invariants of the host are case analyses over it. -/

namespace SmartIdVault.NativeHost

namespace Host

def current (s : Host) : Option CryptoSession := s.cryptoSession.bind fun i => s.sessions[i]?

/-- The key under which `send-payload` would seal. -/
def sendKey (s : Host) : Option Bytes :=
  if !s.connected || s.device.isNone then none else s.current.bind (·.key)

def stoppedLoops (s : Host) : List ReadLoop :=
  match s.readLoop with
  | none => s.loops
  | some i => s.loops.modify i fun l => { l with cancelled := true }

def zeroedSessions (s : Host) : List CryptoSession :=
  match s.cryptoSession with
  | none => s.sessions
  | some i => s.sessions.modify i CryptoSession.zero

theorem stopReadLoop_eq (s : Host) :
    s.stopReadLoop = { s with readLoop := none, loops := s.stoppedLoops } := by
  unfold stopReadLoop stoppedLoops
  cases h : s.readLoop with
  | none => simp [← h]
  | some i => rfl

theorem closeLocked_eq (s : Host) :
    s.closeLocked = { s with
      readLoop := none, loops := s.stoppedLoops, cryptoSession := none,
      sessions := s.zeroedSessions, device := none, usbRW := none, connected := false } := by
  unfold closeLocked zeroCryptoSession zeroedSessions
  rw [stopReadLoop_eq]
  cases s.cryptoSession <;> simp [modifySession]

theorem getElem?_setPc (s : Host) (i j : LoopId) (pc : LoopPc) :
    (s.setPc i pc).loops[j]? =
      if i = j then s.loops[j]?.map fun l => { l with pc } else s.loops[j]? := by
  simp only [setPc, List.getElem?_modify]
  split <;> simp

theorem getElem?_stoppedLoops {s : Host} {i : LoopId} {l : ReadLoop} (hl : s.loops[i]? = some l) :
    ∃ l', s.stoppedLoops[i]? = some l' ∧ l'.pc = l.pc := by
  unfold stoppedLoops
  cases s.readLoop with
  | none => exact ⟨l, hl, rfl⟩
  | some j =>
    simp only [List.getElem?_modify, hl]
    by_cases hji : j = i
    · exact ⟨{ l with cancelled := true }, by simp [hji], rfl⟩
    · exact ⟨l, by simp [hji], rfl⟩

theorem written_closeLocked (s : Host) : s.closeLocked.written = s.written := by
  rw [closeLocked_eq]

/-- `w` is `u` and then messages that no read loop wrote. -/
def ByHandlers (u w : List (Source × Message)) : Prop :=
  ∃ ms, w = u ++ ms ∧ ∀ m ∈ ms, ∀ i, m.1 ≠ .loop i

theorem ByHandlers.stdin (u : List (Source × Message)) (msg : Message) :
    ByHandlers u (u ++ [(Source.stdin, msg)]) :=
  ⟨_, rfl, by simp⟩

theorem ByHandlers.hotplug (u : List (Source × Message)) (msg : Message) :
    ByHandlers u (u ++ [(Source.hotplug, msg)]) :=
  ⟨_, rfl, by simp⟩

theorem ByHandlers.trans {u v w : List (Source × Message)} (h : ByHandlers u v)
    (h' : ByHandlers v w) : ByHandlers u w := by
  obtain ⟨ms, rfl, hms⟩ := h
  obtain ⟨ns, rfl, hns⟩ := h'
  refine ⟨ms ++ ns, List.append_assoc .., ?_⟩
  intro m hm
  rcases List.mem_append.mp hm with hm | hm
  · exact hms m hm
  · exact hns m hm

section Gcm

variable (gcm : Gcm)

/-- The states that an event can lead to.  `w` stands for the messages written so far. -/
inductive Effect (s : Host) : Event → Host → Prop
  | connectRefused {en ne op kex w} (n : Nat) (hw : ByHandlers s.written w) :
      Effect s (.connect en ne op kex) { s with handles := n, written := w }
  | connectFailed {en ne op kex w} (n : Nat) (hw : ByHandlers s.written w)
      (hc : s.connected = false) :
      Effect s (.connect en ne op kex)
        { s with handles := n, device := none, usbRW := none, connected := false, written := w }
  | connected {en ne op w} (key : SessionKey) (hw : ByHandlers s.written w)
      (hh : s.handler = .idle) (hc : s.connected = false) :
      Effect s (.connect en ne op (.established key))
        { s with
          handles := s.handles + 1, device := some s.handles, usbRW := some s.handles,
          connected := true, sessions := s.sessions ++ [{ keyBuf := key.1 }],
          established := s.established ++ [key.1], cryptoSession := some s.sessions.length,
          loops := s.loops ++ [{}], readLoop := some s.loops.length, written := w }
  | sendRefused {data usb w} (hw : ByHandlers s.written w)
      (h : s.sendKey = none ∨ decodeString data = none) :
      Effect s (.sendPayload data usb) { s with written := w }
  | encryptFailed {data usb w} (i : SessionId) (c : CryptoSession) (hw : ByHandlers s.written w)
      (hi : s.cryptoSession = some i) (hc : s.sessions[i]? = some c)
      (hl : c.keyBuf.length ≠ sessionKeySize) :
      Effect s (.sendPayload data usb)
        { s with
          sessions := s.sessions.modify i (CryptoSession.mapSeq (·.nextOutbound.2)),
          written := w }
  | sent {data usb w} (i : SessionId) (c : CryptoSession) (plaintext : Bytes)
      (hw : ByHandlers s.written w) (hi : s.cryptoSession = some i)
      (hc : s.sessions[i]? = some c) (hk : s.sendKey = some c.keyBuf)
      (hd : decodeString data = some plaintext) :
      Effect s (.sendPayload data usb)
        { s with
          sessions := s.sessions.modify i (CryptoSession.mapSeq (·.nextOutbound.2)),
          sealed := s.sealed ++
            [⟨c.keyBuf, directionHostToDevice, c.seq.outbound, plaintext, true⟩],
          written := w }
  | reverted {data usb w} (i : SessionId) (c : CryptoSession) (plaintext : Bytes)
      (hw : ByHandlers s.written w) (hi : s.cryptoSession = some i)
      (hc : s.sessions[i]? = some c) (hk : s.sendKey = some c.keyBuf)
      (hd : decodeString data = some plaintext) :
      Effect s (.sendPayload data usb)
        { s with
          sessions := (s.sessions.modify i (CryptoSession.mapSeq (·.nextOutbound.2))).modify i
            (CryptoSession.mapSeq (·.revertOutbound c.seq.outbound)),
          sealed := s.sealed ++
            [⟨c.keyBuf, directionHostToDevice, c.seq.outbound, plaintext, false⟩],
          written := w }
  | closed {e w} (hw : ByHandlers s.written w) (he : e = .disconnect ∨ e = .hotplugClose) :
      Effect s e { s.closeLocked with written := w }
  | rekeyRefused {w} (hw : ByHandlers s.written w)
      (h : s.cryptoSession = none ∨ s.device = none ∨ s.usbRW = none) :
      Effect s .rekeyBegin { s with written := w }
  | rekeyBegun (rw old : Nat) (hh : s.handler = .idle) (hc : s.cryptoSession = some old)
      (hd : s.device.isSome) (hr : s.usbRW = some rw) :
      Effect s .rekeyBegin
        { s with
          readLoop := none, loops := s.stoppedLoops, handler := .exchanging rw old [] }
  | kexRead {packet} (rw old : Nat) (got : Bytes) (hh : s.handler = .exchanging rw old got) :
      Effect s (.kexRead packet)
        { s with
          handler := .exchanging rw old (got ++ packet),
          taken := s.taken ++ [{ reader := .keyExchange, packet, exchanging := true }] }
  | rekeyFailed {error flushed w} (rw old : Nat) (got : Bytes) (hw : ByHandlers s.written w)
      (hh : s.handler = .exchanging rw old got)
      (hr : ¬(s.usbRW = some rw ∧ s.device.isSome)) :
      Effect s (.rekeyFinish (.failed error) flushed) { s with handler := .idle, written := w }
  | rekeyRestarted {error flushed w} (rw old : Nat) (got : Bytes) (hw : ByHandlers s.written w)
      (hh : s.handler = .exchanging rw old got) (hr : s.usbRW = some rw) (hd : s.device.isSome) :
      Effect s (.rekeyFinish (.failed error) flushed)
        { s with
          handler := .idle, taken := (s.flushUsbEndpoint flushed).taken,
          loops := s.loops ++ [{}], readLoop := some s.loops.length, written := w }
  | rekeySwapped {flushed w} (rw old : Nat) (got : Bytes) (key : SessionKey)
      (hw : ByHandlers s.written w) (hh : s.handler = .exchanging rw old got)
      (hr : s.usbRW ≠ some rw) :
      Effect s (.rekeyFinish (.established key) flushed)
        { s with
          handler := .idle,
          sessions := (s.newSession key).sessions.modify s.sessions.length
            CryptoSession.zero,
          established := s.established ++ [key.1], loops := s.loops ++ [{}],
          readLoop := some s.loops.length, written := w }
  | rekeyed {flushed w} (rw old : Nat) (got : Bytes) (key : SessionKey)
      (hw : ByHandlers s.written w) (hh : s.handler = .exchanging rw old got)
      (hr : s.usbRW = some rw) :
      Effect s (.rekeyFinish (.established key) flushed)
        { s with
          handler := .idle, cryptoSession := some s.sessions.length,
          sessions := (s.newSession key).sessions.modify old fun c =>
            { (if c.keyNil then c else c.zeroBuf) with seq := c.seq.reset },
          established := s.established ++ [key.1], loops := s.loops ++ [{}],
          readLoop := some s.loops.length, written := w }
  | polled {i} (l : ReadLoop) (hl : s.loops[i]? = some l) (hp : l.pc = .top) :
      Effect s (.loop i .poll) (s.setPc i (if l.cancelled then .exited else .locking))
  | copied {i} (l : ReadLoop) (hl : s.loops[i]? = some l) (hp : l.pc = .locking) :
      Effect s (.loop i .snapshot) (s.setPc i s.snapshot)
  | received {i packet} (l : ReadLoop) (v : Snapshot) (hl : s.loops[i]? = some l)
      (hp : l.pc = .reading v) :
      Effect s (.loop i (.read (.data packet)))
        ((s.logTaken (s.takenBy i l packet)).setPc i (afterRead gcm v packet))
  | readAgain {i r} (l : ReadLoop) (v : Snapshot) (hl : s.loops[i]? = some l)
      (hp : l.pc = .reading v) (hr : r = .timeout ∨ ∃ error, r = .permanent error) :
      Effect s (.loop i (.read r)) (s.setPc i .top)
  | readGone {i} (l : ReadLoop) (v : Snapshot) (hl : s.loops[i]? = some l)
      (hp : l.pc = .reading v) :
      Effect s (.loop i (.read .disconnect)) (s.setPc i .dropping)
  | advanced {i} (l : ReadLoop) (cs : SessionId) (plaintext : Bytes) (hl : s.loops[i]? = some l)
      (hp : l.pc = .advancing cs plaintext) :
      Effect s (.loop i .advance)
        ((s.modifySeq cs SequenceTracker.advanceInbound).setPc i
          (.writing { type := .payloadReceived, data := Base64.encode plaintext }))
  | dropped {i} (l : ReadLoop) (hl : s.loops[i]? = some l) (hp : l.pc = .dropping) :
      Effect s (.loop i .drop) ({ s with connected := false, device := none }.setPc i .leaving)
  | left {i ok} (l : ReadLoop) (w : List (Source × Message)) (hl : s.loops[i]? = some l)
      (hp : l.pc = .leaving)
      (hw : w = s.written ∨ w = s.written ++ [(.loop i, { type := .usbDisconnected })]) :
      Effect s (.loop i (.write ok)) ({ s with written := w }.setPc i .exited)
  | wrote {i} (l : ReadLoop) (msg : Message) (hl : s.loops[i]? = some l)
      (hp : l.pc = .writing msg) :
      Effect s (.loop i (.write true)) ((s.write (.loop i) msg).setPc i .top)
  | writeFailed {i} (l : ReadLoop) (msg : Message) (hl : s.loops[i]? = some l)
      (hp : l.pc = .writing msg) :
      Effect s (.loop i (.write false)) (s.setPc i .exited)

variable {gcm}

theorem connectOpen_effect {s : Host} {en ne op kex} (hh : s.handler = .idle)
    (hc : s.connected = false) :
    Effect gcm s (.connect en ne op kex) (s.connectOpen op kex) := by
  cases op with
  | error e => exact .connectRefused s.handles (.stdin _ _)
  | ok _ =>
    cases kex with
    | failed e => exact .connectFailed (s.handles + 1) (.stdin _ _) hc
    | established key => exact .connected key ((ByHandlers.stdin _ _).trans (.stdin _ _)) hh hc

/-- A device that discovery returns needs no negotiation, so `connect` never sleeps. -/
theorem connect_effect {s : Host} {en ne op kex} (hh : s.handler = .idle) :
    Effect gcm s (.connect en ne op kex) (s.connect en ne op kex) := by
  unfold connect
  cases hc : s.connected with
  | true => exact .connectRefused s.handles (.stdin _ _)
  | false =>
    cases en with
    | error e => exact .connectRefused s.handles (.stdin _ _)
    | ok devs =>
      simp only [Bool.false_eq_true, if_false]
      cases hf : findAccessoryDevice devs "" with
      | none => exact .connectRefused s.handles (.stdin _ _)
      | some d =>
        simp only [isAccessory_of_findAccessoryDevice hf, if_true]
        exact connectOpen_effect hh hc

theorem sendPayload_effect {s : Host} {data : List Char} {usb : UsbWrite} :
    Effect gcm s (.sendPayload data usb) (s.sendPayload gcm data usb) := by
  unfold sendPayload
  by_cases hcd : (!s.connected || s.device.isNone) = true
  · rw [if_pos hcd]
    exact .sendRefused (.stdin _ _) (.inl (by rw [sendKey, if_pos hcd]))
  rw [if_neg hcd]
  have hkey : s.sendKey = s.current.bind (·.key) := by rw [sendKey, if_neg hcd]
  cases hi : s.cryptoSession with
  | none => exact .sendRefused (.stdin _ _) (.inl (by simp [hkey, current, hi]))
  | some i =>
    cases hc : s.sessions[i]? with
    | none =>
      simp only [Option.bind_some, hc, Option.map_none]
      exact .sendRefused (.stdin _ _) (.inl (by simp [hkey, current, hi, hc]))
    | some c =>
      simp only [Option.bind_some, hc, Option.map_some]
      cases hk : c.key with
      | none => exact .sendRefused (.stdin _ _) (.inl (by simp [hkey, current, hi, hc, hk]))
      | some key =>
        have hbuf : key = c.keyBuf := by
          simp only [CryptoSession.key] at hk
          split at hk
          · contradiction
          · exact (Option.some.inj hk).symm
        subst hbuf
        have hsend : s.sendKey = some c.keyBuf := by simp [hkey, current, hi, hc, hk]
        cases hd : decodeString data with
        | none => exact .sendRefused (.stdin _ _) (.inr hd)
        | some plaintext =>
          simp only [sealAndWrite, encrypt, encryptWithDirection]
          by_cases hl : c.keyBuf.length = sessionKeySize
          · simp only [hl, ne_eq, not_true_eq_false, if_false]
            split
            · exact .reverted i c plaintext (.stdin _ _) hi hc hsend hd
            · exact .sent i c plaintext (.stdin _ _) hi hc hsend hd
          · simp only [hl, ne_eq, not_false_eq_true, if_true]
            exact .encryptFailed i c (.stdin _ _) hi hc hl

theorem rekeyBegin_effect {s : Host} (hh : s.handler = .idle) :
    Effect gcm s .rekeyBegin s.rekeyBegin := by
  unfold rekeyBegin
  cases hc : s.cryptoSession with
  | none => exact .rekeyRefused (.stdin _ _) (.inl hc)
  | some old =>
    cases hd : s.device with
    | none => exact .rekeyRefused (.stdin _ _) (.inr (.inl hd))
    | some d =>
      cases hr : s.usbRW with
      | none => exact .rekeyRefused (.stdin _ _) (.inr (.inr hr))
      | some rw =>
        simp only [stopReadLoop_eq]
        exact .rekeyBegun rw old hh hc (by simp [hd]) hr

theorem rekeyFinish_effect {s : Host} {rw old : Nat} {got : Bytes} {kex : Kex}
    {flushed : Option Bytes} (hh : s.handler = .exchanging rw old got) :
    Effect gcm s (.rekeyFinish kex flushed) (s.rekeyFinish rw old kex flushed) := by
  cases kex with
  | failed e =>
    simp only [rekeyFinish]
    split
    · rename_i h
      cases flushed with
      | none => exact .rekeyRestarted rw old got (.stdin _ _) hh h.1 h.2
      | some packet => exact .rekeyRestarted rw old got (.stdin _ _) hh h.1 h.2
    · rename_i h
      exact .rekeyFailed rw old got (.stdin _ _) hh h
  | established key =>
    simp only [rekeyFinish]
    by_cases hr : s.usbRW = some rw
    · rw [if_neg (by simpa [newSession] using hr)]
      exact .rekeyed rw old got key (.stdin _ _) hh hr
    · rw [if_pos (by simpa [newSession] using hr)]
      exact .rekeySwapped rw old got key (.stdin _ _) hh hr

theorem loopStep_effect {s t : Host} {i : LoopId} {a : LoopAction}
    (h : s.loopStep gcm i a = some t) : Effect gcm s (.loop i a) t := by
  unfold loopStep at h
  cases hl : s.loops[i]? with
  | none => simp [hl] at h
  | some l =>
    simp only [hl] at h
    split at h
    · rename_i hp
      cases h
      exact .polled l hl hp
    · rename_i hp
      cases h
      exact .copied l hl hp
    · rename_i v r hp
      cases r with
      | data packet => cases h; exact .received l v hl hp
      | timeout => cases h; exact .readAgain l v hl hp (.inl rfl)
      | permanent error => cases h; exact .readAgain l v hl hp (.inr ⟨error, rfl⟩)
      | disconnect => cases h; exact .readGone l v hl hp
    · rename_i cs plaintext hp
      cases h
      exact .advanced l cs plaintext hl hp
    · rename_i hp
      cases h
      exact .dropped l hl hp
    · rename_i ok hp
      cases h
      cases ok with
      | true => exact .left l _ hl hp (.inr rfl)
      | false => exact .left l _ hl hp (.inl rfl)
    · rename_i msg ok hp
      cases h
      cases ok with
      | true => exact .wrote l msg hl hp
      | false => exact .writeFailed l msg hl hp
    · contradiction

/-- A step of a host that is not re-enumerating is one of the listed effects, and `connect` does
not make it re-enumerate. -/
theorem step_effect {s t : Host} {e : Event} (hn : s.handler ≠ .reenumerating)
    (h : step gcm s e = some t) : Effect gcm s e t := by
  cases e with
  | connect en ne op kex =>
    simp only [step, Option.ite_none_right_eq_some, Option.some.injEq] at h
    exact h.2 ▸ connect_effect h.1
  | connectResume en op kex => simp [step, hn] at h
  | sendPayload data usb =>
    simp only [step, Option.ite_none_right_eq_some, Option.some.injEq] at h
    exact h.2 ▸ sendPayload_effect
  | disconnect =>
    simp only [step, Option.ite_none_right_eq_some, Option.some.injEq] at h
    exact h.2 ▸ .closed (written_closeLocked s ▸ .stdin _ _) (.inl rfl)
  | rekeyBegin =>
    simp only [step, Option.ite_none_right_eq_some, Option.some.injEq] at h
    exact h.2 ▸ rekeyBegin_effect h.1
  | kexRead packet =>
    simp only [step] at h
    split at h
    · rename_i rw old got hh
      cases h
      exact .kexRead rw old got hh
    · contradiction
  | rekeyFinish kex flushed =>
    simp only [step] at h
    split at h
    · rename_i rw old got hh
      cases h
      exact rekeyFinish_effect hh
    · contradiction
  | hotplugClose =>
    cases h
    exact .closed (written_closeLocked s ▸ .hotplug _ _) (.inr rfl)
  | loop i a => exact loopStep_effect h

theorem Effect.handler_ne {s t : Host} {e : Event} (h : Effect gcm s e t)
    (hn : s.handler ≠ .reenumerating) : t.handler ≠ .reenumerating := by
  cases h <;> simp_all [closeLocked_eq, setPc, write, logTaken, modifySeq, modifySession]

end Gcm

/-! ### Data of concrete runs -/

/-- A stand-in cipher: the plaintext with a constant tag. -/
def plainGcm : Gcm where
  gcmSeal _ _ plaintext := plaintext ++ List.replicate authTagSize 0
  gcmOpen _ _ ciphertext := some (ciphertext.take (ciphertext.length - authTagSize))

def sampleKey (b : UInt8) : SessionKey := ⟨List.replicate 32 b, rfl⟩

/-- `connect` with an accessory attached and an exchange that succeeds. -/
def sampleConnect : Event :=
  .connect (.ok [{ vendor := 0x18D1, product := 0x2D01 }]) (.ok ()) (.ok ())
    (.established (sampleKey 7))

end Host

end SmartIdVault.NativeHost
