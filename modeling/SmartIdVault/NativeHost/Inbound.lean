import SmartIdVault.NativeHost.Steps

/-! Inbound payloads.  A read loop decrypts with a copy of the key and a clone of the tracker, and
advances the shared tracker.  Whatever packets the wire delivers, the payloads that the loop emits
are a prefix of what the device sealed: the clone agrees with the number of payloads emitted so far,
and `Close` ends the loop before it could work with the tracker that it reset. -/

namespace SmartIdVault.NativeHost

/-- What the device has sealed under a key, by sequence number, with an ideal cipher: under the
nonce of a number only the packet of that number opens. -/
structure Device (gcm : Gcm) (key : Bytes) where
  plaintexts : List Bytes
  length_lt : plaintexts.length < 2 ^ 64
  authentic : ∀ seq ciphertext p,
    gcm.gcmOpen key (buildIV directionDeviceToHost seq) ciphertext = some p →
      ∃ q ∈ plaintexts[seq.toNat]?,
        ciphertext = gcm.gcmSeal key (buildIV directionDeviceToHost seq) q
  correct : ∀ seq, ∀ p ∈ plaintexts[seq.toNat]?,
    gcm.gcmOpen key (buildIV directionDeviceToHost seq)
      (gcm.gcmSeal key (buildIV directionDeviceToHost seq) p) = some p

theorem Device.opens {gcm : Gcm} {key : Bytes} (dev : Device gcm key) {seq : UInt64}
    {ciphertext p : Bytes}
    (h : gcm.gcmOpen key (buildIV directionDeviceToHost seq) ciphertext = some p) :
    dev.plaintexts[seq.toNat]? = some p := by
  obtain ⟨q, hq, rfl⟩ := dev.authentic seq ciphertext p h
  rw [dev.correct seq q hq] at h
  exact h ▸ hq

namespace Host

def delivered (s : Host) (i : LoopId) : List (List Char) :=
  s.written.filterMap fun w =>
    if w.1 = .loop i ∧ w.2.type = .payloadReceived then some w.2.data else none

/-- The steps of read loop `i`, payloads that are sent, and `Close`. -/
def InboundTraffic (i : LoopId) : Event → Bool
  | .loop j _ => j = i
  | .sendPayload .. | .disconnect | .hotplugClose => true
  | .connect .. | .connectResume .. | .rekeyBegin | .kexRead _ | .rekeyFinish .. => false

/-- Read loop `i` has just been started on crypto session `c`. -/
structure FreshLoop (s : Host) (i : LoopId) (c : SessionId) (key : Bytes) : Prop where
  loop : s.loops[i]? = some {}
  session : s.cryptoSession = some c
  tracker : ∃ cs ∈ s.sessions[c]?, cs.key = some key ∧ cs.seq.inbound = 0
  silent : s.delivered i = []
  handler : s.handler ≠ .reenumerating

theorem delivered_byHandlers {s t : Host} (h : ByHandlers s.written t.written) (i : LoopId) :
    t.delivered i = s.delivered i := by
  obtain ⟨ms, hms, hne⟩ := h
  have hnone : ms.filterMap (fun w =>
      if w.1 = .loop i ∧ w.2.type = .payloadReceived then some w.2.data else none) = [] := by
    rw [List.filterMap_eq_nil_iff]
    intro m hm
    simp [hne m hm i]
  rw [delivered, hms, List.filterMap_append, hnone, List.append_nil, delivered]

theorem delivered_write (s : Host) (i : LoopId) (msg : Message) :
    (s.write (.loop i) msg).delivered i =
      s.delivered i ++ if msg.type = .payloadReceived then [msg.data] else [] := by
  by_cases h : msg.type = .payloadReceived <;> simp [delivered, write, h]

section Invariant

variable {gcm : Gcm} {key : Bytes} (dev : Device gcm key) (i : LoopId) (c : SessionId)

/-- What the loop holds once it has emitted the first `n` payloads. -/
def Holds (n : Nat) : LoopPc → Prop
  | .reading v => v.cs = some c ∧ v.sessionKey = some key ∧
      ∃ st ∈ v.seq, st.inbound.toNat = n
  | .advancing cs p => cs = c ∧ dev.plaintexts[n]? = some p
  | .writing msg => msg.type = .payloadReceived →
      ∃ p ∈ dev.plaintexts[n]?, msg.data = Base64.encode p
  | _ => True

/-- The shared counter once the loop has emitted the first `n` payloads: it is ahead of the loop
while the next one is being written. -/
def counted (n : Nat) : LoopPc → Nat
  | .writing msg => if msg.type = .payloadReceived then n + 1 else n
  | _ => n

/-- Crypto session `c` is in use with its key, and has counted `n` packets. -/
def Counts (s : Host) (c : SessionId) (key : Bytes) (n : Nat) : Prop :=
  s.cryptoSession = some c ∧ ∃ cs ∈ s.sessions[c]?, cs.key = some key ∧ cs.seq.inbound.toNat = n

/-- Read loop `i` has emitted the first `n` payloads.  Once it has returned, or without a device,
the loop gets no new snapshot, and the tracker does not matter any more. -/
structure InOrder (s : Host) (n : Nat) (l : ReadLoop) : Prop where
  loop : s.loops[i]? = some l
  holds : Holds dev c n l.pc
  delivered : s.delivered i = (dev.plaintexts.take n).map Base64.encode
  counter : l.pc = .exited ∨ s.device = none ∨ s.Counts c key (counted n l.pc)
  handler : s.handler ≠ .reenumerating

variable {dev i c} {s t : Host} {n : Nat} {l : ReadLoop}

theorem FreshLoop.inOrder (h : FreshLoop s i c key) : InOrder dev i c s 0 {} where
  loop := h.loop
  holds := trivial
  delivered := by simp [h.silent]
  counter := by
    obtain ⟨cs, hcs, hk, hin⟩ := h.tracker
    exact .inr (.inr ⟨h.session, cs, hcs, hk, by simp [counted, hin]⟩)
  handler := h.handler

theorem InOrder.move {pc : LoopPc} (h : InOrder dev i c s n l)
    (ht : t.loops = (s.setPc i pc).loops) (hh : t.handler = s.handler)
    (hw : t.delivered i = s.delivered i) (hp : Holds dev c n pc)
    (hc : pc = .exited ∨ t.device = none ∨ t.Counts c key (counted n pc)) :
    InOrder dev i c t n { l with pc } where
  loop := by rw [ht, getElem?_setPc, if_pos rfl, h.loop, Option.map_some]
  holds := hp
  delivered := hw.trans h.delivered
  counter := hc
  handler := hh ▸ h.handler

theorem InOrder.stay {pc : LoopPc} (h : InOrder dev i c s n l) (hp : Holds dev c n pc)
    (hl : l.pc ≠ .exited) (hn : counted n pc = counted n l.pc) :
    InOrder dev i c (s.setPc i pc) n { l with pc } :=
  h.move rfl rfl rfl hp (.inr (hn ▸ h.counter.resolve_left hl))

theorem Counts.modify {f : SequenceTracker → SequenceTracker} (h : s.Counts c key n)
    (j : SessionId) (hf : ∀ st, (f st).inbound = st.inbound)
    (ht : t.cryptoSession = s.cryptoSession)
    (hs : t.sessions = s.sessions.modify j (CryptoSession.mapSeq f)) : t.Counts c key n := by
  obtain ⟨hcs, cs, hc, hk, hn⟩ := h
  refine ⟨ht.trans hcs, ?_⟩
  simp only [Option.mem_def] at hc
  simp only [hs, List.getElem?_modify, hc]
  by_cases hjc : j = c
  · exact ⟨cs.mapSeq f, by simp [hjc], hk, by simp [CryptoSession.mapSeq, hf, hn]⟩
  · exact ⟨cs, by simp [hjc], hk, hn⟩

theorem Counts.advance (h : s.Counts c key n) (hn : n + 1 < 2 ^ 64) :
    (s.modifySeq c SequenceTracker.advanceInbound).Counts c key (n + 1) := by
  obtain ⟨hcs, cs, hc, hk, rfl⟩ := h
  refine ⟨hcs, cs.mapSeq SequenceTracker.advanceInbound, ?_, hk, ?_⟩
  · simp only [Option.mem_def] at hc
    simp [modifySeq, modifySession, hc]
  · simp only [CryptoSession.mapSeq, SequenceTracker.inbound_advanceInbound, UInt64.toNat_add,
      UInt64.toNat_one, Nat.mod_eq_of_lt hn]

theorem holds_snapshot (dev : Device gcm key) (h : s.device = none ∨ s.Counts c key n) :
    Holds dev c n s.snapshot ∧ counted n s.snapshot = n := by
  cases hd : s.device with
  | none =>
    simp only [snapshot, hd]
    exact ⟨trivial, rfl⟩
  | some d =>
    obtain ⟨hcs, cs, hc, hk, hn⟩ := h.resolve_left (by simp [hd])
    simp only [Option.mem_def] at hc
    simp only [snapshot, hd, hcs, Option.bind_some, hc, hk, Option.map_some]
    exact ⟨⟨rfl, rfl, cs.seq, rfl, hn⟩, rfl⟩

theorem InOrder.acts (h : InOrder dev i c s n l) {j : LoopId} {a : LoopAction} {m : ReadLoop}
    (he : InboundTraffic i (.loop j a) = true) (hm : s.loops[j]? = some m) : j = i ∧ l = m := by
  obtain rfl : j = i := by simpa [InboundTraffic] using he
  exact ⟨rfl, Option.some.inj (h.loop.symm.trans hm)⟩

/-- The packet that the loop decrypts is the next one that the device sealed. -/
theorem holds_afterRead {v : Snapshot} (h : Holds dev c n (.reading v)) (packet : Bytes) :
    Holds dev c n (afterRead gcm v packet) ∧ counted n (afterRead gcm v packet) = n := by
  obtain ⟨hcs, hk, st, hst, hn⟩ := h
  simp only [Option.mem_def] at hst
  simp only [afterRead, hcs, hk, hst]
  split
  · exact ⟨trivial, rfl⟩
  split
  · exact ⟨by simp [Holds, result], by simp [counted, result]⟩
  · exact ⟨by simp [Holds], by simp [counted]⟩
  · rename_i plaintext seqNum hdec
    obtain ⟨-, hopen⟩ := decryptWithDirection_ok gcm hdec
    have := dev.opens hopen
    rw [SequenceTracker.expectedInbound, hn] at this
    exact ⟨⟨rfl, this⟩, rfl⟩

/-- A step of the traffic keeps the payloads in order. -/
theorem Effect.inOrder {e : Event} (h : Effect gcm s e t) (he : InboundTraffic i e = true)
    (hi : InOrder dev i c s n l) : ∃ n' l', InOrder dev i c t n' l' := by
  cases h with
  | sendRefused hw hr =>
    exact ⟨n, l, hi.loop, hi.holds, (delivered_byHandlers hw i).trans hi.delivered, hi.counter,
      hi.handler⟩
  | encryptFailed j c' hw hcs hc hl =>
    refine ⟨n, l, hi.loop, hi.holds, (delivered_byHandlers hw i).trans hi.delivered, ?_,
      hi.handler⟩
    exact hi.counter.imp_right
      (.imp_right fun h => h.modify j SequenceTracker.inbound_nextOutbound rfl rfl)
  | sent j c' plaintext hw hcs hc hk hd =>
    refine ⟨n, l, hi.loop, hi.holds, (delivered_byHandlers hw i).trans hi.delivered, ?_,
      hi.handler⟩
    exact hi.counter.imp_right
      (.imp_right fun h => h.modify j SequenceTracker.inbound_nextOutbound rfl rfl)
  | reverted j c' plaintext hw hcs hc hk hd =>
    refine ⟨n, l, hi.loop, hi.holds, (delivered_byHandlers hw i).trans hi.delivered, ?_,
      hi.handler⟩
    refine hi.counter.imp_right (.imp_right ?_)
    intro h
    have h1 : (s.modifySeq j (·.nextOutbound.2)).Counts c key _ :=
      h.modify j SequenceTracker.inbound_nextOutbound rfl rfl
    exact h1.modify j (fun st => st.inbound_revertOutbound _) rfl rfl
  | closed hw hc =>
    obtain ⟨l', hl', hpc⟩ := getElem?_stoppedLoops hi.loop
    have hloops : s.closeLocked.loops = s.stoppedLoops := by rw [closeLocked_eq]
    have hdev : s.closeLocked.device = none := by rw [closeLocked_eq]
    have hh : s.closeLocked.handler = s.handler := by rw [closeLocked_eq]
    exact ⟨n, l', hloops ▸ hl', hpc ▸ hi.holds, (delivered_byHandlers hw i).trans hi.delivered,
      .inr (.inl hdev), hh ▸ hi.handler⟩
  | polled m hl hp =>
    obtain ⟨rfl, rfl⟩ := hi.acts he hl
    refine ⟨n, _, hi.stay ?_ (by simp [hp]) ?_⟩
    · split <;> trivial
    · rw [hp]
      split <;> rfl
  | copied m hl hp =>
    obtain ⟨rfl, rfl⟩ := hi.acts he hl
    have hc := hi.counter.resolve_left (by simp [hp])
    rw [hp] at hc
    obtain ⟨h1, h2⟩ := holds_snapshot dev (n := n) hc
    exact ⟨n, _, hi.stay h1 (by simp [hp]) (by rw [h2, hp]; rfl)⟩
  | received m v hl hp =>
    obtain ⟨rfl, rfl⟩ := hi.acts he hl
    obtain ⟨h1, h2⟩ := holds_afterRead (hp ▸ hi.holds) _
    have := (hi.stay h1 (by simp [hp]) (by rw [h2, hp]; rfl))
    exact ⟨n, _, this.loop, this.holds, this.delivered, this.counter, this.handler⟩
  | readAgain m v hl hp hr =>
    obtain ⟨rfl, rfl⟩ := hi.acts he hl
    exact ⟨n, _, hi.stay trivial (by simp [hp]) (by rw [hp]; rfl)⟩
  | readGone m v hl hp =>
    obtain ⟨rfl, rfl⟩ := hi.acts he hl
    exact ⟨n, _, hi.stay trivial (by simp [hp]) (by rw [hp]; rfl)⟩
  | advanced m cs plaintext hl hp =>
    obtain ⟨rfl, rfl⟩ := hi.acts he hl
    obtain ⟨rfl, hnext⟩ : cs = c ∧ dev.plaintexts[n]? = some plaintext := by
      simpa [hp, Holds] using hi.holds
    have hlt : n + 1 < 2 ^ 64 :=
      Nat.lt_of_le_of_lt (List.getElem?_eq_some_iff.mp hnext).1 dev.length_lt
    have hc := hi.counter.resolve_left (by simp [hp])
    rw [hp] at hc
    refine ⟨n, _, hi.move rfl rfl rfl (fun _ => ⟨plaintext, hnext, rfl⟩) (.inr ?_)⟩
    exact hc.imp_right fun h => h.advance hlt
  | dropped m hl hp =>
    obtain ⟨rfl, rfl⟩ := hi.acts he hl
    exact ⟨n, _, hi.move rfl rfl rfl trivial (.inr (.inl rfl))⟩
  | left m w hl hp hw =>
    obtain ⟨rfl, rfl⟩ := hi.acts he hl
    refine ⟨n, _, hi.move rfl rfl ?_ trivial (.inl rfl)⟩
    rcases hw with rfl | rfl
    · rfl
    · simp [Host.delivered, setPc]
  | wrote m msg hl hp =>
    obtain ⟨rfl, rfl⟩ := hi.acts he hl
    have hc := hi.counter.resolve_left (by simp [hp])
    have hh := hi.holds
    rw [hp] at hc hh
    by_cases hm : msg.type = .payloadReceived
    · obtain ⟨p, hnext, hdata⟩ := hh hm
      simp only [counted, hm, if_true] at hc
      refine ⟨n + 1, { l with pc := .top }, ?_, trivial, ?_, .inr hc, hi.handler⟩
      · rw [getElem?_setPc, if_pos rfl]
        exact congrArg _ hl
      · apply (delivered_write s _ msg).trans
        rw [hi.delivered, if_pos hm, List.take_add_one, hnext, hdata]
        simp
    · simp only [counted, hm, if_false] at hc
      refine ⟨n, _, hi.move rfl rfl ?_ trivial (.inr hc)⟩
      exact (delivered_write s _ msg).trans (by simp [hm])
  | writeFailed m msg hl hp =>
    obtain ⟨rfl, rfl⟩ := hi.acts he hl
    exact ⟨n, _, hi.move rfl rfl rfl trivial (.inl rfl)⟩
  | _ => simp [InboundTraffic] at he

/-- From a loop that has just been started on a crypto session, along all steps of it, payloads that
are sent and closes, and whatever packets the wire delivers, the payloads that the loop emits are
the first ones that the device sealed, in order and each once. -/
theorem delivered_prefix {es : List Event} (dev : Device gcm key) (hs : FreshLoop s i c key)
    (he : ∀ e ∈ es, InboundTraffic i e = true) (hrun : Run gcm s es t) :
    t.delivered i <+: dev.plaintexts.map Base64.encode := by
  have hinv : ∃ n l, InOrder dev i c t n l := by
    refine hrun.invariant (I := fun s => ∃ n l, InOrder dev i c s n l)
      (G := fun _ e => InboundTraffic i e = true) ⟨0, {}, hs.inOrder⟩
      (Machine.throughout_of_forall fun _ e hm => he e hm) ?_
    rintro s e t ⟨n, l, hi⟩ hg hst
    exact (step_effect hi.handler hst).inOrder hg hi
  obtain ⟨n, l, hi⟩ := hinv
  rw [hi.delivered]
  exact (List.take_prefix n _).map _

end Invariant

/-! ### A run with a replayed packet -/

/-- A cipher that opens nothing but the packets that the device sealed for `plaintexts`. -/
def deviceGcm (plaintexts : List Bytes) : Gcm where
  gcmSeal _ iv plaintext := plaintext ++ iv ++ [0, 0, 0, 0]
  gcmOpen _ iv ciphertext := plaintexts[Bytes.ofBigEndian (iv.drop 4)]?.bind fun p =>
    if ciphertext = p ++ iv ++ [0, 0, 0, 0] then some p else none

theorem ofBigEndian_buildIV (d : UInt8) (seq : UInt64) :
    Bytes.ofBigEndian ((buildIV d seq).drop 4) = seq.toNat :=
  Bytes.ofBigEndian_bigEndian_of_lt (seq_lt seq)

def sampleDevice (key : Bytes) (plaintexts : List Bytes) (h : plaintexts.length < 2 ^ 64) :
    Device (deviceGcm plaintexts) key where
  plaintexts := plaintexts
  length_lt := h
  authentic seq ciphertext p hopen := by
    simp only [deviceGcm, ofBigEndian_buildIV, Option.bind_eq_some_iff] at hopen
    obtain ⟨q, hq, hif⟩ := hopen
    split at hif
    · exact ⟨q, hq, ‹_›⟩
    · contradiction
  correct seq p hp := by
    simp only [Option.mem_def] at hp
    simp [deviceGcm, ofBigEndian_buildIV, hp]

def devicePacket (n : UInt64) (plaintext : Bytes) : Bytes :=
  Bytes.bigEndian 8 n.toNat ++
    (deviceGcm []).gcmSeal [] (buildIV directionDeviceToHost n) plaintext

def iteration (packet : Bytes) : List Event :=
  [.loop 0 .poll, .loop 0 .snapshot, .loop 0 (.read (.data packet))]

/-- The packets of payloads `A` and `B`, with that of `A` replayed in between. -/
def replayed : List Event :=
  iteration (devicePacket 0 [65]) ++ [.loop 0 .advance, .loop 0 (.write true)] ++
    iteration (devicePacket 0 [65]) ++ [.loop 0 (.write true)] ++
    iteration (devicePacket 1 [66]) ++ [.loop 0 .advance, .loop 0 (.write true)]

def attached : Host := connectOpen {} (.ok ()) (.established (sampleKey 7))

theorem replay_is_dropped :
    Run (deviceGcm [[65], [66]]) {} [sampleConnect] attached ∧
      ∃ t, Run (deviceGcm [[65], [66]]) attached replayed t ∧
        t.delivered 0 = [['Q', 'Q', '=', '='], ['Q', 'g', '=', '=']] ∧
        t.delivered 0 <+: [[65], [66]].map Base64.encode := by
  refine ⟨.single rfl, ?_⟩
  have hexec : (Machine.exec (step (deviceGcm [[65], [66]])) attached replayed).map
      (·.delivered 0) = some [['Q', 'Q', '=', '='], ['Q', 'g', '=', '=']] := by
    decide +kernel
  obtain ⟨t, ht, hdelivered⟩ := Option.map_eq_some_iff.mp hexec
  refine ⟨t, Machine.run_of_exec ht, hdelivered, ?_⟩
  exact delivered_prefix (c := 0) (sampleDevice (sampleKey 7).1 [[65], [66]] (by decide))
    ⟨rfl, rfl, ⟨_, rfl, rfl, rfl⟩, rfl, by decide⟩ (by decide) (Machine.run_of_exec ht)

end Host

end SmartIdVault.NativeHost
