import SmartIdVault.NativeHost.Nonce

/-! The numbers of the packets that reach the device: as long as one session key is in use, the
packets whose write succeeded carry 0, 1, 2 and so on, and the counter stays above each of them.
The last number below `2^64` is the exception, since `RevertOutbound` does not see that the counter
has gone round. -/

namespace SmartIdVault.NativeHost

namespace Host

/-- The packets of the run from `s` to `t`. -/
def sealedSince (s t : Host) : List Sealed := t.sealed.drop s.sealed.length

/-- Those among them whose write succeeded. -/
def writtenSince (s t : Host) : List Sealed := (sealedSince s t).filter (·.written)

/-- Session `i` is the one in use, with the counter at its start. -/
def StartsSession (s : Host) (i : SessionId) (key : Bytes) : Prop :=
  s.cryptoSession = some i ∧ ∃ c, s.sessions[i]? = some c ∧ c.keyBuf = key ∧ c.seq.outbound = 0

/-- Under session `i`, which seals with `key`, the written packets of the run from `s` carry the
numbers up to the counter. -/
structure Numbered (s : Host) (i : SessionId) (key : Bytes) (t : Host) : Prop where
  inUse : t.cryptoSession = some i
  grown : s.sealed <+: t.sealed
  keys : ∀ x ∈ sealedSince s t, x.key = key
  counter : ∃ c, t.sessions[i]? = some c ∧ c.keyBuf = key ∧
    c.seq.outbound.toNat = (writtenSince s t).length
  numbers : (writtenSince s t).map (·.seq.toNat) = List.range (writtenSince s t).length

section Since

variable {s t u : Host}

theorem sealedSince_self (s : Host) : sealedSince s s = [] :=
  List.drop_length

theorem sealedSince_append {x : Sealed} (h : s.sealed <+: t.sealed)
    (hu : u.sealed = t.sealed ++ [x]) : sealedSince s u = sealedSince s t ++ [x] := by
  rw [sealedSince, hu, List.drop_append_of_le_length h.length_le, sealedSince]

theorem writtenSince_append {x : Sealed} (h : s.sealed <+: t.sealed)
    (hu : u.sealed = t.sealed ++ [x]) :
    writtenSince s u = writtenSince s t ++ if x.written then [x] else [] := by
  rw [writtenSince, sealedSince_append h hu, List.filter_append, List.filter_singleton,
    Bool.cond_eq_ite]
  rfl

end Since

theorem Numbered.init {s : Host} {i : SessionId} {key : Bytes} (h : StartsSession s i key) :
    Numbered s i key s := by
  obtain ⟨hi, c, hc, hkey, h0⟩ := h
  have hself : writtenSince s s = [] := by rw [writtenSince, sealedSince_self, List.filter_nil]
  refine ⟨hi, List.prefix_refl _, by simp [sealedSince_self], ⟨c, hc, hkey, ?_⟩, by simp [hself]⟩
  rw [hself, h0]
  rfl

/-- A step that seals nothing and leaves the counter and the key of the session alone. -/
theorem Numbered.stay {s t u : Host} {i : SessionId} {key : Bytes} (h : Numbered s i key t)
    (hi : u.cryptoSession = some i) (hs : u.sealed = t.sealed)
    (hc : ∀ c, t.sessions[i]? = some c → ∃ d, u.sessions[i]? = some d ∧ d.keyBuf = c.keyBuf ∧
      d.seq.outbound = c.seq.outbound) : Numbered s i key u := by
  have hsince : sealedSince s u = sealedSince s t := by rw [sealedSince, hs, sealedSince]
  have hwritten : writtenSince s u = writtenSince s t := by rw [writtenSince, hsince, writtenSince]
  obtain ⟨c, hget, hkey, hcount⟩ := h.counter
  obtain ⟨d, hd, hdkey, hdcount⟩ := hc c hget
  refine ⟨hi, hs ▸ h.grown, hsince ▸ h.keys, ⟨d, hd, hdkey.trans hkey, ?_⟩, hwritten ▸ h.numbers⟩
  rw [hwritten, hdcount, hcount]

/-- A packet sealed with the session's next number: when it is written the counter passes it, and
otherwise the counter is where it was. -/
theorem Numbered.put {s t u : Host} {i : SessionId} {key plaintext : Bytes} {written : Bool}
    {c : CryptoSession} (h : Numbered s i key t) (hi : u.cryptoSession = some i)
    (hc : t.sessions[i]? = some c)
    (hs : u.sealed = t.sealed ++
      [⟨c.keyBuf, directionHostToDevice, c.seq.outbound, plaintext, written⟩])
    (hd : ∃ d, u.sessions[i]? = some d ∧ d.keyBuf = c.keyBuf ∧ d.seq.outbound.toNat =
      if written then c.seq.outbound.toNat + 1 else c.seq.outbound.toNat) :
    Numbered s i key u := by
  obtain ⟨c', hget, hkey, hcount⟩ := h.counter
  obtain rfl : c = c' := Option.some.inj (hc.symm.trans hget)
  obtain ⟨d, hd, hdkey, hdcount⟩ := hd
  have hkeys : ∀ x ∈ sealedSince s u, x.key = key := by
    rw [sealedSince_append h.grown hs]
    intro x hx
    rcases List.mem_append.mp hx with hx | hx
    · exact h.keys x hx
    · rw [List.mem_singleton.mp hx]
      exact hkey
  have hgrown : s.sealed <+: u.sealed := hs ▸ h.grown.trans (List.prefix_append _ _)
  have hwritten := writtenSince_append h.grown hs
  cases written with
  | false =>
    simp only [Bool.false_eq_true, if_false, List.append_nil] at hwritten hdcount
    refine ⟨hi, hgrown, hkeys, ⟨d, hd, hdkey.trans hkey, ?_⟩, hwritten ▸ h.numbers⟩
    rw [hwritten, hdcount, hcount]
  | true =>
    simp only [if_true] at hwritten hdcount
    refine ⟨hi, hgrown, hkeys, ⟨d, hd, hdkey.trans hkey, ?_⟩, ?_⟩
    · rw [hwritten, hdcount, hcount, List.length_append, List.length_singleton]
    · rw [hwritten, List.map_append, h.numbers, List.length_append, List.length_singleton,
        List.range_succ, List.map_singleton, hcount]

/-- One step within the session, as long as the counter has room for another number. -/
theorem Numbered.step {gcm : Gcm} {s t u : Host} {i : SessionId} {key : Bytes} {e : Event}
    (h : Numbered s i key t) (hk : KeyInv t) (he : Effect gcm t e u)
    (hi : u.cryptoSession = some i) (hroom : (writtenSince s t).length + 1 < 2 ^ 64) :
    Numbered s i key u := by
  have hlt : i < t.sessions.length := by
    obtain ⟨c, hc, -⟩ := h.counter
    exact (List.getElem?_eq_some_iff.mp hc).1
  have room {c : CryptoSession} (hc : t.sessions[i]? = some c) :
      c.seq.outbound.toNat + 1 < 2 ^ 64 := by
    obtain ⟨c', hc', -, hcount⟩ := h.counter
    obtain rfl : c = c' := Option.some.inj (hc.symm.trans hc')
    omega
  cases he with
  | connected newKey hw hh hconn =>
    exact absurd (Option.some.inj hi) (Nat.ne_of_gt hlt)
  | rekeyed rw old got newKey hw hh hr =>
    exact absurd (Option.some.inj hi) (Nat.ne_of_gt hlt)
  | rekeySwapped rw old got newKey hw hh hr =>
    refine h.stay hi rfl fun c hc => ⟨c, ?_, rfl, rfl⟩
    simp [newSession, List.getElem?_append_left hlt, Nat.ne_of_gt hlt, hc]
  | encryptFailed j c hw hj hc hl =>
    obtain ⟨c', hc', -, hlen⟩ := hk.current j hj
    obtain rfl : c = c' := Option.some.inj (hc.symm.trans hc')
    exact absurd hlen hl
  | sent j c plaintext hw hj hc hkey hd =>
    obtain rfl : j = i := Option.some.inj (hj.symm.trans h.inUse)
    refine h.put hi hc rfl ⟨c.mapSeq (·.nextOutbound.2), by simp [hc], rfl, ?_⟩
    rw [if_pos rfl, CryptoSession.mapSeq, SequenceTracker.nextOutbound, UInt64.toNat_add,
      UInt64.toNat_one, Nat.mod_eq_of_lt (room hc)]
  | reverted j c plaintext hw hj hc hkey hd =>
    obtain rfl : j = i := Option.some.inj (hj.symm.trans h.inUse)
    refine h.put hi hc rfl ⟨(c.mapSeq (·.nextOutbound.2)).mapSeq (·.revertOutbound c.seq.outbound),
      by simp [hc], rfl, ?_⟩
    simp [CryptoSession.mapSeq, SequenceTracker.outbound_revert_nextOutbound (room hc)]
  | closed hw he => simp [closeLocked_eq] at hi
  | advanced l cs plaintext hl hp =>
    refine h.stay hi rfl fun c hc => ?_
    simp only [setPc, modifySeq, modifySession, List.getElem?_modify, hc]
    by_cases hcs : cs = i
    · exact ⟨c.mapSeq SequenceTracker.advanceInbound, by simp [hcs], rfl, rfl⟩
    · exact ⟨c, by simp [hcs], rfl, rfl⟩
  | _ => exact h.stay hi rfl fun c hc => ⟨c, hc, rfl, rfl⟩

/-! ### Runs within one session -/

theorem Effect.sealed_isPrefix {gcm : Gcm} {s t : Host} {e : Event} (h : Effect gcm s e t) :
    s.sealed <+: t.sealed := by
  cases h with
  | sent i c plaintext hw hi hc hk hd => exact List.prefix_append _ _
  | reverted i c plaintext hw hi hc hk hd => exact List.prefix_append _ _
  | closed hw he => simp [closeLocked_eq]
  | _ => exact List.prefix_refl _

theorem length_writtenSince_le {s t u : Host} (h : t.sealed <+: u.sealed) :
    (writtenSince s t).length ≤ (writtenSince s u).length := by
  obtain ⟨new, hu⟩ := h
  rw [writtenSince, writtenSince, sealedSince, sealedSince, ← hu, List.drop_append,
    List.filter_append, List.length_append]
  exact Nat.le_add_right _ _

/-- A step that puts another session into use puts it there with its counter at the start. -/
theorem startsSession_of_step {gcm : Gcm} {r s : Host} {e : Event} {i : SessionId}
    (hr : RunInv r) (hs : step gcm r e = some s) (hne : r.cryptoSession ≠ some i)
    (hi : s.cryptoSession = some i) : ∃ key, StartsSession s i key := by
  cases step_effect hr.1 hs with
  | connected key hw hh hc =>
    obtain rfl : r.sessions.length = i := Option.some.inj hi
    exact ⟨key.1, rfl, { keyBuf := key.1 }, by simp, rfl, rfl⟩
  | rekeyed rw old got key hw hh hc =>
    obtain rfl : r.sessions.length = i := Option.some.inj hi
    have hold : old ≠ r.sessions.length := Nat.ne_of_lt (hr.2.old rw old got hh)
    exact ⟨key.1, rfl, { keyBuf := key.1 }, by simp [newSession, hold], rfl, rfl⟩
  | closed hw he => simp [closeLocked_eq] at hi
  | _ => exact absurd hi hne

/-- `send-payload` uses the session there is. -/
theorem everywhere_of_sendPayload {gcm : Gcm} {s : Host} {i : SessionId} {es : List Event}
    (hr : RunInv s) (hi : s.cryptoSession = some i)
    (hes : ∀ e ∈ es, ∃ data usb, e = .sendPayload data usb) :
    Machine.Everywhere (Host.step gcm) (·.cryptoSession = some i) s es := by
  have hthrough : Machine.Throughout (Host.step gcm)
      (fun _ e => ∃ data usb, e = .sendPayload data usb) s es :=
    Machine.throughout_of_forall fun _ => hes
  refine (Machine.everywhere_of_throughout (I := fun s => RunInv s ∧ s.cryptoSession = some i)
    ⟨hr, hi⟩ hthrough ?_).mono fun s h => h.2
  rintro s e t ⟨hr, hi⟩ ⟨data, usb, rfl⟩ hs
  refine ⟨hr.step hs, ?_⟩
  cases step_effect hr.1 hs with
  | closed hw he => simp at he
  | _ => exact hi

theorem numbered_of_run {gcm : Gcm} {s t : Host} {i : SessionId} {key : Bytes} {es : List Event}
    (hr : RunInv s) (hstart : StartsSession s i key) (hrun : Run gcm s es t)
    (hin : Machine.Everywhere (Host.step gcm) (·.cryptoSession = some i) s es)
    (hroom : (writtenSince s t).length + 1 < 2 ^ 64) : Numbered s i key t := by
  have h : RunInv t ∧ ((writtenSince s t).length + 1 < 2 ^ 64 → Numbered s i key t) := by
    refine hrun.invariant (I := fun t => RunInv t ∧
      ((writtenSince s t).length + 1 < 2 ^ 64 → Numbered s i key t))
      ⟨hr, fun _ => .init hstart⟩ hin.throughout ?_
    rintro t e u ⟨hr, hnum⟩ hkeeps hs
    refine ⟨hr.step hs, fun hroom => ?_⟩
    have he := step_effect hr.1 hs
    have hle : (writtenSince s t).length ≤ (writtenSince s u).length :=
      length_writtenSince_le he.sealed_isPrefix
    have hbefore : (writtenSince s t).length + 1 < 2 ^ 64 := by omega
    exact (hnum hbefore).step hr.2 he (hkeeps u hs) hbefore
  exact h.2 hroom

/-- In every run within one session, of whatever payloads, writes and other events, the packets are
sealed with its key and the written ones carry 0, 1, 2 and so on in order; the counter is above all
of them.  This holds as long as fewer than `2^64 - 1` packets have been written. -/
theorem written_numbers {gcm : Gcm} {s t : Host} {i : SessionId} {key : Bytes}
    {before es : List Event} (hreach : Run gcm {} before s) (hstart : StartsSession s i key)
    (hrun : Run gcm s es t)
    (hin : Machine.Everywhere (Host.step gcm) (·.cryptoSession = some i) s es)
    (hroom : (writtenSince s t).length + 1 < 2 ^ 64) :
    (∀ x ∈ sealedSince s t, x.key = key) ∧
    (writtenSince s t).map (·.seq.toNat) = List.range (writtenSince s t).length ∧
    ∃ c, t.sessions[i]? = some c ∧ ∀ x ∈ writtenSince s t, x.seq < c.seq.outbound := by
  have hr : RunInv s := hreach.invariant_all ⟨by simp, .init⟩ fun _ _ _ h hs => h.step hs
  have h := numbered_of_run hr hstart hrun hin hroom
  obtain ⟨c, hc, -, hcount⟩ := h.counter
  refine ⟨h.keys, h.numbers, c, hc, fun x hx => ?_⟩
  have hmem : x.seq.toNat ∈ (writtenSince s t).map (·.seq.toNat) := List.mem_map_of_mem hx
  rw [h.numbers, List.mem_range] at hmem
  rw [UInt64.lt_iff_toNat_lt, hcount]
  exact hmem

/-! ### The last number -/

/-- Payload `A`, which decodes and is well within the limit of a transfer. -/
def sendA (usb : UsbWrite) : Event := .sendPayload ['Q', 'Q', '=', '='] usb

/-- A connected host whose session's counter is at `n`. -/
structure Sending (s : Host) (n : UInt64) : Prop where
  idle : s.handler = .idle
  connected : s.connected = true
  device : s.device.isSome = true
  session : s.cryptoSession = some 0
  counter : ∃ c, s.sessions[0]? = some c ∧ c.keyNil = false ∧
    c.keyBuf.length = sessionKeySize ∧ c.seq.outbound = n

theorem Sending.step {s : Host} {n : UInt64} (h : Sending s n) (usb : UsbWrite) :
    ∃ t x, Host.step plainGcm s (sendA usb) = some t ∧
      Sending t (if usb = .ok ∨ ¬n < n + 1 then n + 1 else n) ∧
      t.sealed = s.sealed ++ [x] ∧ x.seq = n ∧ x.written = decide (usb = .ok) := by
  obtain ⟨c, hc, hnil, hlen, rfl⟩ := h.counter
  have hdev : s.device.isNone = false := by
    rw [← Option.not_isSome, h.device]
    rfl
  have hkey : c.key = some c.keyBuf := by rw [CryptoSession.key, hnil]; rfl
  have hdecode : decodeString ['Q', 'Q', '=', '='] = some [65] := by decide
  have hsend : Host.step plainGcm s (sendA usb) =
      some (s.sealAndWrite plainGcm 0 c c.keyBuf [65] usb) := by
    simp [Host.step, sendA, h.idle, sendPayload, h.connected, hdev, h.session, hc, hkey, hdecode]
  rw [hsend]
  simp only [sealAndWrite, encrypt, encryptWithDirection, hlen, ne_eq, not_true_eq_false, if_false]
  have hfits : (Bytes.bigEndian 8 c.seq.nextOutbound.1.toNat ++ plainGcm.gcmSeal c.keyBuf
      (buildIV directionHostToDevice c.seq.nextOutbound.1) [65]).length ≤ maxTransferSize := by
    simp [plainGcm, authTagSize, maxTransferSize]
  have hget : (s.modifySeq 0 (·.nextOutbound.2)).sessions[0]? =
      some (c.mapSeq (·.nextOutbound.2)) := by
    simp [modifySeq, modifySession, hc]
  cases usb with
  | ok =>
    simp only [writeBulk, if_neg (Nat.not_lt.mpr hfits)]
    refine ⟨_, _, rfl, ⟨h.idle, h.connected, h.device, h.session, _, hget, hnil, hlen, ?_⟩,
      rfl, rfl, rfl⟩
    simp [CryptoSession.mapSeq, SequenceTracker.nextOutbound]
  | failed error onWire =>
    simp only [writeBulk, if_neg (Nat.not_lt.mpr hfits)]
    refine ⟨_, _, rfl, ⟨h.idle, h.connected, h.device, h.session,
      (c.mapSeq (·.nextOutbound.2)).mapSeq (·.revertOutbound c.seq.outbound), ?_, hnil, hlen, ?_⟩,
      rfl, rfl, rfl⟩
    · simp [modifySeq, modifySession, hc, logSealed, write, SequenceTracker.nextOutbound]
    · by_cases hlt : c.seq.outbound < c.seq.outbound + 1
      · simp [CryptoSession.mapSeq, SequenceTracker.nextOutbound, SequenceTracker.revertOutbound,
          hlt]
      · simp [CryptoSession.mapSeq, SequenceTracker.nextOutbound, SequenceTracker.revertOutbound,
          hlt]

theorem Sending.sends {s : Host} {n : UInt64} (h : Sending s n) (k : Nat) :
    ∃ t new, Run plainGcm s (List.replicate k (sendA .ok)) t ∧ Sending t (n + UInt64.ofNat k) ∧
      t.sealed = s.sealed ++ new ∧ new.length = k ∧ ∀ x ∈ new, x.written = true := by
  induction k generalizing s n with
  | zero => exact ⟨s, [], .nil s, by simpa using h, by simp, rfl, by simp⟩
  | succ k ih =>
    obtain ⟨t, x, hstep, ht, hsealed, -, hx⟩ := h.step .ok
    rw [if_pos (Or.inl rfl)] at ht
    obtain ⟨u, new, hrun, hu, hnew, hlen, hall⟩ := ih ht
    refine ⟨u, x :: new, .cons hstep hrun, ?_, ?_, by rw [List.length_cons, hlen], ?_⟩
    · rw [Nat.add_comm k 1, UInt64.ofNat_add, ← UInt64.add_assoc]
      exact hu
    · rw [hnew, hsealed, List.append_assoc, List.singleton_append]
    · exact List.forall_mem_cons.mpr ⟨hx, hall⟩

/-- A write that fails at the last number below `2^64` leaves a gap: the counter has gone round to
zero, `RevertOutbound` does not set it back, and the next packet carries zero. -/
theorem last_number_skipped :
    ∃ s es t, Run plainGcm {} [sampleConnect] s ∧ StartsSession s 0 (sampleKey 7).1 ∧
      (∀ e ∈ es, ∃ data usb, e = .sendPayload data usb) ∧ Run plainGcm s es t ∧
      (writtenSince s t).map (·.seq) ≠
        (List.range (writtenSince s t).length).map UInt64.ofNat := by
  obtain ⟨s, hs, hsample⟩ : ∃ s, Run plainGcm {} [sampleConnect] s ∧ s.sealed = [] ∧
      StartsSession s 0 (sampleKey 7).1 ∧ Sending s 0 :=
    ⟨_, Machine.run_of_exec rfl, rfl, ⟨rfl, _, rfl, rfl, rfl⟩, rfl, rfl, rfl, rfl, _, rfl, rfl, rfl,
      rfl⟩
  obtain ⟨hempty, hstart, hsending⟩ := hsample
  obtain ⟨t, new, hrun, ht, hnew, hlen, hall⟩ := hsending.sends (2 ^ 64 - 1)
  obtain ⟨u, x, hfail, hu, hx, -, hxw⟩ := ht.step (.failed "libusb: timeout" false)
  rw [if_pos (Or.inr (by decide))] at hu
  obtain ⟨v, y, hok, -, hy, hseq, hyw⟩ := hu.step .ok
  refine ⟨s, List.replicate (2 ^ 64 - 1) (sendA .ok) ++
    [sendA (.failed "libusb: timeout" false), sendA .ok], v, hs, hstart, ?_, ?_, ?_⟩
  · intro e he
    rcases List.mem_append.mp he with he | he
    · exact ⟨_, _, (List.mem_replicate.mp he).2⟩
    · rcases List.mem_cons.mp he with rfl | he
      · exact ⟨_, _, rfl⟩
      · exact ⟨_, _, List.mem_singleton.mp he⟩
  · exact hrun.append (.cons hfail (.single hok))
  · have hwritten : writtenSince s v = new ++ [y] := by
      rw [writtenSince, sealedSince, hy, hx, hnew, hempty]
      simp [hxw, hyw, List.filter_eq_self.mpr hall]
    rw [hwritten, List.length_append, hlen, List.length_singleton, List.range_succ, List.map_append,
      List.map_append, List.map_singleton, List.map_singleton, hseq]
    intro h
    exact absurd (List.append_inj_right' h rfl) (by decide)

/-- Two packets of one session, with a write in between that fails. -/
theorem written_numbers_sample :
    ∃ s t, Run plainGcm s [sendA .ok, sendA (.failed "libusb: timeout" true), sendA .ok] t ∧
      (writtenSince s t).map (·.seq.toNat) = [0, 1] := by
  obtain ⟨s, t, hs, hstart, hrun, hlen⟩ : ∃ s t, Run plainGcm {} [sampleConnect] s ∧
      StartsSession s 0 (sampleKey 7).1 ∧
      Run plainGcm s [sendA .ok, sendA (.failed "libusb: timeout" true), sendA .ok] t ∧
      (writtenSince s t).length = 2 :=
    ⟨_, _, Machine.run_of_exec rfl, ⟨rfl, _, rfl, rfl, rfl⟩, Machine.run_of_exec rfl, rfl⟩
  have hr : RunInv s := hs.invariant_all ⟨by simp, .init⟩ fun _ _ _ h hs => h.step hs
  have hin := @everywhere_of_sendPayload plainGcm s 0
    [sendA .ok, sendA (.failed "libusb: timeout" true), sendA .ok] hr hstart.1 (by simp [sendA])
  have h := (written_numbers hs hstart hrun hin (by rw [hlen]; decide)).2.1
  rw [hlen] at h
  exact ⟨s, t, hrun, h⟩

end Host

end SmartIdVault.NativeHost
