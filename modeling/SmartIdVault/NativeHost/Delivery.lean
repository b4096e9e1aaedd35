import SmartIdVault.Lib.InSequence
import SmartIdVault.NativeHost.Outbound
import SmartIdVault.NativeHost.Packets

/-! What becomes of the host's packets at the device.  The device opens packets with
`DecryptWithDirection` at the number its own tracker expects, and advances the tracker when one
opens.  The bulk endpoint may hand it the packets of one session in any order, leave some out and
repeat others, and it may hand it packets whose write the host took for failed. -/

namespace SmartIdVault.NativeHost

open List (Sublist Forall₂)

/-! ### The receiving side -/

/-- A device: its sequence tracker and the payloads it has opened. -/
structure Receiver where
  seq : SequenceTracker := {}
  received : List Bytes := []

/-- A packet arrives. -/
def Receiver.receive (gcm : Gcm) (key : Bytes) (r : Receiver) (wire : Bytes) : Receiver :=
  match decryptWithDirection gcm key wire r.seq.expectedInbound directionHostToDevice with
  | .error _ => r
  | .ok (plaintext, _) => { seq := r.seq.advanceInbound, received := r.received ++ [plaintext] }

/-- The wire bytes of a packet, as `EncryptWithDirection` makes them. -/
def Sealed.Wire (gcm : Gcm) (x : Sealed) (wire : Bytes) : Prop :=
  encryptWithDirection gcm x.key x.plaintext x.seq x.direction = .ok wire

/-- A packet of the host to this device, and the payload that goes under its number. -/
structure Sealed.Carries (key : Bytes) (sent : List Bytes) (x : Sealed) : Prop where
  key : x.key = key
  direction : x.direction = directionHostToDevice
  payload : sent[x.seq.toNat]? = some x.plaintext

section Receive

variable {gcm : Gcm} {key : Bytes} {sent : List Bytes}

/-- The receiver has taken the first `n` payloads. -/
structure Receiver.Took (sent : List Bytes) (n : Nat) (r : Receiver) : Prop where
  inbound : r.seq.inbound.toNat = n
  received : r.received = sent.take n

theorem exists_wire (hgcm : gcm.Correct) (hkey : key.length = sessionKeySize) {x : Sealed}
    (hx : x.key = key) : ∃ wire, x.Wire gcm wire := by
  obtain ⟨wire, hwire, -⟩ := encryptWithDirection_eq hgcm (hx ▸ hkey) x.plaintext x.seq x.direction
  exact ⟨wire, hwire⟩

theorem exists_wires (hgcm : gcm.Correct) (hkey : key.length = sessionKeySize)
    {network : List Sealed} (h : ∀ x ∈ network, x.key = key) :
    ∃ wires, Forall₂ (Sealed.Wire gcm) network wires := by
  induction network with
  | nil => exact ⟨[], .nil⟩
  | cons x network ih =>
    obtain ⟨wire, hwire⟩ := exists_wire hgcm hkey (h x (List.mem_cons_self ..))
    obtain ⟨wires, hwires⟩ := ih fun y hy => h y (List.mem_cons_of_mem _ hy)
    exact ⟨wire :: wires, .cons hwire hwires⟩

/-- One packet: it is taken when its number is the next one. -/
theorem Receiver.Took.receive (hgcm : gcm.Correct) (hkey : key.length = sessionKeySize)
    (hlen : sent.length < 2 ^ 64) {n : Nat} {r : Receiver} (h : r.Took sent n) {x : Sealed}
    {wire : Bytes} (hx : x.Carries key sent) (hwire : x.Wire gcm wire) :
    (r.receive gcm key wire).Took sent (InSequence.next n x.seq.toNat) := by
  have hxkey : x.key.length = sessionKeySize := hx.key ▸ hkey
  obtain ⟨wire', hwire', hlong, hseq, hdrop⟩ :=
    encryptWithDirection_eq hgcm hxkey x.plaintext x.seq x.direction
  obtain rfl : wire = wire' := Except.ok.inj (hwire.symm.trans hwire')
  have hexp : r.seq.expectedInbound.toNat = n := h.inbound
  by_cases hn : x.seq.toNat = n
  · -- the number the device waits for: the packet opens
    have heq : wireSeq wire = r.seq.expectedInbound := by
      rw [hseq]
      exact UInt64.toNat_inj.mp (hn.trans hexp.symm)
    have hopen : decryptWithDirection gcm key wire r.seq.expectedInbound directionHostToDevice =
        .ok (x.plaintext, r.seq.expectedInbound) := by
      rw [decryptWithDirection_expected gcm _ hkey hlong heq, hdrop, hx.direction, hx.key,
        ← heq, hseq, hgcm.open_seal x.plaintext hkey (length_buildIV _ _)]
    have hroom : n + 1 < 2 ^ 64 := by
      have hlt : x.seq.toNat < sent.length := (List.getElem?_eq_some_iff.mp hx.payload).1
      omega
    rw [Receiver.receive, hopen, hn, InSequence.next_self]
    refine ⟨?_, ?_⟩
    · show (r.seq.inbound + 1).toNat = n + 1
      rw [UInt64.toNat_add, UInt64.toNat_one, h.inbound, Nat.mod_eq_of_lt hroom]
    · show r.received ++ [x.plaintext] = sent.take (n + 1)
      rw [h.received, List.take_add_one, ← hn, hx.payload, Option.toList_some]
  · -- a smaller number is a replay and a larger one a gap
    have hfail : ∃ kind, FailsWith kind
        (decryptWithDirection gcm key wire r.seq.expectedInbound directionHostToDevice) := by
      rcases UInt64.lt_or_lt_of_ne (fun heq => hn ((congrArg UInt64.toNat heq).trans hexp))
        with hlt | hlt
      · exact ⟨_, decryptWithDirection_replay gcm _ hkey hlong (hseq.symm ▸ hlt)⟩
      · exact ⟨_, decryptWithDirection_gap gcm _ hkey hlong (hseq.symm ▸ hlt)⟩
    obtain ⟨kind, message, hfail⟩ := hfail
    rw [Receiver.receive, hfail, InSequence.next_of_ne hn]
    exact h

/-- Packets that arrive one after the other. -/
theorem Receiver.Took.receiveAll (hgcm : gcm.Correct) (hkey : key.length = sessionKeySize)
    (hlen : sent.length < 2 ^ 64) {network : List Sealed} {wires : List Bytes}
    (hwires : Forall₂ (Sealed.Wire gcm) network wires)
    (hnet : ∀ x ∈ network, x.Carries key sent) {n : Nat} {r : Receiver} (h : r.Took sent n) :
    (wires.foldl (Receiver.receive gcm key) r).Took sent
      ((network.map (·.seq.toNat)).foldl InSequence.next n) := by
  induction hwires generalizing n r with
  | nil => exact h
  | cons hwire _ ih =>
    refine ih (fun y hy => hnet y (List.mem_cons_of_mem _ hy)) ?_
    exact h.receive hgcm hkey hlen (hnet _ (List.mem_cons_self ..)) hwire

end Receive

/-! ### The numbers of all packets -/

/-- Every packet, its write successful or not, carries the number of the packets written before. -/
def CountsWritten (l : List Sealed) : Prop :=
  ∀ k x, l[k]? = some x → x.seq.toNat = ((l.take k).filter (·.written)).length

theorem CountsWritten.append {l : List Sealed} (h : CountsWritten l) {x : Sealed}
    (hx : x.seq.toNat = (l.filter (·.written)).length) : CountsWritten (l ++ [x]) := by
  intro k y hy
  rcases Nat.lt_trichotomy k l.length with hk | rfl | hk
  · rw [List.getElem?_append_left hk] at hy
    rw [List.take_append_of_le_length (Nat.le_of_lt hk)]
    exact h k y hy
  · rw [List.getElem?_concat_length] at hy
    rw [List.take_left, ← Option.some.inj hy, hx]
  · have hlen : (l ++ [x]).length ≤ k := by
      rw [List.length_append, List.length_singleton]
      exact hk
    rw [List.getElem?_eq_none hlen] at hy
    cases hy

/-- A packet with the number of all written ones comes after them. -/
theorem CountsWritten.last {l : List Sealed} (h : CountsWritten l) {x : Sealed} (hx : x ∈ l)
    (hseq : x.seq.toNat = (l.filter (·.written)).length) :
    x.written = false ∧ Sublist (l.filter (·.written) ++ [x]) l := by
  obtain ⟨k, hk⟩ := List.mem_iff_getElem?.mp hx
  obtain ⟨hlt, hget⟩ := List.getElem?_eq_some_iff.mp hk
  have hsplit : l = l.take k ++ x :: l.drop (k + 1) := by
    rw [← hget, List.getElem_cons_drop, List.take_append_drop]
  have hfilter : l.filter (·.written) = (l.take k).filter (·.written) ++
      (x :: l.drop (k + 1)).filter (·.written) := by
    rw [← List.filter_append, ← hsplit]
  have hrest : (x :: l.drop (k + 1)).filter (·.written) = [] := by
    have hcount := h k x hk
    rw [hseq, hfilter, List.length_append] at hcount
    exact List.eq_nil_of_length_eq_zero (by omega)
  have hunwritten : x.written = false := by
    simpa using List.filter_eq_nil_iff.mp hrest x (List.mem_cons_self ..)
  refine ⟨hunwritten, ?_⟩
  rw [hfilter, hrest, List.append_nil]
  conv_rhs => rw [hsplit]
  exact List.filter_sublist.append (List.singleton_sublist.mpr (List.mem_cons_self ..))

namespace Host

/-- The payload that an event asks for. -/
def Event.payload : Event → Option Bytes
  | .sendPayload data _ => decodeString data
  | _ => none

variable {gcm : Gcm} {s t u : Host} {i : SessionId} {key : Bytes}

/-- A step seals nothing, or the payload that is asked for under the session's next number. -/
theorem Effect.sealed_eq {e : Event} (h : Effect gcm t e u) : u.sealed = t.sealed ∨
    ∃ i c plaintext written, t.cryptoSession = some i ∧ t.sessions[i]? = some c ∧
      e.payload = some plaintext ∧ u.sealed = t.sealed ++
        [⟨c.keyBuf, directionHostToDevice, c.seq.outbound, plaintext, written⟩] := by
  cases h with
  | sent i c plaintext hw hi hc hk hd => exact .inr ⟨i, c, plaintext, true, hi, hc, hd, rfl⟩
  | reverted i c plaintext hw hi hc hk hd => exact .inr ⟨i, c, plaintext, false, hi, hc, hd, rfl⟩
  | closed hw he =>
    left
    simp [closeLocked_eq]
  | _ => exact .inl rfl

/-- The payloads of a run's packets are among those that are asked for, in the same order. -/
theorem sealedSince_asked {es : List Event} (hr : RunInv s) (hrun : Run gcm s es t) :
    Sublist ((sealedSince s t).map (·.plaintext)) (es.filterMap Event.payload) := by
  have h : RunInv t ∧ s.sealed <+: t.sealed ∧
      Sublist ((sealedSince s t).map (·.plaintext)) (es.filterMap Event.payload) := by
    refine hrun.history (J := fun es t => RunInv t ∧ s.sealed <+: t.sealed ∧
      Sublist ((sealedSince s t).map (·.plaintext)) (es.filterMap Event.payload)) ?_ ?_
    · exact ⟨hr, List.prefix_refl _, by rw [sealedSince_self]; exact List.nil_sublist _⟩
    · rintro pre e post t u - ⟨hr, hgrown, hsub⟩ hs
      have he := step_effect hr.1 hs
      refine ⟨hr.step hs, hgrown.trans he.sealed_isPrefix, ?_⟩
      rw [List.filterMap_append]
      rcases he.sealed_eq with hsame | ⟨j, c, plaintext, written, -, -, hpayload, hnew⟩
      · rw [sealedSince, hsame]
        exact hsub.trans (List.sublist_append_left _ _)
      · rw [sealedSince_append hgrown hnew, List.map_append]
        apply hsub.append
        simp [hpayload]
  exact h.2.2

theorem countsWritten_of_run {es : List Event} (hr : RunInv s) (hstart : StartsSession s i key)
    (hrun : Run gcm s es t)
    (hin : Machine.Everywhere (Host.step gcm) (·.cryptoSession = some i) s es)
    (hroom : (writtenSince s t).length + 1 < 2 ^ 64) : CountsWritten (sealedSince s t) := by
  have h : RunInv t ∧ ((writtenSince s t).length + 1 < 2 ^ 64 →
      Numbered s i key t ∧ CountsWritten (sealedSince s t)) := by
    refine hrun.invariant (I := fun t => RunInv t ∧ ((writtenSince s t).length + 1 < 2 ^ 64 →
      Numbered s i key t ∧ CountsWritten (sealedSince s t))) ⟨hr, fun _ => ?_⟩ hin.throughout ?_
    · refine ⟨.init hstart, ?_⟩
      rw [sealedSince_self]
      intro k x hx
      cases hx
    · rintro t e u ⟨hr, hnum⟩ hkeeps hs
      refine ⟨hr.step hs, fun hroom => ?_⟩
      have he := step_effect hr.1 hs
      have hle := length_writtenSince_le (s := s) he.sealed_isPrefix
      obtain ⟨hn, hcounts⟩ := hnum (by omega)
      refine ⟨hn.step hr.2 he (hkeeps u hs) (by omega), ?_⟩
      rcases he.sealed_eq with hsame | ⟨j, c, plaintext, written, hj, hc, -, hnew⟩
      · rw [sealedSince, hsame]
        exact hcounts
      · obtain rfl : j = i := Option.some.inj (hj.symm.trans hn.inUse)
        obtain ⟨c', hc', -, hcount⟩ := hn.counter
        obtain rfl : c = c' := Option.some.inj (hc.symm.trans hc')
        rw [sealedSince_append hn.grown hnew]
        apply hcounts.append
        exact hcount
  exact (h.2 hroom).2

/-! ### What the device receives -/

/-- The payloads that go under the numbers of a session: those of the written packets, and then
that of a packet whose write failed after them, if the device gets to see one. -/
theorem exists_sent {network : List Sealed} (hnum : Numbered s i key t) (hkey : KeyInv t)
    (hcounts : CountsWritten (sealedSince s t)) (hnet : ∀ x ∈ network, x ∈ sealedSince s t)
    (hagree : ∀ x ∈ network, ∀ y ∈ network ++ writtenSince s t, x.seq = y.seq →
      x.plaintext = y.plaintext) :
    ∃ sent, (sent = (writtenSince s t).map (·.plaintext) ∨
        ∃ x ∈ network, x.written = false ∧ x.seq.toNat = (writtenSince s t).length ∧
          sent = (writtenSince s t).map (·.plaintext) ++ [x.plaintext]) ∧
      Sublist sent ((sealedSince s t).map (·.plaintext)) ∧
      ∀ x ∈ network, x.Carries key sent := by
  have hdir : ∀ x ∈ network, x.direction = directionHostToDevice := by
    intro x hx
    exact hkey.direction x (List.mem_of_mem_drop (hnet x hx))
  have hseq {k : Nat} (hk : k < (writtenSince s t).length) :
      ((writtenSince s t)[k]).seq.toNat = k := by
    have hget := congrArg (·[k]?) hnum.numbers
    simpa [List.getElem?_range, hk] using hget
  -- a number that has been written goes with the payload that was
  have hearlier : ∀ x ∈ network, x.seq.toNat < (writtenSince s t).length →
      ((writtenSince s t).map (·.plaintext))[x.seq.toNat]? = some x.plaintext := by
    intro x hx hlt
    have hsame : x.plaintext = ((writtenSince s t)[x.seq.toNat]).plaintext := by
      apply hagree x hx _ (List.mem_append_right _ (List.getElem_mem hlt))
      exact UInt64.toNat_inj.mp (hseq hlt).symm
    rw [List.getElem?_map, List.getElem?_eq_getElem hlt, Option.map_some, hsame]
  have hle : ∀ x ∈ network, x.seq.toNat ≤ (writtenSince s t).length := by
    intro x hx
    obtain ⟨k, hk⟩ := List.mem_iff_getElem?.mp (hnet x hx)
    rw [hcounts k x hk]
    exact ((List.take_sublist k _).filter _).length_le
  by_cases hpending : ∃ x ∈ network, x.seq.toNat = (writtenSince s t).length
  · obtain ⟨z, hz, hzseq⟩ := hpending
    obtain ⟨hunwritten, hsub⟩ := hcounts.last (hnet z hz) hzseq
    refine ⟨_, .inr ⟨z, hz, hunwritten, hzseq, rfl⟩, ?_, fun x hx => ⟨?_, hdir x hx, ?_⟩⟩
    · rw [writtenSince]
      simpa using hsub.map (·.plaintext)
    · exact hnum.keys x (hnet x hx)
    · rcases Nat.lt_or_eq_of_le (hle x hx) with hlt | heq
      · rw [List.getElem?_append_left (by simpa using hlt)]
        exact hearlier x hx hlt
      · have hsame : x.plaintext = z.plaintext := by
          apply hagree x hx z (List.mem_append_left _ hz)
          exact UInt64.toNat_inj.mp (heq.trans hzseq.symm)
        rw [heq, hsame, ← List.length_map (f := (·.plaintext)), List.getElem?_concat_length]
  · refine ⟨_, .inl rfl, List.filter_sublist.map _, fun x hx => ⟨?_, hdir x hx, ?_⟩⟩
    · exact hnum.keys x (hnet x hx)
    · apply hearlier x hx
      exact Nat.lt_of_le_of_ne (hle x hx) fun heq => hpending ⟨x, hx, heq⟩

/-- Delivery within one session, for every run of the host and every list of arrivals at the device
in which packets of one number agree on their payload (so do all packets that were written, and all
that were sealed as long as a payload is sent again after a failed write).  The device opens the
payloads that were asked for and written, in order and each once, as far as their numbers can be
found in the arrivals; at their end there may be the payload of a write that failed though its
packet arrived. -/
theorem delivered_in_order (hgcm : gcm.Correct) {before es : List Event} {network : List Sealed}
    (hreach : Run gcm {} before s) (hstart : StartsSession s i key) (hrun : Run gcm s es t)
    (hin : Machine.Everywhere (Host.step gcm) (·.cryptoSession = some i) s es)
    (hroom : (writtenSince s t).length + 1 < 2 ^ 64)
    (hnet : ∀ x ∈ network, x ∈ sealedSince s t)
    (hagree : ∀ x ∈ network, ∀ y ∈ network ++ writtenSince s t, x.seq = y.seq →
      x.plaintext = y.plaintext) :
    ∃ sent wires, (sent = (writtenSince s t).map (·.plaintext) ∨
        ∃ x ∈ network, x.written = false ∧ x.seq.toNat = (writtenSince s t).length ∧
          sent = (writtenSince s t).map (·.plaintext) ++ [x.plaintext]) ∧
      Sublist sent (es.filterMap Event.payload) ∧
      Forall₂ (Sealed.Wire gcm) network wires ∧
      ∃ n ≤ sent.length, (wires.foldl (Receiver.receive gcm key) {}).received = sent.take n ∧
        ∀ m, m ≤ n ↔ Sublist (List.range m) (network.map (·.seq.toNat)) := by
  have hr : RunInv s := hreach.invariant_all ⟨by simp, .init⟩ fun _ _ _ h hs => h.step hs
  have hr' : RunInv t := hrun.invariant_all hr fun _ _ _ h hs => h.step hs
  have hkey : key.length = sessionKeySize := by
    obtain ⟨hi, c, hc, rfl, -⟩ := hstart
    obtain ⟨c', hc', -, hlen⟩ := hr.2.current i hi
    obtain rfl : c = c' := Option.some.inj (hc.symm.trans hc')
    exact hlen
  have hnum := numbered_of_run hr hstart hrun hin hroom
  have hcounts := countsWritten_of_run hr hstart hrun hin hroom
  obtain ⟨sent, hsent, hsub, hcarries⟩ := exists_sent hnum hr'.2 hcounts hnet hagree
  obtain ⟨wires, hwires⟩ := exists_wires hgcm hkey fun x hx => (hcarries x hx).key
  have hlen : sent.length < 2 ^ 64 := by
    rcases hsent with rfl | ⟨x, -, -, -, rfl⟩
    · rw [List.length_map]
      omega
    · simpa using hroom
  have htook : (wires.foldl (Receiver.receive gcm key) {}).Took sent
      (InSequence.taken (network.map (·.seq.toNat))) :=
    Receiver.Took.receiveAll hgcm hkey hlen hwires hcarries ⟨rfl, rfl⟩
  refine ⟨sent, wires, hsent, hsub.trans (sealedSince_asked hr hrun), hwires, _, ?_,
    htook.received, fun m => InSequence.le_taken_iff⟩
  apply InSequence.taken_le
  intro k hk
  obtain ⟨x, hx, rfl⟩ := List.mem_map.mp hk
  exact (List.getElem?_eq_some_iff.mp (hcarries x hx).payload).1

/-- Payload `B`. -/
def sendB (usb : UsbWrite) : Event := .sendPayload ['Q', 'g', '=', '='] usb

/-- Payload `A`, and payload `B` twice, since its first write fails with the packet on the wire. -/
def sampleSends : List Event :=
  [sendA .ok, sendB (.failed "libusb: timeout" true), sendB .ok]

def samplePacket (n : UInt64) (plaintext : Bytes) (written : Bool) : Sealed :=
  ⟨(sampleKey 7).1, directionHostToDevice, n, plaintext, written⟩

/-- The packet of the failed write overtakes that of `A`, which comes once more at the end. -/
def sampleArrivals : List Sealed :=
  [samplePacket 1 [66] false, samplePacket 0 [65] true, samplePacket 1 [66] true,
    samplePacket 0 [65] true]

theorem delivered_in_order_sample :
    ∃ s t wires, Run taggingGcm s sampleSends t ∧
      Forall₂ (Sealed.Wire taggingGcm) sampleArrivals wires ∧
      (wires.foldl (Receiver.receive taggingGcm (sampleKey 7).1) {}).received = [[65], [66]] := by
  obtain ⟨s, t, hs, hstart, hrun, hsealed⟩ : ∃ s t, Run taggingGcm {} [sampleConnect] s ∧
      StartsSession s 0 (sampleKey 7).1 ∧ Run taggingGcm s sampleSends t ∧
      sealedSince s t =
        [samplePacket 0 [65] true, samplePacket 1 [66] false, samplePacket 1 [66] true] :=
    ⟨_, _, Machine.run_of_exec rfl, ⟨rfl, _, rfl, rfl, rfl⟩, Machine.run_of_exec rfl, rfl⟩
  have hr : RunInv s := hs.invariant_all ⟨by simp, .init⟩ fun _ _ _ h hs => h.step hs
  have hin := @everywhere_of_sendPayload taggingGcm s 0 sampleSends hr hstart.1
    (by simp [sampleSends, sendA, sendB])
  have hwritten :
      writtenSince s t = [samplePacket 0 [65] true, samplePacket 1 [66] true] := by
    rw [writtenSince, hsealed]
    rfl
  have hnet : ∀ x ∈ sampleArrivals, x ∈ sealedSince s t := by
    rw [hsealed]
    simp [sampleArrivals]
  obtain ⟨sent, wires, hsent, -, hwires, n, hle, hreceived, hn⟩ :=
    delivered_in_order taggingGcm_correct hs hstart hrun hin (by rw [hwritten]; decide) hnet
      (by rw [hwritten]; decide)
  have htwo : 2 ≤ n := (hn 2).mpr (by decide)
  refine ⟨s, t, wires, hrun, hwires, ?_⟩
  rw [hwritten] at hsent
  rcases hsent with rfl | ⟨x, hx, -, hseq, -⟩
  · rw [hreceived, List.take_of_length_le (by simpa using htwo)]
    rfl
  · simp only [sampleArrivals, List.mem_cons, List.not_mem_nil, or_false] at hx
    rcases hx with rfl | rfl | rfl | rfl <;> cases hseq

end Host

end SmartIdVault.NativeHost
