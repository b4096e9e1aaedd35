import SmartIdVault.Lib.NonceLedger
import SmartIdVault.NativeHost.Steps

/-! Nonce uniqueness of the native host.  The host is a nonce ledger: its crypto session is the key
in use, `Seq.outbound` the next number, and a packet is kept when its USB write returned no error.
`send-payload` gives the number of a failed write back, so the ledger's condition becomes the
condition on the host: no two different plaintexts are sealed under one key, direction and sequence
number exactly as long as every payload sent right after a failed write is that payload again. -/

namespace SmartIdVault.NativeHost

open NonceLedger (Ledger Move)

namespace Host

/-- No two different plaintexts are sealed under the same key, direction and sequence number. -/
def NonceUnique (s : Host) : Prop :=
  ∀ x ∈ s.sealed, ∀ y ∈ s.sealed, x.key = y.key → x.direction = y.direction → x.seq = y.seq →
    x.plaintext = y.plaintext

/-- Every exchange so far yielded a new key, and every sequence number so far leaves room for the
next one. -/
def NoncesFit (s : Host) : Prop :=
  s.established.Nodup ∧ ∀ x ∈ s.sealed, x.seq.toNat + 1 < 2 ^ 64

/-- A payload that would be sealed right after one under the same key whose USB write returned an
error is that payload again. -/
def ResendsSame (s : Host) : Event → Prop
  | .sendPayload data _ => ∀ key, s.sendKey = some key → ∀ plaintext,
      decodeString data = some plaintext → ∀ last ∈ s.sealed.getLast?, last.key = key →
        last.written = false → last.plaintext = plaintext
  | _ => True

instance (s : Host) : (e : Event) → Decidable (s.ResendsSame e)
  | .sendPayload data _ => inferInstanceAs (Decidable (∀ key, s.sendKey = some key → ∀ plaintext,
      decodeString data = some plaintext → ∀ last ∈ s.sealed.getLast?, last.key = key →
        last.written = false → last.plaintext = plaintext))
  | .connect .. | .connectResume .. | .disconnect | .rekeyBegin | .kexRead _ | .rekeyFinish ..
  | .hotplugClose | .loop .. => instDecidableTrue

/-! ### The host as a ledger -/

def entry (x : Sealed) : NonceLedger.Entry Bytes Bytes :=
  ⟨x.key, x.seq.toNat, x.plaintext, x.written⟩

def ledger (s : Host) : Ledger Bytes Bytes where
  active := s.current.bind fun c => c.key.map (·, c.seq.outbound.toNat)
  used := s.established
  log := s.sealed.map entry

/-- The crypto session in use has its key, a session that a rekey captured exists, and `Encrypt`
seals in one direction. -/
structure KeyInv (s : Host) : Prop where
  current : ∀ i, s.cryptoSession = some i →
    ∃ c, s.sessions[i]? = some c ∧ c.keyNil = false ∧ c.keyBuf.length = sessionKeySize
  old : ∀ rw old got, s.handler = .exchanging rw old got → old < s.sessions.length
  direction : ∀ x ∈ s.sealed, x.direction = directionHostToDevice

theorem KeyInv.init : KeyInv {} where
  current := by simp
  old := by simp
  direction := by simp

theorem nonceUnique_iff {s : Host} (h : KeyInv s) :
    s.NonceUnique ↔ NonceLedger.Unique s.ledger := by
  simp only [NonceUnique, NonceLedger.Unique, ledger, List.forall_mem_map, entry]
  constructor
  · intro hu x hx y hy hk hn
    exact hu x hx y hy hk ((h.direction x hx).trans (h.direction y hy).symm)
      (UInt64.toNat_inj.mp hn)
  · intro hu x hx y hy hk _ hs
    exact hu x hx y hy hk (congrArg UInt64.toNat hs)

/-! ### What the operations do to the ledger -/

theorem KeyInv.congr {s t : Host} (h : KeyInv s) (h1 : t.cryptoSession = s.cryptoSession)
    (h2 : t.sessions = s.sessions) (h4 : t.sealed = s.sealed)
    (h5 : ∀ rw old got, t.handler = .exchanging rw old got → old < s.sessions.length) :
    KeyInv t where
  current i hi := by rw [h2]; exact h.current i (h1 ▸ hi)
  old rw old got ho := by rw [h2]; exact h5 rw old got ho
  direction x hx := h.direction x (h4 ▸ hx)

theorem ledger_modifySeq {s : Host} {i : SessionId} {f : SequenceTracker → SequenceTracker}
    (hf : ∀ q, (f q).outbound = q.outbound) : (s.modifySeq i f).ledger = s.ledger := by
  have : ((s.modifySeq i f).current.bind fun c => c.key.map (·, c.seq.outbound.toNat)) =
      s.current.bind fun c => c.key.map (·, c.seq.outbound.toNat) := by
    cases hcs : s.cryptoSession with
    | none => simp [current, modifySeq, modifySession, hcs]
    | some j =>
      simp only [current, modifySeq, modifySession, hcs, Option.bind_some, List.getElem?_modify]
      cases s.sessions[j]? with
      | none => simp
      | some c =>
        by_cases hij : i = j
        · simp [hij, CryptoSession.mapSeq, CryptoSession.key, hf]
        · simp [hij]
  simp only [ledger, this]
  rfl

theorem KeyInv.modifySeq {s : Host} (h : KeyInv s) (i : SessionId)
    (f : SequenceTracker → SequenceTracker) : KeyInv (s.modifySeq i f) where
  current j hj := by
    obtain ⟨c, hc, hn, hl⟩ := h.current j hj
    simp only [Host.modifySeq, Host.modifySession, List.getElem?_modify, hc]
    by_cases hij : i = j
    · exact ⟨c.mapSeq f, by simp [hij], hn, hl⟩
    · exact ⟨c, by simp [hij], hn, hl⟩
  old rw old got ho := by
    simp only [Host.modifySeq, Host.modifySession, List.length_modify]
    exact h.old rw old got ho
  direction := h.direction

theorem KeyInv.logSealed {s : Host} (h : KeyInv s) {x : Sealed}
    (hx : x.direction = directionHostToDevice) : KeyInv (s.logSealed x) where
  current := h.current
  old := h.old
  direction y hy := by
    rw [Host.logSealed, List.mem_append, List.mem_singleton] at hy
    rcases hy with hy | rfl
    · exact h.direction y hy
    · exact hx

theorem ledger_closeLocked (s : Host) : s.closeLocked.ledger = NonceLedger.step s.ledger .drop := by
  simp [closeLocked_eq, ledger, current, NonceLedger.step]

theorem active_ledger {s : Host} (h : KeyInv s) {i : SessionId} {c : CryptoSession}
    (hi : s.cryptoSession = some i) (hc : s.sessions[i]? = some c) :
    c.keyNil = false ∧ s.ledger.active = some (c.keyBuf, c.seq.outbound.toNat) := by
  obtain ⟨c', hc', hn, -⟩ := h.current i hi
  obtain rfl : c = c' := Option.some.inj (hc.symm.trans hc')
  exact ⟨hn, by simp [ledger, current, hi, hc, CryptoSession.key, hn]⟩

theorem resendsSame_iff {s : Host} {data : List Char} {usb : UsbWrite} {key plaintext : Bytes}
    {number : Nat} {kept : Bool} (hk : s.sendKey = some key)
    (hd : decodeString data = some plaintext) (ha : s.ledger.active = some (key, number)) :
    s.ResendsSame (.sendPayload data usb) ↔
      NonceLedger.Repeats s.ledger (.put plaintext kept) := by
  have hlast : ∀ x, x ∈ s.ledger.log.getLast? ↔ ∃ last ∈ s.sealed.getLast?, entry last = x := by
    simp [ledger]
  constructor
  · intro h k n hkn x hx hxk hxf
    obtain ⟨last, hl, rfl⟩ := (hlast x).mp hx
    obtain rfl : key = k := congrArg Prod.fst (Option.some.inj (ha.symm.trans hkn))
    exact h key hk plaintext hd last hl hxk hxf
  · intro h k hk' p hd' last hl hlk hlw
    obtain rfl : key = k := Option.some.inj (hk.symm.trans hk')
    obtain rfl : plaintext = p := Option.some.inj (hd.symm.trans hd')
    exact h key number ha (entry last) ((hlast _).mpr ⟨last, hl, rfl⟩) hlk hlw

theorem ledger_put {s t : Host} {i : SessionId} {c d : CryptoSession} {plaintext : Bytes}
    {kept : Bool} (h : KeyInv s) (hi : s.cryptoSession = some i) (hc : s.sessions[i]? = some c)
    (ht : t.cryptoSession = some i) (hd : t.sessions[i]? = some d) (hn : d.keyNil = c.keyNil)
    (hb : d.keyBuf = c.keyBuf)
    (ho : d.seq.outbound.toNat =
      if kept then c.seq.outbound.toNat + 1 else c.seq.outbound.toNat)
    (he : t.established = s.established)
    (hs : t.sealed = s.sealed ++
      [⟨c.keyBuf, directionHostToDevice, c.seq.outbound, plaintext, kept⟩]) :
    t.ledger = NonceLedger.step s.ledger (.put plaintext kept) := by
  obtain ⟨hnil, hact⟩ := active_ledger h hi hc
  have hact' : t.ledger.active =
      some (c.keyBuf, if kept then c.seq.outbound.toNat + 1 else c.seq.outbound.toNat) := by
    simp [ledger, current, ht, hd, CryptoSession.key, hn, hnil, hb, ho]
  simp only [NonceLedger.step, hact, ← hact']
  simp [ledger, he, hs, entry]

/-- A step of the host is a move of its ledger that brings in only new keys; the move repeats an
unkept message exactly when the step resends a payload whose write failed. -/
theorem Effect.ledger {gcm : Gcm} {s t : Host} {e : Event} (h : Effect gcm s e t)
    (hi : KeyInv s) (hfit : t.NoncesFit) :
    ∃ m, t.ledger = NonceLedger.step s.ledger m ∧ NonceLedger.Fresh s.ledger m ∧
      (s.ResendsSame e ↔ NonceLedger.Repeats s.ledger m) := by
  cases h with
  | connected key hw hh hc =>
    refine ⟨.adopt key.1, ?_, ?_, Iff.rfl⟩
    · simp [Host.ledger, current, CryptoSession.key, NonceLedger.step]
    · have := hfit.1
      simp only [List.nodup_append] at this
      exact fun hm => this.2.2 _ hm _ (List.mem_singleton_self _) rfl
  | rekeySwapped rw old got key hw hh hr =>
    refine ⟨.discard key.1, ?_, ?_, Iff.rfl⟩
    · have hcur : ∀ j, s.cryptoSession = some j →
          ((s.newSession key).sessions.modify s.sessions.length CryptoSession.zero)[j]? =
            s.sessions[j]? := by
        intro j hj
        obtain ⟨c, hc, -, -⟩ := hi.current j hj
        have hlt : j < s.sessions.length := (List.getElem?_eq_some_iff.mp hc).1
        rw [List.getElem?_modify, newSession, List.getElem?_append_left hlt]
        simp [Nat.ne_of_gt hlt]
      cases hcs : s.cryptoSession with
      | none => simp [Host.ledger, current, hcs, NonceLedger.step]
      | some j => simp [Host.ledger, current, hcs, NonceLedger.step, hcur j hcs]
    · have := hfit.1
      simp only [List.nodup_append] at this
      exact fun hm => this.2.2 _ hm _ (List.mem_singleton_self _) rfl
  | rekeyed rw old got key hw hh hr =>
    refine ⟨.adopt key.1, ?_, ?_, Iff.rfl⟩
    · have hne : old ≠ s.sessions.length := Nat.ne_of_lt (hi.old rw old got hh)
      simp [Host.ledger, current, CryptoSession.key, NonceLedger.step, List.getElem?_modify,
        newSession, hne]
    · have := hfit.1
      simp only [List.nodup_append] at this
      exact fun hm => this.2.2 _ hm _ (List.mem_singleton_self _) rfl
  | sendRefused hw hr =>
    refine ⟨.stay, rfl, trivial, ?_⟩
    simp only [ResendsSame, NonceLedger.Repeats, iff_true]
    rcases hr with hr | hr
    · simp [hr]
    · simp [hr]
  | encryptFailed i c hw hcs hc hl =>
    obtain ⟨c', hc', -, hlen⟩ := hi.current i hcs
    obtain rfl : c = c' := Option.some.inj (hc.symm.trans hc')
    exact absurd hlen hl
  | sent i c plaintext hw hcs hc hk hd =>
    have hlt : c.seq.outbound.toNat + 1 < 2 ^ 64 :=
      hfit.2 _ (List.mem_append_right _ (List.mem_singleton_self _))
    refine ⟨.put plaintext true, ?_, trivial, resendsSame_iff hk hd (active_ledger hi hcs hc).2⟩
    refine ledger_put (d := c.mapSeq (·.nextOutbound.2)) hi hcs hc hcs (by simp [hc]) rfl rfl ?_
      rfl rfl
    simp only [CryptoSession.mapSeq, SequenceTracker.nextOutbound, UInt64.toNat_add,
      UInt64.toNat_one, Nat.mod_eq_of_lt hlt, if_true]
  | reverted i c plaintext hw hcs hc hk hd =>
    have hlt : c.seq.outbound.toNat + 1 < 2 ^ 64 :=
      hfit.2 _ (List.mem_append_right _ (List.mem_singleton_self _))
    refine ⟨.put plaintext false, ?_, trivial, resendsSame_iff hk hd (active_ledger hi hcs hc).2⟩
    refine ledger_put
      (d := (c.mapSeq (·.nextOutbound.2)).mapSeq (·.revertOutbound c.seq.outbound)) hi hcs hc hcs
      (by simp [hc]) rfl rfl ?_ rfl rfl
    simp [CryptoSession.mapSeq, SequenceTracker.outbound_revert_nextOutbound hlt]
  | closed hw he =>
    refine ⟨.drop, ledger_closeLocked s, trivial, ?_⟩
    rcases he with rfl | rfl <;> exact Iff.rfl
  | advanced l cs plaintext hl hp =>
    refine ⟨.stay, ?_, trivial, Iff.rfl⟩
    exact ledger_modifySeq (s := s) (i := cs) SequenceTracker.outbound_advanceInbound
  | _ => exact ⟨.stay, rfl, trivial, Iff.rfl⟩

theorem KeyInv.closeLocked {s : Host} (h : KeyInv s) : KeyInv s.closeLocked where
  current := by simp [closeLocked_eq]
  old rw old got ho := by
    have hlen : s.zeroedSessions.length = s.sessions.length := by
      unfold zeroedSessions
      split <;> simp
    simp only [closeLocked_eq, hlen] at ho ⊢
    exact h.old rw old got ho
  direction := by simpa [closeLocked_eq] using h.direction

theorem KeyInv.adopt {s t : Host} (h : KeyInv s) {key : SessionKey}
    {f : CryptoSession → CryptoSession} {old : SessionId} (hold : old ≠ s.sessions.length)
    (h1 : t.cryptoSession = some s.sessions.length)
    (h2 : t.sessions = (s.newSession key).sessions.modify old f) (h3 : t.handler = .idle)
    (h4 : t.sealed = s.sealed) : KeyInv t where
  current i hi := by
    obtain rfl : s.sessions.length = i := Option.some.inj (h1.symm.trans hi)
    exact ⟨{ keyBuf := key.1 }, by simp [h2, newSession, hold], rfl, key.2⟩
  old rw old got ho := by simp [h3] at ho
  direction x hx := h.direction x (h4 ▸ hx)

theorem Effect.keyInv {gcm : Gcm} {s t : Host} {e : Event} (h : Effect gcm s e t)
    (hi : KeyInv s) : KeyInv t := by
  cases h with
  | connected key hw hh hc =>
    refine ⟨?_, ?_, hi.direction⟩
    · rintro i ⟨⟩
      exact ⟨{ keyBuf := key.1 }, by simp, rfl, key.2⟩
    · intro rw old got ho
      simp only [List.length_append, List.length_singleton]
      exact Nat.lt_succ_of_lt (hi.old rw old got ho)
  | rekeyed rw old got key hw hh hr =>
    exact hi.adopt (Nat.ne_of_lt (hi.old rw old got hh)) rfl rfl rfl rfl
  | rekeySwapped rw old got key hw hh hr =>
    refine ⟨fun i hcs => ?_, by simp, hi.direction⟩
    obtain ⟨c, hc, hn, hl⟩ := hi.current i hcs
    have hlt : i < s.sessions.length := (List.getElem?_eq_some_iff.mp hc).1
    refine ⟨c, ?_, hn, hl⟩
    simp [newSession, List.getElem?_append_left hlt, Nat.ne_of_gt hlt, hc]
  | encryptFailed i c hw hcs hc hl =>
    exact (hi.modifySeq i (·.nextOutbound.2)).congr rfl rfl rfl (hi.modifySeq i _).old
  | sent i c plaintext hw hcs hc hk hd =>
    have := (hi.modifySeq i (·.nextOutbound.2)).logSealed
      (x := ⟨c.keyBuf, directionHostToDevice, c.seq.outbound, plaintext, true⟩) rfl
    exact this.congr rfl rfl rfl this.old
  | reverted i c plaintext hw hcs hc hk hd =>
    have := ((hi.modifySeq i (·.nextOutbound.2)).modifySeq i
      (·.revertOutbound c.seq.outbound)).logSealed
      (x := ⟨c.keyBuf, directionHostToDevice, c.seq.outbound, plaintext, false⟩) rfl
    exact this.congr rfl rfl rfl this.old
  | closed hw he => exact hi.closeLocked.congr rfl rfl rfl hi.closeLocked.old
  | rekeyBegun rw old hh hc hd hr =>
    refine hi.congr rfl rfl rfl ?_
    intro rw' old' got ho
    simp only [HandlerPc.exchanging.injEq] at ho
    obtain ⟨c, hc', -, -⟩ := hi.current old hc
    exact ho.2.1 ▸ (List.getElem?_eq_some_iff.mp hc').1
  | kexRead rw old got hh =>
    refine hi.congr rfl rfl rfl ?_
    intro rw' old' got' ho
    simp only [HandlerPc.exchanging.injEq] at ho
    exact ho.2.1 ▸ hi.old rw old got hh
  | rekeyFailed rw old got hw hh hr => exact hi.congr rfl rfl rfl (by simp)
  | rekeyRestarted rw old got hw hh hr hd => exact hi.congr rfl rfl rfl (by simp)
  | advanced l cs plaintext hl hp =>
    have := hi.modifySeq cs SequenceTracker.advanceInbound
    exact this.congr rfl rfl rfl this.old
  | _ => exact hi.congr rfl rfl rfl hi.old

/-! ### Runs -/

/-- The histories only grow, so what fits at the end of a step fitted before it. -/
theorem Effect.noncesFit {gcm : Gcm} {s t : Host} {e : Event} (h : Effect gcm s e t)
    (hfit : t.NoncesFit) : s.NoncesFit := by
  have sub : s.established.Sublist t.established ∧ s.sealed ⊆ t.sealed := by
    cases h <;> simp [closeLocked_eq, setPc, logTaken, Host.write, Host.modifySeq,
      Host.modifySession]
  exact ⟨hfit.1.sublist sub.1, fun x hx => hfit.2 x (sub.2 hx)⟩

def RunInv (s : Host) : Prop := s.handler ≠ .reenumerating ∧ KeyInv s

theorem RunInv.step {gcm : Gcm} {s t : Host} {e : Event} (h : RunInv s)
    (hs : Host.step gcm s e = some t) : RunInv t :=
  ⟨(step_effect h.1 hs).handler_ne h.1, (step_effect h.1 hs).keyInv h.2⟩

/-- Along every run in which exchanges yield new keys and sequence numbers stay below `2^64`, no two
different plaintexts are sealed under one key, direction and sequence number if and only if every
payload that is sealed right after a failed write under the same key repeats the failed one. -/
theorem nonceUnique_iff_resendsSame (gcm : Gcm) {es : List Event} {t : Host}
    (hrun : Run gcm {} es t) (hfit : t.NoncesFit) :
    Machine.Everywhere (step gcm) NonceUnique {} es ↔
      Machine.Throughout (step gcm) ResendsSame {} es := by
  have init : RunInv {} := ⟨by simp, .init⟩
  obtain ⟨hA, -⟩ := hrun.throughout_of_last hfit init (fun _ _ _ h hs => h.step hs)
    fun _ _ _ h hs ht => (step_effect h.1 hs).noncesFit ht
  refine Machine.everywhere_iff_throughout
    (I := fun s => RunInv s ∧ NonceLedger.Inv s.ledger) hrun hA ⟨init, .init⟩ ?_ ?_ ?_
  · rintro s ⟨hr, hl⟩
    exact (nonceUnique_iff hr.2).mpr hl.unique
  · rintro s e u ⟨hr, hl⟩ hfits hg hs
    obtain ⟨m, hm, hf, hiff⟩ := (step_effect hr.1 hs).ledger hr.2 (hfits u hs)
    exact ⟨hr.step hs, hm ▸ hl.step hf (hiff.mp hg)⟩
  · rintro s e u ⟨hr, hl⟩ hfits hg hs hu
    obtain ⟨m, hm, -, hiff⟩ := (step_effect hr.1 hs).ledger hr.2 (hfits u hs)
    rw [nonceUnique_iff (hr.step hs).2, hm] at hu
    exact hl.not_unique (fun h => hg (hiff.mpr h)) hu

/-! ### A run that reuses a nonce, and one that does not -/

/-- Payload `A` fails after its bytes went out, then `data` is sent and written. -/
def resend (data : List Char) : List Event :=
  [sampleConnect, .sendPayload ['Q', 'Q', '=', '='] (.failed "libusb: timeout" true),
    .sendPayload data .ok]

/-- After a failed write of payload `A`, payload `B` is sealed under the same nonce. -/
theorem resend_different_reuses_nonce :
    ∃ t, Run plainGcm {} (resend ['Q', 'g', '=', '=']) t ∧ t.NoncesFit ∧ ¬t.NonceUnique := by
  refine ⟨_, Machine.run_of_exec rfl, ⟨by decide, by decide⟩, fun h => ?_⟩
  exact absurd (h _ (List.mem_cons_self ..) _ (List.mem_cons_of_mem _ (List.mem_cons_self ..))
    rfl rfl rfl) (by decide)

theorem resend_same_keeps_nonces :
    Machine.Everywhere (step plainGcm) NonceUnique {} (resend ['Q', 'Q', '=', '=']) := by
  refine (nonceUnique_iff_resendsSame plainGcm (Machine.run_of_exec rfl)
    ⟨by decide, by decide⟩).mpr ?_
  decide +kernel

end Host

end SmartIdVault.NativeHost
