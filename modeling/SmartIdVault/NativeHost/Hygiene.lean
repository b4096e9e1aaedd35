import SmartIdVault.NativeHost.Steps

/-! The session's fields and its keys.  `connected` means that device, `usbRW` and crypto session
are there, and a key that is no longer in use has been overwritten.  `closeLocked` and `rekey` see
to both; the disconnect branch of a read loop leaves the crypto session behind, and the next
successful `connect` replaces it without zeroing its key.  That is the only way: along a run, every
key that has been replaced is zeroed exactly as long as no `connect` gets a key while an old one is
there. -/

namespace SmartIdVault.NativeHost

def CryptoSession.Zeroed (c : CryptoSession) : Prop := ∀ b ∈ c.keyBuf, b = 0

instance (c : CryptoSession) : Decidable c.Zeroed := inferInstanceAs (Decidable (∀ b ∈ _, _))

namespace Host

def Consistent (s : Host) : Prop :=
  s.connected = true ↔
    s.device.isSome = true ∧ s.usbRW.isSome = true ∧ s.cryptoSession.isSome = true

/-- Every established key that is not the session's key any more is zeroed. -/
def KeysZeroed (s : Host) : Prop :=
  ∀ i c, s.sessions[i]? = some c → s.cryptoSession ≠ some i → c.Zeroed

/-- Between exchanges, the fields of the session agree and no key is left behind. -/
def Tidy (s : Host) : Prop :=
  s.handler.isExchanging = false → s.Consistent ∧ s.KeysZeroed

/-- `connect` finds and opens a device, and the exchange with it yields a key. -/
def getsKey (s : Host) : Event → Bool
  | .connect (.ok devs) _ (.ok _) (.established _) =>
    !s.connected && (findAccessoryDevice devs "").isSome
  | _ => false

/-- A `connect` that gets a key finds no crypto session whose key is still there. -/
def ReplacesNoKey (s : Host) (e : Event) : Prop :=
  s.getsKey e = true → ∀ c ∈ s.current, c.Zeroed

instance (s : Host) (e : Event) : Decidable (s.ReplacesNoKey e) :=
  inferInstanceAs (Decidable (_ → _))

/-! ### The sessions and those in use -/

/-- Every session but the live ones is zeroed, and so is every one whose `Key` is nil. -/
structure ZeroedExcept (live : SessionId → Prop) (cs : List CryptoSession) : Prop where
  others : ∀ i c, cs[i]? = some c → ¬live i → c.Zeroed
  keyNil : ∀ c ∈ cs, c.keyNil = true → c.Zeroed

theorem zeroed_zeroBuf (c : CryptoSession) : c.zeroBuf.Zeroed := by
  intro b hb
  exact List.eq_of_mem_replicate hb

theorem zeroed_zero {c : CryptoSession} (h : c.keyNil = true → c.Zeroed) : c.zero.Zeroed := by
  unfold CryptoSession.zero
  split
  · rename_i hn
    exact h hn
  · exact zeroed_zeroBuf c

namespace ZeroedExcept

variable {live live' : SessionId → Prop} {cs : List CryptoSession}

theorem mono (h : ZeroedExcept live cs)
    (hl : ∀ i c, cs[i]? = some c → live i → live' i ∨ c.Zeroed) : ZeroedExcept live' cs where
  others i c hi hne := by
    by_cases hlive : live i
    · exact (hl i c hi hlive).resolve_left hne
    · exact h.others i c hi hlive
  keyNil := h.keyNil

theorem modifySeq (h : ZeroedExcept live cs) (i : SessionId)
    (f : SequenceTracker → SequenceTracker) :
    ZeroedExcept live (cs.modify i (CryptoSession.mapSeq f)) := by
  have hbuf : ∀ (j : Nat) (c : CryptoSession), (cs.modify i (CryptoSession.mapSeq f))[j]? = some c →
      ∃ c' : CryptoSession, cs[j]? = some c' ∧ c.keyBuf = c'.keyBuf ∧ c.keyNil = c'.keyNil := by
    intro j c hj
    rw [List.getElem?_modify] at hj
    obtain ⟨c', hc', rfl⟩ := Option.map_eq_some_iff.mp hj
    refine ⟨c', hc', ?_⟩
    split <;> exact ⟨rfl, rfl⟩
  constructor
  · intro j c hj hne
    obtain ⟨c', hc', hb, -⟩ := hbuf j c hj
    have hold := h.others j c' hc' hne
    rwa [CryptoSession.Zeroed, ← hb] at hold
  · intro c hc hnil
    obtain ⟨j, hj⟩ := List.mem_iff_getElem?.mp hc
    obtain ⟨c', hc', hb, hn⟩ := hbuf j c hj
    have hold := h.keyNil c' (List.mem_of_getElem? hc') (hn ▸ hnil)
    rwa [CryptoSession.Zeroed, ← hb] at hold

/-- A session is zeroed and leaves use. -/
theorem zeroAt (h : ZeroedExcept live cs) (i : SessionId) {f : CryptoSession → CryptoSession}
    (hf : ∀ c, (c.keyNil = true → c.Zeroed) → (f c).Zeroed) :
    ZeroedExcept (fun j => live j ∧ j ≠ i) (cs.modify i f) := by
  have hcases : ∀ j c, (cs.modify i f)[j]? = some c → c.Zeroed ∨ j ≠ i ∧ cs[j]? = some c := by
    intro j c hj
    by_cases hij : i = j
    · rw [← hij, List.getElem?_modify_eq] at hj
      obtain ⟨c', hc', rfl⟩ := Option.map_eq_some_iff.mp hj
      exact .inl (hf c' (h.keyNil c' (List.mem_of_getElem? hc')))
    · simp only [List.getElem?_modify, hij, if_false, Option.map_eq_map, Option.map_id'] at hj
      exact .inr ⟨Ne.symm hij, hj⟩
  constructor
  · intro j c hj hne
    rcases hcases j c hj with hz | ⟨hji, hc⟩
    · exact hz
    · exact h.others j c hc fun hl => hne ⟨hl, hji⟩
  · intro c hc hnil
    obtain ⟨j, hj⟩ := List.mem_iff_getElem?.mp hc
    rcases hcases j c hj with hz | ⟨-, hc⟩
    · exact hz
    · exact h.keyNil c (List.mem_of_getElem? hc) hnil

/-- A new session comes into use. -/
theorem append (h : ZeroedExcept live cs) (key : Bytes) :
    ZeroedExcept (fun i => live i ∨ i = cs.length)
      (cs ++ [({ keyBuf := key } : CryptoSession)]) where
  others i c hi hne := by
    rw [not_or] at hne
    rw [List.getElem?_append] at hi
    split at hi
    · exact h.others i c hi hne.1
    · rename_i hlt
      rw [List.getElem?_singleton] at hi
      split at hi
      · rename_i h0
        exact absurd (Nat.le_antisymm (Nat.sub_eq_zero_iff_le.mp h0) (Nat.le_of_not_lt hlt)) hne.2
      · contradiction
  keyNil c hc hnil := by
    rcases List.mem_append.mp hc with hc | hc
    · exact h.keyNil c hc hnil
    · obtain rfl := List.mem_singleton.mp hc
      contradiction

end ZeroedExcept

/-! ### The invariant -/

structure TidyInv (s : Host) : Prop where
  zeroed : ZeroedExcept (s.cryptoSession = some ·) s.sessions
  current : ∀ i ∈ s.cryptoSession, i < s.sessions.length
  connected : s.connected = s.device.isSome
  device : s.device.isSome = true → s.usbRW.isSome = true ∧ s.cryptoSession.isSome = true
  captured : ∀ rw old got, s.handler = .exchanging rw old got → s.usbRW = some rw →
    s.cryptoSession = some old
  handler : s.handler ≠ .reenumerating

namespace TidyInv

variable {s t : Host}

theorem init : TidyInv {} where
  zeroed := ⟨by simp, by simp⟩
  current := by simp
  connected := rfl
  device := by simp
  captured := by simp
  handler := by simp

theorem consistent (h : TidyInv s) : s.Consistent := by
  rw [Consistent, h.connected]
  exact ⟨fun hd => ⟨hd, h.device hd⟩, fun hd => hd.1⟩

theorem tidy (h : TidyInv s) : s.Tidy := fun _ => ⟨h.consistent, h.zeroed.others⟩

theorem congr (h : TidyInv s) (h1 : t.cryptoSession = s.cryptoSession)
    (h2 : t.sessions = s.sessions) (h3 : t.device = s.device) (h4 : t.connected = s.connected)
    (h5 : t.usbRW = s.usbRW) (h6 : t.handler = s.handler) : TidyInv t where
  zeroed := by rw [h1, h2]; exact h.zeroed
  current := by rw [h1, h2]; exact h.current
  connected := by rw [h3, h4]; exact h.connected
  device := by rw [h1, h3, h5]; exact h.device
  captured := by rw [h1, h5, h6]; exact h.captured
  handler := by rw [h6]; exact h.handler

theorem modifySeq (h : TidyInv s) (i : SessionId) (f : SequenceTracker → SequenceTracker) :
    TidyInv (s.modifySeq i f) where
  zeroed := h.zeroed.modifySeq i f
  current := by simpa [Host.modifySeq, modifySession] using h.current
  connected := h.connected
  device := h.device
  captured := h.captured
  handler := h.handler

theorem closeLocked (h : TidyInv s) : TidyInv s.closeLocked := by
  rw [closeLocked_eq]
  refine ⟨?_, by simp, rfl, by simp, by simp, h.handler⟩
  unfold zeroedSessions
  cases hcs : s.cryptoSession with
  | none =>
    apply h.zeroed.mono
    intro i c _ hl
    rw [hcs] at hl
    contradiction
  | some i =>
    apply (h.zeroed.zeroAt i fun _ => zeroed_zero).mono
    rintro j c - ⟨hl, hne⟩
    exact absurd (Option.some.inj (hl.symm.trans hcs)) hne

/-- A key comes into use, and every other one is zeroed. -/
theorem adopted {n : Nat} (hcs : ZeroedExcept (· = n) t.sessions) (hn : n < t.sessions.length)
    (h1 : t.cryptoSession = some n) (h2 : t.connected = t.device.isSome)
    (h3 : t.device.isSome = true → t.usbRW.isSome = true) (h4 : t.handler = .idle) :
    TidyInv t where
  zeroed := by
    rw [h1]
    exact hcs.mono fun i c _ hi => .inl (congrArg some hi.symm)
  current := by simpa [h1] using hn
  connected := h2
  device hd := ⟨h3 hd, by simp [h1]⟩
  captured := by simp [h4]
  handler := by simp [h4]

end TidyInv

theorem Effect.tidyInv {gcm : Gcm} {s t : Host} {e : Event} (h : Effect gcm s e t)
    (hi : TidyInv s) (hg : s.handler = .idle → t.sessions.length ≠ s.sessions.length →
      ∀ c ∈ s.current, c.Zeroed) : TidyInv t := by
  cases h with
  | connectRefused n hw => exact hi.congr rfl rfl rfl rfl rfl rfl
  | connectFailed n hw hc =>
    exact ⟨hi.zeroed, hi.current, rfl, by simp, by simp, hi.handler⟩
  | connected key hw hh hc =>
    refine .adopted ((hi.zeroed.append key.1).mono ?_) (by simp) rfl rfl (by simp) hh
    rintro i c hc (hcur | rfl)
    · have hlt := hi.current i hcur
      rw [List.getElem?_append_left hlt] at hc
      exact .inr (hg hh (by simp) c (by simp [current, hcur, hc]))
    · exact .inl rfl
  | sendRefused hw hr => exact hi.congr rfl rfl rfl rfl rfl rfl
  | encryptFailed i c hw hcs hc hl =>
    exact (hi.modifySeq i (·.nextOutbound.2)).congr rfl rfl rfl rfl rfl rfl
  | sent i c plaintext hw hcs hc hk hd =>
    exact (hi.modifySeq i (·.nextOutbound.2)).congr rfl rfl rfl rfl rfl rfl
  | reverted i c plaintext hw hcs hc hk hd =>
    exact ((hi.modifySeq i (·.nextOutbound.2)).modifySeq i
      (·.revertOutbound c.seq.outbound)).congr rfl rfl rfl rfl rfl rfl
  | closed hw he => exact hi.closeLocked.congr rfl rfl rfl rfl rfl rfl
  | rekeyBegun rw old hh hc hd hr =>
    refine ⟨hi.zeroed, hi.current, hi.connected, hi.device, ?_, by simp⟩
    rintro rw' old' got' ⟨⟩ -
    exact hc
  | kexRead rw old got hh =>
    refine ⟨hi.zeroed, hi.current, hi.connected, hi.device, ?_, by simp⟩
    rintro rw' old' got' ⟨⟩ hr
    exact hi.captured rw old got hh hr
  | rekeyFailed rw old got hw hh hr =>
    exact ⟨hi.zeroed, hi.current, hi.connected, hi.device, by simp, by simp⟩
  | rekeyRestarted rw old got hw hh hr hd =>
    exact ⟨hi.zeroed, hi.current, hi.connected, hi.device, by simp, by simp⟩
  | rekeySwapped rw old got key hw hh hr =>
    refine ⟨?_, fun i hcur => ?_, hi.connected, hi.device, by simp, by simp⟩
    · apply ((hi.zeroed.append key.1).zeroAt s.sessions.length fun _ => zeroed_zero).mono
      rintro i c - ⟨hcur | hlen, hne⟩
      · exact .inl hcur
      · exact absurd hlen hne
    · simp only [newSession, List.length_modify, List.length_append, List.length_singleton]
      exact Nat.lt_succ_of_lt (hi.current i hcur)
  | rekeyed rw old got key hw hh hr =>
    have hold : s.cryptoSession = some old := hi.captured rw old got hh hr
    refine .adopted (n := s.sessions.length) ?_ (by simp [newSession]) rfl hi.connected
      (fun hd => (hi.device hd).1) rfl
    refine ((hi.zeroed.append key.1).zeroAt old ?_).mono ?_
    · intro c hz
      cases hn : c.keyNil with
      | true => simpa [CryptoSession.Zeroed, hn] using hz hn
      | false => simpa [CryptoSession.Zeroed, hn] using zeroed_zeroBuf c
    · rintro i c - ⟨hcur | hlen, hne⟩
      · exact absurd (Option.some.inj (hcur.symm.trans hold)) hne
      · exact .inl hlen
  | advanced l cs plaintext hl hp =>
    exact (hi.modifySeq cs SequenceTracker.advanceInbound).congr rfl rfl rfl rfl rfl rfl
  | dropped l hl hp =>
    exact ⟨hi.zeroed, hi.current, rfl, by simp [setPc], hi.captured, hi.handler⟩
  | _ => exact hi.congr rfl rfl rfl rfl rfl rfl

theorem sessions_connect {s : Host} {en ne op kex}
    (hg : s.getsKey (.connect en ne op kex) = false) :
    (s.connect en ne op kex).sessions = s.sessions := by
  unfold connect
  cases hc : s.connected with
  | true => rfl
  | false =>
    cases en with
    | error e => rfl
    | ok devs =>
      simp only [Bool.false_eq_true, if_false]
      cases hf : findAccessoryDevice devs "" with
      | none => rfl
      | some d =>
        simp only [isAccessory_of_findAccessoryDevice hf, if_true]
        cases op with
        | error e => rfl
        | ok _ =>
          cases kex with
          | failed e => rfl
          | established key => simp [getsKey, hc, hf] at hg

theorem length_zeroedSessions (s : Host) : s.zeroedSessions.length = s.sessions.length := by
  unfold zeroedSessions
  split <;> simp

/-- Outside an exchange only a `connect` that gets a key adds a session. -/
theorem getsKey_of_length_ne {gcm : Gcm} {s t : Host} {e : Event} (hh : s.handler = .idle)
    (hs : step gcm s e = some t) (hl : t.sessions.length ≠ s.sessions.length) :
    s.getsKey e = true := by
  have heff := step_effect (by simp [hh]) hs
  cases heff with
  | connected key hw _ hc =>
    simp only [step, hh, if_true, Option.some.injEq] at hs
    by_contra hg
    have hsame := sessions_connect (Bool.not_eq_true _ ▸ hg)
    rw [hs] at hsame
    exact hl (congrArg List.length hsame)
  | closed hw he =>
    rw [closeLocked_eq] at hl
    exact absurd (length_zeroedSessions s) hl
  | rekeySwapped rw old got key hw hh' hr => simp [hh] at hh'
  | rekeyed rw old got key hw hh' hr => simp [hh] at hh'
  | _ => exact absurd (by simp [setPc, logTaken, Host.write, Host.modifySeq, modifySession]) hl

theorem TidyInv.step {gcm : Gcm} {s t : Host} {e : Event} (h : TidyInv s)
    (hg : s.ReplacesNoKey e) (hs : Host.step gcm s e = some t) : TidyInv t :=
  (step_effect h.handler hs).tidyInv h fun hh hl => hg (getsKey_of_length_ne hh hs hl)

theorem connect_of_getsKey {s : Host} {devs ne u} {key : SessionKey}
    (hg : s.getsKey (.connect (.ok devs) ne (.ok u) (.established key)) = true) :
    let t := s.connect (.ok devs) ne (.ok u) (.established key)
    t.sessions = s.sessions ++ [({ keyBuf := key.1 } : CryptoSession)] ∧
      t.cryptoSession = some s.sessions.length ∧ t.handler = s.handler := by
  obtain ⟨hc, hf⟩ := Bool.and_eq_true_iff.mp hg
  obtain ⟨d, hd⟩ := Option.isSome_iff_exists.mp hf
  simp only [Bool.not_eq_true'] at hc
  simp only [connect, hc, hd, isAccessory_of_findAccessoryDevice hd, Bool.false_eq_true, if_false,
    if_true]
  exact ⟨rfl, rfl, rfl⟩

/-- A `connect` that gets a key while an old one is there leaves the old one behind. -/
theorem not_tidy_of_replaces {gcm : Gcm} {s t : Host} {e : Event} (h : TidyInv s)
    (hg : ¬s.ReplacesNoKey e) (hs : Host.step gcm s e = some t) : ¬t.Tidy := by
  simp only [ReplacesNoKey, not_forall] at hg
  obtain ⟨hkey, c, hc, hz⟩ := hg
  obtain ⟨i, hi, hci⟩ := Option.bind_eq_some_iff.mp hc
  have hlt := h.current i hi
  have hkey' := hkey
  unfold getsKey at hkey'
  split at hkey'
  · simp only [Host.step, Option.ite_none_right_eq_some, Option.some.injEq] at hs
    obtain ⟨hh, rfl⟩ := hs
    obtain ⟨hsessions, hcrypto, hhandler⟩ := connect_of_getsKey hkey
    intro htidy
    obtain ⟨-, hzeroed⟩ := htidy (by simp [hhandler, hh, HandlerPc.isExchanging])
    refine hz (hzeroed i c ?_ ?_)
    · rw [hsessions, List.getElem?_append_left hlt]
      exact hci
    · rw [hcrypto]
      exact fun heq => Nat.ne_of_gt hlt (Option.some.inj heq)
  · contradiction

/-- Along every run from the start, whenever no exchange is in progress the fields of the session
agree and every replaced key is zeroed, if and only if no `connect` gets a key while the session
still has one. -/
theorem tidy_iff_replacesNoKey (gcm : Gcm) {es : List Event} {t : Host} (hrun : Run gcm {} es t) :
    Machine.Everywhere (step gcm) Tidy {} es ↔
      Machine.Throughout (step gcm) ReplacesNoKey {} es := by
  refine Machine.everywhere_iff_throughout (A := fun _ _ => True) (I := TidyInv) hrun
    (Machine.throughout_of_forall fun _ _ _ => trivial) .init (fun _ h => h.tidy) ?_ ?_
  · exact fun s e t hi _ hg hs => hi.step hg hs
  · exact fun s e t hi _ hg hs => not_tidy_of_replaces hi hg hs

/-! ### A run that leaves a key behind, and one that does not -/

def sampleReconnect : Event :=
  .connect (.ok [{ vendor := 0x18D1, product := 0x2D01 }]) (.ok ()) (.ok ())
    (.established (sampleKey 8))

/-- The device is unplugged, which the read loop notices. -/
def loopDisconnects : List Event :=
  [.loop 0 .poll, .loop 0 .snapshot, .loop 0 (.read .disconnect), .loop 0 .drop]

theorem reconnect_leaves_key :
    ∃ t, Run plainGcm {} ([sampleConnect] ++ loopDisconnects ++ [sampleReconnect]) t ∧
      t.sessions[0]? = some { keyBuf := List.replicate 32 7 } ∧ t.cryptoSession = some 1 ∧
      ¬t.Tidy := by
  refine ⟨_, Machine.run_of_exec rfl, rfl, rfl, ?_⟩
  intro h
  obtain ⟨-, hzeroed⟩ := h rfl
  exact absurd (hzeroed 0 _ rfl (by decide)) (by decide)

theorem close_then_reconnect_is_tidy :
    Machine.Everywhere (step plainGcm) Tidy {}
      ([sampleConnect] ++ loopDisconnects ++ [.hotplugClose, sampleReconnect, .rekeyBegin,
        .rekeyFinish (.established (sampleKey 9)) none]) :=
  (tidy_iff_replacesNoKey plainGcm (Machine.run_of_exec rfl)).mpr (by decide +kernel)

end Host

end SmartIdVault.NativeHost
