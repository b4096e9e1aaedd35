import SmartIdVault.Pairing.Gate

/-! The extension's static key along a pairing.  `startPairing` draws one key pair, which goes to
the signaling room, into the commitment and at last into the cache; `performXXHandshake` draws
another, which the phone gets to see.  They are one key only when the two draws are. -/

namespace SmartIdVault.Pairing

/-- `startPairing` draws `k₁` and `performXXHandshake` draws `k₂`. -/
def Event.Draws (k₁ k₂ : NoiseKeyPair) : Event → Prop
  | .startPairing _ _ localStaticKey => localStaticKey = k₁
  | .startPairingFlow localKey => localKey = k₂
  | _ => True

/-! ### Where the keys are -/

def CachedFrom (k : NoiseKeyPair) (cached : Option CachedPairing) : Prop :=
  ∀ c ∈ cached, ∃ remoteStaticPk, c = toCachedPairing k remoteStaticPk

/-- The keys that a task holds; once `completePairing` has written the cache, the cached one. -/
def Task.KeysFrom (k₁ k₂ : NoiseKeyPair) (cached : Option CachedPairing) : Task → Prop
  | .startOffscreen pairing | .startSend pairing => pairing.localStaticKey = k₁
  | .flowFlag localKey | .flowPeer localKey => localKey = k₂
  | .flowSas session | .flowStore session => session.localStaticKey = k₂
  | .confirmCache _ c => CachedFrom k₁ (some c)
  | .confirmCount _ | .confirmAdd _ | .confirmActivate _ | .confirmEmoji _ | .confirmTab _
  | .confirmFallback _ => CachedFrom k₁ cached
  | _ => True

def Entry.KeysFrom (k₁ k₂ : NoiseKeyPair) (cached : Option CachedPairing) : Entry → Prop
  | .startMessage message => message.extensionStaticKey = k₁.publicKey
  | .startReply (.success publicKey) => publicKey = k₁.publicKey
  | .installed session => session.localStaticKey = k₂
  | .confirmed _ => CachedFrom k₁ cached
  | _ => True

theorem Task.KeysFrom.mono {k₁ k₂ : NoiseKeyPair} {c c' : Option CachedPairing} {task : Task}
    (h : task.KeysFrom k₁ k₂ c) (hc : CachedFrom k₁ c') : task.KeysFrom k₁ k₂ c' := by
  cases task <;> first | exact h | exact hc

theorem Entry.KeysFrom.mono {k₁ k₂ : NoiseKeyPair} {c c' : Option CachedPairing} {entry : Entry}
    (h : entry.KeysFrom k₁ k₂ c) (hc : CachedFrom k₁ c') : entry.KeysFrom k₁ k₂ c' := by
  cases entry with
  | startReply reply => cases reply <;> exact h
  | confirmed remoteStaticPk => exact hc
  | _ => exact h

namespace Background

structure KeysFrom (k₁ k₂ : NoiseKeyPair) (s : Background) : Prop where
  active : ∀ pairing ∈ s.activeSession, pairing.localStaticKey = k₁
  tasks : ∀ task ∈ s.tasks, task.KeysFrom k₁ k₂ s.cachedPairing
  history : ∀ entry ∈ s.history, entry.KeysFrom k₁ k₂ s.cachedPairing

variable {k₁ k₂ : NoiseKeyPair} {s t : Background}

theorem KeysFrom.frame (h : KeysFrom k₁ k₂ s) (ha : t.activeSession = s.activeSession)
    (ht : t.tasks = s.tasks) (hh : t.history = s.history)
    (hc : t.cachedPairing = s.cachedPairing) : KeysFrom k₁ k₂ t where
  active := ha ▸ h.active
  tasks := by rw [ht, hc]; exact h.tasks
  history := by rw [hh, hc]; exact h.history

theorem KeysFrom.push (h : KeysFrom k₁ k₂ s) {task : Task}
    (ht : task.KeysFrom k₁ k₂ s.cachedPairing) : KeysFrom k₁ k₂ (s.push task) where
  active := h.active
  tasks task' hmem := by
    rcases List.mem_append.mp hmem with hmem | hmem
    · exact h.tasks task' hmem
    · exact List.mem_singleton.mp hmem ▸ ht
  history := h.history

theorem KeysFrom.log (h : KeysFrom k₁ k₂ s) {entry : Entry}
    (he : entry.KeysFrom k₁ k₂ s.cachedPairing) : KeysFrom k₁ k₂ (s.log entry) where
  active := h.active
  tasks := h.tasks
  history entry' hmem := by
    rcases List.mem_append.mp hmem with hmem | hmem
    · exact h.history entry' hmem
    · exact List.mem_singleton.mp hmem ▸ he

theorem KeysFrom.clearActive (h : KeysFrom k₁ k₂ s) :
    KeysFrom k₁ k₂ { s with activeSession := none } where
  active := by simp
  tasks := h.tasks
  history := h.history

theorem KeysFrom.writeCache (h : KeysFrom k₁ k₂ s) {cached : Option CachedPairing}
    (hc : CachedFrom k₁ cached) (clientReady : Bool) :
    KeysFrom k₁ k₂ { s with cachedPairing := cached, clientReady } where
  active := h.active
  tasks task hmem := (h.tasks task hmem).mono hc
  history entry hmem := (h.history entry hmem).mono hc

/-! ### One step -/

theorem KeysFrom.startPairing (h : KeysFrom k₁ k₂ s) (sasCode : Utf16) (nonce : Bytes) :
    KeysFrom k₁ k₂ (s.startPairing sasCode nonce k₁) := by
  unfold Background.startPairing
  split
  · exact h.log trivial
  · refine KeysFrom.push ⟨?_, ?_, ?_⟩ ?_
    · rintro _ ⟨⟩
      rfl
    · exact h.tasks
    · exact h.history
    · exact rfl

theorem KeysFrom.startPairingFlow (h : KeysFrom k₁ k₂ s) :
    KeysFrom k₁ k₂ (s.startPairingFlow k₂) := by
  refine KeysFrom.push ?_ ?_
  · exact ⟨h.active, h.tasks, h.history⟩
  · exact rfl

theorem KeysFrom.receivePeer (h : KeysFrom k₁ k₂ s) (result : PeerResult) :
    KeysFrom k₁ k₂ (s.receivePeer k₂ result) := by
  cases result with
  | failed => exact h.push trivial
  | incomplete remoteCaps =>
    refine KeysFrom.push ?_ ?_
    · exact ⟨h.active, h.tasks, h.history⟩
    · exact trivial
  | completed remoteStaticPk remoteCaps =>
    refine KeysFrom.push ?_ ?_
    · exact ⟨h.active, h.tasks, h.history⟩
    · exact rfl

theorem KeysFrom.completePairing (h : KeysFrom k₁ k₂ s) (remoteStaticPk : Bytes) :
    KeysFrom k₁ k₂ (s.completePairing remoteStaticPk) := by
  unfold Background.completePairing
  split
  · rename_i active pending hactive _
    apply h.push
    rintro _ ⟨⟩
    exact ⟨pending, by rw [h.active active hactive]⟩
  · exact h

theorem KeysFrom.notify (h : KeysFrom k₁ k₂ s) : KeysFrom k₁ k₂ s.notify := by
  unfold Background.notify
  split
  · exact h.log trivial
  · exact h

theorem KeysFrom.clearPendingRemoteKey (h : KeysFrom k₁ k₂ s) :
    KeysFrom k₁ k₂ s.clearPendingRemoteKey := ⟨h.active, h.tasks, h.history⟩

theorem KeysFrom.registered (h : KeysFrom k₁ k₂ s) (hc : CachedFrom k₁ s.cachedPairing)
    (remoteStaticPk : Bytes) : KeysFrom k₁ k₂ (s.registered remoteStaticPk) := by
  unfold Background.registered
  split
  · exact h.push hc
  · exact h.clearPendingRemoteKey.log hc

theorem cachedPairing_notify (s : Background) : s.notify.cachedPairing = s.cachedPairing := by
  unfold Background.notify
  split <;> rfl

theorem KeysFrom.resume {task : Task} {answer : Answer} (h : KeysFrom k₁ k₂ s)
    (ht : task.KeysFrom k₁ k₂ s.cachedPairing) (hs : Background.resume s task answer = some t) :
    KeysFrom k₁ k₂ t := by
  cases task with
  | startOffscreen pairing =>
    cases answer with
    | ok =>
      cases hs
      refine KeysFrom.push (h.log ?_) ht
      exact congrArg NoiseKeyPair.publicKey ht
    | no =>
      cases hs
      exact h.clearActive.log trivial
    | rejects message | peer result => contradiction
  | startSend pairing =>
    cases answer with
    | ok =>
      cases hs
      exact h.log (congrArg NoiseKeyPair.publicKey ht)
    | rejects message =>
      cases hs
      exact h.clearActive.log trivial
    | no | peer result => contradiction
  | flowFlag localKey =>
    cases answer with
    | ok =>
      cases hs
      refine KeysFrom.push ?_ ht
      exact h.frame rfl rfl rfl rfl
    | rejects message =>
      cases hs
      exact h.push trivial
    | no | peer result => contradiction
  | flowPeer localKey =>
    cases answer with
    | peer result =>
      cases hs
      exact ht ▸ h.receivePeer result
    | ok | no | rejects message => contradiction
  | flowSas session =>
    cases answer with
    | ok =>
      cases hs
      refine KeysFrom.push ?_ ht
      exact h.frame rfl rfl rfl rfl
    | rejects message =>
      cases hs
      exact h.push trivial
    | no | peer result => contradiction
  | flowStore session =>
    cases answer with
    | ok =>
      cases hs
      refine KeysFrom.log ?_ ht
      exact h.frame rfl rfl rfl rfl
    | rejects message =>
      cases hs
      exact h.push trivial
    | no | peer result => contradiction
  | clearStorage =>
    cases answer with
    | ok =>
      cases hs
      exact (h.writeCache (by simp [CachedFrom]) false).push trivial
    | rejects message =>
      cases hs
      exact h
    | no | peer result => contradiction
  | clearOffscreen =>
    cases answer with
    | ok =>
      cases hs
      exact h.clearActive
    | rejects message =>
      cases hs
      exact h
    | no | peer result => contradiction
  | confirmCache remoteStaticPk cached =>
    cases answer with
    | ok =>
      cases hs
      exact (h.writeCache ht true).clearActive.push ht
    | rejects message =>
      cases hs
      exact h
    | no | peer result => contradiction
  | confirmActivate remoteStaticPk =>
    cases answer with
    | ok =>
      cases hs
      exact h.registered ht remoteStaticPk
    | rejects message =>
      cases hs
      exact h
    | no | peer result => contradiction
  | confirmEmoji remoteStaticPk =>
    cases answer with
    | ok =>
      cases hs
      exact h.notify.push (cachedPairing_notify s ▸ ht)
    | rejects message =>
      cases hs
      exact h
    | no | peer result => contradiction
  | confirmFallback remoteStaticPk =>
    cases answer with
    | ok =>
      cases hs
      exact h.clearPendingRemoteKey.log ht
    | no | rejects message | peer result => contradiction
  | confirmDevice remoteStaticPk | confirmRoom remoteStaticPk =>
    cases answer
    all_goals first
      | contradiction
      | cases hs
    all_goals first
      | exact h
      | exact h.push trivial
      | exact h.completePairing _
  | confirmCount remoteStaticPk | confirmAdd remoteStaticPk | confirmTab remoteStaticPk =>
    cases answer
    all_goals first
      | contradiction
      | cases hs
    all_goals first
      | exact h
      | exact h.push ht
      | exact h.push trivial
      | exact h.log ht
  | rejectEmoji =>
    cases answer with
    | ok =>
      cases hs
      exact h.push trivial
    | rejects message =>
      cases hs
      exact h
    | no | peer result => contradiction

theorem KeysFrom.clientStep {k now : Nat} {e : Command.Event} (h : KeysFrom k₁ k₂ s)
    (hs : s.clientStep k e now = some t) : KeysFrom k₁ k₂ t := by
  obtain ⟨c, -, hs⟩ := Option.bind_eq_some_iff.mp hs
  obtain ⟨client, -, rfl⟩ := Option.map_eq_some_iff.mp hs
  have hset : KeysFrom k₁ k₂ { s with
      clients := s.clients.set k { c with client }
      storedSequence := client.storedSequence
      storedCount := client.storedCount } := h.frame rfl rfl rfl rfl
  simp only
  split
  · exact hset
  · simp only [sendData]
    split
    · exact hset
    · exact hset.log trivial

theorem KeysFrom.rejectSasMatch (h : KeysFrom k₁ k₂ s) : KeysFrom k₁ k₂ s.rejectSasMatch := by
  refine KeysFrom.push ⟨?_, ?_, ?_⟩ ?_
  · exact h.active
  · exact h.tasks
  · intro entry hmem
    rcases List.mem_append.mp hmem with hmem | hmem
    · exact h.history entry hmem
    · obtain ⟨session, -, rfl⟩ := List.mem_map.mp hmem
      exact trivial
  · exact trivial

theorem KeysFrom.step {e : Event} (h : KeysFrom k₁ k₂ s) (he : e.Draws k₁ k₂)
    (hs : Background.step s e = some t) : KeysFrom k₁ k₂ t := by
  cases e with
  | startPairing sasCode nonce localStaticKey =>
    cases hs
    exact he ▸ h.startPairing sasCode nonce
  | startPairingFlow localKey =>
    cases hs
    exact he ▸ h.startPairingFlow
  | confirmSasMatch =>
    cases hs
    unfold Background.confirmSasMatch
    split
    · exact h
    · exact h.push trivial
  | rejectSasMatch =>
    cases hs
    exact h.rejectSasMatch
  | disconnectSession =>
    cases hs
    exact h.frame rfl rfl rfl rfl
  | clearPendingRemoteKey =>
    cases hs
    exact h.clearPendingRemoteKey
  | resume i answer =>
    obtain ⟨task, htask, hs⟩ := Option.bind_eq_some_iff.mp hs
    refine KeysFrom.resume ⟨?_, ?_, ?_⟩ ?_ hs
    · exact h.active
    · intro task' hmem
      exact h.tasks task' (List.mem_of_mem_eraseIdx hmem)
    · exact h.history
    · exact h.tasks task (List.mem_of_getElem? htask)
  | request r now =>
    cases hs
    obtain ⟨limiter, heq | ⟨-, client, command, payload, heq⟩⟩ := handle_cases s now r
    · rw [heq]
      exact h.frame rfl rfl rfl rfl
    · rw [heq]
      exact h.frame rfl rfl rfl rfl
  | client k e now =>
    simp only [Background.step, Option.ite_none_right_eq_some] at hs
    exact h.clientStep hs.2
  | capabilities remoteCaps =>
    cases hs
    exact h.frame rfl rfl rfl rfl
  | response sequence status =>
    simp only [Background.step] at hs
    split at hs
    · cases hs
      exact h.frame rfl rfl rfl rfl
    · contradiction

/-! ### A pairing from start to end -/

/-- No pairing is under way, and the history begins here. -/
structure AtRest (s : Background) : Prop where
  activeSession : s.activeSession = none
  tasks : s.tasks = []
  history : s.history = []

/-- `startPairing` has replied with the public key `committed`, `startPairingFlow` has installed
`session`, and `confirmSasMatch` has returned true; nothing has cleared the pairing since. -/
structure Paired (t : Background) (committed : Bytes) (session : NoiseSession) : Prop where
  started : .startReply (.success committed) ∈ t.history
  installed : .installed session ∈ t.history
  confirmed : ∃ remoteStaticPk, .confirmed remoteStaticPk ∈ t.history
  cached : t.cachedPairing.isSome = true

/-- The cached local key pair is that of the session, and so is the public key that went to the
signaling room and the one that the popup commits to.  The session's is the key that the phone has
seen in the handshake. -/
structure KeysAgree (t : Background) (committed : Bytes) (session : NoiseSession) : Prop where
  cached : t.getCachedPairing.map Prod.fst =
    some (session.localStaticKey.publicKey, session.localStaticKey.secretKey)
  sent : ∀ message, .startMessage message ∈ t.history →
    message.extensionStaticKey = session.localStaticKey.publicKey
  committed : committed = session.localStaticKey.publicKey

theorem AtRest.keysFrom (h : AtRest s) : KeysFrom k₁ k₂ s where
  active := by simp [h.activeSession]
  tasks := by simp [h.tasks]
  history := by simp [h.history]

theorem KeysFrom.run {es : List Event} (hrun : Run s es t) (h : KeysFrom k₁ k₂ s)
    (hdraws : ∀ e ∈ es, e.Draws k₁ k₂) : KeysFrom k₁ k₂ t :=
  hrun.invariant h (Machine.throughout_of_forall fun _ e he => hdraws e he)
    fun _ _ _ hi he hs => hi.step he hs

theorem KeysFrom.cachedPair (h : KeysFrom k₁ k₂ t) {committed : Bytes} {session : NoiseSession}
    (hp : Paired t committed session) :
    t.getCachedPairing.map Prod.fst = some (k₁.publicKey, k₁.secretKey) := by
  obtain ⟨pk, hpk⟩ := hp.confirmed
  obtain ⟨cached, hcached⟩ := Option.isSome_iff_exists.mp hp.cached
  obtain ⟨remoteStaticPk, rfl⟩ := h.history _ hpk cached hcached
  simp only [getCachedPairing, hcached, toCachedPairing, Option.map_some,
    keyFromBytes_keyToBytes]

/-- When a pairing has gone through, with any calls, timers and frames in between, the keys agree
exactly when the two draws are the same key pair. -/
theorem keysAgree_iff_same_draw {es : List Event} {committed : Bytes} {session : NoiseSession}
    (hrest : AtRest s) (hrun : Run s es t) (hdraws : ∀ e ∈ es, e.Draws k₁ k₂)
    (hp : Paired t committed session) : KeysAgree t committed session ↔ k₁ = k₂ := by
  have h : KeysFrom k₁ k₂ t := .run hrun hrest.keysFrom hdraws
  have hpair := h.cachedPair hp
  have hsession : session.localStaticKey = k₂ := h.history _ hp.installed
  constructor
  · intro hagree
    have hboth := Option.some.inj (hpair.symm.trans hagree.cached)
    rw [hsession] at hboth
    exact NoiseKeyPair.ext (Prod.mk.inj hboth).1 (Prod.mk.inj hboth).2
  · rintro rfl
    refine ⟨?_, ?_, ?_⟩
    · rw [hsession]
      exact hpair
    · intro message hmem
      rw [hsession]
      exact h.history _ hmem
    · rw [hsession]
      exact h.history _ hp.started

def pairingEvents (k₁ k₂ : NoiseKeyPair) : List Event :=
  samplePairingEvents k₁ k₂ (List.replicate 32 5) ++ sampleConfirmEvents

def sampleSession (k : NoiseKeyPair) : NoiseSession := ⟨0, k, List.replicate 32 5, none⟩

theorem pairingEvents_draws (k₁ k₂ : NoiseKeyPair) :
    ∀ e ∈ pairingEvents k₁ k₂, e.Draws k₁ k₂ := by
  simp [pairingEvents, samplePairingEvents, sampleConfirmEvents, Event.Draws]

theorem exec_pairingEvents : ∀ b ∈ [1, 3],
    (Machine.exec step {} (pairingEvents (sampleKey 1) (sampleKey b))).map
      (fun t => (t.history, t.cachedPairing)) =
      some ([.startMessage ⟨sampleSas, sampleNonce, (sampleKey 1).publicKey⟩,
        .startReply (.success (sampleKey 1).publicKey), .installed (sampleSession (sampleKey b)),
        .encrypted (sampleSession (sampleKey b)) (.pairingConfirmed (some ⟨2, [], []⟩)),
        .confirmed (List.replicate 32 5)],
        some (toCachedPairing (sampleKey 1) (List.replicate 32 5))) := by
  decide +kernel

theorem paired_pairingEvents {b : UInt8} (hb : b ∈ [1, 3]) :
    ∃ t, Run {} (pairingEvents (sampleKey 1) (sampleKey b)) t ∧
      Paired t (sampleKey 1).publicKey (sampleSession (sampleKey b)) := by
  obtain ⟨t, hexec, heq⟩ := Option.map_eq_some_iff.mp (exec_pairingEvents b hb)
  obtain ⟨hhistory, hcached⟩ := Prod.mk.inj heq
  refine ⟨t, Machine.run_of_exec hexec, ?_, ?_, ?_, ?_⟩
  · simp [hhistory]
  · simp [hhistory]
  · exact ⟨List.replicate 32 5, by simp [hhistory]⟩
  · simp [hcached]

theorem atRest_init : AtRest {} := ⟨rfl, rfl, rfl⟩

theorem same_draw_agrees :
    ∃ t, Run {} (pairingEvents (sampleKey 1) (sampleKey 1)) t ∧
      Paired t (sampleKey 1).publicKey (sampleSession (sampleKey 1)) ∧
      KeysAgree t (sampleKey 1).publicKey (sampleSession (sampleKey 1)) := by
  obtain ⟨t, hrun, hp⟩ := paired_pairingEvents (b := 1) (by decide)
  have hdraws := pairingEvents_draws (sampleKey 1) (sampleKey 1)
  exact ⟨t, hrun, hp, (keysAgree_iff_same_draw atRest_init hrun hdraws hp).mpr rfl⟩

/-- With two draws the cached key is not the one that the phone has seen. -/
theorem two_draws_disagree :
    ∃ t, Run {} (pairingEvents (sampleKey 1) (sampleKey 3)) t ∧
      Paired t (sampleKey 1).publicKey (sampleSession (sampleKey 3)) ∧
      ¬KeysAgree t (sampleKey 1).publicKey (sampleSession (sampleKey 3)) := by
  obtain ⟨t, hrun, hp⟩ := paired_pairingEvents (b := 3) (by decide)
  refine ⟨t, hrun, hp, ?_⟩
  intro hagree
  exact absurd hagree.committed (by decide)

end Background

end SmartIdVault.Pairing
