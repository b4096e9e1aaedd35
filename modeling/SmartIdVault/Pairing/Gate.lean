import SmartIdVault.Pairing.Background

/-! The SAS gate.  A handshake installs its session and its command client before the user has
compared the emoji, and a rejection leaves both in place, so commands can be encrypted for a peer
that nobody has confirmed.  They are not as long as requests come only while the session is cleared,
and sessions that are not are installed, and sessions rejected, only while no client has anything
left to send: then what the clients' timers send later is cleared too. -/

namespace SmartIdVault.Pairing

def Message.isCommand : Message → Bool
  | .command _ => true
  | .pairingConfirmed _ => false

/-- The user has confirmed the session's remote key and has not rejected the session. -/
def Cleared (history : List Entry) (session : NoiseSession) : Prop :=
  .confirmed session.remoteStaticPublicKey ∈ history ∧ .rejected session.transport ∉ history

instance (history : List Entry) (session : NoiseSession) : Decidable (Cleared history session) :=
  inferInstanceAs (Decidable (_ ∧ _))

theorem Cleared.append {history entries : List Entry} {session : NoiseSession}
    (h : Cleared history session) (he : .rejected session.transport ∉ entries) :
    Cleared (history ++ entries) session :=
  ⟨List.mem_append_left _ h.1, fun hmem => (List.mem_append.mp hmem).elim h.2 he⟩

/-- Every command was encrypted in a session whose remote key had been confirmed, and no message in
a session that had been rejected. -/
def SasGated (history : List Entry) : Prop :=
  ∀ (i : Nat) session message, history[i]? = some (Entry.encrypted session message) →
    (message.isCommand = true → .confirmed session.remoteStaticPublicKey ∈ history.take i) ∧
      .rejected session.transport ∉ history.take i

/-- The answer that the task waits for makes `confirmSasMatch` send its notice. -/
def Task.notifies : Task → Bool
  | .confirmEmoji _ => true
  | _ => false

/-- The entry tells neither of a message nor of a rejection. -/
def Entry.isPlain : Entry → Bool
  | .encrypted .. | .rejected _ => false
  | _ => true

namespace Background

def maySend (s : Background) : Bool := s.clients.any (·.client.maySend)

def accepts (s : Background) (now : Nat) : Request → Bool
  | .verifyTransaction amount recipient =>
    ¬(amount = "" ∧ recipient = "") && s.clientReady && s.commandClient.isSome
  | .credentialRequest domain url _ _ =>
    ¬(domain = "" ∨ url = "") && (allow credentialRateLimitMs s.limiter domain now).2 &&
      s.commandClient.isSome
  | .detectLoginForm domain _ usernameSelector passwordSelector tabId =>
    ¬(domain = "" ∨ usernameSelector = "" ∨ passwordSelector = "") && tabId.getD 0 ≠ 0 &&
      (allow credentialRateLimitMs s.limiter domain now).2 && s.commandClient.isSome

/-- A session is installed while a client can send only if it is cleared, and the notice of
`confirmSasMatch` does not go out under a rejected session. -/
def MayResume (s : Background) (task : Task) : Prop :=
  (∀ session ∈ task.installs, s.maySend = true → Cleared s.history session) ∧
    (task.notifies = true → ∀ session ∈ s.currentSession, .rejected session.transport ∉ s.history)

instance (s : Background) (task : Task) : Decidable (MayResume s task) :=
  inferInstanceAs (Decidable (_ ∧ _))

/-- Requests that get through find the current session cleared, and a session is rejected only while
no client can send. -/
def Gated (s : Background) : Event → Prop
  | .request r now => s.accepts now r = true → ∀ session ∈ s.currentSession,
    Cleared s.history session
  | .rejectSasMatch => s.maySend = true → s.currentSession = none
  | .resume i .ok => ∀ task ∈ s.tasks[i]?, MayResume s task
  | _ => True

instance : ∀ s e, Decidable (Gated s e)
  | s, .request r now => inferInstanceAs (Decidable (s.accepts now r = true →
      ∀ session ∈ s.currentSession, Cleared s.history session))
  | s, .rejectSasMatch => inferInstanceAs (Decidable (s.maySend = true → s.currentSession = none))
  | s, .resume i .ok => inferInstanceAs (Decidable (∀ task ∈ s.tasks[i]?, MayResume s task))
  | _, .resume _ .no | _, .resume _ (.rejects _) | _, .resume _ (.peer _) => isTrue trivial
  | _, .startPairing .. | _, .startPairingFlow _ | _, .confirmSasMatch => isTrue trivial
  | _, .disconnectSession | _, .clearPendingRemoteKey | _, .client .. => isTrue trivial
  | _, .capabilities _ | _, .response .. => isTrue trivial

/-! ### The invariant -/

structure GateInv (s : Background) : Prop where
  gated : SasGated s.history
  cleared : s.maySend = true → ∀ session ∈ s.currentSession, Cleared s.history session

/-- Nothing is encrypted or rejected, no session is installed, and no client has more to send than
before. -/
structure Quiet (s t : Background) : Prop where
  history : ∃ entries, t.history = s.history ++ entries ∧ ∀ e ∈ entries, e.isPlain = true
  maySend : t.maySend = true → s.maySend = true
  session : ∀ session ∈ t.currentSession, ∃ session' ∈ s.currentSession,
    session.transport = session'.transport ∧
      session.remoteStaticPublicKey = session'.remoteStaticPublicKey

theorem Quiet.of_history {s t : Background} (hh : t.history = s.history)
    (hm : t.maySend = true → s.maySend = true)
    (hs : ∀ session ∈ t.currentSession, ∃ session' ∈ s.currentSession,
      session.transport = session'.transport ∧
        session.remoteStaticPublicKey = session'.remoteStaticPublicKey) : Quiet s t :=
  ⟨⟨[], by simp [hh]⟩, hm, hs⟩

theorem Quiet.of_log {s t : Background} {entry : Entry} (hh : t.history = s.history ++ [entry])
    (he : entry.isPlain = true) (hc : t.clients = s.clients)
    (hs : t.currentSession = s.currentSession) : Quiet s t where
  history := ⟨[entry], hh, by simp [he]⟩
  maySend hm := by rwa [Background.maySend, hc] at hm
  session session h := ⟨session, hs ▸ h, rfl, rfl⟩

theorem Quiet.of_eq {s t : Background} (hh : t.history = s.history) (hc : t.clients = s.clients)
    (hs : t.currentSession = s.currentSession) : Quiet s t := by
  refine .of_history hh (?_) fun session h => ⟨session, hs ▸ h, rfl, rfl⟩
  intro hm
  rwa [Background.maySend, hc] at hm

theorem sasGated_concat {history : List Entry} (h : SasGated history) {entry : Entry}
    (hentry : ∀ session message, entry = .encrypted session message →
      (message.isCommand = true → .confirmed session.remoteStaticPublicKey ∈ history) ∧
        .rejected session.transport ∉ history) : SasGated (history ++ [entry]) := by
  intro i session message hi
  rw [List.getElem?_append] at hi
  split at hi
  · rename_i hlt
    rw [List.take_append_of_le_length (Nat.le_of_lt hlt)]
    exact h i session message hi
  · rename_i hlt
    rw [List.getElem?_singleton] at hi
    split at hi
    · have hi' : i = history.length := by omega
      rw [hi', List.take_left]
      exact hentry session message (Option.some.inj hi)
    · contradiction

theorem sasGated_append {history : List Entry} (h : SasGated history) {entries : List Entry}
    (he : ∀ session message, .encrypted session message ∉ entries) :
    SasGated (history ++ entries) := by
  induction entries generalizing history with
  | nil => simpa using h
  | cons entry entries ih =>
    rw [List.append_cons]
    refine ih (sasGated_concat h ?_) fun session message hmem =>
      he session message (List.mem_cons_of_mem _ hmem)
    rintro session message rfl
    exact absurd (List.mem_cons_self ..) (he session message)

theorem GateInv.quiet {s t : Background} (h : GateInv s) (hq : Quiet s t) : GateInv t := by
  obtain ⟨entries, hh, hplain⟩ := hq.history
  constructor
  · rw [hh]
    exact sasGated_append h.gated fun session message hmem =>
      absurd (hplain _ hmem) (by simp [Entry.isPlain])
  · intro hm session hs
    obtain ⟨session', hs', ht, hr⟩ := hq.session session hs
    have hold : Cleared s.history session := by
      simpa only [Cleared, ht, hr] using h.cleared (hq.maySend hm) session' hs'
    rw [hh]
    exact hold.append fun hmem => absurd (hplain _ hmem) (by simp [Entry.isPlain])

theorem maySend_modify {clients : List CommandClient} {i : Nat} {f : CommandClient → CommandClient}
    (hf : ∀ c, (f c).client.maySend = true → c.client.maySend = true)
    (h : (clients.modify i f).any (·.client.maySend) = true) :
    clients.any (·.client.maySend) = true := by
  obtain ⟨c, hc, hm⟩ := List.any_eq_true.mp h
  obtain ⟨j, hj⟩ := List.mem_iff_getElem?.mp hc
  rw [List.getElem?_modify] at hj
  obtain ⟨c', hc', rfl⟩ := Option.map_eq_some_iff.mp hj
  refine List.any_eq_true.mpr ⟨c', List.mem_of_getElem? hc', ?_⟩
  split at hm
  · exact hf c' hm
  · exact hm

/-! ### One step -/

/-- A handler changes the rate limiter at most, unless it accepts the request and hands a command to
a client. -/
theorem handle_cases (s : Background) (now : Nat) (r : Request) :
    ∃ limiter, (s.handle now r).1 = { s with limiter } ∨
      s.accepts now r = true ∧ ∃ client command payload,
        (s.handle now r).1 = (sendCommand { s with limiter } client command payload).1 := by
  cases r with
  | verifyTransaction amount recipient =>
    refine ⟨s.limiter, ?_⟩
    simp only [handle, verifyTransaction, accepts]
    split
    · exact .inl rfl
    split
    · exact .inl rfl
    split
    · exact .inl rfl
    · exact .inr ⟨by simp_all, _, _, _, rfl⟩
  | credentialRequest domain url usernameFieldId passwordFieldId =>
    simp only [handle, credentialRequest, accepts]
    split
    · exact ⟨s.limiter, .inl rfl⟩
    split
    · exact ⟨_, .inl rfl⟩
    split
    · exact ⟨_, .inl rfl⟩
    · exact ⟨_, .inr ⟨by simp_all, _, _, _, rfl⟩⟩
  | detectLoginForm domain url usernameSelector passwordSelector tabId =>
    simp only [handle, detectLoginForm, accepts]
    split
    · exact ⟨s.limiter, .inl rfl⟩
    split
    · exact ⟨s.limiter, .inl rfl⟩
    split
    · exact ⟨_, .inl rfl⟩
    split
    · exact ⟨_, .inl rfl⟩
    · exact ⟨_, .inr ⟨by simp_all, _, _, _, rfl⟩⟩

theorem GateInv.request {s : Background} (h : GateInv s) {now : Nat} {r : Request}
    (hg : s.accepts now r = true → ∀ session ∈ s.currentSession, Cleared s.history session) :
    GateInv (s.handle now r).1 := by
  obtain ⟨limiter, heq | ⟨haccepts, client, command, payload, heq⟩⟩ := handle_cases s now r
  · rw [heq]
    exact h.quiet (.of_eq rfl rfl rfl)
  · rw [heq]
    exact ⟨h.gated, fun _ => hg haccepts⟩

theorem GateInv.encrypt {s : Background} (h : GateInv s) {session : NoiseSession}
    {message : Message}
    (hm : message.isCommand = true → .confirmed session.remoteStaticPublicKey ∈ s.history)
    (hr : .rejected session.transport ∉ s.history) : GateInv (s.encrypt session message) := by
  refine ⟨sasGated_concat h.gated ?_, ?_⟩
  · rintro _ _ ⟨⟩
    exact ⟨hm, hr⟩
  · intro hmay session' hs'
    exact (h.cleared hmay session' hs').append (by simp)

theorem GateInv.rejectSasMatch {s : Background} (h : GateInv s)
    (hg : s.maySend = true → s.currentSession = none) : GateInv s.rejectSasMatch := by
  refine ⟨sasGated_append h.gated (by simp), ?_⟩
  intro hmay session hs
  exact absurd ((hg hmay).symm.trans hs) (by simp)

theorem GateInv.install {s : Background} (h : GateInv s) {session : NoiseSession}
    (hc : s.maySend = true → Cleared s.history session) :
    GateInv (log { s with currentSession := some session } (.installed session)) where
  gated := sasGated_concat h.gated (by simp)
  cleared hmay session' hs' := by
    obtain rfl := Option.some.inj hs'
    exact (hc hmay).append (by simp)

theorem GateInv.notify {s : Background} (h : GateInv s)
    (hr : ∀ session ∈ s.currentSession, .rejected session.transport ∉ s.history) :
    GateInv s.notify := by
  unfold Background.notify
  split
  · rename_i session _ hs
    exact h.encrypt (by simp [Message.isCommand]) (hr session hs)
  · exact h

theorem quiet_completePairing (s : Background) (remoteStaticPk : Bytes) :
    Quiet s (s.completePairing remoteStaticPk) := by
  unfold completePairing
  split <;> exact .of_eq rfl rfl rfl

theorem quiet_receivePeer (s : Background) (localKey : NoiseKeyPair) (result : PeerResult) :
    Quiet s (s.receivePeer localKey result) := by
  cases result <;> exact .of_eq rfl rfl rfl

theorem quiet_registered (s : Background) (remoteStaticPk : Bytes) :
    Quiet s (s.registered remoteStaticPk) := by
  unfold registered
  split
  · exact .of_eq rfl rfl rfl
  · exact .of_log rfl rfl rfl rfl

/-- A task that installs no session and sends no notice is quiet. -/
theorem quiet_resume {s t : Background} {task : Task} {answer : Answer}
    (hs : resume s task answer = some t) (hi : task.installs = none)
    (hn : task.notifies = false) : Quiet s t := by
  unfold resume at hs
  split at hs
  all_goals first
    | contradiction
    | obtain rfl := Option.some.inj hs
  all_goals first
    | exact .of_eq rfl rfl rfl
    | exact .of_log rfl rfl rfl rfl
    | exact quiet_completePairing ..
    | exact quiet_receivePeer ..
    | exact quiet_registered ..

theorem GateInv.resume {s t : Background} {task : Task} {answer : Answer} (h : GateInv s)
    (hg : answer = .ok → MayResume s task) (hs : Background.resume s task answer = some t) :
    GateInv t := by
  cases task with
  | flowStore session =>
    cases answer with
    | ok =>
      cases hs
      exact h.install ((hg rfl).1 session rfl)
    | rejects message =>
      cases hs
      exact h.quiet (.of_eq rfl rfl rfl)
    | no | peer result => contradiction
  | confirmEmoji remoteStaticPk =>
    cases answer with
    | ok =>
      cases hs
      exact (h.notify ((hg rfl).2 rfl)).quiet (.of_eq rfl rfl rfl)
    | rejects message =>
      cases hs
      exact h
    | no | peer result => contradiction
  | _ => exact h.quiet (quiet_resume hs rfl rfl)

/-- What a client can send it could before its step, so the session of the moment is cleared. -/
theorem GateInv.clientStep {s t : Background} (h : GateInv s) {k now : Nat} {e : Command.Event}
    (hown : e.isOwn = true) (hs : s.clientStep k e now = some t) : GateInv t := by
  obtain ⟨c, hc, hs⟩ := Option.bind_eq_some_iff.mp hs
  obtain ⟨client, hstep, rfl⟩ := Option.map_eq_some_iff.mp hs
  have hmay (hcase : client.maySend = true ∨ (client.sends e).isSome = true) : s.maySend = true :=
    List.any_eq_true.mpr ⟨c, List.mem_of_getElem? hc,
      Command.Client.maySend_of_step (s := s.load c) hown hstep hcase⟩
  have hset : GateInv { s with
      clients := s.clients.set k { c with client }
      storedSequence := client.storedSequence
      storedCount := client.storedCount } := by
    refine h.quiet (.of_history rfl (?_) fun session hs => ⟨session, hs, rfl, rfl⟩)
    intro hnew
    obtain ⟨c', hc', hm⟩ := List.any_eq_true.mp hnew
    rcases List.mem_or_eq_of_mem_set hc' with hold | rfl
    · exact List.any_eq_true.mpr ⟨c', hold, hm⟩
    · exact hmay (.inl hm)
  simp only
  split
  · exact hset
  next cmd hcmd =>
    obtain ⟨i, hi, -⟩ := Option.bind_eq_some_iff.mp hcmd
    simp only [sendData]
    split
    · exact hset
    next session hs =>
      obtain ⟨hconf, hrej⟩ := h.cleared (hmay (.inr (by rw [hi]; rfl))) session hs
      exact hset.encrypt (fun _ => hconf) hrej

theorem GateInv.step {s t : Background} {e : Event} (h : GateInv s) (hg : Gated s e)
    (hs : Background.step s e = some t) : GateInv t := by
  cases e with
  | startPairing sasCode nonce localStaticKey =>
    cases hs
    apply h.quiet
    unfold Background.startPairing
    split
    · exact .of_log rfl rfl rfl rfl
    · exact .of_eq rfl rfl rfl
  | startPairingFlow localKey =>
    cases hs
    refine h.quiet (.of_history rfl (?_) fun session hs => ⟨session, hs, rfl, rfl⟩)
    intro hm
    simpa [Background.startPairingFlow, push, Background.maySend, Command.Client.maySend] using hm
  | resume i answer =>
    obtain ⟨task, htask, hs⟩ := Option.bind_eq_some_iff.mp hs
    have herase : GateInv { s with tasks := s.tasks.eraseIdx i } := h.quiet (.of_eq rfl rfl rfl)
    refine herase.resume ?_ hs
    rintro rfl
    exact hg task htask
  | confirmSasMatch =>
    cases hs
    apply h.quiet
    unfold Background.confirmSasMatch
    split <;> exact .of_eq rfl rfl rfl
  | rejectSasMatch =>
    cases hs
    exact h.rejectSasMatch hg
  | disconnectSession =>
    cases hs
    exact h.quiet (.of_history rfl id (by simp [Background.disconnectSession]))
  | clearPendingRemoteKey =>
    cases hs
    exact h.quiet (.of_eq rfl rfl rfl)
  | request r now =>
    cases hs
    exact h.request hg
  | client k e now =>
    simp only [Background.step, Option.ite_none_right_eq_some] at hs
    exact h.clientStep hs.1 hs.2
  | capabilities remoteCaps =>
    cases hs
    refine h.quiet (.of_history rfl id ?_)
    intro session hs
    obtain ⟨session', hs', rfl⟩ := Option.map_eq_some_iff.mp hs
    exact ⟨session', hs', rfl, rfl⟩
  | response sequence status =>
    simp only [Background.step] at hs
    split at hs
    · cases hs
      exact h.quiet (.of_history rfl (maySend_modify fun _ => Command.Client.maySend_of_response)
        fun session hs => ⟨session, hs, rfl, rfl⟩)
    · contradiction

theorem gateInv_init : GateInv {} where
  gated := by simp [SasGated]
  cleared := by simp

/-- In every run whose steps meet the condition, every command is encrypted in a session whose
remote key the user has confirmed, and nothing in a session that the user has rejected. -/
theorem sasGated_of_gated {es : List Event} (hg : Machine.Throughout step Gated {} es) :
    Machine.Everywhere step (fun s => SasGated s.history) {} es :=
  (Machine.everywhere_of_throughout gateInv_init hg fun _ _ _ h hg hs => h.step hg hs).mono
    fun _ h => h.gated

def sampleKey (b : UInt8) : NoiseKeyPair where
  publicKey := List.replicate 32 b
  secretKey := List.replicate 32 (b + 1)
  publicKey_length := by simp [dhLen]
  secretKey_length := by simp [dhLen]

def sampleSas : Utf16 := [0x31, 0x32, 0x33, 0x34, 0x35, 0x36]

def sampleNonce : Bytes := List.replicate 32 7

/-- `startPairing` and `startPairingFlow`, each to its end, with the given keys. -/
def samplePairingEvents (k₁ k₂ : NoiseKeyPair) (remoteStaticPk : Bytes) : List Event :=
  [.startPairing sampleSas sampleNonce k₁, .resume 0 .ok, .resume 0 .ok,
    .startPairingFlow k₂, .resume 0 .ok, .resume 0 (.peer (.completed remoteStaticPk none)),
    .resume 0 .ok, .resume 0 .ok]

/-- `confirmSasMatch` of a device that is not known yet. -/
def sampleConfirmEvents : List Event :=
  [.confirmSasMatch, .resume 0 .no, .resume 0 .ok, .resume 0 .ok, .resume 0 .ok, .resume 0 .ok,
    .resume 0 .ok, .resume 0 .ok, .resume 0 .ok]

def sampleRequest : Request := .credentialRequest "bank.ee" "https://bank.ee/login" "user" "pass"

/-- The first call of a client gets to its first attempt. -/
def sampleSendEvents : List Event := List.replicate 6 (.client 0 (.settle 0 100001) 0)

def confirmedEvents : List Event :=
  samplePairingEvents (sampleKey 1) (sampleKey 3) (List.replicate 32 5) ++ sampleConfirmEvents ++
    [.request sampleRequest 100000] ++ sampleSendEvents ++
    [.client 0 (.retry 0) 0, .client 0 (.retry 0) 0]

theorem confirmed_session_sends :
    (Machine.exec step {} confirmedEvents).map (·.history.length) = some 8 ∧
      Machine.Everywhere step (fun s => SasGated s.history) {} confirmedEvents :=
  ⟨by decide +kernel, sasGated_of_gated (by decide +kernel)⟩

/-- The user rejects the emoji, and a credential request is encrypted for the peer all the same. -/
theorem rejected_session_sends :
    ∃ t, Run {} (samplePairingEvents (sampleKey 1) (sampleKey 3) (List.replicate 32 66) ++
        [.rejectSasMatch, .resume 0 .ok, .resume 0 .ok, .resume 0 .ok,
          .request sampleRequest 100000] ++ sampleSendEvents) t ∧
      t.history.drop 3 = [.rejected 0, .encrypted
        ⟨0, sampleKey 3, List.replicate 32 66, none⟩
        (.command ⟨1, .credentialRequest,
          .credential "bank.ee" "https://bank.ee/login" "user" "pass"⟩)] ∧
      ¬SasGated t.history := by
  refine ⟨_, Machine.run_of_exec rfl, rfl, ?_⟩
  intro h
  obtain ⟨-, hrej⟩ := h 4 _ _ rfl
  exact hrej (by decide +kernel)

end Background

end SmartIdVault.Pairing
