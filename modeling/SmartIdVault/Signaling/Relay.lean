import SmartIdVault.Signaling.Client

/-! Who can send through a room.  The relay handlers look at the SAS code of a message and at
nothing else, so a message reaches the members of a room from any socket.  Every message comes from
a socket that has joined the room exactly as long as the sockets that relay are in it, where
somebody is there to hear them. -/

namespace SmartIdVault.Signaling

namespace Server

/-- Every message that was delivered came from a socket that had joined the room before. -/
def RelayedByMembers (history : List Entry) : Prop :=
  ∀ (i : Nat) x room receivers, history[i]? = some (Entry.relayed x room receivers) →
    receivers ≠ [] → Entry.joined x room ∈ history.take i

/-- A socket that relays into a room with another socket in it is in the room itself. -/
def RelaysInside (s : Server) : Event → Prop
  | .message x (.relay _ sasCode _) => ∀ text, checkSas sasCode = .valid text →
      (s.members (roomOf text)).filter (· ≠ x) ≠ [] → x ∈ s.members (roomOf text)
  | _ => True

instance : ∀ s e, Decidable (RelaysInside s e)
  | s, .message x (.relay _ sasCode _) =>
    match h : checkSas sasCode with
    | .valid text => decidable_of_iff ((s.members (roomOf text)).filter (· ≠ x) ≠ [] →
        x ∈ s.members (roomOf text)) (by simp [RelaysInside, h])
    | .invalid | .throws => isTrue (by simp [RelaysInside, h])
  | _, .message _ (.registerRoom _) | _, .message _ (.joinRoom _) => isTrue trivial
  | _, .connection .. | _, .disconnect _ | _, .timeout _ | _, .turnCredentials .. => isTrue trivial
  | _, .revoke .. | _, .tick _ => isTrue trivial

/-! ### Members are the connected sockets that joined -/

structure MemberInv (s : Server) : Prop where
  members : ∀ x room, x ∈ s.members room ↔ .joined x room ∈ s.history ∧ s.isConnected x = true
  known : ∀ x room, .joined x room ∈ s.history → x < s.sockets.length
  relayed : RelayedByMembers s.history

theorem RelayedByMembers.append {history more : List Entry} (h : RelayedByMembers history)
    (hm : ∀ (i : Nat) x room receivers, more[i]? = some (Entry.relayed x room receivers) →
      receivers ≠ [] → Entry.joined x room ∈ history) : RelayedByMembers (history ++ more) := by
  intro i x room receivers hi hne
  rw [List.getElem?_append] at hi
  rw [List.take_append, List.mem_append]
  split at hi
  · exact .inl (h i x room receivers hi hne)
  · rename_i hlt
    left
    rw [List.take_of_length_le (Nat.le_of_not_lt hlt)]
    exact hm _ x room receivers hi hne

theorem mem_history_enter (s : Server) (x y : SocketId) (roomId room : Key) (joins : List Key) :
    .joined y room ∈ (s.enter x roomId joins).history ↔
      .joined y room ∈ s.history ∨ y = x ∧ room ∈ joins := by
  simp only [enter, emit, List.mem_append, List.mem_map, Entry.joined.injEq]
  constructor
  · rintro (h | ⟨r, hr, rfl, rfl⟩)
    · exact .inl h
    · exact .inr ⟨rfl, hr⟩
  · rintro (h | ⟨rfl, hr⟩)
    · exact .inl h
    · exact .inr ⟨room, hr, rfl, rfl⟩

theorem MemberInv.enter {s : Server} (h : MemberInv s) {x : SocketId}
    (hx : s.isConnected x = true) (roomId : Key) (joins : List Key) :
    MemberInv (s.enter x roomId joins) where
  members y room := by
    rw [mem_members_enter, mem_history_enter, h.members y room, or_and_right]
    refine or_congr_right ⟨?_, And.left⟩
    rintro ⟨rfl, hr⟩
    exact ⟨⟨rfl, hr⟩, hx⟩
  known y room hj := by
    rcases (mem_history_enter ..).mp hj with hj | ⟨rfl, -⟩
    · exact h.known y room hj
    · exact lt_of_isConnected hx
  relayed := by
    apply RelayedByMembers.append h.relayed
    intro i y room receivers hi
    simp at hi

theorem mem_history_relayed {history : List Entry} {x y : SocketId} {room room' : Key}
    {receivers : List SocketId} :
    .joined x room ∈ history ++ [.relayed y room' receivers] ↔ .joined x room ∈ history := by
  simp

theorem keeps_memberInv (cfg : Config) : Keeps cfg RelaysInside MemberInv where
  same hsame h := by
    obtain ⟨h1, h2, h3, h4, h5, h6⟩ := hsame
    refine ⟨?_, ?_, ?_⟩
    · simpa only [isConnected, h1, h2, h6] using h.members
    · simpa only [h1, h6] using h.known
    · exact h6 ▸ h.relayed
  connect handshake h := by
    refine ⟨?_, ?_, h.relayed⟩
    · intro x room
      refine (h.members x room).trans (and_congr_right ?_)
      intro hj
      rw [isConnected_addSocket _ _ (h.known x room hj)]
    · intro x room hj
      have := h.known x room hj
      simp only [addSocket, List.length_append, List.length_singleton]
      omega
  disconnect x h := by
    refine ⟨?_, ?_, h.relayed⟩
    · intro y room
      rw [isConnected_disconnect]
      simp only [disconnect, List.mem_filter, h.members y room, decide_eq_true_eq]
      exact and_assoc
    · intro y room hj
      simpa [disconnect] using h.known y room hj
  register {s x data} h hx hok hg := by
    obtain ⟨founding, hr⟩ := register_eq s x data
    rw [hr]
    refine MemberInv.enter ?_ ?_ _ _
    · exact ⟨h.members, h.known, h.relayed⟩
    · exact hx
  join h hx _ hm hv _ := h.enter hx _ _
  cleanup h hr ht := ⟨h.members, h.known, h.relayed⟩
  relay h hx hsas hg := by
    simp only [Server.relay, hsas]
    refine ⟨?_, ?_, ?_⟩
    · intro y room
      rw [mem_history_relayed]
      exact h.members y room
    · intro y room hj
      exact h.known y room (mem_history_relayed.mp hj)
    · apply h.relayed.append
      intro i y room receivers hi hne
      rw [List.getElem?_singleton] at hi
      split at hi
      · cases hi
        exact ((h.members _ _).mp (hg _ hsas hne)).1
      · contradiction

theorem memberInv_init : MemberInv {} where
  members := by simp [isConnected]
  known := by simp
  relayed := by simp [RelayedByMembers]

theorem stranger_relays {cfg : Config} {s t : Server} {e : Event} (h : MemberInv s)
    (hs : step cfg s e = some t) (hg : ¬RelaysInside s e) : ¬RelayedByMembers t.history := by
  unfold RelaysInside at hg
  split at hg
  case h_2 => exact absurd trivial hg
  case h_1 x kind sasCode payload =>
    simp only [not_forall] at hg
    obtain ⟨text, hsas, hne, hx⟩ := hg
    obtain ⟨-, hconn, rfl⟩ := step_message_eq_some.mp hs
    simp only [receive, relay, hsas]
    intro hall
    have hj := hall s.history.length x (roomOf text) _ (by simp) hne
    rw [List.take_left] at hj
    exact hx ((h.members _ _).mpr ⟨hj, hconn⟩)

/-- Along every run of the server, the messages that are delivered come from sockets that have
joined the room exactly when no socket outside a room relays into it while somebody is there. -/
theorem relayedByMembers_iff_relaysInside {cfg : Config} {es : List Event} {t : Server}
    (hrun : Run cfg {} es t) :
    Machine.Everywhere (step cfg) (fun s => RelayedByMembers s.history) {} es ↔
      Machine.Throughout (step cfg) RelaysInside {} es :=
  Machine.everywhere_iff_throughout (I := MemberInv) (A := fun _ _ => True) hrun
    (Machine.throughout_of_forall fun _ _ _ => trivial) memberInv_init
    (fun _ h => h.relayed) (fun _ _ _ h _ hg hs => (keeps_memberInv cfg).step h hg hs)
    (fun _ _ _ h _ hg hs => stranger_relays h hs hg)

def memberEvents : List Event :=
  [.connection clientHandshake 0, .connection (samplePairing.phoneHandshake Sha256.sha256) 0,
    .message 0 (.registerRoom (some samplePairing.registration)),
    .message 1 (.joinRoom (.str samplePairing.sas)),
    .message 0 (.relay .sdpOffer (.str samplePairing.sas) (.str (utf16 "offer"))),
    .message 1 (.relay .sdpAnswer (.str samplePairing.sas) (.str (utf16 "answer")))]

theorem members_relay_to_each_other :
    ∃ t, Run sampleConfig {} memberEvents t ∧
      Machine.Everywhere (step sampleConfig) (fun s => RelayedByMembers s.history) {}
        memberEvents := by
  have hexec : ((Machine.exec (step sampleConfig) {} memberEvents).map fun _ => ()) = some () := by
    decide +kernel
  obtain ⟨t, ht, -⟩ := Option.map_eq_some_iff.mp hexec
  have hrun := Machine.run_of_exec ht
  exact ⟨t, hrun, (relayedByMembers_iff_relaysInside hrun).mpr (by decide +kernel)⟩

/-- A socket that never joined sends an offer to the extension. -/
theorem stranger_offer_is_delivered :
    ∃ t, Run sampleConfig {} [.connection clientHandshake 0, .connection {} 0,
        .message 0 (.registerRoom (some samplePairing.registration)),
        .message 1 (.relay .sdpOffer (.str samplePairing.sas) (.str (utf16 "offer")))] t ∧
      ¬RelayedByMembers t.history := by
  refine ⟨_, Machine.run_of_exec rfl, ?_⟩
  intro h
  have := h 1 1 (roomOf samplePairing.sas) [0] (by decide +kernel) (by decide)
  revert this
  decide +kernel

end Server

end SmartIdVault.Signaling
