import SmartIdVault.Signaling.Client
import SmartIdVault.Signaling.Rooms

/-! The life cycle of rooms on the signaling server: `register-room`, `join-room`, the `disconnect`
handler and the timers, over the table of room objects.  `Server` knows of a timer only that there
is one; `Refines.step` says that this server does the same to what both have. -/

namespace SmartIdVault.Signaling

structure RoomServer where
  table : RoomTable := {}
  sockets : List Socket := []
  roomMetadata : Key → Option Metadata := fun _ => none
  pendingCredentials : Key → Option TurnCredentials := fun _ => none
  crashed : Bool := false

namespace RoomServer

def isConnected (s : RoomServer) (x : SocketId) : Bool :=
  match s.sockets[x]? with
  | none => false
  | some socket => socket.connected

def handshake (s : RoomServer) (x : SocketId) : Handshake :=
  match s.sockets[x]? with
  | none => {}
  | some socket => socket.handshake

def addSocket (s : RoomServer) (handshake : Handshake) : RoomServer :=
  { s with sockets := s.sockets ++ [{ handshake }] }

def disconnect (s : RoomServer) (x : SocketId) : RoomServer :=
  { s with
    sockets := s.sockets.modify x fun socket => { socket with connected := false }
    table := s.table.leave x }

/-- `register-room`, up to what it sends. -/
def registerRoom (s : RoomServer) (x : SocketId) (data : RegisterRoom) : RoomServer :=
  if checkSas data.sasCode = .throws then { s with crashed := true }
  else if data.accepted then
    { s with
      roomMetadata := Function.update s.roomMetadata data.roomId.key (some data.metadata)
      table := s.table.enter x data.roomId.key }
  else s

/-- `join-room`, up to what it sends. -/
def joinRoom (cfg : Config) (s : RoomServer) (x : SocketId) (sasCode : JsVal) : RoomServer :=
  match checkSas sasCode with
  | .throws => { s with crashed := true }
  | .invalid => s
  | .valid text =>
    match s.roomMetadata (roomOf text) with
    | none => s.disconnect x
    | some metadata =>
      let commitment := (s.handshake x).commitment
      if !commitment.truthy || !verifyCommitment cfg.sha256 metadata commitment then s.disconnect x
      else { s with table := s.table.enter x (roomOf text) }

/-- The callback of a timer fires. -/
def fire (s : RoomServer) (timer : TimerId) : RoomServer :=
  let roomId := (s.table.timers timer).roomId
  { s with
    table := s.table.fire timer
    pendingCredentials := Function.update s.pendingCredentials roomId none
    roomMetadata := Function.update s.roomMetadata roomId none }

/-- `GET /turn-credentials`. -/
def turnCredentials (cfg : Config) (s : RoomServer) (roomId : Utf16) (now : Nat) : RoomServer :=
  match Server.generateTurnCredentials cfg roomId now with
  | none => s
  | some credentials =>
    { s with
      pendingCredentials :=
        Function.update s.pendingCredentials (.str roomId) (some credentials) }

inductive Event
  | connection (handshake : Handshake)
  | registerRoom (socket : SocketId) (data : Option RegisterRoom)
  | joinRoom (socket : SocketId) (sasCode : JsVal)
  | disconnect (socket : SocketId)
  | timeout (timer : TimerId)
  | turnCredentials (roomId : Utf16) (now : Nat)
  deriving DecidableEq, Repr

/-- One step, or `none` where the event cannot happen: only connected sockets have events, and only
armed timers fire. -/
def step (cfg : Config) (s : RoomServer) (e : Event) : Option RoomServer :=
  if s.crashed then none
  else
    match e with
    | .connection handshake => some (s.addSocket handshake)
    | .registerRoom x data =>
      if s.isConnected x then
        match data with
        | none => some { s with crashed := true }
        | some data => some (s.registerRoom x data)
      else none
    | .joinRoom x sasCode => if s.isConnected x then some (s.joinRoom cfg x sasCode) else none
    | .disconnect x => if s.isConnected x then some (s.disconnect x) else none
    | .timeout timer => if (s.table.timers timer).armed then some (s.fire timer) else none
    | .turnCredentials roomId now => some (s.turnCredentials cfg roomId now)

abbrev Run (cfg : Config) (s : RoomServer) (es : List Event) (t : RoomServer) : Prop :=
  Machine.Run (step cfg) s es t

/-! ### The invariant -/

/-- The rooms have their timers, and ids with metadata have rooms. -/
structure Cycle (s : RoomServer) : Prop where
  timed : s.table.Timed
  metadata : ∀ roomId, s.roomMetadata roomId ≠ none → ∃ room, (roomId, room) ∈ s.table.rooms

theorem cycle_empty : Cycle {} := ⟨RoomTable.timed_empty, fun _ h => absurd rfl h⟩

variable {cfg : Config} {s t : RoomServer} {e : Event}

theorem Cycle.disconnect (h : Cycle s) (x : SocketId) : Cycle (s.disconnect x) where
  timed := h.timed.leave x
  metadata roomId hdata := by
    obtain ⟨room, hmem⟩ := h.metadata roomId hdata
    exact ⟨room, (RoomTable.rooms_leave s.table x).symm ▸ hmem⟩

theorem Cycle.enter (h : Cycle s) (x : SocketId) (roomId : Key) :
    Cycle { s with table := s.table.enter x roomId } where
  timed := h.timed.enter x roomId
  metadata k hdata := by
    obtain ⟨room, hmem⟩ := h.metadata k hdata
    exact ⟨room, (RoomTable.rooms_enter s.table x roomId).1 _ hmem⟩

theorem Cycle.registerRoom (h : Cycle s) (x : SocketId) (data : RegisterRoom) :
    Cycle (s.registerRoom x data) := by
  unfold RoomServer.registerRoom
  split
  · exact ⟨h.timed, h.metadata⟩
  split
  · refine ⟨h.timed.enter x _, fun k hdata => ?_⟩
    by_cases hk : k = data.roomId.key
    · exact hk ▸ (RoomTable.rooms_enter s.table x data.roomId.key).2
    · simp only [Function.update_of_ne hk] at hdata
      exact (h.enter x data.roomId.key).metadata k hdata
  · exact h

theorem Cycle.joinRoom (h : Cycle s) (x : SocketId) (sasCode : JsVal) :
    Cycle (s.joinRoom cfg x sasCode) := by
  unfold RoomServer.joinRoom
  split
  · exact ⟨h.timed, h.metadata⟩
  · exact h
  · split
    · exact h.disconnect x
    · simp only
      split
      · exact h.disconnect x
      · exact h.enter x _

theorem Cycle.fire (h : Cycle s) {timer : TimerId} (harmed : (s.table.timers timer).armed = true) :
    Cycle (s.fire timer) where
  timed := h.timed.fire harmed
  metadata k hdata := by
    have hk : k ≠ (s.table.timers timer).roomId := by
      rintro rfl
      exact hdata (Function.update_self ..)
    simp only [RoomServer.fire, Function.update_of_ne hk] at hdata
    obtain ⟨room, hmem⟩ := h.metadata k hdata
    exact ⟨room, RoomTable.mem_fire.mpr ⟨hmem, hk⟩⟩

theorem Cycle.step (h : Cycle s) (hs : step cfg s e = some t) : Cycle t := by
  unfold RoomServer.step at hs
  split at hs
  · cases hs
  cases e with
  | connection handshake =>
    cases hs
    exact ⟨h.timed, h.metadata⟩
  | registerRoom x data =>
    simp only at hs
    split at hs
    · cases data with
      | none =>
        cases hs
        exact ⟨h.timed, h.metadata⟩
      | some data =>
        cases hs
        exact h.registerRoom x data
    · cases hs
  | joinRoom x sasCode =>
    simp only [Option.ite_none_right_eq_some, Option.some.injEq] at hs
    exact hs.2 ▸ h.joinRoom x sasCode
  | disconnect x =>
    simp only [Option.ite_none_right_eq_some, Option.some.injEq] at hs
    exact hs.2 ▸ h.disconnect x
  | timeout timer =>
    simp only [Option.ite_none_right_eq_some, Option.some.injEq] at hs
    exact hs.2 ▸ h.fire hs.1
  | turnCredentials roomId now =>
    cases hs
    unfold turnCredentials
    split
    · exact h
    · exact ⟨h.timed, h.metadata⟩

/-- A timer of the room is armed. -/
def Armed (s : RoomServer) (room : RoomRef) (timer : TimerId) : Prop :=
  (s.table.timers timer).armed = true ∧ (s.table.timers timer).room = room

/-- In every reachable state: rooms with peers have no armed timer, rooms without peers have one,
the entry that a firing timer deletes is that of the object it was armed for, which has no peers,
and every id with metadata has a room. -/
theorem room_life_cycle {es : List Event} (hrun : Run cfg {} es s) :
    (∀ entry ∈ s.table.rooms,
      ((s.table.objects entry.2).peers ≠ [] → ∀ timer, ¬s.Armed entry.2 timer) ∧
      ((s.table.objects entry.2).peers = [] → ∃! timer, s.Armed entry.2 timer)) ∧
    (∀ timer t, step cfg s (.timeout timer) = some t →
      ((s.table.timers timer).roomId, (s.table.timers timer).room) ∈ s.table.rooms ∧
      (s.table.objects (s.table.timers timer).room).peers = [] ∧
      ∀ entry, entry ∈ t.table.rooms ↔
        entry ∈ s.table.rooms ∧ entry.2 ≠ (s.table.timers timer).room) ∧
    ∀ roomId, s.roomMetadata roomId ≠ none → ∃ room, (roomId, room) ∈ s.table.rooms := by
  have h : Cycle s := hrun.invariant_all cycle_empty fun _ _ _ h hs => h.step hs
  refine ⟨fun entry hentry => ⟨fun hpeers timer harmed => hpeers ?_, fun hpeers => ?_⟩,
    fun timer t hs => ?_, h.metadata⟩
  · rw [← harmed.2]
    exact h.timed.peers_of_armed harmed.1
  · obtain ⟨timer, harmed, hroom⟩ := h.timed.idle entry hentry hpeers (fun h => by cases h)
    refine ⟨timer, ⟨harmed, hroom⟩, fun other hother => ?_⟩
    exact h.timed.armed_unique hother.1 harmed (hother.2.trans hroom.symm)
  · unfold step at hs
    split at hs
    · cases hs
    simp only [Option.ite_none_right_eq_some, Option.some.injEq] at hs
    obtain ⟨harmed, rfl⟩ := hs
    exact ⟨(h.timed.armed timer harmed).1, h.timed.peers_of_armed harmed,
      fun entry => h.timed.mem_fire_iff harmed⟩

/-- The extension's room is left to its timer. -/
theorem left_room_is_timed : ∃ s,
    Run Server.sampleConfig {} [.connection {},
      .registerRoom 0 (some Server.samplePairing.registration), .disconnect 0] s ∧
    ∃! timer, s.Armed 0 timer := by
  have hexec : ((Machine.exec (step Server.sampleConfig) {} [.connection {},
      .registerRoom 0 (some Server.samplePairing.registration), .disconnect 0]).any fun s =>
        s.table.rooms = [(roomOf Server.samplePairing.sas, 0)] &&
          (s.table.objects 0).peers = []) = true := by
    decide +kernel
  obtain ⟨s, hrun, hs⟩ := Machine.exists_run_with hexec
  simp only [Bool.and_eq_true, decide_eq_true_eq] at hs
  have hmem : (roomOf Server.samplePairing.sas, 0) ∈ s.table.rooms := by simp [hs.1]
  exact ⟨s, hrun, ((room_life_cycle hrun).1 _ hmem).2 hs.2⟩

end RoomServer

end SmartIdVault.Signaling
