import SmartIdVault.Signaling.Lifecycle

/-! The server with room objects refines the one that keeps, of a timer, only that there is one:
each of its steps is a step of `Server` between the states that belong to its own. -/

namespace SmartIdVault.Signaling

namespace RoomTable

variable {s : RoomTable}

/-- What `Server` keeps of a room object. -/
def asRoom (s : RoomTable) (r : RoomRef) : Room :=
  ⟨(s.objects r).peers, (s.objects r).timeout.isSome⟩

def view (s : RoomTable) (roomId : Key) : Option Room := (s.rooms.lookup roomId).map s.asRoom

theorem asRoom_scheduleCleanup (s : RoomTable) (roomId : Key) (r r' : RoomRef) :
    (s.scheduleCleanup roomId r).asRoom r' =
      if r' = r then ⟨(s.asRoom r).peers, true⟩ else s.asRoom r' := by
  have hc := cleared_clearTimeout_ s r
  by_cases heq : r' = r
  · simp [asRoom, scheduleCleanup, setTimeout, hc.objects, heq]
  · simp [asRoom, scheduleCleanup, setTimeout, hc.objects, heq]

theorem asRoom_setPeers (s : RoomTable) (r r' : RoomRef) (peers : List SocketId) :
    (s.setPeers r peers).asRoom r' =
      if r' = r then ⟨peers, (s.asRoom r).timeout⟩ else s.asRoom r' := by
  by_cases heq : r' = r
  · simp [asRoom, heq]
  · simp [asRoom, heq, setPeers_objects_of_ne heq]

theorem asRoom_leaveRoom (s : RoomTable) (x : SocketId) (entry : Key × RoomRef) (r : RoomRef) :
    (s.leaveRoom x entry).asRoom r = if r = entry.2 then (s.asRoom r).leave x else s.asRoom r := by
  unfold leaveRoom
  by_cases heq : r = entry.2
  · subst heq
    have hpeers : (s.asRoom entry.2).peers = (s.objects entry.2).peers := rfl
    simp only [if_true, Room.leave, hpeers]
    split
    · split
      · rename_i hnobody
        rw [asRoom_scheduleCleanup, if_pos rfl, asRoom_setPeers, if_pos rfl]
      · rw [asRoom_setPeers, if_pos rfl]
    · rfl
  · rw [if_neg heq]
    split
    · simp only
      split
      · rw [asRoom_scheduleCleanup, if_neg heq, asRoom_setPeers, if_neg heq]
      · rw [asRoom_setPeers, if_neg heq]
    · rfl

theorem leave_leave (x : SocketId) (room : Room) : (room.leave x).leave x = room.leave x := by
  unfold Room.leave
  split
  · simp
  · rfl

theorem asRoom_foldl_leaveRoom (x : SocketId) (r : RoomRef) (entries : List (Key × RoomRef))
    (s : RoomTable) :
    (entries.foldl (fun s entry => s.leaveRoom x entry) s).asRoom r =
      if r ∈ entries.map Prod.snd then (s.asRoom r).leave x else s.asRoom r := by
  induction entries generalizing s with
  | nil => rfl
  | cons entry entries ih =>
    rw [List.foldl_cons, ih, asRoom_leaveRoom]
    simp only [List.map_cons, List.mem_cons]
    by_cases heq : r = entry.2
    · simp only [heq, if_true, true_or, leave_leave, ite_self]
    · simp only [heq, if_false, false_or]

theorem view_leave (s : RoomTable) (x : SocketId) :
    (s.leave x).view = fun roomId => (s.view roomId).map (Room.leave x) := by
  funext roomId
  rw [view, view, rooms_leave]
  cases hlookup : s.rooms.lookup roomId with
  | none => rfl
  | some r =>
    obtain ⟨l₁, l₂, heq, -⟩ := List.lookup_eq_some_iff.mp hlookup
    have hmem : r ∈ s.rooms.map Prod.snd := by rw [heq]; simp
    simp only [Option.map_some, leave, asRoom_foldl_leaveRoom, if_pos hmem]

theorem lookup_filter_ne (rooms : List (Key × RoomRef)) (roomId k : Key) :
    (rooms.filter (·.1 ≠ roomId)).lookup k = if k = roomId then none else rooms.lookup k := by
  induction rooms with
  | nil => simp
  | cons entry rooms ih =>
    obtain ⟨k', r⟩ := entry
    by_cases hk' : k' = roomId
    · rw [List.filter_cons_of_neg (by simpa using hk'), ih, List.lookup_cons]
      by_cases hk : k = roomId
      · rw [if_pos hk, if_pos hk]
      · rw [if_neg hk, if_neg hk, hk', beq_false_of_ne hk]
    · rw [List.filter_cons_of_pos (by simpa using hk'), List.lookup_cons, List.lookup_cons, ih]
      by_cases hk : k = k'
      · simp only [hk, beq_self_eq_true, if_neg hk']
      · simp only [beq_false_of_ne hk]

theorem view_fire (s : RoomTable) (i : TimerId) :
    (s.fire i).view = Function.update s.view (s.timers i).roomId none := by
  funext k
  rw [view, fire, lookup_filter_ne, Function.update_apply]
  split
  · rfl
  · rfl

theorem view_enter_of_lookup {s t : RoomTable} {roomId : Key} {r : RoomRef}
    {room : Room} (hroom : t.asRoom r = room)
    (hrooms : ∀ k, t.rooms.lookup k = if k = roomId then some r else s.rooms.lookup k)
    (hother : ∀ k r', k ≠ roomId → s.rooms.lookup k = some r' → t.asRoom r' = s.asRoom r') :
    t.view = Function.update s.view roomId (some room) := by
  funext k
  rw [view, hrooms, Function.update_apply]
  by_cases hk : k = roomId
  · rw [if_pos hk, if_pos hk, Option.map_some, hroom]
  · rw [if_neg hk, if_neg hk, view]
    cases hlookup : s.rooms.lookup k with
    | none => rfl
    | some r' => exact congrArg some (hother k r' hk hlookup)

theorem asRoom_enter (s : RoomTable) (x : SocketId) (roomId : Key) (r : RoomRef) :
    (s.enter x roomId).asRoom r =
      if r = (s.getRoom roomId).2 then
        ⟨addPeer x ((s.getRoom roomId).1.objects r).peers, false⟩
      else (s.getRoom roomId).1.asRoom r := by
  have hc := cleared_clearTimeout_ (s.getRoom roomId).1 (s.getRoom roomId).2
  rw [enter_eq, asRoom_setPeers]
  by_cases heq : r = (s.getRoom roomId).2
  · simp [asRoom, hc.objects, heq]
  · simp [asRoom, hc.objects, heq]

theorem Timed.view_enter (h : Timed s) (x : SocketId) (roomId : Key) :
    (s.enter x roomId).view =
      Function.update s.view roomId (some (Room.add x (s.view roomId))) := by
  have hrooms : (s.enter x roomId).rooms = (s.getRoom roomId).1.rooms :=
    (cleared_clearTimeout_ _ _).rooms
  cases hlookup : s.rooms.lookup roomId with
  | none =>
    refine view_enter_of_lookup (r := s.made) ?_ (fun k => ?_) fun k r' hk hr' => ?_
    · rw [asRoom_enter]
      simp [RoomTable.getRoom, hlookup, view, Room.add, addPeer]
    · rw [hrooms]
      simp only [RoomTable.getRoom, hlookup, List.lookup_append]
      by_cases hk : k = roomId
      · simp [hk, hlookup]
      · simp [hk, List.lookup_cons, beq_false_of_ne hk]
    · have hne : r' ≠ s.made := (h.made _ (h.lookup_iff.mp hr')).ne
      rw [asRoom_enter]
      simp [RoomTable.getRoom, hlookup, asRoom, hne]
  | some r =>
    refine view_enter_of_lookup (r := r) ?_ (fun k => ?_) fun k r' hk hr' => ?_
    · rw [asRoom_enter]
      simp [RoomTable.getRoom, hlookup, view, asRoom, Room.add, addPeer]
    · rw [hrooms]
      simp only [RoomTable.getRoom, hlookup]
      by_cases hk : k = roomId
      · rw [if_pos hk, hk, hlookup]
      · rw [if_neg hk]
    · have hne : r' ≠ r := by
        rintro rfl
        exact hk (congrArg Prod.fst
          (h.eq_of_ref (h.lookup_iff.mp hr') (h.lookup_iff.mp hlookup) rfl))
      rw [asRoom_enter]
      simp [RoomTable.getRoom, hlookup, hne]

end RoomTable

namespace RoomServer

/-- The state of `Server` that belongs to the one with room objects, where no device is revoked. -/
structure Refines (s : RoomServer) (t : Server) : Prop where
  rooms : t.rooms = s.table.view
  sockets : t.sockets = s.sockets
  roomMetadata : t.roomMetadata = s.roomMetadata
  pendingCredentials : t.pendingCredentials = s.pendingCredentials
  crashed : t.crashed = s.crashed
  revokedDevices : t.revokedDevices = fun _ => none

def Event.toServer (s : RoomServer) : Event → Server.Event
  | .connection handshake => .connection handshake 0
  | .registerRoom x data => .message x (.registerRoom data)
  | .joinRoom x sasCode => .message x (.joinRoom sasCode)
  | .disconnect x => .disconnect x
  | .timeout timer => .timeout (s.table.timers timer).roomId
  | .turnCredentials roomId now => .turnCredentials roomId now

variable {cfg : Config} {s s' : RoomServer} {t : Server} {e : Event}

theorem Refines.isConnected (h : Refines s t) (x : SocketId) :
    t.isConnected x = s.isConnected x ∧ t.handshake x = s.handshake x := by
  have hx : t.sockets[x]? = s.sockets[x]? := by rw [h.sockets]
  cases hs : s.sockets[x]? with
  | none | some socket =>
    rw [hs] at hx
    simp [Server.isConnected, RoomServer.isConnected, Server.handshake, RoomServer.handshake, hx,
      hs]

theorem Refines.disconnect (h : Refines s t) (x : SocketId) :
    Refines (s.disconnect x) (t.disconnect x) where
  rooms := by
    rw [RoomServer.disconnect, RoomTable.view_leave, Server.disconnect, h.rooms]
  sockets := by rw [RoomServer.disconnect, Server.disconnect, h.sockets]
  roomMetadata := h.roomMetadata
  pendingCredentials := h.pendingCredentials
  crashed := h.crashed
  revokedDevices := h.revokedDevices

theorem Refines.enter (h : Refines s t) (hs : s.table.Timed) (x : SocketId) (roomId : Key)
    (joins : List Key) :
    Refines { s with table := s.table.enter x roomId } (t.enter x roomId joins) where
  rooms := by
    rw [hs.view_enter, ← h.rooms]
    rfl
  sockets := h.sockets
  roomMetadata := h.roomMetadata
  pendingCredentials := h.pendingCredentials
  crashed := h.crashed
  revokedDevices := h.revokedDevices

theorem Refines.emit (h : Refines s t) (x : SocketId) (msg : ServerMessage) :
    Refines s (t.emit x msg) :=
  ⟨h.rooms, h.sockets, h.roomMetadata, h.pendingCredentials, h.crashed, h.revokedDevices⟩

theorem Refines.crash (h : Refines s t) :
    Refines { s with crashed := true } { t with crashed := true } :=
  ⟨h.rooms, h.sockets, h.roomMetadata, h.pendingCredentials, rfl, h.revokedDevices⟩

theorem Refines.connection (h : Refines s t) (handshake : Handshake) :
    Refines (s.addSocket handshake) (t.connection handshake 0) := by
  have hadd : Refines (s.addSocket handshake) (t.addSocket handshake) :=
    ⟨h.rooms, by rw [Server.addSocket, RoomServer.addSocket, h.sockets], h.roomMetadata,
      h.pendingCredentials, h.crashed, h.revokedDevices⟩
  have hlookup : (t.addSocket handshake).isDeviceRevoked handshake.deviceId.key 0 =
      (t.addSocket handshake, false) := by
    simp only [Server.isDeviceRevoked, hadd.revokedDevices]
  simp only [Server.connection, hlookup, ite_self]
  exact hadd

theorem Refines.registerRoom (h : Refines s t) (hs : s.table.Timed) (x : SocketId)
    (data : RegisterRoom) : Refines (s.registerRoom x data) (t.registerRoom x data) := by
  unfold RoomServer.registerRoom
  rcases Server.registerRoom_cases t x data with ⟨hno, -⟩ | ⟨hyes, heq⟩
  · rcases Server.registerRoom_refused t x hno with ⟨hthrows, heq⟩ | ⟨hthrows, message, heq⟩
    · rw [if_pos hthrows, heq]
      exact h.crash
    · rw [if_neg hthrows, if_neg (Bool.eq_false_iff.mp hno), heq]
      exact h.emit x _
  · have hthrows : checkSas data.sasCode ≠ .throws := by
      intro hthrows
      simp [RegisterRoom.accepted, hthrows] at hyes
    obtain ⟨founding, hregister⟩ := Server.register_eq t x data
    rw [if_neg hthrows, if_pos hyes, heq, hregister]
    have hmetadata : Refines
        { s with
          roomMetadata := Function.update s.roomMetadata data.roomId.key (some data.metadata) }
        { t with
          founding
          roomMetadata := Function.update t.roomMetadata data.roomId.key (some data.metadata) } :=
      ⟨h.rooms, h.sockets, by rw [h.roomMetadata], h.pendingCredentials, h.crashed,
        h.revokedDevices⟩
    exact hmetadata.enter hs x _ _

theorem Refines.joinRoom (h : Refines s t) (hs : s.table.Timed) (x : SocketId) (sasCode : JsVal) :
    Refines (s.joinRoom cfg x sasCode) (t.joinRoom cfg x sasCode) := by
  unfold RoomServer.joinRoom Server.joinRoom
  cases checkSas sasCode with
  | throws => exact h.crash
  | invalid => exact h.emit x _
  | valid text =>
    simp only
    rw [h.roomMetadata, (h.isConnected x).2]
    cases s.roomMetadata (roomOf text) with
    | none => exact (h.emit x _).disconnect x
    | some metadata =>
      simp only
      split
      · exact (h.emit x _).disconnect x
      · exact h.enter hs x _ _

theorem Refines.fire (h : Refines s t) (timer : TimerId) :
    Refines (s.fire timer) (t.cleanup (s.table.timers timer).roomId) where
  rooms := by
    rw [RoomServer.fire, RoomTable.view_fire, Server.cleanup, h.rooms]
  sockets := h.sockets
  roomMetadata := by rw [RoomServer.fire, Server.cleanup, h.roomMetadata]
  pendingCredentials := by rw [RoomServer.fire, Server.cleanup, h.pendingCredentials]
  crashed := h.crashed
  revokedDevices := h.revokedDevices

theorem Refines.turnCredentials (h : Refines s t) (roomId : Utf16) (now : Nat) :
    Refines (s.turnCredentials cfg roomId now) (t.turnCredentials cfg roomId now) := by
  unfold RoomServer.turnCredentials Server.turnCredentials
  cases Server.generateTurnCredentials cfg roomId now with
  | none => exact h
  | some credentials =>
    exact ⟨h.rooms, h.sockets, h.roomMetadata, by rw [h.pendingCredentials], h.crashed,
      h.revokedDevices⟩

/-- Where a timer is armed, `Server` has a room whose cleanup is scheduled. -/
theorem Refines.timeout (h : Refines s t) (hs : s.table.Timed) {timer : TimerId}
    (harmed : (s.table.timers timer).armed = true) :
    ∃ room, t.rooms (s.table.timers timer).roomId = some room ∧ room.timeout = true := by
  obtain ⟨hmem, htimeout⟩ := hs.armed timer harmed
  refine ⟨s.table.asRoom (s.table.timers timer).room, ?_, ?_⟩
  · rw [h.rooms, RoomTable.view, hs.lookup_iff.mpr hmem]
    rfl
  · rw [RoomTable.asRoom, htimeout]
    rfl

/-- Every step is a step of `Server`. -/
theorem Refines.step (h : Refines s t) (hs : s.table.Timed) (hstep : step cfg s e = some s') :
    ∃ t', Server.step cfg t (e.toServer s) = some t' ∧ Refines s' t' := by
  unfold RoomServer.step at hstep
  split at hstep
  · cases hstep
  rename_i hcrashed
  have hcrashed : ¬t.crashed = true := h.crashed ▸ hcrashed
  cases e with
  | connection handshake =>
    cases hstep
    exact ⟨_, if_neg hcrashed, h.connection handshake⟩
  | registerRoom x data =>
    simp only at hstep
    split at hstep
    · rename_i hx
      rw [← (h.isConnected x).1] at hx
      refine ⟨_, (if_neg hcrashed).trans (if_pos hx), ?_⟩
      cases data with
      | none =>
        cases hstep
        exact h.crash
      | some data =>
        cases hstep
        exact h.registerRoom hs x data
    · cases hstep
  | joinRoom x sasCode =>
    simp only [Option.ite_none_right_eq_some, Option.some.injEq] at hstep
    obtain ⟨hx, rfl⟩ := hstep
    rw [← (h.isConnected x).1] at hx
    exact ⟨_, (if_neg hcrashed).trans (if_pos hx), h.joinRoom hs x sasCode⟩
  | disconnect x =>
    simp only [Option.ite_none_right_eq_some, Option.some.injEq] at hstep
    obtain ⟨hx, rfl⟩ := hstep
    rw [← (h.isConnected x).1] at hx
    exact ⟨_, (if_neg hcrashed).trans (if_pos hx), h.disconnect x⟩
  | timeout timer =>
    simp only [Option.ite_none_right_eq_some, Option.some.injEq] at hstep
    obtain ⟨harmed, rfl⟩ := hstep
    obtain ⟨room, hroom, htimeout⟩ := h.timeout hs harmed
    refine ⟨_, ?_, h.fire timer⟩
    obtain ⟨peers, timeout⟩ := room
    cases htimeout
    simp only [Server.step, if_neg hcrashed, Event.toServer, hroom]
  | turnCredentials roomId now =>
    cases hstep
    exact ⟨_, if_neg hcrashed, h.turnCredentials roomId now⟩

/-- What the events of a run are to `Server`: a timer is known by its room. -/
def toServer (cfg : Config) (s : RoomServer) (es : List Event) : List Server.Event :=
  Machine.outputs (RoomServer.step cfg) (fun s e => some (e.toServer s)) s es

theorem Refines.run {es : List Event} (h : Refines s t) (hs : Cycle s) (hrun : Run cfg s es s') :
    ∃ t', Server.Run cfg t (s.toServer cfg es) t' ∧ Refines s' t' := by
  induction hrun generalizing t with
  | nil => exact ⟨t, .nil t, h⟩
  | cons hstep _ ih =>
    obtain ⟨u, hu, hrefines⟩ := h.step hs.timed hstep
    obtain ⟨t', hrun', h'⟩ := ih hrefines (hs.step hstep)
    refine ⟨t', ?_, h'⟩
    rw [toServer, Machine.outputs, hstep]
    exact .cons hu hrun'

/-- Every run is a run of `Server`, event by event, and their states belong together. -/
theorem refines_run {es : List Event} (hrun : Run cfg {} es s) :
    ∃ t, Server.Run cfg {} (toServer cfg {} es) t ∧ Refines s t :=
  Refines.run ⟨rfl, rfl, rfl, rfl, rfl, rfl⟩ cycle_empty hrun

/-- The timer of the room that the extension has left fires. -/
theorem refines_run_left : ∃ s t,
    Run Server.sampleConfig {} [.connection {},
      .registerRoom 0 (some Server.samplePairing.registration), .disconnect 0, .timeout 0] s ∧
    Server.Run Server.sampleConfig {} [.connection {} 0,
      .message 0 (.registerRoom (some Server.samplePairing.registration)), .disconnect 0,
      .timeout (roomOf Server.samplePairing.sas)] t ∧
    Refines s t := by
  have hexec : (Machine.exec (step Server.sampleConfig) {} [.connection {},
      .registerRoom 0 (some Server.samplePairing.registration), .disconnect 0,
      .timeout 0]).isSome = true := by
    decide +kernel
  have hevents : toServer Server.sampleConfig {} [.connection {},
      .registerRoom 0 (some Server.samplePairing.registration), .disconnect 0, .timeout 0] =
        [.connection {} 0, .message 0 (.registerRoom (some Server.samplePairing.registration)),
          .disconnect 0, .timeout (roomOf Server.samplePairing.sas)] := by
    decide +kernel
  obtain ⟨s, hrun⟩ := Machine.exists_run_of_exec hexec
  obtain ⟨t, ht, h⟩ := refines_run hrun
  rw [hevents] at ht
  exact ⟨s, t, hrun, ht, h⟩

end RoomServer

end SmartIdVault.Signaling
