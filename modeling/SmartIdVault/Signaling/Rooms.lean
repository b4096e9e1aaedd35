import Mathlib.Data.List.Nodup
import SmartIdVault.Signaling.Steps

/-! The rooms of the signaling server as the objects that they are: `rooms` maps ids to objects, an
object knows its timer by `timeout`, and the callback of a timer knows an id.  A timer that has been
armed stays armed until it fires or is cleared, whatever happens to the map in the meantime. -/

namespace SmartIdVault.Signaling

abbrev RoomRef := Nat
abbrev TimerId := Nat

structure RoomObject where
  peers : List SocketId := []
  timeout : Option TimerId := none
  deriving DecidableEq, Repr

/-- A timer of `scheduleCleanup`, with the arguments that it was made with.  The callback uses the
id only. -/
structure CleanupTimer where
  roomId : Key
  room : RoomRef
  armed : Bool
  deriving DecidableEq, Repr

/-- The objects made so far are those below `made`, the timers those below `scheduled`. -/
structure RoomTable where
  rooms : List (Key × RoomRef) := []
  objects : RoomRef → RoomObject := fun _ => {}
  made : Nat := 0
  timers : TimerId → CleanupTimer := fun _ => ⟨.undefined, 0, false⟩
  scheduled : Nat := 0

/-- `peers.add(x)`. -/
def addPeer (x : SocketId) (peers : List SocketId) : List SocketId :=
  if x ∈ peers then peers else peers ++ [x]

theorem addPeer_ne_nil (x : SocketId) (peers : List SocketId) : addPeer x peers ≠ [] := by
  unfold addPeer
  split
  · rename_i hmem
    exact List.ne_nil_of_mem hmem
  · simp

namespace RoomTable

def getRoom (s : RoomTable) (roomId : Key) : RoomTable × RoomRef :=
  match s.rooms.lookup roomId with
  | some room => (s, room)
  | none =>
    ({ s with
      rooms := s.rooms ++ [(roomId, s.made)]
      objects := Function.update s.objects s.made {}
      made := s.made + 1 }, s.made)

/-- `clearTimeout` on a timer. -/
def disarm (s : RoomTable) (timer : TimerId) : RoomTable :=
  { s with
    timers := Function.update s.timers timer { s.timers timer with armed := false } }

def setTimeout (s : RoomTable) (room : RoomRef) (timeout : Option TimerId) : RoomTable :=
  { s with objects := Function.update s.objects room { s.objects room with timeout } }

def setPeers (s : RoomTable) (room : RoomRef) (peers : List SocketId) : RoomTable :=
  { s with objects := Function.update s.objects room { s.objects room with peers } }

def clearTimeout_ (s : RoomTable) (room : RoomRef) : RoomTable :=
  match (s.objects room).timeout with
  | none => s
  | some timer => (s.disarm timer).setTimeout room none

def scheduleCleanup (s : RoomTable) (roomId : Key) (room : RoomRef) : RoomTable :=
  let s := s.clearTimeout_ room
  { s with
    timers := Function.update s.timers s.scheduled ⟨roomId, room, true⟩
    scheduled := s.scheduled + 1 }.setTimeout room (some s.scheduled)

/-- `getRoom`, `clearTimeout_`, `room.peers.add`, in `register-room` and `join-room`. -/
def enter (s : RoomTable) (x : SocketId) (roomId : Key) : RoomTable :=
  let (s, room) := s.getRoom roomId
  let s := s.clearTimeout_ room
  s.setPeers room (addPeer x (s.objects room).peers)

/-- The `disconnect` handler on one entry of `rooms`. -/
def leaveRoom (s : RoomTable) (x : SocketId) (entry : Key × RoomRef) : RoomTable :=
  if x ∈ (s.objects entry.2).peers then
    let peers := (s.objects entry.2).peers.filter (· ≠ x)
    let s := s.setPeers entry.2 peers
    if peers = [] then s.scheduleCleanup entry.1 entry.2 else s
  else s

def leave (s : RoomTable) (x : SocketId) : RoomTable :=
  s.rooms.foldl (fun s entry => s.leaveRoom x entry) s

/-- The callback of a timer. -/
def fire (s : RoomTable) (timer : TimerId) : RoomTable :=
  { s.disarm timer with rooms := s.rooms.filter (·.1 ≠ (s.timers timer).roomId) }

/-! ### The invariant -/

/-- The map has each id and each object once.  An armed timer is the timer of an object that is in
the map under the timer's id.  A room has a timer exactly if it has no peers, except that `pending`,
which a handler is at work on, has none. -/
structure TimedBut (pending : Option RoomRef) (s : RoomTable) : Prop where
  ids : (s.rooms.map Prod.fst).Nodup
  refs : (s.rooms.map Prod.snd).Nodup
  made : ∀ entry ∈ s.rooms, entry.2 < s.made
  scheduled : ∀ i, (s.timers i).armed = true → i < s.scheduled
  armed : ∀ i, (s.timers i).armed = true →
    ((s.timers i).roomId, (s.timers i).room) ∈ s.rooms ∧
      (s.objects (s.timers i).room).timeout = some i
  busy : ∀ entry ∈ s.rooms, (s.objects entry.2).peers ≠ [] ∨ pending = some entry.2 →
    (s.objects entry.2).timeout = none
  idle : ∀ entry ∈ s.rooms, (s.objects entry.2).peers = [] → pending ≠ some entry.2 →
    ∃ i, (s.timers i).armed = true ∧ (s.timers i).room = entry.2

def Timed (s : RoomTable) : Prop := TimedBut none s

theorem timed_empty : Timed {} where
  ids := List.nodup_nil
  refs := List.nodup_nil
  made _ h := by cases h
  scheduled _ h := by cases h
  armed _ h := by cases h
  busy _ h := by cases h
  idle _ h := by cases h

variable {s : RoomTable} {pending : Option RoomRef} {roomId : Key} {room : RoomRef} {x : SocketId}
  {i : TimerId} {peers : List SocketId}

theorem Timed.start (h : Timed s) (hpeers : (s.objects room).peers ≠ []) :
    TimedBut (some room) s where
  ids := h.ids
  refs := h.refs
  made := h.made
  scheduled := h.scheduled
  armed := h.armed
  busy entry hentry hor := by
    refine h.busy entry hentry (.inl ?_)
    rcases hor with hbusy | heq
    · exact hbusy
    · exact Option.some.inj heq ▸ hpeers
  idle entry hentry hidle _ := h.idle entry hentry hidle (fun h => by cases h)

/-- The handler is done once the room has peers. -/
theorem TimedBut.finish (h : TimedBut (some room) s) (hpeers : (s.objects room).peers ≠ []) :
    Timed s where
  ids := h.ids
  refs := h.refs
  made := h.made
  scheduled := h.scheduled
  armed := h.armed
  busy entry hentry hor := h.busy entry hentry (.inl (hor.resolve_right fun h => by cases h))
  idle entry hentry hidle _ := by
    refine h.idle entry hentry hidle fun heq => hpeers ?_
    rw [Option.some.inj heq, hidle]

theorem TimedBut.no_timer (h : TimedBut (some room) s) (hmem : (roomId, room) ∈ s.rooms) :
    (s.objects room).timeout = none := h.busy _ hmem (.inr rfl)

@[simp] theorem setPeers_objects_self :
    (s.setPeers room peers).objects room = ⟨peers, (s.objects room).timeout⟩ :=
  Function.update_self ..

theorem setPeers_objects_of_ne {r : RoomRef} (hne : r ≠ room) :
    (s.setPeers room peers).objects r = s.objects r :=
  Function.update_of_ne hne ..

theorem setPeers_timeout (r : RoomRef) :
    ((s.setPeers room peers).objects r).timeout = (s.objects r).timeout := by
  by_cases heq : r = room
  · rw [heq, setPeers_objects_self]
  · rw [setPeers_objects_of_ne heq]

theorem TimedBut.setPeers (h : TimedBut (some room) s) (peers : List SocketId) :
    TimedBut (some room) (s.setPeers room peers) where
  ids := h.ids
  refs := h.refs
  made := h.made
  scheduled := h.scheduled
  armed j hj := ⟨(h.armed j hj).1, (setPeers_timeout _).trans (h.armed j hj).2⟩
  busy entry hentry hor := by
    rw [setPeers_timeout]
    by_cases heq : some room = some entry.2
    · exact h.busy entry hentry (.inr heq)
    · rw [setPeers_objects_of_ne fun hr => heq (congrArg some hr.symm)] at hor
      exact h.busy entry hentry hor
  idle entry hentry hidle hne := by
    rw [setPeers_objects_of_ne fun hr => hne (congrArg some hr.symm)] at hidle
    exact h.idle entry hentry hidle hne

theorem clearTimeout_of_none (h : (s.objects room).timeout = none) : s.clearTimeout_ room = s := by
  simp only [clearTimeout_, h]

/-- What `clearTimeout_` does, whether the room has a timer or not. -/
structure Cleared (s t : RoomTable) (room : RoomRef) : Prop where
  rooms : t.rooms = s.rooms
  made : t.made = s.made
  scheduled : t.scheduled = s.scheduled
  objects : t.objects = Function.update s.objects room ⟨(s.objects room).peers, none⟩
  ids : ∀ i, (t.timers i).roomId = (s.timers i).roomId
  refs : ∀ i, (t.timers i).room = (s.timers i).room
  armed : ∀ i, (t.timers i).armed = true ↔
    (s.timers i).armed = true ∧ (s.objects room).timeout ≠ some i

theorem disarm_timers (s : RoomTable) (i j : TimerId) :
    ((s.disarm i).timers j).roomId = (s.timers j).roomId ∧
      ((s.disarm i).timers j).room = (s.timers j).room ∧
      (((s.disarm i).timers j).armed = true ↔ (s.timers j).armed = true ∧ i ≠ j) := by
  by_cases heq : j = i
  · subst heq
    simp [disarm]
  · simp [disarm, Function.update_of_ne heq, Ne.symm heq]

theorem cleared_clearTimeout_ (s : RoomTable) (room : RoomRef) :
    Cleared s (s.clearTimeout_ room) room := by
  cases htimeout : (s.objects room).timeout with
  | none =>
    have hsame : ⟨(s.objects room).peers, none⟩ = s.objects room := by rw [← htimeout]
    rw [clearTimeout_of_none htimeout]
    refine ⟨rfl, rfl, rfl, ?_, fun _ => rfl, fun _ => rfl, fun i => by simp [htimeout]⟩
    rw [hsame, Function.update_eq_self]
  | some timer =>
    simp only [clearTimeout_, htimeout]
    refine ⟨rfl, rfl, rfl, rfl, fun i => (disarm_timers s timer i).1,
      fun i => (disarm_timers s timer i).2.1, fun i => ?_⟩
    rw [htimeout, ne_eq, Option.some.injEq]
    exact (disarm_timers s timer i).2.2

/-- The timer that a room knows is armed, and its own. -/
theorem Timed.armed_of_timeout (h : Timed s) (hmem : (roomId, room) ∈ s.rooms)
    (htimeout : (s.objects room).timeout = some i) :
    (s.timers i).armed = true ∧ (s.timers i).room = room := by
  by_cases hpeers : (s.objects room).peers = []
  · obtain ⟨j, harmed, hroom⟩ := h.idle _ hmem hpeers (fun h => by cases h)
    have hj := (h.armed j harmed).2
    rw [hroom] at hj
    cases hj.symm.trans htimeout
    exact ⟨harmed, hroom⟩
  · rw [h.busy _ hmem (.inl hpeers)] at htimeout
    cases htimeout

theorem Timed.clearTimeout_ (h : Timed s) (hmem : (roomId, room) ∈ s.rooms) :
    TimedBut (some room) (s.clearTimeout_ room) := by
  have hc := cleared_clearTimeout_ s room
  have hother {r : RoomRef} (hne : r ≠ room) :
      (s.clearTimeout_ room).objects r = s.objects r := by
    rw [hc.objects, Function.update_of_ne hne]
  refine ⟨hc.rooms ▸ h.ids, hc.rooms ▸ h.refs, ?_, ?_, ?_, ?_, ?_⟩
  · intro entry hentry
    exact hc.made ▸ h.made entry (hc.rooms ▸ hentry)
  · intro j hj
    exact hc.scheduled ▸ h.scheduled j ((hc.armed j).mp hj).1
  · intro j hj
    obtain ⟨hold, hne⟩ := (hc.armed j).mp hj
    obtain ⟨hentry, htimeout⟩ := h.armed j hold
    rw [hc.ids, hc.refs, hc.rooms, hother fun heq => hne (heq ▸ htimeout)]
    exact ⟨hentry, htimeout⟩
  · intro entry hentry hor
    by_cases heq : entry.2 = room
    · rw [heq, hc.objects, Function.update_self]
    · rw [hother heq] at hor ⊢
      refine h.busy entry (hc.rooms ▸ hentry) (.inl (hor.resolve_right fun h => heq ?_))
      exact (Option.some.inj h).symm
  · intro entry hentry hidle hne
    have hne : entry.2 ≠ room := fun heq => hne (congrArg some heq.symm)
    rw [hother hne] at hidle
    obtain ⟨j, harmed, hroom⟩ := h.idle entry (hc.rooms ▸ hentry) hidle (fun h => by cases h)
    refine ⟨j, (hc.armed j).mpr ⟨harmed, fun htimeout => hne ?_⟩, (hc.refs j).trans hroom⟩
    exact hroom.symm.trans (h.armed_of_timeout hmem htimeout).2

theorem TimedBut.scheduleCleanup (h : TimedBut (some room) s) (hmem : (roomId, room) ∈ s.rooms)
    (hpeers : (s.objects room).peers = []) : Timed (s.scheduleCleanup roomId room) := by
  have hnone := h.no_timer hmem
  have hother {j : TimerId} (hj : (s.timers j).armed = true) :
      j ≠ s.scheduled ∧ (s.timers j).room ≠ room := by
    refine ⟨(h.scheduled j hj).ne, fun heq => ?_⟩
    have htimeout := (h.armed j hj).2
    rw [heq, hnone] at htimeout
    cases htimeout
  have htimer (j : TimerId) : (s.scheduleCleanup roomId room).timers j =
      if j = s.scheduled then ⟨roomId, room, true⟩ else s.timers j := by
    rw [RoomTable.scheduleCleanup, clearTimeout_of_none hnone]
    exact Function.update_apply ..
  have hobject (r : RoomRef) : (s.scheduleCleanup roomId room).objects r =
      if r = room then ⟨[], some s.scheduled⟩ else s.objects r := by
    rw [RoomTable.scheduleCleanup, clearTimeout_of_none hnone, ← hpeers]
    exact Function.update_apply ..
  have hsame : (s.scheduleCleanup roomId room).rooms = s.rooms ∧
      (s.scheduleCleanup roomId room).made = s.made ∧
      (s.scheduleCleanup roomId room).scheduled = s.scheduled + 1 := by
    rw [RoomTable.scheduleCleanup, clearTimeout_of_none hnone]
    exact ⟨rfl, rfl, rfl⟩
  obtain ⟨hrooms, hmade, hscheduled⟩ := hsame
  refine ⟨hrooms ▸ h.ids, hrooms ▸ h.refs, by rw [hrooms, hmade]; exact h.made, ?_, ?_, ?_, ?_⟩
  · intro j hj
    rw [htimer] at hj
    rw [hscheduled]
    split at hj
    · rename_i heq
      exact heq ▸ Nat.lt_succ_self _
    · exact (h.scheduled j hj).trans (Nat.lt_succ_self _)
  · intro j hj
    rw [htimer] at hj ⊢
    rw [hrooms, hobject]
    split at hj
    · rename_i heq
      rw [if_pos heq, if_pos rfl, heq]
      exact ⟨hmem, rfl⟩
    · rename_i hne
      rw [if_neg hne, if_neg (hother hj).2]
      exact h.armed j hj
  · intro entry hentry hor
    rw [hrooms] at hentry
    rw [hobject] at hor ⊢
    split at hor
    · cases hor.resolve_left fun h => h rfl
    · rename_i hne
      rw [if_neg hne]
      exact h.busy entry hentry (.inl (hor.resolve_right fun h => by cases h))
  · intro entry hentry hidle _
    rw [hrooms] at hentry
    rw [hobject] at hidle
    split at hidle
    · rename_i heq
      exact ⟨s.scheduled, by rw [htimer, if_pos rfl], by rw [htimer, if_pos rfl, heq]⟩
    · rename_i hne
      obtain ⟨j, hj, hroom⟩ := h.idle entry hentry hidle fun heq => hne (Option.some.inj heq).symm
      refine ⟨j, ?_, ?_⟩
      all_goals rw [htimer, if_neg (hother hj).1]
      · exact hj
      · exact hroom

theorem Timed.getRoom (h : Timed s) (hnew : s.rooms.lookup roomId = none) :
    TimedBut (some s.made) (s.getRoom roomId).1 := by
  have hid : roomId ∉ s.rooms.map Prod.fst := by
    intro hmem
    obtain ⟨entry, hentry, rfl⟩ := List.mem_map.mp hmem
    simpa using List.lookup_eq_none_iff.mp hnew entry hentry
  have hne {entry : Key × RoomRef} (hentry : entry ∈ s.rooms) : entry.2 ≠ s.made :=
    (h.made entry hentry).ne
  have hobject (r : RoomRef) : (s.getRoom roomId).1.objects r =
      if r = s.made then {} else s.objects r := by
    simp only [RoomTable.getRoom, hnew]
    exact Function.update_apply ..
  have hsame : (s.getRoom roomId).1.rooms = s.rooms ++ [(roomId, s.made)] ∧
      (s.getRoom roomId).1.made = s.made + 1 ∧ (s.getRoom roomId).1.timers = s.timers ∧
      (s.getRoom roomId).1.scheduled = s.scheduled := by
    simp only [RoomTable.getRoom, hnew, and_self]
  obtain ⟨hrooms, hmade, htimers, hscheduled⟩ := hsame
  refine ⟨?_, ?_, ?_, by rw [htimers, hscheduled]; exact h.scheduled, ?_, ?_, ?_⟩
  · rw [hrooms, List.map_append, List.map_singleton, ← List.concat_eq_append]
    exact h.ids.concat hid
  · rw [hrooms, List.map_append, List.map_singleton, ← List.concat_eq_append]
    refine h.refs.concat fun hmem => ?_
    obtain ⟨entry, hentry, heq⟩ := List.mem_map.mp hmem
    exact hne hentry heq
  · intro entry hentry
    rw [hmade]
    rcases List.mem_append.mp (hrooms ▸ hentry) with hold | hlast
    · exact (h.made entry hold).trans (Nat.lt_succ_self _)
    · rw [List.mem_singleton.mp hlast]
      exact Nat.lt_succ_self _
  · intro j hj
    rw [htimers] at hj ⊢
    obtain ⟨hentry, htimeout⟩ := h.armed j hj
    rw [hrooms, hobject, if_neg (hne hentry)]
    exact ⟨List.mem_append_left _ hentry, htimeout⟩
  · intro entry hentry hor
    rw [hobject] at hor ⊢
    split
    · rfl
    · rename_i hother
      rw [if_neg hother] at hor
      have hold := hor.resolve_right fun heq => hother (Option.some.inj heq).symm
      rcases List.mem_append.mp (hrooms ▸ hentry) with hentry | hlast
      · exact h.busy entry hentry (.inl hold)
      · exact absurd (congrArg Prod.snd (List.mem_singleton.mp hlast)) hother
  · intro entry hentry hidle hpending
    have hother : entry.2 ≠ s.made := fun heq => hpending (congrArg some heq.symm)
    rw [hobject, if_neg hother] at hidle
    rw [htimers]
    rcases List.mem_append.mp (hrooms ▸ hentry) with hentry | hlast
    · exact h.idle entry hentry hidle (fun h => by cases h)
    · exact absurd (congrArg Prod.snd (List.mem_singleton.mp hlast)) hother

/-- The map has one entry of an id. -/
theorem TimedBut.eq_of_id (h : TimedBut pending s) {entry entry' : Key × RoomRef}
    (hmem : entry ∈ s.rooms) (hmem' : entry' ∈ s.rooms) (hid : entry.1 = entry'.1) :
    entry = entry' :=
  List.inj_on_of_nodup_map h.ids hmem hmem' hid

theorem TimedBut.eq_of_ref (h : TimedBut pending s) {entry entry' : Key × RoomRef}
    (hmem : entry ∈ s.rooms) (hmem' : entry' ∈ s.rooms) (href : entry.2 = entry'.2) :
    entry = entry' :=
  List.inj_on_of_nodup_map h.refs hmem hmem' href

theorem mem_fire {entry : Key × RoomRef} :
    entry ∈ (s.fire i).rooms ↔ entry ∈ s.rooms ∧ entry.1 ≠ (s.timers i).roomId := by
  simp [fire]

/-- An armed timer belongs to a room without peers. -/
theorem Timed.peers_of_armed (h : Timed s) (hi : (s.timers i).armed = true) :
    (s.objects (s.timers i).room).peers = [] := by
  by_contra hpeers
  obtain ⟨hmem, htimeout⟩ := h.armed i hi
  rw [h.busy _ hmem (.inl hpeers)] at htimeout
  cases htimeout

theorem Timed.armed_unique (h : Timed s) {j : TimerId} (hi : (s.timers i).armed = true)
    (hj : (s.timers j).armed = true) (hroom : (s.timers i).room = (s.timers j).room) : i = j := by
  have htimeout := (h.armed i hi).2
  rw [hroom, (h.armed j hj).2] at htimeout
  exact (Option.some.inj htimeout).symm

/-- A timer that fires takes the entry of its object away and no other. -/
theorem Timed.mem_fire_iff (h : Timed s) (hi : (s.timers i).armed = true)
    {entry : Key × RoomRef} :
    entry ∈ (s.fire i).rooms ↔ entry ∈ s.rooms ∧ entry.2 ≠ (s.timers i).room := by
  have hmem := (h.armed i hi).1
  rw [mem_fire]
  refine and_congr_right fun hentry => not_congr ⟨fun hid => ?_, fun href => ?_⟩
  · exact congrArg Prod.snd (h.eq_of_id hentry hmem hid)
  · exact congrArg Prod.fst (h.eq_of_ref hentry hmem href)

theorem Timed.fire (h : Timed s) (hi : (s.timers i).armed = true) : Timed (s.fire i) := by
  refine ⟨h.ids.sublist (List.filter_sublist.map _), h.refs.sublist (List.filter_sublist.map _),
    ?_, ?_, ?_, ?_, ?_⟩
  · intro entry hentry
    exact h.made entry (mem_fire.mp hentry).1
  · intro j hj
    exact h.scheduled j ((disarm_timers s i j).2.2.mp hj).1
  · intro j hj
    obtain ⟨hid, hroom, harmed⟩ := disarm_timers s i j
    obtain ⟨hold, hne⟩ := harmed.mp hj
    obtain ⟨hentry, htimeout⟩ := h.armed j hold
    obtain ⟨hentry', htimeout'⟩ := h.armed i hi
    rw [RoomTable.fire, hid, hroom]
    refine ⟨mem_fire.mpr ⟨hentry, fun heq => hne ?_⟩, htimeout⟩
    -- a second timer of the id would be another timeout of the same object
    rw [← (Prod.mk.inj (h.eq_of_id hentry hentry' heq)).2, htimeout] at htimeout'
    exact (Option.some.inj htimeout').symm
  · intro entry hentry hor
    exact h.busy entry (mem_fire.mp hentry).1 (.inl (hor.resolve_right fun h => by cases h))
  · intro entry hentry hidle _
    obtain ⟨hentry, hne⟩ := mem_fire.mp hentry
    obtain ⟨j, hj, hroom⟩ := h.idle entry hentry hidle (fun h => by cases h)
    obtain ⟨-, hroom', harmed⟩ := disarm_timers s i j
    refine ⟨j, harmed.mpr ⟨hj, ?_⟩, hroom'.trans hroom⟩
    rintro rfl
    exact hne (congrArg Prod.fst (h.eq_of_ref hentry (h.armed i hi).1 hroom.symm))

theorem TimedBut.lookup_iff (h : TimedBut pending s) :
    s.rooms.lookup roomId = some room ↔ (roomId, room) ∈ s.rooms := by
  constructor
  · intro hlookup
    obtain ⟨l₁, l₂, heq, -⟩ := List.lookup_eq_some_iff.mp hlookup
    rw [heq]
    simp
  · intro hmem
    have hsome : (s.rooms.lookup roomId).isSome = true :=
      List.lookup_isSome_iff.mpr ⟨_, hmem, by simp⟩
    obtain ⟨room', hlookup⟩ := Option.isSome_iff_exists.mp hsome
    obtain ⟨l₁, l₂, heq, -⟩ := List.lookup_eq_some_iff.mp hlookup
    have hmem' : (roomId, room') ∈ s.rooms := by rw [heq]; simp
    rw [hlookup, (Prod.mk.inj (h.eq_of_id hmem' hmem rfl)).2]

theorem enter_eq (s : RoomTable) (x : SocketId) (roomId : Key) :
    s.enter x roomId =
      ((s.getRoom roomId).1.clearTimeout_ (s.getRoom roomId).2).setPeers (s.getRoom roomId).2
        (addPeer x (((s.getRoom roomId).1.clearTimeout_ (s.getRoom roomId).2).objects
          (s.getRoom roomId).2).peers) := rfl

theorem Timed.enter (h : Timed s) (x : SocketId) (roomId : Key) : Timed (s.enter x roomId) := by
  have hcleared : TimedBut (some (s.getRoom roomId).2)
      ((s.getRoom roomId).1.clearTimeout_ (s.getRoom roomId).2) := by
    cases hlookup : s.rooms.lookup roomId with
    | none =>
      have hnew := h.getRoom hlookup
      have hroom : (s.getRoom roomId).2 = s.made ∧
          ((s.getRoom roomId).1.objects s.made).timeout = none := by
        simp [RoomTable.getRoom, hlookup]
      rw [hroom.1, clearTimeout_of_none hroom.2]
      exact hnew
    | some room =>
      simp only [RoomTable.getRoom, hlookup]
      exact h.clearTimeout_ (h.lookup_iff.mp hlookup)
  rw [enter_eq]
  refine (hcleared.setPeers _).finish ?_
  rw [setPeers_objects_self]
  exact addPeer_ne_nil _ _

theorem Timed.leaveRoom (h : Timed s) (x : SocketId) (hmem : (roomId, room) ∈ s.rooms) :
    Timed (s.leaveRoom x (roomId, room)) := by
  unfold RoomTable.leaveRoom
  split
  · rename_i hx
    have hset := (h.start (List.ne_nil_of_mem hx)).setPeers
      ((s.objects room).peers.filter (· ≠ x))
    simp only
    split
    · rename_i hnobody
      refine hset.scheduleCleanup hmem ?_
      rw [setPeers_objects_self, hnobody]
    · rename_i hsomebody
      refine hset.finish ?_
      rwa [setPeers_objects_self]
  · exact h

theorem rooms_leaveRoom (s : RoomTable) (x : SocketId) (entry : Key × RoomRef) :
    (s.leaveRoom x entry).rooms = s.rooms := by
  unfold leaveRoom
  split
  · simp only
    split
    · exact (cleared_clearTimeout_ _ _).rooms
    · rfl
  · rfl

/-- The rounds of the `disconnect` handler, over entries of the map. -/
theorem Timed.foldl_leaveRoom (h : Timed s) (x : SocketId) {entries : List (Key × RoomRef)}
    (hsub : ∀ entry ∈ entries, entry ∈ s.rooms) :
    Timed (entries.foldl (fun s entry => s.leaveRoom x entry) s) := by
  induction entries generalizing s with
  | nil => exact h
  | cons entry entries ih =>
    refine ih (h.leaveRoom x (hsub entry (List.mem_cons_self ..))) fun entry' hentry' => ?_
    rw [rooms_leaveRoom]
    exact hsub entry' (List.mem_cons_of_mem _ hentry')

theorem Timed.leave (h : Timed s) (x : SocketId) : Timed (s.leave x) :=
  h.foldl_leaveRoom x fun _ hentry => hentry

theorem rooms_leave (s : RoomTable) (x : SocketId) : (s.leave x).rooms = s.rooms := by
  have hfold (entries : List (Key × RoomRef)) (t : RoomTable) :
      (entries.foldl (fun s entry => s.leaveRoom x entry) t).rooms = t.rooms := by
    induction entries generalizing t with
    | nil => rfl
    | cons entry entries ih => exact (ih _).trans (rooms_leaveRoom t x entry)
  exact hfold s.rooms s

/-- The map after `enter` has what it had, and an entry of the id. -/
theorem rooms_enter (s : RoomTable) (x : SocketId) (roomId : Key) :
    (∀ entry ∈ s.rooms, entry ∈ (s.enter x roomId).rooms) ∧
      ∃ room, (roomId, room) ∈ (s.enter x roomId).rooms := by
  have hrooms : (s.enter x roomId).rooms = (s.getRoom roomId).1.rooms :=
    (cleared_clearTimeout_ _ _).rooms
  rw [hrooms]
  cases hlookup : s.rooms.lookup roomId with
  | none =>
    simp only [getRoom, hlookup]
    exact ⟨fun _ h => List.mem_append_left _ h, s.made, by simp⟩
  | some room =>
    obtain ⟨l₁, l₂, heq, -⟩ := List.lookup_eq_some_iff.mp hlookup
    simp only [getRoom, hlookup]
    exact ⟨fun _ h => h, room, by rw [heq]; simp⟩

end RoomTable

end SmartIdVault.Signaling
