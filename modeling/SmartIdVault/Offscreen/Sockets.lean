import SmartIdVault.Offscreen.Frames
import Mathlib.Data.List.Perm.Basic

/-! The sockets of the offscreen document.  `connectSignaling` assigns a new socket to the variable
without a look at the one that is there, so what is left of it stays connected unless the variable
is empty by then. -/

namespace SmartIdVault.Offscreen

namespace Document

/-- At most one socket is not disconnected, it is the one in the variable, and no message has been
applied to the peer connection twice. -/
def OneSocket (s : Document) : Prop :=
  (∀ j, s.isLive j = true → s.socket = some j) ∧ s.applied.Nodup

/-- `connectSignaling` finds the variable empty. -/
def ConnectsAfresh (s : Document) (e : Event) : Prop := s.connects e → s.socket = none

/-- The socket in the variable is the live one, and each message is on its way, or applied, once. -/
structure Sole (g : Signaling) : Prop where
  live : ∀ j, Handles.isAlive (·.live) g.sockets j = true ↔ g.socket = some j
  nodup : (g.packets.map (·.number) ++ g.applied).Nodup
  fresh : ∀ m ∈ g.packets.map (·.number) ++ g.applied, m < g.nextNumber

variable {s t : Document} {g : Signaling} {n : Nat}

theorem sole_initial : Sole (signaling {}) where
  live j := by simp [signaling, Handles.isAlive]
  nodup := List.nodup_nil
  fresh m hm := by cases hm

theorem oneSocket_of_sole (h : Sole s.signaling) : s.OneSocket :=
  ⟨fun j hj => (h.live j).mp hj, (List.nodup_append.mp h.nodup).2.1⟩

theorem sole_newSocket (h : Sole g) (hnone : g.socket = none) : Sole g.newSocket where
  live j := by
    rw [Signaling.newSocket, Handles.isAlive_append rfl, h.live j, hnone]
    simp [eq_comm]
  nodup := h.nodup
  fresh := h.fresh

theorem not_oneSocket_of_newSocket (h : Sole s.signaling) (hsome : s.socket ≠ none)
    (ht : t.signaling = s.signaling.newSocket) : ¬t.OneSocket := by
  intro hone
  obtain ⟨j, hj⟩ := Option.ne_none_iff_exists'.mp hsome
  have hlive := (h.live j).mpr hj
  have hsockets : t.sockets = s.sockets ++ [{ code := s.sasCode }] := congrArg Signaling.sockets ht
  have hsocket : t.socket = some s.sockets.length := congrArg Signaling.socket ht
  have hvar : t.socket = some j := by
    refine hone.1 j ?_
    rw [isLive, hsockets, Handles.isAlive_append rfl]
    exact .inl hlive
  rw [hsocket, Option.some.injEq] at hvar
  exact absurd hvar (Nat.ne_of_gt (Handles.lt_of_isAlive hlive))

theorem sole_dropSocket (h : Sole g) : Sole g.dropSocket := by
  unfold Signaling.dropSocket
  split
  next => exact h
  next k hk =>
    refine ⟨fun j => ?_, h.nodup, h.fresh⟩
    rw [Handles.isAlive_kill fun _ => rfl, h.live j, hk]
    simp [eq_comm]

/-- With one live socket a message goes to none or to one. -/
theorem sole_relay {signal : Signal} {targets : List Nat} (h : Sole g) (hnodup : targets.Nodup)
    (hlive : ∀ j ∈ targets, Handles.isAlive (·.live) g.sockets j = true) :
    Sole { g with
      packets := g.packets ++ targets.map fun j =>
        { socket := j, number := g.nextNumber, signal }
      nextNumber := g.nextNumber + 1 } := by
  have hfresh (m : Nat) (hm : m ∈ g.packets.map (·.number) ++ g.applied) : m < g.nextNumber + 1 :=
    (h.fresh m hm).trans (Nat.lt_succ_self _)
  rcases targets with _ | ⟨j, _ | ⟨k, rest⟩⟩
  · refine ⟨h.live, ?_, ?_⟩
    · simpa using h.nodup
    · simpa using hfresh
  · have hperm : ((g.packets ++ [Packet.mk j g.nextNumber signal]).map (·.number) ++
        g.applied).Perm (g.nextNumber :: (g.packets.map (·.number) ++ g.applied)) := by
      rw [List.map_append, List.append_assoc]
      exact List.perm_middle
    have hnew : g.nextNumber ∉ g.packets.map (·.number) ++ g.applied := fun hm =>
      Nat.lt_irrefl _ (h.fresh _ hm)
    refine ⟨h.live, hperm.nodup_iff.mpr (List.nodup_cons.mpr ⟨hnew, h.nodup⟩), fun m hm => ?_⟩
    rcases List.mem_cons.mp (hperm.mem_iff.mp hm) with rfl | hm
    · exact Nat.lt_succ_self _
    · exact hfresh m hm
  · have hj := (h.live j).mp (hlive j (by simp))
    have hk := (h.live k).mp (hlive k (by simp))
    obtain rfl := Option.some.inj (hj.symm.trans hk)
    simp at hnodup

theorem sole_inbound {packet : Packet} (h : Sole g) (hn : g.packets[n]? = some packet) :
    Sole { g with packets := g.packets.eraseIdx n } ∧
      Sole { g with
        packets := g.packets.eraseIdx n
        applied := g.applied ++ [packet.number] } := by
  obtain ⟨hlt, hget⟩ := List.getElem?_eq_some_iff.mp hn
  have hperm : (g.packets.map (·.number) ++ g.applied).Perm
      (packet.number :: ((g.packets.eraseIdx n).map (·.number) ++ g.applied)) := by
    have h := (List.getElem_cons_eraseIdx_perm hlt).map (·.number)
    rw [hget] at h
    exact h.symm.append_right g.applied
  have hnodup := hperm.nodup_iff.mp h.nodup
  have hfresh (m : Nat)
      (hm : m ∈ packet.number :: ((g.packets.eraseIdx n).map (·.number) ++ g.applied)) :
      m < g.nextNumber := h.fresh m (hperm.mem_iff.mpr hm)
  have hlast : ((g.packets.eraseIdx n).map (·.number) ++ (g.applied ++ [packet.number])).Perm
      (packet.number :: ((g.packets.eraseIdx n).map (·.number) ++ g.applied)) := by
    rw [← List.append_assoc]
    exact List.perm_append_singleton _ _
  exact ⟨⟨h.live, hnodup.of_cons, fun m hm => hfresh m (List.mem_cons_of_mem _ hm)⟩,
    ⟨h.live, hlast.nodup_iff.mpr hnodup, fun m hm => hfresh m (hlast.mem_iff.mp hm)⟩⟩

theorem SignalingEffect.sole {e : Event} (he : SignalingEffect s e g) (h : Sole s.signaling)
    (hG : s.ConnectsAfresh e) : Sole g := by
  cases he with
  | idle => exact h
  | started | fired => exact ⟨h.live, h.nodup, h.fresh⟩
  | disconnected =>
    have hdrop := sole_dropSocket h
    exact ⟨hdrop.live, hdrop.nodup, hdrop.fresh⟩
  | connected hc => exact sole_newSocket h (hG hc)
  | relayed signal targets hnodup hlive => exact sole_relay h hnodup hlive
  | ignored n packet hn => exact (sole_inbound h hn).1
  | applied n packet hn => exact (sole_inbound h hn).2

/-- A socket that takes the place of another in the variable leaves it connected. -/
theorem not_oneSocket_of_connects {e : Event} (h : Sole s.signaling) (hG : ¬s.ConnectsAfresh e)
    (ht : s.step e = some t) : ¬t.OneSocket := by
  obtain ⟨hc, hsome⟩ : s.connects e = true ∧ s.socket ≠ none := by
    simpa [ConnectsAfresh] using hG
  cases e with
  | fetched i creds =>
    obtain ⟨task, hi, ht⟩ := Option.bind_eq_some_iff.mp ht
    refine not_oneSocket_of_newSocket h hsome ((signaling_fetched ht).trans (if_pos ?_))
    simpa [connects, hi] using hc
  | settled i ok =>
    obtain ⟨task, hi, ht⟩ := Option.bind_eq_some_iff.mp ht
    refine not_oneSocket_of_newSocket h hsome ((signaling_settle ht).trans (if_pos ?_))
    simpa [connects, hi] using hc
  | _ => cases hc

/-- The document has at most one socket that is not disconnected, the one in its variable, and
applies each message at most once, in all states of a run exactly when `connectSignaling` is called
with the variable empty throughout it. -/
theorem oneSocket_iff {es : List Event} (hrun : Machine.Run step {} es t) :
    Machine.Everywhere step OneSocket {} es ↔ Machine.Throughout step ConnectsAfresh {} es :=
  Machine.everywhere_iff_throughout (A := fun _ _ => True) hrun
    (Machine.throughout_of_forall fun _ _ _ => trivial) sole_initial
    (fun _ hs => oneSocket_of_sole hs) (fun _ _ _ hs _ hG ht => (step_signaling ht).sole hs hG)
    (fun _ _ _ hs _ hG ht => not_oneSocket_of_connects hs hG ht)

instance (s : Document) (e : Event) : Decidable (s.ConnectsAfresh e) :=
  inferInstanceAs (Decidable (s.connects e → s.socket = none))

/-- A pairing whose connection fails: the reconnect connects a second socket next to the first, and
an offer that the phone sends to the room is applied twice. -/
def failedConnection : List Event :=
  [.startPairing false [49] none none, .fetched 0 none, .connectionState 0 .failed, .fire 1,
    .fetched 1 none, .relay .sdpOffer [0, 1], .inbound 0, .inbound 0]

theorem reconnect_leaves_socket :
    ∃ t, Machine.Run step {} failedConnection t ∧
      t.isLive 0 = true ∧ t.isLive 1 = true ∧ t.applied = [0, 0] ∧ ¬t.OneSocket := by
  have hlive : (Machine.exec step {} failedConnection).any (fun t =>
      t.isLive 0 = true ∧ t.isLive 1 = true ∧ t.applied = [0, 0]) = true := by decide +kernel
  obtain ⟨t, hrun, ht⟩ := Machine.exists_run_with hlive
  obtain ⟨h0, h1, happlied⟩ := of_decide_eq_true ht
  refine ⟨t, hrun, h0, h1, happlied, ?_⟩
  intro hone
  have hnodup := hone.2
  rw [happlied] at hnodup
  simp at hnodup

/-- A pairing that is ended before the next one is started. -/
def twoPairings : List Event :=
  [.startPairing false [49] none none, .fetched 0 none, .relay .sdpOffer [0], .inbound 0,
    .disconnect, .startPairing true [50] none none, .fetched 2 none, .settled 2 true,
    .settled 2 true, .settled 2 true, .relay .sdpAnswer [1], .inbound 0]

theorem two_pairings_one_socket : Machine.Everywhere step OneSocket {} twoPairings := by
  have hrun : (Machine.exec step {} twoPairings).isSome = true := by decide +kernel
  obtain ⟨t, hrun⟩ := Machine.exists_run_of_exec hrun
  exact (oneSocket_iff hrun).mpr (by decide +kernel)

end Document

end SmartIdVault.Offscreen
