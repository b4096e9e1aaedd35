import SmartIdVault.Backpressure.Queue

/-! One backpressure queue over several data channels.  An item does not remember the channel of
its send call: it goes to the channel of the drain that runs, and it is rejected by the close
listener of any drain that has not ended.  Each payload stays on its own channel as long as a send
that joins a drain is for that drain's channel, and the close listener of a drain that is not the
current one finds only items of its own. -/

namespace SmartIdVault.Backpressure

variable (highWaterMark drainThreshold : Int)

namespace BackpressureQueue

/-- Send call `id` was for channel `dc`. -/
def CalledOn (s : BackpressureQueue) (id dc : Nat) : Prop := ∃ c ∈ s.calls[id]?, c.dc = dc

instance (s : BackpressureQueue) (id dc : Nat) : Decidable (s.CalledOn id dc) :=
  decidable_of_iff (s.calls[id]?.any (·.dc = dc) = true) (by simp [CalledOn, Option.any_eq_true])

/-- Each payload is passed only to the channel of its own call, and rejected as closed only by the
close event of that channel. -/
structure Isolated (s : BackpressureQueue) : Prop where
  passed : ∀ p ∈ s.passed, s.CalledOn p.id p.dc
  closed : ∀ x ∈ s.settled, x.outcome = .rejected dcClosed →
    ∃ dc ∈ x.closed, s.CalledOn x.id dc

/-- A send that joins the current drain is for its channel, and the close listener of an older drain
finds only items of its own channel. -/
def KeepsChannel (s : BackpressureQueue) : QueueEvent → Prop
  | .send payload dc reading _ => s.Queues highWaterMark payload reading →
      ∀ d ∈ s.drains, d.phase ≠ .done → d.gen = s.drainGeneration → d.dc = dc
  | .onClose i => ∀ d ∈ s.drains[i]?, d.gen ≠ s.drainGeneration →
      ∀ item ∈ s.queue, s.CalledOn item.id d.dc
  | _ => True

instance (s : BackpressureQueue) : (e : QueueEvent) → Decidable (s.KeepsChannel highWaterMark e)
  | .send payload dc reading _ => inferInstanceAs (Decidable (
      s.Queues highWaterMark payload reading →
        ∀ d ∈ s.drains, d.phase ≠ .done → d.gen = s.drainGeneration → d.dc = dc))
  | .onClose i => inferInstanceAs (Decidable (∀ d ∈ s.drains[i]?, d.gen ≠ s.drainGeneration →
      ∀ item ∈ s.queue, s.CalledOn item.id d.dc))
  | .clear | .finish _ | .resume _ _ => isTrue trivial

/-- The items in the queue are for the channel of the current drain. -/
structure OneChannel (s : BackpressureQueue) : Prop extends Isolated s where
  current : ∀ d ∈ s.drains, d.phase ≠ .done → d.gen = s.drainGeneration →
    ∀ item ∈ s.queue, s.CalledOn item.id d.dc

variable {highWaterMark drainThreshold} {s t : BackpressureQueue}

theorem CalledOn.called {id dc : Nat} (h : s.CalledOn id dc) (payload : Uint8Array) (dc' : Nat) :
    (s.called payload dc').CalledOn id dc := by
  obtain ⟨c, hc, hdc⟩ := h
  exact ⟨c, Tasks.get_append_of_get hc _, hdc⟩

theorem calledOn_self (s : BackpressureQueue) (payload : Uint8Array) (dc : Nat) :
    (s.called payload dc).CalledOn s.calls.length dc :=
  ⟨_, Tasks.append_self _ _, rfl⟩

namespace Isolated

theorem init : Isolated {} := ⟨by simp, by simp⟩

theorem called (h : Isolated s) (payload : Uint8Array) (dc : Nat) :
    Isolated (s.called payload dc) where
  passed p hp := (h.passed p hp).called payload dc
  closed x hx hout := by
    obtain ⟨dc', hdc', hon⟩ := h.closed x hx hout
    exact ⟨dc', hdc', hon.called payload dc⟩

theorem settle (h : Isolated s) (id : Nat) {outcome : Outcome}
    (hne : outcome ≠ .rejected dcClosed) : Isolated (s.settle id outcome) where
  passed := h.passed
  closed x hx hout := by
    rcases List.mem_append.mp hx with hx | hx
    · exact h.closed x hx hout
    · rw [List.mem_singleton.mp hx] at hout
      exact absurd hout hne

theorem dcSend (h : Isolated s) {id dc : Nat} (hon : s.CalledOn id dc) (payload : Uint8Array)
    (thrown : Option Thrown) (message : Thrown → String) :
    Isolated (s.dcSend id payload dc thrown message) := by
  have hpassed : Isolated { s with passed := s.passed ++ [⟨id, dc, payload.slice, thrown⟩] } := by
    refine ⟨fun p hp => ?_, h.closed⟩
    rcases List.mem_append.mp hp with hp | hp
    · exact h.passed p hp
    · rw [List.mem_singleton.mp hp]
      exact hon
  cases thrown with
  | none => exact hpassed.settle id Outcome.noConfusion
  | some err =>
    refine hpassed.settle id fun heq => ?_
    have hcode : "SEND_FAILED" ≠ dcClosed.code := by decide
    exact hcode (congrArg ExtensionError.code (Outcome.rejected.inj heq))

theorem rejectAll (h : Isolated s) {err : ExtensionError} {closed : Option Nat}
    (hon : err = dcClosed → ∀ item ∈ s.queue, ∃ dc ∈ closed, s.CalledOn item.id dc) :
    Isolated (s.rejectAll err closed) where
  passed := h.passed
  closed x hx hout := by
    rcases List.mem_append.mp hx with hx | hx
    · exact h.closed x hx hout
    · obtain ⟨item, hitem, rfl⟩ := List.mem_map.mp hx
      exact hon (Outcome.rejected.inj hout) item hitem

end Isolated

namespace OneChannel

theorem init : OneChannel {} := ⟨.init, by simp⟩

/-- A loop of the current drain passes what is for its channel. -/
theorem runDrain {i : Nat} {turns : List Turn} (h : OneChannel s)
    (hrun : s.runDrain drainThreshold i turns = some t) : OneChannel t := by
  obtain ⟨d, u, phase, hd, hwoken, hloop, rfl⟩ := runDrain_eq hrun
  have hu := (drainLoop_induct (I := fun u => OneChannel u ∧ u.drains = s.drains) hloop ⟨h, rfl⟩
    ?_).1
  · refine ⟨⟨hu.1.passed, hu.1.closed⟩, ?_⟩
    intro e he hne hgen item hitem
    rcases Tasks.mem_set he with rfl | ⟨j, -, hj⟩
    · exact hu.1.current d (hu.2 ▸ List.mem_of_getElem? hd) (hwoken ▸ Phase.noConfusion) hgen item
        hitem
    · exact hu.1.current e (List.mem_of_getElem? hj) hne hgen item hitem
  · rintro u item rest thrown ⟨hu, hdrains⟩ hq hgen
    have hmem : d ∈ u.drains := hdrains ▸ List.mem_of_getElem? hd
    have hon : u.CalledOn item.id d.dc :=
      hu.current d hmem (hwoken ▸ Phase.noConfusion) hgen item
        (by rw [hq]; exact List.mem_cons_self ..)
    have hsent := Isolated.dcSend
      (s := { u with queue := rest, pendingBytes := u.pendingBytes - item.payload.byteLength })
      ⟨hu.passed, hu.closed⟩ hon item.payload thrown Thrown.drained
    have hrest : ∀ e ∈ u.drains, e.phase ≠ .done → e.gen = u.drainGeneration →
        ∀ item ∈ rest, u.CalledOn item.id e.dc := by
      intro e he hne hegen item' hitem'
      exact hu.current e he hne hegen item' (by rw [hq]; exact List.mem_cons_of_mem _ hitem')
    cases thrown with
    | none => exact ⟨⟨hsent, hrest⟩, hdrains⟩
    | some err => exact ⟨⟨hsent, hrest⟩, hdrains⟩

theorem enqueue (h : OneChannel s) (payload : Uint8Array) {dc : Nat}
    (hdc : ∀ d ∈ s.drains, d.phase ≠ .done → d.gen = s.drainGeneration → d.dc = dc) :
    OneChannel ((s.called payload dc).enqueue s.calls.length payload) := by
  have hcalled := h.toIsolated.called payload dc
  refine ⟨⟨hcalled.passed, hcalled.closed⟩, ?_⟩
  intro d hd hne hgen item hitem
  rcases List.mem_append.mp hitem with hitem | hitem
  · exact (h.current d hd hne hgen item hitem).called payload dc
  · rw [List.mem_singleton.mp hitem, hdc d hd hne hgen]
    exact calledOn_self s payload dc

/-- A payload that is alone in the queue starts a drain of its own channel. -/
theorem started (h : OneChannel s) (hd : Drains s) (hidle : s.draining = false)
    (payload : Uint8Array) (dc : Nat) :
    OneChannel (((s.called payload dc).enqueue s.calls.length payload).addDrain dc) := by
  have hcalled := h.toIsolated.called payload dc
  have hempty : s.queue = [] := by
    by_contra hne
    rw [hd.nonempty hne] at hidle
    cases hidle
  refine ⟨⟨hcalled.passed, hcalled.closed⟩, ?_⟩
  intro d hmem hne hgen item hitem
  have hitem' : item ∈ s.queue ++ [⟨s.calls.length, payload⟩] := hitem
  rw [hempty, List.nil_append, List.mem_singleton] at hitem'
  have hgen' : d.gen = s.drainGeneration + 1 := hgen
  rw [hitem']
  rcases List.mem_append.mp hmem with hmem | hmem
  · have hle := hd.bound d hmem
    omega
  · rw [List.mem_singleton.mp hmem]
    exact calledOn_self s payload dc

theorem finish {i : Nat} (h : OneChannel s) (hfinish : s.finish i = some t) : OneChannel t := by
  obtain ⟨d, hd, hwaiting, rfl⟩ := finish_eq hfinish
  refine ⟨⟨h.passed, h.closed⟩, ?_⟩
  intro e he hne hgen item hitem
  rcases Tasks.mem_set he with rfl | ⟨j, -, hj⟩
  · exact h.current d (List.mem_of_getElem? hd) (hwaiting ▸ Phase.noConfusion) hgen item hitem
  · exact h.current e (List.mem_of_getElem? hj) hne hgen item hitem

theorem step {e : QueueEvent} (h : OneChannel s) (hd : Drains s)
    (hkeep : s.KeepsChannel highWaterMark e)
    (hs : step highWaterMark drainThreshold s e = some t) : OneChannel t := by
  cases e with
  | send payload dc reading turns =>
    rcases send_cases hs with rfl | ⟨hqueues, -, rfl⟩ | ⟨hidle, hrun⟩ | ⟨hempty, rfl⟩
    · refine ⟨(h.toIsolated.called payload dc).settle _ ?_, ?_⟩
      · decide
      · intro d hmem hne hgen item hitem
        exact (h.current d hmem hne hgen item hitem).called payload dc
    · exact h.enqueue payload (hkeep hqueues)
    · exact (h.started hd hidle payload dc).runDrain hrun
    · have hsent := (h.toIsolated.called payload dc).dcSend (calledOn_self s payload dc) payload
        reading.thrown Thrown.direct
      refine ⟨hsent, ?_⟩
      intro d hmem hne hgen item hitem
      rw [dcSend_queue] at hitem
      exact absurd (hempty ▸ hitem : item ∈ []) List.not_mem_nil
  | clear =>
    obtain rfl := Option.some.inj hs
    have hne : queueCleared ≠ dcClosed := by decide
    have hall : Isolated (s.rejectAll queueCleared none) :=
      h.toIsolated.rejectAll fun heq => absurd heq hne
    exact ⟨⟨hall.passed, hall.closed⟩, fun _ _ _ _ item hitem => absurd hitem List.not_mem_nil⟩
  | onClose i =>
    obtain ⟨d, hdrain, halive, rfl⟩ := onClose_eq hs
    have hon : ∀ item ∈ s.queue, s.CalledOn item.id d.dc := by
      by_cases hgen : d.gen = s.drainGeneration
      · exact h.current d (List.mem_of_getElem? hdrain) halive hgen
      · exact hkeep d hdrain hgen
    exact ⟨h.toIsolated.rejectAll fun _ item hitem => ⟨d.dc, rfl, hon item hitem⟩,
      fun _ _ _ _ item hitem => absurd hitem List.not_mem_nil⟩
  | finish i => exact h.finish hs
  | resume i turns => exact h.runDrain hs

end OneChannel

/-- In every run in which no send joins a drain of another channel, and no close listener of an older
drain finds an item of another channel, each payload stays on its own channel. -/
theorem isolated_of_keepsChannel {es : List QueueEvent}
    (hrun : Run highWaterMark drainThreshold {} es s)
    (hkeep : Machine.Throughout (BackpressureQueue.step highWaterMark drainThreshold)
      (KeepsChannel highWaterMark) {} es) : s.Isolated := by
  have h : OneChannel s ∧ Drains s := by
    refine hrun.invariant (I := fun s => OneChannel s ∧ Drains s) ⟨.init, .init⟩ hkeep ?_
    intro s e t hs hk hstep
    exact ⟨hs.1.step hs.2 hk hstep, hs.2.step hstep⟩
  exact h.1.toIsolated

/-- Two channels in turn, each with its own drain. -/
def changedRun : List QueueEvent :=
  [.send samplePayload 0 ⟨true, 102400, none⟩ [⟨102400, none⟩], .finish 0, .resume 0 [⟨0, none⟩],
    .send samplePayload 1 ⟨true, 102400, none⟩ [⟨102400, none⟩], .onClose 1]

theorem isolated_of_keepsChannel_changed : ∃ s, Run 65536 32768 {} changedRun s ∧
    s.passed.map (·.dc) = [0] ∧ s.settled.map (·.closed) = [none, some 1] ∧ s.Isolated := by
  obtain ⟨s, hrun, hs⟩ : ∃ s, Run 65536 32768 {} changedRun s ∧
      (decide (s.passed.map (·.dc) = [0]) &&
        decide (s.settled.map (·.closed) = [none, some 1])) = true :=
    Machine.exists_run_with (by decide +kernel)
  rw [Bool.and_eq_true, decide_eq_true_iff, decide_eq_true_iff] at hs
  exact ⟨s, hrun, hs.1, hs.2, isolated_of_keepsChannel hrun (by decide +kernel)⟩

/-- A payload for channel 1 joins the drain of channel 0. -/
def joinedRun : List QueueEvent :=
  [.send samplePayload 0 ⟨true, 102400, none⟩ [⟨102400, none⟩],
    .send samplePayload 1 ⟨true, 0, none⟩ [], .finish 0, .resume 0 [⟨0, none⟩, ⟨2, none⟩]]

/-- Channel 0 closes while a cleared drain of it still waits, and the queue is that of channel 1. -/
def staleRun : List QueueEvent :=
  [.send samplePayload 0 ⟨true, 102400, none⟩ [⟨102400, none⟩], .clear,
    .send samplePayload 1 ⟨true, 102400, none⟩ [⟨102400, none⟩], .onClose 0]

/-- The payload of the first run goes to channel 0, and that of the second is rejected because
channel 0 has closed. -/
theorem not_isolated_between_channels :
    (∃ s, Run 65536 32768 {} joinedRun s ∧ (∃ p ∈ s.passed, ¬s.CalledOn p.id p.dc)) ∧
      ∃ s, Run 65536 32768 {} staleRun s ∧ ∃ x ∈ s.settled, x.outcome = .rejected dcClosed ∧
        ¬∃ dc ∈ x.closed, s.CalledOn x.id dc := by
  constructor
  · obtain ⟨s, hrun, hs⟩ : ∃ s, Run 65536 32768 {} joinedRun s ∧
        decide (∃ p ∈ s.passed, ¬s.CalledOn p.id p.dc) = true :=
      Machine.exists_run_with (by decide +kernel)
    exact ⟨s, hrun, of_decide_eq_true hs⟩
  · obtain ⟨s, hrun, hs⟩ : ∃ s, Run 65536 32768 {} staleRun s ∧
        decide (∃ x ∈ s.settled, x.outcome = .rejected dcClosed ∧
          ¬∃ dc ∈ x.closed, s.CalledOn x.id dc) = true :=
      Machine.exists_run_with (by decide +kernel)
    exact ⟨s, hrun, of_decide_eq_true hs⟩

end BackpressureQueue

end SmartIdVault.Backpressure
