import SmartIdVault.NativeHost.Steps

/-! Who takes the packets of the IN endpoint while a rekey goes on.  `rekey` stops the read loop and
then reads the device's reply itself, but `Stop` only cancels a context that the loop looks at
between two reads.  A loop that is past that look, waiting for the mutex or in its read, still takes
one packet; a loop anywhere else takes none. -/

namespace SmartIdVault.NativeHost

/-- Past the `select` on the context and before the end of the read. -/
def LoopPc.inRead : LoopPc → Bool
  | .locking | .reading _ => true
  | _ => false

/-- The loop takes no packet any more: it is on its way out, or it has been stopped outside its
read. -/
def ReadLoop.quiet (l : ReadLoop) : Bool :=
  match l.pc with
  | .dropping | .leaving | .exited => true
  | .locking | .reading _ => false
  | .top | .advancing _ _ | .writing _ => l.cancelled

/-- During an exchange a packet is for the key exchange, and outside of one it is for the read loop
of the session, which has not been stopped. -/
def Taken.rightly (x : Taken) : Bool :=
  match x.reader with
  | .loop _ => !x.stopped && x.current && !x.exchanging
  | .keyExchange => x.exchanging
  | .flush => false

namespace Host

/-- Every packet so far went to the reader it was for. -/
def WireOwned (s : Host) : Prop := ∀ x ∈ s.taken, x.rightly = true

/-- The events of one connection: rekeys, the steps of read loops, and payloads that are sent. -/
def RekeyTraffic : Event → Bool
  | .sendPayload .. | .rekeyBegin | .kexRead _ | .rekeyFinish .. | .loop .. => true
  | .connect .. | .connectResume .. | .disconnect | .hotplugClose => false

def restartsLoop (s : Host) : Bool :=
  match s.handler with
  | .exchanging rw _ _ => decide (s.usbRW = some rw) && s.device.isSome
  | _ => false

/-- `rekey` stops the loop outside its read, and the flush of a failed exchange finds nothing. -/
def StopsBetweenReads (s : Host) : Event → Prop
  | .rekeyBegin => s.cryptoSession.isSome → s.device.isSome → s.usbRW.isSome →
      ∀ i, s.readLoop = some i → ∀ l ∈ s.loops[i]?, l.pc.inRead = false
  | .rekeyFinish (.failed _) flushed => s.restartsLoop = true → flushed = none
  | _ => True

instance (s : Host) : (e : Event) → Decidable (s.StopsBetweenReads e)
  | .rekeyBegin => inferInstanceAs (Decidable (s.cryptoSession.isSome → s.device.isSome →
      s.usbRW.isSome → ∀ i, s.readLoop = some i → ∀ l ∈ s.loops[i]?, l.pc.inRead = false))
  | .rekeyFinish (.failed _) flushed =>
    inferInstanceAs (Decidable (s.restartsLoop = true → flushed = none))
  | .rekeyFinish (.established _) _ | .connect .. | .connectResume .. | .sendPayload ..
  | .disconnect | .kexRead _ | .hotplugClose | .loop .. => instDecidableTrue

/-- One read loop is running, the session's, and no other can take a packet. -/
structure OneReader (s : Host) : Prop where
  others : ∀ i l, s.loops[i]? = some l → s.readLoop ≠ some i → l.quiet = true
  running : ∀ i l, s.loops[i]? = some l → s.readLoop = some i → l.cancelled = false
  exchanging : s.handler.isExchanging = true → s.readLoop = none
  handler : s.handler ≠ .reenumerating
  owned : s.WireOwned

/-! ### Steps -/

theorem WireOwned.logTaken {s : Host} (h : s.WireOwned) {x : Taken} (hx : x.rightly = true) :
    (s.logTaken x).WireOwned := by
  intro y hy
  rcases List.mem_append.mp hy with hy | hy
  · exact h y hy
  · obtain rfl := List.mem_singleton.mp hy
    exact hx

namespace OneReader

variable {s t : Host}

theorem congr (h : OneReader s) (hl : t.loops = s.loops) (hr : t.readLoop = s.readLoop)
    (hh : t.handler = s.handler) (ht : t.WireOwned) : OneReader t where
  others := by rw [hl, hr]; exact h.others
  running := by rw [hl, hr]; exact h.running
  exchanging := by rw [hh, hr]; exact h.exchanging
  handler := hh ▸ h.handler
  owned := ht

theorem move (h : OneReader s) {i : LoopId} {l : ReadLoop} {pc : LoopPc}
    (hl : s.loops[i]? = some l) (hq : l.quiet = true → ({ l with pc } : ReadLoop).quiet = true)
    (ht : t.loops = (s.setPc i pc).loops) (hr : t.readLoop = s.readLoop)
    (hh : t.handler = s.handler) (hw : t.WireOwned) : OneReader t where
  others j m hm hj := by
    rw [ht, getElem?_setPc] at hm
    rw [hr] at hj
    split at hm
    · rename_i hij
      subst hij
      rw [hl] at hm
      cases hm
      exact hq (h.others i l hl hj)
    · exact h.others j m hm hj
  running j m hm hj := by
    rw [ht, getElem?_setPc] at hm
    rw [hr] at hj
    split at hm
    · rename_i hij
      subst hij
      rw [hl] at hm
      cases hm
      exact h.running i l hl hj
    · exact h.running j m hm hj
  exchanging := by rw [hh, hr]; exact h.exchanging
  handler := hh ▸ h.handler
  owned := hw

theorem started (h : OneReader s) (hn : s.readLoop = none)
    (hl : t.loops = s.loops ++ [({} : ReadLoop)]) (hr : t.readLoop = some s.loops.length)
    (hh : t.handler = .idle) (hw : t.WireOwned) : OneReader t where
  others j m hm hj := by
    rw [hl, List.getElem?_append] at hm
    rw [hr] at hj
    split at hm
    · exact h.others j m hm (by simp [hn])
    · rename_i hlt
      have hlast := (List.getElem?_eq_some_iff.mp hm).1
      have hlen : j = s.loops.length :=
        Nat.le_antisymm (Nat.sub_eq_zero_iff_le.mp (Nat.lt_one_iff.mp hlast)) (Nat.le_of_not_lt hlt)
      exact absurd (congrArg some hlen.symm) hj
  running j m hm hj := by
    rw [hr] at hj
    obtain rfl : s.loops.length = j := Option.some.inj hj
    rw [hl] at hm
    simp at hm
    simp [← hm]
  exchanging := by simp [hh, HandlerPc.isExchanging]
  handler := by simp [hh]
  owned := hw

theorem quiet_of_stopped (h : OneReader s)
    (hout : ∀ i, s.readLoop = some i → ∀ l ∈ s.loops[i]?, l.pc.inRead = false) {i : LoopId}
    {l : ReadLoop} (hl : s.stoppedLoops[i]? = some l) : l.quiet = true := by
  cases hr : s.readLoop with
  | none =>
    simp only [stoppedLoops, hr] at hl
    exact h.others i l hl (by simp [hr])
  | some j =>
    simp only [stoppedLoops, hr, List.getElem?_modify] at hl
    by_cases hij : j = i
    · subst hij
      simp only [if_true, Option.map_eq_map, Option.map_eq_some_iff] at hl
      obtain ⟨m, hm, rfl⟩ := hl
      have := hout j hr m hm
      unfold LoopPc.inRead at this
      unfold ReadLoop.quiet
      split <;> simp_all
    · simp only [hij, if_false, Option.map_eq_map, Option.map_id'] at hl
      exact h.others i l hl (by simp [hr, hij])

theorem current_of_inRead (h : OneReader s) {i : LoopId} {l : ReadLoop}
    (hl : s.loops[i]? = some l) (hp : l.pc.inRead = true) : s.readLoop = some i := by
  by_contra hne
  have hq := h.others i l hl hne
  unfold ReadLoop.quiet at hq
  unfold LoopPc.inRead at hp
  split at hp <;> simp_all

theorem readLoop_none (h : OneReader s) {rw old : Nat} {got : Bytes}
    (hh : s.handler = .exchanging rw old got) : s.readLoop = none :=
  h.exchanging (by simp [hh, HandlerPc.isExchanging])

theorem takenBy (h : OneReader s) {i : LoopId} {l : ReadLoop} (hl : s.loops[i]? = some l)
    (hp : l.pc.inRead = true) (packet : Bytes) :
    (s.logTaken (s.takenBy i l packet)).WireOwned := by
  have hcur := h.current_of_inRead hl hp
  apply h.owned.logTaken
  cases hx : s.handler.isExchanging with
  | true => simp [h.exchanging hx] at hcur
  | false => simp [Taken.rightly, Host.takenBy, hx, hcur, h.running i l hl hcur]

end OneReader

/-- A step of one connection that meets the condition keeps the invariant. -/
theorem Effect.oneReader {gcm : Gcm} {s t : Host} {e : Event} (h : Effect gcm s e t)
    (hi : OneReader s) (he : RekeyTraffic e = true) (hg : s.StopsBetweenReads e) :
    OneReader t := by
  cases h with
  | connectRefused | connectFailed | connected => simp [RekeyTraffic] at he
  | closed hw hc => rcases hc with rfl | rfl <;> simp [RekeyTraffic] at he
  | rekeyBegun rw old hh hc hd hr =>
    have hout := hg (by simp [hc]) hd (by simp [hr])
    refine ⟨fun i l hl _ => ?_, by simp, fun _ => rfl, by simp, hi.owned⟩
    exact hi.quiet_of_stopped hout hl
  | kexRead rw old got hh =>
    refine ⟨hi.others, hi.running, fun _ => hi.readLoop_none hh, by simp, ?_⟩
    exact hi.owned.logTaken (x := { reader := .keyExchange, packet := _, exchanging := true }) rfl
  | rekeyFailed rw old got hw hh hr =>
    exact ⟨hi.others, hi.running, by simp [HandlerPc.isExchanging], by simp, hi.owned⟩
  | rekeyRestarted rw old got hw hh hr hd =>
    obtain rfl := hg (by simp [restartsLoop, hh, hr, hd])
    exact hi.started (hi.readLoop_none hh) rfl rfl rfl hi.owned
  | rekeySwapped rw old got key hw hh hr =>
    exact hi.started (hi.readLoop_none hh) rfl rfl rfl hi.owned
  | rekeyed rw old got key hw hh hr =>
    exact hi.started (hi.readLoop_none hh) rfl rfl rfl hi.owned
  | polled l hl hp =>
    refine hi.move hl ?_ rfl rfl rfl hi.owned
    intro hq
    simp [ReadLoop.quiet, hp] at hq
    simp [ReadLoop.quiet, hq]
  | copied l hl hp =>
    refine hi.move hl ?_ rfl rfl rfl hi.owned
    simp [ReadLoop.quiet, hp]
  | received l v hl hp =>
    refine hi.move hl ?_ rfl rfl rfl (hi.takenBy hl (by simp [hp, LoopPc.inRead]) _)
    simp [ReadLoop.quiet, hp]
  | readAgain l v hl hp hr =>
    refine hi.move hl ?_ rfl rfl rfl hi.owned
    simp [ReadLoop.quiet, hp]
  | readGone l v hl hp =>
    refine hi.move hl ?_ rfl rfl rfl hi.owned
    simp [ReadLoop.quiet, hp]
  | advanced l cs plaintext hl hp =>
    refine hi.move hl ?_ rfl rfl rfl hi.owned
    simp [ReadLoop.quiet, hp]
  | dropped l hl hp =>
    refine hi.move hl ?_ rfl rfl rfl hi.owned
    simp [ReadLoop.quiet]
  | left l w hl hp hw =>
    refine hi.move hl ?_ rfl rfl rfl hi.owned
    simp [ReadLoop.quiet]
  | wrote l msg hl hp =>
    refine hi.move hl ?_ rfl rfl rfl hi.owned
    simp [ReadLoop.quiet, hp]
  | writeFailed l msg hl hp =>
    refine hi.move hl ?_ rfl rfl rfl hi.owned
    simp [ReadLoop.quiet]
  | _ => exact hi.congr rfl rfl rfl hi.owned

/-! ### Runs -/

theorem OneReader.init : OneReader {} where
  others := by simp
  running := by simp
  exchanging := by simp
  handler := by simp
  owned := by simp [WireOwned]

/-- A host that has just connected has one running read loop, if the one it had before is gone from
the session. -/
theorem oneReader_connect (gcm : Gcm) {s t : Host} {en ne op kex} (hi : OneReader s)
    (hr : s.readLoop = none) (hs : step gcm s (.connect en ne op kex) = some t) : OneReader t := by
  cases step_effect hi.handler hs with
  | connectRefused n hw => exact hi.congr rfl rfl rfl hi.owned
  | connectFailed n hw hc => exact hi.congr rfl rfl rfl hi.owned
  | connected key hw hh hc => exact hi.started hr rfl rfl hh hi.owned
  | closed hw he => simp at he

/-- From a host with one running read loop, along all traffic of rekeys and loop steps in which
`rekey` stops the loop outside its read and a flush finds nothing, every packet that arrives in an
exchange reaches the key exchange, every other packet reaches the loop of the session, and none
reaches a loop that has been stopped. -/
theorem wireOwned_of_stopsBetweenReads (gcm : Gcm) {s : Host} {es : List Event}
    (hs : s.OneReader) (he : ∀ e ∈ es, RekeyTraffic e = true)
    (hg : Machine.Throughout (step gcm) StopsBetweenReads s es) :
    Machine.Everywhere (step gcm) WireOwned s es := by
  have ht : Machine.Throughout (step gcm) (fun _ e => RekeyTraffic e = true) s es :=
    Machine.throughout_of_forall fun _ e hm => he e hm
  refine (Machine.everywhere_of_throughout hs (ht.and hg) ?_).mono fun _ h => h.owned
  intro s e t hi hg hst
  exact (step_effect hi.handler hst).oneReader hi hg.1 hg.2

theorem stopped_takes (gcm : Gcm) {s : Host} {i : LoopId} {l : ReadLoop} {v : Snapshot}
    (hl : s.loops[i]? = some l) (hp : l.pc = .reading v) (hc : l.cancelled = true)
    (packet : Bytes) :
    ∃ t, Run gcm s [.loop i (.read (.data packet))] t ∧ ¬t.WireOwned := by
  have hstep : step gcm s (.loop i (.read (.data packet))) =
      some ((s.logTaken (s.takenBy i l packet)).setPc i (afterRead gcm v packet)) := by
    simp [step, loopStep, hl, hp]
  refine ⟨_, .single hstep, ?_⟩
  intro h
  have := h (s.takenBy i l packet) (List.mem_append_right _ (List.mem_singleton_self _))
  simp [Taken.rightly, takenBy, hc] at this

theorem stopped_inRead_takes {gcm : Gcm} {s : Host} {i : LoopId} {l : ReadLoop}
    (hl : s.loops[i]? = some l) (hp : l.pc.inRead = true) (hc : l.cancelled = true)
    (hd : s.device.isSome) (packet : Bytes) :
    ∃ fs t, (∀ f ∈ fs, RekeyTraffic f = true) ∧ Run gcm s fs t ∧ ¬t.WireOwned := by
  unfold LoopPc.inRead at hp
  split at hp
  · -- before the mutex: the snapshot comes first
    rename_i hpc
    obtain ⟨dev, hdev⟩ := Option.isSome_iff_exists.mp hd
    have hstep : step gcm s (.loop i .snapshot) = some (s.setPc i s.snapshot) := by
      simp [step, loopStep, hl, hpc]
    obtain ⟨t, hrun, ht⟩ := stopped_takes gcm (s := s.setPc i s.snapshot)
      (i := i) (l := { l with pc := s.snapshot }) (by simp [getElem?_setPc, hl])
      (by simp only [snapshot, hdev]; rfl) hc packet
    exact ⟨_, t, by simp [RekeyTraffic], .cons hstep hrun, ht⟩
  · rename_i v hpc
    obtain ⟨t, hrun, ht⟩ := stopped_takes gcm hl hpc hc packet
    exact ⟨_, t, by simp [RekeyTraffic], hrun, ht⟩
  · contradiction

/-- The condition is exact: after a step that does not meet it, the traffic can go on so that a
packet goes astray. -/
theorem astray_of_not_stopsBetweenReads {gcm : Gcm} {s t : Host} {e : Event}
    (hn : s.handler ≠ .reenumerating) (hst : step gcm s e = some t)
    (hg : ¬s.StopsBetweenReads e) :
    ∃ fs u, (∀ f ∈ fs, RekeyTraffic f = true) ∧ Run gcm t fs u ∧ ¬u.WireOwned := by
  cases step_effect hn hst with
  | rekeyBegun rw old hh hc hd hr =>
    simp only [StopsBetweenReads, hc, hr, hd, Option.isSome_some, forall_const,
      not_forall, Bool.not_eq_false, Option.mem_def] at hg
    obtain ⟨i, hi, l, hl, hp⟩ := hg
    refine stopped_inRead_takes (i := i) (l := { l with cancelled := true }) ?_ hp rfl hd [0]
    simp [stoppedLoops, hi, hl]
  | rekeyRefused hw h =>
    refine absurd (?_) hg
    intro hc hd hr
    rcases h with h | h | h
    · simp [h] at hc
    · simp [h] at hd
    · simp [h] at hr
  | rekeyFailed rw old got hw hh hr =>
    refine absurd (fun hre => absurd ?_ hr) hg
    simpa [restartsLoop, hh] using hre
  | @rekeyRestarted error flushed rw old got hw hh hr hd =>
    cases flushed with
    | none => exact absurd (fun _ => rfl) hg
    | some packet =>
      refine ⟨[], _, by simp, .nil _, fun h => ?_⟩
      have := h { reader := .flush, packet }
        (List.mem_append_right _ (List.mem_singleton_self _))
      simp [Taken.rightly] at this
  | closed hw he => rcases he with rfl | rfl <;> exact absurd trivial hg
  | _ => exact absurd trivial hg

/-! ### A run whose stopped loop takes the reply, and one whose loop stops in time -/

/-- The read loop is waiting in `ReadBulk` when `rekey` stops it, and the first packet of the
device's reply goes to it. -/
theorem stopped_loop_takes_reply :
    ∃ s t, Run plainGcm {} [sampleConnect] s ∧ s.OneReader ∧
      Run plainGcm s [.loop 0 .poll, .loop 0 .snapshot, .rekeyBegin,
        .loop 0 (.read (.data [2, 0, 32]))] t ∧ ¬t.WireOwned := by
  refine ⟨_, _, Machine.run_of_exec rfl, oneReader_connect plainGcm .init rfl rfl,
    Machine.run_of_exec rfl, ?_⟩
  intro h
  exact absurd (h _ (List.mem_cons_self ..)) (by decide)

/-- The read loop is at its `select` when `rekey` stops it: the reply reaches the exchange and the
packet after it the new loop. -/
theorem stopped_loop_takes_nothing :
    ∃ s, Run plainGcm {} [sampleConnect] s ∧
      Machine.Everywhere (step plainGcm) WireOwned s
        [.rekeyBegin, .kexRead [2, 0, 32], .loop 0 .poll,
          .rekeyFinish (.established (sampleKey 9)) none, .loop 1 .poll, .loop 1 .snapshot,
          .loop 1 (.read (.data [0]))] := by
  refine ⟨_, Machine.run_of_exec rfl, wireOwned_of_stopsBetweenReads plainGcm
    (oneReader_connect plainGcm .init rfl rfl) (by decide) ?_⟩
  decide +kernel

end Host

end SmartIdVault.NativeHost
