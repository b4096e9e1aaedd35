import SmartIdVault.NativeHost.Steps
import SmartIdVault.Lib.Tasks

/-! The read loops of the native host.  A loop is live while `poll` has not returned and nobody has
stopped it.  The host means to have at most one live loop, `session.readLoop`, and none without a
device; this holds along a run exactly as long as no successful rekey finishes without a device and
no read loop clears the device while a loop is live. -/

namespace SmartIdVault.NativeHost

/-- `poll` has not returned and its context is not cancelled. -/
def ReadLoop.live (l : ReadLoop) : Bool := !l.cancelled && decide (l.pc ≠ .exited)

namespace Host

def IsLive (s : Host) (i : LoopId) : Prop := ∃ l ∈ s.loops[i]?, l.live = true

/-- At most one read loop is live, it is `session.readLoop`, and there is none without a device. -/
structure OneLoop (s : Host) : Prop where
  unique : ∀ i j, s.IsLive i → s.IsLive j → i = j
  current : ∀ i, s.IsLive i → s.readLoop = some i
  device : s.device = none → ∀ i, ¬s.IsLive i

/-- A rekey that got a key finds the device still there, and the disconnect branch of a read loop
finds no live loop. -/
def KeepsOneLoop (s : Host) : Event → Prop
  | .rekeyFinish (.established _) _ => s.device ≠ none
  | .loop _ .drop => ∀ i, ¬s.IsLive i
  | _ => True

theorem forall_not_isLive (s : Host) : (∀ i, ¬s.IsLive i) ↔ ∀ l ∈ s.loops, l.live = false := by
  simp only [IsLive, List.mem_iff_getElem?, Option.mem_def, not_exists, not_and,
    Bool.not_eq_true, forall_exists_index]
  exact forall_comm

instance (s : Host) : (e : Event) → Decidable (s.KeepsOneLoop e)
  | .rekeyFinish (.established _) _ => inferInstanceAs (Decidable (s.device ≠ none))
  | .loop _ .drop => decidable_of_iff _ s.forall_not_isLive.symm
  | .loop _ .poll | .loop _ .snapshot | .loop _ (.read _) | .loop _ .advance | .loop _ (.write _)
  | .rekeyFinish (.failed _) _ | .connect .. | .connectResume .. | .sendPayload .. | .disconnect
  | .rekeyBegin | .kexRead _ | .hotplugClose => instDecidableTrue

/-! ### Live loops under the operations -/

section Live

variable {s t : Host} {i j : LoopId}

theorem isLive_congr (h : t.loops = s.loops) : t.IsLive j ↔ s.IsLive j := by
  simp only [IsLive, h]

theorem not_isLive_nil (h : s.loops = []) : ¬s.IsLive j := by
  simp [IsLive, h]

theorem isLive_of_setPc {l : ReadLoop} (pc : LoopPc) (hl : s.loops[i]? = some l)
    (hp : l.pc ≠ .exited) (h : (s.setPc i pc).IsLive j) : s.IsLive j := by
  obtain ⟨m, hm, hlive⟩ := h
  simp only [setPc, List.getElem?_modify] at hm
  by_cases hij : i = j
  · subst hij
    simp only [hl, if_true, Option.map_eq_map, Option.map_some, Option.mem_def,
      Option.some.injEq] at hm
    subst hm
    refine ⟨l, hl, ?_⟩
    simp only [ReadLoop.live, Bool.and_eq_true, decide_eq_true_eq] at hlive ⊢
    exact ⟨hlive.1, hp⟩
  · simp only [hij, if_false, Option.map_eq_map, Option.map_id'] at hm
    exact ⟨m, hm, hlive⟩

theorem isLive_setPc (pc : LoopPc) (hp : pc ≠ .exited) (h : s.IsLive j) :
    (s.setPc i pc).IsLive j := by
  obtain ⟨l, hl, hlive⟩ := h
  simp only [Option.mem_def] at hl
  simp only [IsLive, setPc, List.getElem?_modify, hl]
  by_cases hij : i = j
  · refine ⟨{ l with pc }, by simp [hij], ?_⟩
    simp only [ReadLoop.live, Bool.and_eq_true, decide_eq_true_eq] at hlive ⊢
    exact ⟨hlive.1, hp⟩
  · exact ⟨l, by simp [hij], hlive⟩

theorem isLive_of_stopped (ht : t.loops = s.stoppedLoops) (h : t.IsLive j) :
    s.IsLive j ∧ s.readLoop ≠ some j := by
  obtain ⟨m, hm, hlive⟩ := h
  rw [ht, stoppedLoops] at hm
  cases hr : s.readLoop with
  | none =>
    simp only [hr] at hm
    exact ⟨⟨m, hm, hlive⟩, by simp⟩
  | some i =>
    simp only [hr, List.getElem?_modify] at hm
    by_cases hij : i = j
    · simp only [hij, if_true, Option.map_eq_map, Option.mem_def, Option.map_eq_some_iff] at hm
      obtain ⟨l, -, rfl⟩ := hm
      simp [ReadLoop.live] at hlive
    · simp only [hij, if_false, Option.map_eq_map, Option.map_id'] at hm
      exact ⟨⟨m, hm, hlive⟩, by simpa using hij⟩

theorem isLive_started (ht : t.loops = s.loops ++ [({} : ReadLoop)]) :
    t.IsLive j ↔ s.IsLive j ∨ j = s.loops.length := by
  by_cases hj : j = s.loops.length
  · simp [IsLive, ht, hj, ReadLoop.live]
  · simp only [IsLive, ht, Tasks.append_ne hj, hj, or_false]

end Live

/-! ### The invariant -/

/-- What a run of the host keeps together with `OneLoop`. -/
structure LoopInv (s : Host) : Prop where
  one : s.OneLoop
  connected : s.connected = s.device.isSome
  exchanging : s.handler.isExchanging = true → s.readLoop = none
  handler : s.handler ≠ .reenumerating

namespace OneLoop

variable {s t : Host}

theorem of_none (h : ∀ i, ¬s.IsLive i) : s.OneLoop where
  unique i _ hi := absurd hi (h i)
  current i hi := absurd hi (h i)
  device _ := h

theorem mono (h : s.OneLoop) (hl : ∀ i, t.IsLive i → s.IsLive i)
    (hr : t.readLoop = s.readLoop) (hd : t.device = s.device) : t.OneLoop where
  unique i j hi hj := h.unique i j (hl i hi) (hl j hj)
  current i hi := hr ▸ h.current i (hl i hi)
  device hn i hi := h.device (hd ▸ hn) i (hl i hi)

theorem stopped (h : s.OneLoop) (ht : t.loops = s.stoppedLoops) (i : LoopId) : ¬t.IsLive i := by
  intro hi
  obtain ⟨hlive, hne⟩ := isLive_of_stopped ht hi
  exact hne (h.current i hlive)

theorem started (h : ∀ i, ¬s.IsLive i) (ht : t.loops = s.loops ++ [({} : ReadLoop)])
    (hr : t.readLoop = some s.loops.length) (hd : t.device ≠ none) : t.OneLoop := by
  have hlive : ∀ i, t.IsLive i → i = s.loops.length := fun i hi =>
    ((isLive_started ht).mp hi).resolve_left (h i)
  exact
    { unique := fun i j hi hj => (hlive i hi).trans (hlive j hj).symm
      current := fun i hi => hlive i hi ▸ hr
      device := fun hn => absurd hn hd }

end OneLoop

namespace LoopInv

variable {s t : Host}

theorem init : LoopInv {} where
  one := .of_none fun _ => not_isLive_nil rfl
  connected := rfl
  exchanging := by simp
  handler := by simp

theorem not_isLive_of_disconnected (h : LoopInv s) (hc : s.connected = false) (i : LoopId) :
    ¬s.IsLive i := by
  refine h.one.device ?_ i
  have := h.connected
  rw [hc] at this
  simpa using this.symm

theorem not_isLive_of_exchanging (h : LoopInv s) {rw old : Nat} {got : Bytes}
    (hh : s.handler = .exchanging rw old got) (i : LoopId) : ¬s.IsLive i := by
  intro hi
  have := h.one.current i hi
  rw [h.exchanging (by simp [hh, HandlerPc.isExchanging])] at this
  cases this

theorem mono (h : LoopInv s) (hl : ∀ i, t.IsLive i → s.IsLive i)
    (hr : t.readLoop = s.readLoop) (hd : t.device = s.device) (hc : t.connected = s.connected)
    (hh : t.handler = s.handler) : LoopInv t where
  one := h.one.mono hl hr hd
  connected := by rw [hc, hd, h.connected]
  exchanging := by rw [hh, hr]; exact h.exchanging
  handler := hh ▸ h.handler

theorem move (h : LoopInv s) {i : LoopId} {l : ReadLoop} {pc : LoopPc}
    (hl : s.loops[i]? = some l) (hp : l.pc ≠ .exited) (ht : t.loops = (s.setPc i pc).loops)
    (hr : t.readLoop = s.readLoop) (hd : t.device = s.device) (hc : t.connected = s.connected)
    (hh : t.handler = s.handler) : LoopInv t :=
  h.mono (fun _ hj => isLive_of_setPc pc hl hp ((isLive_congr ht).mp hj)) hr hd hc hh

end LoopInv

/-- A step that meets the condition keeps the invariant. -/
theorem Effect.loopInv {gcm : Gcm} {s t : Host} {e : Event} (h : Effect gcm s e t)
    (hi : LoopInv s) (hg : s.KeepsOneLoop e) : LoopInv t := by
  cases h with
  | connectFailed n hw hc =>
    refine ⟨.of_none ?_, rfl, hi.exchanging, hi.handler⟩
    intro i hl
    exact hi.not_isLive_of_disconnected hc i ((isLive_congr rfl).mp hl)
  | connected key hw hh hc =>
    refine ⟨.started (hi.not_isLive_of_disconnected hc) rfl rfl (by simp), rfl, ?_, hi.handler⟩
    simp [hh, HandlerPc.isExchanging]
  | closed hw he =>
    refine ⟨.of_none (hi.one.stopped ?_), ?_, ?_, ?_⟩ <;> simp only [closeLocked_eq]
    · rfl
    · exact fun _ => trivial
    · exact hi.handler
  | rekeyBegun rw old hh hc hd hr =>
    exact ⟨.of_none (hi.one.stopped rfl), hi.connected, fun _ => rfl, by simp⟩
  | kexRead rw old got hh =>
    refine ⟨hi.one.mono (fun _ hj => (isLive_congr rfl).mp hj) rfl rfl, hi.connected, ?_, by simp⟩
    exact fun _ => hi.exchanging (by simp [hh, HandlerPc.isExchanging])
  | rekeyFailed rw old got hw hh hr =>
    refine ⟨hi.one.mono (fun _ hj => (isLive_congr rfl).mp hj) rfl rfl, hi.connected, ?_, by simp⟩
    simp [HandlerPc.isExchanging]
  | rekeyRestarted rw old got hw hh hr hd =>
    refine ⟨.started (hi.not_isLive_of_exchanging hh) rfl rfl ?_, hi.connected, ?_, by simp⟩
    · exact Option.isSome_iff_ne_none.mp hd
    · simp [HandlerPc.isExchanging]
  | rekeySwapped rw old got key hw hh hr =>
    refine ⟨.started (hi.not_isLive_of_exchanging hh) rfl rfl hg, hi.connected, ?_, by simp⟩
    simp [HandlerPc.isExchanging]
  | rekeyed rw old got key hw hh hr =>
    refine ⟨.started (hi.not_isLive_of_exchanging hh) rfl rfl hg, hi.connected, ?_, by simp⟩
    simp [HandlerPc.isExchanging]
  | polled l hl hp => exact hi.move hl (by simp [hp]) rfl rfl rfl rfl rfl
  | copied l hl hp => exact hi.move hl (by simp [hp]) rfl rfl rfl rfl rfl
  | received l v hl hp => exact hi.move hl (by simp [hp]) rfl rfl rfl rfl rfl
  | readAgain l v hl hp hr => exact hi.move hl (by simp [hp]) rfl rfl rfl rfl rfl
  | readGone l v hl hp => exact hi.move hl (by simp [hp]) rfl rfl rfl rfl rfl
  | advanced l cs plaintext hl hp => exact hi.move hl (by simp [hp]) rfl rfl rfl rfl rfl
  | dropped l hl hp =>
    refine ⟨.of_none ?_, rfl, hi.exchanging, hi.handler⟩
    intro i hj
    exact hg i (isLive_of_setPc .leaving hl (by simp [hp]) ((isLive_congr rfl).mp hj))
  | left l w hl hp hw => exact hi.move hl (by simp [hp]) rfl rfl rfl rfl rfl
  | wrote l msg hl hp => exact hi.move hl (by simp [hp]) rfl rfl rfl rfl rfl
  | writeFailed l msg hl hp => exact hi.move hl (by simp [hp]) rfl rfl rfl rfl rfl
  | _ => exact hi.mono (fun _ hj => (isLive_congr rfl).mp hj) rfl rfl rfl rfl

/-- A step that does not meet the condition leaves a live loop without a device. -/
theorem Effect.not_oneLoop {gcm : Gcm} {s t : Host} {e : Event} (h : Effect gcm s e t)
    (hg : ¬s.KeepsOneLoop e) : ¬t.OneLoop := by
  intro ht
  cases h with
  | rekeySwapped rw old got key hw hh hr =>
    have hd : s.device = none := by simpa [KeepsOneLoop] using hg
    exact ht.device hd s.loops.length ((isLive_started (s := s) rfl).mpr (.inr rfl))
  | rekeyed rw old got key hw hh hr =>
    have hd : s.device = none := by simpa [KeepsOneLoop] using hg
    exact ht.device hd s.loops.length ((isLive_started (s := s) rfl).mpr (.inr rfl))
  | dropped l hl hp =>
    obtain ⟨i, hi⟩ : ∃ i, s.IsLive i := by simpa [KeepsOneLoop] using hg
    exact ht.device rfl i ((isLive_congr rfl).mpr (isLive_setPc .leaving (by simp) hi))
  | closed hw he => rcases he with rfl | rfl <;> exact hg trivial
  | _ => exact hg trivial

/-- Along every run from the start, there is at every point at most one live read loop, it is
`session.readLoop`, and there is none without a device, if and only if no rekey that got a key
finishes without a device and no loop clears the device while a loop is live. -/
theorem oneLoop_iff_keepsOneLoop (gcm : Gcm) {es : List Event} {t : Host}
    (hrun : Run gcm {} es t) :
    Machine.Everywhere (step gcm) OneLoop {} es ↔
      Machine.Throughout (step gcm) KeepsOneLoop {} es := by
  refine Machine.everywhere_iff_throughout (A := fun _ _ => True) (I := LoopInv) hrun
    (Machine.throughout_of_forall fun _ _ _ => trivial) .init (fun _ h => h.one) ?_ ?_
  · exact fun s e t hi _ hg hs => (step_effect hi.handler hs).loopInv hi hg
  · exact fun s e t hi _ hg hs => (step_effect hi.handler hs).not_oneLoop hg

/-! ### A run that starts a loop without a device, and one that does not -/

def rekeyDuring (es : List Event) : List Event :=
  [sampleConnect, .rekeyBegin] ++ es ++ [.rekeyFinish (.established (sampleKey 9)) none]

/-- The device is unplugged during the exchange, and `rekey` starts a loop all the same. -/
theorem rekey_after_unplug_starts_loop :
    ∃ t, Run plainGcm {} (rekeyDuring [.hotplugClose]) t ∧ t.device = none ∧ t.IsLive 1 ∧
      ¬t.OneLoop := by
  refine ⟨_, Machine.run_of_exec rfl, rfl, ⟨{}, rfl, rfl⟩, ?_⟩
  intro h
  exact h.device rfl 1 ⟨{}, rfl, rfl⟩

theorem rekey_keeps_one_loop :
    Machine.Everywhere (step plainGcm) OneLoop {} (rekeyDuring []) :=
  (oneLoop_iff_keepsOneLoop plainGcm (Machine.run_of_exec rfl)).mpr (by decide +kernel)

end Host

end SmartIdVault.NativeHost
