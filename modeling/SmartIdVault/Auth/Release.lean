import SmartIdVault.Auth.Assertion
import SmartIdVault.Lib.Machine
import SmartIdVault.Lib.Tasks

/-! The release of the lock: when no handler runs, the lock is free or the timer is armed, unless a
handler has ended by one of the exits that do neither. -/

namespace SmartIdVault.Auth

variable {s t : State} {c : Call} {i : Nat} {pc : Pc} {kind : Kind}

/-- Some handler is running. -/
def Running (s : State) : Prop := ∃ c ∈ s.calls, c.pc.running = true

/-- When no handler runs, a lock that is held is free again when the time of the timer has passed,
which it does within `AUTH_TIMEOUT_MS`. -/
def Releasable (s : State) : Prop :=
  s.authInProgress = true → ¬Running s →
    ∃ ms ≤ authTimeoutMs, ∃ t, Machine.Run State.step s [.elapse ms, .timeout] t ∧
      t.authInProgress = false

/-- The sender is a tab, but its address or its origin is missing. -/
def SenderTab.unattributable (tab : SenderTab) : Prop :=
  tab.id.getD 0 ≠ 0 ∧
    (text tab.url = none ∨ tab.origin = .ok [] ∨ tab.origin = .ok (Utf16.ofString "null"))

instance (tab : SenderTab) : Decidable tab.unattributable := by
  unfold SenderTab.unattributable
  infer_instance

/-- At an await of `assertion-complete` that no `try` is around. -/
def Pc.outsideTry : Pc → Bool
  | .storingFailure .. => true
  | _ => false

/-- A handler returns or rejects with the lock held and no timer, while no other one runs: at an
early return of `begin-challenge-assertion`, or when storage rejects the result that
`assertion-complete` writes outside its `try`. -/
def Strands (s : State) (e : Event) : Prop :=
  s.timer = none ∧
    match e with
    | .begin _ _ tab =>
      s.authInProgress = false ∧ tab.unattributable ∧ ∀ c ∈ s.calls, c.pc.running = false
    | .reject i _ =>
      s.authInProgress = true ∧ s.calls[i]?.any (·.pc.outsideTry) = true ∧
        ∀ c ∈ s.calls.eraseIdx i, c.pc.running = false
    | _ => False

instance (s : State) : ∀ e, Decidable (Strands s e)
  | .begin .. => inferInstanceAs (Decidable (_ ∧ _ ∧ SenderTab.unattributable _ ∧ ∀ c ∈ s.calls, _))
  | .reject .. => inferInstanceAs (Decidable (_ ∧ _ ∧ _ ∧ ∀ c ∈ s.calls.eraseIdx _, _))
  | .complete .. | .prepared .. | .transport .. | .serve _ | .resolve _ | .tabCreated ..
  | .tabRemoved _ | .elapse _ | .timeout => inferInstanceAs (Decidable (_ ∧ False))

/-- What keeps the lock releasable. -/
structure Armed (s : State) : Prop where
  due : ∀ d ∈ s.timer, s.now ≤ d ∧ d ≤ s.now + authTimeoutMs
  held : s.authInProgress = true → s.timer = none → Running s

theorem releasable_of_armed (h : Armed s) : Releasable s := by
  intro hlock hidle
  cases ht : s.timer with
  | none => exact absurd (h.held hlock ht) hidle
  | some d =>
    obtain ⟨hle, hge⟩ := h.due d ht
    refine ⟨d - s.now, by omega, { s with now := d }.resetAuthInProgress,
      .cons (t := { s with now := d }) ?_ (.single ?_), rfl⟩
    · have hsum : s.now + (d - s.now) = d := by omega
      simp [State.step, ht, hsum]
    · simp [State.step, ht, hlock]

/-- Without a timer nothing frees the lock. -/
theorem not_releasable (hlock : s.authInProgress = true) (htimer : s.timer = none)
    (hidle : ¬Running s) : ¬Releasable s := by
  intro h
  obtain ⟨ms, -, t, run, -⟩ := h hlock hidle
  obtain _ | ⟨helapse, run⟩ := run
  obtain _ | ⟨hfire, -⟩ := run
  simp only [State.step, htimer] at helapse
  split at helapse
  · obtain rfl := Option.some.inj helapse
    simp [State.step] at hfire
  · cases helapse

/-! ### Steps -/

theorem running_put (hi : s.calls[i]? = some c) (hpc : pc.running = true) :
    Running (s.put i c pc) :=
  ⟨_, Tasks.mem_set_self hi _, hpc⟩

theorem running_add (hpc : pc.running = true) : Running (s.add kind pc) :=
  ⟨⟨kind, pc⟩, List.mem_append_right _ (List.mem_singleton.mpr rfl), hpc⟩

theorem running_mono (h : Running s) : Running (s.add kind pc) := by
  obtain ⟨c, hc, hpc⟩ := h
  exact ⟨c, List.mem_append_left _ hc, hpc⟩

theorem running_of_ne {j : Nat} {c' : Call} (hji : j ≠ i) (hj : s.calls[j]? = some c')
    (hc' : c'.pc.running = true) : Running (s.put i c pc) :=
  ⟨c', Tasks.mem_set_of_ne hji hj, hc'⟩

/-- A step that leaves a free lock, or a handler that runs, with the timer as it was or away. -/
theorem Armed.of_timer (h : Armed s) (hnow : t.now = s.now)
    (htimer : t.timer = s.timer ∨ t.timer = none)
    (hheld : t.authInProgress = true → t.timer = none → Running t) : Armed t where
  due := by
    rw [hnow]
    obtain ht | ht := htimer <;> rw [ht]
    · exact h.due
    · exact nofun
  held := hheld

theorem Armed.put (h : Armed s) (hi : s.calls[i]? = some c) (hpc : pc.running = true) :
    Armed (s.put i c pc) :=
  h.of_timer rfl (.inl rfl) fun _ _ => running_put hi hpc

theorem Armed.reset (h : Armed s) : Armed s.resetAuthInProgress := h.of_timer rfl (.inr rfl) nofun

theorem Armed.begin (h : Armed s) {amount recipient : Option Utf16} {tab : SenderTab}
    (hgood : ¬Strands s (.begin amount recipient tab)) : Armed (s.begin amount recipient tab) := by
  have hother : s.authInProgress = false → tab.unattributable → s.timer = none → Running s := by
    intro hfree htab htimer
    by_contra hidle
    refine hgood ⟨htimer, hfree, htab, ?_⟩
    intro c hc
    by_contra hrun
    exact hidle ⟨c, hc, Bool.eq_true_of_not_eq_false hrun⟩
  simp only [State.begin]
  split
  · exact h.of_timer rfl (.inl rfl) fun hlock htimer => running_mono (h.held hlock htimer)
  next hfree =>
    have hfree : s.authInProgress = false := Bool.eq_false_iff.mpr hfree
    split
    · exact h.of_timer rfl (.inl rfl) fun hlock _ => absurd (hfree.symm.trans hlock) nofun
    next hid =>
      split
      next hurl =>
        exact h.of_timer rfl (.inl rfl) fun _ htimer =>
          running_mono (hother hfree ⟨hid, .inl hurl⟩ htimer)
      next =>
        split
        · exact h.of_timer rfl (.inr rfl) nofun
        next origin horigin =>
          split
          next hnull =>
            refine h.of_timer rfl (.inl rfl) fun _ htimer =>
              running_mono (hother hfree ⟨hid, .inr ?_⟩ htimer)
            rw [horigin]
            exact hnull.imp (congrArg _) (congrArg _)
          next => exact h.of_timer rfl (.inl rfl) fun _ _ => running_add rfl

theorem Armed.step {e : Event} (h : Armed s) (hgood : ¬Strands s e) (hs : s.step e = some t) :
    Armed t := by
  cases e with
  | begin amount recipient tab =>
    obtain rfl := Option.some.inj hs
    exact h.begin hgood
  | complete flow data =>
    obtain rfl := Option.some.inj hs
    simp only [State.complete]
    split
    · exact h.of_timer rfl (.inr rfl) fun _ _ => running_add rfl
    · split <;> exact h.of_timer rfl (.inr rfl) fun _ _ => running_add rfl
  | prepared i values =>
    obtain ⟨c, hi, hs⟩ := Option.bind_eq_some_iff.mp hs
    simp only [State.prepared] at hs
    split at hs
    · split at hs <;> obtain rfl := Option.some.inj hs
      · exact h.of_timer rfl (.inr rfl) nofun
      · exact h.put hi rfl
    · cases hs
  | transport i tm =>
    obtain ⟨c, hi, hs⟩ := Option.bind_eq_some_iff.mp hs
    simp only [State.transport] at hs
    split at hs
    · split at hs
      · obtain ⟨message, -, rfl⟩ := Option.map_eq_some_iff.mp hs
        exact h.put hi rfl
      · obtain rfl := Option.some.inj hs
        exact h.put hi rfl
    · cases hs
  | serve i =>
    obtain ⟨c, hi, hs⟩ := Option.bind_eq_some_iff.mp hs
    simp only [State.serve] at hs
    split at hs
    all_goals try cases hs
    all_goals exact h.of_timer rfl (.inl rfl) fun _ _ => running_put hi rfl
  | resolve i =>
    obtain ⟨c, hi, hs⟩ := Option.bind_eq_some_iff.mp hs
    simp only [State.resolve] at hs
    split at hs
    all_goals try cases hs
    · exact h.put hi rfl
    · exact h.of_timer rfl (.inl rfl) fun _ _ => running_put hi rfl
    · exact h.put hi rfl
    · exact h.of_timer rfl (.inr rfl) nofun
    · exact h.of_timer rfl (.inr rfl) nofun
  | tabCreated i id =>
    obtain ⟨c, hi, hs⟩ := Option.bind_eq_some_iff.mp hs
    simp only [State.tabCreated] at hs
    split at hs
    · obtain rfl := Option.some.inj hs
      refine ⟨?_, nofun⟩
      intro d hd
      obtain rfl := Option.some.inj hd
      exact ⟨Nat.le_add_right .., le_rfl⟩
    · cases hs
  | reject i message =>
    obtain ⟨c, hi, hs⟩ := Option.bind_eq_some_iff.mp hs
    simp only [State.reject] at hs
    split at hs
    all_goals try cases hs
    all_goals try exact h.of_timer rfl (.inr rfl) nofun
    all_goals try exact h.put hi rfl
    next hpc =>
      refine h.of_timer rfl (.inl rfl) ?_
      intro hlock htimer
      -- the lock stays held, and this is no such exit: another handler runs
      by_contra hidle
      refine hgood ⟨htimer, hlock, by simp [hi, hpc, Pc.outsideTry], fun c' hc' => ?_⟩
      obtain ⟨j, hji, hj⟩ := List.mem_eraseIdx_iff_getElem?.mp hc'
      by_contra hrun
      exact hidle (running_of_ne hji hj (Bool.eq_true_of_not_eq_false hrun))
  | tabRemoved id =>
    obtain rfl := Option.some.inj hs
    split
    · exact h.reset
    · exact h
  | elapse ms =>
    simp only [State.step] at hs
    split at hs
    next hdue =>
      obtain rfl := Option.some.inj hs
      refine ⟨fun d hd => ⟨hdue d hd, ?_⟩, h.held⟩
      exact (h.due d hd).2.trans (Nat.add_le_add_right (Nat.le_add_right ..) _)
    next => cases hs
  | timeout =>
    simp only [State.step] at hs
    split at hs
    · obtain rfl := Option.some.inj hs
      split
      · exact h.reset
      next hlock => exact h.of_timer rfl (.inr rfl) fun hlock' => absurd hlock' hlock
    · cases hs

theorem begin_of_unattributable {amount recipient : Option Utf16} {tab : SenderTab}
    (hfree : s.authInProgress = false) (htab : tab.unattributable) :
    s.begin amount recipient tab =
      { s with authInProgress := true, holder := some s.calls.length }.add
        (.begin amount recipient) (.ended (.failure State.noOrigin)) := by
  obtain ⟨hid, hurl | horigin⟩ := htab
  · simp [State.begin, hfree, hid, hurl]
  · simp only [State.begin, hfree, Bool.false_eq_true, if_false, hid]
    split
    · rfl
    · obtain horigin | horigin := horigin <;> simp [horigin]

/-- After an exit that strands the lock, nothing frees it. -/
theorem stranded {e : Event} (h : Strands s e) (hs : s.step e = some t) : ¬Releasable t := by
  obtain ⟨htimer, h⟩ := h
  cases e with
  | begin amount recipient tab =>
    obtain ⟨hfree, htab, hidle⟩ := h
    obtain rfl := Option.some.inj hs
    rw [begin_of_unattributable hfree htab]
    refine not_releasable rfl htimer ?_
    rintro ⟨c, hc, hrun⟩
    obtain hc | hc := List.mem_append.mp hc
    · rw [hidle c hc] at hrun
      cases hrun
    · rw [List.mem_singleton.mp hc] at hrun
      cases hrun
  | reject i message =>
    obtain ⟨hlock, hany, hidle⟩ := h
    obtain ⟨c, hi, hs⟩ := Option.bind_eq_some_iff.mp hs
    rw [hi, Option.any_some] at hany
    simp only [State.reject] at hs
    split at hs
    all_goals try (rename_i hpc; rw [hpc] at hany; cases hany)
    obtain rfl := Option.some.inj hs
    refine not_releasable hlock htimer ?_
    rintro ⟨c', hc', hrun⟩
    obtain rfl | ⟨j, hji, hj⟩ := Tasks.mem_set hc'
    · cases hrun
    · rw [hidle c' (List.mem_eraseIdx_iff_getElem?.mpr ⟨j, hji, hj⟩)] at hrun
      cases hrun
  | _ => exact h.elim

/-- Along a run of the handlers the lock is always releasable exactly when no handler strands it. -/
theorem releasable_iff {es : List Event} (run : Machine.Run State.step {} es t) :
    Machine.Everywhere State.step Releasable {} es ↔
      Machine.Throughout State.step (fun s e => ¬Strands s e) {} es :=
  Machine.everywhere_iff_throughout (A := fun _ _ => True) run
    (Machine.throughout_of_forall fun _ _ _ => trivial) ⟨nofun, nofun⟩
    (fun _ => releasable_of_armed) (fun _ _ _ h _ hgood hs => h.step hgood hs)
    fun _ _ _ _ _ hbad hs => stranded (not_not.mp hbad) hs

/-- A page whose origin is opaque. -/
def blank : SenderTab where
  id := some 1
  url := some (Utf16.ofString "about:blank")
  origin := .ok (Utf16.ofString "null")

theorem blank_strands_lock :
    ∃ s, Machine.Run State.step {} [.begin none none blank] s ∧ ¬Releasable s := by
  have hs : State.step {} (.begin none none blank) = some _ := rfl
  have hstrands : Strands {} (.begin none none blank) := by decide +kernel
  exact ⟨_, .single hs, stranded hstrands hs⟩

def bank : SenderTab where
  id := some 1
  url := some (Utf16.ofString "https://bank.example/")
  origin := .ok (Utf16.ofString "https://bank.example")

def pin : Prepared where
  controlCode := some (Utf16.ofString "1234")
  tlsBindingHash := List.replicate 32 1
  sessionNonce := List.replicate 32 2
  derivedChallenge := List.replicate 32 3
  rpId := Utf16.ofString "extension"
  secFetchSite := Utf16.ofString "none"
  contentHash := Utf16.ofString "00"

/-- A call ends with its timer armed. -/
def begun (i : Nat) (values : Prepared) : List Event :=
  [.begin none none bank, .prepared i values, .serve i, .resolve i, .tabCreated i (some 7)]

/-- One flow times out, and the user cancels the next. -/
def timeoutAndCancel : List Event :=
  begun 0 pin ++ [.elapse authTimeoutMs, .timeout] ++ begun 1 pin ++
    [.complete 1 { status := Utf16.ofString "cancelled" }, .serve 2, .resolve 2]

theorem timeout_and_cancel_releasable :
    Machine.Everywhere State.step Releasable {} timeoutAndCancel := by
  obtain ⟨t, run⟩ : ∃ t, Machine.Run State.step {} timeoutAndCancel t :=
    Machine.exists_run_of_exec (by decide +kernel)
  exact (releasable_iff run).mpr (by decide +kernel)

end SmartIdVault.Auth
