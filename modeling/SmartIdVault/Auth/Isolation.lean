import SmartIdVault.Auth.Release

/-! Which flow a step of `assertion-complete` belongs to, and what it may touch.  The handler looks
at neither the tab that sent it nor the pending assertion, so flows are kept apart only as far as
its messages arrive while their own flow has the lock, with what it has written, and nothing else
happens to the lock before they are handled. -/

namespace SmartIdVault.Auth

variable {s t : State} {c : Call} {i : Nat} {pc : Pc} {kind : Kind} {flow : Nat}
  {data : AssertionData}

/-- The call that goes on. -/
def Event.call : Event → Option Nat
  | .prepared i _ | .transport i _ | .serve i | .resolve i | .tabCreated i _ | .reject i _ => some i
  | .begin .. | .complete .. | .tabRemoved _ | .elapse _ | .timeout => none

def Kind.sentBy : Kind → Option Nat
  | .complete flow _ => some flow
  | .begin .. => none

/-- The flow of the `assertion-complete` that a step runs. -/
def State.acting (s : State) (e : Event) : Option Nat :=
  match e with
  | .complete flow _ => some flow
  | _ => e.call.bind fun i => s.calls[i]?.bind fun c => c.kind.sentBy

/-- An `assertion-complete` of another flow leaves alone what the flow that has the lock shares. -/
def Undisturbed (s : State) (e : Event) : Prop :=
  ∀ flow newer t, s.acting e = some flow → s.holder = some newer → newer ≠ flow →
    s.step e = some t →
      t.authInProgress = s.authInProgress ∧ t.timer = s.timer ∧ t.authTabId = s.authTabId ∧
        t.pending = s.pending

/-- The payload has what the flow that has the lock has written. -/
def Matching (s : State) (flow : Nat) (data : AssertionData) : Prop :=
  s.holder = some flow ∧ ∃ p ∈ s.pending, p.flow = flow ∧
    data.tlvComponents = some p.tlvComponents ∧ data.sessionNonce = some p.sessionNonce

/-- Call `i` has handed its assertion to a transport. -/
def Handed (s : State) (i : Nat) (data : AssertionData) : Prop :=
  ∃ now message, data.message now = some message ∧ (i, message) ∈ s.sent

/-- A result `verified` is stored for the flow that has the lock, with its pending assertion, after
the assertion has been handed to a transport, and for the first time. -/
def Justified (s : State) (e : Event) : Prop :=
  ∀ i c flow data, e = .serve i → s.calls[i]? = some c → c.kind = .complete flow data →
    c.pc = .storingVerified false →
      s.authInProgress = true ∧ Handed s i data ∧
        ∃ holder, Matching s holder data ∧ holder ∉ s.consumed

def Isolated (s : State) (e : Event) : Prop := Undisturbed s e ∧ Justified s e

/-- Messages arrive when no handler runs, and are of the flow that has the lock, if there is one; a
complete assertion has what that flow has written, and is its first.  While a handler runs, the auth
tab is not closed and no flow begins, and there is a transport manager. -/
def Separate (s : State) : Event → Prop
  | .begin _ _ tab => s.authInProgress = false → tab.id.getD 0 ≠ 0 → ¬Running s
  | .complete flow data =>
    ¬Running s ∧ (∀ holder ∈ s.holder, holder = flow) ∧
      (data.status = verified → (data.message s.now).isSome = true →
        Matching s flow data ∧ flow ∉ s.consumed)
  | .transport _ tm => tm = true
  | .tabRemoved id => s.authTabId = some id → ¬Running s
  | _ => True

/-! ### What holds of the handler that runs -/

instance (s : State) (flow : Nat) (data : AssertionData) : Decidable (Matching s flow data) :=
  decidable_of_iff (s.holder = some flow ∧ ∃ p ∈ s.pending.toList, p.flow = flow ∧
      data.tlvComponents = some p.tlvComponents ∧ data.sessionNonce = some p.sessionNonce)
    (by simp [Matching])

instance (s : State) : Decidable (Running s) := inferInstanceAs (Decidable (∃ c ∈ s.calls, _))

instance (s : State) : ∀ e, Decidable (Separate s e)
  | .begin .. => inferInstanceAs (Decidable (_ → _ → ¬Running s))
  | .complete flow data => inferInstanceAs (Decidable (¬Running s ∧ (∀ holder ∈ s.holder, _) ∧
      (_ → _ → Matching s flow data ∧ _)))
  | .transport .. => inferInstanceAs (Decidable (_ = true))
  | .tabRemoved _ => inferInstanceAs (Decidable (_ → ¬Running s))
  | .prepared .. | .serve _ | .resolve _ | .tabCreated .. | .reject .. | .elapse _ | .timeout =>
    isTrue trivial

/-- What holds of a handler that runs, by where it stands. -/
def Placed (s : State) (i : Nat) : Call → Prop
  | ⟨.begin .., .preparing _⟩ | ⟨.begin .., .storingPending ..⟩ | ⟨.begin .., .creatingTab ..⟩ =>
    True
  | ⟨.complete flow data, pc⟩ =>
    s.timer = none ∧ (∀ holder ∈ s.holder, holder = flow) ∧
      match pc with
      | .initializing => Matching s flow data ∧ flow ∉ s.consumed
      | .sending message =>
        (Matching s flow data ∧ flow ∉ s.consumed) ∧ ∃ now, data.message now = some message
      | .storingVerified false => (Matching s flow data ∧ flow ∉ s.consumed) ∧ Handed s i data
      | .storingVerified true | .removingPending _ | .storingFailure .. => True
      | .preparing _ | .storingPending .. | .creatingTab .. | .ended _ => False
  | _ => False

/-- Call `i` is the only one that may be running. -/
def Alone (s : State) (i : Nat) : Prop :=
  ∀ j c, j ≠ i → s.calls[j]? = some c → c.pc.running = false

structure Apart (s : State) : Prop where
  locked : s.holder.isSome = true → s.authInProgress = true
  once : s.consumed.Nodup
  placed : ¬Running s ∨ ∃ i c, s.calls[i]? = some c ∧ Alone s i ∧ Placed s i c

theorem Apart.at (h : Apart s) (hi : s.calls[i]? = some c) (hrun : c.pc.running = true) :
    Alone s i ∧ Placed s i c := by
  obtain hidle | ⟨j, c', hj, halone, hplaced⟩ := h.placed
  · exact absurd ⟨c, List.mem_of_getElem? hi, hrun⟩ hidle
  · by_cases hij : i = j
    · subst hij
      obtain rfl := Option.some.inj (hi.symm.trans hj)
      exact ⟨halone, hplaced⟩
    · rw [halone i c hij hi] at hrun
      cases hrun

/-- The handler that runs moves on. -/
theorem Alone.placed (h : Alone s i) (hi : s.calls[i]? = some c)
    (hcalls : t.calls = (s.put i c pc).calls) (hplaced : Placed t i ⟨c.kind, pc⟩) :
    ¬Running t ∨ ∃ i c, t.calls[i]? = some c ∧ Alone t i ∧ Placed t i c := by
  refine .inr ⟨i, _, by rw [hcalls]; exact Tasks.set_self hi _, fun j c' hji hj => ?_, hplaced⟩
  rw [hcalls, State.put, List.getElem?_set_ne (Ne.symm hji)] at hj
  exact h j c' hji hj

/-- The handler that runs ends. -/
theorem Alone.idle (h : Alone s i) (hcalls : t.calls = (s.put i c pc).calls)
    (hpc : pc.running = false) : ¬Running t := by
  rintro ⟨c', hc', hrun⟩
  rw [hcalls] at hc'
  obtain rfl | ⟨j, hji, hj⟩ := Tasks.mem_set hc'
  · rw [hpc] at hrun
    cases hrun
  · rw [h j c' hji hj] at hrun
    cases hrun

theorem not_running_add (h : ¬Running s) (hcalls : t.calls = (s.add kind pc).calls)
    (hpc : pc.running = false) : ¬Running t := by
  rintro ⟨c, hc, hrun⟩
  rw [hcalls] at hc
  obtain hc | hc := List.mem_append.mp hc
  · exact h ⟨c, hc, hrun⟩
  · rw [List.mem_singleton.mp hc, hpc] at hrun
    cases hrun

/-- A handler starts when none runs. -/
theorem placed_add (h : ¬Running s) (hcalls : t.calls = (s.add kind pc).calls)
    (hplaced : Placed t s.calls.length ⟨kind, pc⟩) :
    ¬Running t ∨ ∃ i c, t.calls[i]? = some c ∧ Alone t i ∧ Placed t i c := by
  refine .inr ⟨s.calls.length, _, by rw [hcalls]; exact Tasks.append_self .., ?_, hplaced⟩
  intro j c hj hc
  rw [hcalls, State.add, List.getElem?_append] at hc
  split at hc
  · exact Bool.eq_false_iff.mpr fun hrun => h ⟨c, List.mem_of_getElem? hc, hrun⟩
  next hlt =>
    obtain ⟨hlt', -⟩ := List.getElem?_eq_some_iff.mp hc
    simp only [List.length_singleton] at hlt'
    omega

/-! ### Steps -/

/-- A step that leaves the lock as it is, and no handler running that was not. -/
theorem Apart.of_placed (h : Apart s) (hlock : t.authInProgress = s.authInProgress)
    (hholder : t.holder = s.holder) (honce : t.consumed = s.consumed)
    (hplaced : ¬Running t ∨ ∃ i c, t.calls[i]? = some c ∧ Alone t i ∧ Placed t i c) : Apart t where
  locked := by
    rw [hlock, hholder]
    exact h.locked
  once := honce ▸ h.once
  placed := hplaced

/-- A step that frees the lock. -/
theorem Apart.of_free (h : Apart s) (hholder : t.holder = none) (honce : t.consumed = s.consumed)
    (hplaced : ¬Running t ∨ ∃ i c, t.calls[i]? = some c ∧ Alone t i ∧ Placed t i c) : Apart t where
  locked := by
    rw [hholder]
    exact nofun
  once := honce ▸ h.once
  placed := hplaced

/-- The handler of an assertion moves on to where nothing is to be known but its flow. -/
theorem Apart.late (h : Apart s) (hi : s.calls[i]? = some c) (hrun : c.pc.running = true)
    (hbegin : ∀ {amount recipient}, ¬Placed s i ⟨.begin amount recipient, c.pc⟩)
    (hlate : ∀ flow data, Placed t i ⟨.complete flow data, pc⟩ =
      (s.timer = none ∧ (∀ holder ∈ s.holder, holder = flow) ∧ True))
    (hlock : t.authInProgress = s.authInProgress) (hholder : t.holder = s.holder)
    (honce : t.consumed = s.consumed) (hcalls : t.calls = (s.put i c pc).calls) : Apart t := by
  obtain ⟨kind, before⟩ := c
  obtain ⟨halone, hplaced⟩ := h.at hi hrun
  refine h.of_placed hlock hholder honce (halone.placed hi hcalls ?_)
  cases kind with
  | begin => exact absurd hplaced hbegin
  | complete flow data =>
    rw [hlate]
    exact ⟨hplaced.1, hplaced.2.1, trivial⟩

theorem Apart.add_ended (h : Apart s) {response : Response} :
    Apart (s.add kind (.ended response)) := by
  refine h.of_placed rfl rfl rfl ?_
  obtain hidle | ⟨i, c, hi, halone, hplaced⟩ := h.placed
  · exact .inl (not_running_add hidle rfl rfl)
  · refine .inr ⟨i, c, ?_, ?_, hplaced⟩
    · exact (List.getElem?_append_left (List.getElem?_eq_some_iff.mp hi).1).trans hi
    · intro j c' hj hc'
      simp only [State.add, List.getElem?_append] at hc'
      split at hc'
      · exact halone j c' hj hc'
      · rw [List.mem_singleton.mp (List.mem_of_getElem? hc')]
        rfl

theorem Apart.begin (h : Apart s) {amount recipient : Option Utf16} {tab : SenderTab}
    (hsep : Separate s (.begin amount recipient tab)) : Apart (s.begin amount recipient tab) := by
  simp only [State.begin]
  split
  · exact h.add_ended
  next hfree =>
    split
    · exact h.add_ended
    next hid =>
      have hidle : ¬Running s := hsep (Bool.eq_false_iff.mpr hfree) hid
      split
      · exact ⟨fun _ => rfl, h.once, .inl (not_running_add hidle rfl rfl)⟩
      · split
        · exact h.of_free rfl rfl (.inl (not_running_add hidle rfl rfl))
        · split
          · exact ⟨fun _ => rfl, h.once, .inl (not_running_add hidle rfl rfl)⟩
          · exact ⟨fun _ => rfl, h.once, placed_add hidle rfl trivial⟩

theorem Apart.complete (h : Apart s) (hsep : Separate s (.complete flow data)) :
    Apart (s.complete flow data) := by
  obtain ⟨hidle, hown, hfirst⟩ := hsep
  simp only [State.complete]
  split
  · exact h.of_placed rfl rfl rfl (placed_add hidle rfl ⟨rfl, hown, trivial⟩)
  next hverified =>
    split
    · exact h.of_placed rfl rfl rfl (placed_add hidle rfl ⟨rfl, hown, trivial⟩)
    next message hmessage =>
      have hmessage : (data.message s.now).isSome = true := Option.isSome_of_eq_some hmessage
      exact h.of_placed rfl rfl rfl
        (placed_add hidle rfl ⟨rfl, hown, hfirst (not_not.mp hverified) hmessage⟩)

theorem Apart.prepared (h : Apart s) (hi : s.calls[i]? = some c) {values : Prepared}
    (hs : s.prepared i c values = some t) : Apart t := by
  obtain ⟨kind, pc⟩ := c
  simp only [State.prepared] at hs
  split at hs
  · obtain ⟨halone, -⟩ := h.at hi rfl
    split at hs
    · obtain rfl := Option.some.inj hs
      exact h.of_free rfl rfl (.inl (halone.idle rfl rfl))
    · obtain rfl := Option.some.inj hs
      exact h.of_placed rfl rfl rfl (halone.placed hi rfl trivial)
  · cases hs

theorem Apart.transport (h : Apart s) (hi : s.calls[i]? = some c)
    (hs : s.transport i c true = some t) : Apart t := by
  obtain ⟨kind, pc⟩ := c
  simp only [State.transport, if_true] at hs
  split at hs
  · obtain ⟨halone, htimer, hown, hmatch⟩ := h.at hi rfl
    obtain ⟨message, hmessage, rfl⟩ := Option.map_eq_some_iff.mp hs
    exact h.of_placed rfl rfl rfl
      (halone.placed hi rfl ⟨htimer, hown, hmatch, s.now, hmessage⟩)
  · cases hs

theorem Apart.serve (h : Apart s) (hi : s.calls[i]? = some c) (hs : s.serve i c = some t) :
    Apart t := by
  obtain ⟨kind, pc⟩ := c
  simp only [State.serve] at hs
  split at hs
  · obtain rfl := Option.some.inj hs
    obtain ⟨halone, hplaced⟩ := h.at hi rfl
    cases kind with
    | begin => exact h.of_placed rfl rfl rfl (halone.placed hi rfl trivial)
    | complete => exact hplaced.2.2.elim
  · obtain rfl := Option.some.inj hs
    obtain ⟨halone, hplaced⟩ := h.at hi rfl
    cases kind with
    | begin => exact hplaced.elim
    | complete flow data =>
      obtain ⟨htimer, hown, ⟨⟨-, p, hp, hflow, -⟩, hfresh⟩, -⟩ := hplaced
      refine ⟨h.locked, ?_, halone.placed hi rfl ⟨htimer, hown, trivial⟩⟩
      rw [Option.mem_def.mp hp, Option.map_some, Option.toList_some, hflow]
      exact List.nodup_append.mpr ⟨h.once, by simp, by
        rintro f hf _ hf' rfl
        exact hfresh (List.mem_singleton.mp hf' ▸ hf)⟩
  · obtain rfl := Option.some.inj hs
    exact h.late hi rfl id (fun _ _ => rfl) rfl rfl rfl rfl
  · obtain rfl := Option.some.inj hs
    exact h.late hi rfl id (fun _ _ => rfl) rfl rfl rfl rfl
  · cases hs

theorem Apart.resolve (h : Apart s) (hi : s.calls[i]? = some c) (hs : s.resolve i c = some t) :
    Apart t := by
  obtain ⟨kind, pc⟩ := c
  simp only [State.resolve] at hs
  split at hs
  · obtain rfl := Option.some.inj hs
    obtain ⟨halone, hplaced⟩ := h.at hi rfl
    cases kind with
    | begin => exact h.of_placed rfl rfl rfl (halone.placed hi rfl trivial)
    | complete => exact hplaced.2.2.elim
  next message =>
    obtain rfl := Option.some.inj hs
    obtain ⟨halone, hplaced⟩ := h.at hi rfl
    cases kind with
    | begin => exact hplaced.elim
    | complete =>
      obtain ⟨htimer, hown, hmatch, now, hmessage⟩ := hplaced
      have hhanded : (i, message) ∈ s.sent ++ [(i, message)] := by simp
      exact h.of_placed rfl rfl rfl
        (halone.placed hi rfl ⟨htimer, hown, hmatch, now, message, hmessage, hhanded⟩)
  · obtain rfl := Option.some.inj hs
    exact h.late hi rfl id (fun _ _ => rfl) rfl rfl rfl rfl
  · obtain rfl := Option.some.inj hs
    obtain ⟨halone, -⟩ := h.at hi rfl
    exact h.of_free rfl rfl (.inl (halone.idle rfl rfl))
  · obtain rfl := Option.some.inj hs
    obtain ⟨halone, -⟩ := h.at hi rfl
    exact h.of_free rfl rfl (.inl (halone.idle rfl rfl))
  · cases hs

theorem Apart.reject (h : Apart s) (hi : s.calls[i]? = some c) {message : Option Utf16}
    (hs : s.reject i c message = some t) : Apart t := by
  obtain ⟨kind, pc⟩ := c
  cases pc with
  | preparing | storingPending | creatingTab =>
    obtain rfl := Option.some.inj hs
    obtain ⟨halone, -⟩ := h.at hi rfl
    exact h.of_free rfl rfl (.inl (halone.idle rfl rfl))
  | initializing | sending | storingVerified | removingPending =>
    obtain rfl := Option.some.inj hs
    exact h.late hi rfl id (fun _ _ => rfl) rfl rfl rfl rfl
  | storingFailure =>
    obtain rfl := Option.some.inj hs
    obtain ⟨halone, -⟩ := h.at hi rfl
    exact h.of_placed rfl rfl rfl (.inl (halone.idle rfl rfl))
  | ended => cases hs

theorem Apart.step {e : Event} (h : Apart s) (hsep : Separate s e) (hs : s.step e = some t) :
    Apart t := by
  cases e with
  | begin amount recipient tab =>
    obtain rfl := Option.some.inj hs
    exact h.begin hsep
  | complete flow data =>
    obtain rfl := Option.some.inj hs
    exact h.complete hsep
  | prepared i values =>
    obtain ⟨c, hi, hs⟩ := Option.bind_eq_some_iff.mp hs
    exact h.prepared hi hs
  | transport i tm =>
    obtain ⟨c, hi, hs⟩ := Option.bind_eq_some_iff.mp hs
    obtain rfl : tm = true := hsep
    exact h.transport hi hs
  | serve i =>
    obtain ⟨c, hi, hs⟩ := Option.bind_eq_some_iff.mp hs
    exact h.serve hi hs
  | resolve i =>
    obtain ⟨c, hi, hs⟩ := Option.bind_eq_some_iff.mp hs
    exact h.resolve hi hs
  | tabCreated i id =>
    obtain ⟨⟨kind, pc⟩, hi, hs⟩ := Option.bind_eq_some_iff.mp hs
    simp only [State.tabCreated] at hs
    split at hs
    · obtain rfl := Option.some.inj hs
      obtain ⟨halone, -⟩ := h.at hi rfl
      exact h.of_placed rfl rfl rfl (.inl (halone.idle rfl rfl))
    · cases hs
  | reject i message =>
    obtain ⟨c, hi, hs⟩ := Option.bind_eq_some_iff.mp hs
    exact h.reject hi hs
  | tabRemoved id =>
    obtain rfl := Option.some.inj hs
    split
    next htab => exact h.of_free rfl rfl (.inl (hsep htab))
    next => exact h
  | elapse ms =>
    simp only [State.step] at hs
    split at hs
    · obtain rfl := Option.some.inj hs
      exact h.of_placed rfl rfl rfl h.placed
    · cases hs
  | timeout =>
    simp only [State.step] at hs
    split at hs
    next hdue =>
      -- an assertion that is handled has taken the timer away
      have hplaced : ¬Running s ∨ ∃ i c, s.calls[i]? = some c ∧ Alone s i ∧
          ∀ t, Placed t i c := by
        obtain hidle | ⟨i, ⟨kind, pc⟩, hi, halone, hplaced⟩ := h.placed
        · exact .inl hidle
        · cases kind with
          | begin => exact .inr ⟨i, _, hi, halone, fun _ => by cases pc <;> exact hplaced⟩
          | complete => cases hdue.symm.trans hplaced.1
      have hplaced {t : State} (hcalls : t.calls = s.calls) :
          ¬Running t ∨ ∃ i c, t.calls[i]? = some c ∧ Alone t i ∧ Placed t i c := by
        simp only [Running, Alone, hcalls]
        obtain hidle | ⟨i, c, hi, halone, hall⟩ := hplaced
        · exact .inl hidle
        · exact .inr ⟨i, c, hi, halone, hall t⟩
      obtain rfl := Option.some.inj hs
      split
      · exact h.of_free rfl rfl (hplaced rfl)
      · exact h.of_placed rfl rfl rfl (hplaced rfl)
    next => cases hs

/-- The flow of a handler that goes on is the one that has the lock, if there is one. -/
theorem Apart.own (h : Apart s) {c' : Call} (hi : s.calls[i]? = some c')
    (hrun : c'.pc.running = true) (hkind : c'.kind = .complete flow data) :
    ∀ holder ∈ s.holder, holder = flow := by
  obtain ⟨kind, pc⟩ := c'
  subst hkind
  exact (h.at hi hrun).2.2.1

theorem running_of_step {e : Event} (he : e.call = some i) (hi : s.calls[i]? = some c)
    (hs : s.step e = some t) : c.pc.running = true := by
  by_contra hpc
  obtain ⟨response, hpc⟩ : ∃ response, c.pc = .ended response := by
    cases hc : c.pc <;> simp_all [Pc.running]
  cases e <;> cases he <;>
    simp [State.step, hi, State.serve, State.resolve, State.prepared, State.transport,
      State.tabCreated, State.reject, hpc] at hs

theorem Apart.undisturbed {e : Event} (h : Apart s) (hsep : Separate s e) : Undisturbed s e := by
  intro flow newer t hacting hnewer hne hs
  cases he : e.call with
  | some i =>
    have hcall : (s.calls[i]?.bind fun c => c.kind.sentBy) = some flow := by
      cases e <;> cases he <;> exact hacting
    obtain ⟨c, hi, hflow⟩ := Option.bind_eq_some_iff.mp hcall
    have hkind : ∃ data, c.kind = .complete flow data := by
      cases hk : c.kind with
      | begin => rw [hk] at hflow; cases hflow
      | complete flow' data => rw [hk] at hflow; cases hflow; exact ⟨data, rfl⟩
    obtain ⟨data, hkind⟩ := hkind
    exact absurd (h.own hi (running_of_step he hi hs) hkind newer hnewer) hne
  | none =>
    cases e with
    | complete flow' data =>
      cases hacting
      exact absurd (hsep.2.1 newer hnewer) hne
    | begin | tabRemoved | elapse | timeout => cases hacting
    | prepared | transport | serve | resolve | tabCreated | reject => cases he

theorem Apart.isolated {e : Event} (h : Apart s) (hsep : Separate s e) : Isolated s e := by
  refine ⟨h.undisturbed hsep, ?_⟩
  rintro i ⟨kind, pc⟩ flow data rfl hi rfl rfl
  obtain ⟨-, -, -, ⟨hmatch, hfresh⟩, hhanded⟩ := h.at hi rfl
  exact ⟨h.locked (by rw [hmatch.1]; rfl), hhanded, flow, hmatch, hfresh⟩

theorem apart_init : Apart {} where
  locked := nofun
  once := List.nodup_nil
  placed := .inl (by rintro ⟨c, hc, -⟩; cases hc)

/-- In a run in which the flows are kept separate, they are isolated, and each pending assertion is
consumed once at most. -/
theorem isolated_of_separate {es : List Event} (run : Machine.Run State.step {} es t)
    (hsep : Machine.Throughout State.step Separate {} es) :
    Machine.Throughout State.step Isolated {} es ∧ t.consumed.Nodup :=
  ⟨hsep.of_invariant apart_init (fun _ _ _ h hsep hs => h.step hsep hs)
      fun _ _ h hsep => h.isolated hsep,
    (run.invariant apart_init hsep fun _ _ _ h hsep hs => h.step hsep hs).once⟩

/-- A complete assertion with the components and the nonce of what a flow of `bank` has written. -/
def assertionOf (values : Prepared) : AssertionData where
  status := verified
  credentialId := some (Utf16.ofString "credential")
  tlvComponents := some (match Challenge.serializeChallengeComponents
      ⟨values.tlsBindingHash, Utf16.ofString "https://bank.example",
        values.controlCode.getD [], values.sessionNonce⟩ with
    | .ok bytes => Transport.arrayFrom bytes
    | .error _ => [])
  sessionNonce := some (Transport.arrayFrom values.sessionNonce)
  origin := some (Utf16.ofString "https://bank.example")
  controlCode := values.controlCode
  authenticatorData := some [1]
  signature := some [2]
  clientDataJSON := some [3]

def stored (i : Nat) : List Event := [.serve i, .resolve i]

/-- A flow whose assertion is sent and stored. -/
def verifiedFlow : List Event :=
  begun 0 pin ++ [.complete 0 (assertionOf pin), .transport 1 true, .resolve 1] ++ stored 1 ++
    stored 1

theorem verified_flow_isolated : ∃ t, Machine.Run State.step {} verifiedFlow t ∧
    Machine.Throughout State.step Isolated {} verifiedFlow ∧ t.consumed.Nodup := by
  obtain ⟨t, run⟩ : ∃ t, Machine.Run State.step {} verifiedFlow t :=
    Machine.exists_run_of_exec (by decide +kernel)
  exact ⟨t, run, isolated_of_separate run (by decide +kernel)⟩

/-- The nonce of a second flow. -/
def otherPin : Prepared := { pin with sessionNonce := List.replicate 32 4 }

/-- The first flow has timed out, and the second has begun. -/
def twoFlows : List Event := begun 0 pin ++ [.elapse authTimeoutMs, .timeout] ++ begun 1 otherPin

/-- The answer to the first flow, and its way to the result. -/
def lateAnswer : List Event := [.complete 0 (assertionOf pin), .transport 2 true, .resolve 2]

/-- The second flow has the lock and its timer. -/
def secondHolds (s : State) : Bool := s.holder = some 1 ∧ s.timer.isSome

/-- The answer to the first flow is about to be stored, with what the second has written. -/
def storesLate (s : State) : Bool :=
  s.calls[2]? = some ⟨.complete 0 (assertionOf pin), .storingVerified false⟩ ∧
    s.pending.map PendingAssertion.sessionNonce =
      some (Transport.arrayFrom otherPin.sessionNonce)

/-- It takes away the timer of the second flow, and is stored as that flow's, whose nonce it does
not have. -/
theorem late_answer_not_isolated :
    ∃ s t, Machine.Run State.step {} twoFlows s ∧
      ¬Undisturbed s (.complete 0 (assertionOf pin)) ∧
      Machine.Run State.step {} (twoFlows ++ lateAnswer) t ∧ ¬Justified t (.serve 2) := by
  have hbegun : (Machine.exec State.step {} twoFlows).any secondHolds = true := by decide +kernel
  have hlate : (Machine.exec State.step {} (twoFlows ++ lateAnswer)).any storesLate = true := by
    decide +kernel
  obtain ⟨s, run, hs⟩ := Machine.exists_run_with hbegun
  obtain ⟨t, run', ht⟩ := Machine.exists_run_with hlate
  obtain ⟨hholder, htimer⟩ := of_decide_eq_true hs
  obtain ⟨hcall, hnonce⟩ := of_decide_eq_true ht
  refine ⟨s, t, run, ?_, run', ?_⟩
  · intro hund
    obtain ⟨-, hsame, -⟩ := hund 0 1 _ rfl hholder (by decide) rfl
    have hcleared : (s.complete 0 (assertionOf pin)).timer = none := by
      simp only [State.complete]
      split
      · rfl
      · split <;> rfl
    rw [hcleared] at hsame
    rw [← hsame] at htimer
    cases htimer
  · intro hjust
    obtain ⟨-, -, holder, ⟨-, p, hp, -, -, hmine⟩, -⟩ :=
      hjust 2 _ 0 (assertionOf pin) rfl hcall rfl rfl
    rw [Option.mem_def.mp hp, Option.map_some, Option.some.injEq] at hnonce
    rw [hnonce] at hmine
    revert hmine
    decide +kernel

end SmartIdVault.Auth
