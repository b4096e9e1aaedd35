import SmartIdVault.Session.Manager

/-! Whether a session that is stored is under its two alarms.  Session and alarms are written in
steps of their own: as long as no step takes an alarm from a session, or stores a session, while no
call is under way that sets the alarm or removes the session, no session is left without. -/

namespace SmartIdVault.SessionManager

open Machine

variable {s s' : Manager} {e : Event} {t : Task} {i : Nat} {alarm : Alarm} {b : Browser} {c : Call}

/-- The call sets the alarm, or removes the session, before it ends; `activateSession` leaves the
idle alarm to the `resetIdleTimeout` that it starts. -/
def Call.covers (alarm : Alarm) : Call → Bool
  | .activateSession _ _ => true
  | .clearSession .sessionRemove _ => true
  | .resetIdleTimeout _ _ => alarm = .idle
  | _ => false

namespace Manager

/-- Session storage has a session that has not run out. -/
def Holds (s : Manager) : Prop := ∃ session ∈ s.browser.stored .session, session.Live s.browser.now

def Awaited (s : Manager) (alarm : Alarm) : Prop := ∃ t ∈ s.tasks, t.call.covers alarm = true

def Pending (s : Manager) (alarm : Alarm) : Prop := (s.browser.due alarm).isSome = true

/-- The alarm is pending, or a call is under way that sets it or removes the session. -/
def Covered (s : Manager) (alarm : Alarm) : Prop := s.Pending alarm ∨ s.Awaited alarm

/-- The step of a call leaves no session without its alarms. -/
def Careful (s : Manager) : Call → Prop
  | .clearSession .clearTtl _ => s.Holds → s.Awaited .ttl
  | .clearSession .clearIdle _ => s.Holds → s.Awaited .idle
  | .restorePersistedSession (.sessionSet persisted) =>
    persisted.Live s.browser.now → s.Covered .ttl ∧ s.Covered .idle
  | _ => True

/-- No step of a call leaves a session without its alarms, nor does a restart of the service
worker. -/
def KeepsAlarms (s : Manager) : Event → Prop
  | .run i => ∀ t ∈ s.tasks[i]?, s.Careful t.call
  | .restart => s.Holds → s.Pending .ttl ∧ s.Pending .idle
  | _ => True

/-- With no call in flight, a session that has not run out is under both alarms. -/
def UnderAlarms (s : Manager) : Prop :=
  (∀ t ∈ s.tasks, t.call.isDone = true) → s.Holds →
    (∃ due ∈ s.browser.due .idle, due ≤ s.browser.now + idleTimeoutMs) ∧ s.Pending .ttl

instance : Decidable s.Holds := inferInstanceAs (Decidable (∃ session ∈ _, MfaSession.Live _ _))

instance : Decidable (s.Awaited alarm) := inferInstanceAs (Decidable (∃ t ∈ s.tasks, _))

instance : Decidable (s.Pending alarm) := inferInstanceAs (Decidable (_ = _))

instance : Decidable (s.Covered alarm) := inferInstanceAs (Decidable (_ ∨ _))

instance : DecidablePred s.Careful
  | .clearSession .clearTtl _ | .clearSession .clearIdle _ => inferInstanceAs (Decidable (_ → _))
  | .restorePersistedSession (.sessionSet _) => inferInstanceAs (Decidable (_ → _ ∧ _))
  | .activateSession .. | .clearSession .sessionRemove _ | .clearSession .localRemove _
  | .clearSession .localCheck _ | .getSession .. | .resetIdleTimeout ..
  | .restorePersistedSession (.isPrfAvailable _) | .restorePersistedSession (.localGet _)
  | .done _ => isTrue trivial

instance : DecidableRel KeepsAlarms
  | s, .run i => inferInstanceAs (Decidable (∀ t ∈ s.tasks[i]?, s.Careful t.call))
  | s, .restart => inferInstanceAs (Decidable (s.Holds → _ ∧ _))
  | _, .activateSession .. | _, .clearSession | _, .getSession | _, .verifySession
  | _, .resetIdleTimeout | _, .restorePersistedSession | _, .setPrfAvailable | _, .onAlarm _
  | _, .onStateChanged _ | _, .pass _ | _, .browserRestart => isTrue trivial

instance : Decidable s.UnderAlarms := inferInstanceAs (Decidable (_ → _ → _ ∧ _))

end Manager

/-! ### What a step does to the alarms -/

theorem Call.covers_next (b : Browser) (c : Call) : c.covers alarm = true →
    (c.next b).covers alarm = true ∨ (∃ c' ∈ c.detached, c'.covers alarm = true) ∨
      (∃ delay, c.request = some (.alarmsCreate alarm delay)) ∨
      c.request = some (.remove .session) := by
  fun_cases Call.next b c
  all_goals cases alarm <;> simp [Call.covers, Call.detached, Call.request]

theorem Call.not_covers_of_isDone (h : c.isDone = true) : c.covers alarm = false := by
  cases c <;> first | rfl | cases h

theorem Browser.due_after (b : Browser) (c : Call) (alarm : Alarm) :
    (b.after c).due alarm = b.due alarm ∨
    c.request = some (.alarmsClear alarm) ∧ (b.after c).due alarm = none ∨
    ∃ delay, c.request = some (.alarmsCreate alarm delay) ∧
      (b.after c).due alarm = some (b.now + delay * 60000) := by
  rw [Browser.after]
  rcases c.request with _ | (_ | _ | _ | ⟨alarm', delay⟩ | alarm')
  case some.alarmsCreate =>
    by_cases halarm : alarm = alarm'
    · subst halarm
      exact .inr (.inr ⟨delay, rfl, Function.update_self ..⟩)
    · exact .inl (Function.update_of_ne halarm ..)
  case some.alarmsClear =>
    by_cases halarm : alarm = alarm'
    · subst halarm
      exact .inr (.inl ⟨rfl, Function.update_self ..⟩)
    · exact .inl (Function.update_of_ne halarm ..)
  all_goals exact .inl rfl

theorem Call.request_createIdle {delay : Int} :
    c.request = some (.alarmsCreate .idle delay) → delay = idleTimeoutMs / 60000 := by
  fun_cases Call.request c
  all_goals simp
  exact Eq.symm

theorem Call.request_alarmsClear : c.request = some (.alarmsClear alarm) →
    (∃ outcome, c = .clearSession .clearTtl outcome ∧ alarm = .ttl) ∨
      (∃ outcome, c = .clearSession .clearIdle outcome ∧ alarm = .idle) ∨
        ∃ outcome, c = .resetIdleTimeout .clearIdle outcome ∧ alarm = .idle := by
  fun_cases Call.request c
  all_goals simp [eq_comm]

theorem Call.request_setSession {session : MfaSession} :
    c.request = some (.set .session session) →
      (∃ pc, c = .activateSession session pc) ∨
        c = .restorePersistedSession (.sessionSet session) := by
  fun_cases Call.request c
  all_goals simp

namespace Manager

theorem Pending.advance (h : s.Pending alarm)
    (hclear : t.call.request ≠ some (.alarmsClear alarm)) : (s.advance i t).Pending alarm := by
  show ((s.browser.after t.call).due alarm).isSome = true
  obtain hsame | ⟨hrequest, -⟩ | ⟨_, -, hsome⟩ := Browser.due_after s.browser t.call alarm
  · rw [hsame]
    exact h
  · exact absurd hrequest hclear
  · rw [hsome]
    rfl

theorem pending_of_create {delay : Int} (h : t.call.request = some (.alarmsCreate alarm delay)) :
    (s.advance i t).Pending alarm := by
  simp [Pending, Manager.advance, Browser.after, h, Browser.serve]

/-- A call that covers the alarm goes on doing so until it has set it or removed the session. -/
theorem Awaited.advance (h : s.Awaited alarm) (ht : s.tasks[i]? = some t)
    (hremove : t.call.request ≠ some (.remove .session)) : (s.advance i t).Covered alarm := by
  obtain ⟨t', ht', hcovers⟩ := h
  obtain ⟨j, hj⟩ := List.mem_iff_getElem?.mp ht'
  by_cases hji : j = i
  · subst hji
    obtain rfl := Option.some.inj (ht.symm.trans hj)
    obtain hnext | ⟨c, hc, hcovers⟩ | ⟨delay, hcreate⟩ | hrequest :=
      Call.covers_next s.browser t.call hcovers
    · exact .inr ⟨_, List.mem_append_left _ (Tasks.mem_set_self ht _), hnext⟩
    · exact .inr ⟨_, List.mem_append_right _ (List.mem_map_of_mem hc), hcovers⟩
    · exact .inl (pending_of_create hcreate)
    · exact absurd hrequest hremove
  · exact .inr ⟨t', List.mem_append_left _ (Tasks.mem_set_of_ne hji hj), hcovers⟩

/-- An alarm stays covered, unless the session is removed, or the alarm is taken while nothing else
covers it. -/
theorem Covered.advance (h : s.Covered alarm) (ht : s.tasks[i]? = some t)
    (hremove : t.call.request ≠ some (.remove .session))
    (hclear : t.call.request = some (.alarmsClear alarm) → s.Awaited alarm) :
    (s.advance i t).Covered alarm := by
  by_cases hrequest : t.call.request = some (.alarmsClear alarm)
  · exact (hclear hrequest).advance ht hremove
  · obtain hpending | hawaited := h
    · exact .inl (hpending.advance hrequest)
    · exact hawaited.advance ht hremove

theorem Covered.start (h : s.Covered alarm) (call : Call) : (s.start call).Covered alarm :=
  h.imp_right fun ⟨t, ht, hcovers⟩ => ⟨t, mem_start.mpr (.inl ht), hcovers⟩

/-! ### Every session that is stored is covered -/

structure Guarded (s : Manager) : Prop where
  covered : s.Holds → ∀ alarm, s.Covered alarm
  idleDue : ∀ due ∈ s.browser.due .idle, due ≤ s.browser.now + idleTimeoutMs

theorem guarded_init (now : Int) : (init now).Guarded where
  covered h := by
    obtain ⟨session, hsession, -⟩ := h
    cases hsession
  idleDue due hdue := by cases hdue

/-- The session after a step was there before, or the call has written it. -/
theorem holds_of_advance (h : (s.advance i t).Holds) : s.Holds ∨
    ∃ session, t.call.request = some (.set .session session) ∧ session.Live s.browser.now := by
  obtain ⟨session, hsession, hlive⟩ := h
  have hlive : session.Live (s.browser.after t.call).now := hlive
  rw [Browser.now_after] at hlive
  obtain hold | hwritten := Browser.stored_after hsession
  · exact .inl ⟨session, hold, hlive⟩
  · exact .inr ⟨session, Request.eq_set_of_written hwritten, hlive⟩

/-- What covers the session that is there after a careful step has done so before it. -/
theorem Guarded.coveredBefore (h : s.Guarded) (ht : s.tasks[i]? = some t)
    (hcareful : s.Careful t.call) (hholds : (s.advance i t).Holds) : s.Covered alarm := by
  obtain hbefore | ⟨session, hrequest, hlive⟩ := holds_of_advance hholds
  · exact h.covered hbefore alarm
  · obtain ⟨pc, hactivate⟩ | hrestore := Call.request_setSession hrequest
    · exact .inr ⟨t, List.mem_of_getElem? ht, by rw [hactivate]; rfl⟩
    · rw [hrestore] at hcareful
      cases alarm with
      | ttl => exact (hcareful hlive).1
      | idle => exact (hcareful hlive).2

/-- A careful step takes an alarm only if a call covers it that is under way. -/
theorem Careful.awaited (h : s.Careful t.call) (ht : s.tasks[i]? = some t)
    (hrequest : t.call.request = some (.alarmsClear alarm)) (hholds : (s.advance i t).Holds) :
    s.Awaited alarm := by
  have hbefore : s.Holds := by
    obtain hbefore | ⟨session, hset, -⟩ := holds_of_advance hholds
    · exact hbefore
    · rw [hrequest] at hset
      cases hset
  obtain ⟨outcome, hc, rfl⟩ | ⟨outcome, hc, rfl⟩ | ⟨outcome, hc, rfl⟩ :=
    Call.request_alarmsClear hrequest
  · rw [hc] at h
    exact h hbefore
  · rw [hc] at h
    exact h hbefore
  · exact ⟨t, List.mem_of_getElem? ht, by rw [hc]; rfl⟩

theorem Guarded.advance (h : s.Guarded) (ht : s.tasks[i]? = some t) (hcareful : s.Careful t.call) :
    (s.advance i t).Guarded where
  covered hholds alarm := by
    have hcovered : s.Covered alarm := h.coveredBefore ht hcareful hholds
    have hremove : t.call.request ≠ some (.remove .session) := by
      intro hrequest
      obtain ⟨session, hsession, -⟩ := hholds
      have hnone : (s.advance i t).browser.stored .session = none := Browser.stored_remove hrequest
      rw [hnone] at hsession
      cases hsession
    exact hcovered.advance ht hremove fun hrequest =>
      hcareful.awaited ht hrequest hholds
  idleDue due hdue := by
    show due ≤ (s.browser.after t.call).now + idleTimeoutMs
    rw [Browser.now_after]
    have hdue : (s.browser.after t.call).due .idle = some due := hdue
    obtain hsame | ⟨-, hnone⟩ | ⟨delay, hrequest, hsome⟩ :=
      Browser.due_after s.browser t.call .idle
    · exact h.idleDue due (hsame.symm.trans hdue)
    · rw [hnone] at hdue
      cases hdue
    · rw [hsome] at hdue
      cases hdue
      rw [Call.request_createIdle hrequest, idleTimeoutMs]
      omega

theorem Guarded.start (h : s.Guarded) (call : Call) : (s.start call).Guarded where
  covered hholds alarm := (h.covered hholds alarm).start call
  idleDue := h.idleDue

/-- A call that covers both alarms is made. -/
theorem Guarded.startCovering (h : s.Guarded) {call : Call} (n : Nat)
    (hcall : ∀ alarm, call.covers alarm = true)
    (hdue : ∀ due ∈ b.due .idle, due ∈ s.browser.due .idle) (hnow : b.now = s.browser.now) :
    ({ s.start call with browser := b, activations := n } : Manager).Guarded where
  covered _ alarm := .inr ⟨_, mem_start.mpr (.inr rfl), hcall alarm⟩
  idleDue due hmem := by
    show due ≤ b.now + idleTimeoutMs
    rw [hnow]
    exact h.idleDue due (hdue due hmem)

theorem Guarded.step (h : s.Guarded) (hkeeps : s.KeepsAlarms e) (hstep : s.step e = some s') :
    s'.Guarded := by
  cases step_effect hstep with
  | activate bytes deviceName =>
    exact h.startCovering (b := s.browser) _ (fun _ => rfl) (fun _ hdue => hdue) rfl
  | start _ => exact h.start _
  | prf => exact ⟨h.covered, h.idleDue⟩
  | @alarm alarm =>
    refine h.startCovering s.activations (fun _ => rfl) (fun due hdue => ?_) rfl
    have hdue : Function.update s.browser.due alarm none .idle = some due := hdue
    by_cases halarm : Alarm.idle = alarm
    · rw [halarm, Function.update_self] at hdue
      cases hdue
    · rwa [Function.update_of_ne halarm] at hdue
  | ignored => exact h
  | run ht => exact h.advance ht (hkeeps _ ht)
  | pass ms =>
    constructor
    · rintro ⟨session, hsession, hlive⟩ alarm
      have hlive : s.browser.now + ms ≤ session.expiry := hlive
      have hbefore : session.Live s.browser.now := by
        rw [MfaSession.Live]
        omega
      exact h.covered ⟨session, hsession, hbefore⟩ alarm
    · intro due hdue
      have hle := h.idleDue due hdue
      show due ≤ s.browser.now + ms + idleTimeoutMs
      omega
  | restart =>
    refine ⟨fun hholds alarm => .inl ?_, h.idleDue⟩
    cases alarm with
    | ttl => exact (hkeeps hholds).1
    | idle => exact (hkeeps hholds).2
  | browserRestart =>
    constructor
    · rintro ⟨session, hsession, -⟩ _
      have hsession : Function.update s.browser.stored .session none .session = some session :=
        hsession
      rw [Function.update_self] at hsession
      cases hsession
    · intro due hdue
      cases hdue

theorem Guarded.underAlarms (h : s.Guarded) : s.UnderAlarms := by
  intro hdone hholds
  have hpending (alarm : Alarm) : s.Pending alarm := by
    obtain hpending | ⟨t, ht, hcovers⟩ := h.covered hholds alarm
    · exact hpending
    · rw [Call.not_covers_of_isDone (hdone t ht)] at hcovers
      cases hcovers
  refine ⟨?_, hpending .ttl⟩
  obtain ⟨due, hdue⟩ := Option.isSome_iff_exists.mp (hpending .idle)
  exact ⟨due, hdue, h.idleDue due hdue⟩

/-- As long as no step of a call, nor a restart of the service worker, leaves a session without its
alarms, every session that is stored is under both, and the idle alarm is due in time. -/
theorem under_alarms {now : Int} {es : List Event} (hrun : Run step (init now) es s)
    (hkeeps : Throughout step KeepsAlarms (init now) es) : s.UnderAlarms :=
  (hrun.invariant (guarded_init now) hkeeps fun _ _ _ h hkeeps hs => h.step hkeeps hs).underAlarms

def sampleActivation : List Event :=
  [.activateSession (List.replicate 32 7) none, .run 0, .run 0, .run 0, .run 0, .run 0, .run 1,
    .run 1]

/-- The service worker is stopped and restores the session, and a message handler verifies it. -/
def restored : List Event :=
  sampleActivation ++ [.restart, .pass 1000, .restorePersistedSession, .run 0, .run 0, .run 0,
    .run 0, .run 0, .verifySession, .run 1, .run 1, .run 1, .run 1]

theorem restored_under_alarms : ∃ s, Run step (init 0) restored s ∧
    (∀ t ∈ s.tasks, t.call.isDone = true) ∧ s.Holds ∧ s.UnderAlarms := by
  have hexec : ((exec step (init 0) restored).any fun s =>
      (∀ t ∈ s.tasks, t.call.isDone = true) ∧ s.Holds) = true := by
    decide +kernel
  obtain ⟨s, hrun, hs⟩ := exists_run_with hexec
  obtain ⟨hdone, hholds⟩ := of_decide_eq_true hs
  exact ⟨s, hrun, hdone, hholds, under_alarms hrun (by decide +kernel)⟩

/-- The whole browser is started anew instead. -/
def restoredInNewBrowser : List Event :=
  sampleActivation ++ [.browserRestart, .restorePersistedSession, .run 0, .run 0, .run 0, .run 0,
    .run 0]

/-- `restorePersistedSession` sets no alarm for the session that it restores. -/
theorem restored_without_alarms : ∃ s, Run step (init 0) restoredInNewBrowser s ∧
    (∀ t ∈ s.tasks, t.call.isDone = true) ∧ s.Holds ∧ ¬s.Pending .idle ∧ ¬s.Pending .ttl ∧
    ¬s.UnderAlarms := by
  have hexec : ((exec step (init 0) restoredInNewBrowser).any fun s =>
      (∀ t ∈ s.tasks, t.call.isDone = true) ∧ s.Holds ∧ ¬s.Pending .idle ∧ ¬s.Pending .ttl ∧
        ¬s.UnderAlarms) = true := by
    decide +kernel
  obtain ⟨s, hrun, hs⟩ := exists_run_with hexec
  exact ⟨s, hrun, of_decide_eq_true hs⟩

end Manager

end SmartIdVault.SessionManager
