import SmartIdVault.Session.Cleared

/-! Where sessions are: in storage, or with a call that is under way.  A step makes no session but
that of a call of `activateSession`; it copies those that are there, and notes on the copy in local
storage when it was made. -/

namespace SmartIdVault.SessionManager

/-- The same session, but for when a copy of it was made. -/
def MfaSession.Copies (copy original : MfaSession) : Prop :=
  { copy with persistedAt := none } = { original with persistedAt := none }

theorem MfaSession.Copies.refl (session : MfaSession) : session.Copies session := rfl

theorem MfaSession.Copies.trans {copy session original : MfaSession} (h : copy.Copies session)
    (h' : session.Copies original) : copy.Copies original := Eq.trans h h'

theorem MfaSession.Copies.expiry {copy original : MfaSession} (h : copy.Copies original) :
    copy.expiry = original.expiry := by
  simp only [Copies, MfaSession.mk.injEq] at h
  exact h.2.2.1

def Outcome.carried : Outcome → List MfaSession
  | .session s => [s]
  | .undefined | .null | .expired => []

/-- What the call writes, gives to its caller or has read. -/
def Call.carried : Call → List MfaSession
  | .activateSession session _ => [session]
  | .clearSession _ outcome => outcome.carried
  | .getSession _ reply => (reply.bind id).toList
  | .resetIdleTimeout _ outcome => outcome.carried
  | .restorePersistedSession (.isPrfAvailable _) => []
  | .restorePersistedSession (.localGet reply) => (reply.bind id).toList
  | .restorePersistedSession (.sessionSet persisted) => [persisted]
  | .done outcome => outcome.carried

namespace Manager

/-- The session is stored, or a call carries it. -/
def Has (s : Manager) (session : MfaSession) : Prop :=
  (∃ key, s.browser.stored key = some session) ∨ ∃ t ∈ s.tasks, session ∈ t.call.carried

end Manager

variable {b : Browser} {c : Call} {s s' : Manager} {e : Event} {t : Task} {i : Nat}
  {key : StorageKey} {session : MfaSession}

theorem Caller.carried_absent (caller : Caller) : caller.absent.carried = [] := by
  cases caller <;> rfl

theorem Call.carried_present {read : MfaSession} {caller : Caller}
    (h : session ∈ (present read caller).carried) : session = read := by
  cases caller with
  | handler | verifySession => exact List.mem_singleton.mp h
  | onStateChanged => cases h

/-- A call gets its sessions from storage. -/
theorem Call.carried_next (h : session ∈ (c.next b).carried) :
    session ∈ c.carried ∨ ∃ key, b.stored key = some session := by
  rcases c with ⟨made, pc⟩ | ⟨pc, outcome⟩ | ⟨caller, _ | _ | read⟩ | ⟨pc, outcome⟩ | pc | outcome
  case activateSession => rcases pc with _ | (_ | _) | _ | _ <;> exact .inl h
  case clearSession => cases pc <;> exact .inl h
  case getSession.none => exact .inr ⟨.session, by simpa [Call.next, Call.carried] using h⟩
  case getSession.some.none =>
    rw [Call.next, Call.carried, Caller.carried_absent] at h
    cases h
  case getSession.some.some =>
    rw [Call.next] at h
    split at h
    · rw [Call.carried, Caller.carried_absent] at h
      cases h
    · rw [Call.carried_present h]
      exact .inl (List.mem_singleton_self _)
  case resetIdleTimeout => cases pc <;> exact .inl h
  case restorePersistedSession =>
    rcases pc with (_ | prfAvailable) | (_ | _ | persisted) | persisted
    case isPrfAvailable.none => cases h
    case isPrfAvailable.some =>
      rw [Call.next] at h
      split at h <;> cases h
    case localGet.none => exact .inr ⟨.persisted, by simpa [Call.next, Call.carried] using h⟩
    case localGet.some.none => cases h
    case localGet.some.some =>
      rw [Call.next] at h
      split at h
      · cases h
      · exact .inl h
    case sessionSet => cases h
  case done => exact .inl h

/-- A call writes copies of what it carries. -/
theorem Call.copies_written (h : c.request = some (.set key session)) :
    ∃ original ∈ c.carried, session.Copies original := by
  revert h
  fun_cases Call.request c
  all_goals simp [Call.carried]
  all_goals
    rintro - rfl
    rfl

theorem Browser.prfAvailable_after (b : Browser) (c : Call) :
    (b.after c).prfAvailable = b.prfAvailable := by
  rw [Browser.after]
  cases c.request with
  | none => rfl
  | some r => cases r <;> rfl

theorem Call.carried_detached {c' : Call} : c' ∈ c.detached → c'.carried = [] := by
  fun_cases Call.detached c
  · intro h
    rw [List.mem_singleton.mp h]
    rfl
  · exact fun h => by cases h

namespace Manager

theorem Has.of_start (hs : (s.start c).Has session) (hc : c.carried = []) : s.Has session := by
  obtain hstored | ⟨t, ht, hcarried⟩ := hs
  · exact .inl hstored
  · obtain ht | rfl := mem_start.mp ht
    · exact .inr ⟨t, ht, hcarried⟩
    · rw [hc] at hcarried
      cases hcarried

theorem Has.of_stored (hs : ({ s with tasks := [] } : Manager).Has session) : s.Has session := by
  obtain hstored | ⟨t, ht, -⟩ := hs
  · exact .inl hstored
  · cases ht

theorem Has.of_advance (hs : (s.advance i t).Has session) (ht : s.tasks[i]? = some t) :
    ∃ original, s.Has original ∧ session.Copies original := by
  obtain ⟨key, hstored⟩ | ⟨t', ht', hcarried⟩ := hs
  · obtain hold | hwritten := Browser.stored_after hstored
    · exact ⟨session, .inl ⟨key, hold⟩, .refl session⟩
    · obtain ⟨original, hcarried, hcopies⟩ :=
        Call.copies_written (Request.eq_set_of_written hwritten)
      exact ⟨original, .inr ⟨t, List.mem_of_getElem? ht, hcarried⟩, hcopies⟩
  · refine ⟨session, ?_, .refl session⟩
    obtain rfl | ht' | ⟨c, hc, rfl⟩ := mem_advance ht'
    · obtain hold | hread := Call.carried_next hcarried
      · exact .inr ⟨t, List.mem_of_getElem? ht, hold⟩
      · exact .inl hread
    · exact .inr ⟨t', ht', hcarried⟩
    · rw [Call.carried_detached hc] at hcarried
      cases hcarried

/-- The sessions after a step are copies of those before it, and that of an activation. -/
theorem has_of_step (h : s.step e = some s') (hs : s'.Has session) :
    (∃ original, s.Has original ∧ session.Copies original) ∨
      ∃ bytes deviceName, e = .activateSession bytes deviceName ∧
        session = s.newSession bytes deviceName := by
  have hkeep (hs : s.Has session) : ∃ original, s.Has original ∧ session.Copies original :=
    ⟨session, hs, .refl session⟩
  cases e with
  | activateSession bytes deviceName =>
    cases h
    obtain hstored | ⟨t, ht, hcarried⟩ := hs
    · exact .inl (hkeep (.inl hstored))
    · obtain ht | rfl := mem_start.mp ht
      · exact .inl (hkeep (.inr ⟨t, ht, hcarried⟩))
      · exact .inr ⟨bytes, deviceName, rfl, List.mem_singleton.mp hcarried⟩
  | clearSession | getSession | verifySession | resetIdleTimeout | restorePersistedSession =>
    cases h
    exact .inl (hkeep (hs.of_start rfl))
  | setPrfAvailable | pass =>
    cases h
    exact .inl (hkeep hs)
  | onAlarm alarm =>
    obtain ⟨due, -, h⟩ := Option.bind_eq_some_iff.mp h
    split at h
    · cases h
      exact .inl (hkeep (Has.of_start (c := .clearSession .sessionRemove .undefined) hs rfl))
    · cases h
  | onStateChanged state =>
    cases state with
    | active =>
      cases h
      exact .inl (hkeep (hs.of_start rfl))
    | idle | locked =>
      cases h
      exact .inl (hkeep hs)
  | run i =>
    obtain ⟨t, ht, h⟩ := Option.bind_eq_some_iff.mp h
    split at h
    · cases h
    · cases h
      exact .inl (hs.of_advance ht)
  | restart =>
    cases h
    exact .inl (hkeep hs.of_stored)
  | browserRestart =>
    cases h
    obtain ⟨key, hstored⟩ | ⟨t, ht, -⟩ := hs
    · cases key with
      | session => cases hstored
      | persisted => exact .inl (hkeep (.inl ⟨.persisted, hstored⟩))
    · cases ht

theorem now_step (h : s.step e = some s') : s.browser.now ≤ s'.browser.now := by
  cases step_effect h with
  | pass ms => exact Int.le_add_of_nonneg_right (Int.natCast_nonneg ms)
  | run => exact (Browser.now_after ..).ge
  | _ => exact le_refl _

theorem prfAvailable_step (h : s.step e = some s') (hprf : s'.browser.prfAvailable = true) :
    s.browser.prfAvailable = true ∨ e = .setPrfAvailable := by
  cases step_effect h with
  | prf => exact .inr rfl
  | browserRestart => cases hprf
  | run => exact .inl (Browser.prfAvailable_after .. ▸ hprf)
  | _ => exact .inl hprf

end Manager

end SmartIdVault.SessionManager
