import SmartIdVault.Session.Manager

/-! Whether a session that has been cleared stays cleared.  `clearSession` removes the two copies
one after the other, and a call of `activateSession` or `restorePersistedSession` that is under way
meanwhile may write its copy after that. -/

namespace SmartIdVault.SessionManager

open Machine

variable {s s' : Manager} {e : Event} {t : Task} {i : Nat} {key : StorageKey}

/-- `clearSession` is past its removal of what is under the key. -/
def Call.removed (key : StorageKey) : Call → Bool
  | .clearSession .sessionRemove _ => false
  | .clearSession .localRemove _ => key = .session
  | .clearSession _ _ => true
  | _ => false

/-- Nothing of the session is awaited any more. -/
def Call.settled : Call → Bool
  | .done _ | .resetIdleTimeout _ _ => true
  | _ => false

namespace Manager

/-- A `clearSession` has completed, and `activateSession` has not been called since it began. -/
def Cleared (s : Manager) : Prop := s.clearedAt = some s.activations

/-- What is under the key has been removed by a `clearSession` that has completed or is in flight,
and `activateSession` has not been called since that began. -/
def Removed (s : Manager) (key : StorageKey) : Prop :=
  s.Cleared ∨ ∃ t ∈ s.tasks, t.since = s.activations ∧ t.call.removed key = true

/-- The call writes a session that has not run out to where it has been removed. -/
def Late (s : Manager) (c : Call) : Prop :=
  ∃ p ∈ c.request.bind Request.written, p.2.Live s.browser.now ∧ s.Removed p.1

/-- No step of a call is late. -/
def InTime (s : Manager) : Event → Prop
  | .run i => ∀ t ∈ s.tasks[i]?, ¬s.Late t.call
  | _ => True

/-- Every call has completed, but for what resets the idle alarm. -/
def Settled (s : Manager) : Prop := ∀ t ∈ s.tasks, t.call.settled = true

/-- A cleared session is neither there nor restored. -/
def StaysCleared (s : Manager) : Prop :=
  s.Settled → s.Cleared → s.browser.getSession = .done .null ∧
    s.browser.restorePersistedSession.getSession = .done .null

instance : Decidable s.Cleared := inferInstanceAs (Decidable (_ = _))

instance : Decidable (s.Removed key) := inferInstanceAs (Decidable (_ ∨ _))

instance (c : Call) : Decidable (s.Late c) := inferInstanceAs (Decidable (∃ p ∈ _, _))

instance : DecidableRel InTime
  | s, .run i => inferInstanceAs (Decidable (∀ t ∈ s.tasks[i]?, ¬s.Late t.call))
  | _, .activateSession .. | _, .clearSession | _, .getSession | _, .verifySession
  | _, .resetIdleTimeout | _, .restorePersistedSession | _, .setPrfAvailable | _, .onAlarm _
  | _, .onStateChanged _ | _, .pass _ | _, .restart | _, .browserRestart => isTrue trivial

instance : Decidable s.Settled := inferInstanceAs (Decidable (∀ _ ∈ _, _))

instance : Decidable s.StaysCleared := inferInstanceAs (Decidable (_ → _ → _))

end Manager

/-! ### What a step removes and writes -/

/-- Only a `clearSession` comes past its removals, and by removing. -/
theorem Call.removed_next (b : Browser) (c : Call) : (c.next b).removed key = true →
    c.clearing = true ∧ (c.removed key = true ∨ c.request = some (.remove key)) := by
  fun_cases Call.next b c
  case case14 caller session _ => cases caller <;> intro h <;> cases h
  all_goals cases key <;> simp [Call.removed, Call.clearing, Call.request]

theorem Call.clearing_of_removed {c : Call} (h : c.removed key = true) : c.clearing = true := by
  cases c <;> first | rfl | cases h

theorem Call.removed_of_clearEnds {c : Call} (h : c.clearEnds = true) : c.removed key = true := by
  revert h
  fun_cases Call.clearEnds c
  · exact fun _ => rfl
  · exact fun h => by cases h

theorem Call.removed_detached {c c' : Call} : c' ∈ c.detached → c'.removed key = false := by
  fun_cases Call.detached c
  · intro h
    rw [List.mem_singleton.mp h]
    rfl
  · exact fun h => by cases h

namespace Manager

theorem Removed.of_advance (h : (s.advance i t).Removed key) (ht : s.tasks[i]? = some t) :
    s.Removed key ∨ t.call.request = some (.remove key) := by
  obtain hc | ⟨t', ht', hsince, hrem⟩ := h
  · have hmem : t ∈ s.tasks := List.mem_of_getElem? ht
    simp only [Cleared, advance] at hc
    split at hc
    next hend => exact .inl (.inr ⟨t, hmem, hend.2, Call.removed_of_clearEnds hend.1⟩)
    next => exact .inl (.inl hc)
  · obtain rfl | ht' | ⟨c, hc, rfl⟩ := mem_advance ht'
    · -- the task that has moved was in its `clearSession` before
      obtain ⟨hclearing, hremoved | hrequest⟩ := Call.removed_next _ _ hrem
      · simp only [hclearing, if_true] at hsince
        exact .inl (.inr ⟨t, List.mem_of_getElem? ht, hsince, hremoved⟩)
      · exact .inr hrequest
    · exact .inl (.inr ⟨t', ht', hsince, hrem⟩)
    · rw [Call.removed_detached hc] at hrem
      cases hrem

/-- What holds as long as no write is late: nothing is left of what has been removed. -/
structure Gone (s : Manager) : Prop where
  clearedAt : ∀ n ∈ s.clearedAt, n ≤ s.activations
  since : ∀ t ∈ s.tasks, t.since ≤ s.activations
  stored : ∀ key, s.Removed key → ∀ session ∈ s.browser.stored key, ¬session.Live s.browser.now

theorem gone_init (now : Int) : (init now).Gone where
  clearedAt n hn := by cases hn
  since t ht := by cases ht
  stored key _ session hsession := by cases hsession

/-- A call of `activateSession` comes after every `clearSession` that has begun. -/
theorem Gone.activate (h : s.Gone) (call : Call) :
    ({ s.start call with activations := s.activations + 1 } : Manager).Gone where
  clearedAt n hn := Nat.le_succ_of_le (h.clearedAt n hn)
  since t ht := by
    obtain ht | rfl := mem_start.mp ht
    · exact Nat.le_succ_of_le (h.since t ht)
    · exact Nat.le_succ _
  stored key hremoved := by
    exfalso
    obtain hc | ⟨t, ht, hsince, -⟩ := hremoved
    · have hle := h.clearedAt _ hc
      exact Nat.not_succ_le_self _ hle
    · obtain ht | rfl := mem_start.mp ht
      · have hle := h.since t ht
        have hsince : t.since = s.activations + 1 := hsince
        omega
      · exact Nat.succ_ne_self _ hsince.symm

theorem Removed.of_start {call : Call} (hcall : call.removed key = false)
    (h : (s.start call).Removed key) : s.Removed key := by
  obtain hc | ⟨t, ht, hsince, hrem⟩ := h
  · exact .inl hc
  · obtain ht | rfl := mem_start.mp ht
    · exact .inr ⟨t, ht, hsince, hrem⟩
    · rw [hcall] at hrem
      cases hrem

theorem Gone.start {call : Call} (h : s.Gone) (hcall : ∀ key, call.removed key = false) :
    (s.start call).Gone where
  clearedAt := h.clearedAt
  since t ht := by
    obtain ht | rfl := mem_start.mp ht
    · exact h.since t ht
    · exact Nat.le_refl _
  stored key hremoved := h.stored key (hremoved.of_start (hcall key))

theorem Gone.advance (h : s.Gone) (ht : s.tasks[i]? = some t) (hlate : ¬s.Late t.call) :
    (s.advance i t).Gone where
  clearedAt n hn := by
    simp only [Manager.advance] at hn
    split at hn
    next hend =>
      cases hn
      exact hend.2.le
    next => exact h.clearedAt n hn
  since t' ht' := by
    obtain rfl | ht' | ⟨c, -, rfl⟩ := mem_advance ht'
    · have hle := h.since t (List.mem_of_getElem? ht)
      show (if t.call.clearing then t.since else s.activations) ≤ s.activations
      split
      · exact hle
      · exact Nat.le_refl _
    · exact h.since t' ht'
    · exact Nat.le_refl _
  stored key hremoved session hsession := by
    show ¬session.Live (s.browser.after t.call).now
    rw [Browser.now_after]
    obtain hold | hrequest := hremoved.of_advance ht
    · obtain hstored | hwritten := Browser.stored_after hsession
      · exact h.stored key hold session hstored
      · intro hlive
        exact hlate ⟨(key, session), hwritten, hlive, hold⟩
    · have hnone : (s.advance i t).browser.stored key = none := Browser.stored_remove hrequest
      rw [hnone] at hsession
      cases hsession

/-- Nothing that has not run out comes up. -/
theorem Gone.of_browser (h : s.Gone) {b : Browser}
    (hb : ∀ key, ∀ session ∈ b.stored key, session.Live b.now →
      session ∈ s.browser.stored key ∧ session.Live s.browser.now) :
    ({ s with browser := b } : Manager).Gone where
  clearedAt := h.clearedAt
  since := h.since
  stored key hremoved session hsession hlive := by
    obtain ⟨hold, hlive⟩ := hb key session hsession hlive
    exact h.stored key hremoved session hold hlive

theorem Gone.drop (h : s.Gone) : ({ s with tasks := [] } : Manager).Gone where
  clearedAt := h.clearedAt
  since t ht := by cases ht
  stored key hremoved := by
    obtain hc | ⟨t, ht, -⟩ := hremoved
    · exact h.stored key (.inl hc)
    · cases ht

theorem Gone.step (h : s.Gone) (hin : s.InTime e) (hstep : s.step e = some s') : s'.Gone := by
  cases step_effect hstep with
  | activate bytes deviceName => exact h.activate _
  | @start _ call hcall =>
    refine h.start fun key => ?_
    cases hclearing : call.clearing with
    | true =>
      rw [hcall hclearing]
      rfl
    | false =>
      by_contra hrem
      rw [Call.clearing_of_removed (Bool.eq_true_of_not_eq_false hrem)] at hclearing
      cases hclearing
  | prf => exact h.of_browser fun key session hsession hlive => ⟨hsession, hlive⟩
  | alarm =>
    have hstart : (s.start (.clearSession .sessionRemove .undefined)).Gone := h.start fun _ => rfl
    exact hstart.of_browser fun key session hsession hlive => ⟨hsession, hlive⟩
  | ignored => exact h
  | run ht => exact h.advance ht (hin _ ht)
  | pass ms =>
    refine h.of_browser fun key session hsession hlive => ⟨hsession, ?_⟩
    simp only [MfaSession.Live] at hlive ⊢
    omega
  | restart => exact h.drop
  | browserRestart =>
    refine h.drop.of_browser fun key session hsession hlive => ⟨?_, hlive⟩
    cases key with
    | session =>
      simp only [Browser.restarted, Function.update_self] at hsession
      cases hsession
    | persisted => exact hsession

theorem Gone.staysCleared (h : s.Gone) : s.StaysCleared := by
  intro _ hcleared
  have hgone (key : StorageKey) := h.stored key (.inl hcleared)
  have hnull : s.browser.getSession = .done .null := Browser.getSession_null (hgone .session)
  refine ⟨hnull, ?_⟩
  rw [Browser.restorePersistedSession_eq]
  split
  · exact hnull
  · cases hpersisted : s.browser.stored .persisted with
    | none => exact hnull
    | some persisted =>
      rw [Option.elim_some, if_neg (hgone .persisted persisted hpersisted)]
      exact Browser.getSession_null fun session hsession => by cases hsession

/-- As long as no call of `activateSession` or `restorePersistedSession` writes its session to where
a `clearSession` that came after every `activateSession` has removed it, a session that has been
cleared stays cleared. -/
theorem stays_cleared {now : Int} {es : List Event} (hrun : Run step (init now) es s)
    (hin : Throughout step InTime (init now) es) : s.StaysCleared :=
  (hrun.invariant (gone_init now) hin fun _ _ _ h hin hs => h.step hin hs).staysCleared

def sampleToken : Bytes := List.replicate 32 7

/-- `clearSession` is called while `activateSession` is between its two writes, which are all made
before the removals of what they have written. -/
def overlap : List Event :=
  [.activateSession sampleToken none, .run 0, .clearSession, .run 0, .run 0, .run 0, .run 1, .run 1,
    .run 0, .run 1, .run 1, .run 1, .run 2, .run 2]

theorem overlap_stays_cleared : ∃ s, Run step (init 0) overlap s ∧ s.Settled ∧ s.Cleared ∧
    s.StaysCleared := by
  have hexec : ((exec step (init 0) overlap).any fun s => s.Settled ∧ s.Cleared) = true := by
    decide +kernel
  obtain ⟨s, hrun, hs⟩ := exists_run_with hexec
  obtain ⟨hsettled, hcleared⟩ := of_decide_eq_true hs
  exact ⟨s, hrun, hsettled, hcleared, stays_cleared hrun (by decide +kernel)⟩

/-- `clearSession` is called in the same place, and removes both copies before `activateSession`
writes the one in local storage. -/
def lateWrite : List Event :=
  [.activateSession sampleToken none, .run 0, .clearSession, .run 1, .run 0, .run 1, .run 0, .run 0,
    .run 1, .run 0, .run 1, .run 1, .run 2, .run 2]

/-- The session that has been cleared comes back with the next `restorePersistedSession`. -/
theorem late_write_is_restored : ∃ s, Run step (init 0) lateWrite s ∧
    (∀ t ∈ s.tasks, t.call.isDone = true) ∧ s.Cleared ∧ s.browser.getSession = .done .null ∧
    (∃ session, s.browser.restorePersistedSession.getSession = .done (.session session)) ∧
    ¬s.StaysCleared := by
  let session : MfaSession :=
    { sessionToken := generateSessionToken sampleToken, mfaVerifiedAt := 0, expiry := sessionTtlMs
      deviceName := none, persistedAt := some 0 }
  have hexec : ((exec step (init 0) lateWrite).any fun s =>
      (∀ t ∈ s.tasks, t.call.isDone = true) ∧ s.Cleared ∧ s.browser.getSession = .done .null ∧
        s.browser.restorePersistedSession.getSession = .done (.session session) ∧
        ¬s.StaysCleared) = true := by
    decide +kernel
  obtain ⟨s, hrun, hs⟩ := exists_run_with hexec
  obtain ⟨hdone, hcleared, hnull, hrestored, hstays⟩ := of_decide_eq_true hs
  exact ⟨s, hrun, hdone, hcleared, hnull, ⟨session, hrestored⟩, hstays⟩

end Manager

end SmartIdVault.SessionManager
