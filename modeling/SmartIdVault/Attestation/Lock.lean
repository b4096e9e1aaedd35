import SmartIdVault.Attestation.Verifier

/-! `withAttestationLock` of `entrypoints/background/attestationManager.ts`.  A caller reads the
promise in `attestationMutex`, awaits it, and only then puts its own promise in its place, so two
callers that read the same promise enter one right after the other.  The lock excludes, and keeps
the order of the calls, in every run in which nobody calls it while another caller still waits. -/

namespace SmartIdVault.Attestation

/-- Where a caller stands: before its body, in it, between the end of its body and the release of
the lock, or after that. -/
inductive Phase
  | waiting | running | leaving | done
  deriving DecidableEq, Repr

/-- What the event loop has to run next: the code of a caller after its first `await`, or after the
`await` of its body. -/
inductive Job
  | enter (i : Nat)
  | exit (i : Nat)
  deriving DecidableEq, Repr

/-- Callers are numbered as they call.  `mutex` is the promise in `attestationMutex`, that of a
caller or the resolved one at the beginning, `awaiting` has the promises with the callers that await
them, and `started` the callers in the order in which their bodies begin. -/
structure Lock where
  calls : Nat := 0
  phase : Nat → Phase := fun _ => .waiting
  mutex : Option Nat := none
  awaiting : List (Nat × Nat) := []
  jobs : List Job := []
  started : List Nat := []
  computed : Nat → Option AttestationStatus := fun _ => none
  status : AttestationStatus := .notApplicable

/-- A call of `withAttestationLock`; the next job of the event loop; the assignment of
`currentAttestationStatus` in the body of a caller; the promise of its body resolves or rejects. -/
inductive LockEvent
  | call
  | job
  | process (i : Nat) (attestedCode : Option AttestedCode) (domCode : Option Utf16)
  | settle (i : Nat)

namespace Lock

/-- A call up to its first `await`, which goes on at once if the promise has been resolved. -/
def call (s : Lock) : Lock :=
  match s.mutex with
  | none => { s with calls := s.calls + 1, jobs := s.jobs ++ [.enter s.calls] }
  | some j =>
    if s.phase j = .done then { s with calls := s.calls + 1, jobs := s.jobs ++ [.enter s.calls] }
    else { s with calls := s.calls + 1, awaiting := s.awaiting ++ [(j, s.calls)] }

def runJob (s : Lock) : Job → Lock
  | .enter i => { s with
      phase := Function.update s.phase i .running
      mutex := some i
      started := s.started ++ [i] }
  | .exit i => { s with
      phase := Function.update s.phase i .done
      jobs := s.jobs ++ (s.awaiting.filter (·.1 = i)).map fun w => .enter w.2
      awaiting := s.awaiting.filter (·.1 ≠ i) }

def step (s : Lock) : LockEvent → Option Lock
  | .call => some s.call
  | .job =>
    match s.jobs with
    | [] => none
    | job :: rest => some ({ s with jobs := rest }.runJob job)
  | .process i attestedCode domCode =>
    if s.phase i = .running then
      let status := verifyControlCode attestedCode domCode
      some { s with status, computed := Function.update s.computed i (some status) }
    else none
  | .settle i =>
    if s.phase i = .running then
      some { s with phase := Function.update s.phase i .leaving, jobs := s.jobs ++ [.exit i] }
    else none

abbrev Run (s : Lock) (es : List LockEvent) (t : Lock) : Prop := Machine.Run step s es t

/-- The status that the last caller to compute one, in the order of the calls, has computed. -/
def latest (s : Lock) (n : Nat) : AttestationStatus :=
  ((List.range n).filterMap s.computed).getLast?.getD .notApplicable

/-- No two bodies run at a time, bodies begin in the order of the calls, and when all callers are
done the status is the last one computed in that order. -/
structure Exclusive (s : Lock) : Prop where
  alone : ∀ i j, s.phase i = .running → s.phase j = .running → i = j
  inOrder : s.started = List.range s.started.length
  last : (∀ i < s.calls, s.phase i = .done) → s.status = s.latest s.calls

/-- Nobody calls while another caller waits. -/
def NoneWaiting (s : Lock) : LockEvent → Prop
  | .call => ∀ i < s.calls, s.phase i ≠ .waiting
  | _ => True

instance (s : Lock) : (e : LockEvent) → Decidable (s.NoneWaiting e)
  | .call => inferInstanceAs (Decidable (∀ i < s.calls, s.phase i ≠ .waiting))
  | .job | .process .. | .settle _ => instDecidableTrue

/-! ### The invariant -/

/-- The callers below `d` are done, the bodies of those below `b` have begun and no others, and the
status is the last one computed. -/
structure Progressed (s : Lock) (d b : Nat) : Prop where
  done : ∀ i < d, s.phase i = .done
  waiting : ∀ i, b ≤ i → s.phase i = .waiting
  started : s.started = List.range b
  computed : ∀ i, b ≤ i → s.computed i = none
  status : s.status = s.latest b

/-- Nobody is there, or caller `d` is about to enter, or it runs or leaves and at most one other
caller awaits its promise. -/
inductive Inv (s : Lock) : Prop
  | idle (d : Nat) (hp : Progressed s d d) (hcalls : s.calls = d)
      (hmutex : ∀ j ∈ s.mutex, s.phase j = .done) (hjobs : s.jobs = []) (hawait : s.awaiting = [])
  | entering (d : Nat) (hp : Progressed s d d) (hcalls : s.calls = d + 1)
      (hjobs : s.jobs = [.enter d]) (hawait : s.awaiting = [])
  | held (d : Nat) (ws : List Nat) (left : Bool) (hp : Progressed s d (d + 1))
      (hd : s.phase d = if left then .leaving else .running)
      (hws : ws = [] ∨ ws = [d + 1]) (hcalls : s.calls = d + 1 + ws.length)
      (hmutex : s.mutex = some d) (hjobs : s.jobs = if left then [.exit d] else [])
      (hawait : s.awaiting = ws.map fun w => (d, w))

variable {s t : Lock}

/-- Between the callers that are done and those that wait there is room for one only. -/
theorem Progressed.eq_of_running {d i : Nat} (hp : Progressed s d (d + 1))
    (hi : s.phase i = .running) : i = d := by
  by_contra hne
  obtain hlt | hgt := Nat.lt_or_gt_of_ne hne
  · simp [hp.done i hlt] at hi
  · simp [hp.waiting i hgt] at hi

theorem Progressed.not_running {d i : Nat} (hp : Progressed s d d) : s.phase i ≠ .running := by
  intro hi
  obtain hlt | hge := Nat.lt_or_ge i d
  · simp [hp.done i hlt] at hi
  · simp [hp.waiting i hge] at hi

/-- The state while the body of caller `i` runs. -/
theorem Inv.eq_of_running {i : Nat} (h : Inv s) (hi : s.phase i = .running) :
    ∃ ws, Progressed s i (i + 1) ∧ (ws = [] ∨ ws = [i + 1]) ∧ s.calls = i + 1 + ws.length ∧
      s.mutex = some i ∧ s.jobs = [] ∧ s.awaiting = ws.map fun w => (i, w) := by
  cases h with
  | idle d hp => exact absurd hi hp.not_running
  | entering d hp => exact absurd hi hp.not_running
  | held d ws left hp hd hws hcalls hmutex hjobs hawait =>
    obtain rfl := hp.eq_of_running hi
    cases left with
    | true => simp [hi] at hd
    | false => exact ⟨ws, hp, hws, hcalls, hmutex, hjobs, hawait⟩

theorem Inv.call (h : Inv s) (hg : s.NoneWaiting .call) : Inv s.call := by
  cases h with
  | idle d hp hcalls hmutex hjobs hawait =>
    have henter : s.call = { s with calls := s.calls + 1, jobs := s.jobs ++ [.enter s.calls] } := by
      unfold Lock.call
      split
      · rfl
      · rename_i j hj
        rw [if_pos (hmutex j hj)]
    rw [henter]
    refine .entering d ⟨hp.done, hp.waiting, hp.started, hp.computed, hp.status⟩ ?_ ?_ hawait
    · simp only [hcalls]
    · simp only [hjobs, hcalls, List.nil_append]
  | entering d hp hcalls hjobs hawait =>
    exact absurd (hp.waiting d le_rfl) (hg d (by omega))
  | held d ws left hp hd hws hcalls hmutex hjobs hawait =>
    obtain rfl | rfl := hws
    · have hnot : s.phase d ≠ .done := by
        cases left <;> simp [hd]
      refine .held d [d + 1] left ?_ ?_ (.inr rfl) ?_ ?_ ?_ ?_
      all_goals simp only [Lock.call, hmutex, hnot, if_false]
      · exact ⟨hp.done, hp.waiting, hp.started, hp.computed, hp.status⟩
      · exact hd
      · simp [hcalls]
      · exact hjobs
      · simp [hawait, hcalls]
    · exact absurd (hp.waiting (d + 1) le_rfl) (hg (d + 1) (by simp [hcalls]))

theorem latest_succ {n : Nat} (h : s.computed n = none) : s.latest (n + 1) = s.latest n := by
  simp [latest, List.range_succ, List.filterMap_append, h]

theorem Inv.job (h : Inv s) (hs : step s .job = some t) : Inv t := by
  cases h with
  | idle d hp hcalls hmutex hjobs hawait => simp [step, hjobs] at hs
  | entering d hp hcalls hjobs hawait =>
    simp only [step, hjobs, runJob, Option.some.injEq] at hs
    subst hs
    refine .held d [] false ⟨?_, ?_, ?_, ?_, ?_⟩ ?_ (.inl rfl) hcalls rfl rfl hawait
    · intro i hi
      simp [Function.update_of_ne (Nat.ne_of_lt hi), hp.done i hi]
    · intro i hi
      simp [Function.update_of_ne (Nat.ne_of_gt hi), hp.waiting i (by omega)]
    · simp [hp.started, List.range_succ]
    · exact fun i hi => hp.computed i (by omega)
    · exact hp.status.trans (latest_succ (hp.computed d le_rfl)).symm
    · simp
  | held d ws left hp hd hws hcalls hmutex hjobs hawait =>
    cases left with
    | false => simp [step, hjobs] at hs
    | true =>
      have hp' : Progressed t (d + 1) (d + 1) := by
        simp only [step, hjobs, runJob, if_true, Option.some.injEq] at hs
        subst hs
        refine ⟨?_, ?_, hp.started, hp.computed, hp.status⟩
        · intro i hi
          by_cases hid : i = d
          · simp [hid]
          · simp [Function.update_of_ne hid, hp.done i (by omega)]
        · intro i hi
          simp [Function.update_of_ne (Nat.ne_of_gt hi), hp.waiting i hi]
      simp only [step, hjobs, runJob, if_true, Option.some.injEq] at hs
      subst hs
      obtain rfl | rfl := hws
      · refine .idle (d + 1) hp' hcalls ?_ ?_ ?_
        · intro j hj
          simp only [hmutex, Option.mem_def, Option.some.injEq] at hj
          simp [← hj]
        · simp [hawait]
        · simp [hawait]
      · refine .entering (d + 1) hp' hcalls ?_ ?_
        · simp [hawait]
        · simp [hawait]

theorem Inv.process {i : Nat} {status : AttestationStatus} (h : Inv s) (hi : s.phase i = .running) :
    Inv { s with status, computed := Function.update s.computed i (some status) } := by
  obtain ⟨ws, hp, hws, hcalls, hmutex, hjobs, hawait⟩ := h.eq_of_running hi
  refine .held i ws false ⟨hp.done, hp.waiting, hp.started, ?_, ?_⟩ hi hws hcalls hmutex hjobs
    hawait
  · intro j hj
    simp [Function.update_of_ne (Nat.ne_of_gt hj), hp.computed j hj]
  · simp [latest, List.range_succ, List.filterMap_append]

theorem Inv.settle {i : Nat} (h : Inv s) (hi : s.phase i = .running) :
    Inv { s with phase := Function.update s.phase i .leaving, jobs := s.jobs ++ [.exit i] } := by
  obtain ⟨ws, hp, hws, hcalls, hmutex, hjobs, hawait⟩ := h.eq_of_running hi
  refine .held i ws true ⟨?_, ?_, hp.started, hp.computed, hp.status⟩ ?_ hws hcalls hmutex ?_ hawait
  · intro j hj
    simp [Function.update_of_ne (Nat.ne_of_lt hj), hp.done j hj]
  · intro j hj
    simp [Function.update_of_ne (Nat.ne_of_gt hj), hp.waiting j hj]
  · simp
  · simp [hjobs]

theorem Inv.step {e : LockEvent} (h : Inv s) (hg : s.NoneWaiting e) (hs : step s e = some t) :
    Inv t := by
  cases e with
  | call =>
    obtain rfl := Option.some.inj hs
    exact h.call hg
  | job => exact h.job hs
  | process i attestedCode domCode =>
    rw [Lock.step, Option.ite_none_right_eq_some] at hs
    obtain ⟨hi, hs⟩ := hs
    obtain rfl := Option.some.inj hs
    exact h.process hi
  | settle i =>
    rw [Lock.step, Option.ite_none_right_eq_some] at hs
    obtain ⟨hi, hs⟩ := hs
    obtain rfl := Option.some.inj hs
    exact h.settle hi

theorem Inv.exclusive (h : Inv s) : Exclusive s := by
  have hstarted : ∃ d b, Progressed s d b := by
    cases h with
    | idle d hp => exact ⟨d, d, hp⟩
    | entering d hp => exact ⟨d, d, hp⟩
    | held d ws left hp => exact ⟨d, d + 1, hp⟩
  refine ⟨?_, ?_, ?_⟩
  · intro i j hi hj
    obtain ⟨ws, hp, -⟩ := h.eq_of_running hi
    exact (hp.eq_of_running hj).symm
  · obtain ⟨d, b, hp⟩ := hstarted
    simp [hp.started]
  · intro hall
    cases h with
    | idle d hp hcalls => exact hcalls ▸ hp.status
    | entering d hp hcalls =>
      have hdone := hall d (by omega)
      simp [hp.waiting d le_rfl] at hdone
    | held d ws left hp hd hws hcalls =>
      have hdone := hall d (by omega)
      cases left <;> simp [hd] at hdone

/-- In every run in which nobody calls `withAttestationLock` while another caller waits, no two
bodies run at a time, bodies begin in the order of the calls, and whenever all callers are done the
current status is the last one computed in that order. -/
theorem exclusive_of_noneWaiting {es : List LockEvent}
    (hg : Machine.Throughout Lock.step NoneWaiting {} es) :
    Machine.Everywhere Lock.step Exclusive {} es := by
  have init : Inv {} := by
    refine .idle 0 ⟨?_, ?_, rfl, ?_, rfl⟩ rfl ?_ rfl rfl
    · exact fun i hi => absurd hi (Nat.not_lt_zero i)
    · exact fun _ _ => rfl
    · exact fun _ _ => rfl
    · simp
  refine Machine.Everywhere.mono ?_ fun s h => Inv.exclusive h
  exact Machine.everywhere_of_throughout init hg fun s e t h hg hs => h.step hg hs

/-! ### Three callers -/

/-- Two callers call while a third one runs; when it is done, both enter. -/
theorem two_waiters_overlap :
    ∃ t, Run {} [.call, .job, .call, .call, .settle 0, .job, .job, .job] t ∧
      t.phase 1 = .running ∧ t.phase 2 = .running ∧ ¬t.Exclusive := by
  have hexec : (Machine.exec step {} [.call, .job, .call, .call, .settle 0, .job, .job, .job]).map
      (fun t => (t.phase 1, t.phase 2)) = some (.running, .running) := by decide
  obtain ⟨t, ht, hphases⟩ := Option.map_eq_some_iff.mp hexec
  obtain ⟨h1, h2⟩ := Prod.mk.inj hphases
  exact ⟨t, Machine.run_of_exec ht, h1, h2, fun h => absurd (h.alone 1 2 h1 h2) (by decide)⟩

/-- A caller calls while another one runs, and a third one when that one has entered. -/
def inTurn : List LockEvent :=
  [.call, .job, .call, .process 0 none (some [0x34]), .settle 0, .job, .job, .call,
    .process 1 none none, .settle 1, .job, .job, .settle 2, .job]

theorem callers_in_turn_are_exclusive :
    ∃ t, Run {} inTurn t ∧ t.started = [0, 1, 2] ∧
      Machine.Everywhere Lock.step Exclusive {} inTurn := by
  have hexec : (Machine.exec step {} inTurn).map (·.started) = some [0, 1, 2] := by decide
  obtain ⟨t, ht, hstarted⟩ := Option.map_eq_some_iff.mp hexec
  exact ⟨t, Machine.run_of_exec ht, hstarted, exclusive_of_noneWaiting (by decide)⟩

end Lock

end SmartIdVault.Attestation
