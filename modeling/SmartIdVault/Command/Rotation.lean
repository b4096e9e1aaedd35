import SmartIdVault.Command.Counting

/-! The message count of a command client, over whole runs.  Each call reads and writes the count
when all calls before it have, so the counts are consecutive and the key is rotated at every
thousandth of them.  The chain of promises that keeps the calls apart carries their results as well:
a link that rejects takes all later ones with it, for the life of the client. -/

namespace SmartIdVault.Command.Client

variable {s t : Client} {e : Event} {m k : Nat}

/-! ### Rotation -/

theorem Counting.obtained (h : Counting s) (hs : Client.step s e = some t) :
    s.obtained e = none ∧ t.storedCount = s.storedCount ∨
      s.obtained e = some (s.storedCount + 1) ∧ t.storedCount = s.storedCount + 1 := by
  cases count_step h.named hs with
  | same hnone hsame => exact .inl ⟨hnone, hsame.stored⟩
  | joins i now he hi _ _ hstored => exact .inl ⟨he ▸ obtained_settle hi rfl, hstored⟩
  | refused i now he hi _ hsame => exact .inl ⟨he ▸ obtained_settle hi rfl, hsame.stored⟩
  | reads i now he _ hi hstored => exact .inl ⟨he ▸ obtained_settle hi rfl, hstored⟩
  | writes i now n he hhead hi hstored =>
    obtain rfl := (h.writer i n hi).2
    exact .inr ⟨by simp [he, Client.obtained, hhead, hi, Pc.written], hstored⟩
  | breaks i he _ _ hbreak => exact .inl ⟨by rw [he]; rfl, by rw [hbreak]; rfl⟩

theorem Counting.rotated (h : Counting s) (hs : Client.step s e = some t) :
    s.rotated e = (s.obtained e).filter (· % rotationThreshold = 0) := by
  have hnone (hobtained : s.obtained e = none) :
      s.rotated e = (s.obtained e).filter (· % rotationThreshold = 0) := by
    rw [hobtained]
    cases e with
    | settle i now =>
      rw [Client.rotated, hobtained]
      rfl
    | _ => rfl
  cases count_step h.named hs with
  | same hobtained => exact hnone hobtained
  | joins i now he hi => exact hnone (he ▸ obtained_settle hi rfl)
  | refused i now he hi => exact hnone (he ▸ obtained_settle hi rfl)
  | reads i now he _ hi => exact hnone (he ▸ obtained_settle hi rfl)
  | breaks i he => exact hnone (by rw [he]; rfl)
  | writes i now n he hhead hi _ _ hm =>
    subst he
    have hobtained : s.obtained (.settle i now) = some n := by
      simp [Client.obtained, hhead, hi, Pc.written]
    rw [Client.rotated, hobtained, hs, Option.any_some, hm.self]
    by_cases hn : n % rotationThreshold = 0
    · simp [hn, Option.filter_some]
    · simp [hn, Option.filter_some]

/-- In every run of calls, settling awaits, failures, timers and responses, from any values of the
counters in storage: the counts that the calls obtain are the numbers after the stored count, one
after the other, and the key is rotated once for each of them that is a multiple of 1000, and for no
other. -/
theorem rotates_at_thresholds (hrun : Run { storedSequence := m, storedCount := k } es t) :
    Machine.outputs Client.step Client.obtained { storedSequence := m, storedCount := k } es =
        List.range' (k + 1) (t.storedCount - k) ∧
      ∀ count, (Machine.outputs Client.step Client.rotated
          { storedSequence := m, storedCount := k } es).count count =
        if count ∈ List.range' (k + 1) (t.storedCount - k) ∧ count % 1000 = 0 then 1 else 0 := by
  obtain ⟨-, hcounts⟩ := hrun.outputs_eq_range' Client.storedCount (Counting.init m k)
    (fun _ _ _ h hs => h.step hs) fun _ _ _ h hs => h.obtained hs
  have hrotations := hrun.outputs_filter (p := (· % rotationThreshold = 0)) (Counting.init m k)
    (fun _ _ _ h hs => h.step hs) fun _ _ _ h hs => h.rotated hs
  refine ⟨hcounts, ?_⟩
  intro count
  rw [hrotations, hcounts, List.Nodup.count (List.Nodup.filter _ List.nodup_range')]
  exact if_congr (List.mem_filter.trans (and_congr_right' decide_eq_true_iff)) rfl rfl

/-- Two commands at once, the first of which makes the thousandth message. -/
def twoCommands : List Event :=
  [.sendCommand .authenticateTransaction, .sendCommand .credentialRequest, .settle 0 0, .settle 0 0,
    .settle 0 0, .settle 1 0, .settle 1 0, .settle 1 0, .settle 0 0, .settle 1 0, .settle 0 0,
    .settle 0 0, .settle 1 0, .settle 1 0]

theorem two_commands_rotate_once :
    Machine.outputs Client.step obtained { storedCount := 999 } twoCommands = [1000, 1001] ∧
      (Machine.outputs Client.step rotated { storedCount := 999 } twoCommands).count 1000 = 1 ∧
      (Machine.outputs Client.step rotated { storedCount := 999 } twoCommands).count 1001 = 0 := by
  have hexec : (Machine.exec Client.step { storedCount := 999 } twoCommands).any
      (·.storedCount = 1001) = true := by decide +kernel
  obtain ⟨t, ht, hcount⟩ := Machine.exists_run_with hexec
  have hcount : t.storedCount = 1001 := of_decide_eq_true hcount
  obtain ⟨hobtained, hrotated⟩ := rotates_at_thresholds (m := 0) ht
  rw [hcount] at hobtained hrotated
  exact ⟨hobtained, hrotated 1000, hrotated 1001⟩

/-! ### A failure and its reach -/

theorem Counting.flows (h : Counting s) : s.Flows := by
  refine ⟨h.listed, ?_⟩
  intro i now hhead
  have hat := h.chain.mem i (List.mem_of_mem_head? hhead)
  obtain ⟨p, hp, hcount⟩ := atCount_iff.mp hat
  obtain ⟨c, hc, rfl⟩ := Option.map_eq_some_iff.mp hp
  have hneeds : c.pc.needsSequence = true := by
    cases hq : c.pc with rw [hq] at hcount
    | counting | countWriting n => rfl
    | _ => cases hcount
  obtain ⟨n, hn⟩ := Option.isSome_iff_exists.mp (h.numbered i c.pc hp hneeds)
  rw [seqOf_eq hc] at hn
  rw [Client.step, hc, Option.bind_some]
  cases hq : c.pc with rw [hq] at hcount
  | counting => simp [Client.settle, hq, hhead]
  | countWriting next =>
    simp only [Client.settle, hq, hhead, if_true, hn, Option.map_some]
    split <;> rfl
  | _ => cases hcount

/-- A step keeps to itself if and only if nobody is behind a call whose access fails. -/
theorem Counting.failsAlone_iff (h : Counting s) (hs : Client.step s e = some t) :
    s.FailsAlone e ↔ s.NobodyBehind e := by
  have hflows := (h.step hs).flows
  have halone : s.FailsAlone e ↔
      ∀ j, t.pcOf j = some .rejected → s.pcOf j = some .rejected ∨ s.OwnFault j e := by
    constructor
    · exact fun h => (h t hs).1
    · rintro h u hu
      obtain rfl := Option.some.inj (hs.symm.trans hu)
      exact ⟨h, hflows⟩
  have hmoves {i : Nat} {p : Pc} (hm : MovesTo s t i p) (hp : p ≠ .rejected) : s.FailsAlone e :=
    halone.mpr fun j hj => .inl ((hm.rejected hj).resolve_right fun h => hp h.2)
  cases count_step h.named hs with
  | same _ _ hrejected hgood => exact iff_of_true (halone.mpr hrejected) hgood
  | joins i now he hi hbroken _ _ _ hm =>
    refine iff_of_true (hmoves hm (by simp)) ?_
    rw [he]
    exact fun _ => hbroken
  | refused i now he hi hbroken _ hm =>
    refine iff_of_false ?_ ?_
    · rw [halone, he]
      intro h
      obtain hold | hown := h i hm.self
      · rw [hi] at hold
        cases hold
      · exact hown
    · rw [he]
      intro h
      rw [h hi] at hbroken
      cases hbroken
  | reads i now he _ hi _ _ hm =>
    refine iff_of_true (hmoves hm (by simp)) ?_
    rw [he]
    intro hsign
    cases hi.symm.trans hsign
  | writes i now n he _ hi _ _ hm =>
    refine iff_of_true (hmoves hm (by split <;> simp)) ?_
    rw [he]
    intro hsign
    cases hi.symm.trans hsign
  | breaks i he hhead hi hbreak =>
    have hpc := fun j => hbreak ▸ pcOf_breakChain h.chain j
    rw [halone, he]
    constructor
    · intro h' _ j hj
      obtain hold | hown := h' j (by rw [hpc, if_pos hj])
      · exact absurd (h.chain.mem j hj) (not_atCount hold rfl)
      · exact hown.symm
    · intro h' j hj
      rw [hpc] at hj
      split at hj
      · rename_i hin
        exact .inr (h' hi j hin).symm
      · exact .inl hj

/-- In a run of calls, settling awaits, failures, timers and responses, from any values of the
counters in storage, no call is rejected but for a reason of its own, and every other one has its
turn at the message count, if and only if no call waits behind one whose access to the count fails
and none comes after it. -/
theorem failsAlone_iff_nobodyBehind {es : List Event}
    (hrun : Run { storedSequence := m, storedCount := k } es t) :
    Machine.Throughout Client.step FailsAlone { storedSequence := m, storedCount := k } es ↔
      Machine.Throughout Client.step NobodyBehind { storedSequence := m, storedCount := k } es :=
  hrun.throughout_congr (Counting.init m k) (fun _ _ _ h hs => h.step hs)
    fun _ _ _ h hs => h.failsAlone_iff hs

/-- The read of the count fails for the first command; the second one comes after that. -/
def quotaError : List Event :=
  [.sendCommand .authenticateTransaction, .settle 0 0, .settle 0 0, .settle 0 0, .settle 0 0,
    .fail 0, .sendCommand .credentialRequest, .settle 1 0, .settle 1 0, .settle 1 0]

/-- The second command is rejected though all that it awaits resolves. -/
theorem quota_error_disables_channel :
    (∃ t, Run {} (quotaError ++ [.settle 1 0]) t ∧ t.pcOf 1 = some .rejected) ∧
      ¬Machine.Throughout Client.step FailsAlone {} (quotaError ++ [.settle 1 0]) := by
  have hexec : (Machine.exec step {} quotaError).any (fun t => t.pcOf 1 = some .signing &&
      (step t (.settle 1 0)).any (·.pcOf 1 = some .rejected)) = true := by decide +kernel
  obtain ⟨s, hrun, hpc⟩ := Machine.exists_run_with hexec
  rw [Bool.and_eq_true, decide_eq_true_eq, Option.any_eq_true] at hpc
  obtain ⟨hsigning, t, hs, hrejected⟩ := hpc
  have hrejected : t.pcOf 1 = some .rejected := of_decide_eq_true hrejected
  refine ⟨⟨t, hrun.append (.single hs), hrejected⟩, ?_⟩
  intro hthrough
  obtain hold | hown := (hthrough.at hrun t hs).1 1 hrejected
  · rw [hsigning] at hold
    cases hold
  · exact hown

/-- The read of the count fails for the first command, which is the only one. -/
theorem single_failure_stays_alone :
    ∃ t, Run {} (quotaError.take 6) t ∧
      Machine.Throughout Client.step FailsAlone {} (quotaError.take 6) := by
  have hexec : (Machine.exec step {} (quotaError.take 6)).isSome = true := by decide +kernel
  obtain ⟨t, ht⟩ := Machine.exists_run_of_exec hexec
  exact ⟨t, ht, (failsAlone_iff_nobodyBehind ht).mpr (by decide +kernel)⟩

end SmartIdVault.Command.Client
