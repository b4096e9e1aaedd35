import Mathlib.Data.List.Nodup
import SmartIdVault.Attestation.Audit

/-! What the audit log keeps.  As long as each call writes the log that it has read back as it is
stored then, with its entry, the log is the end of the list of all entries in the order in which the
calls have written; and a call that has ended before another was made has written before it. -/

namespace SmartIdVault.Attestation.Audit.Log

variable {ν : Type} {values : Values ν} {s t : Log ν} {e : Event ν} {i j : Nat} {c : Call ν}
  {stage : Stage ν} {order : List Nat}

/-- The entry of a call that is at its end. -/
def entryOf (s : Log ν) (i : Nat) : Option (AuditEntry ν) := s.calls[i]?.bind (·.stage.entry?)

def entries (s : Log ν) (order : List Nat) : List (AuditEntry ν) := order.filterMap s.entryOf

def Quiet (s : Log ν) : Prop := ∀ c ∈ s.calls, c.stage.entry?.isSome = true

instance (s : Log ν) : Decidable s.Quiet := inferInstanceAs (Decidable (∀ c ∈ s.calls, _))

/-- A call that has ended before another was made goes before it. -/
def Consistent (s : Log ν) (order : List Nat) : Prop :=
  ∀ (j : Nat) (c : Call ν), s.calls[j]? = some c → ∀ i ∈ c.after, order.idxOf i < order.idxOf j

/-- The log has the last hundred entries of all calls in an order that is consistent with those that
do not overlap. -/
def Complete (s : Log ν) : Prop :=
  ∃ order : List Nat, order.Perm (List.range s.calls.length) ∧ s.Consistent order ∧
    s.getAuditLog = (s.entries order).rtake maxAuditLog

/-- The log that a call at its write has read. -/
def writtenFrom : Stage ν → Option (List (AuditEntry ν))
  | .writing auditLog _ => some auditLog
  | _ => none

/-- A call writes only when the log is stored as it has read it. -/
def Undisturbed (s : Log ν) : Event ν → Prop
  | .set i => ∀ c ∈ s.calls[i]?, ∀ auditLog ∈ writtenFrom c.stage, auditLog = s.getAuditLog
  | _ => True

instance [DecidableEq ν] (s : Log ν) : ∀ e, Decidable (s.Undisturbed e)
  | .set i => inferInstanceAs (Decidable
      (∀ c ∈ s.calls[i]?, ∀ auditLog ∈ writtenFrom c.stage, auditLog = s.getAuditLog))
  | .logAuditEvent .. | .digested _ | .got .. => isTrue trivial

/-! ### The end of a list -/

theorem rtake_rtake {α : Type} (l : List α) {m n : Nat} (h : n ≤ m) :
    (l.rtake m).rtake n = l.rtake n := by
  rw [List.rtake, List.rtake, List.rtake, List.length_drop, List.drop_drop]
  congr 1
  omega

/-- A list that is cut before and after an element is added to it. -/
theorem rtake_append_of_rtake {α : Type} (l : List α) (x : α) {n : Nat} (hn : 0 < n) :
    (l.rtake n ++ [x]).rtake n = (l ++ [x]).rtake n := by
  obtain ⟨n, rfl⟩ := Nat.exists_eq_succ_of_ne_zero hn.ne'
  rw [List.rtake_concat_succ, List.rtake_concat_succ, rtake_rtake l (Nat.le_succ n)]

theorem rtake_of_length_le {α : Type} {l : List α} {n : Nat} (h : l.length ≤ n) :
    l.rtake n = l := by
  rw [List.rtake, Nat.sub_eq_zero_of_le h, List.drop_zero]

/-! ### The order of the writes -/

/-- The calls in the order have ended, and the log is what they have left. -/
structure Known (s : Log ν) : Prop where
  nodup : s.order.Nodup
  mem : ∀ i, i ∈ s.order ↔ (s.entryOf i).isSome = true
  consistent : s.Consistent s.order
  log : s.getAuditLog = (s.entries s.order).rtake maxAuditLog

theorem entryOf_eq (hi : s.calls[i]? = some c) : s.entryOf i = c.stage.entry? := by
  rw [entryOf, hi]
  rfl

theorem entryOf_put (hi : s.calls[i]? = some c) (j : Nat) :
    (s.put i c stage).entryOf j = if j = i then stage.entry? else s.entryOf j := by
  split
  · rename_i hji
    subst hji
    exact entryOf_eq (s := s.put j c stage) (Tasks.set_self hi _)
  · rename_i hji
    rw [entryOf, put, List.getElem?_set_ne (Ne.symm hji)]
    rfl

theorem mem_ended : i ∈ s.ended ↔ (s.entryOf i).isSome = true := by
  rw [ended, List.mem_filter, List.mem_range]
  refine and_iff_right_of_imp ?_
  intro h
  by_contra hlt
  rw [List.getElem?_eq_none (Nat.le_of_not_lt hlt)] at h
  cases h

/-- The calls keep the ones that have ended before them. -/
theorem Consistent.congr (h : s.Consistent order)
    (hcalls : t.calls.map (·.after) = s.calls.map (·.after)) : t.Consistent order := by
  intro j c hj i hi
  have hafter : (s.calls.map (·.after))[j]? = some c.after := by
    rw [← hcalls, List.getElem?_map, hj]
    rfl
  obtain ⟨c', hj', hsame⟩ := Option.map_eq_some_iff.mp ((List.getElem?_map ..).symm.trans hafter)
  exact h j c' hj' i (hsame ▸ hi)

/-- A call goes on and has not ended. -/
theorem Known.put (h : Known s) (hi : s.calls[i]? = some c) (hold : c.stage.entry? = none)
    (hnew : stage.entry? = none) : Known (s.put i c stage) := by
  have hentry : (s.put i c stage).entryOf = s.entryOf := by
    funext j
    rw [entryOf_put hi, hnew]
    split
    · rename_i hji
      rw [hji, entryOf_eq hi, hold]
    · rfl
  refine ⟨h.nodup, ?_, h.consistent.congr (Tasks.map_set hi rfl), ?_⟩
  · intro j
    rw [hentry]
    exact h.mem j
  · rw [entries, hentry]
    exact h.log

/-- The call is made after all that have ended. -/
theorem Known.logAuditEvent (h : Known s) (eventType : AuditEventType) (details : Details ν) :
    Known (s.logAuditEvent values eventType details) := by
  have hentry : (s.logAuditEvent values eventType details).entryOf = s.entryOf := by
    funext j
    rw [entryOf, Log.logAuditEvent]
    dsimp only
    by_cases hj : j = s.calls.length
    · subst hj
      rw [Tasks.append_self, entryOf, List.getElem?_eq_none (Nat.le_refl _), Option.bind_some]
      split
      · rfl
      · rw [afterCode]
        split <;> rfl
    · rw [Tasks.append_ne hj]
      rfl
  refine ⟨h.nodup, ?_, ?_, ?_⟩
  · intro j
    rw [hentry]
    exact h.mem j
  · intro j c hj i hi
    obtain hold | ⟨rfl, rfl⟩ := Tasks.get_append hj
    · exact h.consistent j c hold i hi
    · have hmem : i ∈ s.order := (h.mem i).mpr (mem_ended.mp hi)
      have hnot : s.calls.length ∉ s.order := by
        rw [h.mem, entryOf, List.getElem?_eq_none (Nat.le_refl _)]
        exact Bool.false_ne_true
      have hlast : s.order.idxOf s.calls.length = s.order.length := List.idxOf_eq_length hnot
      rw [Log.logAuditEvent, hlast]
      exact List.idxOf_lt_length_of_mem hmem
  · rw [entries, hentry]
    exact h.log

/-- A write of the log as it is stored, with one entry more. -/
theorem Known.set (h : Known s) (hi : s.calls[i]? = some c) (hg : s.Undisturbed (.set i))
    (ht : s.set i c = some t) : Known t := by
  cases hstage : c.stage with
  | writing auditLog entry =>
    rw [Log.set, hstage] at ht
    obtain rfl := Option.some.inj ht
    have hread : auditLog = s.getAuditLog := hg c hi auditLog (by rw [hstage]; rfl)
    have hnot : i ∉ s.order := by
      rw [h.mem, entryOf_eq hi, hstage]
      exact Bool.false_ne_true
    have hentry (j : Nat) : (s.put i c (.finished entry)).entryOf j =
        if j = i then some entry else s.entryOf j := entryOf_put hi j
    refine ⟨?_, ?_, ?_, ?_⟩
    · exact List.nodup_append.mpr ⟨h.nodup, List.nodup_singleton i, by
        rintro j hj _ hlast rfl
        exact hnot (List.mem_singleton.mp hlast ▸ hj)⟩
    · intro j
      rw [List.mem_append, List.mem_singleton, h.mem j]
      refine Iff.trans ?_ (iff_of_eq (congrArg (fun x => Option.isSome x = true) (hentry j))).symm
      split
      · exact ⟨fun _ => rfl, fun _ => .inr ‹_›⟩
      · exact or_iff_left ‹_›
    · have hkept : (s.put i c (.finished entry)).Consistent s.order :=
        h.consistent.congr (Tasks.map_set hi rfl)
      intro j c' hj k hk
      have hlt := hkept j c' hj k hk
      have hmem : k ∈ s.order := List.idxOf_lt_length_iff.mp (hlt.trans_le List.idxOf_le_length)
      rw [List.idxOf_append_of_mem hmem]
      refine hlt.trans_le ?_
      rw [List.idxOf_append]
      split
      · exact Nat.le_refl _
      · rename_i hj'
        rw [List.idxOf_eq_length hj']
        exact Nat.le_add_left ..
    · have hsame : s.order.filterMap (s.put i c (.finished entry)).entryOf = s.entries s.order := by
        refine List.filterMap_congr ?_
        intro j hj
        rw [hentry, if_neg]
        rintro rfl
        exact hnot hj
      have hlast : (s.put i c (.finished entry)).entryOf i = some entry := by
        rw [hentry, if_pos rfl]
      have hentries : (s.order ++ [i]).filterMap (s.put i c (.finished entry)).entryOf =
          s.entries s.order ++ [entry] := by
        rw [List.filterMap_append, hsame, List.filterMap_cons_some hlast, List.filterMap_nil]
      have hlog : (auditLog ++ [entry]).rtake maxAuditLog =
          (s.entries s.order ++ [entry]).rtake maxAuditLog := by
        rw [hread, h.log, rtake_append_of_rtake _ _ (by decide)]
      exact hlog.trans (congrArg (List.rtake · maxAuditLog) hentries.symm)
  | _ =>
    rw [Log.set, hstage] at ht
    cases ht

theorem Known.step (h : Known s) (hg : s.Undisturbed e) (hs : Log.step values s e = some t) :
    Known t := by
  cases e with
  | logAuditEvent eventType details =>
    obtain rfl := Option.some.inj hs
    exact h.logAuditEvent eventType details
  | digested i =>
    obtain ⟨c, hi, ht⟩ := Option.bind_eq_some_iff.mp hs
    simp only [Log.digested] at ht
    split at ht
    · rename_i hstage
      obtain rfl := Option.some.inj ht
      refine h.put hi (by rw [hstage]; rfl) ?_
      rw [afterCode]
      split <;> rfl
    · rename_i hstage
      obtain rfl := Option.some.inj ht
      exact h.put hi (by rw [hstage]; rfl) rfl
    · cases ht
  | got i now =>
    obtain ⟨c, hi, ht⟩ := Option.bind_eq_some_iff.mp hs
    simp only [Log.got] at ht
    split at ht
    · rename_i hstage
      obtain rfl := Option.some.inj ht
      exact h.put hi (by rw [hstage]; rfl) rfl
    · cases ht
  | set i =>
    obtain ⟨c, hi, ht⟩ := Option.bind_eq_some_iff.mp hs
    exact h.set hi hg ht

theorem Known.init : Known ({} : Log ν) :=
  ⟨List.nodup_nil, fun i => by simp [entryOf], nofun, rfl⟩

/-- Once all calls have ended, the order in which they have written is one of all calls. -/
theorem Known.complete (h : Known s) (hquiet : s.Quiet) : s.Complete := by
  refine ⟨s.order, ?_, h.consistent, h.log⟩
  refine (List.perm_ext_iff_of_nodup h.nodup List.nodup_range).mpr ?_
  intro i
  rw [h.mem, List.mem_range, entryOf]
  constructor
  · intro hsome
    by_contra hlt
    rw [List.getElem?_eq_none (Nat.le_of_not_lt hlt)] at hsome
    cases hsome
  · intro hlt
    rw [List.getElem?_eq_getElem hlt, Option.bind_some]
    exact hquiet _ (List.getElem_mem hlt)

/-- A log that has room for the entries of all calls has each of them once. -/
theorem Complete.perm (h : s.Complete) (hroom : s.calls.length ≤ maxAuditLog) :
    s.getAuditLog.Perm (s.entries (List.range s.calls.length)) := by
  obtain ⟨order, hperm, -, hlog⟩ := h
  have hlength : (s.entries order).length ≤ maxAuditLog := by
    refine (List.length_filterMap_le ..).trans ?_
    rwa [hperm.length_eq, List.length_range]
  rw [hlog, rtake_of_length_le hlength]
  exact hperm.filterMap _

/-- In every run of calls, digests and storage accesses in which a call writes only when the log is
stored as it has read it: once all calls have ended, the log has the last hundred of their entries,
in an order that is consistent with calls that do not overlap; and if there have been at most a
hundred calls, it has the entry of each of them once. -/
theorem complete_of_undisturbed {es : List (Event ν)} (hrun : Run values {} es t)
    (hg : Machine.Throughout (step values) Undisturbed {} es) (hquiet : t.Quiet) :
    t.Complete ∧ (t.calls.length ≤ 100 →
      t.getAuditLog.Perm (t.entries (List.range t.calls.length))) := by
  have hknown : Known t := hrun.invariant Known.init hg fun s e t h hg hs => h.step hg hs
  have hcomplete := hknown.complete hquiet
  exact ⟨hcomplete, hcomplete.perm⟩

/-! ### Two calls at once -/

/-- Values that are strings, of which the empty one does not count as true. -/
def strings : Values Utf16 where
  truthy v := v ≠ []
  string v := v
  ofText text := text

/-- Two attestations fail at once: both calls have read the empty log. -/
def bothFail : List (Event Utf16) :=
  [.logAuditEvent .attestationFailed [(Utf16.ofString "rpDomain", Utf16.ofString "lhv.ee")],
    .logAuditEvent .attestationFailed [(Utf16.ofString "rpDomain", Utf16.ofString "seb.ee")],
    .got 0 1, .got 1 2, .set 0, .set 1]

/-- Of the two calls one has left no entry. -/
theorem both_fail_one_is_lost :
    ∃ t, Run strings {} bothFail t ∧ t.Quiet ∧ t.calls.length = 2 ∧ t.getAuditLog.length = 1 ∧
      ¬t.Complete := by
  have hexec : (Machine.exec (step strings) {} bothFail).any (fun t =>
      t.Quiet ∧ t.calls.length = 2 ∧ t.getAuditLog.length = 1 ∧
        (t.entries (List.range 2)).length = 2) = true := by decide +kernel
  obtain ⟨t, hrun, ht⟩ := Machine.exists_run_with hexec
  obtain ⟨hquiet, hcalls, hlength, hentries⟩ := of_decide_eq_true ht
  refine ⟨t, hrun, hquiet, hcalls, hlength, ?_⟩
  intro hcomplete
  have hperm := hcomplete.perm (by rw [hcalls]; decide)
  rw [hcalls] at hperm
  have := hperm.length_eq
  omega

/-- A verified attestation with its code, whose digest takes longer than a call that fails. -/
def verifiedAndFailed : List (Event Utf16) :=
  [.logAuditEvent .attestationVerified
      [(Utf16.ofString "rpDomain", Utf16.ofString "lhv.ee"), (Utf16.ofString "code", [49])],
    .logAuditEvent .attestationFailed [(Utf16.ofString "rpDomain", Utf16.ofString "seb.ee")],
    .got 1 1, .digested 0, .set 1, .got 0 2, .set 0]

theorem verified_and_failed_are_kept :
    ∃ t, Run strings {} verifiedAndFailed t ∧ t.Quiet ∧ t.Complete := by
  have hexec : (Machine.exec (step strings) {} verifiedAndFailed).any (fun t => t.Quiet) = true := by
    decide +kernel
  obtain ⟨t, hrun, hquiet⟩ := Machine.exists_run_with hexec
  have hquiet : t.Quiet := of_decide_eq_true hquiet
  exact ⟨t, hrun, hquiet, (complete_of_undisturbed hrun (by decide +kernel) hquiet).1⟩

end SmartIdVault.Attestation.Audit.Log
