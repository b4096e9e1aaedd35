import SmartIdVault.Command.Retry
import SmartIdVault.Lib.Streak

/-! Heartbeat failure detection.  The client has one slot for the number of a ping that is waited
for, and only the ping in the slot is counted when its timer ends.  As long as no ping is sent while
an earlier one is outstanding, the count is that of the last pings missed in a row, and the
transport is declared dead exactly with the third of them.  When three times the RTO is longer than
the interval, pings take the slot from one another and none is counted. -/

namespace SmartIdVault.Command

open Pairing (maxRetries maxMissedPings)

namespace Fate

def isSettled : Fate → Bool
  | .outstanding => false
  | _ => true

def isMissed : Fate → Bool
  | .expired _ => true
  | _ => false

end Fate

/-- The ping at `i` was missed. -/
def MissedAt (fates : List Fate) (i : Nat) : Prop := ∃ f ∈ fates[i]?, f.isMissed = true

/-- The pings up to the one at `k` were missed, three in a row. -/
def ThirdInARow (fates : List Fate) (k : Nat) : Prop :=
  ∃ j, k = j + 2 ∧ MissedAt fates j ∧ MissedAt fates (j + 1) ∧ MissedAt fates (j + 2)

section Fates

variable {before : List Fate} {f : Fate} {i k : Nat}

theorem MissedAt.lt_length (h : MissedAt before i) : i < before.length := by
  obtain ⟨f, hf, -⟩ := h
  exact (List.getElem?_eq_some_iff.mp hf).1

theorem missedAt_snoc : MissedAt (before ++ [f]) i ↔
    MissedAt before i ∨ i = before.length ∧ f.isMissed = true := by
  constructor
  · rintro ⟨g, hg, hmissed⟩
    rcases Tasks.get_append hg with hg | ⟨hi, rfl⟩
    · exact .inl ⟨g, hg, hmissed⟩
    · exact .inr ⟨hi, hmissed⟩
  · rintro (⟨g, hg, hmissed⟩ | ⟨rfl, hmissed⟩)
    · exact ⟨g, Tasks.get_append_of_get hg f, hmissed⟩
    · exact ⟨f, Tasks.append_self before f, hmissed⟩

/-- Another ping is the third in a row if it is missed after two others. -/
theorem thirdInARow_snoc : ThirdInARow (before ++ [f]) k ↔ ThirdInARow before k ∨
    k = before.length ∧ f.isMissed = true ∧ 2 ≤ Streak.count Fate.isMissed before := by
  constructor
  · rintro ⟨j, rfl, h0, h1, h2⟩
    rw [missedAt_snoc] at h0 h1 h2
    rcases h2 with h2 | ⟨hlast, hmissed⟩
    · have hlt := h2.lt_length
      exact .inl ⟨j, rfl, h0.resolve_right (by omega), h1.resolve_right (by omega), h2⟩
    · refine .inr ⟨hlast, hmissed, Streak.le_count_iff.mpr ⟨by omega, ?_⟩⟩
      intro n hn
      obtain rfl | rfl : n = 0 ∨ n = 1 := by omega
      · rw [← hlast]
        exact h1.resolve_right (by omega)
      · rw [← hlast]
        exact h0.resolve_right (by omega)
  · rintro (⟨j, rfl, h0, h1, h2⟩ | ⟨rfl, hmissed, hcount⟩)
    · exact ⟨j, rfl, missedAt_snoc.mpr (.inl h0), missedAt_snoc.mpr (.inl h1),
        missedAt_snoc.mpr (.inl h2)⟩
    · obtain ⟨hlength, hlast⟩ := Streak.le_count_iff.mp hcount
      have h1 : MissedAt before (before.length - 1) := hlast 0 (by omega)
      have h0 : MissedAt before (before.length - 2) := hlast 1 (by omega)
      refine ⟨before.length - 2, by omega, missedAt_snoc.mpr (.inl h0), ?_, ?_⟩
      · rw [show before.length - 2 + 1 = before.length - 1 by omega]
        exact missedAt_snoc.mpr (.inl h1)
      · exact missedAt_snoc.mpr (.inr ⟨by omega, hmissed⟩)

theorem thirdInARow_snoc_of_not (hf : f.isMissed = false) :
    ThirdInARow (before ++ [f]) k ↔ ThirdInARow before k := by
  rw [thirdInARow_snoc, hf]
  exact or_iff_left fun h => Bool.false_ne_true h.2.1

/-- The next ping expires, and is added to the deaths if the count gets to its bound. -/
theorem mem_deaths_snoc {deaths : List Nat} {missed : Nat} {u : ℚ}
    (hdead : ∀ k, k ∈ deaths ↔ ThirdInARow before k)
    (hmissed : missed = Streak.count Fate.isMissed before) (k : Nat) :
    (k ∈ if maxMissedPings ≤ missed + 1 then deaths ++ [before.length] else deaths) ↔
      ThirdInARow (before ++ [Fate.expired u]) k := by
  rw [thirdInARow_snoc, ← hmissed]
  split
  next hthree =>
    have htwo : 2 ≤ missed := Nat.le_of_succ_le_succ hthree
    rw [List.mem_append, List.mem_singleton, hdead]
    exact or_congr_right ⟨fun hk => ⟨hk, rfl, htwo⟩, And.left⟩
  next hthree =>
    rw [hdead]
    refine (or_iff_left fun hk => hthree ?_).symm
    exact Nat.succ_le_succ hk.2.2

/-- The next ping is not among the deaths. -/
theorem nodup_deaths_snoc {deaths : List Nat} (hdead : ∀ k, k ∈ deaths ↔ ThirdInARow before k)
    (honce : deaths.Nodup) (missed : Nat) :
    (if maxMissedPings ≤ missed + 1 then deaths ++ [before.length] else deaths).Nodup := by
  split
  · refine List.nodup_append.mpr ⟨honce, List.nodup_singleton _, ?_⟩
    intro k hk k' hk' heq
    rw [hdead, heq, List.mem_singleton.mp hk'] at hk
    obtain ⟨l, hl, -, -, hmissed⟩ := hk
    have hlt := hmissed.lt_length
    omega
  · exact honce

theorem filter_isSettled (h : .outstanding ∉ before) : before.filter Fate.isSettled = before := by
  refine List.filter_eq_self.mpr fun f hf => ?_
  cases f with
  | outstanding => exact absurd hf h
  | answered => rfl
  | expired u => rfl

end Fates

namespace TimedClient

def fates (s : TimedClient) : List Fate := s.pings.map (·.fate)

def sequences (s : TimedClient) : List Decimal := s.pings.map (·.sequence)

/-- The count is the number of the last pings that were missed in a row, leaving out what is
outstanding; the transport was declared dead with each ping that was the third in a row, once; and
each ping has a timer of three times the RTO that it was sent with, and is missed only then. -/
structure Exact (s : TimedClient) : Prop where
  counted : s.missedPings = Streak.count Fate.isMissed (s.fates.filter Fate.isSettled)
  dead : ∀ k, k ∈ s.deaths ↔ ThirdInARow s.fates k
  once : s.deaths.Nodup
  waits : ∀ (i : Nat) (p : HeartbeatPing), s.pings[i]? = some p → ∀ t rto, p.sent = some (t, rto) →
    p.fate = .outstanding → ⟨.ping i, t + rto * maxRetries, true⟩ ∈ s.timers
  expired : ∀ p ∈ s.pings, ∀ u, p.fate = .expired u →
    ∃ t rto, p.sent = some (t, rto) ∧ t + rto * maxRetries ≤ u

/-- No ping is sent while an earlier one is outstanding, and numbers are distinct. -/
def OneAtATime (s : TimedClient) (e : TimedEvent) : Prop :=
  s.Fresh e ∧ match e.action with
    | .number _ => .outstanding ∉ s.fates
    | _ => True

instance (s : TimedClient) : (e : TimedEvent) → Decidable (s.OneAtATime e)
  | ⟨time, .number n⟩ =>
    inferInstanceAs (Decidable (s.Fresh ⟨time, .number n⟩ ∧ .outstanding ∉ s.fates))
  | ⟨time, .sendCommand n encoded isPing⟩ =>
    inferInstanceAs (Decidable (s.Fresh ⟨time, .sendCommand n encoded isPing⟩ ∧ True))
  | ⟨_, .heartbeat⟩ | ⟨_, .numberFails⟩ | ⟨_, .sendSettles _⟩ | ⟨_, .response _⟩
  | ⟨_, .timer _⟩ => inferInstanceAs (Decidable (True ∧ True))

/-- The last ping is in the slot if it is outstanding; the others are not. -/
inductive Slot (s : TimedClient) : Prop
  | free (hslot : s.pendingPingSeq = none) (h : .outstanding ∉ s.fates)
  | taken (before : List Fate) (hfates : s.fates = before ++ [.outstanding])
      (hslot : s.pendingPingSeq = s.sequences.getLast?) (h : .outstanding ∉ before)

/-- The count is exact, and the slot, the controllers and the timers are those of the pings. -/
structure Watched (s : TimedClient) : Prop extends Exact s where
  commands : Commands s
  slot : Slot s
  aborted : ∀ p ∈ s.pings, p.aborted = true → p.fate = .answered
  due : ∀ x ∈ s.timers, ∀ i, x.owner = .ping i → ∃ p ∈ s.pings[i]?, ∃ t rto,
    p.sent = some (t, rto) ∧ x.due = t + rto * maxRetries

variable {s t : TimedClient} {i j : Nat} {p : HeartbeatPing}

theorem Slot.congr (h : Slot s) (hfates : t.fates = s.fates)
    (hsequences : t.sequences = s.sequences) (hslot : t.pendingPingSeq = s.pendingPingSeq) :
    Slot t := by
  cases h with
  | free hnone hall => exact .free (hslot.trans hnone) (hfates ▸ hall)
  | taken before hlist hlast hall =>
    exact .taken before (hfates.trans hlist) (by rw [hslot, hlast, hsequences]) hall

theorem Watched.init (now : ℚ) : Watched { now } where
  counted := rfl
  dead k := by simp [ThirdInARow, MissedAt, fates]
  once := .nil
  waits i p hp := by simp at hp
  expired p hp := by simp at hp
  commands := .init now
  slot := .free rfl (by simp [fates])
  aborted p hp := by simp at hp
  due x hx := by simp at hx

/-- A step leaves the pings, the slot and the count alone, and the timers of pings. -/
structure PingsKept (s t : TimedClient) : Prop where
  pings : t.pings = s.pings
  slot : t.pendingPingSeq = s.pendingPingSeq
  missed : t.missedPings = s.missedPings
  deaths : t.deaths = s.deaths
  kept : ∀ i due, (∃ p ∈ s.pings[i]?, p.fate = .outstanding) →
    ⟨.ping i, due, true⟩ ∈ s.timers → ⟨.ping i, due, true⟩ ∈ t.timers
  timers : ∀ x ∈ t.timers, ∀ i, x.owner = .ping i →
    ∃ y ∈ s.timers, y.owner = .ping i ∧ y.due = x.due

theorem Watched.keep (h : Watched s) (hcommands : Commands t) (hk : PingsKept s t) :
    Watched t := by
  have hfates : t.fates = s.fates := by rw [fates, hk.pings, fates]
  refine ⟨⟨?_, ?_, ?_, ?_, ?_⟩, hcommands, ?_, ?_, ?_⟩
  · rw [hk.missed, hfates]
    exact h.counted
  · rw [hk.deaths, hfates]
    exact h.dead
  · rw [hk.deaths]
    exact h.once
  · intro i p hp u rto hsent hout
    rw [hk.pings] at hp
    exact hk.kept i _ ⟨p, hp, hout⟩ (h.waits i p hp u rto hsent hout)
  · rw [hk.pings]
    exact h.expired
  · exact h.slot.congr hfates (by rw [sequences, hk.pings, sequences]) hk.slot
  · rw [hk.pings]
    exact h.aborted
  · intro x hx i hi
    obtain ⟨y, hy, hyi, hdue⟩ := hk.timers x hx i hi
    rw [hk.pings, ← hdue]
    exact h.due y hy i hyi

namespace PingsKept

theorem trans {u : TimedClient} (h : PingsKept s t) (h' : PingsKept t u) : PingsKept s u where
  pings := h'.pings.trans h.pings
  slot := h'.slot.trans h.slot
  missed := h'.missed.trans h.missed
  deaths := h'.deaths.trans h.deaths
  kept i due hi hx := h'.kept i due (h.pings ▸ hi) (h.kept i due hi hx)
  timers x hx i hi := by
    obtain ⟨y, hy, hyi, hdue⟩ := h'.timers x hx i hi
    obtain ⟨z, hz, hzi, hdue'⟩ := h.timers y hy i hyi
    exact ⟨z, hz, hzi, hdue'.trans hdue⟩

/-- A step that adds at most timers of commands. -/
theorem of_append {more : List Timer} (hpings : t.pings = s.pings)
    (hslot : t.pendingPingSeq = s.pendingPingSeq) (hmissed : t.missedPings = s.missedPings)
    (hdeaths : t.deaths = s.deaths) (htimers : t.timers = s.timers ++ more)
    (hmore : ∀ x ∈ more, ∀ i, x.owner ≠ .ping i) : PingsKept s t where
  pings := hpings
  slot := hslot
  missed := hmissed
  deaths := hdeaths
  kept i due _ hx := by
    rw [htimers]
    exact List.mem_append_left _ hx
  timers x hx i hi := by
    rw [htimers] at hx
    rcases List.mem_append.mp hx with hx | hx
    · exact ⟨x, hx, hi, rfl⟩
    · exact absurd hi (hmore x hx i)

/-- A step that leaves the timers alone, too. -/
theorem of_eq (hpings : t.pings = s.pings) (hslot : t.pendingPingSeq = s.pendingPingSeq)
    (hmissed : t.missedPings = s.missedPings) (hdeaths : t.deaths = s.deaths)
    (htimers : t.timers = s.timers) : PingsKept s t :=
  of_append hpings hslot hmissed hdeaths (htimers.trans (List.append_nil _).symm) (by simp)

/-- A timer of a ping has been one before a timer fired. -/
theorem exists_of_fired {x y : Timer} (hx : s.timers[j]? = some x)
    (hy : y ∈ s.timers.set j { x with armed := false }) (hi : y.owner = .ping i) :
    ∃ z ∈ s.timers, z.owner = .ping i ∧ z.due = y.due := by
  rcases Tasks.mem_set hy with rfl | ⟨k, -, hk⟩
  · exact ⟨x, List.mem_of_getElem? hx, hi, rfl⟩
  · exact ⟨y, List.mem_of_getElem? hk, hi, rfl⟩

/-- A timer fires that is not that of an outstanding ping. -/
theorem fired {x : Timer} (hx : s.timers[j]? = some x)
    (howner : ∀ i, x.owner = .ping i → ¬∃ p ∈ s.pings[i]?, p.fate = .outstanding) :
    PingsKept s (s.fired j x) where
  pings := rfl
  slot := rfl
  missed := rfl
  deaths := rfl
  kept i due hi hmem := by
    obtain ⟨k, hk⟩ := List.mem_iff_getElem?.mp hmem
    refine Tasks.mem_set_of_ne ?_ hk
    rintro rfl
    exact howner i (by rw [Option.some.inj (hx.symm.trans hk)]) hi
  timers y hy i hi := exists_of_fired hx hy hi

theorem sendCommand (s : TimedClient) (n : Decimal) (encoded : Utf16) (isPing : Bool) :
    PingsKept s (s.sendCommand n encoded isPing) := by
  rw [sendCommand_eq]
  exact of_append rfl rfl rfl rfl rfl (by simp)

theorem retryTimer (s : TimedClient) (i : Nat) : PingsKept s (s.retryTimer i) := by
  unfold TimedClient.retryTimer
  split
  next => exact of_eq rfl rfl rfl rfl rfl
  next c _ =>
    dsimp only
    split
    · exact of_eq rfl rfl rfl rfl rfl
    · split
      · unfold attemptSend
        split
        · exact of_eq rfl rfl rfl rfl rfl
        · split
          · exact of_eq rfl rfl rfl rfl rfl
          · exact of_append rfl rfl rfl rfl rfl (by simp)
      · exact of_eq rfl rfl rfl rfl rfl

/-- The timers that a response clears are those of a command. -/
theorem answer (h : Commands s) (r : ControlResponse) : PingsKept s (s.answer r) := by
  rcases h.answer_eq r with ⟨-, heq⟩ | ⟨i, c, rttEstimator, hc, -, -, heq⟩
  · rw [heq]
    exact of_eq rfl rfl rfl rfl rfl
  · rw [heq]
    refine ⟨rfl, rfl, rfl, rfl, ?_, ?_⟩
    · intro i' due _ hmem
      obtain ⟨k, hk⟩ := List.mem_iff_getElem?.mp hmem
      have hnot : k ∉ c.listeners := by
        intro hlistener
        obtain ⟨b, hb⟩ := (h.listeners i c k hc).mp hlistener
        rw [retryTimerOf, hk] at hb
        cases hb
      refine List.mem_of_getElem? (i := k) ?_
      rw [List.getElem?_mapIdx, hk, Option.map_some, if_neg hnot]
    · intro x hx i' hi'
      obtain ⟨k, hk⟩ := List.mem_iff_getElem?.mp hx
      rw [List.getElem?_mapIdx] at hk
      obtain ⟨y, hy, rfl⟩ := Option.map_eq_some_iff.mp hk
      refine ⟨y, List.mem_of_getElem? hy, ?_, ?_⟩
      · rw [← hi']
        split <;> rfl
      · split <;> rfl

end PingsKept

/-- Two pings with one number are the same. -/
theorem Commands.eq_of_ping {q : HeartbeatPing} (h : Commands s) (hp : s.pings[i]? = some p)
    (hq : s.pings[j]? = some q) (hseq : p.sequence = q.sequence) : i = j := by
  have hnodup := (List.nodup_append.mp h.numbers).2.1
  have hlength : i < (s.pings.map (·.sequence)).length := by
    rw [List.length_map]
    exact (List.getElem?_eq_some_iff.mp hp).1
  refine (List.getElem?_inj hlength hnodup).mp ?_
  rw [List.getElem?_map, List.getElem?_map, hp, hq, Option.map_some, Option.map_some, hseq]

theorem fates_getElem? (hp : s.pings[i]? = some p) : s.fates[i]? = some p.fate := by
  rw [fates, List.getElem?_map, hp, Option.map_some]

/-- What is taken is taken by the last ping. -/
theorem Slot.exists_last {before : List Fate} (hfates : s.fates = before ++ [Fate.outstanding])
    (hslot : s.pendingPingSeq = s.sequences.getLast?) : ∃ q, s.pings[before.length]? = some q ∧
      q.fate = .outstanding ∧ s.pendingPingSeq = some q.sequence := by
  have hlength : s.pings.length = before.length + 1 := by
    rw [← List.length_map (f := (·.fate)), ← fates, hfates, List.length_append,
      List.length_singleton]
  obtain ⟨q, hq⟩ : ∃ q, s.pings[before.length]? = some q :=
    ⟨_, List.getElem?_eq_getElem (by omega)⟩
  refine ⟨q, hq, ?_, ?_⟩
  · have hfate := fates_getElem? hq
    rw [hfates, Tasks.append_self] at hfate
    exact (Option.some.inj hfate).symm
  · rw [hslot, sequences, List.getLast?_eq_getElem?, List.getElem?_map, List.length_map, hlength,
      Nat.add_sub_cancel, hq, Option.map_some]

/-- The outstanding ping is the last one, and its number is in the slot. -/
theorem Watched.slot_of_outstanding (h : Watched s) (hp : s.pings[i]? = some p)
    (hout : p.fate = .outstanding) : s.pendingPingSeq = some p.sequence ∧
      ∃ before : List Fate, s.fates = before ++ [Fate.outstanding] ∧ i = before.length ∧
        .outstanding ∉ before := by
  have hfate := fates_getElem? hp
  rw [hout] at hfate
  cases h.slot with
  | free _ hall => exact absurd (List.mem_of_getElem? hfate) hall
  | taken before hfates hslot hall =>
    rw [hfates] at hfate
    rcases Tasks.get_append hfate with hbefore | ⟨hi, -⟩
    · exact absurd (List.mem_of_getElem? hbefore) hall
    · obtain ⟨q, hq, -, hqslot⟩ := Slot.exists_last hfates hslot
      rw [← hi, hp] at hq
      rw [Option.some.inj hq]
      exact ⟨hqslot, before, hfates, hi, hall⟩

/-- A ping whose number is in the slot is outstanding. -/
theorem Watched.outstanding_of_slot (h : Watched s) (hp : s.pings[i]? = some p)
    (hslot : s.pendingPingSeq = some p.sequence) : p.fate = .outstanding := by
  cases h.slot with
  | free hnone _ =>
    rw [hnone] at hslot
    cases hslot
  | taken before hfates hlast _ =>
    obtain ⟨q, hq, hout, hqslot⟩ := Slot.exists_last hfates hlast
    have hseq : p.sequence = q.sequence := Option.some.inj (hslot.symm.trans hqslot)
    rw [h.commands.eq_of_ping hp hq hseq, hq] at hp
    rw [← Option.some.inj hp, hout]

/-! ### A ping is sent -/

theorem Watched.number {n : Decimal} (h : Watched s) (hcommands : Commands t)
    (hfree : .outstanding ∉ s.fates) (hs : s.number n = some t) : Watched t := by
  simp only [TimedClient.number] at hs
  split at hs
  next => cases hs
  next =>
    obtain rfl := Option.some.inj hs
    have hfates : fates { s with
        numbering := s.numbering - 1
        pendingPingSeq := some n
        pings := s.pings ++ [{ sequence := n }] } = s.fates ++ [Fate.outstanding] := List.map_append
    refine ⟨⟨?_, ?_, h.once, ?_, ?_⟩, hcommands, ?_, ?_, ?_⟩
    · rw [hfates, List.filter_append]
      exact h.counted.trans (congrArg _ (List.append_nil _).symm)
    · rw [hfates]
      intro k
      rw [thirdInARow_snoc_of_not rfl]
      exact h.dead k
    · intro i p hp u rto hsent hout
      rcases Tasks.get_append hp with hp | ⟨-, rfl⟩
      · exact h.waits i p hp u rto hsent hout
      · cases hsent
    · intro p hp u hu
      rcases List.mem_append.mp hp with hp | hp
      · exact h.expired p hp u hu
      · rw [List.mem_singleton.mp hp] at hu
        cases hu
    · refine .taken s.fates hfates ?_ hfree
      rw [sequences, List.map_append]
      exact (List.getLast?_concat ..).symm
    · intro p hp haborted
      rcases List.mem_append.mp hp with hp | hp
      · exact h.aborted p hp haborted
      · rw [List.mem_singleton.mp hp] at haborted
        cases haborted
    · intro x hx i hi
      obtain ⟨p, hp, hdue⟩ := h.due x hx i hi
      exact ⟨p, Tasks.get_append_of_get hp _, hdue⟩

theorem Watched.sendSettles (h : Watched s) (hcommands : Commands t)
    (hs : s.sendSettles i = some t) : Watched t := by
  obtain ⟨p, hp, hs⟩ := Option.bind_eq_some_iff.mp hs
  split at hs
  next hnone =>
    obtain rfl := Option.some.inj hs
    have hfates : (s.pings.set i { p with
        sent := some (s.now, s.rttEstimator.getRto) }).map (·.fate) = s.fates :=
      Tasks.map_set hp rfl
    have hsequences : (s.pings.set i { p with
        sent := some (s.now, s.rttEstimator.getRto) }).map (·.sequence) = s.sequences :=
      Tasks.map_set hp rfl
    refine ⟨⟨?_, ?_, h.once, ?_, ?_⟩, hcommands, h.slot.congr hfates hsequences rfl, ?_, ?_⟩
    · exact h.counted.trans (congrArg
        (fun l => Streak.count Fate.isMissed (l.filter Fate.isSettled)) hfates.symm)
    · intro k
      exact (h.dead k).trans (iff_of_eq (congrArg (ThirdInARow · k) hfates.symm))
    · intro k q hq u rto hsent hout
      refine List.mem_append.mpr ?_
      rcases Tasks.get_set hq with ⟨rfl, rfl⟩ | ⟨-, hq⟩
      · obtain ⟨rfl, rfl⟩ := Prod.mk.inj (Option.some.inj hsent)
        exact .inr (List.mem_singleton_self _)
      · exact .inl (h.waits k q hq u rto hsent hout)
    · intro q hq u hu
      rcases Tasks.mem_set hq with rfl | ⟨k, -, hk⟩
      · -- a ping without a timer has not expired
        obtain ⟨v, rto, hsent, -⟩ := h.expired p (List.mem_of_getElem? hp) u hu
        rw [hnone] at hsent
        cases hsent
      · exact h.expired q (List.mem_of_getElem? hk) u hu
    · intro q hq haborted
      rcases Tasks.mem_set hq with rfl | ⟨k, -, hk⟩
      · exact h.aborted p (List.mem_of_getElem? hp) haborted
      · exact h.aborted q (List.mem_of_getElem? hk) haborted
    · intro x hx k hk
      rcases List.mem_append.mp hx with hx | hx
      · obtain ⟨q, hq, u, rto, hsent, hdue⟩ := h.due x hx k hk
        have hki : k ≠ i := by
          rintro rfl
          rw [Option.some.inj (hp.symm.trans hq), hsent] at hnone
          cases hnone
        exact ⟨q, Tasks.get_set_of_ne hki hq, u, rto, hsent, hdue⟩
      · rw [List.mem_singleton.mp hx] at hk ⊢
        obtain rfl := Owner.ping.inj hk
        exact ⟨_, Tasks.set_self hp _, _, _, rfl, rfl⟩
  next => cases hs

/-! ### A pong arrives -/

theorem receive_of_settled {r : ControlResponse} (h : p.fate ≠ .outstanding) : p.receive r = p :=
  if_neg fun hp => h hp.2.2

/-- The pong that is waited for empties the slot and resets the count. -/
structure Ponged (s t : TimedClient) (r : ControlResponse) : Prop where
  slot : t.pendingPingSeq = none
  missed : t.missedPings = 0
  deaths : t.deaths = s.deaths
  timers : t.timers = s.timers
  fates : t.fates = s.pings.map fun p => (p.receive r).fate
  length : t.pings.length = s.pings.length
  pings : ∀ (i : Nat) (p : HeartbeatPing), s.pings[i]? = some p → ∃ q, t.pings[i]? = some q ∧
    q.sent = p.sent ∧ q.fate = (p.receive r).fate ∧
    (q.aborted = true → p.aborted = true ∨ p.sequence = r.sequence)

theorem ponged {r : ControlResponse} (h : Commands s) (hpong : r.isPong = true)
    (hslot : s.pendingPingSeq = some r.sequence) : Ponged s ((s.notePong r).pong r) r := by
  have hreceive : ∀ p : HeartbeatPing, (p.receive r).sent = p.sent ∧
      (p.receive r).aborted = p.aborted ∧ (p.receive r).sequence = p.sequence := by
    intro p
    rw [HeartbeatPing.receive]
    split
    · exact ⟨rfl, rfl, rfl⟩
    · exact ⟨rfl, rfl, rfl⟩
  have hif : r.isPong = true ∧ (s.notePong r).pendingPingSeq = some r.sequence := ⟨hpong, hslot⟩
  rw [TimedClient.pong, if_pos hif, abortUnder]
  split
  next =>
    refine ⟨rfl, rfl, rfl, rfl, List.map_map, List.length_map _, ?_⟩
    intro i p hp
    obtain ⟨hsent, haborted, -⟩ := hreceive p
    refine ⟨p.receive r, ?_, hsent, rfl, fun hq => .inl (haborted ▸ hq)⟩
    show (s.pings.map (·.receive r))[i]? = _
    rw [List.getElem?_map, hp, Option.map_some]
  next o ho =>
    have howner := h.controller r.sequence o ho
    cases o with
    | command k =>
      obtain ⟨c, hc, hseq⟩ := Option.map_eq_some_iff.mp howner
      exact absurd hseq (h.ne_of_ping hc (h.slot _ hslot))
    | ping k =>
      obtain ⟨q, hq, hseq⟩ := Option.map_eq_some_iff.mp howner
      refine ⟨rfl, rfl, rfl, rfl, ?_, ?_, ?_⟩
      · have hkeep : ((s.pings.map (·.receive r)).modify k fun p =>
            { p with aborted := true }).map (·.fate) = (s.pings.map (·.receive r)).map (·.fate) :=
          Tasks.map_modify _ k fun _ => rfl
        exact hkeep.trans List.map_map
      · exact (List.length_modify ..).trans (List.length_map _)
      · intro i p hp
        obtain ⟨hsent, haborted, -⟩ := hreceive p
        have hget : (s.pings.map (·.receive r))[i]? = some (p.receive r) := by
          rw [List.getElem?_map, hp, Option.map_some]
        by_cases hik : k = i
        · refine ⟨{ p.receive r with aborted := true }, ?_, hsent, rfl, fun _ => .inr ?_⟩
          · show ((s.pings.map (·.receive r)).modify k fun p => { p with aborted := true })[i]? = _
            rw [hik, List.getElem?_modify_eq, hget]
            rfl
          · rw [hik] at hq
            rw [← hseq, Option.some.inj (hp.symm.trans hq)]
        · refine ⟨p.receive r, ?_, hsent, rfl, fun hq => .inl (haborted ▸ hq)⟩
          show ((s.pings.map (·.receive r)).modify k fun p => { p with aborted := true })[i]? = _
          rw [List.getElem?_modify_ne _ _ hik, hget]

/-- In the other cases a response changes nothing for the pings. -/
theorem Watched.not_ponged {r : ControlResponse} (h : Watched s)
    (hnot : ¬(r.isPong = true ∧ s.pendingPingSeq = some r.sequence)) :
    PingsKept s ((s.notePong r).pong r) := by
  have hsame : (s.notePong r).pings = s.pings := by
    refine (List.map_congr_left fun p hp => ?_).trans (List.map_id _)
    refine if_neg ?_
    rintro ⟨hpong, hseq, hout⟩
    obtain ⟨i, hi⟩ := List.mem_iff_getElem?.mp hp
    exact hnot ⟨hpong, hseq ▸ (h.slot_of_outstanding hi hout).1⟩
  have hif : ¬(r.isPong = true ∧ (s.notePong r).pendingPingSeq = some r.sequence) := hnot
  rw [TimedClient.pong, if_neg hif]
  exact .of_eq hsame rfl rfl rfl rfl

/-- The pong answers what is outstanding. -/
theorem Watched.fate_receive {r : ControlResponse} (h : Watched s)
    (hslot : s.pendingPingSeq = some r.sequence) (hpong : r.isPong = true)
    (hp : s.pings[i]? = some p) :
    (p.receive r).fate = if p.fate = .outstanding then .answered else p.fate := by
  split
  next hout =>
    have hseq : r.sequence = p.sequence :=
      Option.some.inj (hslot.symm.trans (h.slot_of_outstanding hp hout).1)
    rw [HeartbeatPing.receive, if_pos ⟨hpong, hseq.symm, hout⟩]
  next hout => rw [receive_of_settled hout]

/-- Each ping of the new state comes from one of the old. -/
theorem Ponged.exists_of_ping {r : ControlResponse} {q : HeartbeatPing} (h : Ponged s t r)
    (hq : t.pings[i]? = some q) : ∃ p : HeartbeatPing, s.pings[i]? = some p ∧ q.sent = p.sent ∧
      q.fate = (p.receive r).fate ∧
      (q.aborted = true → p.aborted = true ∨ p.sequence = r.sequence) := by
  have hi : i < s.pings.length := by
    rw [← h.length]
    exact (List.getElem?_eq_some_iff.mp hq).1
  obtain ⟨q', hq', hall⟩ := h.pings i _ (List.getElem?_eq_getElem hi)
  rw [Option.some.inj (hq.symm.trans hq')]
  exact ⟨_, List.getElem?_eq_getElem hi, hall⟩

/-- The fates after the pong. -/
theorem Ponged.fates_eq {r : ControlResponse} {before : List Fate} (hp : Ponged s t r)
    (h : Watched s) (hslot : s.pendingPingSeq = some r.sequence) (hpong : r.isPong = true)
    (hfates : s.fates = before ++ [Fate.outstanding]) (hbefore : .outstanding ∉ before) :
    t.fates = before ++ [Fate.answered] := by
  have hmap : t.fates = s.fates.map fun f => if f = .outstanding then .answered else f := by
    rw [hp.fates, TimedClient.fates, List.map_map]
    refine List.map_congr_left fun p hmem => ?_
    obtain ⟨i, hi⟩ := List.mem_iff_getElem?.mp hmem
    exact h.fate_receive hslot hpong hi
  have hsame : before.map (fun f => if f = .outstanding then Fate.answered else f) = before := by
    refine (List.map_congr_left fun f hf => ?_).trans (List.map_id _)
    refine if_neg ?_
    rintro rfl
    exact hbefore hf
  rw [hmap, hfates, List.map_append, hsame]
  rfl

theorem Watched.ponged {r : ControlResponse} (h : Watched s) (hcommands : Commands t)
    (hslot : s.pendingPingSeq = some r.sequence) (hpong : r.isPong = true) (hp : Ponged s t r) :
    Watched t := by
  obtain ⟨before, hfates, hlast, hbefore⟩ : ∃ before, s.fates = before ++ [Fate.outstanding] ∧
      s.pendingPingSeq = s.sequences.getLast? ∧ .outstanding ∉ before := by
    cases h.slot with
    | free hnone _ =>
      rw [hnone] at hslot
      cases hslot
    | taken before hfates hlast hbefore => exact ⟨before, hfates, hlast, hbefore⟩
  have htfates := hp.fates_eq h hslot hpong hfates hbefore
  refine ⟨⟨?_, ?_, ?_, ?_, ?_⟩, hcommands, .free hp.slot ?_, ?_, ?_⟩
  · have hcount :
        Streak.count Fate.isMissed (before.filter Fate.isSettled ++ [Fate.answered]) = 0 :=
      Streak.count_snoc Fate.answered
    rw [hp.missed, htfates, List.filter_append]
    exact hcount.symm
  · intro k
    rw [hp.deaths, h.dead, hfates, htfates, thirdInARow_snoc_of_not rfl,
      thirdInARow_snoc_of_not rfl]
  · rw [hp.deaths]
    exact h.once
  · intro i q hq u rto _ hout
    obtain ⟨p, hpi, -, hqfate, -⟩ := hp.exists_of_ping hq
    rw [hqfate, h.fate_receive hslot hpong hpi] at hout
    split at hout
    · cases hout
    next hne => exact absurd hout hne
  · intro q hq u hu
    obtain ⟨i, hi⟩ := List.mem_iff_getElem?.mp hq
    obtain ⟨p, hpi, hsent, hqfate, -⟩ := hp.exists_of_ping hi
    rw [hqfate, h.fate_receive hslot hpong hpi] at hu
    split at hu
    · cases hu
    next =>
      rw [hsent]
      exact h.expired p (List.mem_of_getElem? hpi) u hu
  · rw [htfates, List.mem_append, List.mem_singleton, not_or]
    exact ⟨hbefore, Fate.noConfusion⟩
  · intro q hq haborted
    obtain ⟨i, hi⟩ := List.mem_iff_getElem?.mp hq
    obtain ⟨p, hpi, -, hqfate, hwas⟩ := hp.exists_of_ping hi
    rw [hqfate, h.fate_receive hslot hpong hpi]
    rcases hwas haborted with hold | hseq
    · rw [h.aborted p (List.mem_of_getElem? hpi) hold]
      rfl
    · rw [if_pos (h.outstanding_of_slot hpi (hseq ▸ hslot))]
  · intro x hx i hi
    rw [hp.timers] at hx
    obtain ⟨p, hpi, u, rto, hsent, hdue⟩ := h.due x hx i hi
    obtain ⟨q, hq, hqsent, -⟩ := hp.pings i p hpi
    exact ⟨q, hq, u, rto, hqsent.trans hsent, hdue⟩

/-! ### The timer of a ping ends -/

theorem noteExpiry_of_settled (hp : s.pings[i]? = some p) (h : p.fate ≠ .outstanding) :
    (s.noteExpiry i p).pings = s.pings := by
  obtain ⟨hi, rfl⟩ := List.getElem?_eq_some_iff.mp hp
  rw [noteExpiry, if_neg h]
  exact List.set_getElem_self hi

/-- The timer of a ping that has been answered changes nothing. -/
theorem Watched.pingTimer_of_settled (h : Watched s) (hp : s.pings[i]? = some p)
    (hsettled : p.fate ≠ .outstanding) : PingsKept s (s.pingTimer i) := by
  have hpings := noteExpiry_of_settled hp hsettled
  have hslot : ¬(s.noteExpiry i p).pendingPingSeq = some p.sequence := fun hslot =>
    hsettled (h.outstanding_of_slot hp hslot)
  simp only [TimedClient.pingTimer, hp, hslot, if_false, ite_self]
  exact .of_eq hpings rfl rfl rfl rfl

/-- The ping that is waited for is counted when its timer ends. -/
theorem pingTimer_of_outstanding (hp : s.pings[i]? = some p) (habort : p.aborted = false)
    (hout : p.fate = .outstanding) (hslot : s.pendingPingSeq = some p.sequence) :
    ∃ heartbeatTimer, s.pingTimer i = { s with
      heartbeatTimer
      pings := s.pings.set i { p with fate := .expired s.now }
      pendingPingSeq := none
      pendingTimeouts := s.pendingTimeouts.erase p.sequence
      missedPings := s.missedPings + 1
      deaths := if maxMissedPings ≤ s.missedPings + 1 then s.deaths ++ [i] else s.deaths } := by
  simp only [TimedClient.pingTimer, hp, habort, Bool.false_eq_true, if_false, noteExpiry, hslot,
    if_true, hout]
  split
  · exact ⟨_, rfl⟩
  · exact ⟨_, rfl⟩

theorem Watched.expires {heartbeatTimer : Option ℚ} {x : Timer} (h : Watched s)
    (hcommands : Commands t) (hx : s.timers[j]? = some x) (howner : x.owner = .ping i)
    (hdue : x.due ≤ s.now) (hp : s.pings[i]? = some p) (hout : p.fate = .outstanding)
    (ht : t = { s.fired j x with
      heartbeatTimer
      pings := s.pings.set i { p with fate := .expired s.now }
      pendingPingSeq := none
      pendingTimeouts := s.pendingTimeouts.erase p.sequence
      missedPings := s.missedPings + 1
      deaths := if maxMissedPings ≤ s.missedPings + 1 then s.deaths ++ [i] else s.deaths }) :
    Watched t := by
  obtain ⟨-, before, hfates, hi, hbefore⟩ := h.slot_of_outstanding hp hout
  have htfates : t.fates = before ++ [Fate.expired s.now] := by
    have hmap : t.fates = s.fates.set i (.expired s.now) := by
      rw [ht]
      exact List.map_set
    rw [hmap, hfates, hi, List.set_append_right _ _ (Nat.le_refl _), Nat.sub_self]
    rfl
  have hcounted : s.missedPings = Streak.count Fate.isMissed before := by
    rw [h.counted, hfates, List.filter_append, filter_isSettled hbefore]
    exact congrArg _ (List.append_nil _)
  have hdead : ∀ k, k ∈ s.deaths ↔ ThirdInARow before k := by
    intro k
    rw [h.dead, hfates, thirdInARow_snoc_of_not rfl]
  have hdeaths : t.deaths = if maxMissedPings ≤ s.missedPings + 1 then s.deaths ++ [before.length]
      else s.deaths := by
    rw [ht, hi]
  have hpings : t.pings = s.pings.set i { p with fate := .expired s.now } := by rw [ht]
  refine ⟨⟨?_, ?_, ?_, ?_, ?_⟩, hcommands, .free (by rw [ht]) ?_, ?_, ?_⟩
  · have hcount : Streak.count Fate.isMissed (before ++ [Fate.expired s.now]) =
        Streak.count Fate.isMissed before + 1 := Streak.count_snoc _
    have hmissed : t.missedPings = s.missedPings + 1 := by rw [ht]
    rw [htfates, List.filter_append, filter_isSettled hbefore, hmissed, hcounted]
    exact hcount.symm
  · intro k
    rw [htfates, hdeaths]
    exact mem_deaths_snoc hdead hcounted k
  · rw [hdeaths]
    exact nodup_deaths_snoc hdead h.once s.missedPings
  · -- no ping is outstanding any more
    intro k q hq u rto _ hqout
    have hfate := fates_getElem? hq
    rw [htfates, hqout] at hfate
    rcases Tasks.get_append hfate with hk | ⟨-, hk⟩
    · exact absurd (List.mem_of_getElem? hk) hbefore
    · cases hk
  · intro q hq u hu
    rw [hpings] at hq
    rcases Tasks.mem_set hq with rfl | ⟨k, -, hk⟩
    · obtain ⟨q, hq, u', rto, hsent, hxdue⟩ := h.due x (List.mem_of_getElem? hx) i howner
      obtain rfl := Fate.expired.inj hu
      refine ⟨u', rto, ?_, hxdue ▸ hdue⟩
      rw [← hsent, Option.some.inj (hp.symm.trans hq)]
    · exact h.expired q (List.mem_of_getElem? hk) u hu
  · rw [htfates, List.mem_append, List.mem_singleton, not_or]
    exact ⟨hbefore, Fate.noConfusion⟩
  · intro q hq haborted
    rw [hpings] at hq
    rcases Tasks.mem_set hq with rfl | ⟨k, -, hk⟩
    · have hanswered := h.aborted p (List.mem_of_getElem? hp) haborted
      rw [hout] at hanswered
      cases hanswered
    · exact h.aborted q (List.mem_of_getElem? hk) haborted
  · intro y hy k hk
    have htimers : t.timers = s.timers.set j { x with armed := false } := by
      rw [ht]
      rfl
    obtain ⟨z, hz, hzk, hzdue⟩ := PingsKept.exists_of_fired hx (htimers ▸ hy) hk
    obtain ⟨q, hq, u, rto, hsent, hqdue⟩ := h.due z hz k hzk
    rw [hpings, ← hzdue]
    by_cases hki : k = i
    · subst hki
      rw [Option.some.inj (hq.symm.trans hp)] at hsent
      exact ⟨_, Tasks.set_self hp _, u, rto, hsent, hqdue⟩
    · exact ⟨q, Tasks.get_set_of_ne hki hq, u, rto, hsent, hqdue⟩

theorem Watched.timer (h : Watched s) (hcommands : Commands t) (hs : s.timer j = some t) :
    Watched t := by
  obtain ⟨x, hx, hs⟩ := Option.bind_eq_some_iff.mp hs
  split at hs
  next harmed =>
    dsimp only at hs
    split at hs
    next i howner =>
      obtain rfl := Option.some.inj hs
      have hfired : PingsKept s (s.fired j x) := by
        refine .fired hx fun i' hi' => ?_
        rw [howner] at hi'
        cases hi'
      exact h.keep hcommands (hfired.trans (.retryTimer _ i))
    next i howner =>
      obtain rfl := Option.some.inj hs
      obtain ⟨p, hp, -⟩ := h.due x (List.mem_of_getElem? hx) i howner
      by_cases hout : p.fate = .outstanding
      · have habort : p.aborted = false := by
          by_contra habort
          rw [h.aborted p (List.mem_of_getElem? hp) (Bool.eq_true_of_not_eq_false habort)] at hout
          cases hout
        obtain ⟨heartbeatTimer, heq⟩ := pingTimer_of_outstanding (s := s.fired j x) hp habort hout
          (h.slot_of_outstanding hp hout).1
        exact h.expires hcommands hx howner harmed.2 hp hout heq
      · have hfired : PingsKept s (s.fired j x) := by
          refine .fired hx fun i' hi' => ?_
          rintro ⟨q, hq, hqout⟩
          rw [← Owner.ping.inj (howner.symm.trans hi'), hp] at hq
          exact hout (Option.some.inj hq ▸ hqout)
        have hs' := h.keep (h.commands.fired hx howner) hfired
        exact hs'.keep hcommands (hs'.pingTimer_of_settled hp hout)
  next => cases hs

theorem Watched.step {e : TimedEvent} (h : Watched s) (hone : s.OneAtATime e)
    (hs : s.step e = some t) : Watched t := by
  have hcommands := h.commands.step hone.1 hs
  obtain ⟨time, action⟩ := e
  simp only [TimedClient.step] at hs
  split at hs
  next =>
    have hnow : Watched { s with now := time } :=
      h.keep (h.commands.setNow time) (.of_eq rfl rfl rfl rfl rfl)
    cases action with
    | sendCommand n encoded isPing =>
      obtain rfl := Option.some.inj hs
      exact hnow.keep hcommands (.sendCommand _ n encoded isPing)
    | heartbeat =>
      obtain ⟨due, -, hs⟩ := Option.bind_eq_some_iff.mp hs
      split at hs
      next =>
        dsimp only at hs
        split at hs
        all_goals
          obtain rfl := Option.some.inj hs
          exact hnow.keep hcommands (.of_eq rfl rfl rfl rfl rfl)
      next => cases hs
    | number n => exact hnow.number hcommands hone.2 hs
    | numberFails =>
      simp only [act] at hs
      split at hs
      next => cases hs
      next =>
        obtain rfl := Option.some.inj hs
        exact hnow.keep hcommands (.of_eq rfl rfl rfl rfl rfl)
    | sendSettles i => exact hnow.sendSettles hcommands hs
    | response parsed =>
      obtain rfl := Option.some.inj hs
      simp only [handleIncomingResponse] at hcommands ⊢
      split at hcommands
      next => exact hnow
      next r _ =>
        have hpong := (hnow.commands.notePong r).pong r
        by_cases hwaited : r.isPong = true ∧ s.pendingPingSeq = some r.sequence
        · have hponged := hnow.ponged hpong hwaited.2 hwaited.1
            (TimedClient.ponged hnow.commands hwaited.1 hwaited.2)
          exact hponged.keep hcommands (.answer hpong r)
        · exact hnow.keep hcommands ((hnow.not_ponged hwaited).trans (.answer hpong r))
    | timer j => exact hnow.timer hcommands hs
  next => cases hs

/-- In every run in which no ping is sent while an earlier one is outstanding, and in which numbers
are distinct, misses are counted exactly. -/
theorem exact_of_oneAtATime {now : ℚ} {es : List TimedEvent} (hrun : Run { now } es s)
    (hone : Machine.Throughout TimedClient.step OneAtATime { now } es) : s.Exact := by
  have h : Watched s := hrun.invariant (.init now) hone fun _ _ _ hs ho hstep => hs.step ho hstep
  exact h.toExact

section Samples

/-- A tick of the heartbeat sends ping `i` with number `n`. -/
def samplePing (time : ℚ) (i n : Nat) : List TimedEvent :=
  [⟨time, .heartbeat⟩, ⟨time, .number (.ofNat n)⟩, ⟨time, .sendSettles i⟩]

/-- Of five pings the second is answered; the last three are missed. -/
def missedRun : List TimedEvent :=
  [⟨0, .sendCommand (.ofNat 1) [] false⟩, ⟨500, .response (some (sampleResponse 1 "ok"))⟩] ++
    samplePing 15000 0 2 ++ [⟨18000, .timer 1⟩] ++ samplePing 30000 1 3 ++
    [⟨30100, .response (some (sampleResponse 3 "pong"))⟩, ⟨33000, .timer 2⟩] ++
    samplePing 45000 2 4 ++ [⟨48000, .timer 3⟩] ++ samplePing 60000 3 5 ++ [⟨63000, .timer 4⟩] ++
    samplePing 75000 4 6 ++ [⟨78000, .timer 5⟩]

theorem exact_of_oneAtATime_missed : ∃ s, Run { now := 0 } missedRun s ∧ s.deaths = [4] ∧
    s.missedPings = 3 ∧ s.Exact := by
  obtain ⟨s, hrun, hs⟩ : ∃ s, Run { now := 0 } missedRun s ∧
      decide (s.deaths = [4] ∧ s.missedPings = 3) = true :=
    Machine.exists_run_with (by decide +kernel)
  have hdeaths := of_decide_eq_true hs
  exact ⟨s, hrun, hdeaths.1, hdeaths.2, exact_of_oneAtATime hrun (by decide +kernel)⟩

/-- Four slow answers bring the RTO to almost seven seconds; then no ping is answered. -/
def slowRun : List TimedEvent :=
  [⟨0, .sendCommand (.ofNat 1) [] false⟩, ⟨999, .response (some (sampleResponse 1 "ok"))⟩,
    ⟨1000, .sendCommand (.ofNat 2) [] false⟩, ⟨2398, .response (some (sampleResponse 2 "ok"))⟩,
    ⟨2399, .sendCommand (.ofNat 3) [] false⟩, ⟨4758, .response (some (sampleResponse 3 "ok"))⟩,
    ⟨4759, .sendCommand (.ofNat 4) [] false⟩, ⟨8800, .response (some (sampleResponse 4 "ok"))⟩] ++
    samplePing 19759 0 5 ++ samplePing 34759 1 6 ++ [⟨40712, .timer 4⟩] ++ samplePing 49759 2 7 ++
    [⟨55712, .timer 5⟩] ++ samplePing 64759 3 8 ++ [⟨70712, .timer 6⟩]

/-- Each ping takes the slot from the one before, and three that are missed in a row are not
counted. -/
theorem slow_not_exact : ∃ s, Run { now := 0 } slowRun s ∧
    Machine.Throughout TimedClient.step Fresh { now := 0 } slowRun ∧
    s.fates.map Fate.isMissed = [true, true, true, false] ∧ s.missedPings = 0 ∧ s.deaths = [] ∧
    ¬s.Exact := by
  obtain ⟨s, hrun, hs⟩ : ∃ s, Run { now := 0 } slowRun s ∧
      decide (s.fates.map Fate.isMissed = [true, true, true, false] ∧ s.missedPings = 0 ∧
        s.deaths = []) = true :=
    Machine.exists_run_with (by decide +kernel)
  obtain ⟨hfates, hmissed, hdeaths⟩ := of_decide_eq_true hs
  refine ⟨s, hrun, by decide +kernel, hfates, hmissed, hdeaths, fun hexact => ?_⟩
  have hat : ∀ i, (s.fates.map Fate.isMissed)[i]? = some true → MissedAt s.fates i := by
    intro i hi
    rw [List.getElem?_map] at hi
    exact Option.map_eq_some_iff.mp hi
  rw [hfates] at hat
  have hthird : ThirdInARow s.fates 2 := ⟨0, rfl, hat 0 rfl, hat 1 rfl, hat 2 rfl⟩
  rw [← hexact.dead, hdeaths] at hthird
  exact List.not_mem_nil hthird

end Samples

end TimedClient

end SmartIdVault.Command
