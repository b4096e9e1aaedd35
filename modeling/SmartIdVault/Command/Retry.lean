import SmartIdVault.Command.Timers

/-! The commands of the timed client.  Whatever responses arrive and whichever timers fire, a
command is in the map, has its controller and has one armed timer as long as its promise is
unsettled; it is transmitted at most three times, and it ends with the first response to it or with
its third timeout.  Sequence numbers are assumed to be distinct. -/

namespace SmartIdVault.Command

open Pairing (maxRetries heartbeatIntervalMs)

namespace LogEntry

/-- The entry is about command `i`, or a response with its number. -/
def concerns (i : Nat) (sequence : Decimal) : LogEntry → Bool
  | .started j | .transmitted j | .timedOut j | .settled j _ => j = i
  | .received r => r.sequence = sequence

def command : LogEntry → Option Nat
  | .started i | .transmitted i | .timedOut i | .settled i _ => some i
  | .received _ => none

end LogEntry

/-- The transmissions of a command, with a timeout before each but the first. -/
def tries (i : Nat) : Nat → List LogEntry
  | 0 => []
  | 1 => [.transmitted i]
  | k + 2 => tries i (k + 1) ++ [.timedOut i, .transmitted i]

/-- Only responses. -/
def OnlyReceived (entries : List LogEntry) : Prop := ∀ e ∈ entries, ∃ r, e = .received r

/-- What happens to a command that is settled: by a response, or by its third timeout.  Responses
that come later change nothing. -/
inductive Ended (i : Nat) (sequence : Decimal) : List LogEntry → Prop
  | answered (k : Nat) (hk : 1 ≤ k ∧ k ≤ maxRetries) (r : ControlResponse)
      (hr : r.sequence = sequence) (late : List LogEntry) (hlate : OnlyReceived late) :
      Ended i sequence (tries i k ++ .received r :: .settled i r.outcome :: late)
  | failed (late : List LogEntry) (hlate : OnlyReceived late) :
      Ended i sequence (tries i maxRetries ++
        .timedOut i :: .settled i (retriesFailed sequence) :: late)

theorem onlyReceived_nil : OnlyReceived [] := fun _ h => absurd h List.not_mem_nil

theorem OnlyReceived.snoc {entries : List LogEntry} (h : OnlyReceived entries)
    (r : ControlResponse) : OnlyReceived (entries ++ [LogEntry.received r]) := by
  intro e he
  rcases List.mem_append.mp he with he | he
  · exact h e he
  · exact ⟨r, List.mem_singleton.mp he⟩

theorem Ended.snoc {sequence : Decimal} {rest : List LogEntry} (h : Ended i sequence rest)
    (r : ControlResponse) : Ended i sequence (rest ++ [LogEntry.received r]) := by
  cases h with
  | answered k hk r' hr late hlate =>
    rw [List.append_assoc, List.cons_append, List.cons_append]
    exact .answered k hk r' hr _ (OnlyReceived.snoc hlate r)
  | failed late hlate =>
    rw [List.append_assoc, List.cons_append, List.cons_append]
    exact .failed _ (OnlyReceived.snoc hlate r)

/-- The command of a retry timer, and whether the timer is armed. -/
def Timer.retry (x : Timer) : Option (Nat × Bool) :=
  match x.owner with
  | .command i => some (i, x.armed)
  | .ping _ => none

namespace TimedClient

/-- The promise of command `i` is unsettled. -/
def Unsettled (s : TimedClient) (i : Nat) : Prop := ∀ outcome, .settled i outcome ∉ s.log

/-- What has happened to command `i`, with the responses that carry its number. -/
def history (s : TimedClient) (i : Nat) (sequence : Decimal) : List LogEntry :=
  s.log.filter (·.concerns i sequence)

def retryTimerOf (s : TimedClient) (j : Nat) : Option (Nat × Bool) := s.timers[j]?.bind Timer.retry

/-- The command is as it should be: its promise is unsettled exactly as long as it is in the map and
as its controller is there, and it has one armed timer until then.  Between responses that come too
early and too late it is transmitted up to three times, and settled once. -/
structure Retried (s : TimedClient) (i : Nat) (c : PendingCommand) : Prop where
  pending : s.Unsettled i ↔ s.pending.lookup c.sequence = some i
  controller : s.Unsettled i ↔
    s.pendingTimeouts.lookup c.sequence = some (.command i) ∧ c.aborted = false
  timer : s.Unsettled i → ∃! j, s.retryTimerOf j = some (i, true)
  life : ∃ early rest, OnlyReceived early ∧ s.history i c.sequence = early ++ .started i :: rest ∧
    ((∃ k, 1 ≤ k ∧ k ≤ maxRetries ∧ rest = tries i k) ∨ Ended i c.sequence rest)

/-- A command that waits. -/
structure Open (s : TimedClient) (i : Nat) (c : PendingCommand) : Prop where
  pending : s.pending.lookup c.sequence = some i
  controller : s.pendingTimeouts.lookup c.sequence = some (.command i)
  aborted : c.aborted = false
  attempts : 1 ≤ c.attempts ∧ c.attempts ≤ maxRetries
  timer : ∃! j, s.retryTimerOf j = some (i, true)
  life : ∃ early, OnlyReceived early ∧
    s.history i c.sequence = early ++ .started i :: tries i c.attempts

/-- A command that is settled. -/
structure Closed (s : TimedClient) (i : Nat) (c : PendingCommand) : Prop where
  pending : s.pending.lookup c.sequence = none
  controller : s.pendingTimeouts.lookup c.sequence = none
  timer : ∀ j, s.retryTimerOf j ≠ some (i, true)
  life : ∃ early rest, OnlyReceived early ∧ s.history i c.sequence = early ++ .started i :: rest ∧
    Ended i c.sequence rest

def numberOf (s : TimedClient) : Owner → Option Decimal
  | .command i => s.commands[i]?.map (·.sequence)
  | .ping i => s.pings[i]?.map (·.sequence)

/-- Every command waits or is settled, and what the two maps, the slot for a ping, the timers and
the log name is what has the number. -/
structure Commands (s : TimedClient) : Prop where
  status : ∀ i c, s.commands[i]? = some c → Open s i c ∨ Closed s i c
  numbers : s.numbers.Nodup
  entry : ∀ n i, s.pending.lookup n = some i → s.numberOf (.command i) = some n
  controller : ∀ n o, s.pendingTimeouts.lookup n = some o → s.numberOf o = some n
  slot : ∀ n, s.pendingPingSeq = some n → n ∈ s.pings.map (·.sequence)
  listeners : ∀ i c j, s.commands[i]? = some c →
    (j ∈ c.listeners ↔ ∃ b, s.retryTimerOf j = some (i, b))
  timers : ∀ j i b, s.retryTimerOf j = some (i, b) → (s.commands[i]?).isSome
  log : ∀ e ∈ s.log, ∀ i, e.command = some i → (s.commands[i]?).isSome

variable {s t : TimedClient} {i j : Nat} {c : PendingCommand}

/-! ### The history of one command -/

theorem not_settled_of_onlyReceived {entries : List LogEntry} (h : OnlyReceived entries)
    (outcome : Outcome) : .settled i outcome ∉ entries := by
  intro hmem
  obtain ⟨r, hr⟩ := h _ hmem
  cases hr

theorem not_settled_of_tries (i k : Nat) (outcome : Outcome) : .settled i outcome ∉ tries i k := by
  fun_induction tries i k with
  | case1 => exact List.not_mem_nil
  | case2 => simp
  | case3 k ih =>
    rw [List.mem_append, not_or]
    exact ⟨ih, by simp⟩

theorem settled_mem_history (s : TimedClient) (i : Nat) (sequence : Decimal)
    (outcome : Outcome) :
    .settled i outcome ∈ s.history i sequence ↔ .settled i outcome ∈ s.log := by
  rw [history, List.mem_filter]
  simp [LogEntry.concerns]

theorem history_append {entries : List LogEntry} (h : t.log = s.log ++ entries) (i : Nat)
    (sequence : Decimal) :
    t.history i sequence = s.history i sequence ++ entries.filter (·.concerns i sequence) := by
  rw [history, h, List.filter_append]
  rfl

theorem Open.unsettled (h : Open s i c) : s.Unsettled i := by
  obtain ⟨early, hearly, hhistory⟩ := h.life
  intro outcome hmem
  rw [← settled_mem_history s i c.sequence, hhistory, List.mem_append,
    List.mem_cons] at hmem
  rcases hmem with hmem | hmem | hmem
  · exact not_settled_of_onlyReceived hearly outcome hmem
  · cases hmem
  · exact not_settled_of_tries i _ outcome hmem

theorem Closed.settled (h : Closed s i c) : ¬s.Unsettled i := by
  obtain ⟨early, rest, -, hhistory, hended⟩ := h.life
  intro hunsettled
  obtain ⟨outcome, hmem⟩ : ∃ outcome, .settled i outcome ∈ rest := by
    cases hended with
    | answered k hk r hr late hlate => exact ⟨r.outcome, by simp⟩
    | failed late hlate => exact ⟨retriesFailed c.sequence, by simp⟩
  refine hunsettled outcome ?_
  rw [← settled_mem_history s i c.sequence, hhistory]
  exact List.mem_append_right _ (List.mem_cons_of_mem _ hmem)

theorem Retried.of_status (h : Open s i c ∨ Closed s i c) : Retried s i c := by
  rcases h with h | h
  · have hunsettled := h.unsettled
    obtain ⟨early, hearly, hhistory⟩ := h.life
    exact ⟨iff_of_true hunsettled h.pending, iff_of_true hunsettled ⟨h.controller, h.aborted⟩,
      fun _ => h.timer, early, _, hearly, hhistory, .inl ⟨_, h.attempts.1, h.attempts.2, rfl⟩⟩
  · have hsettled := h.settled
    obtain ⟨early, rest, hearly, hhistory, hended⟩ := h.life
    refine ⟨iff_of_false hsettled ?_, iff_of_false hsettled ?_, fun hun => absurd hun hsettled,
      early, rest, hearly, hhistory, .inr hended⟩
    · rw [h.pending]
      exact (Option.some_ne_none i).symm
    · rw [h.controller]
      exact fun hnone => Option.some_ne_none _ hnone.1.symm

/-! ### What a step does to the commands -/

theorem Commands.init (now : ℚ) : Commands { now } where
  status i c hc := by simp at hc
  numbers := by simp [TimedClient.numbers]
  entry n i hn := by simp at hn
  controller n o hn := by simp at hn
  slot n hn := by simp at hn
  listeners i c j hc := by simp at hc
  timers j i b hj := by simp [retryTimerOf] at hj
  log e he := by simp at he

/-- The number of a command is not that of a ping. -/
theorem Commands.ne_of_ping (h : Commands s) (hc : s.commands[i]? = some c) {n : Decimal}
    (hn : n ∈ s.pings.map (·.sequence)) : c.sequence ≠ n :=
  (List.nodup_append.mp h.numbers).2.2 _ (List.mem_map_of_mem (List.mem_of_getElem? hc)) n hn

/-- A command waits or is settled as before when the maps have the same under its number, its armed
timers are the same, and nothing has happened to it. -/
theorem status_of_same (h : Open s i c ∨ Closed s i c)
    (hpending : t.pending.lookup c.sequence = s.pending.lookup c.sequence)
    (hcontroller : t.pendingTimeouts.lookup c.sequence = s.pendingTimeouts.lookup c.sequence)
    (htimers : ∀ j, t.retryTimerOf j = some (i, true) ↔ s.retryTimerOf j = some (i, true))
    (hhistory : t.history i c.sequence = s.history i c.sequence) : Open t i c ∨ Closed t i c := by
  rcases h with h | h
  · left
    refine ⟨hpending.trans h.pending, hcontroller.trans h.controller, h.aborted, h.attempts, ?_, ?_⟩
    · simp only [htimers]
      exact h.timer
    · rw [hhistory]
      exact h.life
  · right
    refine ⟨hpending.trans h.pending, hcontroller.trans h.controller, fun j hj => ?_, ?_⟩
    · exact h.timer j ((htimers j).mp hj)
    · rw [hhistory]
      exact h.life

/-- The numbers are the same when those of the commands and the pings are. -/
theorem numbers_of_same (hcommands : t.commands.map (·.sequence) = s.commands.map (·.sequence))
    (hpings : t.pings = s.pings) : t.numbers = s.numbers := by
  rw [TimedClient.numbers, hcommands, hpings]
  rfl

/-- Different commands have different numbers. -/
theorem eq_of_sequence {k : Nat} {c' : PendingCommand} (hnumbers : s.numbers.Nodup)
    (hc : s.commands[i]? = some c) (hk : s.commands[k]? = some c')
    (hseq : c'.sequence = c.sequence) : k = i := by
  have hnodup : (s.commands.map (·.sequence)).Nodup := (List.nodup_append.mp hnumbers).1
  have hlength : k < (s.commands.map (·.sequence)).length := by
    rw [List.length_map]
    exact (List.getElem?_eq_some_iff.mp hk).1
  refine (List.getElem?_inj hlength hnodup).mp ?_
  rw [List.getElem?_map, List.getElem?_map, hk, hc, Option.map_some, Option.map_some, hseq]

/-- What is so of the commands stays so in a step that leaves them, their timers and their log
alone. -/
theorem Commands.keep (h : Commands s) (hcommands : t.commands = s.commands)
    (hpending : t.pending = s.pending) (hlog : t.log = s.log)
    (htimers : ∀ j, t.retryTimerOf j = s.retryTimerOf j)
    (hcontroller : ∀ (i : Nat) (c : PendingCommand), s.commands[i]? = some c →
      t.pendingTimeouts.lookup c.sequence = s.pendingTimeouts.lookup c.sequence)
    (hown : ∀ n o, t.pendingTimeouts.lookup n = some o → t.numberOf o = some n)
    (hslot : ∀ n, t.pendingPingSeq = some n → n ∈ t.pings.map (·.sequence))
    (hnumbers : t.numbers.Nodup) : Commands t where
  status i c hc := by
    rw [hcommands] at hc
    have hhistory : t.history i c.sequence = s.history i c.sequence := by
      rw [history, hlog, history]
    exact status_of_same (h.status i c hc) (by rw [hpending]) (hcontroller i c hc)
      (fun j => by rw [htimers]) hhistory
  numbers := hnumbers
  entry n i hn := by
    rw [numberOf, hcommands]
    exact h.entry n i (hpending ▸ hn)
  controller := hown
  slot := hslot
  listeners i c j hc := by
    rw [htimers]
    exact h.listeners i c j (hcommands ▸ hc)
  timers j i b hj := by
    rw [hcommands]
    exact h.timers j i b (htimers j ▸ hj)
  log e he i hi := by
    rw [hcommands]
    exact h.log e (hlog ▸ he) i hi

/-- A step is about command `i`, with number `n`, alone. -/
structure About (s t : TimedClient) (i : Nat) (n : Decimal) : Prop where
  commands : ∀ k, k ≠ i → t.commands[k]? = s.commands[k]?
  pending : ∀ m, m ≠ n → t.pending.lookup m = s.pending.lookup m
  controller : ∀ m, m ≠ n → t.pendingTimeouts.lookup m = s.pendingTimeouts.lookup m
  timers : ∀ j k b, k ≠ i → (t.retryTimerOf j = some (k, b) ↔ s.retryTimerOf j = some (k, b))
  log : ∃ entries, t.log = s.log ++ entries ∧ ∀ e ∈ entries,
    (∀ k, e.command = some k → k = i) ∧ ∀ k m, k ≠ i → m ≠ n → e.concerns k m = false
  pings : t.pings = s.pings
  slot : t.pendingPingSeq = s.pendingPingSeq

/-- What is logged of a command is about it. -/
theorem about_of_command {e : LogEntry} (n : Decimal) (he : e.command = some i) :
    (∀ k, e.command = some k → k = i) ∧ ∀ k m, k ≠ i → m ≠ n → e.concerns k m = false := by
  refine ⟨fun k hk => (Option.some.inj (he.symm.trans hk)).symm, ?_⟩
  intro k m hk _
  cases e with
  | received r => cases he
  | started i' | transmitted i' | timedOut i' | settled i' outcome =>
    obtain rfl := Option.some.inj he
    simpa [LogEntry.concerns] using Ne.symm hk

/-- Nothing happens to the other commands. -/
theorem About.status {n : Decimal} {k : Nat} (hab : About s t i n) (hki : k ≠ i)
    (hne : c.sequence ≠ n) (h : Open s k c ∨ Closed s k c) : Open t k c ∨ Closed t k c := by
  obtain ⟨entries, hlog, hentries⟩ := hab.log
  have hnil : entries.filter (·.concerns k c.sequence) = [] := by
    rw [List.filter_eq_nil_iff]
    intro e he
    rw [(hentries e he).2 k c.sequence hki hne]
    exact Bool.false_ne_true
  refine status_of_same h (hab.pending _ hne) (hab.controller _ hne)
    (fun j => hab.timers j k true hki) ?_
  rw [history_append hlog, hnil, List.append_nil]

/-- After a step about one command, all is well if it is well with that command. -/
theorem Commands.about {n : Decimal} (h : Commands s) (hab : About s t i n)
    (hold : ∀ c, s.commands[i]? = some c → c.sequence = n) (hnumbers : t.numbers.Nodup)
    (hc : t.commands[i]? = some c) (hn : c.sequence = n) (hstatus : Open t i c ∨ Closed t i c)
    (hentry : ∀ k, t.pending.lookup n = some k → k = i)
    (hown : ∀ o, t.pendingTimeouts.lookup n = some o → o = .command i)
    (hlisteners : ∀ j, j ∈ c.listeners ↔ ∃ b, t.retryTimerOf j = some (i, b)) : Commands t := by
  obtain ⟨entries, hlog, hentries⟩ := hab.log
  have hself : (t.commands[i]?).isSome := by rw [hc]; rfl
  have hsome : ∀ k : Nat, (s.commands[k]?).isSome → (t.commands[k]?).isSome := by
    intro k hk
    by_cases hki : k = i
    · rwa [hki]
    · rwa [hab.commands k hki]
  -- a command with another number is another command, and still there
  have hother : ∀ (m : Decimal) (k : Nat), m ≠ n → s.numberOf (.command k) = some m →
      t.numberOf (.command k) = some m := by
    intro m k hm hk
    have hki : k ≠ i := by
      rintro rfl
      obtain ⟨c', hc', rfl⟩ := Option.map_eq_some_iff.mp hk
      exact hm (hold c' hc')
    rw [numberOf, hab.commands k hki]
    exact hk
  refine ⟨?_, hnumbers, ?_, ?_, ?_, ?_, ?_, ?_⟩
  · intro k c' hk
    by_cases hki : k = i
    · subst hki
      obtain rfl : c = c' := Option.some.inj (hc.symm.trans hk)
      exact hstatus
    · rw [hab.commands k hki] at hk
      have hne : c'.sequence ≠ n := fun heq =>
        hki (eq_of_sequence hnumbers hc ((hab.commands k hki).trans hk) (heq.trans hn.symm))
      exact hab.status hki hne (h.status k c' hk)
  · intro m k hm
    by_cases hmn : m = n
    · rw [hmn] at hm ⊢
      rw [hentry k hm, numberOf, hc, Option.map_some, hn]
    · rw [hab.pending m hmn] at hm
      exact hother m k hmn (h.entry m k hm)
  · intro m o hm
    by_cases hmn : m = n
    · rw [hmn] at hm ⊢
      rw [hown o hm, numberOf, hc, Option.map_some, hn]
    · rw [hab.controller m hmn] at hm
      have ho := h.controller m o hm
      cases o with
      | command k => exact hother m k hmn ho
      | ping k =>
        rw [numberOf, hab.pings]
        exact ho
  · rw [hab.slot, hab.pings]
    exact h.slot
  · intro k c' j hk
    by_cases hki : k = i
    · subst hki
      obtain rfl : c = c' := Option.some.inj (hc.symm.trans hk)
      exact hlisteners j
    · rw [hab.commands k hki] at hk
      simp only [hab.timers j k _ hki]
      exact h.listeners k c' j hk
  · intro j k b hj
    by_cases hki : k = i
    · rwa [hki]
    · exact hsome k (h.timers j k b ((hab.timers j k b hki).mp hj))
  · intro e he k hk
    rw [hlog] at he
    rcases List.mem_append.mp he with he | he
    · exact hsome k (h.log e he k hk)
    · rwa [(hentries e he).1 k hk]

/-! ### Timers -/

theorem retryTimerOf_append {x : Timer} (h : t.timers = s.timers ++ [x]) (j : Nat) :
    t.retryTimerOf j = if j = s.timers.length then x.retry else s.retryTimerOf j := by
  unfold retryTimerOf
  split
  next hj => rw [h, hj, Tasks.append_self, Option.bind_some]
  next hj => rw [h, Tasks.append_ne hj]

/-- The new timer is the only armed one of a command that had none. -/
theorem existsUnique_new {n : Nat} {f : Nat → Option (Nat × Bool)}
    (h : ∀ j, t.retryTimerOf j = if j = n then some (i, true) else f j)
    (hnone : ∀ j, f j ≠ some (i, true)) : ∃! j, t.retryTimerOf j = some (i, true) := by
  refine ⟨n, (h n).trans (if_pos rfl), ?_⟩
  intro j hj
  by_contra hne
  exact hnone j ((if_neg hne).symm.trans ((h j).symm.trans hj))

/-- A timer of command `i` is none of another command. -/
theorem retryTimer_ne {k : Nat} {b b' : Bool} (hk : k ≠ i) : some (i, b) ≠ some (k, b') :=
  fun heq => hk (congrArg Prod.fst (Option.some.inj heq)).symm

theorem retryTimerOf_set {x y : Timer} (hx : s.timers[j]? = some x)
    (h : t.timers = s.timers.set j y) (k : Nat) :
    t.retryTimerOf k = if k = j then y.retry else s.retryTimerOf k := by
  unfold retryTimerOf
  split
  next hk => rw [h, hk, Tasks.set_self hx, Option.bind_some]
  next hk => rw [h, List.getElem?_set_ne (Ne.symm hk)]

/-! ### A command starts -/

/-- A command after its first transmission. -/
def firstTry (s : TimedClient) (sequence : Decimal) (encoded : Utf16) : PendingCommand where
  sequence := sequence
  encoded := encoded
  attempts := 1
  sentAt := s.now
  listeners := [s.timers.length]

theorem sendCommand_eq (s : TimedClient) (sequence : Decimal) (encoded : Utf16) (isPing : Bool) :
    s.sendCommand sequence encoded isPing = { s with
      lastCommandTime := s.now
      heartbeatTimer := if isPing then s.heartbeatTimer else some (s.now + heartbeatIntervalMs)
      commands := s.commands ++ [s.firstTry sequence encoded]
      pending := s.pending.insert sequence s.commands.length
      pendingTimeouts := s.pendingTimeouts.insert sequence (.command s.commands.length)
      timers := s.timers ++ [⟨.command s.commands.length, s.now + s.rttEstimator.getRto, true⟩]
      log := s.log ++ [LogEntry.started s.commands.length, .transmitted s.commands.length] } := by
  simp [sendCommand, sendCommandWithRetry, attemptSend, transmit, arm, firstTry, maxRetries]

/-- Nothing has happened to the next command yet. -/
theorem Commands.history_next (h : Commands s) (sequence : Decimal) :
    OnlyReceived (s.history s.commands.length sequence) := by
  intro e he
  obtain ⟨hmem, hconcerns⟩ := List.mem_filter.mp he
  have hcommand : e.command ≠ some s.commands.length := by
    intro hcommand
    have hsome := h.log e hmem _ hcommand
    rw [List.getElem?_eq_none (Nat.le_refl _)] at hsome
    cases hsome
  cases e with
  | received r => exact ⟨r, rfl⟩
  | started i | transmitted i | timedOut i | settled i outcome =>
    refine absurd (congrArg some ?_) hcommand
    simpa [LogEntry.concerns] using hconcerns

/-- No timer is one of the next command. -/
theorem Commands.retryTimerOf_next (h : Commands s) (j : Nat) (b : Bool) :
    s.retryTimerOf j ≠ some (s.commands.length, b) := by
  intro hj
  have hsome := h.timers j _ b hj
  rw [List.getElem?_eq_none (Nat.le_refl _)] at hsome
  cases hsome

theorem Commands.sendCommand (h : Commands s) {sequence : Decimal} (hfresh : sequence ∉ s.numbers)
    (encoded : Utf16) (isPing : Bool) : Commands (s.sendCommand sequence encoded isPing) := by
  obtain ⟨t, ht⟩ : ∃ t, t = s.sendCommand sequence encoded isPing := ⟨_, rfl⟩
  rw [← ht]
  rw [sendCommand_eq] at ht
  have hlast : t.commands[s.commands.length]? = some (s.firstTry sequence encoded) := by
    rw [ht]
    exact Tasks.append_self _ _
  have htimers : ∀ j, t.retryTimerOf j = if j = s.timers.length then some (s.commands.length, true)
      else s.retryTimerOf j := by
    have happend : t.timers = s.timers ++ [⟨.command s.commands.length,
        s.now + s.rttEstimator.getRto, true⟩] := by rw [ht]
    exact retryTimerOf_append happend
  have hlog : t.log =
      s.log ++ [LogEntry.started s.commands.length, .transmitted s.commands.length] := by
    rw [ht]
  have habout : About s t s.commands.length sequence := by
    refine ⟨?_, ?_, ?_, ?_, ⟨_, hlog, ?_⟩, by rw [ht], by rw [ht]⟩
    · intro k hk
      rw [ht]
      exact Tasks.append_ne hk _
    · intro m hm
      rw [ht]
      exact AList.lookup_insert_ne hm
    · intro m hm
      rw [ht]
      exact AList.lookup_insert_ne hm
    · intro j k b hk
      rw [htimers]
      split
      next hj =>
        have hshort : s.timers[j]? = none := List.getElem?_eq_none (by omega)
        refine iff_of_false (retryTimer_ne hk) ?_
        rw [retryTimerOf, hshort]
        exact (Option.some_ne_none _).symm
      next => exact Iff.rfl
    · simp only [List.forall_mem_cons, List.not_mem_nil, false_implies, implies_true, and_true]
      exact ⟨about_of_command _ rfl, about_of_command _ rfl⟩
  have hnumbers : t.numbers.Nodup := by
    have hperm : t.numbers.Perm (sequence :: s.numbers) := by
      rw [ht]
      simp only [TimedClient.numbers, List.map_append, List.map_cons, List.map_nil, firstTry,
        List.append_assoc, List.singleton_append]
      exact List.perm_middle
    exact hperm.nodup_iff.mpr (List.nodup_cons.mpr ⟨hfresh, h.numbers⟩)
  have hlookup : t.pending.lookup sequence = some s.commands.length := by
    rw [ht]
    exact AList.lookup_insert _
  have hcontroller : t.pendingTimeouts.lookup sequence = some (.command s.commands.length) := by
    rw [ht]
    exact AList.lookup_insert _
  refine h.about habout ?_ hnumbers hlast rfl
    (.inl ⟨hlookup, hcontroller, rfl, ?_, ?_, ?_⟩) ?_ ?_ ?_
  · rw [List.getElem?_eq_none (Nat.le_refl _)]
    intro c hc
    cases hc
  · exact ⟨Nat.le_refl 1, show 1 ≤ maxRetries by decide⟩
  · exact existsUnique_new htimers fun j => h.retryTimerOf_next j true
  · refine ⟨s.history s.commands.length sequence, h.history_next sequence, ?_⟩
    rw [history_append hlog]
    simp [LogEntry.concerns, tries, firstTry]
  · intro k hk
    exact Option.some.inj (hk.symm.trans hlookup)
  · intro o ho
    exact Option.some.inj (ho.symm.trans hcontroller)
  · intro j
    rw [htimers]
    simp only [firstTry, List.mem_singleton]
    split
    next hj => exact iff_of_true hj ⟨true, rfl⟩
    next hj =>
      refine iff_of_false hj ?_
      rintro ⟨b, hb⟩
      exact h.retryTimerOf_next j b hb

/-! ### A retry timer fires -/

/-- A command after another transmission. -/
def nextTry (s : TimedClient) (c : PendingCommand) : PendingCommand :=
  { c with
    attempts := c.attempts + 1
    sentAt := s.now
    listeners := c.listeners ++ [s.timers.length] }

/-- The timer of a command that waits: the command is transmitted again, or fails. -/
theorem retryTimer_eq {u : TimedClient} (hu : u.commands[i]? = some c) (habort : c.aborted = false)
    (hpending : u.pending.lookup c.sequence = some i) :
    u.retryTimer i =
      if maxRetries ≤ c.attempts then { u with
        pendingTimeouts := u.pendingTimeouts.erase c.sequence
        pending := u.pending.erase c.sequence
        log := u.log ++ [LogEntry.timedOut i, .settled i (retriesFailed c.sequence)] }
      else { u with
        commands := u.commands.set i (u.nextTry c)
        timers := u.timers ++ [⟨.command i, u.now + u.rttEstimator.getRto, true⟩]
        log := u.log ++ [LogEntry.timedOut i, .transmitted i] } := by
  rw [retryTimer, hu]
  simp only [habort, Bool.false_eq_true, if_false, hpending, Option.isSome_some, if_true,
    attemptSend, transmit, arm, nextTry, List.append_assoc, List.singleton_append]

/-- The state in which timer `j` has just fired. -/
def fired (s : TimedClient) (j : Nat) (x : Timer) : TimedClient :=
  { s with timers := s.timers.set j { x with armed := false } }

/-- Timer `j` is the armed timer of command `i`. -/
structure Fires (s : TimedClient) (j : Nat) (x : Timer) (i : Nat) (c : PendingCommand) : Prop where
  timer : s.timers[j]? = some x
  owner : x.owner = .command i
  current : s.commands[i]? = some c
  waits : Open s i c
  armed : s.retryTimerOf j = some (i, true)

theorem Commands.fires {x : Timer} (h : Commands s) (hx : s.timers[j]? = some x)
    (howner : x.owner = .command i) (harmed : x.armed = true) : ∃ c, s.Fires j x i c := by
  have hself : s.retryTimerOf j = some (i, true) := by
    rw [retryTimerOf, hx, Option.bind_some, Timer.retry, howner, harmed]
  obtain ⟨c, hc⟩ := Option.isSome_iff_exists.mp (h.timers j i true hself)
  have hopen : Open s i c := (h.status i c hc).resolve_right fun hclosed => hclosed.timer j hself
  exact ⟨c, hx, howner, hc, hopen, hself⟩

namespace Fires

variable {x : Timer}

theorem retryTimerOf_fired (h : s.Fires j x i c) (k : Nat) :
    (s.fired j x).retryTimerOf k = if k = j then some (i, false) else s.retryTimerOf k := by
  have hset : (s.fired j x).timers = s.timers.set j { x with armed := false } := rfl
  rw [retryTimerOf_set h.timer hset, Timer.retry, h.owner]

theorem not_armed (h : s.Fires j x i c) (k : Nat) :
    (s.fired j x).retryTimerOf k ≠ some (i, true) := by
  rw [h.retryTimerOf_fired]
  split
  · exact fun heq => Bool.noConfusion (congrArg Prod.snd (Option.some.inj heq))
  next hk => exact fun hkarmed => hk (h.waits.timer.unique hkarmed h.armed)

theorem foreign (h : s.Fires j x i c) {k k' : Nat} (hk' : k' ≠ i) (b : Bool) :
    (s.fired j x).retryTimerOf k = some (k', b) ↔ s.retryTimerOf k = some (k', b) := by
  rw [h.retryTimerOf_fired]
  split
  next hk =>
    rw [hk, h.armed]
    exact iff_of_false (retryTimer_ne hk') (retryTimer_ne hk')
  next => exact Iff.rfl

theorem listens (h : s.Fires j x i c) (hcommands : Commands s) (k : Nat) :
    k ∈ c.listeners ↔ ∃ b, (s.fired j x).retryTimerOf k = some (i, b) := by
  rw [hcommands.listeners i c k h.current, h.retryTimerOf_fired]
  split
  next hk =>
    rw [hk, h.armed]
    exact iff_of_true ⟨true, rfl⟩ ⟨false, rfl⟩
  next => exact Iff.rfl

theorem sequence_eq (h : s.Fires j x i c) (c' : PendingCommand) (hc' : s.commands[i]? = some c') :
    c'.sequence = c.sequence := by
  rw [Option.some.inj (hc'.symm.trans h.current)]

end Fires

/-- The third timeout. -/
theorem Commands.fails {x : Timer} (h : Commands s) (hf : s.Fires j x i c)
    (hattempts : maxRetries ≤ c.attempts) : Commands { s.fired j x with
      pendingTimeouts := s.pendingTimeouts.erase c.sequence
      pending := s.pending.erase c.sequence
      log := s.log ++ [LogEntry.timedOut i, .settled i (retriesFailed c.sequence)] } := by
  obtain ⟨t, ht⟩ : ∃ t : TimedClient, t = { s.fired j x with
      pendingTimeouts := s.pendingTimeouts.erase c.sequence
      pending := s.pending.erase c.sequence
      log := s.log ++ [LogEntry.timedOut i, .settled i (retriesFailed c.sequence)] } := ⟨_, rfl⟩
  rw [← ht]
  have hlog : t.log = s.log ++ [LogEntry.timedOut i, .settled i (retriesFailed c.sequence)] := by
    rw [ht]
  have htimers : ∀ k, t.retryTimerOf k = (s.fired j x).retryTimerOf k := by
    intro k
    rw [ht]
    rfl
  have hpending : t.pending.lookup c.sequence = none := by
    rw [ht]
    exact AList.lookup_erase _ _
  have hcontroller : t.pendingTimeouts.lookup c.sequence = none := by
    rw [ht]
    exact AList.lookup_erase _ _
  have habout : About s t i c.sequence := by
    refine ⟨?_, ?_, ?_, ?_, ⟨_, hlog, ?_⟩, by rw [ht]; rfl, by rw [ht]; rfl⟩
    · intro k _
      rw [ht]
      rfl
    · intro m hm
      rw [ht]
      exact AList.lookup_erase_ne hm
    · intro m hm
      rw [ht]
      exact AList.lookup_erase_ne hm
    · intro k k' b hk'
      rw [htimers]
      exact hf.foreign hk' b
    · simp only [List.forall_mem_cons, List.not_mem_nil, false_implies, implies_true, and_true]
      exact ⟨about_of_command _ rfl, about_of_command _ rfl⟩
  have hcurrent : t.commands[i]? = some c := by
    rw [ht]
    exact hf.current
  have hclosed : Closed t i c := by
    refine ⟨hpending, hcontroller, fun k => ?_, ?_⟩
    · rw [htimers]
      exact hf.not_armed k
    · obtain ⟨early, hearly, hhistory⟩ := hf.waits.life
      have hthree : c.attempts = maxRetries := Nat.le_antisymm hf.waits.attempts.2 hattempts
      refine ⟨early, _, hearly, ?_, .failed [] onlyReceived_nil⟩
      rw [history_append hlog, hhistory, hthree]
      simp [LogEntry.concerns]
  refine h.about habout hf.sequence_eq ?_ hcurrent rfl (.inr hclosed) ?_ ?_ ?_
  · have hsequences : t.commands.map (·.sequence) = s.commands.map (·.sequence) := by
      rw [ht]
      rfl
    rw [numbers_of_same hsequences habout.pings]
    exact h.numbers
  · intro k hk
    rw [hpending] at hk
    cases hk
  · intro o ho
    rw [hcontroller] at ho
    cases ho
  · intro k
    simp only [htimers]
    exact hf.listens h k

/-- The first or the second timeout. -/
theorem Commands.transmits {x : Timer} (h : Commands s) (hf : s.Fires j x i c)
    (hattempts : ¬maxRetries ≤ c.attempts) (due : ℚ) : Commands { s.fired j x with
      commands := s.commands.set i ((s.fired j x).nextTry c)
      timers := (s.fired j x).timers ++ [⟨.command i, due, true⟩]
      log := s.log ++ [LogEntry.timedOut i, .transmitted i] } := by
  obtain ⟨t, ht⟩ : ∃ t : TimedClient, t = { s.fired j x with
      commands := s.commands.set i ((s.fired j x).nextTry c)
      timers := (s.fired j x).timers ++ [⟨.command i, due, true⟩]
      log := s.log ++ [LogEntry.timedOut i, .transmitted i] } := ⟨_, rfl⟩
  rw [← ht]
  have hlength : (s.fired j x).timers.length = s.timers.length := List.length_set
  have hlog : t.log = s.log ++ [LogEntry.timedOut i, .transmitted i] := by rw [ht]
  have htimers : ∀ k, t.retryTimerOf k =
      if k = s.timers.length then some (i, true) else (s.fired j x).retryTimerOf k := by
    have happend : t.timers = (s.fired j x).timers ++ [⟨.command i, due, true⟩] := by rw [ht]
    intro k
    rw [retryTimerOf_append happend, hlength]
    rfl
  -- the new timer is a new one
  have hnew : ∀ b, (s.fired j x).retryTimerOf s.timers.length ≠ some b := by
    intro b
    rw [retryTimerOf, List.getElem?_eq_none (Nat.le_of_eq hlength), Option.bind_none]
    exact (Option.some_ne_none b).symm
  have hpending : t.pending.lookup c.sequence = some i := by
    rw [ht]
    exact hf.waits.pending
  have hcontroller : t.pendingTimeouts.lookup c.sequence = some (.command i) := by
    rw [ht]
    exact hf.waits.controller
  have habout : About s t i c.sequence := by
    refine ⟨?_, ?_, ?_, ?_, ⟨_, hlog, ?_⟩, by rw [ht]; rfl, by rw [ht]; rfl⟩
    · intro k hk
      rw [ht]
      exact List.getElem?_set_ne (Ne.symm hk)
    · intro m _
      rw [ht]
      rfl
    · intro m _
      rw [ht]
      rfl
    · intro k k' b hk'
      rw [htimers, ← hf.foreign hk' b]
      split
      next hk =>
        rw [hk]
        exact iff_of_false (retryTimer_ne hk') (hnew _)
      next => exact Iff.rfl
    · simp only [List.forall_mem_cons, List.not_mem_nil, false_implies, implies_true, and_true]
      exact ⟨about_of_command _ rfl, about_of_command _ rfl⟩
  have hcurrent : t.commands[i]? = some ((s.fired j x).nextTry c) := by
    rw [ht]
    exact Tasks.set_self hf.current _
  have hopen : Open t i ((s.fired j x).nextTry c) := by
    refine ⟨hpending, hcontroller, hf.waits.aborted, ?_, ?_, ?_⟩
    · exact ⟨Nat.le_add_left 1 c.attempts, Nat.lt_of_not_le hattempts⟩
    · exact existsUnique_new htimers hf.not_armed
    · obtain ⟨early, hearly, hhistory⟩ := hf.waits.life
      obtain ⟨k, hk⟩ : ∃ k, c.attempts = k + 1 := Nat.exists_eq_add_of_le' hf.waits.attempts.1
      refine ⟨early, hearly, ?_⟩
      rw [history_append hlog]
      show s.history i c.sequence ++ _ = early ++ .started i :: tries i (c.attempts + 1)
      rw [hhistory, hk]
      simp [LogEntry.concerns, tries]
  refine h.about habout hf.sequence_eq ?_ hcurrent rfl (.inl hopen) ?_ ?_ ?_
  · have hsequences : t.commands.map (·.sequence) = s.commands.map (·.sequence) := by
      rw [ht]
      exact Tasks.map_set hf.current rfl
    rw [numbers_of_same hsequences habout.pings]
    exact h.numbers
  · intro k hk
    exact Option.some.inj (hk.symm.trans hpending)
  · intro o ho
    exact Option.some.inj (ho.symm.trans hcontroller)
  · intro k
    have hlisteners : k ∈ ((s.fired j x).nextTry c).listeners ↔
        k ∈ c.listeners ∨ k = s.timers.length := by
      rw [nextTry, List.mem_append, List.mem_singleton, hlength]
    rw [hlisteners, htimers]
    split
    next hk => exact iff_of_true (.inr hk) ⟨true, rfl⟩
    next hk =>
      rw [or_iff_left hk]
      exact hf.listens h k

theorem Commands.retryTimer {x : Timer} (h : Commands s) (hx : s.timers[j]? = some x)
    (howner : x.owner = .command i) (harmed : x.armed = true) :
    Commands ((s.fired j x).retryTimer i) := by
  obtain ⟨c, hf⟩ := h.fires hx howner harmed
  rw [retryTimer_eq (u := s.fired j x) hf.current hf.waits.aborted hf.waits.pending]
  split
  next hattempts => exact h.fails hf hattempts
  next hattempts => exact h.transmits hf hattempts _

/-! ### A response arrives -/

/-- A response that carries no number of a command that waits. -/
theorem Commands.receive (h : Commands s) {r : ControlResponse}
    (hnone : s.pending.lookup r.sequence = none) :
    Commands { s with log := s.log ++ [LogEntry.received r] } := by
  refine ⟨?_, h.numbers, h.entry, h.controller, h.slot, h.listeners, h.timers, ?_⟩
  · intro i c hc
    have hlog : history { s with log := s.log ++ [LogEntry.received r] } i c.sequence =
        s.history i c.sequence ++ [LogEntry.received r].filter (·.concerns i c.sequence) :=
      history_append rfl i c.sequence
    rcases h.status i c hc with hs | hs
    · left
      have hne : r.sequence ≠ c.sequence := by
        intro heq
        rw [heq, hs.pending] at hnone
        cases hnone
      refine ⟨hs.pending, hs.controller, hs.aborted, hs.attempts, hs.timer, ?_⟩
      rw [hlog, List.filter_singleton]
      simpa [LogEntry.concerns, hne] using hs.life
    · right
      obtain ⟨early, rest, hearly, hhistory, hended⟩ := hs.life
      refine ⟨hs.pending, hs.controller, hs.timer, early, ?_⟩
      rw [hlog, hhistory, List.filter_singleton]
      by_cases heq : r.sequence = c.sequence
      · refine ⟨rest ++ [LogEntry.received r], hearly, ?_, hended.snoc r⟩
        simp [LogEntry.concerns, heq]
      · refine ⟨rest, hearly, ?_, hended⟩
        simp [LogEntry.concerns, heq]
  · intro e he i hi
    rcases List.mem_append.mp he with he | he
    · exact h.log e he i hi
    · rw [List.mem_singleton.mp he] at hi
      cases hi

theorem measure_eq (s : TimedClient) (i : Nat) :
    ∃ rttEstimator, s.measure i = { s with rttEstimator } := by
  unfold measure
  split
  · exact ⟨_, rfl⟩
  · dsimp only
    split
    · exact ⟨_, rfl⟩
    · exact ⟨_, rfl⟩

/-- The timers after those of a command have been cleared. -/
theorem retryTimerOf_clear {listeners : List Nat} (h : t.timers = s.timers.mapIdx fun j x =>
      if j ∈ listeners then { x with armed := false } else x) (j : Nat) :
    t.retryTimerOf j = if j ∈ listeners then (s.retryTimerOf j).map fun p => (p.1, false)
      else s.retryTimerOf j := by
  unfold retryTimerOf
  rw [h, List.getElem?_mapIdx]
  cases s.timers[j]? with
  | none => simp
  | some x =>
    obtain ⟨owner, due, armed⟩ := x
    simp only [Option.map_some, Option.bind_some]
    split
    · cases owner with
      | command i => rfl
      | ping i => rfl
    · rfl

/-- The listeners of a command are those of its own timers; the other timers stay as they are. -/
theorem Commands.retryTimerOf_cleared (h : Commands s) (hc : s.commands[i]? = some c)
    (hclear : t.timers = s.timers.mapIdx fun j x =>
      if j ∈ c.listeners then { x with armed := false } else x) (j : Nat) :
    (j ∈ c.listeners ∧ t.retryTimerOf j = some (i, false) ∧ ∃ b, s.retryTimerOf j = some (i, b)) ∨
      j ∉ c.listeners ∧ t.retryTimerOf j = s.retryTimerOf j := by
  rw [retryTimerOf_clear hclear]
  by_cases hj : j ∈ c.listeners
  · obtain ⟨b, hb⟩ := (h.listeners i c j hc).mp hj
    rw [if_pos hj, hb]
    exact .inl ⟨hj, rfl, b, rfl⟩
  · exact .inr ⟨hj, if_neg hj⟩

/-- A response to a command that waits. -/
theorem Commands.answered (h : Commands s) {r : ControlResponse} (rttEstimator : RttEstimator)
    (hc : s.commands[i]? = some c) (hopen : Open s i c) (hr : r.sequence = c.sequence) :
    Commands { s with
      rttEstimator
      commands := s.commands.modify i fun c => { c with aborted := true }
      timers := s.timers.mapIdx fun j x =>
        if j ∈ c.listeners then { x with armed := false } else x
      pendingTimeouts := s.pendingTimeouts.erase r.sequence
      pending := s.pending.erase r.sequence
      log := s.log ++ [LogEntry.received r] ++ [LogEntry.settled i r.outcome] } := by
  obtain ⟨t, ht⟩ : ∃ t : TimedClient, t = { s with
      rttEstimator
      commands := s.commands.modify i fun c => { c with aborted := true }
      timers := s.timers.mapIdx fun j x =>
        if j ∈ c.listeners then { x with armed := false } else x
      pendingTimeouts := s.pendingTimeouts.erase r.sequence
      pending := s.pending.erase r.sequence
      log := s.log ++ [LogEntry.received r] ++ [LogEntry.settled i r.outcome] } := ⟨_, rfl⟩
  rw [← ht]
  have hlog : t.log = s.log ++ [LogEntry.received r, .settled i r.outcome] := by
    rw [ht]
    exact List.append_assoc _ _ _
  have hclear : t.timers = s.timers.mapIdx fun j x =>
      if j ∈ c.listeners then { x with armed := false } else x := by rw [ht]
  have htimers := h.retryTimerOf_cleared hc hclear
  have hpending : t.pending.lookup r.sequence = none := by
    rw [ht]
    exact AList.lookup_erase _ _
  have hcontroller : t.pendingTimeouts.lookup r.sequence = none := by
    rw [ht]
    exact AList.lookup_erase _ _
  have habout : About s t i r.sequence := by
    refine ⟨?_, ?_, ?_, ?_, ⟨_, hlog, ?_⟩, by rw [ht], by rw [ht]⟩
    · intro k hk
      rw [ht]
      exact List.getElem?_modify_ne _ _ (Ne.symm hk)
    · intro m hm
      rw [ht]
      exact AList.lookup_erase_ne hm
    · intro m hm
      rw [ht]
      exact AList.lookup_erase_ne hm
    · intro k k' b hk'
      rcases htimers k with ⟨-, hk, b', hb'⟩ | ⟨-, hk⟩
      · rw [hk, hb']
        exact iff_of_false (retryTimer_ne hk') (retryTimer_ne hk')
      · rw [hk]
    · simp only [List.forall_mem_cons, List.not_mem_nil, false_implies, implies_true, and_true]
      refine ⟨⟨fun k hk => absurd hk.symm (Option.some_ne_none k), fun k m _ hm => ?_⟩,
        about_of_command _ rfl⟩
      simpa [LogEntry.concerns] using Ne.symm hm
  have hcurrent : t.commands[i]? = some { c with aborted := true } := by
    rw [ht, List.getElem?_modify_eq, hc]
    rfl
  have hclosed : Closed t i { c with aborted := true } := by
    refine ⟨hr ▸ hpending, hr ▸ hcontroller, ?_, ?_⟩
    · intro k hk
      rcases htimers k with ⟨-, hcleared, -⟩ | ⟨hlistener, hsame⟩
      · rw [hcleared] at hk
        exact Bool.noConfusion (congrArg Prod.snd (Option.some.inj hk))
      · rw [hsame] at hk
        exact hlistener ((h.listeners i c k hc).mpr ⟨true, hk⟩)
    · obtain ⟨early, hearly, hhistory⟩ := hopen.life
      refine ⟨early, _, hearly, ?_, .answered c.attempts hopen.attempts r hr [] onlyReceived_nil⟩
      rw [history_append hlog]
      show s.history i c.sequence ++ _ = _
      rw [hhistory]
      simp [LogEntry.concerns, hr]
  refine h.about habout ?_ ?_ hcurrent hr.symm (.inr hclosed) ?_ ?_ ?_
  · intro c' hc'
    rw [Option.some.inj (hc'.symm.trans hc), hr]
  · have hsequences : t.commands.map (·.sequence) = s.commands.map (·.sequence) := by
      rw [ht]
      exact Tasks.map_modify _ _ fun _ => rfl
    rw [numbers_of_same hsequences habout.pings]
    exact h.numbers
  · intro k hk
    rw [hpending] at hk
    cases hk
  · intro o ho
    rw [hcontroller] at ho
    cases ho
  · intro k
    rcases htimers k with ⟨hk, hcleared, -⟩ | ⟨-, hsame⟩
    · exact iff_of_true hk ⟨false, hcleared⟩
    · rw [hsame]
      exact h.listeners i c k hc

/-- A response is for no command that waits, or it settles the one that has its number. -/
theorem Commands.answer_eq (h : Commands s) (r : ControlResponse) :
    (s.pending.lookup r.sequence = none ∧
      s.answer r = { s with log := s.log ++ [LogEntry.received r] }) ∨
    ∃ i c rttEstimator, s.commands[i]? = some c ∧ Open s i c ∧ r.sequence = c.sequence ∧
      s.answer r = { s with
        rttEstimator
        commands := s.commands.modify i fun c => { c with aborted := true }
        timers := s.timers.mapIdx fun j x =>
          if j ∈ c.listeners then { x with armed := false } else x
        pendingTimeouts := s.pendingTimeouts.erase r.sequence
        pending := s.pending.erase r.sequence
        log := s.log ++ [LogEntry.received r] ++ [LogEntry.settled i r.outcome] } := by
  simp only [TimedClient.answer]
  split
  next hnone => exact .inl ⟨hnone, rfl⟩
  next i hlookup =>
    obtain ⟨c, hc, hseq⟩ := Option.map_eq_some_iff.mp (h.entry _ _ hlookup)
    have hopen : Open s i c := by
      refine (h.status i c hc).resolve_right fun hclosed => ?_
      rw [← hseq, hclosed.pending] at hlookup
      cases hlookup
    obtain ⟨rttEstimator, hmeasure⟩ :=
      measure_eq { s with log := s.log ++ [LogEntry.received r] } i
    have hcontroller : s.pendingTimeouts.lookup r.sequence = some (.command i) := by
      rw [← hseq]
      exact hopen.controller
    refine .inr ⟨i, c, rttEstimator, hc, hopen, hseq.symm, ?_⟩
    rw [hmeasure, abortUnder]
    simp only [hcontroller, abort, hc, Option.elim_some]

theorem Commands.answer (h : Commands s) (r : ControlResponse) : Commands (s.answer r) := by
  rcases h.answer_eq r with ⟨hnone, heq⟩ | ⟨i, c, rttEstimator, hc, hopen, hr, heq⟩
  · rw [heq]
    exact h.receive hnone
  · rw [heq]
    exact h.answered rttEstimator hc hopen hr

/-! ### The heartbeat and the other steps -/

/-- What is so of the commands stays so in a step that leaves the numbers of the pings alone,
too. -/
theorem Commands.keepPings (h : Commands s) (hcommands : t.commands = s.commands)
    (hpending : t.pending = s.pending) (hlog : t.log = s.log)
    (htimers : ∀ j, t.retryTimerOf j = s.retryTimerOf j)
    (hpings : t.pings.map (·.sequence) = s.pings.map (·.sequence))
    (hcontroller : ∀ (i : Nat) (c : PendingCommand), s.commands[i]? = some c →
      t.pendingTimeouts.lookup c.sequence = s.pendingTimeouts.lookup c.sequence)
    (hown : ∀ n o, t.pendingTimeouts.lookup n = some o → s.numberOf o = some n)
    (hslot : ∀ n, t.pendingPingSeq = some n → s.pendingPingSeq = some n) : Commands t := by
  have hnumberOf : ∀ o, t.numberOf o = s.numberOf o := by
    intro o
    cases o with
    | command i => rw [numberOf, numberOf, hcommands]
    | ping i => rw [numberOf, numberOf, ← List.getElem?_map, ← List.getElem?_map, hpings]
  refine h.keep hcommands hpending hlog htimers hcontroller ?_ ?_ ?_
  · intro n o ho
    rw [hnumberOf]
    exact hown n o ho
  · intro n hn
    rw [hpings]
    exact h.slot n (hslot n hn)
  · rw [TimedClient.numbers, hcommands, hpings]
    exact h.numbers

theorem Commands.setNow (h : Commands s) (now : ℚ) : Commands { s with now } :=
  h.keepPings rfl rfl rfl (fun _ => rfl) rfl (fun _ _ _ => rfl) h.controller fun _ hn => hn

theorem Commands.notePong (h : Commands s) (r : ControlResponse) : Commands (s.notePong r) := by
  refine h.keepPings rfl rfl rfl (fun _ => rfl) ?_ (fun _ _ _ => rfl) h.controller fun _ hn => hn
  rw [TimedClient.notePong, List.map_map]
  refine List.map_congr_left fun p _ => ?_
  rw [Function.comp_apply, HeartbeatPing.receive]
  split <;> rfl

/-- The controller under the number of a ping is taken out. -/
theorem Commands.erase_controller {n m : Decimal} {o : Owner} (h : Commands s)
    (ho : (s.pendingTimeouts.erase n).lookup m = some o) : s.numberOf o = some m := by
  have hmn : m ≠ n := by
    rintro rfl
    rw [AList.lookup_erase] at ho
    cases ho
  exact h.controller m o ((AList.lookup_erase_ne hmn).symm.trans ho)

/-- The controller under the number of a ping is that of a ping. -/
theorem Commands.abortPing {n : Decimal} (h : Commands s) (hn : n ∈ s.pings.map (·.sequence)) :
    Commands (s.abortUnder n) := by
  unfold abortUnder
  split
  next => exact h
  next o ho =>
    have howner := h.controller n o ho
    cases o with
    | command i =>
      obtain ⟨c, hc, hseq⟩ := Option.map_eq_some_iff.mp howner
      exact absurd hseq (h.ne_of_ping hc hn)
    | ping i =>
      refine h.keepPings rfl rfl rfl (fun _ => rfl) (Tasks.map_modify _ _ fun _ => rfl) ?_ ?_
        fun _ hm => hm
      · intro i' c hc
        exact AList.lookup_erase_ne (h.ne_of_ping hc hn)
      · intro m o hm
        exact h.erase_controller hm

theorem Commands.pong (h : Commands s) (r : ControlResponse) : Commands (s.pong r) := by
  unfold TimedClient.pong
  split
  next hpong =>
    have hempty : Commands { s with pendingPingSeq := none, missedPings := 0 } :=
      h.keepPings rfl rfl rfl (fun _ => rfl) rfl (fun _ _ _ => rfl) h.controller
        fun n hn => absurd hn (Option.some_ne_none n).symm
    exact hempty.abortPing (h.slot r.sequence hpong.2)
  next => exact h

theorem Commands.number {n : Decimal} (h : Commands s) (hfresh : n ∉ s.numbers)
    (hs : s.number n = some t) : Commands t := by
  simp only [TimedClient.number] at hs
  split at hs
  next => cases hs
  next =>
    obtain rfl := Option.some.inj hs
    refine h.keep rfl rfl rfl (fun _ => rfl) (fun _ _ _ => rfl) ?_ ?_ ?_
    · intro m o ho
      have howner := h.controller m o ho
      cases o with
      | command i => exact howner
      | ping i =>
        obtain ⟨p, hp, hseq⟩ := Option.map_eq_some_iff.mp howner
        rw [numberOf, Tasks.get_append_of_get hp]
        exact congrArg some hseq
    · intro m hm
      rw [← Option.some.inj hm, List.map_append]
      exact List.mem_append_right _ (List.mem_singleton_self _)
    · have hperm : (s.commands.map (·.sequence) ++ (s.pings ++ [(⟨n, false, none, .outstanding⟩ :
          HeartbeatPing)]).map (·.sequence)).Perm (n :: s.numbers) := by
        rw [List.map_append, ← List.append_assoc]
        exact List.perm_append_singleton n s.numbers
      exact hperm.nodup_iff.mpr (List.nodup_cons.mpr ⟨hfresh, h.numbers⟩)

/-- A timer of a ping is no retry timer. -/
theorem retryTimerOf_append_ping {i : Nat} {due : ℚ}
    (h : t.timers = s.timers ++ [⟨.ping i, due, true⟩]) (j : Nat) :
    t.retryTimerOf j = s.retryTimerOf j := by
  rw [retryTimerOf_append h]
  split
  next hj =>
    rw [hj, retryTimerOf, List.getElem?_eq_none (Nat.le_refl _)]
    rfl
  next => rfl

theorem Commands.sendSettles (h : Commands s) (hs : s.sendSettles i = some t) : Commands t := by
  obtain ⟨p, hp, hs⟩ := Option.bind_eq_some_iff.mp hs
  split at hs
  next =>
    obtain rfl := Option.some.inj hs
    have hmem : p.sequence ∈ s.pings.map (·.sequence) :=
      List.mem_map_of_mem (List.mem_of_getElem? hp)
    refine h.keepPings rfl rfl rfl (retryTimerOf_append_ping rfl) (Tasks.map_set hp rfl) ?_ ?_
      fun _ hn => hn
    · intro i' c hc
      exact AList.lookup_insert_ne (h.ne_of_ping hc hmem)
    · intro n o ho
      by_cases hn : n = p.sequence
      · have ho' : (s.pendingTimeouts.insert p.sequence (.ping i)).lookup n = some o := ho
        rw [hn, AList.lookup_insert] at ho'
        rw [← Option.some.inj ho', hn, numberOf, hp]
        rfl
      · exact h.controller n o ((AList.lookup_insert_ne hn).symm.trans ho)
  next => cases hs

theorem noteExpiry_sequences {p : HeartbeatPing} (hp : s.pings[i]? = some p) :
    (s.noteExpiry i p).pings.map (·.sequence) = s.pings.map (·.sequence) := by
  refine Tasks.map_set hp ?_
  split
  · rfl
  · rfl

theorem Commands.pingTimer (h : Commands s) (i : Nat) : Commands (s.pingTimer i) := by
  unfold TimedClient.pingTimer
  split
  next => exact h
  next p hp =>
    have hmem : p.sequence ∈ s.pings.map (·.sequence) :=
      List.mem_map_of_mem (List.mem_of_getElem? hp)
    have hpings := noteExpiry_sequences hp
    have hslot : ∀ n, none = some n → s.pendingPingSeq = some n :=
      fun n hn => absurd hn (Option.some_ne_none n).symm
    dsimp only
    split
    · exact h.keepPings rfl rfl rfl (fun _ => rfl) hpings (fun _ _ _ => rfl) h.controller
        fun _ hn => hn
    · split
      · split
        · exact h.keepPings rfl rfl rfl (fun _ => rfl) hpings
            (fun i' c hc => AList.lookup_erase_ne (h.ne_of_ping hc hmem))
            (fun m o hm => h.erase_controller hm) hslot
        · exact h.keepPings rfl rfl rfl (fun _ => rfl) hpings
            (fun i' c hc => AList.lookup_erase_ne (h.ne_of_ping hc hmem))
            (fun m o hm => h.erase_controller hm) hslot
      · exact h.keepPings rfl rfl rfl (fun _ => rfl) hpings (fun _ _ _ => rfl) h.controller
          fun _ hn => hn

/-- The timer of a ping has fired. -/
theorem Commands.fired {x : Timer} (h : Commands s) (hx : s.timers[j]? = some x)
    (howner : x.owner = .ping i) : Commands (s.fired j x) := by
  refine h.keepPings rfl rfl rfl (fun k => ?_) rfl (fun _ _ _ => rfl) h.controller fun _ hn => hn
  have hset : (s.fired j x).timers = s.timers.set j { x with armed := false } := rfl
  rw [retryTimerOf_set hx hset]
  split
  next hk => rw [hk, retryTimerOf, hx, Option.bind_some, Timer.retry, Timer.retry, howner]
  next => rfl

theorem Commands.timer (h : Commands s) (hs : s.timer j = some t) : Commands t := by
  obtain ⟨x, hx, hs⟩ := Option.bind_eq_some_iff.mp hs
  split at hs
  next harmed =>
    dsimp only at hs
    split at hs
    next i howner =>
      obtain rfl := Option.some.inj hs
      exact h.retryTimer hx howner harmed.1
    next i howner =>
      obtain rfl := Option.some.inj hs
      exact (h.fired hx howner).pingTimer i
  next => cases hs

theorem Commands.step {e : TimedEvent} (h : Commands s) (hfresh : s.Fresh e)
    (hs : s.step e = some t) : Commands t := by
  obtain ⟨time, action⟩ := e
  simp only [TimedClient.step] at hs
  split at hs
  next =>
    have hnow := h.setNow time
    cases action with
    | sendCommand sequence encoded isPing =>
      obtain rfl := Option.some.inj hs
      exact hnow.sendCommand hfresh encoded isPing
    | heartbeat =>
      obtain ⟨due, -, hs⟩ := Option.bind_eq_some_iff.mp hs
      split at hs
      next =>
        dsimp only at hs
        split at hs
        all_goals
          obtain rfl := Option.some.inj hs
          exact hnow.keepPings rfl rfl rfl (fun _ => rfl) rfl (fun _ _ _ => rfl) hnow.controller
            fun _ hn => hn
      next => cases hs
    | number sequence => exact hnow.number hfresh hs
    | numberFails =>
      simp only [act] at hs
      split at hs
      next => cases hs
      next =>
        obtain rfl := Option.some.inj hs
        exact hnow.keepPings rfl rfl rfl (fun _ => rfl) rfl (fun _ _ _ => rfl) hnow.controller
          fun _ hn => hn
    | sendSettles i => exact hnow.sendSettles hs
    | response parsed =>
      obtain rfl := Option.some.inj hs
      simp only [handleIncomingResponse]
      split
      next => exact hnow
      next r _ => exact ((hnow.notePong r).pong r).answer r
    | timer j => exact hnow.timer hs
  next => cases hs

/-- The retry machine in every run with distinct sequence numbers. -/
theorem retried_of_run {now : ℚ} {es : List TimedEvent} (hrun : Run { now } es s)
    (hfresh : Machine.Throughout TimedClient.step Fresh { now } es) :
    ∀ i c, s.commands[i]? = some c → s.Retried i c := by
  have h : Commands s := hrun.invariant (.init now) hfresh fun _ _ _ hs hf hstep => hs.step hf hstep
  exact fun i c hc => .of_status (h.status i c hc)

section Samples

def sampleResponse (n : Nat) (status : String) : Json :=
  .obj [(Utf16.ofString "version", .num (.ofNat 1)),
    (Utf16.ofString "sequence", .num (.ofNat n)),
    (Utf16.ofString "status", .str (Utf16.ofString status))]

/-- One command is answered after its first timeout, and once more; another one is never
answered. -/
def twoCommands : List TimedEvent :=
  [⟨0, .sendCommand (.ofNat 1) [] false⟩, ⟨0, .response (some (sampleResponse 2 "ok"))⟩,
    ⟨1000, .timer 0⟩, ⟨1500, .response none⟩, ⟨1500, .response (some (sampleResponse 1 "ok"))⟩,
    ⟨1600, .response (some (sampleResponse 1 "ok"))⟩, ⟨2000, .sendCommand (.ofNat 2) [] false⟩,
    ⟨4000, .timer 2⟩, ⟨6000, .timer 3⟩, ⟨8000, .timer 4⟩]

theorem retried_of_run_two : ∃ s, Run { now := 0 } twoCommands s ∧
    s.log.map LogEntry.command = [some 0, some 0, none, some 0, some 0, none, some 0, none, some 1,
      some 1, some 1, some 1, some 1, some 1, some 1, some 1] ∧
    ∀ i c, s.commands[i]? = some c → s.Retried i c := by
  obtain ⟨s, hrun, hlog⟩ : ∃ s, Run { now := 0 } twoCommands s ∧
      decide (s.log.map LogEntry.command =
        [some 0, some 0, none, some 0, some 0, none, some 0, none,
          some 1, some 1, some 1, some 1, some 1, some 1, some 1, some 1]) = true :=
    Machine.exists_run_with (by decide +kernel)
  exact ⟨s, hrun, of_decide_eq_true hlog, retried_of_run hrun (by decide +kernel)⟩

end Samples

end TimedClient

end SmartIdVault.Command
