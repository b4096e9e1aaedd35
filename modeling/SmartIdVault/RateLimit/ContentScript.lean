import Mathlib.Algebra.Order.Ring.Int
import SmartIdVault.Lib.FixedWindow
import SmartIdVault.Lib.Machine

/-! The rate limiter of the content script, `entrypoints/content/rateLimiter.ts`: a count over fixed
windows, a backoff after a count that is too high, and a timer that removes an old entry. -/

namespace SmartIdVault.RateLimit

structure RateLimitEntry where
  count : Nat
  firstRequest : Int
  backoffUntil : Int
  deriving DecidableEq, Repr

inductive RateLimitResult
  | allowed
  | rateLimited
  | backoff
  deriving DecidableEq, Repr

def maxRequests : Nat := 10

def windowMs : Int := 60 * 1000

def backoffBaseMs : Int := 30 * 1000

def backoffMaxMs : Int := 5 * 60 * 1000

def backoffMultiplier : Int := 2

/-- `backoffMs` of a call that makes the count `count`. -/
def backoffMs (count : Nat) : Int :=
  min (backoffBaseMs * backoffMultiplier ^ (count - maxRequests)) backoffMaxMs

def checkRateLimit (requestEntry : Option RateLimitEntry) (now : Int) :
    RateLimitResult × RateLimitEntry :=
  match requestEntry with
  | none => (.allowed, { count := 1, firstRequest := now, backoffUntil := 0 })
  | some entry =>
    if now < entry.backoffUntil then (.backoff, entry)
    else if windowMs < now - entry.firstRequest then
      (.allowed, { count := 1, firstRequest := now, backoffUntil := 0 })
    else
      let count := entry.count + 1
      if maxRequests < count then
        (.rateLimited, { entry with count, backoffUntil := now + backoffMs count })
      else (.allowed, { entry with count })

/-- The callback of the cleanup interval. -/
def cleanUp (requestEntry : Option RateLimitEntry) (now : Int) : Option RateLimitEntry :=
  requestEntry.filter fun entry => now - entry.firstRequest ≤ windowMs * 2

/-- The limiter of a content script, with the times of the calls that were allowed, those of the
calls that began an entry, the deadline of the last backoff, and whether a cleanup has removed an
entry since then whose backoff still ran. -/
structure RateLimiter where
  now : Int
  requestEntry : Option RateLimitEntry := none
  allowed : List Int := []
  opened : List Int := []
  limitedUntil : Option Int := none
  removed : Bool := false
  deriving DecidableEq, Repr

inductive RateLimitEvent
  | check (now : Int)
  | cleanup (now : Int)
  deriving DecidableEq, Repr

namespace RateLimiter

def opens (requestEntry : Option RateLimitEntry) (now : Int) : Bool :=
  requestEntry.all fun entry => entry.backoffUntil ≤ now && windowMs < now - entry.firstRequest

def check (s : RateLimiter) (now : Int) : RateLimiter :=
  let (result, entry) := checkRateLimit s.requestEntry now
  { now
    requestEntry := some entry
    allowed := if result = .allowed then s.allowed ++ [now] else s.allowed
    opened := if opens s.requestEntry now then s.opened ++ [now] else s.opened
    limitedUntil := if result = .rateLimited then some entry.backoffUntil else s.limitedUntil
    removed := s.removed && result ≠ .rateLimited }

def cleanup (s : RateLimiter) (now : Int) : RateLimiter :=
  { s with
    now
    requestEntry := cleanUp s.requestEntry now
    removed := s.removed || (s.requestEntry.any (now < ·.backoffUntil) &&
      (cleanUp s.requestEntry now).isNone) }

/-- An event, no earlier than the one before. -/
def step (s : RateLimiter) : RateLimitEvent → Option RateLimiter
  | .check now => if s.now ≤ now then some (s.check now) else none
  | .cleanup now => if s.now ≤ now then some (s.cleanup now) else none

abbrev Run : RateLimiter → List RateLimitEvent → RateLimiter → Prop := Machine.Run step

/-! ### The windows -/

/-- The end of the window that a call at `opened` opens. -/
def deadline (opened : Int) : Int := opened + windowMs

theorem le_deadline (t : Int) : t ≤ deadline t := by
  simp only [deadline, windowMs]
  omega

theorem deadline_le_deadline {a b : Int} (h : a ≤ b) : deadline a ≤ deadline b :=
  Int.add_le_add_right h windowMs

/-- What a call does: it begins an entry, it is refused, or the entry counts it. -/
theorem check_cases (s : RateLimiter) (now : Int) :
    ((∀ entry ∈ s.requestEntry, entry.backoffUntil ≤ now ∧ deadline entry.firstRequest < now) ∧
      s.check now = { s with
        now
        requestEntry := some { count := 1, firstRequest := now, backoffUntil := 0 }
        allowed := s.allowed ++ [now]
        opened := s.opened ++ [now] }) ∨
    ∃ entry, s.requestEntry = some entry ∧
      ((now < entry.backoffUntil ∧ s.check now = { s with now }) ∨
        (entry.backoffUntil ≤ now ∧ now ≤ deadline entry.firstRequest ∧
          ((maxRequests ≤ entry.count ∧ ∃ backoffUntil,
            s.check now = { s with
              now
              requestEntry := some { entry with count := entry.count + 1, backoffUntil }
              limitedUntil := some backoffUntil
              removed := false }) ∨
          (entry.count < maxRequests ∧ s.check now = { s with
            now
            requestEntry := some { entry with count := entry.count + 1 }
            allowed := s.allowed ++ [now] })))) := by
  cases hentry : s.requestEntry with
  | none => exact .inl ⟨by simp, by simp [check, checkRateLimit, opens, hentry]⟩
  | some entry =>
    by_cases hbackoff : now < entry.backoffUntil
    · refine .inr ⟨entry, rfl, .inl ⟨hbackoff, ?_⟩⟩
      simp [check, checkRateLimit, opens, hentry, hbackoff]
    have hback := Int.not_lt.mp hbackoff
    by_cases hlate : windowMs < now - entry.firstRequest
    · refine .inl ⟨?_, by simp [check, checkRateLimit, opens, hentry, hbackoff, hback, hlate]⟩
      intro e he
      obtain rfl := Option.some.inj he
      exact ⟨hback, by simp only [deadline]; omega⟩
    refine .inr ⟨entry, rfl, .inr ⟨hback, by simp only [deadline]; omega, ?_⟩⟩
    by_cases hcount : maxRequests < entry.count + 1
    · refine .inl ⟨by omega, now + backoffMs (entry.count + 1), ?_⟩
      simp [check, checkRateLimit, opens, hentry, hbackoff, hlate, hcount]
    · refine .inr ⟨by omega, ?_⟩
      simp [check, checkRateLimit, opens, hentry, hbackoff, hlate, hcount]

theorem cleanUp_cases (s : RateLimiter) (now : Int) :
    s.cleanup now = { s with now } ∨
    ∃ entry, s.requestEntry = some entry ∧ deadline entry.firstRequest < now ∧
      s.cleanup now = { s with
        now
        requestEntry := none
        removed := s.removed || now < entry.backoffUntil } := by
  cases hentry : s.requestEntry with
  | none => exact .inl (by simp [cleanup, cleanUp, hentry])
  | some entry =>
    by_cases hold : now - entry.firstRequest ≤ windowMs * 2
    · exact .inl (by simp [cleanup, cleanUp, hentry, Option.filter, hold])
    · refine .inr ⟨entry, rfl, ?_, by simp [cleanup, cleanUp, hentry, Option.filter, hold]⟩
      simp only [deadline, windowMs] at hold ⊢
      omega

/-- The calls that were allowed lie in windows that do not overlap, at most ten in each; the entry
is that of the last one, or it has been removed after that one's end.  A backoff ends before now
unless the entry still has it. -/
structure Inv (s : RateLimiter) : Prop where
  windows : ∃ ws, FixedWindow.Filled deadline maxRequests ws ∧
    s.allowed = FixedWindow.events ws ∧ s.opened = ws.map (·.1) ∧
    match s.requestEntry with
    | none => ∀ w ∈ ws, deadline w.1 < s.now
    | some entry => entry.firstRequest ≤ s.now ∧
      ∃ earlier rest, ws = earlier ++ [(entry.firstRequest, rest)] ∧ rest.length + 1 ≤ entry.count
  backoff : s.removed = false → ∀ u ∈ s.limitedUntil,
    u ≤ s.now ∨ ∃ entry, s.requestEntry = some entry ∧ entry.backoffUntil = u

theorem Inv.init (now : Int) : Inv { now } :=
  ⟨⟨[], .nil, rfl, rfl, by simp⟩, by simp⟩

variable {s t : RateLimiter} {now : Int}

/-- The deadlines of all windows lie before a time after the entry's, when there is one. -/
theorem Inv.deadlines (h : Inv s) (hnow : s.now ≤ now)
    (hlate : ∀ entry ∈ s.requestEntry, deadline entry.firstRequest < now) :
    ∃ ws, FixedWindow.Filled deadline maxRequests ws ∧ s.allowed = FixedWindow.events ws ∧
      s.opened = ws.map (·.1) ∧ ∀ w ∈ ws, deadline w.1 < now := by
  obtain ⟨ws, hws, hallowed, hopened, hlast⟩ := h.windows
  refine ⟨ws, hws, hallowed, hopened, ?_⟩
  intro w hw
  cases hentry : s.requestEntry with
  | none =>
    rw [hentry] at hlast
    exact lt_of_lt_of_le (hlast w hw) hnow
  | some entry =>
    rw [hentry] at hlast
    obtain ⟨-, earlier, rest, rfl, -⟩ := hlast
    have hend := hlate entry hentry
    rcases List.mem_append.mp hw with hw | hw
    · have hbefore := (List.pairwise_append.mp hws.apart).2.2 w hw (entry.firstRequest, rest)
        (by simp)
      exact lt_trans hbefore (lt_of_le_of_lt (le_deadline _) hend)
    · rw [List.mem_singleton.mp hw]
      exact hend

/-- Time passes. -/
theorem Inv.later (h : Inv s) (hnow : s.now ≤ now) : Inv { s with now } := by
  obtain ⟨ws, hws, hallowed, hopened, hlast⟩ := h.windows
  refine ⟨⟨ws, hws, hallowed, hopened, ?_⟩, fun hr u hu => ?_⟩
  · cases hentry : s.requestEntry with
    | none =>
      rw [hentry] at hlast
      exact fun w hw => lt_of_lt_of_le (hlast w hw) hnow
    | some entry =>
      rw [hentry] at hlast
      exact ⟨hlast.1.trans hnow, hlast.2⟩
  · exact (h.backoff hr u hu).imp_left fun hle => hle.trans hnow

theorem Inv.check (h : Inv s) (hnow : s.now ≤ now) : Inv (s.check now) := by
  obtain ⟨hlate, hs⟩ | ⟨entry, hentry, ⟨-, hs⟩ | ⟨hback, hin, ⟨-, u, hs⟩ | ⟨hcount, hs⟩⟩⟩ :=
    check_cases s now
  · obtain ⟨ws, hws, hallowed, hopened, hbefore⟩ := h.deadlines hnow fun e he => (hlate e he).2
    rw [hs]
    refine ⟨⟨ws ++ [(now, [])], hws.snoc (by decide) hbefore, ?_, ?_, ?_⟩, fun hr u hu => ?_⟩
    · rw [hallowed, FixedWindow.events_snoc]
    · rw [hopened, List.map_append, List.map_singleton]
    · exact ⟨le_rfl, ws, [], rfl, le_rfl⟩
    · left
      rcases h.backoff hr u hu with hle | ⟨e, he, rfl⟩
      · exact hle.trans hnow
      · exact (hlate e he).1
  · rw [hs]
    exact h.later hnow
  · obtain ⟨ws, hws, hallowed, hopened, hlast⟩ := h.windows
    simp only [hentry] at hlast
    obtain ⟨hfirst, earlier, rest, rfl, hrest⟩ := hlast
    rw [hs]
    refine ⟨⟨_, hws, hallowed, hopened, hfirst.trans hnow, earlier, rest, rfl, ?_⟩, ?_⟩
    · exact Nat.le_succ_of_le hrest
    · intro _ v hv
      exact .inr ⟨_, rfl, Option.some.inj hv⟩
  · obtain ⟨ws, hws, hallowed, hopened, hlast⟩ := h.windows
    simp only [hentry] at hlast
    obtain ⟨hfirst, earlier, rest, rfl, hrest⟩ := hlast
    have hroom : rest.length + 1 < maxRequests := lt_of_le_of_lt hrest hcount
    rw [hs]
    refine ⟨⟨_, hws.take hroom ⟨hfirst.trans hnow, hin⟩, ?_, ?_, hfirst.trans hnow, earlier, _, rfl,
      ?_⟩, fun hr u hu => ?_⟩
    · rw [hallowed, FixedWindow.events_snoc, FixedWindow.events_snoc, List.append_assoc]
      rfl
    · rw [hopened]
      simp
    · rw [List.length_append, List.length_singleton]
      exact Nat.succ_le_succ hrest
    · left
      rcases h.backoff hr u hu with hle | ⟨e, he, rfl⟩
      · exact hle.trans hnow
      · obtain rfl := Option.some.inj (he.symm.trans hentry)
        exact hback

theorem Inv.cleanup (h : Inv s) (hnow : s.now ≤ now) : Inv (s.cleanup now) := by
  obtain hs | ⟨entry, hentry, hend, hs⟩ := cleanUp_cases s now
  · rw [hs]
    exact h.later hnow
  · obtain ⟨ws, hws, hallowed, hopened, hbefore⟩ := h.deadlines hnow fun e he => by
      obtain rfl := Option.some.inj (he.symm.trans hentry)
      exact hend
    rw [hs]
    refine ⟨⟨ws, hws, hallowed, hopened, hbefore⟩, fun hr u hu => .inl ?_⟩
    obtain ⟨hr, hover⟩ := Bool.or_eq_false_iff.mp hr
    rcases h.backoff hr u hu with hle | ⟨e, he, rfl⟩
    · exact hle.trans hnow
    · obtain rfl := Option.some.inj (he.symm.trans hentry)
      exact Int.not_lt.mp (of_decide_eq_false hover)

theorem Inv.step {e : RateLimitEvent} (h : Inv s) (hs : step s e = some t) : Inv t := by
  cases e with
  | check now =>
    obtain ⟨hnow, ht⟩ := Option.ite_none_right_eq_some.mp hs
    obtain rfl := Option.some.inj ht
    exact h.check hnow
  | cleanup now =>
    obtain ⟨hnow, ht⟩ := Option.ite_none_right_eq_some.mp hs
    obtain rfl := Option.some.inj ht
    exact h.cleanup hnow

/-- After any run, with cleanups at any times, an interval of length `windowMs` has fewer than
`2 * maxRequests` of the calls that were allowed, and no more than `maxRequests` when it begins with
a call that began an entry; and unless a cleanup has removed an entry in its backoff since then, no
call is allowed before the end of the last backoff. -/
theorem allowed_bounded {start : Int} {es : List RateLimitEvent}
    (hrun : Run { now := start } es s) :
    (∀ a, (s.allowed.countP fun t => a ≤ t ∧ t ≤ a + windowMs) < 2 * maxRequests) ∧
    (∀ a ∈ s.opened, (s.allowed.countP fun t => a ≤ t ∧ t ≤ a + windowMs) ≤ maxRequests) ∧
    ∀ now, s.now ≤ now → (checkRateLimit s.requestEntry now).1 = .allowed → s.removed = false →
      ∀ u ∈ s.limitedUntil, u ≤ now := by
  have h : Inv s := hrun.invariant_all (.init start) fun _ _ _ h hs => h.step hs
  obtain ⟨ws, hws, hallowed, hopened, -⟩ := h.windows
  rw [hallowed, hopened]
  refine ⟨fun a => ?_, fun a ha => ?_, fun now hnow hgo hr u hu => ?_⟩
  · exact hws.countP_span_lt le_deadline (fun _ _ => deadline_le_deadline) (by decide) a
  · obtain ⟨w, hw, rfl⟩ := List.mem_map.mp ha
    exact hws.countP_window_le le_deadline hw
  · rcases h.backoff hr u hu with hle | ⟨entry, hentry, rfl⟩
    · exact hle.trans hnow
    · by_contra hback
      simp [checkRateLimit, hentry, not_le.mp hback] at hgo

/-! ### The end of a window, and a cleanup in a backoff -/

/-- Nine calls late in a window, and ten as soon as the next one opens. -/
def burstAtRestart : List RateLimitEvent :=
  .check 0 :: List.replicate 9 (.check 60000) ++ List.replicate 10 (.check 60001)

/-- Eleven calls at once, a twelfth at the end of the window and of the backoff, which doubles the
backoff, and the cleanup of an entry that is more than two windows old. -/
def cleanupInBackoff : List RateLimitEvent :=
  List.replicate 11 (.check 170000) ++ [.check 230000, .cleanup 300000]

theorem allowed_bounded_burst : ∃ s, Run { now := 0 } burstAtRestart s ∧
    (s.allowed.countP fun t => 1 ≤ t ∧ t ≤ 1 + windowMs) < 20 := by
  obtain ⟨s, hs⟩ : ∃ s, Run { now := 0 } burstAtRestart s := Machine.exists_run_of_exec rfl
  exact ⟨s, hs, (allowed_bounded hs).1 1⟩

/-- An interval of 60 seconds may have 19 calls that were allowed, and a call may be allowed before
the end of a backoff. -/
theorem allowed_not_bounded :
    (∃ s, Run { now := 0 } burstAtRestart s ∧
      maxRequests < s.allowed.countP fun t => 1 ≤ t ∧ t ≤ 1 + windowMs) ∧
    ∃ s, Run { now := 0 } cleanupInBackoff s ∧
      (checkRateLimit s.requestEntry 300000).1 = .allowed ∧ s.limitedUntil = some 350000 :=
  ⟨⟨_, Machine.run_of_exec rfl, by decide⟩, ⟨_, Machine.run_of_exec rfl, by decide, by decide⟩⟩

end RateLimiter

end SmartIdVault.RateLimit
