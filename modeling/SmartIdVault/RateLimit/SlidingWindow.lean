import Mathlib.Algebra.Order.Field.Rat
import SmartIdVault.Lib.SlidingWindow

/-! `createSlidingWindowLimiter` of `lib/rateLimit/slidingWindow.ts`.  It keeps the times of the
calls that it allowed and drops the old ones from the front of the list when it is called. -/

namespace SmartIdVault.RateLimit

open SlidingWindow (within Limited)

structure SlidingWindowLimiter where
  windowMs : ℚ
  maxHits : Nat
  entries : List ℚ := []
  deriving DecidableEq

namespace SlidingWindowLimiter

/-- What is left when the entries that are too old have been shifted out. -/
def shiftOld (windowMs now : ℚ) (entries : List ℚ) : List ℚ :=
  entries.dropWhile fun entry => windowMs ≤ now - entry

/-- `allow` when `Date.now()` is `now`. -/
def allow (s : SlidingWindowLimiter) (now : ℚ) : Bool × SlidingWindowLimiter :=
  let entries := shiftOld s.windowMs now s.entries
  if s.maxHits ≤ entries.length then (false, { s with entries })
  else (true, { s with entries := entries ++ [now] })

end SlidingWindowLimiter

/-- A limiter and the times of the calls on it that returned true. -/
structure Calls where
  limiter : SlidingWindowLimiter
  allowed : List ℚ := []

namespace Calls

def call (s : Calls) (now : ℚ) : Calls where
  limiter := (s.limiter.allow now).2
  allowed := if (s.limiter.allow now).1 then s.allowed ++ [now] else s.allowed

/-- Calls at the given times on a new limiter. -/
def callsAt (windowMs : ℚ) (maxHits : Nat) (times : List ℚ) : Calls :=
  times.foldl call { limiter := { windowMs, maxHits } }

variable {windowMs now : ℚ} {maxHits : Nat} {times : List ℚ} {s : Calls}

theorem callsAt_snoc :
    callsAt windowMs maxHits (times ++ [now]) = (callsAt windowMs maxHits times).call now := by
  rw [callsAt, List.foldl_append]
  rfl

/-- After a call at `now` the limiter still has, of the calls that it allowed, those that are in its
window then or later. -/
structure Inv (windowMs : ℚ) (maxHits : Nat) (now : ℚ) (s : Calls) : Prop where
  windowMs_eq : s.limiter.windowMs = windowMs
  maxHits_eq : s.limiter.maxHits = maxHits
  limited : Limited windowMs maxHits s.allowed
  past : ∀ a ∈ s.allowed, a ≤ now
  sublist : s.limiter.entries.Sublist s.allowed
  kept : ∀ t, now ≤ t → within windowMs t s.limiter.entries = within windowMs t s.allowed

theorem Inv.init (windowMs : ℚ) (maxHits : Nat) (now : ℚ) :
    Inv windowMs maxHits now { limiter := { windowMs, maxHits } } where
  windowMs_eq := rfl
  maxHits_eq := rfl
  limited := .nil
  past := by simp
  sublist := .refl []
  kept _ _ := rfl

theorem Inv.later {t : ℚ} (h : Inv windowMs maxHits now s) (ht : now ≤ t) :
    Inv windowMs maxHits t s :=
  { h with
    past := fun a ha => (h.past a ha).trans ht
    kept := fun u hu => h.kept u (ht.trans hu) }

theorem Inv.shiftOld (h : Inv windowMs maxHits now s) :
    s.limiter.entries.dropWhile (fun entry => decide (s.limiter.windowMs ≤ now - entry)) =
      within windowMs now s.allowed := by
  have hsorted := h.limited.sorted.sublist h.sublist
  rw [h.windowMs_eq, SlidingWindow.dropWhile_eq_within hsorted fun a ha =>
    h.past a (h.sublist.subset ha)]
  exact h.kept now le_rfl

theorem Inv.allow_eq (h : Inv windowMs maxHits now s) :
    s.limiter.allow now =
      if maxHits ≤ (within windowMs now s.allowed).length then
        (false, { s.limiter with entries := within windowMs now s.allowed })
      else (true, { s.limiter with entries := within windowMs now s.allowed ++ [now] }) := by
  simp only [SlidingWindowLimiter.allow, SlidingWindowLimiter.shiftOld, h.shiftOld, h.maxHits_eq]

theorem Inv.call (h : Inv windowMs maxHits now s) : Inv windowMs maxHits now (s.call now) := by
  have hkept (t : ℚ) (ht : now ≤ t) :
      within windowMs t (within windowMs now s.allowed) = within windowMs t s.allowed :=
    SlidingWindow.within_within ht h.past
  have hsublist : (within windowMs now s.allowed).Sublist s.allowed := List.filter_sublist
  rw [Calls.call, h.allow_eq]
  split
  · exact ⟨h.windowMs_eq, h.maxHits_eq, h.limited, h.past, hsublist, hkept⟩
  · rename_i hroom
    refine ⟨h.windowMs_eq, h.maxHits_eq, ?_, ?_, ?_, ?_⟩
    · exact h.limited.snoc h.past (Nat.not_le.mp hroom)
    · intro a ha
      rcases List.mem_append.mp ha with ha | ha
      · exact h.past a ha
      · exact le_of_eq (List.mem_singleton.mp ha)
    · exact hsublist.append (.refl [now])
    · intro t ht
      simp only [if_true, SlidingWindow.within_append, hkept t ht]

theorem inv_callsAt (hs : (times ++ [now]).Pairwise (· ≤ ·)) :
    Inv windowMs maxHits now (callsAt windowMs maxHits times) := by
  induction times using List.reverseRecOn generalizing now with
  | nil => exact .init windowMs maxHits now
  | append_singleton times t ih =>
    have ⟨hearlier, _, hlate⟩ := List.pairwise_append.mp hs
    rw [callsAt_snoc]
    exact (ih hearlier).call.later (hlate t (by simp) now (by simp))

/-- A call after others, at nondecreasing times, returns true exactly when fewer than `maxHits`
of those that returned true before were at times in `(now - windowMs, now]`; and no half-open
interval of length `windowMs` has more than `maxHits` of the calls that returned true. -/
theorem allow_iff_room (windowMs : ℚ) (maxHits : Nat) (times : List ℚ) (now : ℚ)
    (hs : (times ++ [now]).Pairwise (· ≤ ·)) :
    let earlier := callsAt windowMs maxHits times
    ((earlier.limiter.allow now).1 = true ↔
      (earlier.allowed.countP fun t => now - windowMs < t ∧ t ≤ now) < maxHits) ∧
    ∀ start : ℚ,
      ((earlier.call now).allowed.countP fun t => start ≤ t ∧ t < start + windowMs) ≤ maxHits ∧
      ((earlier.call now).allowed.countP fun t => start < t ∧ t ≤ start + windowMs) ≤ maxHits := by
  have h : Inv windowMs maxHits now (callsAt windowMs maxHits times) := inv_callsAt hs
  refine ⟨?_, fun start => h.call.limited.countP_span_le start⟩
  rw [h.allow_eq, List.countP_eq_length_filter]
  change _ ↔ (within windowMs now _).length < maxHits
  split <;> simp <;> omega

def mfaRateLimitWindowMs : ℚ := 60000

def mfaRateLimitMax : Nat := 3

/-- The first three calls have left the window when the fourth comes 60 seconds after the third. -/
theorem allow_iff_room_sample :
    ((callsAt mfaRateLimitWindowMs mfaRateLimitMax [0, 5, 5]).limiter.allow 60005).1 = true :=
  (allow_iff_room mfaRateLimitWindowMs mfaRateLimitMax [0, 5, 5] 60005 (by decide)).1.mpr
    (by decide +kernel)

end Calls

end SmartIdVault.RateLimit
