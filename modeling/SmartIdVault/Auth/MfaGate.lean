import Mathlib.Algebra.Order.Ring.Cast
import Mathlib.Tactic.Linarith
import SmartIdVault.Auth.ReplayCache
import SmartIdVault.RateLimit.SlidingWindow

/-! The handler of `mfa-assertion`: the limiter lets three assertions a minute on to the replay
cache, and what the cache accepts activates a session.  So few come through that the cache is never
full, and none of its reservations is lost before its time. -/

namespace SmartIdVault.Auth

open RateLimit (Calls)
open RateLimit.Calls (mfaRateLimitWindowMs mfaRateLimitMax)

/-- What the handler reads of its payload; an absent field counts as an empty one. -/
structure MfaAssertion where
  credentialId : Utf16
  authenticatorData : Utf16
  clientDataJSON : Utf16
  signature : Utf16
  deriving DecidableEq, Repr

namespace MfaAssertion

def isComplete (a : MfaAssertion) : Bool :=
  a.credentialId ≠ [] && a.authenticatorData ≠ [] && a.clientDataJSON ≠ [] && a.signature ≠ []

/-- `${credentialId}:${clientDataJSON}:${authenticatorData}`. -/
def assertionTuple (a : MfaAssertion) : Utf16 :=
  a.credentialId ++ 0x3a :: (a.clientDataJSON ++ 0x3a :: a.authenticatorData)

end MfaAssertion

inductive MfaOutcome
  | refused (error : String)
  -- `activateSession` is called
  | activated (now : Int)
  deriving DecidableEq, Repr

/-- The limiter with the times at which it let an assertion through, the replay cache, the times at
which the calls that wait for their digest were made, and how the calls so far have ended. -/
structure MfaGate where
  mfaRateLimiter : Calls :=
    { limiter := { windowMs := mfaRateLimitWindowMs, maxHits := mfaRateLimitMax } }
  replay : ReplayState
  startedAt : List Int := []
  outcomes : List MfaOutcome := []

inductive MfaEvent
  -- the handler up to the digest of the assertion
  | assertion (a : MfaAssertion) (now : Int)
  -- the rest of the call that is `i`th of those that wait
  | settle (i : Nat) (checkedAt reservedAt : Int)
  deriving DecidableEq, Repr

variable (digest : Bytes → Bytes)

namespace MfaGate

def init (now : Int) : MfaGate := { replay := { now } }

def refuse (s : MfaGate) (now : Int) (error : String) : MfaGate :=
  { s with replay.now := now, outcomes := s.outcomes ++ [MfaOutcome.refused error] }

def step (s : MfaGate) : MfaEvent → Option MfaGate
  | .assertion a now =>
    if s.replay.now ≤ now then
      if !a.isComplete then some (s.refuse now "Missing assertion data")
      else
        let limited := { s with mfaRateLimiter := s.mfaRateLimiter.call now }
        if !(s.mfaRateLimiter.limiter.allow now).1 then
          some (limited.refuse now "Rate limited. Try again later.")
        else
          (ReplayState.step digest s.replay (.call a.assertionTuple now)).map fun replay =>
            { limited with replay, startedAt := s.startedAt ++ [now] }
    else none
  | .settle i checkedAt reservedAt =>
    (ReplayState.step digest s.replay (.resume i checkedAt reservedAt)).map fun replay =>
      { s with
        replay
        startedAt := s.startedAt.eraseIdx i
        outcomes := s.outcomes ++
          [if s.replay.refused.length < replay.refused.length then
            MfaOutcome.refused "Assertion replay detected"
          else MfaOutcome.activated reservedAt] }

abbrev Run : MfaGate → List MfaEvent → MfaGate → Prop := Machine.Run (step digest)

/-- A digest takes `delay` at most. -/
def SettlesWithin (delay : Int) (s : MfaGate) : MfaEvent → Prop
  | .assertion _ _ => True
  | .settle i _ reservedAt => ∀ a ∈ s.startedAt[i]?, reservedAt ≤ a + delay

instance (delay : Int) (s : MfaGate) : (e : MfaEvent) → Decidable (s.SettlesWithin delay e)
  | .assertion _ _ => instDecidableTrue
  | .settle i _ reservedAt =>
    inferInstanceAs (Decidable (∀ a ∈ s.startedAt[i]?, reservedAt ≤ a + delay))

/-! ### What a step does -/

/-- An assertion is refused at once or waits for its digest; after that its tuple is in the cache, or
is reserved. -/
inductive Effect (s : MfaGate) : MfaEvent → MfaGate → Prop
  | refused {a : MfaAssertion} {now : Int} {error : String} {limiter : Calls}
      (hnow : s.replay.now ≤ now)
      (hlimiter : limiter = s.mfaRateLimiter ∨ limiter = s.mfaRateLimiter.call now)
      (hallowed : limiter.allowed = s.mfaRateLimiter.allowed) :
      Effect s (.assertion a now) ({ s with mfaRateLimiter := limiter }.refuse now error)
  | admitted {a : MfaAssertion} {now : Int} (hcomplete : a.isComplete = true)
      (hnow : s.replay.now ≤ now) (hallow : (s.mfaRateLimiter.limiter.allow now).1 = true) :
      Effect s (.assertion a now) { s with
        mfaRateLimiter := s.mfaRateLimiter.call now
        replay := { s.replay with
          replayCache := s.replay.replayCache.cleanupExpired now
          waiting := s.replay.waiting ++ [a.assertionTuple]
          now }
        startedAt := s.startedAt ++ [now] }
  | settled {i : Nat} {checkedAt reservedAt : Int} {tuple : Utf16} {outcome : MfaOutcome}
      (hchecked : s.replay.now ≤ checkedAt) (hreserved : checkedAt ≤ reservedAt)
      (htuple : s.replay.waiting[i]? = some tuple) :
      Effect s (.settle i checkedAt reservedAt) { s with
        replay := { s.replay with waiting := s.replay.waiting.eraseIdx i }.check digest tuple
          checkedAt reservedAt
        startedAt := s.startedAt.eraseIdx i
        outcomes := s.outcomes ++ [outcome] }

variable {digest} {s t : MfaGate} {e : MfaEvent} {delay : Int}

theorem step_effect (h : step digest s e = some t) : Effect digest s e t := by
  cases e with
  | assertion a now =>
    simp only [step, Option.ite_none_right_eq_some] at h
    obtain ⟨hnow, h⟩ := h
    split at h
    · cases h
      exact .refused hnow (.inl rfl) rfl
    next hcomplete =>
      split at h
      next hallow =>
        cases h
        refine .refused hnow (.inr rfl) ?_
        rw [Calls.call, if_neg (by simpa using hallow)]
      next hallow =>
        simp only [ReplayState.step, if_pos hnow, Option.map_some, Option.some.injEq] at h
        subst h
        exact .admitted (by simpa using hcomplete) hnow (by simpa using hallow)
  | settle i checkedAt reservedAt =>
    obtain ⟨replay, hs, rfl⟩ := Option.map_eq_some_iff.mp h
    obtain ⟨hchecked, hreserved, tuple, htuple, rfl⟩ := ReplayState.step_resume hs
    exact .settled hchecked hreserved htuple

/-- A call that activates a session has its reservation as the last reading of the clock. -/
theorem step_settle {i : Nat} {checkedAt reservedAt : Int}
    (h : step digest s (.settle i checkedAt reservedAt) = some t) :
    checkedAt ≤ t.replay.now ∧ t.replay.waiting = s.replay.waiting.eraseIdx i ∧
      ∀ now, t.outcomes.getLast? = some (.activated now) → now = t.replay.now := by
  obtain ⟨replay, hreplay, rfl⟩ := Option.map_eq_some_iff.mp h
  obtain ⟨-, hreserved, tuple, -, rfl⟩ := ReplayState.step_resume hreplay
  rw [ReplayState.check]
  split
  · refine ⟨le_rfl, rfl, fun now hnow => ?_⟩
    simp at hnow
  · refine ⟨hreserved, rfl, fun now hnow => ?_⟩
    simp only [List.getLast?_append, List.getLast?_singleton, Option.some_or, Option.some.injEq,
      lt_self_iff_false, if_false, MfaOutcome.activated.injEq] at hnow
    exact hnow.symm

/-! ### How many come through -/

/-- The calls that are between two times, by their start. -/
def between (x y : ℚ) (starts : List Int) : Nat :=
  starts.countP fun a : Int => x ≤ (a : ℚ) ∧ (a : ℚ) ≤ y

/-- Every accepted assertion and every one that waits was let through, and not more than `delay`
before. -/
structure Admitted (delay : Int) (s : MfaGate) : Prop where
  limiter : Calls.Inv mfaRateLimitWindowMs mfaRateLimitMax s.replay.now s.mfaRateLimiter
  length : s.startedAt.length = s.replay.waiting.length
  started : ∀ a ∈ s.startedAt, a ≤ s.replay.now
  tally : ∀ x y : ℚ, between x y (s.replay.accepted.map Prod.snd) +
      between (x - delay) y s.startedAt ≤
    s.mfaRateLimiter.allowed.countP fun a => x - delay ≤ a ∧ a ≤ y

theorem Admitted.init (now : Int) : Admitted delay (init now) where
  limiter := .init ..
  length := rfl
  started := by simp [MfaGate.init]
  tally := by simp [MfaGate.init, between]

theorem between_append (x y : ℚ) (starts : List Int) (a : Int) :
    between x y (starts ++ [a]) = between x y starts + between x y [a] :=
  List.countP_append

/-- A start that is no longer among those that wait. -/
theorem between_eraseIdx (x y : ℚ) {starts : List Int} {i : Nat} {a : Int}
    (h : starts[i]? = some a) :
    between x y starts = between x y (starts.eraseIdx i) + between x y [a] := by
  obtain ⟨hi, rfl⟩ := List.getElem?_eq_some_iff.mp h
  rw [between, ← (List.getElem_cons_eraseIdx_perm hi).countP_eq, Nat.add_comm,
    ← List.singleton_append]
  exact List.countP_append

theorem mono_between {x x' y y' : ℚ} {a b : Int} (hx : x ≤ (b : ℚ) → x' ≤ (a : ℚ))
    (hy : (b : ℚ) ≤ y → (a : ℚ) ≤ y') : between x y [b] ≤ between x' y' [a] := by
  simp only [between, List.countP_singleton, decide_eq_true_eq]
  split
  next hb => rw [if_pos ⟨hx hb.1, hy hb.2⟩]
  next => exact Nat.zero_le _

theorem Admitted.refuse {now : Int} {error : String} {limiter : Calls} (h : Admitted delay s)
    (hnow : s.replay.now ≤ now)
    (hlimiter : limiter = s.mfaRateLimiter ∨ limiter = s.mfaRateLimiter.call now)
    (hallowed : limiter.allowed = s.mfaRateLimiter.allowed) :
    Admitted delay ({ s with mfaRateLimiter := limiter }.refuse now error) where
  limiter := by
    have hlater := h.limiter.later (Int.cast_le.mpr hnow)
    rcases hlimiter with rfl | rfl
    · exact hlater
    · exact hlater.call
  length := h.length
  started a ha := (h.started a ha).trans hnow
  tally x y := by
    simp only [MfaGate.refuse, hallowed]
    exact h.tally x y

theorem Admitted.letThrough {tuple : Utf16} {now : Int} {cache : ReplayCache} (h : Admitted delay s)
    (hnow : s.replay.now ≤ now) (hallow : (s.mfaRateLimiter.limiter.allow now).1 = true) :
    Admitted delay { s with
      mfaRateLimiter := s.mfaRateLimiter.call now
      replay := { s.replay with
        replayCache := cache
        waiting := s.replay.waiting ++ [tuple]
        now }
      startedAt := s.startedAt ++ [now] } where
  limiter := (h.limiter.later (Int.cast_le.mpr hnow)).call
  length := by simp [h.length]
  started a ha := by
    rcases List.mem_append.mp ha with ha | ha
    · exact (h.started a ha).trans hnow
    · exact le_of_eq (List.mem_singleton.mp ha)
  tally x y := by
    have hold := h.tally x y
    have hnew : between (x - delay) y [now] =
        [(now : ℚ)].countP fun a => x - delay ≤ a ∧ a ≤ y := by
      simp [between, List.countP_singleton]
    simp only [Calls.call, if_pos hallow, between_append, List.countP_append, hnew]
    omega

theorem Admitted.settle {i : Nat} {checkedAt reservedAt : Int} {tuple : Utf16}
    {outcome : MfaOutcome} (h : Admitted delay s)
    (hg : s.SettlesWithin delay (.settle i checkedAt reservedAt))
    (hchecked : s.replay.now ≤ checkedAt) (hreserved : checkedAt ≤ reservedAt)
    (htuple : s.replay.waiting[i]? = some tuple) :
    Admitted delay { s with
      replay := { s.replay with waiting := s.replay.waiting.eraseIdx i }.check digest tuple
        checkedAt reservedAt
      startedAt := s.startedAt.eraseIdx i
      outcomes := s.outcomes ++ [outcome] } := by
  have hi : i < s.startedAt.length := by
    rw [h.length]
    exact (List.getElem?_eq_some_iff.mp htuple).1
  obtain ⟨a, ha⟩ : ∃ a, s.startedAt[i]? = some a := ⟨_, List.getElem?_eq_getElem hi⟩
  have hlength : (s.startedAt.eraseIdx i).length = (s.replay.waiting.eraseIdx i).length := by
    rw [List.length_eraseIdx, List.length_eraseIdx, h.length]
  have hstarted (b : Int) (hb : b ∈ s.startedAt.eraseIdx i) : b ≤ s.replay.now :=
    h.started b (List.mem_of_mem_eraseIdx hb)
  have hpast := h.started a (List.mem_of_getElem? ha)
  rw [ReplayState.check]
  split
  · refine ⟨h.limiter.later (Int.cast_le.mpr hchecked), hlength,
      fun b hb => (hstarted b hb).trans hchecked, fun x y => ?_⟩
    have hold := h.tally x y
    rw [between_eraseIdx _ _ ha] at hold
    change between x y (s.replay.accepted.map Prod.snd) +
      between (x - delay) y (s.startedAt.eraseIdx i) ≤
        s.mfaRateLimiter.allowed.countP fun a => x - delay ≤ a ∧ a ≤ y
    omega
  · have hnow := hchecked.trans hreserved
    refine ⟨h.limiter.later (Int.cast_le.mpr hnow), hlength,
      fun b hb => (hstarted b hb).trans hnow, fun x y => ?_⟩
    -- the reservation takes the place of the start that waited
    have hmoved : between x y [reservedAt] ≤ between (x - delay) y [a] := by
      apply mono_between
      · intro hx
        have hdelay : (reservedAt : ℚ) ≤ a + delay := by exact_mod_cast hg a ha
        linarith
      · exact (Int.cast_le.mpr (hpast.trans hnow)).trans
    have hold := h.tally x y
    rw [between_eraseIdx _ _ ha] at hold
    change between x y ((s.replay.accepted ++ [(tuple, reservedAt)]).map Prod.snd) +
      between (x - delay) y (s.startedAt.eraseIdx i) ≤
        s.mfaRateLimiter.allowed.countP fun a => x - delay ≤ a ∧ a ≤ y
    have happend : (s.replay.accepted ++ [(tuple, reservedAt)]).map Prod.snd =
      s.replay.accepted.map Prod.snd ++ [reservedAt] := List.map_append
    rw [happend, between_append]
    omega

theorem Admitted.step (h : Admitted delay s) (hg : s.SettlesWithin delay e)
    (hs : MfaGate.step digest s e = some t) : Admitted delay t := by
  cases step_effect hs with
  | refused hnow hlimiter hallowed => exact h.refuse hnow hlimiter hallowed
  | admitted _ hnow hallow => exact h.letThrough hnow hallow
  | settled hchecked hreserved htuple => exact h.settle hg hchecked hreserved htuple

/-- As many as the windows of the limiter allow, with the delay of the digests added. -/
theorem Admitted.accepted_le (h : Admitted delay s) {x y : ℚ} {n : Nat}
    (hn : y - x + delay < n * mfaRateLimitWindowMs) :
    between x y (s.replay.accepted.map Prod.snd) ≤ mfaRateLimitMax * n := by
  have htally := h.tally x y
  refine le_trans (le_trans (Nat.le_add_right _ _) htally) (le_trans ?_
    (h.limiter.limited.countP_spans_le (x - delay) n))
  apply List.countP_mono_left
  intro a _ ha
  simp only [decide_eq_true_eq, nsmul_eq_mul] at ha ⊢
  exact ⟨ha.1, by linarith [ha.2]⟩

/-! ### The cache -/

variable (digest) in
/-- Every reservation in the cache is that of an accepted assertion, and not five minutes older than
the last assertion that was let through; every accepted assertion is in the cache or five minutes
old, and those with one tuple are five minutes apart. -/
structure Guarded (s : MfaGate) : Prop where
  logged : ReplayState.Logged digest s.replay
  positive : 0 < s.replay.now ∧ ∀ e ∈ s.replay.replayCache.entries, 0 < e.2
  young : ∀ a ∈ s.mfaRateLimiter.allowed, ∀ e ∈ s.replay.replayCache.entries,
    a - replayWindowMs ≤ (e.2 : ℚ)
  kept : ∀ r ∈ s.replay.accepted,
    (∃ e ∈ s.replay.replayCache.entries, e.1 = ReplayState.keyOf digest r ∧ r.2 ≤ e.2) ∨
      r.2 + replayWindowMs < s.replay.now
  apart : s.replay.accepted.Pairwise fun r r' => r.1 = r'.1 → replayWindowMs ≤ r'.2 - r.2

theorem Guarded.init {now : Int} (hnow : 0 < now) : Guarded digest (init now) where
  logged := .init now
  positive := ⟨hnow, by simp [MfaGate.init, JsMap.empty]⟩
  young := by simp [MfaGate.init]
  kept := by simp [MfaGate.init]
  apart := .nil

/-- A cache whose entries all belong to accepted assertions of a span of time has no more entries
than there are such assertions. -/
theorem length_entries_le {cache : ReplayCache} {accepted : List (Utf16 × Int)} {x y : ℚ}
    (hlogged : ∀ e ∈ cache.entries, ∃ r ∈ accepted, r.2 = e.2 ∧ ReplayState.keyOf digest r = e.1)
    (hspan : ∀ e ∈ cache.entries, x ≤ (e.2 : ℚ) ∧ (e.2 : ℚ) ≤ y) :
    cache.entries.length ≤ between x y (accepted.map Prod.snd) := by
  have hsubset : cache.keys ⊆ (accepted.filter fun r => x ≤ (r.2 : ℚ) ∧ (r.2 : ℚ) ≤ y).map
      (ReplayState.keyOf digest) := by
    intro k hk
    obtain ⟨e, he, rfl⟩ := List.mem_map.mp hk
    obtain ⟨r, hr, htime, hkey⟩ := hlogged e he
    refine List.mem_map.mpr ⟨r, List.mem_filter.mpr ⟨hr, ?_⟩, hkey⟩
    rw [htime]
    exact decide_eq_true (hspan e he)
  have hlength := (cache.nodup.subperm hsubset).length_le
  rw [List.length_map, List.length_map, ← List.countP_eq_length_filter] at hlength
  rw [between, List.countP_map]
  exact hlength

/-- With digests that take less than five and a half hours (two minutes less) the cache has room. -/
def maxDelayMs : Int := 19680000

/-- A cache of accepted assertions that are at most five minutes older than the last one that was let
through is not full. -/
theorem Admitted.size_le {cache : ReplayCache} (h : Admitted delay s) (hdelay : delay < maxDelayMs)
    (hlogged : ∀ e ∈ cache.entries,
      ∃ r ∈ s.replay.accepted, r.2 = e.2 ∧ ReplayState.keyOf digest r = e.1)
    (hyoung : ∀ a ∈ s.mfaRateLimiter.allowed, ∀ e ∈ cache.entries,
      a - replayWindowMs ≤ (e.2 : ℚ))
    (hpast : ∀ e ∈ cache.entries, e.2 ≤ s.replay.now) : cache.size ≤ maxCacheSize := by
  have hsorted := h.limiter.limited.sorted
  rcases List.eq_nil_or_concat' s.mfaRateLimiter.allowed with hnil | ⟨earlier, last, hlast⟩
  · -- nothing has been let through, so nothing is in the cache
    have hnone : cache.entries = [] := by
      rw [List.eq_nil_iff_forall_not_mem]
      intro e he
      obtain ⟨r, hr, htime, -⟩ := hlogged e he
      have htally := h.tally r.2 r.2
      rw [hnil, List.countP_nil] at htally
      have hpos : 0 < between (r.2 : ℚ) r.2 (s.replay.accepted.map Prod.snd) :=
        List.countP_pos_iff.mpr ⟨r.2, List.mem_map_of_mem hr, by simp⟩
      omega
    rw [JsMap.size, hnone]
    exact Nat.zero_le _
  · have hle : ∀ a ∈ s.mfaRateLimiter.allowed, a ≤ last := by
      rw [hlast] at hsorted ⊢
      intro a ha
      rcases List.mem_append.mp ha with ha | ha
      · exact (List.pairwise_append.mp hsorted).2.2 a ha last (List.mem_singleton_self _)
      · exact le_of_eq (List.mem_singleton.mp ha)
    have hmem : last ∈ s.mfaRateLimiter.allowed := hlast ▸ List.mem_append_right _ (by simp)
    have hspan := length_entries_le (x := last - replayWindowMs) (y := s.replay.now) hlogged
      fun e he => ⟨hyoung last hmem e he, Int.cast_le.mpr (hpast e he)⟩
    have htally := h.tally (last - replayWindowMs) s.replay.now
    have hwindows := h.limiter.limited.countP_spans_le (last - replayWindowMs - delay) 333
    have hdelay' : (delay : ℚ) < 19680000 := by exact_mod_cast hdelay
    have hcount : (s.mfaRateLimiter.allowed.countP fun a =>
          last - replayWindowMs - delay ≤ a ∧ a ≤ (s.replay.now : ℚ)) ≤
        s.mfaRateLimiter.allowed.countP fun a => last - replayWindowMs - delay ≤ a ∧
          a < last - replayWindowMs - delay + 333 • mfaRateLimitWindowMs := by
      apply List.countP_mono_left
      intro a ha hin
      have hbefore := hle a ha
      refine decide_eq_true ⟨(of_decide_eq_true hin).1, ?_⟩
      simp only [nsmul_eq_mul, replayWindowMs, mfaRateLimitWindowMs]
      push_cast
      linarith
    have hmax : mfaRateLimitMax * 333 ≤ maxCacheSize := by decide
    rw [JsMap.size]
    omega

theorem Guarded.refuse {now : Int} {error : String} {limiter : Calls} (h : Guarded digest s)
    (hnow : s.replay.now ≤ now) (hallowed : limiter.allowed = s.mfaRateLimiter.allowed) :
    Guarded digest ({ s with mfaRateLimiter := limiter }.refuse now error) where
  logged := ⟨h.logged.recorded, h.logged.ordered, fun r hr => (h.logged.past r hr).trans hnow⟩
  positive := ⟨h.positive.1.trans_le hnow, h.positive.2⟩
  young := by
    simp only [MfaGate.refuse, hallowed]
    exact h.young
  kept r hr := (h.kept r hr).imp_right hnow.trans_lt'
  apart := h.apart

theorem Guarded.letThrough {tuple : Utf16} {now : Int} {limiter : Calls} (h : Guarded digest s)
    (hnow : s.replay.now ≤ now) (hallowed : limiter.allowed = s.mfaRateLimiter.allowed ++ [(now : ℚ)]) :
    Guarded digest { s with
      mfaRateLimiter := limiter
      replay := { s.replay with
        replayCache := s.replay.replayCache.cleanupExpired now
        waiting := s.replay.waiting ++ [tuple]
        now }
      startedAt := s.startedAt ++ [now] } where
  logged := h.logged.call hnow
  positive := ⟨h.positive.1.trans_le hnow, fun e he => h.positive.2 e (List.mem_of_mem_filter he)⟩
  young a ha e he := by
    obtain ⟨hmem, hage⟩ := List.mem_filter.mp he
    rw [hallowed] at ha
    rcases List.mem_append.mp ha with ha | ha
    · exact h.young a ha e hmem
    · rw [List.mem_singleton.mp ha]
      have hlive : now - replayWindowMs ≤ e.2 := by simpa using hage
      exact_mod_cast hlive
  kept r hr := by
    rcases h.kept r hr with ⟨e, he, hkey, hle⟩ | hold
    · by_cases hexpired : e.2 < now - replayWindowMs
      · exact .inr (by simp only; omega)
      · exact .inl ⟨e, List.mem_filter.mpr ⟨he, by simpa using hexpired⟩, hkey, hle⟩
    · exact .inr (hold.trans_le hnow)
  apart := h.apart

/-- An assertion that is not reserved was accepted five minutes ago, or not at all. -/
theorem Guarded.rested {tuple : Utf16} {checkedAt : Int} (h : Guarded digest s)
    (hchecked : s.replay.now ≤ checkedAt)
    (hres : s.replay.replayCache.isReserved (deriveKey digest tuple) checkedAt = false)
    {r : Utf16 × Int} (hr : r ∈ s.replay.accepted) (htuple : r.1 = tuple) :
    replayWindowMs ≤ checkedAt - r.2 := by
  rcases h.kept r hr with ⟨e, he, hkey, hle⟩ | hold
  · have hget : s.replay.replayCache.get (deriveKey digest tuple) = some e.2 := by
      rw [JsMap.get_eq_some_iff, ← htuple]
      change (ReplayState.keyOf digest r, e.2) ∈ _
      rw [← hkey]
      exact he
    have hpos := h.positive.2 e he
    simp only [ReplayCache.isReserved, hget, Bool.and_eq_false_imp, decide_eq_true_eq,
      decide_eq_false_iff_not, not_lt] at hres
    have hage := hres (Int.ne_of_gt hpos)
    omega
  · omega

theorem Guarded.settle {i : Nat} {checkedAt reservedAt : Int} {tuple : Utf16}
    {outcome : MfaOutcome} (h : Guarded digest s) (hdelay : delay < maxDelayMs)
    (hchecked : s.replay.now ≤ checkedAt) (hreserved : checkedAt ≤ reservedAt)
    (hlimited : ∀ a ∈ s.mfaRateLimiter.allowed, a ≤ (s.replay.now : ℚ))
    (hadmitted : Admitted delay { s with
      replay := { s.replay with waiting := s.replay.waiting.eraseIdx i }.check digest tuple
        checkedAt reservedAt
      startedAt := s.startedAt.eraseIdx i
      outcomes := s.outcomes ++ [outcome] }) :
    Guarded digest { s with
      replay := { s.replay with waiting := s.replay.waiting.eraseIdx i }.check digest tuple
        checkedAt reservedAt
      startedAt := s.startedAt.eraseIdx i
      outcomes := s.outcomes ++ [outcome] } := by
  have hlogged : ReplayState.Logged digest ({ s.replay with
      waiting := s.replay.waiting.eraseIdx i }.check digest tuple checkedAt reservedAt) :=
    ReplayState.Logged.check ⟨h.logged.recorded, h.logged.ordered, h.logged.past⟩ hchecked hreserved
  cases hres : s.replay.replayCache.isReserved (deriveKey digest tuple) checkedAt with
  | true =>
    simp only [ReplayState.check, hres, if_true] at hlogged ⊢
    exact ⟨hlogged, ⟨h.positive.1.trans_le hchecked, h.positive.2⟩, h.young,
      fun r hr => (h.kept r hr).imp_right hchecked.trans_lt', h.apart⟩
  | false =>
    simp only [ReplayState.check, hres, Bool.false_eq_true, if_false] at hadmitted hlogged ⊢
    have hnow : s.replay.now ≤ reservedAt := hchecked.trans hreserved
    have hyoung : ∀ a ∈ s.mfaRateLimiter.allowed, ∀ e ∈ (s.replay.replayCache.set
        (deriveKey digest tuple) reservedAt).entries, a - replayWindowMs ≤ (e.2 : ℚ) := by
      intro a ha e he
      rcases JsMap.mem_entries_set.mp he with rfl | ⟨-, hold⟩
      · have hlast := (hlimited a ha).trans (Int.cast_le.mpr hnow)
        simp only [replayWindowMs]
        push_cast
        linarith
      · exact h.young a ha e hold
    -- the cache has room, so nothing is trimmed
    have hsize := @Admitted.size_le digest _ _
      (s.replay.replayCache.set (deriveKey digest tuple) reservedAt) hadmitted hdelay
      (by
        intro e he
        rcases JsMap.mem_entries_set.mp he with rfl | ⟨-, hold⟩
        · exact ⟨(tuple, reservedAt), List.mem_append_right _ (List.mem_singleton_self _), rfl, rfl⟩
        · obtain ⟨r, hr, hre⟩ := h.logged.recorded e hold
          exact ⟨r, List.mem_append_left _ hr, hre⟩)
      hyoung
      (by
        intro e he
        rcases JsMap.mem_entries_set.mp he with rfl | ⟨-, hold⟩
        · exact le_rfl
        · obtain ⟨r, hr, hre, -⟩ := h.logged.recorded e hold
          exact hre ▸ (h.logged.past r hr).trans hnow)
    have hset : s.replay.replayCache.reserve (deriveKey digest tuple) reservedAt =
        s.replay.replayCache.set (deriveKey digest tuple) reservedAt := by
      rw [ReplayState.reserve_eq, JsMap.trim, if_neg (Nat.not_lt.mpr hsize)]
    refine ⟨hlogged, ⟨h.positive.1.trans_le hnow, fun e he => ?_⟩, fun a ha e he => ?_,
      fun r hr => ?_, ?_⟩
    · simp only [hset] at he
      rcases JsMap.mem_entries_set.mp he with rfl | ⟨-, hold⟩
      · exact h.positive.1.trans_le hnow
      · exact h.positive.2 e hold
    · simp only [hset] at he
      exact hyoung a ha e he
    · simp only [hset]
      rcases List.mem_append.mp hr with hr | hr
      · rcases h.kept r hr with ⟨e, he, hkey, hle⟩ | hold
        · by_cases hsame : e.1 = deriveKey digest tuple
          · exact .inl ⟨(deriveKey digest tuple, reservedAt), JsMap.mem_entries_set.mpr (.inl rfl),
              hsame.symm.trans hkey, (h.logged.past r hr).trans hnow⟩
          · exact .inl ⟨e, JsMap.mem_entries_set.mpr (.inr ⟨hsame, he⟩), hkey, hle⟩
        · exact .inr (hold.trans_le hnow)
      · rw [List.mem_singleton.mp hr]
        exact .inl ⟨(deriveKey digest tuple, reservedAt), JsMap.mem_entries_set.mpr (.inl rfl), rfl,
          le_rfl⟩
    · refine List.pairwise_append.mpr ⟨h.apart, List.pairwise_singleton _ _, fun r hr r' hr' => ?_⟩
      rw [List.mem_singleton.mp hr']
      intro htuple
      have hrested := h.rested hchecked hres hr htuple
      simp only
      omega

theorem Guarded.step (h : Guarded digest s) (ha : Admitted delay s) (hdelay : delay < maxDelayMs)
    (hg : s.SettlesWithin delay e) (hs : MfaGate.step digest s e = some t) : Guarded digest t := by
  cases step_effect hs with
  | refused hnow _ hallowed => exact h.refuse hnow hallowed
  | admitted _ hnow hallow => exact h.letThrough hnow (by rw [Calls.call, if_pos hallow])
  | settled hchecked hreserved htuple =>
    exact h.settle hdelay hchecked hreserved ha.limiter.past
      (ha.settle hg hchecked hreserved htuple)

/-! ### The sessions -/

def activations (outcomes : List MfaOutcome) : List Int :=
  outcomes.filterMap fun
    | .refused _ => none
    | .activated now => some now

theorem activations_step (h : activations s.outcomes = s.replay.accepted.map Prod.snd)
    (hs : MfaGate.step digest s e = some t) :
    activations t.outcomes = t.replay.accepted.map Prod.snd := by
  have hrefused (s : MfaGate) (now : Int) (error : String) :
      activations (s.refuse now error).outcomes = activations s.outcomes := by
    simp [activations, refuse]
  cases e with
  | assertion a now =>
    simp only [step, Option.ite_none_right_eq_some] at hs
    obtain ⟨hnow, hs⟩ := hs
    split at hs
    · cases hs
      exact (hrefused s now _).trans h
    · split at hs
      · cases hs
        exact (hrefused _ now _).trans h
      · simp only [ReplayState.step, if_pos hnow, Option.map_some, Option.some.injEq] at hs
        subst hs
        exact h
  | settle i checkedAt reservedAt =>
    obtain ⟨replay, hreplay, rfl⟩ := Option.map_eq_some_iff.mp hs
    obtain ⟨-, -, tuple, -, rfl⟩ := ReplayState.step_resume hreplay
    rw [ReplayState.check]
    split <;> simpa [activations] using h

/-- In every run of the handler in which no digest takes five and a half hours (less two minutes), no
assertion is accepted again within five minutes, each activation is that of an accepted assertion,
and the sessions that are activated in a span of time number at most three for each minute of it,
the delay of the digests included. -/
theorem accepted_once {now : Int} {es : List MfaEvent} (hnow : 0 < now)
    (hdelay : delay < maxDelayMs) (hrun : Run digest (init now) es s)
    (hsettle : Machine.Throughout (step digest) (SettlesWithin delay) (init now) es) :
    (s.replay.accepted.Pairwise fun r r' => r.1 = r'.1 → replayWindowMs ≤ r'.2 - r.2) ∧
    activations s.outcomes = s.replay.accepted.map Prod.snd ∧
    ∀ (x y : ℚ) (n : Nat), y - x + delay < n * mfaRateLimitWindowMs →
      between x y (activations s.outcomes) ≤ mfaRateLimitMax * n := by
  have h : Admitted delay s ∧ Guarded digest s := by
    refine hrun.invariant (I := fun s => Admitted delay s ∧ Guarded digest s)
      ⟨.init now, .init hnow⟩ hsettle ?_
    intro s e t h hg hs
    exact ⟨h.1.step hg hs, h.2.step h.1 hdelay hg hs⟩
  have hactivated : activations s.outcomes = s.replay.accepted.map Prod.snd :=
    hrun.invariant_all (I := fun s => activations s.outcomes = s.replay.accepted.map Prod.snd)
      rfl fun _ _ _ => activations_step
  refine ⟨h.2.apart, hactivated, fun x y n hn => ?_⟩
  rw [hactivated]
  exact h.1.accepted_le hn

/-- An assertion of the sample runs. -/
def sampleAssertion : MfaAssertion := ⟨[0x61], [0x62], [0x63], [0x64]⟩

/-- The same assertion twice: the second is refused. -/
theorem accepted_once_sample :
    ∃ s, Run ReplayState.paddedDigest (init 1)
        [.assertion sampleAssertion 1, .settle 0 2 2, .assertion sampleAssertion 3,
          .settle 0 4 4] s ∧
      s.outcomes = [.activated 2, .refused "Assertion replay detected"] ∧
      (s.replay.accepted.Pairwise fun r r' => r.1 = r'.1 → replayWindowMs ≤ r'.2 - r.2) ∧
      activations s.outcomes = s.replay.accepted.map Prod.snd ∧
      ∀ (x y : ℚ) (n : Nat), y - x + (1000 : Int) < n * mfaRateLimitWindowMs →
        between x y (activations s.outcomes) ≤ mfaRateLimitMax * n := by
  obtain ⟨s, hrun, hs⟩ : ∃ s, Run ReplayState.paddedDigest (init 1)
      [.assertion sampleAssertion 1, .settle 0 2 2, .assertion sampleAssertion 3,
        .settle 0 4 4] s ∧
      (s.outcomes == [.activated 2, .refused "Assertion replay detected"]) = true :=
    Machine.exists_run_with (by decide +kernel)
  exact ⟨s, hrun, eq_of_beq hs,
    accepted_once (by decide) (by decide) hrun (by decide +kernel)⟩

end MfaGate

end SmartIdVault.Auth
