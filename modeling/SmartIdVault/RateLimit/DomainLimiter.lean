import Mathlib.Algebra.Order.Field.Rat
import Mathlib.Tactic.Linarith
import SmartIdVault.Lib.Cooldown
import SmartIdVault.Lib.JsMap
import SmartIdVault.Pairing.Background

/-! `createDomainRateLimiter` of `lib/rateLimit/slidingWindow.ts`.  It keeps the time of the last
call that it allowed for each domain, and after every call that it allows it deletes the times that
are more than two windows ago. -/

namespace SmartIdVault.RateLimit

open Cooldown (Resting Tracks admitted)

structure DomainRateLimiter where
  windowMs : ℚ
  entries : JsMap Utf16 ℚ := .empty
  deriving DecidableEq

namespace DomainRateLimiter

/-- The test of a call at `now`; the number zero is falsy. -/
def limited (s : DomainRateLimiter) (domain : Utf16) (now : ℚ) : Bool :=
  (s.entries.get domain).any fun last => last ≠ 0 && now - last < s.windowMs

/-- A call when `Date.now()` is `now`, where `clear` is what is done after the time has been set. -/
def allowWith (clear : JsMap Utf16 ℚ → JsMap Utf16 ℚ) (s : DomainRateLimiter) (domain : Utf16)
    (now : ℚ) : Bool × DomainRateLimiter :=
  if s.limited domain now then (false, s)
  else (true, { s with entries := clear (s.entries.set domain now) })

theorem windowMs_allowWith (clear : JsMap Utf16 ℚ → JsMap Utf16 ℚ) (s : DomainRateLimiter)
    (domain : Utf16) (now : ℚ) : (s.allowWith clear domain now).2.windowMs = s.windowMs := by
  rw [allowWith]
  split <;> rfl

def evict (windowMs now : ℚ) (entries : JsMap Utf16 ℚ) : JsMap Utf16 ℚ :=
  entries.deleteDuring fun e => windowMs * 2 < now - e.2

def allow (s : DomainRateLimiter) (domain : Utf16) (now : ℚ) : Bool × DomainRateLimiter :=
  s.allowWith (evict s.windowMs now) domain now

/-- The limiter without the loop that deletes entries. -/
def allowUnevicted (s : DomainRateLimiter) (domain : Utf16) (now : ℚ) : Bool × DomainRateLimiter :=
  s.allowWith id domain now

end DomainRateLimiter

/-- A limiter and the calls on it that returned true, with their times. -/
structure DomainCalls where
  limiter : DomainRateLimiter
  allowed : List (Utf16 × ℚ) := []

namespace DomainCalls

open DomainRateLimiter (allow allowUnevicted allowWith evict limited windowMs_allowWith)
open Utf16 (ofString)

section Calls

variable (answer : DomainRateLimiter → Utf16 → ℚ → Bool × DomainRateLimiter)

def call (s : DomainCalls) (c : Utf16 × ℚ) : DomainCalls where
  limiter := (answer s.limiter c.1 c.2).2
  allowed := if (answer s.limiter c.1 c.2).1 then s.allowed ++ [c] else s.allowed

/-- Calls on a new limiter. -/
def callsAt (windowMs : ℚ) (calls : List (Utf16 × ℚ)) : DomainCalls :=
  calls.foldl (call answer) { limiter := { windowMs } }

theorem callsAt_snoc (windowMs : ℚ) (calls : List (Utf16 × ℚ)) (c : Utf16 × ℚ) :
    callsAt answer windowMs (calls ++ [c]) = (callsAt answer windowMs calls).call answer c := by
  rw [callsAt, List.foldl_append]
  rfl

end Calls

/-! ### The table and the log -/

section Invariant

variable {windowMs now : ℚ} {domain : Utf16} {s : DomainCalls} {calls : List (Utf16 × ℚ)}

/-- After calls up to `now` the limiter knows which domains have to wait. -/
structure Inv (windowMs : ℚ) (calls : List (Utf16 × ℚ)) (now : ℚ) (s : DomainCalls) : Prop where
  windowMs_eq : s.limiter.windowMs = windowMs
  allowed_eq : s.allowed = admitted windowMs calls
  past : ∀ c ∈ s.allowed, 0 < c.2 ∧ c.2 ≤ now
  tracks : Tracks windowMs now s.allowed s.limiter.entries.get

theorem Inv.init (windowMs now : ℚ) : Inv windowMs [] now { limiter := { windowMs } } where
  windowMs_eq := rfl
  allowed_eq := rfl
  past := by simp
  tracks := .init windowMs now

theorem Inv.later {t : ℚ} (h : Inv windowMs calls now s) (hle : now ≤ t) :
    Inv windowMs calls t s :=
  { h with
    past := fun c hc => ⟨(h.past c hc).1, (h.past c hc).2.trans hle⟩
    tracks := h.tracks.later hle }

/-- No time in the table is zero, so that the test is that of the window. -/
theorem Inv.limited_iff (h : Inv windowMs calls now s) :
    s.limiter.limited domain now = true ↔ Resting windowMs s.allowed domain now := by
  rw [h.tracks.resting_iff, limited, Option.any_eq_true, h.windowMs_eq]
  refine exists_congr fun last => and_congr_right fun hlast => ?_
  have hpos := (h.past _ (h.tracks.latest domain last hlast).1).1
  simp [hpos.ne']

theorem Inv.allowWith_iff (clear : JsMap Utf16 ℚ → JsMap Utf16 ℚ) (h : Inv windowMs calls now s) :
    (s.limiter.allowWith clear domain now).1 = true ↔
      ¬Resting windowMs (admitted windowMs calls) domain now := by
  rw [← h.allowed_eq, ← h.limited_iff, DomainRateLimiter.allowWith]
  split <;> simp [*]

/-- What may be done to the table after a call. -/
theorem Inv.allowWith {clear : JsMap Utf16 ℚ → JsMap Utf16 ℚ} (h : Inv windowMs calls now s)
    (hpos : 0 < now)
    (hclear : ∀ (m : JsMap Utf16 ℚ) key, (clear m).get key = m.get key ∨
      (clear m).get key = none ∧ ∀ t ∈ m.get key, windowMs ≤ now - t) :
    Inv windowMs (calls ++ [(domain, now)]) now
      { limiter := (s.limiter.allowWith clear domain now).2
        allowed := if (s.limiter.allowWith clear domain now).1 then s.allowed ++ [(domain, now)]
          else s.allowed } := by
  have hadmitted : admitted windowMs (calls ++ [(domain, now)]) =
      if Resting windowMs s.allowed domain now then s.allowed
      else s.allowed ++ [(domain, now)] := by
    rw [Cooldown.admitted_snoc, Cooldown.offer, ← h.allowed_eq]
  rw [DomainRateLimiter.allowWith]
  split
  next hlimited =>
    refine ⟨h.windowMs_eq, ?_, h.past, h.tracks⟩
    rw [hadmitted, if_pos (h.limited_iff.mp hlimited)]
    rfl
  next hfree =>
    have hrested : ¬Resting windowMs s.allowed domain now := fun hr => hfree (h.limited_iff.mpr hr)
    refine ⟨h.windowMs_eq, ?_, ?_, ?_⟩
    · rw [hadmitted, if_neg hrested]
      rfl
    · intro c hc
      rcases List.mem_append.mp hc with hc | hc
      · exact h.past c hc
      · rw [List.mem_singleton.mp hc]
        exact ⟨hpos, le_rfl⟩
    · have hrecord := h.tracks.record (fun c hc => (h.past c hc).2) domain
      refine hrecord.forget fun key => ?_
      rw [← JsMap.get_set]
      exact hclear _ key

theorem Inv.call_unevicted (h : Inv windowMs calls now s) (hpos : 0 < now) :
    Inv windowMs (calls ++ [(domain, now)]) now (s.call allowUnevicted (domain, now)) :=
  h.allowWith hpos fun _ _ => .inl rfl

/-- The loop deletes no time that is less than a window ago. -/
theorem Inv.call (h : Inv windowMs calls now s) (hw : 0 < windowMs) (hpos : 0 < now) :
    Inv windowMs (calls ++ [(domain, now)]) now (s.call allow (domain, now)) := by
  refine h.allowWith hpos fun m key => ?_
  rw [evict, JsMap.deleteDuring_eq, JsMap.get_deleteWhere, h.windowMs_eq]
  cases hkey : m.get key with
  | none => exact .inl rfl
  | some last =>
    by_cases hold : windowMs * 2 < now - last
    · refine .inr ⟨by simp [Option.filter, hold], ?_⟩
      intro t ht
      rw [← Option.some.inj ht]
      linarith
    · exact .inl (by simp [Option.filter, hold])

/-- Times of calls that are positive and do not decrease. -/
def Ordered (calls : List (Utf16 × ℚ)) : Prop :=
  (calls.map Prod.snd).Pairwise (· ≤ ·) ∧ ∀ c ∈ calls, 0 < c.2

theorem Ordered.filter {p : Utf16 × ℚ → Bool} (h : Ordered calls) : Ordered (calls.filter p) :=
  ⟨h.1.sublist (List.filter_sublist.map Prod.snd), fun c hc => h.2 c (List.mem_filter.mp hc).1⟩

theorem Ordered.init {c : Utf16 × ℚ} (h : Ordered (calls ++ [c])) :
    Ordered calls ∧ 0 < c.2 ∧ ∀ a ∈ calls, a.2 ≤ c.2 := by
  obtain ⟨hsorted, hpos⟩ := h
  rw [List.map_append, List.pairwise_append] at hsorted
  refine ⟨⟨hsorted.1, fun a ha => hpos a (List.mem_append_left _ ha)⟩, hpos c (by simp), ?_⟩
  intro a ha
  exact hsorted.2.2 a.2 (List.mem_map_of_mem ha) c.2 (by simp)

theorem inv_callsAt {answer : DomainRateLimiter → Utf16 → ℚ → Bool × DomainRateLimiter}
    (hcall : ∀ {calls now domain s}, Inv windowMs calls now s → 0 < now →
      Inv windowMs (calls ++ [(domain, now)]) now (s.call answer (domain, now)))
    (h : Ordered (calls ++ [(domain, now)])) :
    Inv windowMs calls now (callsAt answer windowMs calls) := by
  induction calls using List.reverseRecOn generalizing domain now with
  | nil => exact .init windowMs now
  | append_singleton calls c ih =>
    obtain ⟨hearlier, -, hle⟩ := h.init
    obtain ⟨-, hpos, -⟩ := hearlier.init
    rw [callsAt_snoc]
    exact (hcall (ih hearlier) hpos).later (hle c (by simp))

end Invariant

/-- At positive times that do not decrease, a call after others returns what it returns when nothing
is ever deleted from the table: true exactly when no call of the same domain returned true less than
`windowMs` before.  The calls of other domains make no difference. -/
theorem allow_iff_rested (windowMs : ℚ) (hw : 0 < windowMs) (calls : List (Utf16 × ℚ))
    (domain : Utf16) (now : ℚ) (h : Ordered (calls ++ [(domain, now)])) :
    let earlier := callsAt allow windowMs calls
    let answer := (earlier.limiter.allow domain now).1
    answer = ((callsAt allowUnevicted windowMs calls).limiter.allowUnevicted domain now).1 ∧
    (answer = true ↔ ¬∃ c ∈ earlier.allowed, c.1 = domain ∧ now - c.2 < windowMs) ∧
    answer =
      ((callsAt allow windowMs (calls.filter (·.1 = domain))).limiter.allow domain now).1 := by
  have hevicted : Inv windowMs calls now (callsAt allow windowMs calls) :=
    inv_callsAt (fun hi hpos => hi.call hw hpos) h
  have hunevicted : Inv windowMs calls now (callsAt allowUnevicted windowMs calls) :=
    inv_callsAt (fun hi hpos => hi.call_unevicted hpos) h
  have hown : Ordered (calls.filter (·.1 = domain) ++ [(domain, now)]) := by
    simpa [List.filter_append] using h.filter (p := (·.1 = domain))
  have halone : Inv windowMs (calls.filter (·.1 = domain)) now _ :=
    inv_callsAt (fun hi hpos => hi.call hw hpos) hown
  have hanswer : ((callsAt allow windowMs calls).limiter.allow domain now).1 = true ↔
      ¬Resting windowMs (admitted windowMs calls) domain now := hevicted.allowWith_iff _
  refine ⟨?_, ?_, ?_⟩
  · exact Bool.eq_iff_iff.mpr (hanswer.trans (hunevicted.allowWith_iff id).symm)
  · rw [← hevicted.allowed_eq] at hanswer
    exact hanswer
  · rw [← Cooldown.resting_admitted_filter] at hanswer
    exact Bool.eq_iff_iff.mpr (hanswer.trans (halone.allowWith_iff _).symm)

/-- The time of `a.ee` is deleted after the call of `b.ee`, more than two windows later, and the
next call of `a.ee` returns true. -/
theorem allow_iff_rested_sample :
    let earlier := callsAt allow 30000 [(ofString "a.ee", 1000), (ofString "b.ee", 61001)]
    earlier.limiter.entries.get (ofString "a.ee") = none ∧
      (earlier.limiter.allow (ofString "a.ee") 61002).1 = true :=
  ⟨by decide +kernel, (allow_iff_rested 30000 (by decide +kernel)
    [(ofString "a.ee", 1000), (ofString "b.ee", 61001)] (ofString "a.ee") 61002
    ⟨by decide +kernel, by decide +kernel⟩).2.1.mpr (by decide +kernel)⟩

/-- Two calls of a domain that returned true are at least `windowMs` apart. -/
theorem allowed_apart (windowMs : ℚ) (hw : 0 < windowMs) (calls : List (Utf16 × ℚ)) (c : Utf16 × ℚ)
    (h : Ordered (calls ++ [c])) : (callsAt allow windowMs (calls ++ [c])).allowed.Pairwise
      fun a b => a.1 = b.1 → windowMs ≤ b.2 - a.2 := by
  have hearlier : Inv windowMs calls c.2 (callsAt allow windowMs calls) :=
    inv_callsAt (fun hi hpos => hi.call hw hpos) h
  rw [callsAt_snoc, (hearlier.call hw h.init.2.1).allowed_eq]
  exact Cooldown.admitted_apart windowMs (calls ++ [c])

/-! ### The limiter of the message handlers -/

section Handlers

open Pairing (Background.allow)

variable {entries : String → Option Nat} {s : DomainRateLimiter} {windowMs now : Nat}
  {domain : String}

/-- The handlers' table of times, at the domains that they are called with. -/
def Represents (entries : String → Option Nat) (m : JsMap Utf16 ℚ) : Prop :=
  ∀ domain, m.get (ofString domain) = (entries domain).map Nat.cast

theorem Represents.set {m : JsMap Utf16 ℚ} (h : Represents entries m) (domain : String)
    (now : Nat) : Represents (Function.update entries domain (some now))
      (m.set (ofString domain) now) := by
  intro key
  rw [JsMap.get_set, Function.update_apply]
  by_cases hkey : key = domain
  · rw [if_pos hkey, if_pos (congrArg _ hkey)]
    rfl
  · rw [if_neg hkey, if_neg fun heq => hkey (Utf16.ofString_inj heq), h]

theorem Represents.evict {m : JsMap Utf16 ℚ} (h : Represents entries m) (windowMs now : Nat) :
    Represents (Background.allow.evict windowMs now entries) (evict windowMs now m) := by
  intro key
  rw [DomainRateLimiter.evict, JsMap.deleteDuring_eq, JsMap.get_deleteWhere, h,
    Background.allow.evict]
  cases entries key with
  | none => rfl
  | some last =>
    have hold : (windowMs * 2 : ℚ) < now - last ↔ windowMs * 2 < now - last := by
      rw [lt_sub_iff_add_lt, Nat.lt_sub_iff_add_lt]
      exact_mod_cast Iff.rfl
    simp [Option.filter, hold, apply_ite]

/-- The handlers' test; their subtraction stops at zero, which is less than a window too. -/
theorem Represents.limited_iff (h : Represents entries s.entries) (hw : 0 < windowMs)
    (hs : s.windowMs = windowMs) : s.limited (ofString domain) now = true ↔
      ∃ last, entries domain = some (last + 1) ∧ now - (last + 1) < windowMs := by
  rw [limited, h, hs]
  cases entries domain with
  | none => simp
  | some last =>
    cases last with
    | zero => simp
    | succ last =>
      have hlate : (now : ℚ) - (last + 1 : Nat) < windowMs ↔ now - (last + 1) < windowMs := by
        rw [sub_lt_iff_lt_add]
        norm_cast
        omega
      have hpos : ((last + 1 : Nat) : ℚ) ≠ 0 := Nat.cast_ne_zero.mpr (Nat.succ_ne_zero last)
      rw [Option.map_some, Option.any_some, decide_eq_true hpos, Bool.true_and, decide_eq_true_iff,
        hlate]
      simp

/-- A handler's call of its limiter is a call of this one. -/
theorem Represents.allow (h : Represents entries s.entries) (hw : 0 < windowMs)
    (hs : s.windowMs = windowMs) :
    (s.allow (ofString domain) now).1 = (Background.allow windowMs entries domain now).2 ∧
      Represents (Background.allow windowMs entries domain now).1
        (s.allow (ofString domain) now).2.entries := by
  have hlimited : s.limited (ofString domain) now = true ↔ _ := h.limited_iff hw hs
  rw [DomainRateLimiter.allow, DomainRateLimiter.allowWith, hs, Background.allow]
  split
  next hl =>
    obtain ⟨last, hlast, hlate⟩ := hlimited.mp hl
    simp only [hlast, if_pos hlate]
    exact ⟨trivial, h⟩
  next hl =>
    have hset := (h.set domain now).evict windowMs now
    split
    next last hlast =>
      rw [if_neg fun hlate => hl (hlimited.mpr ⟨last, hlast, hlate⟩)]
      exact ⟨rfl, hset⟩
    next => exact ⟨rfl, hset⟩

/-- The handlers' table after calls on an empty one. -/
def entriesAt (windowMs : Nat) (calls : List (String × Nat)) : String → Option Nat :=
  calls.foldl (fun entries c => (Background.allow windowMs entries c.1 c.2).1) fun _ => none

theorem represents_callsAt (hw : 0 < windowMs) (calls : List (String × Nat)) :
    let s := (callsAt DomainRateLimiter.allow windowMs
      (calls.map fun c => (ofString c.1, (c.2 : ℚ)))).limiter
    s.windowMs = windowMs ∧ Represents (entriesAt windowMs calls) s.entries := by
  induction calls using List.reverseRecOn with
  | nil => exact ⟨rfl, fun _ => rfl⟩
  | append_singleton calls c ih =>
    obtain ⟨hs, h⟩ := ih
    simp only [List.map_append, List.map_cons, List.map_nil, callsAt_snoc, entriesAt,
      List.foldl_append, List.foldl_cons, List.foldl_nil]
    exact ⟨(windowMs_allowWith _ _ _ _).trans hs, (h.allow hw hs).2⟩

/-- The handlers get the answers of this limiter. -/
theorem allow_entriesAt (hw : 0 < windowMs) (calls : List (String × Nat)) :
    (Background.allow windowMs (entriesAt windowMs calls) domain now).2 =
      ((callsAt DomainRateLimiter.allow windowMs
        (calls.map fun c => (ofString c.1, (c.2 : ℚ)))).limiter.allow (ofString domain) now).1 := by
  obtain ⟨hs, h⟩ := represents_callsAt hw calls
  exact (h.allow hw hs).1.symm

end Handlers

end DomainCalls

end SmartIdVault.RateLimit
