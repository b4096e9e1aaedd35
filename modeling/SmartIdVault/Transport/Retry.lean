import Mathlib.Algebra.Order.Field.Rat
import SmartIdVault.Lib.Utf

/-! `lib/retry.ts`: `withRetry`, which the transports and the API relay call, and
`isRetryableError`. -/

namespace SmartIdVault.Retry

open Utf16 (ofString)

/-- What a promise is rejected with: an `Error`, with its `status` if it has one, or another
value. -/
inductive Thrown
  | error (name message : Utf16) (status : Option ℚ)
  | other
  deriving DecidableEq

def Thrown.message : Thrown → Utf16
  | .error _ message _ => message
  | .other => ofString "Unknown error"

def isRetryableError : Thrown → Bool
  | .error name _ status =>
    name = ofString "AbortError" || status.any fun status => 500 ≤ status || status = 429
  | .other => false

structure RetryOptions where
  maxAttempts : Nat := 3
  baseDelayMs : ℚ := 1000
  maxDelayMs : ℚ := 30000
  jitterMs : ℚ := 500
  shouldRetry : Thrown → Nat → Bool := fun _ _ => true

structure RetryResult (α : Type) where
  success : Bool
  data : Option α := none
  error : Option Utf16 := none
  attempts : Nat
  totalTimeMs : Int
  deriving DecidableEq

/-- What a call of `withRetry` meets: the outcome of each call of `fn`, from the first on, and what
`Date.now()` and `Math.random()` return after each. -/
structure Environment (α : Type) where
  fn : Nat → Except Thrown α
  now : Nat → Int
  random : Nat → ℚ

/-- The result, how often `fn` was called, and the times slept in between. -/
structure Completed (α : Type) where
  result : RetryResult α
  calls : Nat
  delays : List ℚ
  deriving DecidableEq

def calculateDelay (attempt : Nat) (opts : RetryOptions) (random : ℚ) : ℚ :=
  let exponentialDelay := opts.baseDelayMs * 2 ^ (attempt - 1)
  let cappedDelay := min exponentialDelay opts.maxDelayMs
  let jitter := (random * 2 - 1) * opts.jitterMs
  max 0 (cappedDelay + jitter)

section

variable {α : Type} (opts : RetryOptions) (env : Environment α)

/-- The return after the loop. -/
def failed (calls : Nat) (lastError : Option Thrown) (delays : List ℚ) : Completed α where
  result :=
    { success := false
      error := some (lastError.elim (ofString "Unknown error") Thrown.message)
      attempts := opts.maxAttempts
      totalTimeMs := env.now calls - env.now 0 }
  calls
  delays

/-- The loop with `remaining` attempts left; `attempt` is the number of the next one. -/
def loop : (remaining attempt : Nat) → Option Thrown → List ℚ → Completed α
  | 0, attempt, lastError, delays => failed opts env (attempt - 1) lastError delays
  | remaining + 1, attempt, _, delays =>
    match env.fn attempt with
    | .ok data =>
      { result :=
          { success := true
            data := some data
            attempts := attempt
            totalTimeMs := env.now attempt - env.now 0 }
        calls := attempt
        delays }
    | .error err =>
      if opts.maxAttempts ≤ attempt || !opts.shouldRetry err attempt then
        failed opts env attempt (some err) delays
      else
        loop remaining (attempt + 1) (some err)
          (delays ++ [calculateDelay attempt opts (env.random attempt)])

def withRetry : Completed α := loop opts env opts.maxAttempts 1 none []

/-! ### When the calls end -/

/-- Call `k` fails with an error that `shouldRetry` refuses. -/
def Refused (k : Nat) : Prop := ∃ err, env.fn k = .error err ∧ opts.shouldRetry err k = false

def Succeeds (k : Nat) : Prop := ∃ data, env.fn k = .ok data

/-- Call `k` is the last: it succeeds, or its failure is refused, or it is call `maxAttempts`. -/
def Final (k : Nat) : Prop := Succeeds env k ∨ Refused opts env k ∨ k = opts.maxAttempts

/-- The calls end with the first that has to be the last, and the result is what became of it; only
the number of attempts may be another. -/
structure Reports (r : Completed α) : Prop where
  called : 1 ≤ r.calls
  final : Final opts env r.calls
  first : ∀ k, 1 ≤ k → k < r.calls → ¬Final opts env k
  success_iff : r.result.success = true ↔ Succeeds env r.calls
  data : ∀ data, env.fn r.calls = .ok data → r.result.data = some data
  error : ∀ err, env.fn r.calls = .error err → r.result.error = some err.message

/-- The number of attempts is that of the calls, too. -/
structure Accounts (r : Completed α) : Prop extends Reports opts env r where
  attempts : r.result.attempts = r.calls

variable {opts env} {attempt : Nat} {lastError : Option Thrown} {delays : List ℚ}

theorem not_succeeds_of_refused {k : Nat} (h : Refused opts env k) : ¬Succeeds env k := by
  obtain ⟨err, herr, -⟩ := h
  rintro ⟨data, hdata⟩
  rw [hdata] at herr
  contradiction

theorem not_final_of_error {err : Thrown} (hfn : env.fn attempt = .error err)
    (hgo : ¬(opts.maxAttempts ≤ attempt || !opts.shouldRetry err attempt) = true) :
    attempt < opts.maxAttempts ∧ ¬Final opts env attempt := by
  simp only [Bool.or_eq_true, decide_eq_true_eq, Bool.not_eq_true', not_or, Nat.not_le,
    Bool.not_eq_false] at hgo
  refine ⟨hgo.1, ?_⟩
  rintro (⟨data, hdata⟩ | ⟨e, he, hrefused⟩ | rfl)
  · rw [hfn] at hdata
    contradiction
  · obtain rfl := Except.error.inj (hfn.symm.trans he)
    rw [hgo.2] at hrefused
    contradiction
  · exact absurd hgo.1 (Nat.lt_irrefl _)

theorem final_of_error {err : Thrown} (hfn : env.fn attempt = .error err)
    (hle : attempt ≤ opts.maxAttempts)
    (hstop : (opts.maxAttempts ≤ attempt || !opts.shouldRetry err attempt) = true) :
    Final opts env attempt := by
  simp only [Bool.or_eq_true, decide_eq_true_eq, Bool.not_eq_true'] at hstop
  rcases hstop with hmax | hrefused
  · exact .inr (.inr (Nat.le_antisymm hle hmax))
  · exact .inr (.inl ⟨err, hfn, hrefused⟩)

theorem failed_reports {err : Thrown} (hattempt : 1 ≤ attempt) (hfn : env.fn attempt = .error err)
    (hfinal : Final opts env attempt)
    (hbefore : ∀ k, 1 ≤ k → k < attempt → ¬Final opts env k) :
    Reports opts env (failed opts env attempt (some err) delays) where
  called := hattempt
  final := hfinal
  first := hbefore
  success_iff := by
    refine iff_of_false (by simp [failed]) ?_
    rintro ⟨data, hdata⟩
    simp [failed, hfn] at hdata
  data data hdata := by simp [failed, hfn] at hdata
  error e he := by
    obtain rfl := Except.error.inj (hfn.symm.trans he)
    rfl

/-- The loop from attempt `attempt` on, when no call before was the last. -/
theorem loop_reports (remaining : Nat) (hremaining : remaining + attempt = opts.maxAttempts + 1)
    (hpos : 0 < remaining) (hattempt : 1 ≤ attempt)
    (hbefore : ∀ k, 1 ≤ k → k < attempt → ¬Final opts env k) :
    Reports opts env (loop opts env remaining attempt lastError delays) := by
  induction remaining generalizing attempt lastError delays with
  | zero => contradiction
  | succ remaining ih =>
    rw [loop]
    cases hfn : env.fn attempt with
    | ok data =>
      refine ⟨hattempt, .inl ⟨data, hfn⟩, hbefore, ?_, ?_, ?_⟩
      · exact iff_of_true rfl ⟨data, hfn⟩
      · intro d hd
        exact congrArg some (Except.ok.inj (hfn.symm.trans hd))
      · intro e he
        simp [hfn] at he
    | error err =>
      simp only
      split
      · rename_i hstop
        exact failed_reports hattempt hfn (final_of_error hfn (by omega) hstop) hbefore
      · rename_i hgo
        obtain ⟨hlt, hnot⟩ := not_final_of_error hfn hgo
        refine ih (by omega) (by omega) (by omega) ?_
        intro k hk hlast
        rcases Nat.lt_or_eq_of_le (Nat.le_of_lt_succ hlast) with hk' | rfl
        · exact hbefore k hk hk'
        · exact hnot

/-- The number of attempts is that of the calls when the last call succeeds, and otherwise
`maxAttempts`. -/
def Attempted (opts : RetryOptions) (r : Completed α) : Prop :=
  r.result.attempts = if r.result.success then r.calls else opts.maxAttempts

theorem loop_attempted (remaining : Nat) :
    Attempted opts (loop opts env remaining attempt lastError delays) := by
  induction remaining generalizing attempt lastError delays with
  | zero => rfl
  | succ remaining ih =>
    rw [loop]
    cases env.fn attempt with
    | ok data => rfl
    | error err =>
      simp only
      split
      · rfl
      · exact ih

theorem loop_delays (remaining : Nat) (hremaining : remaining + attempt = opts.maxAttempts + 1)
    (hpos : 0 < remaining) (hdelays : delays.length + 1 = attempt) :
    let r := loop opts env remaining attempt lastError delays
    r.delays.length + 1 = r.calls := by
  induction remaining generalizing attempt lastError delays with
  | zero => contradiction
  | succ remaining ih =>
    rw [loop]
    cases hfn : env.fn attempt with
    | ok data => exact hdelays
    | error err =>
      simp only
      split
      · exact hdelays
      · rename_i hgo
        have hlt := (not_final_of_error hfn hgo).1
        exact ih (by omega) (by omega) (by simp [hdelays])

/-- There is a delay after each call but the last. -/
theorem withRetry_delays (hmax : 1 ≤ opts.maxAttempts) :
    (withRetry opts env).delays.length + 1 = (withRetry opts env).calls :=
  loop_delays opts.maxAttempts rfl hmax rfl

theorem withRetry_reports (hmax : 1 ≤ opts.maxAttempts) :
    Reports opts env (withRetry opts env) :=
  loop_reports opts.maxAttempts rfl hmax le_rfl fun _ hk hlt => absurd hlt (Nat.not_lt.mpr hk)

/-- The calls, the value and the message are accounted for in every case, and the number of attempts
exactly when `shouldRetry` does not end the calls early: a failure that it refuses before call
`maxAttempts` comes after a success. -/
theorem accounts_iff (hmax : 1 ≤ opts.maxAttempts) :
    Accounts opts env (withRetry opts env) ↔
      ∀ k, 1 ≤ k → k < opts.maxAttempts → Refused opts env k →
        ∃ j, 1 ≤ j ∧ j < k ∧ Succeeds env j := by
  have h : Reports opts env (withRetry opts env) := withRetry_reports hmax
  have hattempts : (withRetry opts env).result.attempts =
      if (withRetry opts env).result.success then (withRetry opts env).calls
      else opts.maxAttempts := loop_attempted opts.maxAttempts
  constructor
  · rintro hacc k hk hlt hrefused
    by_contra hnone
    have hcalls : (withRetry opts env).calls ≤ k := by
      by_contra hafter
      exact h.first k hk (Nat.not_le.mp hafter) (.inr (.inl hrefused))
    -- no call up to `k` succeeds, so the failure is reported with `maxAttempts`
    have hfails : ¬(withRetry opts env).result.success = true := by
      rw [h.success_iff]
      intro hsucc
      rcases Nat.lt_or_eq_of_le hcalls with hbefore | heq
      · exact hnone ⟨_, h.called, hbefore, hsucc⟩
      · rw [heq] at hsucc
        exact not_succeeds_of_refused hrefused hsucc
    have hmismatch := hacc.attempts
    rw [hattempts, if_neg hfails] at hmismatch
    omega
  · intro hall
    refine ⟨h, ?_⟩
    rw [hattempts]
    split
    · rfl
    · rename_i hfails
      rcases h.final with hsucc | hrefused | heq
      · exact absurd (h.success_iff.mpr hsucc) hfails
      · by_contra hne
        have hlt : (withRetry opts env).calls < opts.maxAttempts := by
          by_contra hge
          exact h.first opts.maxAttempts hmax (by omega) (.inr (.inr rfl))
        obtain ⟨j, hj, hjlt, hsucc⟩ := hall _ h.called hlt hrefused
        exact h.first j hj hjlt (.inl hsucc)
      · exact heq.symm

end

/-! ### A refusal at the first attempt -/

def fatal : Thrown := .error (ofString "TypeError") (ofString "Failed to fetch") none

def timeout : Thrown := .error (ofString "AbortError") (ofString "timeout") none

/-- `connectWebRtcWithRetry`'s options. -/
def connectOptions : RetryOptions where
  maxDelayMs := 10000
  shouldRetry err _ := isRetryableError err

def alwaysFatal : Environment Unit where
  fn _ := .error fatal
  now _ := 0
  random _ := 0

def thirdTime : Environment Unit where
  fn k := if k < 3 then .error timeout else .ok ()
  now _ := 0
  random _ := 0

theorem accounts_thirdTime :
    Accounts connectOptions thirdTime (withRetry connectOptions thirdTime) := by
  refine (accounts_iff (by decide)).mpr ?_
  rintro k - hlt ⟨err, herr, hrefused⟩
  simp only [thirdTime, if_pos (show k < 3 from hlt)] at herr
  obtain rfl := Except.error.inj herr
  have hretryable : isRetryableError timeout = true := by decide
  exact absurd hrefused (by simp [connectOptions, hretryable])

/-- One call of `fn` is reported as three. -/
theorem refusal_reports_three : ¬Accounts connectOptions alwaysFatal
    (withRetry connectOptions alwaysFatal) := by
  intro h
  exact absurd h.attempts (by decide)

end SmartIdVault.Retry
