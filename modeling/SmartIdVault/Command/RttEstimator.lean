import Mathlib.Algebra.Order.Field.Rat
import Mathlib.Tactic.Linarith

/-! The round-trip estimator of `lib/channel/rttEstimator.ts`, in exact arithmetic. -/

namespace SmartIdVault.Command

/-- A JavaScript number, as `updateRtt` takes it. -/
inductive JsNumber
  | finite (x : ℚ)
  | notFinite
  deriving DecidableEq

structure RttEstimator where
  rttAvg : ℚ := 200
  rttVar : ℚ := 100
  deriving DecidableEq

namespace RttEstimator

def alpha : ℚ := 1 / 8

def beta : ℚ := 1 / 4

/-- The variance goes first, with the average as it was. -/
def updateRtt (r : RttEstimator) : JsNumber → RttEstimator
  | .notFinite => r
  | .finite sample =>
    if sample < 0 then r
    else
      { rttVar := (1 - beta) * r.rttVar + beta * |sample - r.rttAvg|
        rttAvg := (1 - alpha) * r.rttAvg + alpha * sample }

def getRto (r : RttEstimator) : ℚ := max (r.rttAvg + 4 * r.rttVar) 1000

/-! ### Bounds on what is estimated -/

/-- The estimates lie in `[0, M]`. -/
structure Bounded (M : ℚ) (r : RttEstimator) : Prop where
  avg_nonneg : 0 ≤ r.rttAvg
  avg_le : r.rttAvg ≤ M
  var_nonneg : 0 ≤ r.rttVar
  var_le : r.rttVar ≤ M

/-- A sample that `updateRtt` takes. -/
def Accepted (sample : JsNumber) : Prop := ∃ x, sample = .finite x ∧ 0 ≤ x

theorem updateRtt_of_not_accepted {sample : JsNumber} (h : ¬Accepted sample) (r : RttEstimator) :
    r.updateRtt sample = r := by
  cases sample with
  | notFinite => rfl
  | finite x =>
    have hneg : x < 0 := by
      by_contra hx
      exact h ⟨x, rfl, not_lt.mp hx⟩
    rw [updateRtt, if_pos hneg]

variable {M : ℚ} {r : RttEstimator}

/-- Both numbers move towards others that lie in `[0, M]`: the average towards the sample, the
variance towards the distance between the two. -/
theorem Bounded.updateRtt (h : Bounded M r) {sample : JsNumber}
    (hM : ∀ x, sample = .finite x → 0 ≤ x → x ≤ M) : Bounded M (r.updateRtt sample) := by
  by_cases hacc : Accepted sample
  · obtain ⟨x, rfl, hx⟩ := hacc
    have hle : x ≤ M := hM x rfl hx
    obtain ⟨havg, havgM, hvar, hvarM⟩ := h
    have hdist : |x - r.rttAvg| ≤ M := by
      rw [abs_le]
      constructor
      · linarith
      · linarith
    have hdist0 : 0 ≤ |x - r.rttAvg| := abs_nonneg _
    rw [RttEstimator.updateRtt, if_neg (not_lt.mpr hx), alpha, beta]
    refine ⟨?_, ?_, ?_, ?_⟩
    · show 0 ≤ (1 - 1 / 8) * r.rttAvg + 1 / 8 * x
      linarith
    · show (1 - 1 / 8) * r.rttAvg + 1 / 8 * x ≤ M
      linarith
    · show 0 ≤ (1 - 1 / 4) * r.rttVar + 1 / 4 * |x - r.rttAvg|
      linarith
    · show (1 - 1 / 4) * r.rttVar + 1 / 4 * |x - r.rttAvg| ≤ M
      linarith
  · rw [updateRtt_of_not_accepted hacc]
    exact h

theorem Bounded.foldl (samples : List JsNumber) (h : Bounded M r)
    (hM : ∀ x, .finite x ∈ samples → 0 ≤ x → x ≤ M) :
    Bounded M (samples.foldl RttEstimator.updateRtt r) := by
  induction samples generalizing r with
  | nil => exact h
  | cons sample samples ih =>
    rw [List.foldl_cons]
    refine ih (h.updateRtt ?_) fun x hx => hM x (List.mem_cons_of_mem sample hx)
    rintro x rfl
    exact hM x List.mem_cons_self

theorem Bounded.getRto (h : Bounded M r) : 1000 ≤ r.getRto ∧ r.getRto ≤ max 1000 (5 * M) := by
  obtain ⟨-, havg, -, hvar⟩ := h
  refine ⟨le_max_right _ _, max_le ?_ (le_max_left _ _)⟩
  exact le_max_of_le_right (by linarith)

/-- After any samples of which those that are taken lie in `[0, M]`, so do the estimates, and the
timeout lies between one second and the larger of that and `5 * M`; a sample that is negative or not
finite changes nothing. -/
theorem estimates_bounded (M : ℚ) (hM : 200 ≤ M) (samples : List JsNumber)
    (hsamples : ∀ x, .finite x ∈ samples → 0 ≤ x → x ≤ M) :
    let r := samples.foldl RttEstimator.updateRtt {}
    (0 ≤ r.rttAvg ∧ r.rttAvg ≤ M) ∧ (0 ≤ r.rttVar ∧ r.rttVar ≤ M) ∧
      (1000 ≤ r.getRto ∧ r.getRto ≤ max 1000 (5 * M)) ∧
      ∀ sample, (sample = .notFinite ∨ ∃ x, sample = .finite x ∧ x < 0) →
        r.updateRtt sample = r := by
  have hinit : Bounded M {} := by
    refine ⟨?_, hM, ?_, ?_⟩
    · norm_num
    · norm_num
    · show (100 : ℚ) ≤ M
      linarith
  have h : Bounded M (samples.foldl RttEstimator.updateRtt {}) := hinit.foldl samples hsamples
  refine ⟨⟨h.avg_nonneg, h.avg_le⟩, ⟨h.var_nonneg, h.var_le⟩, h.getRto, ?_⟩
  intro sample hsample
  apply updateRtt_of_not_accepted
  rintro ⟨x, rfl, hx⟩
  obtain hfin | ⟨y, hy, hneg⟩ := hsample
  · contradiction
  · obtain rfl := JsNumber.finite.inj hy
    exact absurd hneg (not_lt.mpr hx)

/-- Samples of half a second keep the timeout within two and a half seconds. -/
theorem estimates_bounded_sample :
    ([.finite 500, .finite (-1), .notFinite, .finite 20].foldl RttEstimator.updateRtt {}).getRto ≤
      max 1000 (5 * 500) := by
  refine (estimates_bounded 500 (by norm_num) _ ?_).2.2.1.2
  intro x hx hnonneg
  simp only [List.mem_cons, JsNumber.finite.injEq, List.not_mem_nil, or_false, reduceCtorEq,
    false_or] at hx
  rcases hx with rfl | rfl | rfl
  · exact le_rfl
  · norm_num
  · norm_num

end RttEstimator

end SmartIdVault.Command
