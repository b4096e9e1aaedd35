import Mathlib.Tactic.Common

/-! Machines with a guarded step function: `step s e` is the state after event `e` in state `s`, or
`none` when `e` cannot happen there.  A run is a list of events that can happen one after the
other.  The rules below carry an invariant along a run whose events all meet a condition, and turn
a step's two directions (a good event keeps the invariant, a bad one breaks the property) into an
equivalence between the property of a run's states and the condition on its events. -/

namespace Machine

variable {σ ε : Type*}

/-- The events `es`, one after the other, lead from the first state to the second. -/
inductive Run (step : σ → ε → Option σ) : σ → List ε → σ → Prop
  | nil (s : σ) : Run step s [] s
  | cons {s t u : σ} {e : ε} {es : List ε} :
      step s e = some t → Run step t es u → Run step s (e :: es) u

/-- Each event of `es` meets `G` in the state in which it happens. -/
def Throughout (step : σ → ε → Option σ) (G : σ → ε → Prop) : σ → List ε → Prop
  | _, [] => True
  | s, e :: es => G s e ∧ ∀ t, step s e = some t → Throughout step G t es

/-- Every state on the way along `es`, the first and the last included, has property `P`. -/
def Everywhere (step : σ → ε → Option σ) (P : σ → Prop) : σ → List ε → Prop
  | s, [] => P s
  | s, e :: es => P s ∧ ∀ t, step s e = some t → Everywhere step P t es

def exec (step : σ → ε → Option σ) : σ → List ε → Option σ
  | s, [] => some s
  | s, e :: es => (step s e).bind fun t => exec step t es

variable {step : σ → ε → Option σ} {G : σ → ε → Prop} {P I : σ → Prop}

instance decidableThroughout [∀ s e, Decidable (G s e)] :
    ∀ (s : σ) (es : List ε), Decidable (Throughout step G s es)
  | _, [] => isTrue trivial
  | s, e :: es =>
    match h : step s e with
    | none => decidable_of_iff (G s e) (by simp [Throughout, h])
    | some t =>
      have := decidableThroughout t es
      decidable_of_iff (G s e ∧ Throughout step G t es) (by simp [Throughout, h])

/-- What the events of `es` put out, one after the other. -/
def outputs {β : Type*} (step : σ → ε → Option σ) (out : σ → ε → Option β) : σ → List ε → List β
  | _, [] => []
  | s, e :: es => (out s e).toList ++ (step s e).elim [] fun t => outputs step out t es

theorem run_of_exec {s t : σ} {es : List ε} (h : exec step s es = some t) : Run step s es t := by
  induction es generalizing s with
  | nil => exact Option.some.inj h ▸ .nil s
  | cons e es ih =>
    obtain ⟨u, hu, ht⟩ := Option.bind_eq_some_iff.mp h
    exact .cons hu (ih ht)

/-- A run whose last state is looked at. -/
theorem exists_run_with {s : σ} {es : List ε} {p : σ → Bool}
    (h : (exec step s es).any p = true) : ∃ t, Run step s es t ∧ p t = true := by
  obtain ⟨t, ht, hp⟩ := (Option.any_eq_true p _).mp h
  exact ⟨t, run_of_exec ht, hp⟩

theorem exists_run_of_exec {s : σ} {es : List ε} (h : (exec step s es).isSome = true) :
    ∃ t, Run step s es t := by
  obtain ⟨t, ht⟩ := Option.isSome_iff_exists.mp h
  exact ⟨t, run_of_exec ht⟩

theorem Run.single {s t : σ} {e : ε} (h : step s e = some t) : Run step s [e] t :=
  .cons h (.nil t)

theorem Run.append {s t u : σ} {es es' : List ε} (h : Run step s es t) (h' : Run step t es' u) :
    Run step s (es ++ es') u := by
  induction h with
  | nil => exact h'
  | cons hs _ ih => exact .cons hs (ih h')

theorem Run.split {s t : σ} {es : List ε} {e : ε} (h : Run step s es t) (he : e ∈ es) :
    ∃ u v es₁ es₂, Run step s es₁ u ∧ step u e = some v ∧ Run step v es₂ t := by
  induction h with
  | nil => contradiction
  | @cons s v t e' es hs hrun ih =>
    rcases List.mem_cons.mp he with rfl | he
    · exact ⟨s, v, [], es, .nil s, hs, hrun⟩
    · obtain ⟨u, v', es₁, es₂, h₁, hstep, h₂⟩ := ih he
      exact ⟨u, v', e' :: es₁, es₂, .cons hs h₁, hstep, h₂⟩

/-- An invariant that good events preserve holds at the end of a run of good events. -/
theorem Run.invariant {s t : σ} {es : List ε} (h : Run step s es t) (h0 : I s)
    (hG : Throughout step G s es)
    (hstep : ∀ s e t, I s → G s e → step s e = some t → I t) : I t := by
  induction h with
  | nil => exact h0
  | cons hs _ ih => exact ih (hstep _ _ _ h0 hG.1 hs) (hG.2 _ hs)

theorem Run.invariant_all {s t : σ} {es : List ε} (h : Run step s es t) (h0 : I s)
    (hstep : ∀ s e t, I s → step s e = some t → I t) : I t := by
  induction h with
  | nil => exact h0
  | cons hs _ ih => exact ih (hstep _ _ _ h0 hs)

/-- An invariant of the state and of the events that have led to it. -/
theorem Run.history {J : List ε → σ → Prop} {s t : σ} {es : List ε} (h : Run step s es t)
    (h0 : J [] s)
    (hstep : ∀ pre e post s t, es = pre ++ e :: post → J pre s → step s e = some t →
      J (pre ++ [e]) t) : J es t := by
  induction h generalizing J with
  | nil => exact h0
  | cons hs _ ih =>
    refine ih (J := fun es t => J (_ :: es) t) (hstep [] _ _ _ _ rfl h0 hs) ?_
    intro pre e' post u v hpost
    exact hstep (_ :: pre) e' post u v (congrArg (List.cons _) hpost)

/-- Where each step has one of another machine between related states, so has each run. -/
theorem Run.simulate {τ : Type*} {step' : τ → ε → Option τ} {R : σ → τ → Prop} {s t : σ}
    {es : List ε} {u : τ} (h : Run step s es t) (h0 : R s u)
    (hstep : ∀ s e t u, R s u → step s e = some t → ∃ v, step' u e = some v ∧ R t v) :
    ∃ v, Run step' u es v ∧ R t v := by
  induction h generalizing u with
  | nil => exact ⟨u, .nil u, h0⟩
  | cons hs _ ih =>
    obtain ⟨v, hv, hR⟩ := hstep _ _ _ _ h0 hs
    obtain ⟨w, hrun, hw⟩ := ih hR
    exact ⟨w, .cons hv hrun, hw⟩

/-- Outputs that number themselves by a count of the state. -/
theorem Run.outputs_eq_range' {out : σ → ε → Option Nat} {s t : σ} {es : List ε}
    (h : Run step s es t) (count : σ → Nat) (h0 : I s) (hI : ∀ s e t, I s → step s e = some t → I t)
    (hout : ∀ s e t, I s → step s e = some t →
      out s e = none ∧ count t = count s ∨
        out s e = some (count s + 1) ∧ count t = count s + 1) :
    count s ≤ count t ∧
      outputs step out s es = List.range' (count s + 1) (count t - count s) := by
  induction h with
  | nil => simp [outputs]
  | @cons s v t e es hs _ ih =>
    obtain ⟨hle, hrest⟩ := ih (hI s e v h0 hs)
    simp only [outputs, hs, Option.elim_some, hrest]
    obtain ⟨hnone, hcount⟩ | ⟨hsome, hcount⟩ := hout s e v h0 hs
    · rw [hnone, hcount]
      exact ⟨hcount ▸ hle, rfl⟩
    · have hlen : count t - count s = count t - count v + 1 := by omega
      rw [hsome, hlen, List.range'_succ, hcount]
      exact ⟨by omega, rfl⟩

theorem Run.outputs_filter {β : Type*} {out out' : σ → ε → Option β} {p : β → Bool} {s t : σ}
    {es : List ε} (h : Run step s es t) (h0 : I s) (hI : ∀ s e t, I s → step s e = some t → I t)
    (hout : ∀ s e t, I s → step s e = some t → out' s e = (out s e).filter p) :
    outputs step out' s es = (outputs step out s es).filter p := by
  induction h with
  | nil => rfl
  | @cons s v t e es hs _ ih =>
    simp only [outputs, hs, Option.elim_some, ih (hI s e v h0 hs), hout s e v h0 hs,
      List.filter_append]
    congr 1
    cases out s e with
    | none => rfl
    | some b => cases hb : p b <;> simp [hb]

theorem throughout_of_forall {s : σ} {es : List ε} (h : ∀ s, ∀ e ∈ es, G s e) :
    Throughout step G s es := by
  induction es generalizing s with
  | nil => trivial
  | cons e es ih =>
    exact ⟨h s e (List.mem_cons_self ..), fun t _ => ih fun s e' he' =>
      h s e' (List.mem_cons_of_mem _ he')⟩

/-- What holds of an event of a run that meets the condition throughout. -/
theorem Throughout.at {s u : σ} {es es' : List ε} {e : ε} (h : Throughout step G s (es ++ e :: es'))
    (hrun : Run step s es u) : G u e := by
  induction hrun with
  | nil => exact h.1
  | cons hs _ ih => exact ih (h.2 _ hs)

theorem Throughout.mono {G' : σ → ε → Prop} {s : σ} {es : List ε} (h : Throughout step G s es)
    (hG : ∀ s e, G s e → G' s e) : Throughout step G' s es := by
  induction es generalizing s with
  | nil => trivial
  | cons e es ih => exact ⟨hG s e h.1, fun t ht => ih (h.2 t ht)⟩

theorem Throughout.and {G' : σ → ε → Prop} {s : σ} {es : List ε} (h : Throughout step G s es)
    (h' : Throughout step G' s es) : Throughout step (fun s e => G s e ∧ G' s e) s es := by
  induction es generalizing s with
  | nil => trivial
  | cons e es ih => exact ⟨⟨h.1, h'.1⟩, fun t ht => ih (h.2 t ht) (h'.2 t ht)⟩

/-- What follows, at each good event, from an invariant that good events preserve. -/
theorem Throughout.of_invariant {Q : σ → ε → Prop} {s : σ} {es : List ε}
    (hG : Throughout step G s es) (h0 : I s)
    (hstep : ∀ s e t, I s → G s e → step s e = some t → I t)
    (hQ : ∀ s e, I s → G s e → Q s e) : Throughout step Q s es := by
  induction es generalizing s with
  | nil => trivial
  | cons e es ih =>
    exact ⟨hQ s e h0 hG.1, fun t ht => ih (hG.2 t ht) (hstep s e t h0 hG.1 ht)⟩

/-- Two conditions that agree at each event that happens agree along a run, when events that meet
them keep the invariant under which they do. -/
theorem Run.throughout_iff {G' : σ → ε → Prop} {s t : σ} {es : List ε} (h : Run step s es t)
    (h0 : I s) (hstep : ∀ s e t, I s → G' s e → step s e = some t → I t)
    (hG : ∀ s e t, I s → step s e = some t → (G s e ↔ G' s e)) :
    Throughout step G s es ↔ Throughout step G' s es := by
  induction h with
  | nil => exact Iff.rfl
  | @cons s t u e es hs _ ih =>
    have tail (K : σ → ε → Prop) :
        (∀ t', step s e = some t' → Throughout step K t' es) ↔ Throughout step K t es :=
      ⟨fun h => h t hs, fun h t' ht' => Option.some.inj (hs.symm.trans ht') ▸ h⟩
    simp only [Throughout, tail, hG s e t h0 hs]
    exact and_congr_right fun hg => ih (hstep s e t h0 hg hs)

theorem Run.throughout_congr {G' : σ → ε → Prop} {s t : σ} {es : List ε} (h : Run step s es t)
    (h0 : I s) (hstep : ∀ s e t, I s → step s e = some t → I t)
    (hG : ∀ s e t, I s → step s e = some t → (G s e ↔ G' s e)) :
    Throughout step G s es ↔ Throughout step G' s es :=
  h.throughout_iff h0 (fun s e t hi _ => hstep s e t hi) hG

theorem Everywhere.head {s : σ} {es : List ε} (h : Everywhere step P s es) : P s := by
  cases es with
  | nil => exact h
  | cons _ _ => exact h.1

theorem Everywhere.mono {P' : σ → Prop} {s : σ} {es : List ε} (h : Everywhere step P s es)
    (hP : ∀ s, P s → P' s) : Everywhere step P' s es := by
  induction es generalizing s with
  | nil => exact hP s h
  | cons e es ih => exact ⟨hP s h.1, fun t ht => ih (h.2 t ht)⟩

/-- Every step of a run whose states all have the property leads to a state that has it. -/
theorem Everywhere.throughout {s : σ} {es : List ε} (h : Everywhere step P s es) :
    Throughout step (fun s e => ∀ t, step s e = some t → P t) s es := by
  induction es generalizing s with
  | nil => trivial
  | cons e es ih => exact ⟨fun t ht => (h.2 t ht).head, fun t ht => ih (h.2 t ht)⟩

/-- What holds at the end of a run and, with the invariant `I`, before a step whenever it holds
after it, holds after every step of the run. -/
theorem Run.throughout_of_last {R : σ → Prop} {s t : σ} {es : List ε} (h : Run step s es t)
    (ht : R t) (h0 : I s) (hstep : ∀ s e t, I s → step s e = some t → I t)
    (hback : ∀ s e t, I s → step s e = some t → R t → R s) :
    Throughout step (fun s e => ∀ t, step s e = some t → R t) s es ∧ R s := by
  induction h with
  | nil => exact ⟨trivial, ht⟩
  | cons hs _ ih =>
    obtain ⟨hthrough, hR⟩ := ih ht (hstep _ _ _ h0 hs)
    refine ⟨⟨fun u hu => ?_, fun u hu => ?_⟩, hback _ _ _ h0 hs hR⟩
    all_goals obtain rfl := Option.some.inj (hs.symm.trans hu)
    · exact hR
    · exact hthrough

/-- An invariant that good events preserve holds everywhere along a run of good events. -/
theorem everywhere_of_throughout {s : σ} {es : List ε} (h0 : I s)
    (hG : Throughout step G s es)
    (hstep : ∀ s e t, I s → G s e → step s e = some t → I t) : Everywhere step I s es := by
  induction es generalizing s with
  | nil => exact h0
  | cons e es ih => exact ⟨h0, fun t ht => ih (hstep s e t h0 hG.1 ht) (hG.2 t ht)⟩

/-- When the invariant gives the property, good events keep the invariant and a bad event leads out
of the property, the property holds everywhere along a run exactly when all its events are good.
`A` collects what is assumed of the events in either direction. -/
theorem everywhere_iff_throughout {A : σ → ε → Prop} {s t : σ} {es : List ε}
    (hrun : Run step s es t) (hA : Throughout step A s es) (h0 : I s)
    (hP : ∀ s, I s → P s)
    (hgood : ∀ s e t, I s → A s e → G s e → step s e = some t → I t)
    (hbad : ∀ s e t, I s → A s e → ¬G s e → step s e = some t → ¬P t) :
    Everywhere step P s es ↔ Throughout step G s es := by
  constructor
  · intro h
    induction hrun with
    | nil => trivial
    | @cons s t u e es hs _ ih =>
      have hg : G s e := by
        by_contra hng
        exact hbad s e t h0 hA.1 hng hs (h.2 t hs).head
      refine ⟨hg, ?_⟩
      intro t' ht'
      obtain rfl : t = t' := Option.some.inj (hs.symm.trans ht')
      exact ih (hA.2 t hs) (hgood s e t h0 hA.1 hg hs) (h.2 t hs)
  · intro h
    exact (everywhere_of_throughout (G := fun s e => A s e ∧ G s e) h0 (hA.and h)
      fun s e t hi hg hs => hgood s e t hi hg.1 hg.2 hs).mono hP

end Machine
