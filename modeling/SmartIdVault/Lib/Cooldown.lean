import Mathlib.Algebra.Order.Group.Defs
import Mathlib.Algebra.Order.Group.Unbundled.Basic
import Mathlib.Data.List.Induction

/-! Events with keys, of which a key's next one is let through when its last one is at least `w`
ago.  The log of these events is the reference.  A table of the last event of each key tells which
keys rest, and it may forget an event that is `w` ago. -/

namespace Cooldown

variable {κ T : Type*} [AddCommGroup T] [LinearOrder T]

/-- The key had an event less than `w` before `t`. -/
def Resting (w : T) (log : List (κ × T)) (k : κ) (t : T) : Prop := ∃ e ∈ log, e.1 = k ∧ t - e.2 < w

instance [DecidableEq κ] (w : T) (log : List (κ × T)) (k : κ) (t : T) :
    Decidable (Resting w log k t) := List.decidableBEx _ log

section Log

variable [DecidableEq κ] {w t : T} {log : List (κ × T)} {k : κ}

/-- The log after the event `e`, which is let through unless its key rests. -/
def offer (w : T) (log : List (κ × T)) (e : κ × T) : List (κ × T) :=
  if Resting w log e.1 e.2 then log else log ++ [e]

/-- The log of the events that are let through. -/
def admitted (w : T) (es : List (κ × T)) : List (κ × T) := es.foldl (offer w) []

theorem admitted_snoc (w : T) (es : List (κ × T)) (e : κ × T) :
    admitted w (es ++ [e]) = offer w (admitted w es) e := by
  rw [admitted, List.foldl_append]
  rfl

/-- Whether a key rests is told by its own events. -/
theorem resting_filter : Resting w (log.filter (·.1 = k)) k t ↔ Resting w log k t := by
  constructor
  · rintro ⟨e, he, hk, hlt⟩
    exact ⟨e, (List.mem_filter.mp he).1, hk, hlt⟩
  · rintro ⟨e, he, hk, hlt⟩
    exact ⟨e, List.mem_filter.mpr ⟨he, decide_eq_true hk⟩, hk, hlt⟩

theorem filter_offer (e : κ × T) : (offer w log e).filter (·.1 = k) =
    if e.1 = k then offer w (log.filter (·.1 = k)) e else log.filter (·.1 = k) := by
  split
  next hk =>
    subst hk
    simp only [offer, resting_filter]
    split
    · rfl
    · simp [List.filter_append]
  next hk =>
    rw [offer]
    split
    · rfl
    · simp [List.filter_append, hk]

/-- The events of one key are let through as if there were no others. -/
theorem filter_admitted (es : List (κ × T)) (k : κ) :
    (admitted w es).filter (·.1 = k) = admitted w (es.filter (·.1 = k)) := by
  induction es using List.reverseRecOn with
  | nil => rfl
  | append_singleton es e ih =>
    rw [admitted_snoc, filter_offer, ih, List.filter_append]
    split
    next hk =>
      rw [List.filter_cons_of_pos (by simpa using hk), List.filter_nil, admitted_snoc]
    next hk =>
      rw [List.filter_cons_of_neg (by simpa using hk), List.filter_nil, List.append_nil]

theorem resting_admitted_filter (es : List (κ × T)) :
    Resting w (admitted w (es.filter (·.1 = k))) k t ↔ Resting w (admitted w es) k t := by
  rw [← filter_admitted, resting_filter]

/-- Two events of one key that were let through are at least `w` apart. -/
theorem admitted_apart (w : T) (es : List (κ × T)) :
    (admitted w es).Pairwise fun a b => a.1 = b.1 → w ≤ b.2 - a.2 := by
  induction es using List.reverseRecOn with
  | nil => exact .nil
  | append_singleton es e ih =>
    rw [admitted_snoc, offer]
    split
    · exact ih
    · rename_i hrested
      refine List.pairwise_append.mpr ⟨ih, List.pairwise_singleton _ _, ?_⟩
      intro a ha b hb hkey
      rw [List.mem_singleton.mp hb] at hkey ⊢
      exact not_lt.mp fun hlt => hrested ⟨a, ha, hkey, hlt⟩

end Log

/-! ### Tables -/

/-- At `now` the table has the last event of each key in the log, but for some that are `w` ago. -/
structure Tracks (w now : T) (log : List (κ × T)) (last : κ → Option T) : Prop where
  latest : ∀ k t, last k = some t → (k, t) ∈ log ∧ ∀ t', (k, t') ∈ log → t' ≤ t
  forgotten : ∀ k, last k = none → ∀ t, (k, t) ∈ log → w ≤ now - t

section Tables

variable {w now t : T} {log : List (κ × T)} {last last' : κ → Option T}
  {k : κ}

theorem Tracks.init (w now : T) : Tracks w now ([] : List (κ × T)) fun _ => none where
  latest _ _ h := by cases h
  forgotten _ _ _ h := by cases h

/-- An event now, after all others, is the last one of its key. -/
theorem Tracks.record [DecidableEq κ] (h : Tracks w now log last) (hpast : ∀ e ∈ log, e.2 ≤ now)
    (k : κ) : Tracks w now (log ++ [(k, now)]) fun k' => if k' = k then some now else last k' where
  latest k' t ht := by
    split at ht
    next hk =>
      obtain rfl := Option.some.inj ht
      subst hk
      refine ⟨by simp, ?_⟩
      intro t' ht'
      rcases List.mem_append.mp ht' with ht' | ht'
      · exact hpast _ ht'
      · exact (Prod.mk.inj (List.mem_singleton.mp ht')).2.le
    next hk =>
      obtain ⟨hmem, hlatest⟩ := h.latest k' t ht
      refine ⟨List.mem_append_left _ hmem, ?_⟩
      intro t' ht'
      rcases List.mem_append.mp ht' with ht' | ht'
      · exact hlatest t' ht'
      · exact absurd (Prod.mk.inj (List.mem_singleton.mp ht')).1 hk
  forgotten k' hlast t ht := by
    split at hlast
    next => cases hlast
    next hk =>
      rcases List.mem_append.mp ht with ht | ht
      · exact h.forgotten k' hlast t ht
      · exact absurd (Prod.mk.inj (List.mem_singleton.mp ht)).1 hk

variable [IsOrderedAddMonoid T]

/-- The table tells which keys rest. -/
theorem Tracks.resting_iff (h : Tracks w now log last) :
    Resting w log k now ↔ ∃ t ∈ last k, now - t < w := by
  constructor
  · rintro ⟨⟨k, t⟩, he, rfl, hlt⟩
    cases hlast : last k with
    | none => exact absurd (h.forgotten k hlast t he) (not_le.mpr hlt)
    | some t' =>
      have hle := (h.latest k t' hlast).2 t he
      exact ⟨t', rfl, lt_of_le_of_lt (sub_le_sub_left hle now) hlt⟩
  · rintro ⟨t, hlast, hlt⟩
    exact ⟨(k, t), (h.latest k t hlast).1, rfl, hlt⟩

theorem Tracks.later (h : Tracks w now log last) (hle : now ≤ t) : Tracks w t log last where
  latest := h.latest
  forgotten k hlast t' ht' := (h.forgotten k hlast t' ht').trans (sub_le_sub_right hle t')

/-- The table may forget what is `w` ago. -/
theorem Tracks.forget (h : Tracks w now log last)
    (hlast : ∀ k, last' k = last k ∨ last' k = none ∧ ∀ t ∈ last k, w ≤ now - t) :
    Tracks w now log last' where
  latest k t ht := by
    rcases hlast k with hsame | ⟨hnone, -⟩
    · exact h.latest k t (hsame ▸ ht)
    · cases hnone.symm.trans ht
  forgotten k hnone t ht := by
    rcases hlast k with hsame | ⟨-, hold⟩
    · exact h.forgotten k (hsame ▸ hnone) t ht
    · cases hk : last k with
      | none => exact h.forgotten k hk t ht
      | some t' => exact (hold t' hk).trans (sub_le_sub_left ((h.latest k t' hk).2 t ht) now)

end Tables

end Cooldown
