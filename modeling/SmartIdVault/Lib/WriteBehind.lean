import Mathlib.Data.List.Forall2
import SmartIdVault.Lib.Machine

/-! A store that is edited in memory and written behind.  Each edit leaves a snapshot for the disk;
the snapshots are written in order, and a write may fail.  A restart begins with what is on the
disk, and the snapshots that wait are lost.  Two such stores whose contents stay related answer
alike, restarts included. -/

structure WriteBehind (σ : Type*) where
  memory : σ
  waiting : List σ := []
  disk : σ

namespace WriteBehind

variable {σ τ ι ω : Type*}

/-- A store whose file has these contents. -/
def opened (contents : σ) : WriteBehind σ := { memory := contents, disk := contents }

def edit (s : WriteBehind σ) (contents : σ) : WriteBehind σ :=
  { s with memory := contents, waiting := s.waiting ++ [contents] }

inductive Event (ι : Type*)
  | call (c : ι)
  | written
  | writeFails
  | restart

/-- `edits a c` are the contents after call `c` on the contents `a`, or `none` where it changes
nothing. -/
def step (edits : σ → ι → Option σ) (s : WriteBehind σ) : Event ι → Option (WriteBehind σ)
  | .call c => some ((edits s.memory c).elim s s.edit)
  | .written =>
    match s.waiting with
    | [] => none
    | contents :: waiting => some { s with disk := contents, waiting }
  | .writeFails =>
    match s.waiting with
    | [] => none
    | _ :: waiting => some { s with waiting }
  | .restart => some (opened s.disk)

def answer (answers : σ → ι → ω) (s : WriteBehind σ) : Event ι → Option ω
  | .call c => some (answers s.memory c)
  | _ => none

/-- All contents of the one store are related to those of the other. -/
structure Related (R : σ → τ → Prop) (s : WriteBehind σ) (t : WriteBehind τ) : Prop where
  memory : R s.memory t.memory
  waiting : List.Forall₂ R s.waiting t.waiting
  disk : R s.disk t.disk

variable {R : σ → τ → Prop} {s : WriteBehind σ} {t : WriteBehind τ}
  {edits : σ → ι → Option σ} {edits' : τ → ι → Option τ}
  {answers : σ → ι → ω} {answers' : τ → ι → ω}

theorem related_opened {a : σ} {b : τ} (h : R a b) : Related R (opened a) (opened b) :=
  ⟨h, .nil, h⟩

theorem Related.edit (h : Related R s t) {a : σ} {b : τ} (hab : R a b) :
    Related R (s.edit a) (t.edit b) :=
  ⟨hab, List.rel_append h.waiting (.cons hab .nil), h.disk⟩

/-- Related stores take the same steps. -/
theorem Related.step (hedits : ∀ a b c, R a b → Option.Rel R (edits a c) (edits' b c))
    (h : Related R s t) (e : Event ι) :
    Option.Rel (Related R) (WriteBehind.step edits s e) (WriteBehind.step edits' t e) := by
  cases e with
  | call c =>
    refine .some ?_
    have hc := hedits _ _ c h.memory
    generalize edits s.memory c = a at hc
    generalize edits' t.memory c = b at hc
    cases hc with
    | none => exact h
    | some hab => exact h.edit hab
  | restart => exact .some (related_opened h.disk)
  | written =>
    obtain ⟨memory, waiting, disk⟩ := s
    obtain ⟨memory', waiting', disk'⟩ := t
    obtain ⟨hmemory, hwaiting, hdisk⟩ := h
    cases hwaiting with
    | nil => exact .none
    | cons hab hrest => exact .some ⟨hmemory, hrest, hab⟩
  | writeFails =>
    obtain ⟨memory, waiting, disk⟩ := s
    obtain ⟨memory', waiting', disk'⟩ := t
    obtain ⟨hmemory, hwaiting, hdisk⟩ := h
    cases hwaiting with
    | nil => exact .none
    | cons hab hrest => exact .some ⟨hmemory, hrest, hdisk⟩

theorem Related.outputs_eq (hedits : ∀ a b c, R a b → Option.Rel R (edits a c) (edits' b c))
    (hanswers : ∀ a b c, R a b → answers a c = answers' b c) (h : Related R s t)
    (es : List (Event ι)) :
    Machine.outputs (WriteBehind.step edits) (answer answers) s es =
      Machine.outputs (WriteBehind.step edits') (answer answers') t es := by
  induction es generalizing s t with
  | nil => rfl
  | cons e es ih =>
    have hanswer : answer answers s e = answer answers' t e := by
      cases e with
      | call c => exact congrArg some (hanswers _ _ c h.memory)
      | written | writeFails | restart => rfl
    have hstep := h.step hedits e
    rw [Machine.outputs, Machine.outputs, hanswer]
    generalize WriteBehind.step edits s e = s' at hstep
    generalize WriteBehind.step edits' t e = t' at hstep
    cases hstep with
    | none => rfl
    | some h' => exact congrArg _ (ih h')

end WriteBehind
