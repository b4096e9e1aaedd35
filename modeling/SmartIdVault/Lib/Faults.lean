/-! Calls that may fail, one after another: the first one that fails ends the run, and what the
calls before it have done to the state stays done. -/

namespace Faults

variable {κ ε σ : Type}

/-- How a run ends, and the state it leaves. -/
abbrev Result (ε σ : Type) := Except ε Unit × σ

/-- A call that fails without an effect, or has its effect. -/
def call (fails : κ → Bool) (c : κ) (err : ε) (effect : σ → σ) (s : σ) : Result ε σ :=
  if fails c then (.error err, s) else (.ok (), effect s)

def andThen (r : Result ε σ) (next : σ → Result ε σ) : Result ε σ :=
  match r with
  | (.ok (), s) => next s
  | (.error err, s) => (.error err, s)

@[simp] theorem andThen_ok (s : σ) (next : σ → Result ε σ) :
    andThen (.ok (), s) next = next s := rfl

@[simp] theorem andThen_error (err : ε) (s : σ) (next : σ → Result ε σ) :
    andThen (.error err, s) next = (.error err, s) := rfl

@[simp] theorem call_of_fails {fails : κ → Bool} {c : κ} (h : fails c = true) (err : ε)
    (effect : σ → σ) (s : σ) : call fails c err effect s = (.error err, s) := if_pos h

@[simp] theorem call_of_not_fails {fails : κ → Bool} {c : κ} (h : fails c = false) (err : ε)
    (effect : σ → σ) (s : σ) : call fails c err effect s = (.ok (), effect s) :=
  if_neg (Bool.eq_false_iff.mp h)

/-- A computation that succeeds has succeeded in both its parts. -/
theorem bind_eq_ok {α β : Type} {x : Except ε α} {f : α → Except ε β} {b : β} :
    x >>= f = .ok b ↔ ∃ a, x = .ok a ∧ f a = .ok b := by
  constructor
  · intro h
    cases x with
    | error err => cases h
    | ok a => exact ⟨a, rfl, h⟩
  · rintro ⟨a, rfl, h⟩
    exact h

end Faults
