import SmartIdVault.Lib.Machine
import Mathlib.Data.List.Basic

/-! Numbered sealing under changing keys.  A ledger has at most one key in use, with the number that
the next message will get.  Sealing a message logs it under that key and number; the number is used
up when the message is kept, and taken again when it is not.  The question is when no two different
messages share a key and a number: exactly when a message that follows an unkept one under the same
key is that message again. -/

namespace NonceLedger

variable {K P : Type*}

structure Entry (K P : Type*) where
  key : K
  number : Nat
  message : P
  kept : Bool

/-- The key in use with its next number, all keys so far, and all sealed messages so far. -/
structure Ledger (K P : Type*) where
  active : Option (K × Nat)
  used : List K
  log : List (Entry K P)

inductive Move (K P : Type*)
  | stay
  -- no key is in use any more
  | drop
  -- a new key comes into use
  | adopt (key : K)
  -- a new key is made and thrown away
  | discard (key : K)
  | put (message : P) (kept : Bool)

def step (l : Ledger K P) : Move K P → Ledger K P
  | .stay => l
  | .drop => { l with active := none }
  | .adopt key => { l with active := some (key, 0), used := l.used ++ [key] }
  | .discard key => { l with used := l.used ++ [key] }
  | .put message kept =>
    match l.active with
    | none => l
    | some (key, number) =>
      { l with
        active := some (key, if kept then number + 1 else number)
        log := l.log ++ [⟨key, number, message, kept⟩] }

/-- No two different messages share a key and a number. -/
def Unique (l : Ledger K P) : Prop :=
  ∀ x ∈ l.log, ∀ y ∈ l.log, x.key = y.key → x.number = y.number → x.message = y.message

/-- A key that a move brings in is new. -/
def Fresh (l : Ledger K P) : Move K P → Prop
  | .adopt key | .discard key => key ∉ l.used
  | _ => True

/-- A message sealed right after an unkept one under the same key is that one again. -/
def Repeats (l : Ledger K P) : Move K P → Prop
  | .put message _ => ∀ key number, l.active = some (key, number) →
      ∀ last ∈ l.log.getLast?, last.key = key → last.kept = false → last.message = message
  | _ => True

/-- What holds between the key in use and the log.  A number under that key is below the next one,
or it is the next one and belongs to the message that was not kept. -/
structure Inv (l : Ledger K P) : Prop where
  unique : Unique l
  logged : ∀ x ∈ l.log, x.key ∈ l.used
  active : ∀ key number, l.active = some (key, number) → key ∈ l.used
  below : ∀ key number, l.active = some (key, number) → ∀ x ∈ l.log, x.key = key →
    x.number < number ∨ x.number = number ∧
      ∃ last ∈ l.log.getLast?, last.key = key ∧ last.kept = false ∧ last.message = x.message
  last : ∀ key number, l.active = some (key, number) → ∀ x ∈ l.log.getLast?, x.key = key →
    x.kept = false → x.number = number

theorem Inv.init : Inv (⟨none, [], []⟩ : Ledger K P) where
  unique := by simp [Unique]
  logged := by simp
  active := by simp
  below := by simp
  last := by simp

theorem Inv.drop {l : Ledger K P} (h : Inv l) : Inv (step l .drop) where
  unique := h.unique
  logged := h.logged
  active := by simp [step]
  below := by simp [step]
  last := by simp [step]

theorem Inv.discard {l : Ledger K P} (h : Inv l) (key : K) : Inv (step l (.discard key)) where
  unique := h.unique
  logged x hx := List.mem_append_left _ (h.logged x hx)
  active k n hk := List.mem_append_left _ (h.active k n hk)
  below := h.below
  last := h.last

theorem Inv.adopt {l : Ledger K P} (h : Inv l) {key : K} (hk : key ∉ l.used) :
    Inv (step l (.adopt key)) := by
  -- nothing is logged under a new key, so the clauses about the key in use are empty
  have new : ∀ x ∈ l.log, x.key ≠ key := fun x hx e => hk (e ▸ h.logged x hx)
  refine ⟨h.unique, fun x hx => List.mem_append_left _ (h.logged x hx), ?_, ?_, ?_⟩
  · rintro k n hkn
    simp only [step, Option.some.injEq, Prod.mk.injEq] at hkn
    simp [step, hkn.1]
  · rintro k n hkn x hx rfl
    simp only [step, Option.some.injEq, Prod.mk.injEq] at hkn
    exact absurd hkn.1.symm (new x hx)
  · rintro k n hkn x hx rfl
    simp only [step, Option.some.injEq, Prod.mk.injEq] at hkn
    exact absurd hkn.1.symm (new x (List.mem_of_mem_getLast? hx))

theorem Inv.put {l : Ledger K P} (h : Inv l) {message : P} {kept : Bool}
    (hr : Repeats l (.put message kept)) : Inv (step l (.put message kept)) := by
  cases hact : l.active with
  | none => simpa [step, hact] using h
  | some kn =>
    obtain ⟨key, number⟩ := kn
    -- an entry with this key is older, or it is the same message under the same number
    have old : ∀ x ∈ l.log, x.key = key →
        x.number < number ∨ x.number = number ∧ x.message = message := by
      intro x hx hk
      rcases h.below key number hact x hx hk with hlt | ⟨heq, last, hl, hlk, hlf, hlm⟩
      · exact .inl hlt
      · exact .inr ⟨heq, hlm ▸ hr key number hact last hl hlk hlf⟩
    have logEq : (step l (.put message kept)).log = l.log ++ [⟨key, number, message, kept⟩] := by
      simp [step, hact]
    have actEq : (step l (.put message kept)).active =
        some (key, if kept then number + 1 else number) := by
      simp [step, hact]
    have usedEq : (step l (.put message kept)).used = l.used := by simp [step, hact]
    have memLog : ∀ x, x ∈ (step l (.put message kept)).log ↔
        x ∈ l.log ∨ x = ⟨key, number, message, kept⟩ := by
      simp [logEq]
    constructor
    · intro x hx y hy hk hn
      rcases (memLog x).mp hx with hx | rfl <;> rcases (memLog y).mp hy with hy | rfl
      · exact h.unique x hx y hy hk hn
      · rcases old x hx hk with hlt | ⟨-, hm⟩
        · exact absurd hn (Nat.ne_of_lt hlt)
        · exact hm
      · rcases old y hy hk.symm with hlt | ⟨-, hm⟩
        · exact absurd hn.symm (Nat.ne_of_lt hlt)
        · exact hm.symm
      · rfl
    · intro x hx
      rw [usedEq]
      rcases (memLog x).mp hx with hx | rfl
      · exact h.logged x hx
      · exact h.active key number hact
    · intro k n hkn
      rw [actEq, Option.some.injEq, Prod.mk.injEq] at hkn
      rw [usedEq, ← hkn.1]
      exact h.active key number hact
    · intro k n hkn x hx hk
      rw [actEq, Option.some.injEq, Prod.mk.injEq] at hkn
      obtain ⟨rfl, rfl⟩ := hkn
      rw [logEq, List.getLast?_concat]
      cases kept with
      | true =>
        left
        rcases (memLog x).mp hx with hx | rfl
        · rcases old x hx hk with hlt | ⟨heq, -⟩ <;> simp <;> omega
        · simp
      | false =>
        rcases (memLog x).mp hx with hx | rfl
        · rcases old x hx hk with hlt | ⟨heq, hm⟩
          · exact .inl (by simpa using hlt)
          · exact .inr ⟨by simpa using heq, _, rfl, rfl, rfl, hm.symm⟩
        · exact .inr ⟨rfl, _, rfl, rfl, rfl, rfl⟩
    · intro k n hkn x hx hk hf
      rw [logEq, List.getLast?_concat, Option.mem_some_iff] at hx
      rw [actEq, Option.some.injEq, Prod.mk.injEq] at hkn
      subst hx
      simp only at hf
      rw [← hkn.2, hf]
      rfl

theorem Inv.step {l : Ledger K P} (h : Inv l) {m : Move K P} (hf : Fresh l m) (hr : Repeats l m) :
    Inv (step l m) := by
  cases m with
  | stay => exact h
  | drop => exact h.drop
  | adopt key => exact h.adopt hf
  | discard key => exact h.discard key
  | put message kept => exact h.put hr

theorem Inv.not_unique {l : Ledger K P} (h : Inv l) {m : Move K P} (hr : ¬Repeats l m) :
    ¬Unique (NonceLedger.step l m) := by
  cases m with
  | put message kept =>
    simp only [Repeats, not_forall] at hr
    obtain ⟨key, number, hact, last, hl, hk, hf, hm⟩ := hr
    intro hu
    have hlog : (NonceLedger.step l (.put message kept)).log =
        l.log ++ [⟨key, number, message, kept⟩] := by simp [NonceLedger.step, hact]
    refine hm (hu last ?_ ⟨key, number, message, kept⟩ ?_ hk (h.last key number hact last hl hk hf))
    · rw [hlog]
      exact List.mem_append_left _ (List.mem_of_mem_getLast? hl)
    · simp [hlog]
  | _ => exact absurd trivial hr

end NonceLedger
