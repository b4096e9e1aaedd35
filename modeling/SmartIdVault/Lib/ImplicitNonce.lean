import SmartIdVault.Lib.Bytes

/-! Ciphers whose nonce is not sent.  Each side counts: the sender advances its nonce with every
message, the receiver with every message it can decrypt.  Over a channel that keeps the order but
drops messages, the receiver decrypts what arrives exactly as long as nothing has been dropped. -/

namespace ImplicitNonce

/-- An authenticated cipher; `decrypt` is `none` where it throws. -/
structure Suite (κ : Type) where
  encrypt : κ → Nat → Bytes → Bytes
  decrypt : κ → Nat → Bytes → Option Bytes

/-- A message decrypts under its own nonce, and under no other. -/
structure Suite.Lawful {κ : Type} (suite : Suite κ) : Prop where
  same : ∀ key n p, suite.decrypt key n (suite.encrypt key n p) = some p
  other : ∀ key n m p, m ≠ n → suite.decrypt key m (suite.encrypt key n p) = none

structure CipherState (κ : Type) where
  key : κ
  nonce : Nat

variable {κ : Type} (suite : Suite κ)

namespace CipherState

def advance (st : CipherState κ) : CipherState κ := { st with nonce := st.nonce + 1 }

def encrypt (st : CipherState κ) (p : Bytes) : Bytes × CipherState κ :=
  (suite.encrypt st.key st.nonce p, st.advance)

/-- A message that does not decrypt leaves the nonce as it is. -/
def decrypt (st : CipherState κ) (c : Bytes) : Option Bytes × CipherState κ :=
  match suite.decrypt st.key st.nonce c with
  | some p => (some p, st.advance)
  | none => (none, st)

/-- The ciphertexts of messages that are encrypted one after the other. -/
def encryptAll (st : CipherState κ) : List Bytes → List Bytes
  | [] => []
  | p :: ps => (st.encrypt suite p).1 :: encryptAll (st.encrypt suite p).2 ps

/-- What the ciphertexts decrypt to, one after the other. -/
def decryptAll (st : CipherState κ) : List Bytes → List (Option Bytes)
  | [] => []
  | c :: cs => (st.decrypt suite c).1 :: decryptAll (st.decrypt suite c).2 cs

end CipherState

/-- What is left of `xs` when the channel keeps the elements marked `true`. -/
def deliver {α : Type} : List Bool → List α → List α
  | true :: bs, x :: xs => x :: deliver bs xs
  | false :: bs, _ :: xs => deliver bs xs
  | _, _ => []

/-- Nothing that is kept comes after something that is dropped. -/
def DropsOnlyAtEnd (kept : List Bool) : Prop := kept.Pairwise fun b b' => b' = true → b = true

instance (kept : List Bool) : Decidable (DropsOnlyAtEnd kept) :=
  inferInstanceAs (Decidable (kept.Pairwise fun b b' => b' = true → b = true))

variable {suite} {st st' : CipherState κ}

theorem deliver_map {α β : Type} (f : α → β) (kept : List Bool) (xs : List α) :
    deliver kept (xs.map f) = (deliver kept xs).map f := by
  induction xs generalizing kept with
  | nil => match kept with
    | [] => rfl
    | true :: _ => rfl
    | false :: _ => rfl
  | cons x xs ih => match kept with
    | [] => rfl
    | true :: bs => simp [deliver, ih bs]
    | false :: bs => simp [deliver, ih bs]

theorem deliver_eq_nil_iff {α : Type} (kept : List Bool) (xs : List α)
    (hlen : kept.length = xs.length) : deliver kept xs = [] ↔ ∀ b ∈ kept, b = false := by
  fun_induction deliver kept xs with
  | case1 bs x xs ih => simp
  | case2 bs x xs ih => simpa using ih (Nat.succ.inj hlen)
  | case3 bs xs h1 h2 =>
    match bs, xs with
    | [], _ => simp
    | _ :: _, [] => simp at hlen
    | true :: bs, x :: xs => exact (h1 bs x xs rfl rfl).elim
    | false :: bs, x :: xs => exact (h2 bs x xs rfl rfl).elim

/-- A receiver that is behind decrypts nothing any more. -/
theorem decryptAll_of_behind (hlaw : suite.Lawful) (hkey : st'.key = st.key)
    (hlt : st'.nonce < st.nonce) (kept : List Bool) (ps : List Bytes) :
    st'.decryptAll suite (deliver kept (st.encryptAll suite ps)) =
      (deliver kept ps).map fun _ => none := by
  induction ps generalizing st kept with
  | nil => cases kept with
    | nil => rfl
    | cons b bs => cases b <;> rfl
  | cons p ps ih =>
    have hkey' : st'.key = st.advance.key := hkey
    have hadv : st'.nonce < st.advance.nonce := Nat.lt_succ_of_lt hlt
    match kept with
    | [] => rfl
    | false :: bs => exact ih hkey' hadv bs
    | true :: bs =>
      have hfail : st'.decrypt suite (st.encrypt suite p).1 = (none, st') := by
        simp only [CipherState.decrypt, CipherState.encrypt, hkey,
          hlaw.other st.key st.nonce st'.nonce p (Nat.ne_of_lt hlt)]
      simp only [CipherState.encryptAll, deliver, CipherState.decryptAll, hfail, List.map_cons]
      rw [← ih hkey' hadv bs]
      rfl

/-- A receiver in step with the sender decrypts all that is delivered to what was sent if and only
if no message is dropped before one that is delivered. -/
theorem decryptAll_iff (hlaw : suite.Lawful) (kept : List Bool) (ps : List Bytes)
    (hlen : kept.length = ps.length) :
    st.decryptAll suite (deliver kept (st.encryptAll suite ps)) = (deliver kept ps).map some ↔
      DropsOnlyAtEnd kept := by
  induction ps generalizing st kept with
  | nil =>
    obtain rfl := List.eq_nil_of_length_eq_zero hlen
    simp [deliver, CipherState.decryptAll, DropsOnlyAtEnd]
  | cons p ps ih =>
    match kept, hlen with
    | true :: bs, hlen =>
      have hok : st.decrypt suite (st.encrypt suite p).1 = (some p, st.advance) := by
        simp only [CipherState.decrypt, CipherState.encrypt, hlaw.same]
      have hrest := @ih st.advance bs (Nat.succ.inj hlen)
      simp only [CipherState.encryptAll, deliver, CipherState.decryptAll, hok, List.map_cons,
        List.cons.injEq, true_and, DropsOnlyAtEnd, List.pairwise_cons, implies_true]
      exact hrest
    | false :: bs, hlen =>
      have hbehind : st.decryptAll suite (deliver bs (st.advance.encryptAll suite ps)) =
          (deliver bs ps).map fun _ => none :=
        decryptAll_of_behind hlaw (show st.key = st.advance.key from rfl)
          (Nat.lt_succ_self _) bs ps
      have hnone : (deliver bs ps).map (fun _ => (none : Option Bytes)) = (deliver bs ps).map some ↔
          deliver bs ps = [] := by
        cases deliver bs ps <;> simp
      have hend : DropsOnlyAtEnd (false :: bs) ↔ ∀ b ∈ bs, b = false := by
        simp only [DropsOnlyAtEnd, List.pairwise_cons, Bool.false_eq_true, imp_false,
          Bool.not_eq_true]
        apply and_iff_left_of_imp
        intro h
        exact List.pairwise_of_forall_mem_list fun b hb b' hb' ht => by simp [h b' hb'] at ht
      calc st.decryptAll suite (deliver (false :: bs) (st.encryptAll suite (p :: ps))) =
            (deliver (false :: bs) (p :: ps)).map some
          ↔ (deliver bs ps).map (fun _ => none) = (deliver bs ps).map some := by
            rw [← hbehind]
            rfl
        _ ↔ deliver bs ps = [] := hnone
        _ ↔ ∀ b ∈ bs, b = false := deliver_eq_nil_iff bs ps (Nat.succ.inj hlen)
        _ ↔ DropsOnlyAtEnd (false :: bs) := hend.symm

end ImplicitNonce
