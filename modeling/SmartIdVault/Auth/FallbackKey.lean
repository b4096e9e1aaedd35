import SmartIdVault.Lib.Base64
import SmartIdVault.Lib.Machine
import SmartIdVault.Lib.Utf

/-! The key pair under a PIN of `lib/crypto/fallbackAuth.ts`.  The four texts of a key pair are
written and removed together, so that calls which interleave on the storage find those of one key
pair or none: the storage refines a vault that holds the last key pair with its PIN. -/

namespace SmartIdVault.Auth

open Utf16 (ofString)
open Utf8 (textEncode)

/-- `crypto.subtle` with private and public keys of ECDSA and the keys that PBKDF2 derives from the
bytes of a PIN and a salt; a promise that rejects is `none`. -/
structure WebCrypto where
  PrivateKey : Type
  PublicKey : Type
  PinKey : Type
  exportPkcs8 : PrivateKey → Bytes
  exportSpki : PublicKey → Bytes
  importPkcs8 : Bytes → Option PrivateKey
  importSpki : Bytes → Option PublicKey
  deriveKey : Bytes → Bytes → PinKey
  encrypt : PinKey → Bytes → Bytes → Bytes
  decrypt : PinKey → Bytes → Bytes → Option Bytes
  importError : String
  atobError : String
  importPkcs8_exportPkcs8 : ∀ key, importPkcs8 (exportPkcs8 key) = some key
  importSpki_exportSpki : ∀ key, importSpki (exportSpki key) = some key
  exportSpki_ne_nil : ∀ key, exportSpki key ≠ []
  decrypt_encrypt : ∀ key iv data, decrypt key iv (encrypt key iv data) = some data
  -- there is a tag
  encrypt_ne_nil : ∀ key iv data, encrypt key iv data ≠ []

namespace WebCrypto

variable (crypto : WebCrypto)

abbrev KeyPair : Type := crypto.PrivateKey × crypto.PublicKey

/-- `derivePinKey`. -/
def derivePinKey (pin : Utf16) (salt : Bytes) : crypto.PinKey :=
  crypto.deriveKey (textEncode pin) salt

/-- What a call of `generateAndStoreKeypair` is for, and what it has drawn. -/
structure Generation where
  pin : Utf16
  keypair : crypto.KeyPair
  salt : Bytes
  iv : Bytes
  length_salt : salt.length = 16
  length_iv : iv.length = 12

/-! ### The storage -/

/-- What `chrome.storage.local` has under the four keys. -/
structure FallbackStorage where
  salt : Option (List Char) := none
  iv : Option (List Char) := none
  encryptedPk : Option (List Char) := none
  publicKey : Option (List Char) := none
  deriving DecidableEq, Repr

variable {crypto} in
def Generation.encryptedPrivateKey (g : crypto.Generation) : Bytes :=
  crypto.encrypt (crypto.derivePinKey g.pin g.salt) g.iv (crypto.exportPkcs8 g.keypair.1)

variable {crypto} in
/-- What `generateAndStoreKeypair` stores; `bufferToBase64` is `btoa` of the bytes. -/
def Generation.stored (g : crypto.Generation) : FallbackStorage where
  salt := some (Base64.encode g.salt)
  iv := some (Base64.encode g.iv)
  encryptedPk := some (Base64.encode g.encryptedPrivateKey)
  publicKey := some (Base64.encode (crypto.exportSpki g.keypair.2))

/-- A text that is there and not empty. -/
def truthy (text : Option (List Char)) : Option (List Char) := text.filter (· ≠ [])

/-- `unlockKeypair` from what it has read on; `base64ToBuffer` throws where `atob` does. -/
def unlockStored (result : FallbackStorage) (pin : Utf16) : Except String crypto.KeyPair :=
  match truthy result.salt, truthy result.iv, truthy result.encryptedPk,
    truthy result.publicKey with
  | some salt, some iv, some encryptedPk, some publicKeyB64 => do
    let salt ← (Base64.atob salt).elim (.error crypto.atobError) .ok
    let pinKey := crypto.derivePinKey pin salt
    let decrypted : Option Bytes := do
      let iv ← Base64.atob iv
      let data ← Base64.atob encryptedPk
      crypto.decrypt pinKey iv data
    let decryptedPkcs8 ← decrypted.elim (.error "Invalid PIN") .ok
    let privateKey ← (crypto.importPkcs8 decryptedPkcs8).elim (.error crypto.importError) .ok
    let spki ← (Base64.atob publicKeyB64).elim (.error crypto.atobError) .ok
    let publicKey ← (crypto.importSpki spki).elim (.error crypto.importError) .ok
    return (privateKey, publicKey)
  | _, _, _, _ => .error "No stored keypair found"

/-! ### The calls -/

/-- What a call does to the storage, or reads there. -/
inductive FallbackCall
  | generateAndStoreKeypair (g : crypto.Generation)
  | unlockKeypair (pin : Utf16)
  | hasStoredKeypair
  | clearStoredKeypair

/-- How a call ends whose request the storage has answered. -/
inductive FallbackOutcome
  | stored (keypair : crypto.KeyPair)
  | unlocked (pin : Utf16) (result : Except String crypto.KeyPair)
  | has (found : Bool)
  | cleared

/-- What the calls make of something that holds a key pair. -/
structure Backend (σ : Type) where
  put : crypto.Generation → σ
  cleared : σ
  unlock : σ → Utf16 → Except String crypto.KeyPair
  has : σ → Bool

variable {crypto}

/-- What the storage holds, the calls whose requests it has not answered, and how the others have
ended. -/
structure FallbackState (crypto : WebCrypto) (σ : Type) where
  held : σ
  calls : List crypto.FallbackCall := []
  outcomes : List crypto.FallbackOutcome := []

inductive FallbackEvent (crypto : WebCrypto)
  | called (c : crypto.FallbackCall)
  -- the storage answers the request of call `i`, or fails
  | answered (i : Nat) (ok : Bool)

namespace Backend

variable {σ : Type} (b : crypto.Backend σ)

/-- The answer to a request. -/
def answer (held : σ) : crypto.FallbackCall → σ × crypto.FallbackOutcome
  | .generateAndStoreKeypair g => (b.put g, .stored g.keypair)
  | .unlockKeypair pin => (held, .unlocked pin (b.unlock held pin))
  | .hasStoredKeypair => (held, .has (b.has held))
  | .clearStoredKeypair => (b.cleared, .cleared)

def step (s : FallbackState crypto σ) : FallbackEvent crypto → Option (FallbackState crypto σ)
  | .called c => some { s with calls := s.calls ++ [c] }
  | .answered i ok =>
    s.calls[i]?.map fun c =>
      if ok then
        { held := (b.answer s.held c).1
          calls := s.calls.eraseIdx i
          outcomes := s.outcomes ++ [(b.answer s.held c).2] }
      else { s with calls := s.calls.eraseIdx i }

abbrev Run (s : FallbackState crypto σ) (es : List (FallbackEvent crypto))
    (t : FallbackState crypto σ) : Prop :=
  Machine.Run b.step s es t

end Backend

variable (crypto)

/-- The calls on the four texts of the storage. -/
def storageBackend : crypto.Backend FallbackStorage where
  put := Generation.stored
  cleared := {}
  unlock := crypto.unlockStored
  has result := (truthy result.encryptedPk).isSome && (truthy result.publicKey).isSome

/-! ### The vault -/

/-- What a vault with a key pair says to a PIN: the one of the key pair opens it, and another one
does only if its key decrypts what the PIN's key has encrypted. -/
def Generation.unlock {crypto : WebCrypto} (g : crypto.Generation) (pin : Utf16) :
    Except String crypto.KeyPair :=
  if textEncode pin = textEncode g.pin then .ok g.keypair
  else
    match crypto.decrypt (crypto.derivePinKey pin g.salt) g.iv g.encryptedPrivateKey with
    | none => .error "Invalid PIN"
    | some forged =>
      (crypto.importPkcs8 forged).elim (.error crypto.importError) fun key => .ok (key, g.keypair.2)

/-- A vault, which holds the last key pair that has been generated. -/
def vaultBackend : crypto.Backend (Option crypto.Generation) where
  put := some
  cleared := none
  unlock vault pin := vault.elim (.error "No stored keypair found") (·.unlock pin)
  has := Option.isSome

variable {crypto} in
/-- The texts for what a vault holds. -/
def encode (vault : Option crypto.Generation) : FallbackStorage :=
  vault.elim {} Generation.stored

variable {crypto}

theorem encode_ne_nil {data : Bytes} (h : data ≠ []) : Base64.encode data ≠ [] := by
  intro hnil
  have hdecode := Base64.decode_encode data
  rw [hnil] at hdecode
  exact h (Option.some.inj hdecode).symm

theorem truthy_encode {data : Bytes} (h : data ≠ []) :
    truthy (some (Base64.encode data)) = some (Base64.encode data) := by
  simp [truthy, encode_ne_nil h]

theorem Generation.truthy_stored (g : crypto.Generation) :
    truthy g.stored.salt = some (Base64.encode g.salt) ∧
      truthy g.stored.iv = some (Base64.encode g.iv) ∧
      truthy g.stored.encryptedPk = some (Base64.encode g.encryptedPrivateKey) ∧
      truthy g.stored.publicKey = some (Base64.encode (crypto.exportSpki g.keypair.2)) := by
  have hsalt : g.salt ≠ [] := List.ne_nil_of_length_pos (by rw [g.length_salt]; decide)
  have hiv : g.iv ≠ [] := List.ne_nil_of_length_pos (by rw [g.length_iv]; decide)
  exact ⟨truthy_encode hsalt, truthy_encode hiv, truthy_encode (crypto.encrypt_ne_nil _ _ _),
    truthy_encode (crypto.exportSpki_ne_nil _)⟩

theorem ok_bind {ε α β : Type} (a : α) (f : α → Except ε β) : (Except.ok a >>= f) = f a := rfl

/-- The texts of a key pair unlock as the vault does. -/
theorem unlockStored_stored (g : crypto.Generation) (pin : Utf16) :
    crypto.unlockStored g.stored pin = g.unlock pin := by
  obtain ⟨hsalt, hiv, hpk, hpublic⟩ := g.truthy_stored
  simp only [unlockStored, hsalt, hiv, hpk, hpublic, Base64.atob_encode, Option.elim_some,
    Option.bind_eq_bind, Option.bind_some, ok_bind, crypto.importSpki_exportSpki]
  by_cases hpin : textEncode pin = textEncode g.pin
  · have hkey : crypto.derivePinKey pin g.salt = crypto.derivePinKey g.pin g.salt :=
      congrArg (crypto.deriveKey · g.salt) hpin
    rw [Generation.unlock, if_pos hpin, hkey, Generation.encryptedPrivateKey,
      crypto.decrypt_encrypt, Option.elim_some, ok_bind, crypto.importPkcs8_exportPkcs8]
    rfl
  · rw [Generation.unlock, if_neg hpin]
    cases crypto.decrypt (crypto.derivePinKey pin g.salt) g.iv g.encryptedPrivateKey with
    | none => rfl
    | some forged =>
      simp only [Option.elim_some, ok_bind]
      cases crypto.importPkcs8 forged <;> rfl

theorem answer_encode (vault : Option crypto.Generation) (c : crypto.FallbackCall) :
    (storageBackend crypto).answer (encode vault) c =
      (encode ((vaultBackend crypto).answer vault c).1,
        ((vaultBackend crypto).answer vault c).2) := by
  cases c with
  | generateAndStoreKeypair g => rfl
  | clearStoredKeypair => rfl
  | unlockKeypair pin =>
    cases vault with
    | none => rfl
    | some g =>
      show (_, FallbackOutcome.unlocked pin (crypto.unlockStored g.stored pin)) = _
      rw [unlockStored_stored]
      rfl
  | hasStoredKeypair =>
    cases vault with
    | none => rfl
    | some g =>
      obtain ⟨-, -, hpk, hpublic⟩ := g.truthy_stored
      have hhas : (storageBackend crypto).has g.stored = true := by
        simp [storageBackend, hpk, hpublic]
      show (_, FallbackOutcome.has ((storageBackend crypto).has g.stored)) = _
      rw [hhas]
      rfl

/-- The vault has a key pair that has been generated, and so has every one that it opens with. -/
structure Genuine (s : FallbackState crypto (Option crypto.Generation)) : Prop where
  held : ∀ g, s.held = some g → .stored g.keypair ∈ s.outcomes
  unlocked : ∀ pin keypair, .unlocked pin (.ok keypair) ∈ s.outcomes →
    ∃ generated, .stored generated ∈ s.outcomes ∧ keypair.2 = generated.2

theorem Generation.unlock_ok {g : crypto.Generation} {pin : Utf16} {keypair : crypto.KeyPair}
    (h : g.unlock pin = .ok keypair) : keypair.2 = g.keypair.2 := by
  unfold Generation.unlock at h
  split at h
  · cases h
    rfl
  split at h
  · cases h
  next forged _ =>
    cases himport : crypto.importPkcs8 forged with
    | none =>
      rw [himport] at h
      cases h
    | some key =>
      rw [himport] at h
      cases h
      rfl

theorem Genuine.step {s t : FallbackState crypto (Option crypto.Generation)}
    {e : FallbackEvent crypto} (h : Genuine s) (hstep : (vaultBackend crypto).step s e = some t) :
    Genuine t := by
  cases e with
  | called c =>
    cases hstep
    exact ⟨h.held, h.unlocked⟩
  | answered i ok =>
    obtain ⟨c, -, rfl⟩ := Option.map_eq_some_iff.mp hstep
    split
    swap
    · exact ⟨h.held, h.unlocked⟩
    have hold {outcome : crypto.FallbackOutcome} (ho : outcome ∈ s.outcomes) (new) :
        outcome ∈ s.outcomes ++ [new] := List.mem_append_left _ ho
    refine ⟨fun g hg => ?_, fun pin keypair hmem => ?_⟩
    · cases c with
      | generateAndStoreKeypair g' =>
        cases hg
        exact List.mem_append_right _ (List.mem_singleton_self _)
      | unlockKeypair pin => exact hold (h.held g hg) _
      | hasStoredKeypair => exact hold (h.held g hg) _
      | clearStoredKeypair => cases hg
    · rcases List.mem_append.mp hmem with hmem | hmem
      · obtain ⟨generated, hgenerated, heq⟩ := h.unlocked pin keypair hmem
        exact ⟨generated, hold hgenerated _, heq⟩
      · have hnew := List.mem_singleton.mp hmem
        cases c with
        | unlockKeypair pin' =>
          cases hheld : s.held with
          | none =>
            rw [hheld] at hnew
            cases hnew
          | some g =>
            rw [hheld] at hnew
            have hresult : g.unlock pin' = .ok keypair := by
              injection hnew with _ hresult
              exact hresult.symm
            exact ⟨g.keypair, hold (h.held g hheld) _, Generation.unlock_ok hresult⟩
        | generateAndStoreKeypair | hasStoredKeypair | clearStoredKeypair => cases hnew

/-- **The vault behind a PIN.**  However the calls and the failures of the storage interleave, all
calls end as those on a vault that holds the last key pair with its PIN, and the storage holds the
texts of that key pair; a public key that a PIN gives access to has been generated. -/
theorem storage_refines_vault {es : List (FallbackEvent crypto)}
    {s : FallbackState crypto FallbackStorage}
    (h : (storageBackend crypto).Run { held := {} } es s) :
    ∃ t, (vaultBackend crypto).Run { held := none } es t ∧ s.outcomes = t.outcomes ∧
      s.held = encode t.held ∧
      ∀ pin keypair, .unlocked pin (.ok keypair) ∈ s.outcomes →
        ∃ generated, .stored generated ∈ s.outcomes ∧ keypair.2 = generated.2 := by
  have hsimulated : ∃ t, (vaultBackend crypto).Run { held := none } es t ∧
      (s.held = encode t.held ∧ s.calls = t.calls ∧ s.outcomes = t.outcomes) := by
    refine Machine.Run.simulate
      (R := fun s (t : FallbackState crypto (Option crypto.Generation)) =>
        s.held = encode t.held ∧ s.calls = t.calls ∧ s.outcomes = t.outcomes)
      (u := { held := none }) h ⟨rfl, rfl, rfl⟩ ?_
    rintro s e s' t ⟨hheld, hcalls, houtcomes⟩ hstep
    cases e with
    | called c =>
      cases hstep
      exact ⟨_, rfl, hheld, by rw [hcalls], houtcomes⟩
    | answered i ok =>
      obtain ⟨c, hc, rfl⟩ := Option.map_eq_some_iff.mp hstep
      refine ⟨_, Option.map_eq_some_iff.mpr ⟨c, hcalls ▸ hc, rfl⟩, ?_⟩
      rw [hheld, answer_encode, hcalls, houtcomes]
      cases ok <;> exact ⟨rfl, rfl, rfl⟩
  obtain ⟨t, hrun, hheld, -, houtcomes⟩ := hsimulated
  have hgenuine : Genuine t :=
    hrun.invariant_all (I := Genuine) ⟨fun _ => nofun, fun _ _ => nofun⟩
      fun _ _ _ hs hstep => hs.step hstep
  exact ⟨t, hrun, houtcomes, hheld, houtcomes ▸ hgenuine.unlocked⟩

/-- Keys of one byte; a PIN's key is the PIN with the salt, and stands in front of what it has
encrypted. -/
def sampleCrypto : WebCrypto where
  PrivateKey := UInt8
  PublicKey := UInt8
  PinKey := Bytes
  exportPkcs8 key := [key]
  exportSpki key := [key]
  importPkcs8 data := data.head?
  importSpki data := data.head?
  deriveKey pin salt := pin ++ salt
  encrypt key iv data := key ++ iv ++ 0 :: data
  decrypt key iv data :=
    if (key ++ iv ++ [0]).isPrefixOf data then some (data.drop (key ++ iv ++ [0]).length) else none
  importError := "DataError"
  atobError := "InvalidCharacterError"
  importPkcs8_exportPkcs8 _ := rfl
  importSpki_exportSpki _ := rfl
  exportSpki_ne_nil _ := List.cons_ne_nil _ _
  decrypt_encrypt key iv data := by
    have happ : key ++ iv ++ 0 :: data = (key ++ iv ++ [0]) ++ data := by simp
    rw [happ, if_pos (by simp), List.drop_left]
  encrypt_ne_nil key iv data := by simp

def sampleGeneration : sampleCrypto.Generation where
  pin := ofString "2468"
  keypair := ((7 : UInt8), (9 : UInt8))
  salt := List.replicate 16 3
  iv := List.replicate 12 5
  length_salt := rfl
  length_iv := rfl

/-- An unlock before the texts are there, one with the PIN, one with another, and a clear. -/
def sampleCalls : List (FallbackEvent sampleCrypto) :=
  [.called (.unlockKeypair sampleGeneration.pin),
    .called (.generateAndStoreKeypair sampleGeneration), .answered 0 true, .answered 0 true,
    .called (.unlockKeypair sampleGeneration.pin), .called (.unlockKeypair (ofString "1357")),
    .called .clearStoredKeypair, .answered 1 true, .answered 0 true, .answered 0 true,
    .called .hasStoredKeypair, .answered 0 true]

def sampleOutcomes : List sampleCrypto.FallbackOutcome :=
  [.unlocked sampleGeneration.pin (.error "No stored keypair found"),
    .stored sampleGeneration.keypair, .unlocked (ofString "1357") (.error "Invalid PIN"),
    .unlocked sampleGeneration.pin (.ok sampleGeneration.keypair), .cleared, .has false]

theorem storage_refines_vault_sample :
    ∃ s, (storageBackend sampleCrypto).Run { held := {} } sampleCalls s ∧
      s.outcomes = sampleOutcomes ∧
      ∃ t, (vaultBackend sampleCrypto).Run { held := none } sampleCalls t ∧
        s.outcomes = t.outcomes ∧ s.held = encode t.held ∧
        ∀ pin keypair, .unlocked pin (.ok keypair) ∈ s.outcomes →
          ∃ generated, .stored generated ∈ s.outcomes ∧ keypair.2 = generated.2 := by
  obtain ⟨s, hrun, hs⟩ : ∃ s, (storageBackend sampleCrypto).Run { held := {} } sampleCalls s ∧
      s.outcomes = sampleOutcomes :=
    ⟨{ held := {}, calls := [], outcomes := sampleOutcomes }, Machine.run_of_exec (by rfl), rfl⟩
  exact ⟨s, hrun, hs, storage_refines_vault hrun⟩

end WebCrypto

end SmartIdVault.Auth
