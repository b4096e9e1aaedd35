import SmartIdVault.Lib.Base64
import SmartIdVault.Lib.JsMap
import SmartIdVault.Lib.Utf
import SmartIdVault.Lib.WriteBehind

/-! The phone's `CredentialTrustStore.java`.  Its preferences have a text under `pk:` and a time
under `ts:` for each credential; over all runs, in which writes fail and the process dies, they
answer as a map from the credentials to what was provisioned. -/

namespace SmartIdVault.TrustStore

open Utf16 (ofString)

inductive Preference
  | string (text : List Char)
  | long (n : Int)
  deriving DecidableEq

abbrev Preferences := JsMap Utf16 Preference

/-- `android.util.Base64` with `NO_WRAP`; a text that cannot be decoded throws. -/
structure Base64NoWrap where
  encodeToString : Bytes → List Char
  decode : List Char → Option Bytes
  decode_encodeToString : ∀ bytes, decode (encodeToString bytes) = some bytes

def Base64NoWrap.standard : Base64NoWrap where
  encodeToString := Base64.encode
  decode := Base64.decode
  decode_encodeToString := Base64.decode_encode

inductive Call
  | storePublicKey (credentialId : Utf16) (publicKeyBytes : Bytes) (now : Int)
  | getPublicKey (credentialId : Utf16)
  | getProvisionedAt (credentialId : Utf16)
  | removeCredential (credentialId : Utf16)
  | hasCredential (credentialId : Utf16)
  | getCredentialCount
  | clearAll

inductive Answer
  | done
  | publicKey (bytes : Option Bytes)
  | provisionedAt (time : Int)
  | has (contained : Bool)
  | count (n : Nat)
  | throws (exception : String)
  deriving DecidableEq

namespace CredentialTrustStore

def publicKeyName (credentialId : Utf16) : Utf16 := ofString "pk:" ++ credentialId

def timeName (credentialId : Utf16) : Utf16 := ofString "ts:" ++ credentialId

section Methods

variable (base64 : Base64NoWrap) (prefs : Preferences)

def storePublicKey (credentialId : Utf16) (publicKeyBytes : Bytes) (now : Int) : Preferences :=
  (prefs.set (publicKeyName credentialId) (.string (base64.encodeToString publicKeyBytes))).set
    (timeName credentialId) (.long now)

def getPublicKey (credentialId : Utf16) : Answer :=
  match prefs.get (publicKeyName credentialId) with
  | none => .publicKey none
  | some (.long _) => .throws "ClassCastException"
  | some (.string encoded) =>
    match base64.decode encoded with
    | none => .throws "IllegalArgumentException"
    | some bytes => .publicKey (some bytes)

def getProvisionedAt (credentialId : Utf16) : Answer :=
  match prefs.get (timeName credentialId) with
  | none => .provisionedAt 0
  | some (.long time) => .provisionedAt time
  | some (.string _) => .throws "ClassCastException"

def removeCredential (credentialId : Utf16) : Preferences :=
  (prefs.delete (publicKeyName credentialId)).delete (timeName credentialId)

def hasCredential (credentialId : Utf16) : Bool :=
  (prefs.get (publicKeyName credentialId)).isSome

def getCredentialCount : Nat := prefs.keys.countP fun key => (ofString "pk:").isPrefixOf key

def edits : Call → Option Preferences
  | .storePublicKey credentialId publicKeyBytes now =>
    some (storePublicKey base64 prefs credentialId publicKeyBytes now)
  | .removeCredential credentialId => some (removeCredential prefs credentialId)
  | .clearAll => some .empty
  | _ => none

def answers : Call → Answer
  | .getPublicKey credentialId => getPublicKey base64 prefs credentialId
  | .getProvisionedAt credentialId => getProvisionedAt prefs credentialId
  | .hasCredential credentialId => .has (hasCredential prefs credentialId)
  | .getCredentialCount => .count (getCredentialCount prefs)
  | _ => .done

end Methods

end CredentialTrustStore

/-! ### What the store is for -/

structure Provisioned where
  publicKeyBytes : Bytes
  provisionedAt : Int
  deriving DecidableEq

abbrev Vault := JsMap Utf16 Provisioned

namespace Vault

def edits (vault : Vault) : Call → Option Vault
  | .storePublicKey credentialId publicKeyBytes now =>
    some (vault.set credentialId ⟨publicKeyBytes, now⟩)
  | .removeCredential credentialId => some (vault.delete credentialId)
  | .clearAll => some .empty
  | _ => none

def answers (vault : Vault) : Call → Answer
  | .getPublicKey credentialId => .publicKey ((vault.get credentialId).map (·.publicKeyBytes))
  | .getProvisionedAt credentialId =>
    .provisionedAt ((vault.get credentialId).elim 0 (·.provisionedAt))
  | .hasCredential credentialId => .has (vault.get credentialId).isSome
  | .getCredentialCount => .count vault.size
  | _ => .done

end Vault

namespace CredentialTrustStore

/-- The preferences have, under the names of a credential, what the vault has of it. -/
structure Holds (base64 : Base64NoWrap) (prefs : Preferences) (vault : Vault) : Prop where
  publicKey : ∀ credentialId, prefs.get (publicKeyName credentialId) =
    (vault.get credentialId).map fun p => .string (base64.encodeToString p.publicKeyBytes)
  time : ∀ credentialId, prefs.get (timeName credentialId) =
    (vault.get credentialId).map fun p => .long p.provisionedAt

variable {base64 : Base64NoWrap} {prefs : Preferences} {vault : Vault} {credentialId id : Utf16}

@[simp] theorem publicKeyName_inj : publicKeyName credentialId = publicKeyName id ↔
    credentialId = id := List.append_right_inj _

@[simp] theorem timeName_inj : timeName credentialId = timeName id ↔ credentialId = id :=
  List.append_right_inj _

@[simp] theorem publicKeyName_ne_timeName : publicKeyName credentialId ≠ timeName id := by
  intro h
  have hhead : (ofString "pk:").head? = (ofString "ts:").head? := by
    have hnames := congrArg List.head? h
    rw [publicKeyName, timeName, List.head?_append_of_ne_nil _ (by decide),
      List.head?_append_of_ne_nil _ (by decide)] at hnames
    exact hnames
  exact absurd hhead (by decide)

@[simp] theorem timeName_ne_publicKeyName : timeName credentialId ≠ publicKeyName id :=
  publicKeyName_ne_timeName.symm

theorem holds_empty : Holds base64 .empty .empty := ⟨fun _ => rfl, fun _ => rfl⟩

theorem Holds.storePublicKey (h : Holds base64 prefs vault) (bytes : Bytes) (now : Int) :
    Holds base64 (storePublicKey base64 prefs credentialId bytes now)
      (vault.set credentialId ⟨bytes, now⟩) where
  publicKey id := by
    rw [CredentialTrustStore.storePublicKey, JsMap.get_set, if_neg publicKeyName_ne_timeName,
      JsMap.get_set, JsMap.get_set, h.publicKey]
    by_cases hid : id = credentialId
    · simp [hid]
    · simp [hid]
  time id := by
    rw [CredentialTrustStore.storePublicKey, JsMap.get_set, JsMap.get_set,
      if_neg timeName_ne_publicKeyName, JsMap.get_set, h.time]
    by_cases hid : id = credentialId
    · simp [hid]
    · simp [hid]

theorem Holds.removeCredential (h : Holds base64 prefs vault) :
    Holds base64 (removeCredential prefs credentialId)
      (vault.delete credentialId) where
  publicKey id := by
    rw [CredentialTrustStore.removeCredential, JsMap.get_delete, if_neg publicKeyName_ne_timeName,
      JsMap.get_delete, JsMap.get_delete, h.publicKey]
    by_cases hid : id = credentialId
    · simp [hid]
    · simp [hid]
  time id := by
    rw [CredentialTrustStore.removeCredential, JsMap.get_delete, JsMap.get_delete,
      if_neg timeName_ne_publicKeyName, JsMap.get_delete, h.time]
    by_cases hid : id = credentialId
    · simp [hid]
    · simp [hid]

/-- The names that begin with `pk:` are those of the vault's credentials. -/
theorem Holds.filter_keys (h : Holds base64 prefs vault) :
    (prefs.keys.filter fun key => (ofString "pk:").isPrefixOf key).Perm
      (vault.keys.map publicKeyName) := by
  have hinj : Function.Injective publicKeyName := fun _ _ => publicKeyName_inj.mp
  have hprefs : prefs.keys.Nodup := prefs.nodup
  have hvault : vault.keys.Nodup := vault.nodup
  refine (List.perm_ext_iff_of_nodup (hprefs.filter _) (hvault.map hinj)).mpr ?_
  intro key
  rw [List.mem_filter, List.mem_map, List.isPrefixOf_iff_prefix, JsMap.mem_keys_iff]
  constructor
  · rintro ⟨hkey, id, rfl⟩
    refine ⟨id, ?_, rfl⟩
    have hid := h.publicKey id
    rw [publicKeyName] at hid
    rw [hid, Option.isSome_map] at hkey
    exact JsMap.mem_keys_iff.mpr hkey
  · rintro ⟨id, hid, rfl⟩
    rw [h.publicKey, Option.isSome_map]
    exact ⟨JsMap.mem_keys_iff.mp hid, List.prefix_append _ _⟩

theorem Holds.getCredentialCount (h : Holds base64 prefs vault) :
    getCredentialCount prefs = vault.size := by
  rw [CredentialTrustStore.getCredentialCount, List.countP_eq_length_filter,
    h.filter_keys.length_eq, List.length_map, JsMap.keys, List.length_map, JsMap.size]

theorem Holds.edits (h : Holds base64 prefs vault) (call : Call) :
    Option.Rel (Holds base64) (edits base64 prefs call) (vault.edits call) := by
  cases call with
  | storePublicKey credentialId bytes now => exact .some (h.storePublicKey bytes now)
  | removeCredential credentialId => exact .some h.removeCredential
  | clearAll => exact .some holds_empty
  | getPublicKey | getProvisionedAt | hasCredential | getCredentialCount => exact .none

theorem Holds.answers (h : Holds base64 prefs vault) (call : Call) :
    answers base64 prefs call = vault.answers call := by
  cases call with
  | getPublicKey credentialId =>
    simp only [CredentialTrustStore.answers, getPublicKey, h.publicKey, Vault.answers]
    cases vault.get credentialId with
    | none => rfl
    | some p => simp [base64.decode_encodeToString]
  | getProvisionedAt credentialId =>
    simp only [CredentialTrustStore.answers, getProvisionedAt, h.time, Vault.answers]
    cases vault.get credentialId with
    | none => rfl
    | some p => rfl
  | hasCredential credentialId =>
    simp only [CredentialTrustStore.answers, hasCredential, h.publicKey, Vault.answers,
      Option.isSome_map]
  | getCredentialCount => exact congrArg Answer.count h.getCredentialCount
  | storePublicKey | removeCredential | clearAll => rfl

/-- Whatever writes fail and whenever the process dies, the calls are answered as by a vault. -/
theorem trust_store_refines (base64 : Base64NoWrap) (events : List (WriteBehind.Event Call)) :
    Machine.outputs (WriteBehind.step (CredentialTrustStore.edits base64))
        (WriteBehind.answer (CredentialTrustStore.answers base64)) (.opened .empty) events =
      Machine.outputs (WriteBehind.step Vault.edits) (WriteBehind.answer Vault.answers)
        (.opened .empty) events :=
  WriteBehind.Related.outputs_eq (fun _ _ call h => Holds.edits h call)
    (fun _ _ call h => Holds.answers h call) (WriteBehind.related_opened holds_empty) events

/-- A key whose write is not done when the process dies is gone with its time. -/
example :
    Machine.outputs (WriteBehind.step (edits .standard)) (WriteBehind.answer (answers .standard))
      (.opened .empty)
      [.call (.storePublicKey [97] [4, 1] 100), .written, .call (.storePublicKey [98] [4, 2] 200),
        .call .getCredentialCount, .restart, .call (.getPublicKey [97]),
        .call (.getProvisionedAt [98]), .call .getCredentialCount] =
      [.done, .done, .count 2, .publicKey (some [4, 1]), .provisionedAt 0, .count 1] := by
  decide

end CredentialTrustStore

end SmartIdVault.TrustStore
