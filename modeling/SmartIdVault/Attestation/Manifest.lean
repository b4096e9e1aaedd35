import SmartIdVault.Attestation.KeyStore
import SmartIdVault.Lib.JsonNumber
import SmartIdVault.Lib.Machine

/-! `refreshKeyManifest` of `lib/attestation/manifest.ts` over the life of the extension.  The
version that a manifest has to exceed is kept in the memory of the service worker, and a restart
builds the key store anew with version 0.  What `persistLastSeenVersions` writes survives a restart
and is read nowhere.  So the versions that are accepted increase exactly as long as the server
offers no manifest, after a restart, that is older than one accepted before it. -/

namespace SmartIdVault.Attestation

open Utf16 (ofString)

def manifestSigningKeyHex : Utf16 :=
  ofString "0453c0135f5c4ce30d89ae2e256f954ff42967e63213a0e79f05af5e7420a31a" ++
    ofString "2384cfc5714fa86acb60f27bedb8b79dd2f62a594d99074f9033b33350df0a40ae"

/-- What a refresh rests on outside the extension's own code: `crypto.subtle`, the message of the
error that `atob` throws, and the keys of the bundled manifest. -/
structure Platform (κ : Type) extends Subtle κ where
  atobError : String
  bundledKeys : List TrustedRpSigningKey

/-- What `fetch` and `response.json()` yield: the message of an error, a status that is not one of
success, or a body.  A body whose `keys` are missing or no array has `none` there, one without a
signature the empty one. -/
inductive Response
  | error (message : String)
  | status (code : Nat)
  | body (version : Decimal) (keys : Option (List TrustedRpSigningKey)) (manifestSignature : Utf16)
  deriving DecidableEq, Repr

structure RefreshResult where
  success : Bool
  error : Option String := none
  deriving DecidableEq, Repr

def RefreshResult.failure (error : String) : RefreshResult := ⟨false, some error⟩

def TrustedRpSigningKey.toJson (key : TrustedRpSigningKey) : Json :=
  .obj [(ofString "domain", .str key.domain), (ofString "keyId", .str key.keyId),
    (ofString "publicKeyHex", .str key.publicKeyHex), (ofString "notBefore", .str key.notBefore),
    (ofString "notAfter", .str key.notAfter)]

/-- The bytes that a manifest's signature is on. -/
def SignedKeyManifest.payloadBytes (manifest : SignedKeyManifest) : Bytes :=
  Utf8.textEncode (sortedJsonStringify (.obj [(ofString "version", .num manifest.version),
    (ofString "keys", .arr (manifest.keys.map TrustedRpSigningKey.toJson))]))

section Refresh

variable {κ : Type} (p : Platform κ)

def getManifestSigningKey : Option κ := (hexToBytes manifestSigningKeyHex).bind p.importKey

/-- The part of `refreshKeyManifest` before `updateManifest`: a manifest whose signature is valid,
or the error. -/
def verifiedManifest : Response → Except String SignedKeyManifest
  | .error message => .error message
  | .status code => .error ("HTTP " ++ toString code)
  | .body _ none _ => .error "Invalid manifest format"
  | .body version (some keys) manifestSignature =>
    if manifestSignature = [] then .error "Manifest signature missing"
    else
      match getManifestSigningKey p with
      | none => .error "Manifest signing key unavailable"
      | some signingKey =>
        match base64urlDecode manifestSignature with
        | none => .error p.atobError
        | some sigBytes =>
          let manifest : SignedKeyManifest := { version, keys, manifestSignature }
          if p.verify signingKey sigBytes manifest.payloadBytes then .ok manifest
          else .error "Manifest signature invalid"

theorem manifestSignature_ne_nil {response : Response} {manifest : SignedKeyManifest}
    (h : verifiedManifest p response = .ok manifest) : manifest.manifestSignature ≠ [] := by
  unfold verifiedManifest at h
  split at h
  case h_4 version keys manifestSignature =>
    split at h
    · cases h
    · rename_i hsig
      split at h
      · cases h
      split at h
      · cases h
      dsimp only at h
      split at h
      · exact Except.ok.inj h ▸ hsig
      · cases h
  all_goals cases h

variable {p} in
theorem verifiedManifest_of_valid {signingKey : κ} {manifest : SignedKeyManifest}
    {manifestSignature : Utf16} {sigBytes : Bytes}
    (hkey : getManifestSigningKey p = some signingKey) (hne : manifestSignature ≠ [])
    (hdecode : base64urlDecode manifestSignature = some sigBytes)
    (hvalid : p.verify signingKey sigBytes manifest.payloadBytes = true) :
    verifiedManifest p (.body manifest.version (some manifest.keys) manifestSignature) =
      .ok { manifest with manifestSignature } := by
  have hsigned : p.verify signingKey sigBytes { manifest with manifestSignature }.payloadBytes =
      true := hvalid
  simp [verifiedManifest, hne, hkey, hdecode, hsigned]

/-- The entries that `persistLastSeenVersions` writes. -/
def lastSeenEntries (manifest : SignedKeyManifest) : List (Utf16 × ℚ) :=
  manifest.keys.map fun key =>
    (ofString "attestation:lastVersion:" ++ key.keyId, manifest.version.value)

/-- The background context: the key store in memory and `storage.local`.  `accepted` records the
versions of the manifests that have been applied, and `earlier` those applied before the last
restart. -/
structure Background (κ : Type) where
  keyStore : Option (KeyStore κ) := none
  storage : Utf16 → Option ℚ := fun _ => none
  accepted : List ℚ := []
  earlier : List ℚ := []

/-- The service worker starts and calls `initializeAttestation`; a refresh gets its response, and
its write to storage fails with a message or not; the service worker is stopped. -/
inductive ManifestEvent
  | initializeAttestation
  | refresh (response : Response) (storageError : Option String)
  | restart
  deriving DecidableEq, Repr

namespace Background

/-- `refreshRpKeys`: the result and the state then. -/
def refreshRpKeys (s : Background κ) (response : Response) (storageError : Option String) :
    RefreshResult × Background κ :=
  match s.keyStore with
  | none => (.failure "Attestation not initialized", s)
  | some store =>
    match verifiedManifest p response with
    | .error e => (.failure e, s)
    | .ok manifest =>
      match store.updateManifest manifest with
      | (false, _) => (.failure "Manifest version rollback rejected", s)
      | (true, store) =>
        let s :=
          { s with keyStore := some store, accepted := s.accepted ++ [manifest.version.value] }
        match storageError with
        | some message => (.failure message, s)
        | none => (⟨true, none⟩, { s with
            storage := (lastSeenEntries manifest).foldl
              (fun m entry => Function.update m entry.1 (some entry.2)) s.storage })

def initializeAttestation (s : Background κ) : Background κ :=
  match s.keyStore with
  | some _ => s
  | none => { s with keyStore := some (.new p.bundledKeys) }

def step (s : Background κ) : ManifestEvent → Option (Background κ)
  | .initializeAttestation => some (s.initializeAttestation p)
  | .refresh response storageError => some (s.refreshRpKeys p response storageError).2
  | .restart => some { s with keyStore := none, earlier := s.accepted }

abbrev Run (s : Background κ) (es : List ManifestEvent) (t : Background κ) : Prop :=
  Machine.Run (step p) s es t

/-- The versions accepted so far increase strictly. -/
def Increasing (s : Background κ) : Prop := s.accepted.Pairwise (· < ·)

instance (s : Background κ) : Decidable s.Increasing :=
  inferInstanceAs (Decidable (s.accepted.Pairwise (· < ·)))

/-- A refresh that accepts no manifest leaves the key map as it is. -/
def RejectedKeepsKeys (s : Background κ) : ManifestEvent → Prop
  | .refresh response storageError =>
    (s.refreshRpKeys p response storageError).2.accepted = s.accepted →
      (s.refreshRpKeys p response storageError).2.keyStore.map KeyStore.keys =
        s.keyStore.map KeyStore.keys
  | _ => True

/-- A validly signed manifest that is newer than the running key store's is newer than those
accepted before the last restart. -/
def NewerThanEarlier (s : Background κ) : ManifestEvent → Prop
  | .refresh response _ =>
    ∀ store ∈ s.keyStore, ∀ manifest, verifiedManifest p response = .ok manifest →
      store.manifestVersion < manifest.version.value → ∀ v ∈ s.earlier, v < manifest.version.value
  | _ => True

instance (s : Background κ) : (e : ManifestEvent) → Decidable (s.NewerThanEarlier p e)
  | .refresh response _ =>
    match hstore : s.keyStore, hmanifest : verifiedManifest p response with
    | some store, .ok manifest =>
      decidable_of_iff (store.manifestVersion < manifest.version.value →
        ∀ v ∈ s.earlier, v < manifest.version.value) (by simp [NewerThanEarlier, hstore, hmanifest])
    | some _, .error _ => isTrue (by simp [NewerThanEarlier, hmanifest])
    | none, _ => isTrue (by simp [NewerThanEarlier, hstore])
  | .initializeAttestation => instDecidableTrue
  | .restart => instDecidableTrue

/-- A refresh applies a validly signed manifest that is newer than the running key store's, and
nothing else. -/
theorem refresh_cases (s : Background κ) (response : Response) (storageError : Option String) :
    (∀ store ∈ s.keyStore, ∀ manifest, verifiedManifest p response = .ok manifest →
        manifest.version.value ≤ store.manifestVersion) ∧
        (s.refreshRpKeys p response storageError).2 = s ∨
      ∃ store manifest storage, s.keyStore = some store ∧
        verifiedManifest p response = .ok manifest ∧
        store.manifestVersion < manifest.version.value ∧
        (s.refreshRpKeys p response storageError).2 = { s with
          keyStore := some { store.addKeys manifest.keys with
            manifestVersion := manifest.version.value }
          storage
          accepted := s.accepted ++ [manifest.version.value] } := by
  unfold refreshRpKeys
  cases hstore : s.keyStore with
  | none => exact .inl ⟨by simp, rfl⟩
  | some store =>
    cases hmanifest : verifiedManifest p response with
    | error e => exact .inl ⟨by simp, rfl⟩
    | ok manifest =>
      obtain ⟨hwhy, hno⟩ | ⟨hver, hyes⟩ := store.updateManifest_cases manifest
      · have hold := hwhy.resolve_left (manifestSignature_ne_nil p hmanifest)
        refine .inl ⟨?_, by simp only [hno]⟩
        intro store' hstore' manifest' hmanifest'
        obtain rfl := Option.some.inj hstore'
        obtain rfl := Except.ok.inj hmanifest'
        exact hold
      · simp only [hyes]
        cases storageError with
        | some message => exact .inr ⟨store, manifest, s.storage, rfl, rfl, hver, rfl⟩
        | none => exact .inr ⟨store, manifest, _, rfl, rfl, hver, rfl⟩

theorem rejectedKeepsKeys (s : Background κ) (e : ManifestEvent) : s.RejectedKeepsKeys p e := by
  cases e with
  | refresh response storageError =>
    intro hsame
    obtain ⟨-, h⟩ | ⟨store, manifest, storage, -, -, -, h⟩ :=
      s.refresh_cases p response storageError
    · rw [h]
    · simp [h] at hsame
  | initializeAttestation => trivial
  | restart => trivial

/-- The versions increase, and the key store that is running has at least the version of every
manifest accepted since the last restart. -/
structure Inv (s : Background κ) : Prop where
  increasing : s.Increasing
  split : ∃ current, s.accepted = s.earlier ++ current ∧
    ∀ v ∈ current, ∃ store, s.keyStore = some store ∧ v ≤ store.manifestVersion

variable {p} {s t : Background κ} {e : ManifestEvent} {es : List ManifestEvent}

theorem Inv.step (h : Inv s) (hg : s.NewerThanEarlier p e) (hs : step p s e = some t) : Inv t := by
  obtain ⟨hinc, current, hacc, hcur⟩ := h
  cases e with
  | initializeAttestation =>
    obtain rfl := Option.some.inj hs
    unfold initializeAttestation
    cases hstore : s.keyStore with
    | some store => exact ⟨hinc, current, hacc, hcur⟩
    | none =>
      refine ⟨hinc, current, hacc, ?_⟩
      intro v hv
      obtain ⟨store, hsome, -⟩ := hcur v hv
      simp [hstore] at hsome
  | restart =>
    obtain rfl := Option.some.inj hs
    exact ⟨hinc, [], by simp, by simp⟩
  | refresh response storageError =>
    obtain rfl := Option.some.inj hs
    obtain ⟨-, hsame⟩ | ⟨store, manifest, storage, hstore, hman, hver, hnew⟩ :=
      s.refresh_cases p response storageError
    · rw [hsame]
      exact ⟨hinc, current, hacc, hcur⟩
    · rw [hnew]
      have hlast : ∀ v ∈ s.accepted, v < manifest.version.value := by
        intro v hv
        rw [hacc] at hv
        obtain hv | hv := List.mem_append.mp hv
        · exact hg store hstore manifest hman hver v hv
        · obtain ⟨store', hstore', hle⟩ := hcur v hv
          obtain rfl := Option.some.inj (hstore.symm.trans hstore')
          exact lt_of_le_of_lt hle hver
      refine ⟨?_, current ++ [manifest.version.value], by simp [hacc], ?_⟩
      · refine List.pairwise_append.mpr ⟨hinc, List.pairwise_singleton .., ?_⟩
        intro v hv w hw
        obtain rfl := List.mem_singleton.mp hw
        exact hlast v hv
      · intro v hv
        refine ⟨_, rfl, ?_⟩
        obtain hv | hv := List.mem_append.mp hv
        · exact le_of_lt (hlast v (by simp [hacc, hv]))
        · exact le_of_eq (List.mem_singleton.mp hv)

theorem not_increasing_of_older (h : Inv s) (hg : ¬s.NewerThanEarlier p e)
    (hs : Background.step p s e = some t) : ¬t.Increasing := by
  obtain ⟨-, current, hacc, -⟩ := h
  cases e with
  | initializeAttestation => exact absurd trivial hg
  | restart => exact absurd trivial hg
  | refresh response storageError =>
    obtain rfl := Option.some.inj hs
    simp only [NewerThanEarlier, not_forall] at hg
    obtain ⟨store, hstore, manifest, hman, hver, v, hv, hle⟩ := hg
    obtain ⟨hold, -⟩ | ⟨store', manifest', storage, -, hman', -, hnew⟩ :=
      s.refresh_cases p response storageError
    · exact absurd (hold store hstore manifest hman) (not_le.mpr hver)
    · obtain rfl := Except.ok.inj (hman.symm.trans hman')
      intro hinc
      rw [hnew] at hinc
      have hlt := (List.pairwise_append.mp hinc).2.2 v (by simp [hacc, hv]) _
        (List.mem_singleton_self _)
      exact hle hlt

/-- Over every sequence of starts, refreshes and restarts, the accepted versions increase strictly
and a rejected manifest leaves the key map alone if and only if no validly signed manifest is
offered that is newer than the running key store's and not newer than all those accepted before the
last restart. -/
theorem increasing_iff_newerThanEarlier (hrun : Run p {} es t) :
    Machine.Everywhere (Background.step p) Increasing {} es ∧
        Machine.Throughout (Background.step p) (RejectedKeepsKeys p) {} es ↔
      Machine.Throughout (Background.step p) (NewerThanEarlier p) {} es := by
  have hkeys : Machine.Throughout (Background.step p) (RejectedKeepsKeys p) {} es :=
    Machine.throughout_of_forall fun s e _ => s.rejectedKeepsKeys p e
  have init : Inv ({} : Background κ) := ⟨List.Pairwise.nil, [], rfl, by simp⟩
  rw [and_iff_left hkeys]
  refine Machine.everywhere_iff_throughout (A := fun _ _ => True) hrun
    (Machine.throughout_of_forall fun _ _ _ => trivial) init (fun s h => h.increasing) ?_ ?_
  · intro s e t h _ hg hs
    exact h.step hg hs
  · intro s e t h _ hg hs
    exact not_increasing_of_older h hg hs

/-! ### A rollback over a restart -/

def echoPlatform : Platform Unit where
  toSubtle := .echo
  atobError := "The string to be decoded is not correctly encoded."
  bundledKeys := []

/-- The server's response with a validly signed manifest in the given version. -/
def offer (version : Nat) : Response :=
  .body (.ofNat version) (some [.sample]) (base64urlEncode
    ({ version := .ofNat version, keys := [.sample], manifestSignature := [] } :
      SignedKeyManifest).payloadBytes)

theorem payloadBytes_ne_nil (manifest : SignedKeyManifest) : manifest.payloadBytes ≠ [] := by
  intro hnil
  rw [SignedKeyManifest.payloadBytes, sortedJsonStringify, sortObjectKeys, Json.stringify,
    List.cons_append, Utf8.textEncode_cons (by decide), List.append_eq_nil_iff] at hnil
  exact absurd hnil.1 (by decide)

theorem verifiedManifest_echo (manifest : SignedKeyManifest) :
    verifiedManifest echoPlatform (.body manifest.version (some manifest.keys)
      (base64urlEncode manifest.payloadBytes)) =
        .ok { manifest with manifestSignature := base64urlEncode manifest.payloadBytes } := by
  have hkey : getManifestSigningKey echoPlatform = some () := by decide +kernel
  have hvalid (data : Bytes) : echoPlatform.verify () data data = true := decide_eq_true rfl
  exact verifiedManifest_of_valid hkey (base64urlEncode_ne_nil (payloadBytes_ne_nil manifest))
    (base64urlDecode_encode manifest.payloadBytes) (hvalid manifest.payloadBytes)

theorem verifiedManifest_offer (version : Nat) : ∃ manifest,
    verifiedManifest echoPlatform (offer version) = .ok manifest ∧
      manifest.version.value = version := by
  refine ⟨_, verifiedManifest_echo ⟨.ofNat version, [.sample], []⟩, ?_⟩
  rw [Decimal.ofNat, Decimal.value_make]
  simp

/-- The service worker has been started, for the first time or after a restart. -/
def started (p : Platform κ) (s : Background κ) : Background κ :=
  { s with keyStore := some (.new p.bundledKeys), earlier := s.accepted }

theorem run_restarted (p : Platform κ) (before after : Response) :
    Run p {} [.initializeAttestation, .refresh before none, .restart, .initializeAttestation,
        .refresh after none]
      ((((started p {}).refreshRpKeys p before none).2.started p).refreshRpKeys p after none).2 :=
  .cons rfl (.cons rfl (.cons rfl (.cons rfl (.cons rfl (.nil _)))))

/-- After a start every version is newer than that of the key store. -/
theorem accepted_offer (s : Background Unit) {version : Nat} (hpos : 0 < version) :
    ((started echoPlatform s).refreshRpKeys echoPlatform (offer version) none).2.accepted =
      s.accepted ++ [(version : ℚ)] := by
  obtain ⟨manifest, hmanifest, hversion⟩ := verifiedManifest_offer version
  have hnewer : (0 : ℚ) < manifest.version.value := hversion ▸ Rat.natCast_pos.mpr hpos
  obtain ⟨hold, -⟩ | ⟨store, manifest', storage, -, hmanifest', -, hnew⟩ :=
    (started echoPlatform s).refresh_cases echoPlatform (offer version) none
  · exact absurd (hold _ rfl manifest hmanifest) (not_le.mpr hnewer)
  · obtain rfl := Except.ok.inj (hmanifest.symm.trans hmanifest')
    rw [hnew, hversion]
    rfl

/-- The server offers one version before a restart and one after it. -/
theorem run_offers (before after : Nat) (hbefore : 0 < before) (hafter : 0 < after) :
    ∃ t, Run echoPlatform {} [.initializeAttestation, .refresh (offer before) none, .restart,
        .initializeAttestation, .refresh (offer after) none] t ∧
      t.accepted = [(before : ℚ), after] := by
  refine ⟨_, run_restarted echoPlatform (offer before) (offer after), ?_⟩
  rw [accepted_offer _ hafter, accepted_offer _ hbefore]
  rfl

def rollback : List ManifestEvent :=
  [.initializeAttestation, .refresh (offer 5) none, .restart, .initializeAttestation,
    .refresh (offer 3) none]

/-- Version 3 is accepted after a restart although version 5 has been accepted before it. -/
theorem restart_accepts_older_manifest :
    ∃ t, Run echoPlatform {} rollback t ∧ t.accepted = [5, 3] ∧ ¬t.Increasing := by
  obtain ⟨t, hrun, hacc⟩ := run_offers 5 3 (by decide) (by decide)
  refine ⟨t, hrun, hacc, ?_⟩
  rw [Increasing, hacc]
  decide +kernel

def upgrade : List ManifestEvent :=
  [.initializeAttestation, .refresh (offer 3) none, .restart, .initializeAttestation,
    .refresh (offer 5) none]

theorem upgrade_is_increasing :
    ∃ t, Run echoPlatform {} upgrade t ∧ t.accepted = [3, 5] ∧
      Machine.Everywhere (Background.step echoPlatform) Increasing {} upgrade := by
  obtain ⟨t, hrun, hacc⟩ := run_offers 3 5 (by decide) (by decide)
  have hnewer : Machine.Throughout (Background.step echoPlatform) (NewerThanEarlier echoPlatform) {}
      upgrade := by decide +kernel
  exact ⟨t, hrun, hacc, ((increasing_iff_newerThanEarlier hrun).mpr hnewer).1⟩

end Background

end Refresh

end SmartIdVault.Attestation
