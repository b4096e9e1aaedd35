import SmartIdVault.Auth.ReplayCache
import SmartIdVault.Challenge.Contexts
import SmartIdVault.Domain.Parser
import SmartIdVault.Lib.JsonRoundTrip
import SmartIdVault.Lib.JsonUtf8

/-! The TLS binding of the challenge, `lib/tlsBinding.ts`: the fetch metadata of the tab's last
navigation, the page and the control code, in a JSON text that is hashed.  The challenge hashes that
hash again, with the origin and the nonce. -/

namespace SmartIdVault.Challenge

open Utf8 (textEncode)
open Utf16 (ofString)
open Domain (toLowerCase)

/-! ### What the browser's requests leave in the cache -/

structure SecFetchHeaders where
  site : Utf16
  mode : Utf16
  dest : Utf16
  user : Utf16
  deriving DecidableEq, Repr

abbrev SecFetchCache := JsMap Int SecFetchHeaders

/-- A request, as far as the listener looks at it; its names are ASCII. -/
structure RequestDetails where
  mainFrame : Bool
  tabId : Int
  requestHeaders : List (Utf16 × Option Utf16)
  deriving DecidableEq, Repr

namespace RequestDetails

/-- The headers whose names begin with `sec-fetch-`, by their names in lower case. -/
def headers (details : RequestDetails) : JsMap Utf16 Utf16 :=
  details.requestHeaders.foldl (fun headers h =>
    let key := toLowerCase h.1
    if (ofString "sec-fetch-").isPrefixOf key then headers.set key (h.2.getD []) else headers) .empty

/-- `headers[key] ?? ''`. -/
def header (details : RequestDetails) (key : String) : Utf16 :=
  (details.headers.get (ofString key)).getD []

/-- What the listener caches; a tab's id is not 0. -/
def secFetch (details : RequestDetails) : Option SecFetchHeaders :=
  if !details.mainFrame || details.tabId = 0 then none
  else if details.header "sec-fetch-site" = [] then none
  else some {
    site := details.header "sec-fetch-site"
    mode := details.header "sec-fetch-mode"
    dest := details.header "sec-fetch-dest"
    user := details.header "sec-fetch-user" }

end RequestDetails

inductive BrowserEvent where
  | onBeforeSendHeaders (details : RequestDetails)
  | onRemoved (tabId : Int)
  deriving DecidableEq, Repr

namespace SecFetchCache

def handle (cache : SecFetchCache) : BrowserEvent → SecFetchCache
  | .onBeforeSendHeaders details =>
    match details.secFetch with
    | some secFetch => cache.set details.tabId secFetch
    | none => cache
  | .onRemoved tabId => cache.deleteWhere fun e => e.1 = tabId

/-- The cache after what has happened in the browser. -/
def after (history : List BrowserEvent) : SecFetchCache := history.foldl handle .empty

end SecFetchCache

/-- What a tab's last navigation said, if it has said something since the tab was last removed; the
history is from the latest event on. -/
def lastSecFetch (tabId : Int) : List BrowserEvent → Option SecFetchHeaders
  | [] => none
  | .onBeforeSendHeaders details :: earlier =>
    if details.tabId = tabId then details.secFetch.or (lastSecFetch tabId earlier)
    else lastSecFetch tabId earlier
  | .onRemoved removed :: earlier => if removed = tabId then none else lastSecFetch tabId earlier

/-- The cache says of each tab what its last navigation said. -/
theorem SecFetchCache.get_after (history : List BrowserEvent) (tabId : Int) :
    (SecFetchCache.after history).get tabId = lastSecFetch tabId history.reverse := by
  induction history using List.reverseRecOn with
  | nil => rfl
  | append_singleton history e ih =>
    rw [List.reverse_append, List.reverse_singleton, List.singleton_append, after,
      List.foldl_append, ← after]
    cases e with
    | onBeforeSendHeaders details =>
      simp only [List.foldl_cons, List.foldl_nil, handle, lastSecFetch]
      cases details.secFetch with
      | none => simp [ih]
      | some secFetch =>
        simp only [JsMap.get_set, Option.some_or, ih, eq_comm (a := tabId)]
    | onRemoved removed =>
      simp only [List.foldl_cons, List.foldl_nil, handle, lastSecFetch, JsMap.get_deleteWhere, ih]
      split
      next heq => simp [heq]
      next hne => cases lastSecFetch tabId history.reverse <;> simp [Ne.symm hne]

/-! ### The proof -/

variable (sha256 : Bytes → Bytes)

/-- The digest in hexadecimal. -/
def computeContentHash (text : Utf16) : Utf16 := (sha256 (textEncode text)).flatMap Auth.hexOfByte

/-- What a tab counts for that the cache does not have. -/
def defaultSecFetch : SecFetchHeaders where
  site := ofString "cross-site"
  mode := ofString "navigate"
  dest := ofString "document"
  user := ofString "?1"

def proofPayload (secFetch : SecFetchHeaders) (contentHash controlCode : Utf16) (timestamp : Int) :
    Json :=
  .obj [
    (ofString "version", .num (Decimal.make 1 0)),
    (ofString "secFetchSite", .str secFetch.site),
    (ofString "secFetchMode", .str secFetch.mode),
    (ofString "secFetchDest", .str secFetch.dest),
    (ofString "secFetchUser", .str secFetch.user),
    (ofString "contentHash", .str contentHash),
    (ofString "controlCode", .str controlCode),
    (ofString "timestamp", .num (Decimal.make timestamp 0))]

/-- The bytes that are hashed for the proof. -/
def proofBytes (secFetch : SecFetchHeaders) (contentHash controlCode : Utf16) (timestamp : Int) :
    Bytes :=
  textEncode (Json.stringify (proofPayload secFetch contentHash controlCode timestamp))

/-- With the cache as it is when the function is called, and the time at which the digest of the page
is there. -/
def buildChallengeProof (cache : SecFetchCache) (tabId : Int) (controlCode pageContent : Utf16)
    (timestamp : Int) : Bytes :=
  let secFetch := (cache.get tabId).getD defaultSecFetch
  let contentHash := computeContentHash sha256 pageContent
  sha256 (proofBytes secFetch contentHash controlCode timestamp)

theorem proper_proofPayload (secFetch : SecFetchHeaders) (contentHash controlCode : Utf16)
    (timestamp : Int) : (proofPayload secFetch contentHash controlCode timestamp).Proper := by
  have hkeys : [ofString "version", ofString "secFetchSite", ofString "secFetchMode",
      ofString "secFetchDest", ofString "secFetchUser", ofString "contentHash",
      ofString "controlCode", ofString "timestamp"].Pairwise
        fun k l => k ≠ l ∧ Json.before l k = false := by decide +kernel
  exact ⟨Properties.inOrder_iff.mpr hkeys, trivial, trivial, trivial, trivial, trivial, trivial,
    trivial, trivial, trivial⟩

theorem make_inj {m n : Int} (h : Decimal.make m 0 = Decimal.make n 0) : m = n := by
  have hvalue := congrArg Decimal.value h
  rw [Decimal.value_make, Decimal.value_make, zpow_zero, mul_one, mul_one] at hvalue
  exact_mod_cast hvalue

theorem proofBytes_inj {secFetch secFetch' : SecFetchHeaders} {hash hash' code code' : Utf16}
    {timestamp timestamp' : Int}
    (h : proofBytes secFetch hash code timestamp = proofBytes secFetch' hash' code' timestamp') :
    secFetch = secFetch' ∧ hash = hash' ∧ code = code' ∧ timestamp = timestamp' := by
  have htext := textEncode_inj (Json.wellFormed_stringify _) (Json.wellFormed_stringify _) h
  have hpayload := Json.stringify_inj (proper_proofPayload ..) (proper_proofPayload ..) htext
  simp only [proofPayload, Json.obj.injEq, List.cons.injEq, Prod.mk.injEq, Json.str.injEq,
    Json.num.injEq, true_and, and_true] at hpayload
  obtain ⟨hsite, hmode, hdest, huser, hhash, hcode, htime⟩ := hpayload
  obtain ⟨site, mode, dest, user⟩ := secFetch
  rw [SecFetchHeaders.mk.injEq]
  exact ⟨⟨hsite, hmode, hdest, huser⟩, hhash, hcode, make_inj htime⟩

theorem hexOfByte_inj {b c : UInt8} (h : Auth.hexOfByte b = Auth.hexOfByte c) : b = c := by
  simp only [Auth.hexOfByte, List.cons.injEq, and_true] at h
  have hdigit {m n : UInt8} (hm : m.toNat < 16) (hn : n.toNat < 16)
      (h : Json.hexUnit m.toUInt16 = Json.hexUnit n.toUInt16) : m.toNat = n.toNat := by
    have hm' : m.toUInt16 < 16 := UInt16.lt_iff_toNat_lt.mpr (by simpa using hm)
    have hn' : n.toUInt16 < 16 := UInt16.lt_iff_toNat_lt.mpr (by simpa using hn)
    have heq := Json.hexDigit_hexUnit hm'
    rw [h, Json.hexDigit_hexUnit hn', Option.some.injEq] at heq
    simpa using (congrArg UInt16.toNat heq).symm
  have hb := b.toNat_lt
  have hc := c.toNat_lt
  have hhigh := hdigit (by simp; omega) (by simp; omega) h.1
  have hlow := hdigit (by simp; omega) (by simp; omega) h.2
  simp only [UInt8.toNat_div, UInt8.toNat_mod, UInt8.reduceToNat] at hhigh hlow
  exact UInt8.toNat_inj.mp (by omega)

theorem computeContentHash_inj {sha256 : Bytes → Bytes} {text text' : Utf16}
    (h : computeContentHash sha256 text = computeContentHash sha256 text') :
    sha256 (textEncode text) = sha256 (textEncode text') := by
  have hflat : ∀ bs cs : Bytes, bs.flatMap Auth.hexOfByte = cs.flatMap Auth.hexOfByte → bs = cs := by
    intro bs
    induction bs with
    | nil =>
      intro cs h
      cases cs with
      | nil => rfl
      | cons c cs => simp [Auth.hexOfByte] at h
    | cons b bs ih =>
      intro cs h
      cases cs with
      | nil => simp [Auth.hexOfByte] at h
      | cons c cs =>
        rw [List.flatMap_cons, List.flatMap_cons] at h
        obtain ⟨hhead, hrest⟩ := List.append_inj h rfl
        rw [hexOfByte_inj hhead, ih cs hrest]
  exact hflat _ _ h

/-! ### What a challenge binds -/

/-- What `begin-challenge-assertion` derives a challenge from: what the browser has done until
`buildChallengeProof` is called, the tab, its page, the control code, the times and the nonce. -/
structure ChallengeContext where
  history : List BrowserEvent
  tabId : Int
  pageContent : Utf16
  controlCode : Utf16
  timestamp : Int
  origin : Utf16
  sessionNonce : Bytes
  deriving DecidableEq

namespace ChallengeContext

def input (c : ChallengeContext) : ChallengeDerivationInput where
  tlsBinding := buildChallengeProof sha256 (.after c.history) c.tabId c.controlCode c.pageContent
    c.timestamp
  origin := c.origin
  controlCode := c.controlCode
  sessionNonce := c.sessionNonce

def derivedChallenge (c : ChallengeContext) : Except String Bytes :=
  deriveChallenge sha256 (c.input sha256)

/-- The fetch metadata of the tab's last navigation. -/
def secFetch (c : ChallengeContext) : SecFetchHeaders :=
  (lastSecFetch c.tabId c.history.reverse).getD defaultSecFetch

/-- What is hashed on the way to the challenge. -/
def hashed (c : ChallengeContext) : List Bytes :=
  [textEncode c.pageContent,
    proofBytes c.secFetch (computeContentHash sha256 c.pageContent) c.controlCode c.timestamp] ++
    (serializeChallengeComponents (c.input sha256)).toOption.toList

variable {sha256 : Bytes → Bytes} {c : ChallengeContext} {challenge : Bytes}

/-- The three hashes of a challenge. -/
theorem hashes (h : c.derivedChallenge sha256 = .ok challenge) :
    ∃ proof bytes, c.hashed sha256 = [textEncode c.pageContent, proof, bytes] ∧
      proof = proofBytes c.secFetch (computeContentHash sha256 c.pageContent) c.controlCode
        c.timestamp ∧
      (sha256 proof).length ≤ maxTlsBindingLength ∧ (textEncode c.controlCode).length = 4 ∧
      c.sessionNonce.length = nonceLength ∧
      bytes = layout version (sha256 proof) (textEncode c.origin) (textEncode c.controlCode)
        c.sessionNonce ∧
      sha256 bytes = challenge := by
  have hproof : (c.input sha256).tlsBinding = sha256 (proofBytes c.secFetch
      (computeContentHash sha256 c.pageContent) c.controlCode c.timestamp) := by
    simp only [input, buildChallengeProof, SecFetchCache.get_after, secFetch]
  rw [derivedChallenge, deriveChallenge] at h
  cases hbytes : serializeChallengeComponents (c.input sha256) with
  | error e =>
    rw [hbytes] at h
    cases h
  | ok bytes =>
    rw [hbytes] at h
    obtain ⟨hlength, hcode, hnonce, hlayout⟩ := serializeChallengeComponents_ok hbytes
    rw [hproof] at hlength hlayout
    refine ⟨_, bytes, ?_, rfl, hlength, hcode, hnonce, hlayout, Except.ok.inj h⟩
    rw [hashed, hbytes]
    rfl

end ChallengeContext

/-- Two contexts with one challenge have the same last navigation, page, control code, time, origin
and nonce, unless the hash confuses two of the texts that it was applied to on the way. -/
theorem challenge_binds_page {sha256 : Bytes → Bytes} {c c' : ChallengeContext} {challenge : Bytes}
    (hc : c.derivedChallenge sha256 = .ok challenge)
    (hc' : c'.derivedChallenge sha256 = .ok challenge)
    (hsha : ∀ x ∈ c.hashed sha256, ∀ y ∈ c'.hashed sha256, sha256 x = sha256 y → x = y) :
    c.secFetch = c'.secFetch ∧ textEncode c.pageContent = textEncode c'.pageContent ∧
      c.controlCode = c'.controlCode ∧ c.timestamp = c'.timestamp ∧
      textEncode c.origin = textEncode c'.origin ∧ c.sessionNonce = c'.sessionNonce := by
  obtain ⟨proof, bytes, hhashed, hproof, hlength, hcode, hnonce, hbytes, hdigest⟩ := c.hashes hc
  obtain ⟨proof', bytes', hhashed', hproof', hlength', hcode', hnonce', hbytes', hdigest'⟩ :=
    c'.hashes hc'
  simp only [hhashed, hhashed', List.mem_cons, List.not_mem_nil, or_false] at hsha
  -- from the challenge to its components, to the text of the proof, to the page
  have hserialized := hsha bytes (by simp) bytes' (by simp) (hdigest.trans hdigest'.symm)
  rw [hbytes, hbytes'] at hserialized
  obtain ⟨hbinding, horigin, -, hnonces⟩ :=
    layout_inj hlength hlength' hcode hcode' hnonce hnonce' hserialized
  have hproofs := hsha proof (by simp) proof' (by simp) hbinding
  rw [hproof, hproof'] at hproofs
  obtain ⟨hsecFetch, hhash, hcodes, htime⟩ := proofBytes_inj hproofs
  have hpage := hsha _ (.inl rfl) _ (.inl rfl) (computeContentHash_inj hhash)
  exact ⟨hsecFetch, hpage, hcodes, htime, horigin, hnonces⟩

section Sample

def sampleNavigation (tabId : Int) (site : String) : BrowserEvent :=
  .onBeforeSendHeaders
    { mainFrame := true, tabId, requestHeaders := [(ofString "Sec-Fetch-Site", some (ofString site))] }

def sampleContext (history : List BrowserEvent) : ChallengeContext where
  history := history ++ [sampleNavigation 7 "none"]
  tabId := 7
  pageContent := ofString "1234"
  controlCode := ofString "1234"
  timestamp := 1700000000000
  origin := ofString "https://a"
  sessionNonce := List.replicate 32 7

/-- What comes before the last navigation, and in other tabs, makes no difference. -/
theorem challenge_binds_page_sample :
    let c := sampleContext []
    let c' := sampleContext [sampleNavigation 8 "none", sampleNavigation 7 "same-site", .onRemoved 7]
    ∃ challenge, c.derivedChallenge Sha256.sha256 = .ok challenge ∧
      c'.derivedChallenge Sha256.sha256 = .ok challenge ∧
      c.secFetch = c'.secFetch ∧ textEncode c.pageContent = textEncode c'.pageContent ∧
      c.controlCode = c'.controlCode ∧ c.timestamp = c'.timestamp ∧
      textEncode c.origin = textEncode c'.origin ∧ c.sessionNonce = c'.sessionNonce := by
  intro c c'
  have hlast : lastSecFetch 7 c'.history.reverse = lastSecFetch 7 c.history.reverse := by
    decide +kernel
  have hinput : c'.input Sha256.sha256 = c.input Sha256.sha256 := by
    simp only [ChallengeContext.input, buildChallengeProof, SecFetchCache.get_after, c', c,
      sampleContext] at hlast ⊢
    rw [hlast]
  have hhashed : c'.hashed Sha256.sha256 = c.hashed Sha256.sha256 := by
    rw [ChallengeContext.hashed, ChallengeContext.hashed, hinput, ChallengeContext.secFetch,
      ChallengeContext.secFetch]
    simp only [c', c, sampleContext] at hlast ⊢
    rw [hlast]
  have hheads : ((c.hashed Sha256.sha256).map fun m => (Sha256.sha256 m).head?) =
      [some 3, some 63, some 2] := by decide +kernel
  have hnodup : ((c.hashed Sha256.sha256).map fun m => (Sha256.sha256 m).head?).Nodup := by
    rw [hheads]
    decide
  obtain ⟨challenge, hc⟩ : ∃ challenge, c.derivedChallenge Sha256.sha256 = .ok challenge := by
    have hlength : ¬(c.input Sha256.sha256).tlsBinding.length > maxTlsBindingLength := by
      rw [ChallengeContext.input, buildChallengeProof, Sha256.length_sha256]
      decide
    rw [ChallengeContext.derivedChallenge, deriveChallenge, serializeChallengeComponents,
      if_neg hlength, if_neg (by decide), if_neg (by decide)]
    exact ⟨_, rfl⟩
  have hc' : c'.derivedChallenge Sha256.sha256 = .ok challenge := by
    rw [ChallengeContext.derivedChallenge, hinput]
    exact hc
  refine ⟨challenge, hc, hc', challenge_binds_page hc hc' fun x hx y hy hxy => ?_⟩
  rw [hhashed] at hy
  exact List.inj_on_of_nodup_map hnodup hx hy (congrArg List.head? hxy)

end Sample

end SmartIdVault.Challenge
