import Mathlib.Data.List.Perm.Basic
import SmartIdVault.Lib.Json
import SmartIdVault.Lib.Machine
import SmartIdVault.Lib.Tasks
import SmartIdVault.Transaction.UrlPattern

/-! The remote registry of `lib/transaction/remoteRegistry.ts`.  Each page and each life of the
worker has a copy of the module with its own cache of detectors; what they share is the storage.
The awaits of `loadCached`, `initializeRegistry` and `refreshRegistry` interleave, and a copy that
goes away may leave a write behind. -/

namespace SmartIdVault.Transaction

open Utf16 (ofString)

/-! ### Detectors -/

def isNonEmptyString : Option Json → Bool
  | some (.str s) => s != []
  | _ => false

def isNonEmptyArray : Option Json → Bool
  | some (.arr items) => !items.isEmpty
  | _ => false

def allowedExpectValues : List Utf16 := [ofString "amount", ofString "recipient", ofString "iban"]

def isAllowedExpect : Json → Bool
  | .str e => allowedExpectValues.contains e
  | _ => false

def isValidDetector (d : Json) : Bool :=
  isNonEmptyString (d.field (ofString "domain")) &&
    isNonEmptyString (d.field (ofString "urlPattern")) &&
    (match d.field (ofString "expects") with
      | some (.arr expects) => !expects.isEmpty && expects.all isAllowedExpect
      | _ => false) &&
    (match d.field (ofString "selectors") with
      | some sels =>
        isNonEmptyArray (sels.field (ofString "amount")) &&
          isNonEmptyArray (sels.field (ofString "recipient"))
      | none => false)

/-- What has been downloaded, and the pattern that it is compiled to. -/
structure DeclarativeDetector where
  json : Json
  compiledPattern : Option Expr := none

namespace DeclarativeDetector

def urlPattern (d : DeclarativeDetector) : Option Utf16 :=
  match d.json.field (ofString "urlPattern") with
  | some (.str pattern) => some pattern
  | _ => none

/-- A regular expression is not kept in the storage. -/
def serialized (d : DeclarativeDetector) : DeclarativeDetector := { json := d.json }

end DeclarativeDetector

/-- How `fetch` and `response.json()` end. -/
inductive Download
  | rejected
  | notOk
  | body (raw : Json)

section

variable (regExp : RegExpParser)

def compileDetectors (detectors : List DeclarativeDetector) : List DeclarativeDetector :=
  detectors.map fun d =>
    { d with compiledPattern := d.urlPattern.bind (Transaction.compiledPattern regExp) }

def fetchRegistry : Download → List DeclarativeDetector
  | .rejected | .notOk => []
  | .body raw =>
    match raw.field (ofString "detectors") with
    | some (.arr detectors) =>
      compileDetectors regExp ((detectors.filter isValidDetector).map fun json => { json })
    | _ => []

/-! ### Copies of the module -/

/-- What is stored under `registry:detectors`. -/
structure Entry where
  detectors : List DeclarativeDetector
  timestamp : Int

/-- What a call awaits: the storage, the download or the end of a write.  `initial` says that the
call is the one of `initPromise`. -/
inductive RegistryCall
  | loading (initial : Bool)
  | fetching (initial : Bool)
  | storing (initial : Bool) (entry : Entry)

def RegistryCall.initial : RegistryCall → Bool
  | .loading initial | .fetching initial | .storing initial _ => initial

def RegistryCall.write : RegistryCall → Option Entry
  | .storing _ entry => some entry
  | _ => none

structure Registry where
  cachedDetectors : Option (List DeclarativeDetector) := none
  cacheTimestamp : Int := 0
  initPromise : Bool := false
  calls : List RegistryCall := []

def cacheTtlMs : Int := 24 * 60 * 60 * 1000

def maxUrlTestLength : Nat := 2048

/-- `RegExp.prototype.test` of a compiled pattern is the platform's. -/
def findDeclarativeDetector (test : Expr → Utf16 → Bool) (r : Registry) (url : Utf16) :
    Option DeclarativeDetector :=
  r.cachedDetectors.bind fun detectors =>
    detectors.find? fun d => d.compiledPattern.any fun e => test e (url.take maxUrlTestLength)

namespace Registry

/-- What `loadCached` makes of what the storage holds. -/
def load (r : Registry) : Option Entry → Registry
  | none => r
  | some parsed =>
    { r with
      cachedDetectors := some (compileDetectors regExp parsed.detectors)
      cacheTimestamp := parsed.timestamp }

/-- Call `k` ends. -/
def finish (r : Registry) (k : Nat) (initial : Bool) : Registry :=
  { r with calls := r.calls.eraseIdx k, initPromise := r.initPromise && !initial }

def goOn (r : Registry) (k : Nat) (c : RegistryCall) : Registry :=
  { r with calls := r.calls.set k c }

/-- The storage has been read. -/
def loaded (r : Registry) (now : Int) (k : Nat) (initial : Bool) : Registry :=
  if initial ∧ cacheTtlMs < now - r.cacheTimestamp then r.goOn k (.fetching initial)
  else r.finish k initial

/-- The download has ended. -/
def downloaded (r : Registry) (now : Int) (k : Nat) (initial : Bool)
    (fresh : List DeclarativeDetector) : Registry :=
  if fresh.isEmpty then r.finish k initial
  else
    { r with cachedDetectors := some fresh, cacheTimestamp := now }.goOn k
      (.storing initial ⟨fresh.map DeclarativeDetector.serialized, now⟩)

end Registry

/-- The copies of the module, the storage and the clock.  `writes` are left behind by copies that
have gone away; `downloads` are all downloads so far, with the times at which they ended. -/
structure Registries where
  now : Int
  stored : Option Entry := none
  copies : List Registry := []
  writes : List Entry := []
  downloads : List (Download × Int) := []

inductive RegistryEvent
  | opened
  -- the worker restarts, or the page is loaded anew
  | restarted (i : Nat)
  | loadCached (i : Nat)
  | initializeRegistry (i : Nat)
  | refreshRegistry (i : Nat)
  -- the storage answers the read of call `k`, or fails
  | loaded (i k : Nat) (ok : Bool)
  | downloaded (i k : Nat) (d : Download)
  | written (i k : Nat) (ok : Bool)
  | writtenLate (k : Nat) (ok : Bool)
  | tick (ms : Nat)

namespace Registries

def setCopy (s : Registries) (i : Nat) (r : Registry) : Registries :=
  { s with copies := s.copies.set i r }

def store (s : Registries) (entry : Entry) (ok : Bool) : Registries :=
  { s with stored := if ok then some entry else s.stored }

/-- What event `e` does to copy `i`. -/
def stepCopy (s : Registries) (i : Nat) (r : Registry) : RegistryEvent → Option Registries
  | .restarted _ =>
    some { s.setCopy i {} with writes := s.writes ++ r.calls.filterMap RegistryCall.write }
  | .loadCached _ => some (s.setCopy i { r with calls := r.calls ++ [.loading false] })
  | .initializeRegistry _ =>
    some <| if r.initPromise then s
      else s.setCopy i { r with initPromise := true, calls := r.calls ++ [.loading true] }
  | .refreshRegistry _ => some (s.setCopy i { r with calls := r.calls ++ [.fetching false] })
  | .loaded _ k ok =>
    match r.calls[k]? with
    | some (.loading initial) =>
      let r := if ok then r.load regExp s.stored else r
      some (s.setCopy i (r.loaded s.now k initial))
    | _ => none
  | .downloaded _ k d =>
    match r.calls[k]? with
    | some (.fetching initial) =>
      some
        { s.setCopy i (r.downloaded s.now k initial (fetchRegistry regExp d)) with
          downloads := s.downloads ++ [(d, s.now)] }
    | _ => none
  | .written _ k ok =>
    match r.calls[k]? with
    | some (.storing initial entry) => some ((s.store entry ok).setCopy i (r.finish k initial))
    | _ => none
  | .opened | .writtenLate _ _ | .tick _ => none

def step (s : Registries) : RegistryEvent → Option Registries
  | .opened => some { s with copies := s.copies ++ [{}] }
  | .writtenLate k ok =>
    s.writes[k]?.map fun entry => { s.store entry ok with writes := s.writes.eraseIdx k }
  | .tick ms => some { s with now := s.now + ms }
  | e@(.restarted i) | e@(.loadCached i) | e@(.initializeRegistry i) | e@(.refreshRegistry i)
  | e@(.loaded i _ _) | e@(.downloaded i _ _) | e@(.written i _ _) =>
    s.copies[i]?.bind fun r => s.stepCopy regExp i r e

abbrev Run : Registries → List RegistryEvent → Registries → Prop := Machine.Run (step regExp)

end Registries

/-! ### What a cache holds -/

/-- The detectors of one download, all of them, which ended at that time. -/
def IsDownload (downloads : List (Download × Int)) (detectors : List DeclarativeDetector)
    (timestamp : Int) : Prop :=
  detectors ≠ [] ∧ ∃ d, (d, timestamp) ∈ downloads ∧ detectors = fetchRegistry regExp d

/-- The entry is one of a download as far as the storage keeps it. -/
def Entry.IsDownload (downloads : List (Download × Int)) (entry : Entry) : Prop :=
  Transaction.IsDownload regExp downloads (compileDetectors regExp entry.detectors) entry.timestamp

structure Registry.Sound (downloads : List (Download × Int)) (r : Registry) : Prop where
  cached : ∀ detectors, r.cachedDetectors = some detectors →
    IsDownload regExp downloads detectors r.cacheTimestamp
  initial : r.calls.countP RegistryCall.initial = if r.initPromise then 1 else 0
  writes : ∀ c ∈ r.calls, ∀ entry, c.write = some entry → entry.IsDownload regExp downloads

structure Registries.Sound (s : Registries) : Prop where
  past : ∀ x ∈ s.downloads, x.2 ≤ s.now
  stored : ∀ entry, s.stored = some entry → entry.IsDownload regExp s.downloads
  copies : ∀ r ∈ s.copies, r.Sound regExp s.downloads
  writes : ∀ entry ∈ s.writes, entry.IsDownload regExp s.downloads

variable {regExp} {downloads downloads' : List (Download × Int)} {r : Registry}
  {s t : Registries} {entry : Entry} {detectors : List DeclarativeDetector} {k : Nat}
  {initial : Bool}

theorem IsDownload.mono (hsub : downloads ⊆ downloads') {timestamp : Int}
    (h : IsDownload regExp downloads detectors timestamp) :
    IsDownload regExp downloads' detectors timestamp :=
  ⟨h.1, h.2.imp fun _ hd => ⟨hsub hd.1, hd.2⟩⟩

theorem compileDetectors_serialized (detectors : List DeclarativeDetector) :
    compileDetectors regExp (detectors.map DeclarativeDetector.serialized) =
      compileDetectors regExp detectors := by
  rw [compileDetectors, compileDetectors, List.map_map]
  rfl

theorem compileDetectors_idem (detectors : List DeclarativeDetector) :
    compileDetectors regExp (compileDetectors regExp detectors) =
      compileDetectors regExp detectors := by
  rw [compileDetectors, compileDetectors, List.map_map]
  rfl

theorem compileDetectors_fetchRegistry (d : Download) :
    compileDetectors regExp (fetchRegistry regExp d) = fetchRegistry regExp d := by
  unfold fetchRegistry
  cases d with
  | rejected | notOk => rfl
  | body raw =>
    simp only
    split
    · exact compileDetectors_idem _
    · rfl

theorem valid_of_mem_fetchRegistry {d : Download} {detector : DeclarativeDetector}
    (h : detector ∈ fetchRegistry regExp d) :
    isValidDetector detector.json = true ∧
      detector.compiledPattern = detector.urlPattern.bind (compiledPattern regExp) := by
  unfold fetchRegistry at h
  cases d with
  | rejected | notOk => cases h
  | body raw =>
    simp only at h
    split at h
    · obtain ⟨e, he, rfl⟩ := List.mem_map.mp h
      obtain ⟨json, hjson, rfl⟩ := List.mem_map.mp he
      exact ⟨(List.mem_filter.mp hjson).2, rfl⟩
    · cases h

namespace Registry

theorem Sound.mono (hsub : downloads ⊆ downloads') (h : r.Sound regExp downloads) :
    r.Sound regExp downloads' :=
  { h with
    cached := fun detectors hd => (h.cached detectors hd).mono hsub
    writes := fun c hc entry he => (h.writes c hc entry he).mono hsub }

theorem Sound.empty : ({} : Registry).Sound regExp downloads :=
  ⟨fun _ => nofun, rfl, fun _ => nofun⟩

theorem Sound.call {c : RegistryCall} (h : r.Sound regExp downloads) (hinit : c.initial = false)
    (hwrite : c.write = none) :
    ({ r with calls := r.calls ++ [c] } : Registry).Sound regExp downloads :=
  { h with
    initial := by simpa [hinit] using h.initial
    writes := fun c' hc' entry he => by
      rcases List.mem_append.mp hc' with hc' | hc'
      · exact h.writes c' hc' entry he
      · rw [List.mem_singleton.mp hc', hwrite] at he
        cases he }

theorem Sound.initializeRegistry (h : r.Sound regExp downloads) (hidle : r.initPromise = false) :
    ({ r with initPromise := true, calls := r.calls ++ [.loading true] } : Registry).Sound regExp
      downloads :=
  { h with
    initial := by
      have hnone : r.calls.countP RegistryCall.initial = 0 := by simpa [hidle] using h.initial
      rw [List.countP_append, hnone]
      rfl
    writes := fun c hc entry he => by
      rcases List.mem_append.mp hc with hc | hc
      · exact h.writes c hc entry he
      · rw [List.mem_singleton.mp hc] at he
        cases he }

theorem Sound.load (h : r.Sound regExp downloads)
    (hstored : ∀ entry ∈ stored, entry.IsDownload regExp downloads) :
    (r.load regExp stored).Sound regExp downloads := by
  cases stored with
  | none => exact h
  | some entry =>
    exact { h with
      cached := fun detectors hd => by
        cases hd
        exact hstored entry rfl }

/-- A call that goes on stays the initialization or stays none. -/
theorem Sound.goOn {c c' : RegistryCall} (h : r.Sound regExp downloads)
    (hc : r.calls[k]? = some c) (hinit : c'.initial = c.initial)
    (hwrite : ∀ entry, c'.write = some entry → entry.IsDownload regExp downloads) :
    (r.goOn k c').Sound regExp downloads :=
  { h with
    initial := by
      have hmap : (r.calls.set k c').map RegistryCall.initial = r.calls.map RegistryCall.initial :=
        Tasks.map_set hc hinit
      have hcount (cs : List RegistryCall) :
          cs.countP RegistryCall.initial = (cs.map RegistryCall.initial).count true := by
        rw [List.count, List.countP_map]
        exact List.countP_congr fun c _ => by simp
      calc (r.calls.set k c').countP RegistryCall.initial
          = r.calls.countP RegistryCall.initial := by rw [hcount, hmap, ← hcount]
        _ = _ := h.initial
    writes := fun c₁ hc₁ entry he => by
      rcases Tasks.mem_set hc₁ with rfl | ⟨j, -, hj⟩
      · exact hwrite entry he
      · exact h.writes c₁ (List.mem_of_getElem? hj) entry he }

theorem Sound.finish {c : RegistryCall} (h : r.Sound regExp downloads)
    (hc : r.calls[k]? = some c) : (r.finish k c.initial).Sound regExp downloads :=
  { h with
    initial := by
      obtain ⟨hk, hget⟩ := List.getElem?_eq_some_iff.mp hc
      have hperm : r.calls.Perm (c :: r.calls.eraseIdx k) := by
        rw [← hget]
        exact (List.getElem_cons_eraseIdx_perm hk).symm
      have hcount := h.initial
      rw [hperm.countP_eq, List.countP_cons] at hcount
      -- the initialization is the only one, so that none is left when it ends
      cases hpromise : r.initPromise <;> cases hinit : c.initial <;>
        simp_all [Registry.finish]
    writes := fun c₁ hc₁ => h.writes c₁ (List.mem_of_mem_eraseIdx hc₁) }

theorem Sound.loaded {now : Int} (h : r.Sound regExp downloads)
    (hc : r.calls[k]? = some (.loading initial)) :
    (r.loaded now k initial).Sound regExp downloads := by
  unfold Registry.loaded
  split
  · exact h.goOn hc rfl fun _ => nofun
  · exact h.finish hc

/-- A download that has ended is the cache, unless there is nothing in it. -/
theorem Sound.downloaded {now : Int} {d : Download} (h : r.Sound regExp downloads)
    (hc : r.calls[k]? = some (.fetching initial)) :
    (r.downloaded now k initial (fetchRegistry regExp d)).Sound regExp
      (downloads ++ [(d, now)]) := by
  have hmono : r.Sound regExp (downloads ++ [(d, now)]) :=
    h.mono (List.subset_append_left _ _)
  unfold Registry.downloaded
  split
  · exact hmono.finish hc
  next hne =>
    have hdownload : IsDownload regExp (downloads ++ [(d, now)]) (fetchRegistry regExp d) now :=
      ⟨fun hnil => hne (by rw [hnil]; rfl), d, List.mem_append_right _ (List.mem_singleton_self _),
        rfl⟩
    refine Sound.goOn (r := { r with
      cachedDetectors := some (fetchRegistry regExp d), cacheTimestamp := now }) ?_ hc rfl ?_
    · exact { hmono with
        cached := fun detectors hd => by
          cases hd
          exact hdownload }
    · intro entry hentry
      cases hentry
      rw [Entry.IsDownload, compileDetectors_serialized, compileDetectors_fetchRegistry]
      exact hdownload

end Registry

namespace Registries

theorem Sound.setCopy {i : Nat} (h : s.Sound regExp) (hr : r.Sound regExp s.downloads) :
    (s.setCopy i r).Sound regExp :=
  { h with
    copies := fun r' hr' => by
      rcases List.mem_or_eq_of_mem_set hr' with hr' | rfl
      · exact h.copies r' hr'
      · exact hr }

theorem Sound.store (h : s.Sound regExp) (hentry : entry.IsDownload regExp s.downloads)
    (ok : Bool) : (s.store entry ok).Sound regExp :=
  { h with
    stored := fun entry' hentry' => by
      cases ok with
      | false => exact h.stored entry' hentry'
      | true =>
        cases hentry'
        exact hentry }

/-- A download is added to all. -/
theorem Sound.add (h : s.Sound regExp) (d : Download) :
    ({ s with downloads := s.downloads ++ [(d, s.now)] } : Registries).Sound regExp := by
  have hsub : s.downloads ⊆ s.downloads ++ [(d, s.now)] := List.subset_append_left _ _
  refine ⟨fun x hx => ?_, fun entry hentry => (h.stored entry hentry).mono hsub,
    fun r hr => (h.copies r hr).mono hsub, fun entry hentry => (h.writes entry hentry).mono hsub⟩
  rcases List.mem_append.mp hx with hx | hx
  · exact h.past x hx
  · rw [List.mem_singleton.mp hx]

theorem Sound.stepCopy {i : Nat} {e : RegistryEvent} (h : s.Sound regExp) (hr : r ∈ s.copies)
    (hstep : s.stepCopy regExp i r e = some t) : t.Sound regExp := by
  have hsound := h.copies r hr
  cases e with
  | restarted =>
    cases hstep
    have hset : (s.setCopy i {}).Sound regExp := h.setCopy .empty
    exact { hset with
      writes := fun entry hentry => by
        rcases List.mem_append.mp hentry with hentry | hentry
        · exact h.writes entry hentry
        · obtain ⟨c, hc, hwrite⟩ := List.mem_filterMap.mp hentry
          exact hsound.writes c hc entry hwrite }
  | loadCached =>
    cases hstep
    exact h.setCopy (hsound.call rfl rfl)
  | initializeRegistry =>
    cases hstep
    split
    · exact h
    next hidle => exact h.setCopy (hsound.initializeRegistry (by simpa using hidle))
  | refreshRegistry =>
    cases hstep
    exact h.setCopy (hsound.call rfl rfl)
  | loaded i k ok =>
    simp only [Registries.stepCopy] at hstep
    split at hstep
    next initial hc =>
      cases hstep
      cases ok with
      | false => exact h.setCopy (hsound.loaded hc)
      | true =>
        refine h.setCopy (Registry.Sound.loaded (hsound.load h.stored) ?_)
        cases s.stored <;> exact hc
    next => cases hstep
  | downloaded i k d =>
    simp only [Registries.stepCopy] at hstep
    split at hstep
    next initial hc =>
      cases hstep
      exact (h.add d).setCopy (hsound.downloaded hc)
    next => cases hstep
  | written i k ok =>
    simp only [Registries.stepCopy] at hstep
    split at hstep
    next initial entry hc =>
      cases hstep
      have hentry := hsound.writes _ (List.mem_of_getElem? hc) entry rfl
      exact (h.store hentry ok).setCopy (hsound.finish hc)
    next => cases hstep
  | opened | writtenLate | tick => cases hstep

theorem Sound.step {e : RegistryEvent} (h : s.Sound regExp) (hstep : s.step regExp e = some t) :
    t.Sound regExp := by
  cases e with
  | opened =>
    cases hstep
    exact { h with
      copies := fun r hr => by
        rcases List.mem_append.mp hr with hr | hr
        · exact h.copies r hr
        · rw [List.mem_singleton.mp hr]
          exact .empty }
  | writtenLate k ok =>
    obtain ⟨entry, hentry, rfl⟩ := Option.map_eq_some_iff.mp hstep
    have hstore := h.store (h.writes entry (List.mem_of_getElem? hentry)) ok
    exact { hstore with
      writes := fun entry' hentry' => h.writes entry' (List.mem_of_mem_eraseIdx hentry') }
  | tick ms =>
    cases hstep
    exact { h with past := fun x hx => (h.past x hx).trans (by simp) }
  | restarted | loadCached | initializeRegistry | refreshRegistry | loaded | downloaded | written =>
    obtain ⟨r, hr, hstep⟩ := Option.bind_eq_some_iff.mp hstep
    exact h.stepCopy (List.mem_of_getElem? hr) hstep

end Registries

/-- **The cached detectors.**  However the calls of the pages and the worker interleave, and
whatever fails or restarts, a copy of the module runs one initialization at most, and the detectors
in its cache are all those of one download, which has ended at the time that the cache says. -/
theorem caches_are_downloads {now : Int} {es : List RegistryEvent}
    (h : Registries.Run regExp { now } es s) (hr : r ∈ s.copies) :
    r.calls.countP RegistryCall.initial ≤ 1 ∧
      ∀ detectors, r.cachedDetectors = some detectors →
        r.cacheTimestamp ≤ s.now ∧ IsDownload regExp s.downloads detectors r.cacheTimestamp := by
  have hsound : s.Sound regExp :=
    h.invariant_all (I := Registries.Sound regExp)
      ⟨fun _ => nofun, fun _ => nofun, fun _ => nofun, fun _ => nofun⟩
      fun _ _ _ hs hstep => hs.step hstep
  have hcopy := hsound.copies r hr
  refine ⟨?_, fun detectors hdetectors => ?_⟩
  · rw [hcopy.initial]
    split <;> simp
  · have hdownload := hcopy.cached detectors hdetectors
    obtain ⟨-, d, hd, -⟩ := hdownload
    exact ⟨hsound.past _ hd, hcopy.cached detectors hdetectors⟩

/-! ### One download a day -/

/-- The times at which downloads with detectors in them have ended. -/
def updates (regExp : RegExpParser) (downloads : List (Download × Int)) : List Int :=
  (downloads.filter fun x => !(fetchRegistry regExp x.1).isEmpty).map Prod.snd

namespace Registries

/-- The storage works, the worker is the first copy of the module and the one to initialize it, and
it does not restart while it writes. -/
def Undisturbed (s : Registries) : RegistryEvent → Prop
  | .initializeRegistry i => i = 0
  | .loaded _ _ ok | .written _ _ ok => ok = true
  | .restarted i => ∀ r, s.copies[i]? = some r → r.calls.filterMap RegistryCall.write = []
  | .refreshRegistry _ => False
  | _ => True

instance (s : Registries) (e : RegistryEvent) : Decidable (s.Undisturbed e) :=
  match e with
  | .initializeRegistry i => inferInstanceAs (Decidable (i = 0))
  | .loaded _ _ ok | .written _ _ ok => inferInstanceAs (Decidable (ok = true))
  | .restarted i =>
    decidable_of_iff (∀ r ∈ s.copies[i]?, r.calls.filterMap RegistryCall.write = []) Iff.rfl
  | .refreshRegistry _ => isFalse id
  | .opened | .loadCached _ | .downloaded _ _ _ | .writtenLate _ _ | .tick _ => isTrue trivial

/-- The worker is writing the entry. -/
def Writing (s : Registries) (entry : Entry) : Prop :=
  ∃ r, s.copies[0]? = some r ∧ ∃ c ∈ r.calls, c.write = some entry

/-- The time of the last update. -/
def last (regExp : RegExpParser) (s : Registries) : Option Int :=
  (updates regExp s.downloads).getLast?

/-- What a call of copy `i` may be: no copy but the worker does more than to read the storage. -/
def Ordinary (i : Nat) (c : RegistryCall) : Prop := i = 0 ∧ c.initial = true ∨ c = .loading false

/-- The updates have been a day apart, and what the storage has or is about to get says when the
last one was. -/
structure Paced (regExp : RegExpParser) (s : Registries) : Prop where
  sound : s.Sound regExp
  apart : (updates regExp s.downloads).Pairwise (· + cacheTtlMs < ·)
  late : s.writes = []
  ordinary : ∀ i r, s.copies[i]? = some r → ∀ c ∈ r.calls, Ordinary i c
  due : ∀ r, s.copies[0]? = some r → .fetching true ∈ r.calls →
    ∀ last, s.last regExp = some last → last + cacheTtlMs < s.now
  stored : ∀ last, s.last regExp = some last →
    (∃ entry, s.Writing entry ∧ entry.timestamp = last) ∨
      s.stored.map Entry.timestamp = some last ∧ ∀ entry, ¬s.Writing entry

theorem lt_of_apart {times : List Int} (h : times.Pairwise (· + cacheTtlMs < ·)) {last now x : Int}
    (hlast : times.getLast? = some last) (hdue : last + cacheTtlMs < now) (hx : x ∈ times) :
    x + cacheTtlMs < now := by
  obtain ⟨before, rfl⟩ := List.getLast?_eq_some_iff.mp hlast
  rcases List.mem_append.mp hx with hx | hx
  · have hlt := (List.pairwise_append.mp h).2.2 x hx last (List.mem_singleton_self _)
    have hpos : 0 ≤ cacheTtlMs := by decide
    omega
  · rw [List.mem_singleton.mp hx]
    exact hdue

theorem updates_append (downloads : List (Download × Int)) (d : Download) (now : Int) :
    updates regExp (downloads ++ [(d, now)]) =
      updates regExp downloads ++ if (fetchRegistry regExp d).isEmpty then [] else [now] := by
  rw [updates, List.filter_append, List.map_append, ← updates]
  cases h : (fetchRegistry regExp d).isEmpty <;> simp [h]

/-- A copy runs one initialization at most. -/
theorem eq_of_initial (h : r.Sound regExp downloads) {c c' : RegistryCall} (hc : c ∈ r.calls)
    (hc' : c' ∈ r.calls) (hinit : c.initial = true) (hinit' : c'.initial = true) : c = c' := by
  have hlength : (r.calls.filter RegistryCall.initial).length ≤ 1 := by
    rw [← List.countP_eq_length_filter, h.initial]
    split <;> simp
  have hmem : c ∈ r.calls.filter RegistryCall.initial := List.mem_filter.mpr ⟨hc, hinit⟩
  have hmem' : c' ∈ r.calls.filter RegistryCall.initial := List.mem_filter.mpr ⟨hc', hinit'⟩
  match r.calls.filter RegistryCall.initial, hlength, hmem, hmem' with
  | [a], _, hmem, hmem' => rw [List.mem_singleton.mp hmem, List.mem_singleton.mp hmem']

/-- A call stays when another one ends. -/
theorem mem_eraseIdx_of_ne {calls : List RegistryCall} {c c' : RegistryCall}
    (hc : calls[k]? = some c) (hc' : c' ∈ calls) (hne : c' ≠ c) : c' ∈ calls.eraseIdx k := by
  obtain ⟨hk, rfl⟩ := List.getElem?_eq_some_iff.mp hc
  have hmem := (List.getElem_cons_eraseIdx_perm hk).mem_iff.mpr hc'
  exact (List.mem_cons.mp hmem).resolve_left hne

theorem mem_set_of_ne {calls : List RegistryCall} {c c' u : RegistryCall}
    (hc : calls[k]? = some c) (hc' : c' ∈ calls) (hne : c' ≠ c) : c' ∈ calls.set k u := by
  obtain ⟨j, hj⟩ := List.mem_iff_getElem?.mp hc'
  refine Tasks.mem_set_of_ne (fun hjk => hne ?_) hj
  rw [hjk, hc] at hj
  exact (Option.some.inj hj).symm

theorem mem_of_mem_setCopy {i : Nat} {r' : Registry} (h : (s.setCopy i r').copies[0]? = some r) :
    i = 0 ∧ r = r' ∨ i ≠ 0 ∧ s.copies[0]? = some r :=
  (Tasks.get_set h).imp (And.imp_left Eq.symm) (And.imp_left Ne.symm)

theorem writing_setCopy {i : Nat} {r' : Registry} (hr : s.copies[i]? = some r)
    (hwrite : ∀ entry, (∃ c ∈ r'.calls, c.write = some entry) ↔ ∃ c ∈ r.calls, c.write = some entry)
    (entry : Entry) : (s.setCopy i r').Writing entry ↔ s.Writing entry := by
  constructor
  · rintro ⟨r₁, hr₁, hc⟩
    obtain ⟨rfl, rfl⟩ | ⟨-, hr₁⟩ := mem_of_mem_setCopy hr₁
    · exact ⟨r, hr, (hwrite entry).mp hc⟩
    · exact ⟨r₁, hr₁, hc⟩
  · rintro ⟨r₁, hr₁, hc⟩
    by_cases hi : i = 0
    · subst hi
      obtain rfl := Option.some.inj (hr.symm.trans hr₁)
      exact ⟨r', Tasks.set_self hr r', (hwrite entry).mpr hc⟩
    · exact ⟨r₁, Tasks.get_set_of_ne (Ne.symm hi) hr₁, hc⟩

/-- A copy changes and writes what it wrote. -/
theorem Paced.setCopy {i : Nat} {r' : Registry} (h : s.Paced regExp) (hr : s.copies[i]? = some r)
    (hsound : r'.Sound regExp s.downloads) (hordinary : ∀ c ∈ r'.calls, Ordinary i c)
    (hdue : i = 0 → .fetching true ∈ r'.calls →
      ∀ last, s.last regExp = some last → last + cacheTtlMs < s.now)
    (hwrite : ∀ entry,
      (∃ c ∈ r'.calls, c.write = some entry) ↔ ∃ c ∈ r.calls, c.write = some entry) :
    (s.setCopy i r').Paced regExp :=
  { h with
    sound := h.sound.setCopy hsound
    ordinary := fun j r₁ hr₁ c hc => by
      obtain ⟨rfl, rfl⟩ | ⟨-, hr₁⟩ := Tasks.get_set hr₁
      · exact hordinary c hc
      · exact h.ordinary j r₁ hr₁ c hc
    due := fun r₁ hr₁ hc => by
      obtain ⟨rfl, rfl⟩ | ⟨-, hr₁⟩ := mem_of_mem_setCopy hr₁
      · exact hdue rfl hc
      · exact h.due r₁ hr₁ hc
    stored := fun last hlast => by
      have hwriting := writing_setCopy hr hwrite
      refine (h.stored last hlast).imp ?_ (And.imp_right ?_)
      · exact fun ⟨entry, hentry, htime⟩ => ⟨entry, (hwriting entry).mpr hentry, htime⟩
      · exact fun hnone entry hentry => hnone entry ((hwriting entry).mp hentry) }

/-- A call that does not write ends. -/
theorem Paced.finish {i : Nat} {c : RegistryCall} (h : s.Paced regExp)
    (hr : s.copies[i]? = some r) {r' : Registry} (hsound : r'.Sound regExp s.downloads)
    (hcalls : r'.calls = r.calls) (hc : r.calls[k]? = some c) (hread : c.write = none) :
    (s.setCopy i (r'.finish k c.initial)).Paced regExp := by
  have hmem : ∀ c' ∈ (r'.finish k c.initial).calls, c' ∈ r.calls := by
    intro c' hc'
    rw [← hcalls]
    exact List.mem_of_mem_eraseIdx hc'
  refine h.setCopy hr (hsound.finish (hcalls ▸ hc)) ?_ ?_ fun entry => ⟨?_, ?_⟩
  · exact fun c' hc' => h.ordinary i r hr c' (hmem c' hc')
  · rintro rfl hfetching
    exact h.due r hr (hmem _ hfetching)
  · exact fun ⟨c', hc', hwrite⟩ => ⟨c', hmem c' hc', hwrite⟩
  · rintro ⟨c', hc', hwrite⟩
    refine ⟨c', ?_, hwrite⟩
    simp only [Registry.finish, hcalls]
    refine mem_eraseIdx_of_ne hc hc' fun heq => ?_
    rw [heq, hread] at hwrite
    cases hwrite

theorem Paced.call {i : Nat} {c : RegistryCall} {r' : Registry} (h : s.Paced regExp)
    (hr : s.copies[i]? = some r) (hsound : r'.Sound regExp s.downloads)
    (hcalls : r'.calls = r.calls ++ [c]) (hordinary : Ordinary i c) (hread : c.write = none)
    (hfetching : c ≠ .fetching true) : (s.setCopy i r').Paced regExp := by
  refine h.setCopy hr hsound ?_ ?_ fun entry => ?_ <;> rw [hcalls]
  · intro c' hc'
    rcases List.mem_append.mp hc' with hc' | hc'
    · exact h.ordinary i r hr c' hc'
    · rw [List.mem_singleton.mp hc']
      exact hordinary
  · rintro rfl hc'
    rcases List.mem_append.mp hc' with hc' | hc'
    · exact h.due r hr hc'
    · exact absurd (List.mem_singleton.mp hc').symm hfetching
  · simp [or_and_right, exists_or, hread]

/-- The initialization reads what the storage has, which says when the last update was. -/
theorem Paced.loaded {i : Nat} (h : s.Paced regExp) (hr : s.copies[i]? = some r)
    (hc : r.calls[k]? = some (.loading initial)) :
    (s.setCopy i ((r.load regExp s.stored).loaded s.now k initial)).Paced regExp := by
  have hsound := (h.sound.copies r (List.mem_of_getElem? hr)).load h.sound.stored
  have hcalls : (r.load regExp s.stored).calls = r.calls := by cases s.stored <;> rfl
  have hmem := List.mem_of_getElem? hc
  have hordinary := h.ordinary i r hr _ hmem
  unfold Registry.loaded
  split
  next hdue =>
    obtain ⟨rfl, hdue⟩ := hdue
    obtain ⟨rfl, -⟩ | heq := hordinary
    swap
    · cases heq
    have hset : ((r.load regExp s.stored).goOn k (.fetching true)).calls =
        r.calls.set k (.fetching true) := congrArg (List.set · k _) hcalls
    have hload : (r.load regExp s.stored).calls[k]? = some (.loading true) := by rw [hcalls, hc]
    refine h.setCopy hr (hsound.goOn hload rfl fun _ => nofun) ?_ ?_ fun entry => ?_
    · intro c' hc'
      rw [hset] at hc'
      rcases Tasks.mem_set hc' with rfl | ⟨j, -, hj⟩
      · exact .inl ⟨rfl, rfl⟩
      · exact h.ordinary 0 r hr c' (List.mem_of_getElem? hj)
    · intro _ _ last hlast
      have hcopy := h.sound.copies r (List.mem_of_getElem? hr)
      -- the initialization is not writing, so that the storage has the last update
      obtain ⟨entry, ⟨r₁, hr₁, c', hc', hwrite⟩, -⟩ | ⟨hstored, -⟩ := h.stored last hlast
      · obtain rfl := Option.some.inj (hr.symm.trans hr₁)
        obtain ⟨-, hinit⟩ | rfl := h.ordinary 0 r hr c' hc'
        · rw [← eq_of_initial hcopy hmem hc' rfl hinit] at hwrite
          cases hwrite
        · cases hwrite
      · obtain ⟨entry, hentry, rfl⟩ := Option.map_eq_some_iff.mp hstored
        rw [hentry] at hdue
        simp only [Registry.load] at hdue
        omega
    · rw [hset]
      constructor
      · rintro ⟨c', hc', hwrite⟩
        rcases Tasks.mem_set hc' with rfl | ⟨j, -, hj⟩
        · cases hwrite
        · exact ⟨c', List.mem_of_getElem? hj, hwrite⟩
      · rintro ⟨c', hc', hwrite⟩
        refine ⟨c', mem_set_of_ne hc hc' ?_, hwrite⟩
        rintro rfl
        cases hwrite
  next => exact h.finish hr hsound hcalls hc rfl

/-- A download that has ended is an update, or changes nothing. -/
theorem Paced.downloaded {i : Nat} {d : Download} (h : s.Paced regExp)
    (hr : s.copies[i]? = some r) (hc : r.calls[k]? = some (.fetching initial)) :
    ({ s.setCopy i (r.downloaded s.now k initial (fetchRegistry regExp d)) with
      downloads := s.downloads ++ [(d, s.now)] } : Registries).Paced regExp := by
  have hmem := List.mem_of_getElem? hc
  have hcopy := h.sound.copies r (List.mem_of_getElem? hr)
  have hupdates : updates regExp (s.downloads ++ [(d, s.now)]) =
      updates regExp s.downloads ++ if (fetchRegistry regExp d).isEmpty then [] else [s.now] :=
    updates_append s.downloads d s.now
  have hadd := h.sound.add d
  have hnew : (r.downloaded s.now k initial (fetchRegistry regExp d)).Sound regExp
      (s.downloads ++ [(d, s.now)]) := hcopy.downloaded hc
  unfold Registry.downloaded at hnew ⊢
  split at hnew
  next hempty =>
    rw [if_pos hempty, List.append_nil] at hupdates
    have hpaced : ({ s with downloads := s.downloads ++ [(d, s.now)] } : Registries).Paced regExp :=
      { h with
        sound := hadd
        apart := hupdates ▸ h.apart
        due := fun r₁ hr₁ hc₁ last hlast =>
          h.due r₁ hr₁ hc₁ last (by rwa [Registries.last, hupdates] at hlast)
        stored := fun last hlast => h.stored last (by rwa [Registries.last, hupdates] at hlast) }
    simp only [hempty, if_true]
    exact hpaced.finish hr (hcopy.mono (List.subset_append_left _ _)) rfl hc rfl
  next hne =>
    rw [if_neg hne] at hupdates
    simp only [hne]
    obtain ⟨rfl, hinit⟩ | heq := h.ordinary i r hr _ hmem
    swap
    · cases heq
    obtain rfl : initial = true := hinit
    have hlast : (updates regExp (s.downloads ++ [(d, s.now)])).getLast? = some s.now := by
      rw [hupdates, List.getLast?_concat]
    refine ⟨hadd.setCopy hnew, ?_, h.late, ?_, ?_, ?_⟩
    · rw [hupdates, List.pairwise_append]
      refine ⟨h.apart, List.pairwise_singleton _ _, fun x hx y hy => ?_⟩
      rw [List.mem_singleton.mp hy]
      have hsome : s.last regExp = some ((updates regExp s.downloads).getLast
          (List.ne_nil_of_mem hx)) := List.getLast?_eq_some_getLast _
      exact lt_of_apart h.apart hsome (h.due r hr hmem _ hsome) hx
    · intro j r₁ hr₁ c hc₁
      obtain ⟨rfl, rfl⟩ | ⟨-, hr₁⟩ := Tasks.get_set hr₁
      · rcases Tasks.mem_set hc₁ with rfl | ⟨j, -, hj⟩
        · exact .inl ⟨rfl, rfl⟩
        · exact h.ordinary 0 r hr c (List.mem_of_getElem? hj)
      · exact h.ordinary j r₁ hr₁ c hc₁
    · -- the only initialization writes now
      intro r₁ hr₁ hfetching
      obtain ⟨-, rfl⟩ | ⟨hne, -⟩ := mem_of_mem_setCopy hr₁
      · exact nomatch eq_of_initial hnew hfetching (Tasks.mem_set_self hc _) rfl rfl
      · exact absurd rfl hne
    · intro last hlast'
      obtain rfl := Option.some.inj (hlast.symm.trans hlast')
      exact .inl ⟨_, ⟨_, Tasks.set_self hr _, _, Tasks.mem_set_self hc _, rfl⟩, rfl⟩

/-- The end of the write leaves the last update in the storage. -/
theorem Paced.written {i : Nat} {entry : Entry} (h : s.Paced regExp)
    (hr : s.copies[i]? = some r) (hc : r.calls[k]? = some (.storing initial entry)) :
    ((s.store entry true).setCopy i (r.finish k initial)).Paced regExp := by
  have hmem := List.mem_of_getElem? hc
  have hcopy := h.sound.copies r (List.mem_of_getElem? hr)
  obtain ⟨rfl, hinit⟩ | heq := h.ordinary i r hr _ hmem
  swap
  · cases heq
  obtain rfl : initial = true := hinit
  have hfinish : (r.finish k true).Sound regExp s.downloads := hcopy.finish hc
  have hsub : ∀ c ∈ (r.finish k true).calls, c ∈ r.calls := fun c => List.mem_of_mem_eraseIdx
  have hnone : ∀ c ∈ (r.finish k true).calls, c.initial = false := by
    have hcount : (r.finish k true).calls.countP RegistryCall.initial = 0 := by
      rw [hfinish.initial]
      simp [Registry.finish]
    simpa [List.countP_eq_zero] using hcount
  have hread : ∀ c ∈ (r.finish k true).calls, c = .loading false := fun c hc₁ =>
    (h.ordinary 0 r hr c (hsub c hc₁)).resolve_left fun ⟨_, hinit⟩ => by
      rw [hnone c hc₁] at hinit
      cases hinit
  have hentry := hcopy.writes _ hmem entry rfl
  refine ⟨(h.sound.store hentry true).setCopy hfinish, h.apart, h.late, ?_, ?_, ?_⟩
  · intro j r₁ hr₁ c hc₁
    obtain ⟨rfl, rfl⟩ | ⟨-, hr₁⟩ := Tasks.get_set hr₁
    · exact .inr (hread c hc₁)
    · exact h.ordinary j r₁ hr₁ c hc₁
  · intro r₁ hr₁ hfetching
    obtain ⟨-, rfl⟩ | ⟨hne, -⟩ := mem_of_mem_setCopy hr₁
    · exact nomatch hread _ hfetching
    · exact absurd rfl hne
  · intro last hlast
    refine .inr ⟨?_, fun entry' ⟨r₁, hr₁, c, hc₁, hwrite⟩ => ?_⟩
    · obtain ⟨entry', ⟨r₁, hr₁, c, hc₁, hwrite⟩, rfl⟩ | ⟨-, hidle⟩ := h.stored last hlast
      · obtain rfl := Option.some.inj (hr.symm.trans hr₁)
        obtain ⟨-, hinit⟩ | rfl := h.ordinary 0 r hr c hc₁
        · rw [← eq_of_initial hcopy hmem hc₁ rfl hinit] at hwrite
          cases hwrite
          rfl
        · cases hwrite
      · exact absurd ⟨r, hr, _, hmem, rfl⟩ (hidle entry)
    · obtain ⟨-, rfl⟩ | ⟨hne, -⟩ := mem_of_mem_setCopy hr₁
      · rw [hread c hc₁] at hwrite
        cases hwrite
      · exact absurd rfl hne

theorem Paced.stepCopy {i : Nat} {e : RegistryEvent} (h : s.Paced regExp)
    (hr : s.copies[i]? = some r) (hG : s.Undisturbed e)
    (hi : ∀ j, e = .initializeRegistry j → j = i) (hi' : ∀ j, e = .restarted j → j = i)
    (hstep : s.stepCopy regExp i r e = some t) : t.Paced regExp := by
  have hcopy := h.sound.copies r (List.mem_of_getElem? hr)
  cases e with
  | restarted j =>
    cases hstep
    obtain rfl := hi' j rfl
    have hnone := hG r hr
    have hset : (s.setCopy j {}).Paced regExp := by
      refine h.setCopy hr .empty (fun _ => nofun) (fun _ => nofun) fun entry => ?_
      rw [List.filterMap_eq_nil_iff] at hnone
      simpa using fun c hc => by simp [hnone c hc]
    rw [hnone, List.append_nil]
    exact hset
  | loadCached =>
    cases hstep
    exact h.call hr (hcopy.call rfl rfl) rfl (.inr rfl) rfl nofun
  | initializeRegistry j =>
    cases hstep
    obtain rfl : j = 0 := hG
    obtain rfl := hi 0 rfl
    split
    · exact h
    next hidle =>
      exact h.call hr (hcopy.initializeRegistry (by simpa using hidle)) rfl (.inl ⟨rfl, rfl⟩) rfl
        nofun
  | refreshRegistry => exact hG.elim
  | loaded j k ok =>
    obtain rfl : ok = true := hG
    simp only [Registries.stepCopy] at hstep
    split at hstep
    next initial hc =>
      cases hstep
      exact h.loaded hr hc
    next => cases hstep
  | downloaded j k d =>
    simp only [Registries.stepCopy] at hstep
    split at hstep
    next initial hc =>
      cases hstep
      exact h.downloaded hr hc
    next => cases hstep
  | written j k ok =>
    obtain rfl : ok = true := hG
    simp only [Registries.stepCopy] at hstep
    split at hstep
    next initial entry hc =>
      cases hstep
      exact h.written hr hc
    next => cases hstep
  | opened | writtenLate | tick => cases hstep

theorem Paced.step {e : RegistryEvent} (h : s.Paced regExp) (hG : s.Undisturbed e)
    (hstep : s.step regExp e = some t) : t.Paced regExp := by
  have hsound := h.sound.step hstep
  cases e with
  | opened =>
    cases hstep
    have hold {j : Nat} {r : Registry} (hr : (s.copies ++ [{}])[j]? = some r) :
        s.copies[j]? = some r ∨ r = {} := (Tasks.get_append hr).imp_right And.right
    refine ⟨hsound, h.apart, h.late, ?_, ?_, ?_⟩
    · intro j r hr c hc
      obtain hr | rfl := hold hr
      · exact h.ordinary j r hr c hc
      · cases hc
    · intro r hr hc
      obtain hr | rfl := hold hr
      · exact h.due r hr hc
      · cases hc
    · intro last hlast
      refine (h.stored last hlast).imp ?_ (And.imp_right ?_)
      · exact fun ⟨entry, ⟨r, hr, hc⟩, htime⟩ =>
          ⟨entry, ⟨r, Tasks.get_append_of_get hr _, hc⟩, htime⟩
      · rintro hidle entry ⟨r, hr, c, hc, hwrite⟩
        obtain hr | rfl := hold hr
        · exact hidle entry ⟨r, hr, c, hc, hwrite⟩
        · cases hc
  | writtenLate k ok =>
    obtain ⟨entry, hentry, -⟩ := Option.map_eq_some_iff.mp hstep
    rw [h.late] at hentry
    cases hentry
  | tick ms =>
    cases hstep
    exact { h with
      sound := hsound
      due := fun r hr hc last hlast => (h.due r hr hc last hlast).trans_le (by simp) }
  | restarted i =>
    obtain ⟨r, hr, hstep⟩ := Option.bind_eq_some_iff.mp hstep
    exact h.stepCopy hr hG (fun _ => nofun) (fun _ hj => by cases hj; rfl) hstep
  | initializeRegistry i =>
    obtain ⟨r, hr, hstep⟩ := Option.bind_eq_some_iff.mp hstep
    exact h.stepCopy hr hG (fun _ hj => by cases hj; rfl) (fun _ => nofun) hstep
  | loadCached | refreshRegistry | loaded | downloaded | written =>
    obtain ⟨r, hr, hstep⟩ := Option.bind_eq_some_iff.mp hstep
    exact h.stepCopy hr hG (fun _ => nofun) (fun _ => nofun) hstep

/-- **One update a day.**  As long as the storage works and the worker, which alone initializes, is
not restarted in the midst of a write, two downloads that bring detectors are more than a day apart,
over all lives of the worker. -/
theorem updates_apart {now : Int} {es : List RegistryEvent}
    (h : Run regExp { now } es s) (hG : Machine.Throughout (step regExp) Undisturbed { now } es) :
    (updates regExp s.downloads).Pairwise (· + cacheTtlMs < ·) := by
  have hpaced : s.Paced regExp := by
    refine h.invariant (I := Paced regExp) ?_ hG fun _ _ _ hs hG hstep => hs.step hG hstep
    exact ⟨⟨fun _ => nofun, fun _ => nofun, fun _ => nofun, fun _ => nofun⟩, .nil, rfl,
      fun _ _ => nofun, fun _ => nofun, fun _ => nofun⟩
  exact hpaced.apart

end Registries

/-! ### A registry of one detector -/

def sampleDetector : Json :=
  .obj [(ofString "domain", .str (ofString "a.ee")), (ofString "urlPattern", .str (ofString "a+")),
    (ofString "expects", .arr [.str (ofString "amount")]),
    (ofString "selectors", .obj [(ofString "amount", .arr [.str (ofString ".sum")]),
      (ofString "recipient", .arr [.str (ofString ".to")])])]

def sampleRegExp : RegExpParser := regExpOf repeatedLetter wellFormed_repeatedLetter

def sampleDownload : Download :=
  .body (.obj [(ofString "detectors", .arr [sampleDetector, .null])])

/-- The worker updates the registry, restarts, finds the update in the storage and updates the
registry a day later; a page reads the storage in the meantime. -/
def sampleUpdates : List RegistryEvent :=
  [.opened, .opened, .initializeRegistry 0, .initializeRegistry 0, .loaded 0 0 true,
    .downloaded 0 0 sampleDownload, .loadCached 1, .written 0 0 true, .loaded 1 0 true,
    .restarted 0, .initializeRegistry 0, .loaded 0 0 true, .tick 86400001, .initializeRegistry 0,
    .loaded 0 0 true, .downloaded 0 0 sampleDownload]

theorem caches_are_downloads_sample :
    ∃ s r, Registries.Run sampleRegExp { now := 1000000000000 } sampleUpdates s ∧ r ∈ s.copies ∧
      r.calls.countP RegistryCall.initial ≤ 1 ∧
      (∀ detectors, r.cachedDetectors = some detectors → r.cacheTimestamp ≤ s.now ∧
        IsDownload sampleRegExp s.downloads detectors r.cacheTimestamp) ∧
      (r.cachedDetectors.map List.length, r.cacheTimestamp) = (some 1, 1000000000000) := by
  have hexec : (Machine.exec (Registries.step sampleRegExp) { now := 1000000000000 }
      sampleUpdates).any (fun s => s.copies[1]?.any fun r =>
        (r.cachedDetectors.map List.length, r.cacheTimestamp) =
          (some 1, 1000000000000)) = true := by
    decide +kernel
  obtain ⟨s, hrun, hs⟩ := Machine.exists_run_with hexec
  obtain ⟨r, hr, hcached⟩ := (Option.any_eq_true _ _).mp hs
  have hmem : r ∈ s.copies := List.mem_of_getElem? hr
  have hcaches := caches_are_downloads hrun hmem
  exact ⟨s, r, hrun, hmem, hcaches.1, hcaches.2, of_decide_eq_true hcached⟩

theorem updates_apart_sample :
    ∃ s, Registries.Run sampleRegExp { now := 1000000000000 } sampleUpdates s ∧
      (updates sampleRegExp s.downloads).Pairwise (· + cacheTtlMs < ·) ∧
      updates sampleRegExp s.downloads = [1000000000000, 1000086400001] := by
  have hexec : (Machine.exec (Registries.step sampleRegExp) { now := 1000000000000 }
      sampleUpdates).any (fun s =>
        updates sampleRegExp s.downloads = [1000000000000, 1000086400001]) = true := by
    decide +kernel
  obtain ⟨s, hrun, hs⟩ := Machine.exists_run_with hexec
  exact ⟨s, hrun, Registries.updates_apart hrun (by decide +kernel), of_decide_eq_true hs⟩

end

end SmartIdVault.Transaction
