import Mathlib.Data.Finset.Card
import Mathlib.Data.List.DropRight
import SmartIdVault.Lib.JsMap
import SmartIdVault.Lib.Json
import SmartIdVault.Lib.Machine
import SmartIdVault.Lib.Utf

/-! The replay cache of `replayProtection.ts`, with calls that interleave at the digest.  Before it
a call deletes what has expired; after it the call looks its key up, reserves it and trims the
cache.  The cache is trimmed from the front, which is the oldest reservation as long as no
reservation takes the place of an earlier one. -/

namespace SmartIdVault.Auth

def replayWindowMs : Int := 300000

def maxCacheSize : Nat := 1000

abbrev ReplayCache := JsMap Utf16 Int

/-- `b.toString(16).padStart(2, '0')`. -/
def hexOfByte (b : UInt8) : Utf16 :=
  [Json.hexUnit (b / 16).toUInt16, Json.hexUnit (b % 16).toUInt16]

/-- The first 16 bytes of the digest in hexadecimal; `digest` is `crypto.subtle.digest`. -/
def deriveKey (digest : Bytes → Bytes) (tuple : Utf16) : Utf16 :=
  ((digest (Utf8.textEncode tuple)).take 16).flatMap hexOfByte

namespace ReplayCache

def cleanupExpired (cache : ReplayCache) (now : Int) : ReplayCache :=
  let cutoff := now - replayWindowMs
  cache.deleteWhere fun e => e.2 < cutoff

def trimCache (cache : ReplayCache) : ReplayCache := cache.trim maxCacheSize

/-- `ts && Date.now() - ts < REPLAY_WINDOW_MS`. -/
def isReserved (cache : ReplayCache) (key : Utf16) (now : Int) : Bool :=
  match cache.get key with
  | none => false
  | some ts => ts ≠ 0 && now - ts < replayWindowMs

def reserve (cache : ReplayCache) (key : Utf16) (now : Int) : ReplayCache :=
  let cache := cache.set key now
  if maxCacheSize < cache.size then trimCache cache else cache

end ReplayCache

/-- The cache, the calls that wait for their digest, the clock, and what the calls so far have
returned: the accepted tuples with the times of their reservations, and the refused ones with the
times of their checks. -/
structure ReplayState where
  replayCache : ReplayCache := .empty
  waiting : List Utf16 := []
  now : Int
  accepted : List (Utf16 × Int) := []
  refused : List (Utf16 × Int) := []
  deriving DecidableEq

inductive ReplayEvent
  -- `checkAndReserveAssertion` up to the digest
  | call (tuple : Utf16) (now : Int)
  -- the rest of the call that is `i`th of those that wait, with its two readings of the clock
  | resume (i : Nat) (checkedAt reservedAt : Int)
  deriving DecidableEq, Repr

variable (digest : Bytes → Bytes)

namespace ReplayState

/-- The call of `tuple` after the digest. -/
def check (s : ReplayState) (tuple : Utf16) (checkedAt reservedAt : Int) : ReplayState :=
  let key := deriveKey digest tuple
  if s.replayCache.isReserved key checkedAt then
    { s with now := checkedAt, refused := s.refused ++ [(tuple, checkedAt)] }
  else
    { s with
      replayCache := s.replayCache.reserve key reservedAt
      now := reservedAt
      accepted := s.accepted ++ [(tuple, reservedAt)] }

def step (s : ReplayState) : ReplayEvent → Option ReplayState
  | .call tuple now =>
    if s.now ≤ now then
      some { s with
        replayCache := s.replayCache.cleanupExpired now
        waiting := s.waiting ++ [tuple]
        now }
    else none
  | .resume i checkedAt reservedAt =>
    if s.now ≤ checkedAt ∧ checkedAt ≤ reservedAt then
      s.waiting[i]?.map fun tuple =>
        { s with waiting := s.waiting.eraseIdx i }.check digest tuple checkedAt reservedAt
    else none

abbrev Run : ReplayState → List ReplayEvent → ReplayState → Prop := Machine.Run (step digest)

/-- A reservation whose key is still in the cache: the entry has not been deleted, and it is as old
as the window or was never valid. -/
def Refreshes (s : ReplayState) : ReplayEvent → Prop
  | .call _ _ => False
  | .resume i checkedAt _ => ∃ tuple ∈ s.waiting[i]?,
      deriveKey digest tuple ∈ s.replayCache.keys ∧
        s.replayCache.isReserved (deriveKey digest tuple) checkedAt = false

instance (s : ReplayState) : (e : ReplayEvent) → Decidable (s.Refreshes digest e)
  | .call _ _ => isFalse id
  | .resume i checkedAt _ =>
    inferInstanceAs (Decidable (∃ tuple ∈ s.waiting[i]?,
      deriveKey digest tuple ∈ s.replayCache.keys ∧
        s.replayCache.isReserved (deriveKey digest tuple) checkedAt = false))

/-- Two reservations of one tuple less than five minutes apart have a thousand others of distinct
tuples between them. -/
def Spaced (accepted : List (Utf16 × Int)) : Prop :=
  ∀ before between after tuple t₁ t₂,
    accepted = before ++ (tuple, t₁) :: (between ++ (tuple, t₂) :: after) →
      t₂ - t₁ < replayWindowMs →
      maxCacheSize ≤ ((between.map Prod.fst).toFinset.erase tuple).card

/-- What is refused has been accepted less than five minutes before. -/
def Justified (s : ReplayState) : Prop :=
  ∀ r ∈ s.refused, ∃ t, (r.1, t) ∈ s.accepted ∧ t ≤ r.2 ∧ r.2 - t < replayWindowMs

/-! ### The log of the accepted calls -/

section Log

variable {Key : Type} [DecidableEq Key] (key : Utf16 × Int → Key)

/-- What has been accepted since the last call with key `k`. -/
def since (accepted : List (Utf16 × Int)) (k : Key) : List (Utf16 × Int) :=
  accepted.rtakeWhile fun r => key r ≠ k

theorem since_append_singleton (accepted : List (Utf16 × Int)) (r : Utf16 × Int) (k : Key) :
    since key (accepted ++ [r]) k = if key r = k then [] else since key accepted k ++ [r] := by
  rw [since, List.rtakeWhile_concat]
  by_cases h : key r = k <;> simp [h, since]

theorem since_eq {before after : List (Utf16 × Int)} {r : Utf16 × Int}
    (h : key r ∉ after.map key) : since key (before ++ r :: after) (key r) = after := by
  induction after using List.reverseRecOn with
  | nil => rw [since_append_singleton, if_pos rfl]
  | append_singleton after x ih =>
    rw [List.map_append, List.mem_append, not_or] at h
    have hx : key x ≠ key r := fun heq => h.2 (by simp [heq])
    rw [← List.cons_append, ← List.append_assoc, since_append_singleton, if_neg hx, ih h.1]

theorem since_isSuffix (before : List (Utf16 × Int)) (r : Utf16 × Int)
    (after : List (Utf16 × Int)) : since key (before ++ r :: after) (key r) <:+ after := by
  induction after using List.reverseRecOn with
  | nil =>
    rw [since_append_singleton, if_pos rfl]
  | append_singleton after x ih =>
    rw [← List.cons_append, ← List.append_assoc, since_append_singleton]
    split
    · exact List.nil_suffix
    · obtain ⟨gone, hgone⟩ := ih
      exact ⟨gone, by rw [← List.append_assoc, hgone]⟩

/-- The last call with the key of `r`. -/
theorem exists_last {accepted : List (Utf16 × Int)} {r : Utf16 × Int} (h : r ∈ accepted) :
    ∃ before x after, accepted = before ++ x :: after ∧ key x = key r ∧
      key r ∉ after.map key ∧ (r = x ∨ r ∈ before) := by
  induction accepted using List.reverseRecOn with
  | nil => contradiction
  | append_singleton accepted y ih =>
    by_cases hy : key y = key r
    · refine ⟨accepted, y, [], rfl, hy, by simp, ?_⟩
      rcases List.mem_append.mp h with h | h
      · exact .inr h
      · exact .inl (List.mem_singleton.mp h)
    · have hmem : r ∈ accepted := by
        rcases List.mem_append.mp h with h | h
        · exact h
        · exact absurd (congrArg key (List.mem_singleton.mp h)).symm hy
      obtain ⟨before, x, after, rfl, hx, hnot, hr⟩ := ih hmem
      refine ⟨before, x, after ++ [y], by simp, hx, ?_, hr⟩
      rw [List.map_append, List.mem_append, not_or]
      exact ⟨hnot, by simpa using Ne.symm hy⟩

/-- As many tuples as keys. -/
theorem card_keys_le (accepted : List (Utf16 × Int)) (f : Utf16 → Key) (tuple : Utf16)
    (h : f tuple ∉ accepted.map fun r => f r.1) :
    (accepted.map fun r => f r.1).toFinset.card ≤
      ((accepted.map Prod.fst).toFinset.erase tuple).card := by
  have himage : (accepted.map fun r => f r.1).toFinset =
      ((accepted.map Prod.fst).toFinset.erase tuple).image f := by
    ext k
    simp only [List.mem_toFinset, List.mem_map, Finset.mem_image, Finset.mem_erase]
    constructor
    · rintro ⟨r, hr, rfl⟩
      refine ⟨r.1, ⟨?_, r, hr, rfl⟩, rfl⟩
      intro heq
      exact h (List.mem_map.mpr ⟨r, hr, by rw [heq]⟩)
    · rintro ⟨_, ⟨-, r, hr, rfl⟩, rfl⟩
      exact ⟨r, hr, rfl⟩
  rw [himage]
  exact Finset.card_image_le

end Log

/-! ### The cache against the log -/

variable {digest}

theorem reserve_eq (cache : ReplayCache) (key : Utf16) (now : Int) :
    cache.reserve key now = JsMap.trim maxCacheSize (cache.set key now) := by
  rw [ReplayCache.reserve]
  split
  · rfl
  · rename_i h
    rw [JsMap.trim, if_neg h]

theorem mem_of_mem_reserve {cache : ReplayCache} {key : Utf16} {now : Int} {e : Utf16 × Int}
    (h : e ∈ (cache.reserve key now).entries) : e ∈ cache.entries ∨ e = (key, now) := by
  rw [reserve_eq, JsMap.entries_trim] at h
  rcases JsMap.mem_entries_set.mp (List.mem_of_mem_drop h) with hnew | ⟨-, hold⟩
  · exact .inr hnew
  · exact .inl hold

theorem isReserved_iff {cache : ReplayCache} {key : Utf16} {now : Int} :
    cache.isReserved key now = true ↔
      ∃ ts, cache.get key = some ts ∧ ts ≠ 0 ∧ now - ts < replayWindowMs := by
  rw [ReplayCache.isReserved]
  cases cache.get key <;> simp

variable (digest) in
/-- The key of an accepted call. -/
def keyOf (r : Utf16 × Int) : Utf16 := deriveKey digest r.1

variable (digest) in
/-- Every entry is the reservation of an accepted call, and the accepted calls are in order of
time. -/
structure Logged (s : ReplayState) : Prop where
  recorded : ∀ e ∈ s.replayCache.entries, ∃ r ∈ s.accepted, r.2 = e.2 ∧ keyOf digest r = e.1
  ordered : s.accepted.Pairwise fun r r' => r.2 ≤ r'.2
  past : ∀ r ∈ s.accepted, r.2 ≤ s.now

variable (digest) in
/-- The key of the second entry has been accepted since the key of the first was for the last
time. -/
def Later (accepted : List (Utf16 × Int)) (e e' : Utf16 × Int) : Prop :=
  e'.1 ∈ (since (keyOf digest) accepted e.1).map (keyOf digest)

variable (digest) in
/-- An entry comes before those that were reserved after it.  The last call with its key is in the
cache, has expired, or has as many others after it as the cache holds. -/
structure InOrder (s : ReplayState) : Prop where
  order : s.replayCache.entries.Pairwise (Later digest s.accepted)
  kept : ∀ before r after, s.accepted = before ++ r :: after →
    keyOf digest r ∉ after.map (keyOf digest) →
    (keyOf digest r, r.2) ∈ s.replayCache.entries ∨ r.2 + replayWindowMs < s.now ∨
      maxCacheSize ≤ (after.map (keyOf digest)).toFinset.card
  spaced : Spaced s.accepted

theorem Logged.init (now : Int) : Logged digest { now } where
  recorded := by simp [JsMap.empty]
  ordered := .nil
  past := by simp

theorem InOrder.init (now : Int) : InOrder digest { now } where
  order := .nil
  kept := by simp
  spaced := by simp [Spaced]

section Steps

variable {s : ReplayState} {tuple : Utf16} {checkedAt reservedAt : Int}

theorem Logged.call (h : Logged digest s) {now : Int} (hnow : s.now ≤ now) :
    Logged digest { s with
      replayCache := s.replayCache.cleanupExpired now
      waiting := s.waiting ++ [tuple]
      now } where
  recorded e he := h.recorded e (List.mem_of_mem_filter he)
  ordered := h.ordered
  past r hr := (h.past r hr).trans hnow

theorem Logged.check (h : Logged digest s) (hchecked : s.now ≤ checkedAt)
    (hreserved : checkedAt ≤ reservedAt) :
    Logged digest (s.check digest tuple checkedAt reservedAt) := by
  rw [ReplayState.check]
  split
  · exact ⟨h.recorded, h.ordered, fun r hr => (h.past r hr).trans hchecked⟩
  · have hnow : s.now ≤ reservedAt := hchecked.trans hreserved
    refine ⟨fun e he => ?_, ?_, fun r hr => ?_⟩
    · rcases mem_of_mem_reserve he with he | rfl
      · obtain ⟨r, hr, hre⟩ := h.recorded e he
        exact ⟨r, List.mem_append_left _ hr, hre⟩
      · exact ⟨(tuple, reservedAt), List.mem_append_right _ (List.mem_singleton_self _), rfl, rfl⟩
    · refine List.pairwise_append.mpr
        ⟨h.ordered, List.pairwise_singleton _ _, fun r hr r' hr' => ?_⟩
      rw [List.mem_singleton.mp hr']
      exact (h.past r hr).trans hnow
    · rcases List.mem_append.mp hr with hr | hr
      · exact (h.past r hr).trans hnow
      · rw [List.mem_singleton.mp hr]

theorem InOrder.call (h : InOrder digest s) {now : Int} (hnow : s.now ≤ now) :
    InOrder digest { s with
      replayCache := s.replayCache.cleanupExpired now
      waiting := s.waiting ++ [tuple]
      now } where
  order := h.order.sublist List.filter_sublist
  kept before r after hsplit hlast := by
    rcases h.kept before r after hsplit hlast with hmem | hold | hmany
    · by_cases hexpired : r.2 < now - replayWindowMs
      · exact .inr (.inl (by simp only; omega))
      · exact .inl (List.mem_filter.mpr ⟨hmem, by simpa using hexpired⟩)
    · exact .inr (.inl (by simp only; omega))
    · exact .inr (.inr hmany)
  spaced := h.spaced

/-- An entry that is trimmed has as many keys accepted after it as the cache holds. -/
theorem card_since_of_trimmed {cache : ReplayCache} {accepted : List (Utf16 × Int)}
    (horder : cache.entries.Pairwise (Later digest accepted)) {e : Utf16 × Int}
    (he : e ∈ cache.entries) (hgone : e ∉ (JsMap.trim maxCacheSize cache).entries) :
    maxCacheSize ≤
      ((since (keyOf digest) accepted e.1).map (keyOf digest)).toFinset.card := by
  obtain ⟨before, after, hsplit, hafter⟩ := JsMap.exists_split_of_trimmed he hgone
  have hnodup := cache.nodup
  rw [hsplit] at horder hnodup
  have hlater := (List.pairwise_cons.mp (List.pairwise_append.mp horder).2.1).1
  rw [List.map_append, List.map_cons] at hnodup
  have hafterNodup : (after.map Prod.fst).Nodup :=
    (List.nodup_cons.mp (List.nodup_append.mp hnodup).2.1).2
  calc maxCacheSize ≤ (after.map Prod.fst).length := by rwa [List.length_map]
    _ = (after.map Prod.fst).toFinset.card := (List.toFinset_card_of_nodup hafterNodup).symm
    _ ≤ _ := by
      refine Finset.card_le_card fun k hk => ?_
      obtain ⟨e', he', rfl⟩ := List.mem_map.mp (List.mem_toFinset.mp hk)
      exact List.mem_toFinset.mpr (hlater e' he')

/-- A new key goes to the end, which is its place in the log. -/
theorem InOrder.set (h : InOrder digest s)
    (hkey : deriveKey digest tuple ∉ s.replayCache.keys) :
    (s.replayCache.set (deriveKey digest tuple) reservedAt).entries.Pairwise
      (Later digest (s.accepted ++ [(tuple, reservedAt)])) := by
  have hsince : ∀ e ∈ s.replayCache.entries,
      since (keyOf digest) (s.accepted ++ [(tuple, reservedAt)]) e.1 =
        since (keyOf digest) s.accepted e.1 ++ [(tuple, reservedAt)] := by
    intro e he
    have hne : keyOf digest (tuple, reservedAt) ≠ e.1 := by
      intro heq
      apply hkey
      show keyOf digest (tuple, reservedAt) ∈ s.replayCache.keys
      rw [heq]
      exact List.mem_map_of_mem he
    rw [since_append_singleton, if_neg hne]
  rw [JsMap.entries_set_of_notMem hkey]
  refine List.pairwise_append.mpr ⟨?_, List.pairwise_singleton _ _, fun e he e' he' => ?_⟩
  · refine h.order.imp_of_mem fun {e e'} he _ hlater => ?_
    rw [Later, hsince e he, List.map_append]
    exact List.mem_append_left _ hlater
  · rw [List.mem_singleton.mp he', Later, hsince e he, List.map_append]
    exact List.mem_append_right _ (List.mem_singleton_self _)

/-- The last call with a key is in the cache, has expired or has many others after it, also when
another call has been accepted. -/
theorem InOrder.kept_reserve (h : InOrder digest s) (hnow : s.now ≤ reservedAt)
    (hkey : deriveKey digest tuple ∉ s.replayCache.keys)
    {before after : List (Utf16 × Int)} {r : Utf16 × Int}
    (hsplit : s.accepted ++ [(tuple, reservedAt)] = before ++ r :: after)
    (hlast : keyOf digest r ∉ after.map (keyOf digest)) :
    (keyOf digest r, r.2) ∈
        (s.replayCache.reserve (deriveKey digest tuple) reservedAt).entries ∨
      r.2 + replayWindowMs < reservedAt ∨
      maxCacheSize ≤ (after.map (keyOf digest)).toFinset.card := by
  have hset := JsMap.entries_set_of_notMem hkey reservedAt
  have hentry (hmem : (keyOf digest r, r.2) ∈
      (s.replayCache.set (deriveKey digest tuple) reservedAt).entries) :
      (keyOf digest r, r.2) ∈
          (s.replayCache.reserve (deriveKey digest tuple) reservedAt).entries ∨
        r.2 + replayWindowMs < reservedAt ∨
        maxCacheSize ≤ (after.map (keyOf digest)).toFinset.card := by
    rw [or_iff_not_imp_left, reserve_eq]
    intro hgone
    have hmany := card_since_of_trimmed (h.set hkey) hmem hgone
    rw [hsplit, since_eq (keyOf digest) hlast] at hmany
    exact .inr hmany
  rcases List.eq_nil_or_concat' after with rfl | ⟨after', x, rfl⟩
  · obtain ⟨-, hr⟩ := List.append_inj' hsplit rfl
    obtain rfl : (tuple, reservedAt) = r := by simpa using hr
    exact hentry (hset ▸ List.mem_append_right _ (List.mem_singleton_self _))
  · have hsplit' : s.accepted ++ [(tuple, reservedAt)] = (before ++ r :: after') ++ [x] := by
      rw [hsplit, List.append_assoc, List.cons_append]
    obtain ⟨haccepted, -⟩ := List.append_inj' hsplit' rfl
    rw [List.map_append, List.mem_append, not_or] at hlast
    rcases h.kept before r after' haccepted hlast.1 with hmem | hexpired | hmany
    · exact hentry (hset ▸ List.mem_append_left _ hmem)
    · exact .inr (.inl (by omega))
    · refine .inr (.inr (hmany.trans (Finset.card_le_card fun k hk => ?_)))
      rw [List.map_append, List.mem_toFinset]
      exact List.mem_append_left _ (List.mem_toFinset.mp hk)

/-- A tuple whose key is no longer in the cache was accepted long before or has many others after
it. -/
theorem InOrder.spaced_reserve (h : InOrder digest s) (hlog : Logged digest s)
    (hnow : s.now ≤ reservedAt) (hkey : deriveKey digest tuple ∉ s.replayCache.keys) :
    Spaced (s.accepted ++ [(tuple, reservedAt)]) := by
  intro before between after x t₁ t₂ hsplit hclose
  rcases List.eq_nil_or_concat' after with rfl | ⟨after', z, rfl⟩
  · have hsplit' : s.accepted ++ [(tuple, reservedAt)] =
        (before ++ (x, t₁) :: between) ++ [(x, t₂)] := by
      rw [hsplit, List.append_assoc, List.cons_append]
    obtain ⟨haccepted, hnew⟩ := List.append_inj' hsplit' rfl
    obtain ⟨rfl, rfl⟩ : tuple = x ∧ reservedAt = t₂ := by simpa using hnew
    have hmem : (tuple, t₁) ∈ s.accepted := by
      rw [haccepted]
      exact List.mem_append_right _ (List.mem_cons_self ..)
    obtain ⟨before', y, later, hsplitLast, hy, hlast, hpos⟩ := exists_last (keyOf digest) hmem
    have hle : t₁ ≤ y.2 := by
      have hordered := hlog.ordered
      rw [hsplitLast] at hordered
      rcases hpos with rfl | hbefore
      · exact le_rfl
      · exact (List.pairwise_append.mp hordered).2.2 _ hbefore y (List.mem_cons_self ..)
    rcases h.kept before' y later hsplitLast (hy ▸ hlast) with hin | hexpired | hmany
    · rw [hy] at hin
      exact absurd (List.mem_map_of_mem hin) hkey
    · omega
    · have hsuffix : later <:+ between := by
        have hsince := since_isSuffix (keyOf digest) before (tuple, t₁) between
        rwa [← haccepted, hsplitLast, ← hy, since_eq (keyOf digest) (hy ▸ hlast)] at hsince
      refine (hmany.trans (card_keys_le later (deriveKey digest) tuple hlast)).trans
        (Finset.card_le_card (Finset.erase_subset_erase _ fun u hu => ?_))
      exact List.mem_toFinset.mpr
        (List.map_subset Prod.fst hsuffix.subset (List.mem_toFinset.mp hu))
  · have hsplit' : s.accepted ++ [(tuple, reservedAt)] =
        (before ++ (x, t₁) :: (between ++ (x, t₂) :: after')) ++ [z] := by
      rw [hsplit, List.append_assoc, List.cons_append, List.append_assoc, List.cons_append]
    obtain ⟨haccepted, -⟩ := List.append_inj' hsplit' rfl
    exact h.spaced before between after' x t₁ t₂ haccepted hclose

theorem InOrder.check (h : InOrder digest s) (hlog : Logged digest s)
    (hchecked : s.now ≤ checkedAt) (hreserved : checkedAt ≤ reservedAt)
    (hkey : s.replayCache.isReserved (deriveKey digest tuple) checkedAt = false →
      deriveKey digest tuple ∉ s.replayCache.keys) :
    InOrder digest (s.check digest tuple checkedAt reservedAt) := by
  rw [ReplayState.check]
  cases hres : s.replayCache.isReserved (deriveKey digest tuple) checkedAt with
  | true =>
    simp only [if_true]
    refine ⟨h.order, fun before r after hsplit hlast => ?_, h.spaced⟩
    rcases h.kept before r after hsplit hlast with hmem | hexpired | hmany
    · exact .inl hmem
    · exact .inr (.inl (hexpired.trans_le hchecked))
    · exact .inr (.inr hmany)
  | false =>
    simp only [Bool.false_eq_true, if_false]
    have hnow : s.now ≤ reservedAt := hchecked.trans hreserved
    refine ⟨?_, fun before r after hsplit hlast => h.kept_reserve hnow (hkey hres) hsplit hlast,
      h.spaced_reserve hlog hnow (hkey hres)⟩
    rw [reserve_eq, JsMap.entries_trim]
    exact (h.set (hkey hres)).sublist (List.drop_sublist _ _)

/-- The tuples so far are among `tuples`, and what has been refused was justified. -/
structure Explained (tuples : Set Utf16) (s : ReplayState) : Prop where
  waiting : ∀ tuple ∈ s.waiting, tuple ∈ tuples
  accepted : ∀ r ∈ s.accepted, r.1 ∈ tuples
  justified : s.Justified

theorem Explained.check {tuples : Set Utf16} (h : Explained tuples s) (hlog : Logged digest s)
    (hinj : Set.InjOn (deriveKey digest) tuples) (htuple : tuple ∈ tuples)
    (hchecked : s.now ≤ checkedAt) :
    Explained tuples (s.check digest tuple checkedAt reservedAt) := by
  rw [ReplayState.check]
  cases hres : s.replayCache.isReserved (deriveKey digest tuple) checkedAt with
  | true =>
    simp only [if_true]
    refine ⟨h.waiting, h.accepted, fun r hr => ?_⟩
    rcases List.mem_append.mp hr with hr | hr
    · exact h.justified r hr
    · rw [List.mem_singleton.mp hr]
      obtain ⟨ts, hget, -, hclose⟩ := isReserved_iff.mp hres
      obtain ⟨a, ha, rfl, hkey⟩ := hlog.recorded _ (JsMap.mem_of_get hget)
      have hsame : a.1 = tuple := hinj (h.accepted a ha) htuple hkey
      exact ⟨a.2, hsame ▸ ha, (hlog.past a ha).trans hchecked, hclose⟩
  | false =>
    simp only [Bool.false_eq_true, if_false]
    refine ⟨h.waiting, fun r hr => ?_, fun r hr => ?_⟩
    · rcases List.mem_append.mp hr with hr | hr
      · exact h.accepted r hr
      · rwa [List.mem_singleton.mp hr]
    · obtain ⟨t, ht, hle, hclose⟩ := h.justified r hr
      exact ⟨t, List.mem_append_left _ ht, hle, hclose⟩

end Steps

/-! ### Runs -/

theorem step_resume {s t : ReplayState} {i : Nat} {checkedAt reservedAt : Int}
    (hs : step digest s (.resume i checkedAt reservedAt) = some t) :
    s.now ≤ checkedAt ∧ checkedAt ≤ reservedAt ∧ ∃ tuple, s.waiting[i]? = some tuple ∧
      t = { s with waiting := s.waiting.eraseIdx i }.check digest tuple checkedAt reservedAt := by
  simp only [step, Option.ite_none_right_eq_some, Option.map_eq_some_iff] at hs
  obtain ⟨⟨hchecked, hreserved⟩, tuple, htuple, rfl⟩ := hs
  exact ⟨hchecked, hreserved, tuple, htuple, rfl⟩

theorem Logged.step {s t : ReplayState} {e : ReplayEvent} (h : Logged digest s)
    (hs : ReplayState.step digest s e = some t) : Logged digest t := by
  cases e with
  | call tuple now =>
    simp only [ReplayState.step, Option.ite_none_right_eq_some, Option.some.injEq] at hs
    obtain ⟨hnow, rfl⟩ := hs
    exact h.call hnow
  | resume i checkedAt reservedAt =>
    obtain ⟨hchecked, hreserved, tuple, -, rfl⟩ := step_resume hs
    exact Logged.check ⟨h.recorded, h.ordered, h.past⟩ hchecked hreserved

theorem InOrder.step {s t : ReplayState} {e : ReplayEvent} (h : InOrder digest s)
    (hlog : Logged digest s) (hkeep : ¬Refreshes digest s e)
    (hs : ReplayState.step digest s e = some t) : InOrder digest t := by
  cases e with
  | call tuple now =>
    simp only [ReplayState.step, Option.ite_none_right_eq_some, Option.some.injEq] at hs
    obtain ⟨hnow, rfl⟩ := hs
    exact h.call hnow
  | resume i checkedAt reservedAt =>
    obtain ⟨hchecked, hreserved, tuple, htuple, rfl⟩ := step_resume hs
    refine InOrder.check ⟨h.order, h.kept, h.spaced⟩ ⟨hlog.recorded, hlog.ordered, hlog.past⟩
      hchecked hreserved fun hres hmem => hkeep ⟨tuple, htuple, hmem, hres⟩

theorem Explained.step {tuples : Set Utf16} {s t : ReplayState} {e : ReplayEvent}
    (h : Explained tuples s) (hlog : Logged digest s)
    (hinj : Set.InjOn (deriveKey digest) tuples)
    (htuples : ∀ tuple now, e = .call tuple now → tuple ∈ tuples)
    (hs : ReplayState.step digest s e = some t) : Explained tuples t := by
  cases e with
  | call tuple now =>
    simp only [ReplayState.step, Option.ite_none_right_eq_some, Option.some.injEq] at hs
    obtain ⟨hnow, rfl⟩ := hs
    refine ⟨fun u hu => ?_, h.accepted, h.justified⟩
    rcases List.mem_append.mp hu with hu | hu
    · exact h.waiting u hu
    · rw [List.mem_singleton.mp hu]
      exact htuples tuple now rfl
  | resume i checkedAt reservedAt =>
    obtain ⟨hchecked, hreserved, tuple, htuple, rfl⟩ := step_resume hs
    have herase : Explained tuples { s with waiting := s.waiting.eraseIdx i } :=
      ⟨fun u hu => h.waiting u (List.mem_of_mem_eraseIdx hu), h.accepted, h.justified⟩
    exact herase.check ⟨hlog.recorded, hlog.ordered, hlog.past⟩ hinj
      (h.waiting tuple (List.mem_of_getElem? htuple)) hchecked

/-- What is refused was accepted less than five minutes before, in every run whose tuples have
different keys. -/
theorem justified_of_run {now : Int} {es : List ReplayEvent} {s : ReplayState}
    (hinj : Set.InjOn (deriveKey digest) {tuple | ∃ t, .call tuple t ∈ es})
    (hrun : Run digest { now } es s) : s.Justified := by
  have hin : Machine.Throughout (ReplayState.step digest)
      (fun _ e => ∀ tuple t, e = .call tuple t → tuple ∈ {tuple | ∃ t, .call tuple t ∈ es})
      { now } es :=
    Machine.throughout_of_forall fun _ e he tuple t heq => ⟨t, heq ▸ he⟩
  refine (hrun.invariant (I := fun s => Logged digest s ∧
    Explained {tuple | ∃ t, .call tuple t ∈ es} s)
    ⟨.init now, by simp, by simp, by simp [Justified]⟩ hin ?_).2.justified
  intro s e t h htuples hs
  exact ⟨h.1.step hs, h.2.step h.1 hinj htuples hs⟩

/-- In every run in which no reservation takes the place of one that is still in the cache, a tuple
that is accepted twice within five minutes has a thousand others accepted in between, and what is
refused was accepted less than five minutes before. -/
theorem spaced_of_not_refreshes {now : Int} {es : List ReplayEvent} {s : ReplayState}
    (hinj : Set.InjOn (deriveKey digest) {tuple | ∃ t, .call tuple t ∈ es})
    (hrun : Run digest { now } es s)
    (hkeep : Machine.Throughout (step digest) (fun s e => ¬Refreshes digest s e) { now } es) :
    Spaced s.accepted ∧ s.Justified := by
  have h : Logged digest s ∧ InOrder digest s := by
    refine hrun.invariant (I := fun s => Logged digest s ∧ InOrder digest s)
      ⟨.init now, .init now⟩ hkeep ?_
    intro s e t h hk hs
    exact ⟨h.1.step hs, h.2.step h.1 hk hs⟩
  exact ⟨h.2.spaced, justified_of_run hinj hrun⟩

/-! ### A reservation in the place of an expired one -/

section Samples

/-- A call that waits alone for its digest. -/
def alone (tuple : Utf16) (t : Int) : List ReplayEvent := [.call tuple t, .resume 0 t t]

variable (digest) in
theorem run_accept {s : ReplayState} {tuple : Utf16} {t : Int} (hnow : s.now ≤ t)
    (hwaiting : s.waiting = []) (hlive : ∀ e ∈ s.replayCache.entries, t - replayWindowMs ≤ e.2)
    (hfree : s.replayCache.isReserved (deriveKey digest tuple) t = false) :
    Run digest s (alone tuple t) { s with
      replayCache := s.replayCache.reserve (deriveKey digest tuple) t
      now := t
      accepted := s.accepted ++ [(tuple, t)] } := by
  have hclean : s.replayCache.cleanupExpired t = s.replayCache :=
    JsMap.deleteWhere_eq_self fun e he => by simpa using hlive e he
  refine .cons (t := { s with waiting := [tuple], now := t }) ?_ (.single ?_)
  · rw [step, if_pos hnow, hclean, hwaiting]
    rfl
  · simp [step, check, hfree, hwaiting]

/-- A digest that pads its input, for short inputs. -/
def paddedDigest (data : Bytes) : Bytes := (data ++ List.replicate 32 0).take 32

def asciiUnit (a : Nat) : UInt16 := UInt16.ofNat (a + 32)

def tupleOf (n : Nat) : Utf16 := [asciiUnit (n / 64), asciiUnit (n % 64)]

def sampleKey (n : Nat) : Utf16 := deriveKey paddedDigest (tupleOf n)

theorem deriveKey_tupleOf (n : Nat) : deriveKey paddedDigest (tupleOf n) = sampleKey n := rfl

def digitOf (u : UInt16) : Nat := if u < 0x40 then u.toNat - 0x30 else u.toNat - 0x57

def numberOf : Utf16 → Nat
  | a :: b :: c :: d :: _ =>
    (digitOf a * 16 + digitOf b - 32) * 64 + (digitOf c * 16 + digitOf d - 32)
  | _ => 0

theorem asciiUnit_spec : ∀ a < 64, Utf16.isHigh (asciiUnit a) = false ∧
    Utf8.textEncode [asciiUnit a] = [UInt8.ofNat (a + 32)] ∧
    (hexOfByte (UInt8.ofNat (a + 32))).map digitOf = [(a + 32) / 16, (a + 32) % 16] := by
  decide +kernel

theorem numberOf_sampleKey {n : Nat} (hn : n < 4096) : numberOf (sampleKey n) = n := by
  obtain ⟨hhigh, hencode, hdigits⟩ := asciiUnit_spec (n / 64) (by omega)
  obtain ⟨-, hencode', hdigits'⟩ := asciiUnit_spec (n % 64) (by omega)
  have hkey : sampleKey n = hexOfByte (UInt8.ofNat (n / 64 + 32)) ++
      (hexOfByte (UInt8.ofNat (n % 64 + 32)) ++ (List.replicate 14 0).flatMap hexOfByte) := by
    rw [← deriveKey_tupleOf, deriveKey, tupleOf, Utf8.textEncode_cons hhigh, hencode, hencode']
    rfl
  simp only [hexOfByte, List.map_cons, List.map_nil, List.cons.injEq, and_true] at hdigits hdigits'
  rw [hkey]
  simp only [hexOfByte, List.cons_append, List.nil_append, numberOf, hdigits, hdigits']
  omega

theorem sampleKey_inj {m n : Nat} (hm : m < 4096) (hn : n < 4096)
    (h : sampleKey m = sampleKey n) : m = n := by
  rw [← numberOf_sampleKey hm, h, numberOf_sampleKey hn]

-- from here on keys are compared by `sampleKey_inj` and not by evaluation
attribute [irreducible] sampleKey

/-- The cache holds the first `n` samples. -/
structure Filled (n : Nat) (s : ReplayState) : Prop where
  now : s.now = 1
  waiting : s.waiting = []
  entries : s.replayCache.entries = (List.range n).map fun k => (sampleKey k, 1)

theorem Filled.notMem {n : Nat} {s : ReplayState} (h : Filled n s) (hn : n < 1001) :
    sampleKey n ∉ s.replayCache.keys := by
  intro hmem
  rw [JsMap.keys, h.entries, List.map_map, List.mem_map] at hmem
  obtain ⟨k, hk, heq⟩ := hmem
  have hkn : k < n := List.mem_range.mp hk
  simp only [Function.comp_apply] at heq
  exact Nat.ne_of_lt hkn (sampleKey_inj (by omega) (by omega) heq)

theorem isReserved_of_notMem {cache : ReplayCache} {key : Utf16} (h : key ∉ cache.keys)
    (now : Int) : cache.isReserved key now = false := by
  rw [ReplayCache.isReserved, JsMap.get_eq_none_iff.mpr h]

theorem exists_filled (n : Nat) (hn : n ≤ 1000) : ∃ es s, Run paddedDigest { now := 1 } es s ∧
    (∀ tuple t, .call tuple t ∈ es → ∃ k < 1001, tuple = tupleOf k) ∧ Filled n s := by
  induction n with
  | zero => exact ⟨[], _, .nil _, by simp, rfl, rfl, rfl⟩
  | succ n ih =>
    obtain ⟨es, s, hrun, htuples, hs⟩ := ih (by omega)
    have hnot := hs.notMem (by omega)
    have hlive : ∀ e ∈ s.replayCache.entries, 1 - replayWindowMs ≤ e.2 := by
      rw [hs.entries]
      simp [replayWindowMs]
    have hfree := isReserved_of_notMem hnot 1
    rw [← deriveKey_tupleOf] at hfree
    have haccept := run_accept paddedDigest (le_of_eq hs.now) hs.waiting hlive hfree
    rw [deriveKey_tupleOf] at haccept
    refine ⟨_, _, hrun.append haccept, ?_⟩
    refine ⟨?_, rfl, hs.waiting, ?_⟩
    · intro tuple t hmem
      rcases List.mem_append.mp hmem with hmem | hmem
      · exact htuples tuple t hmem
      · obtain ⟨rfl, -⟩ : tuple = tupleOf n ∧ t = 1 := by simpa [alone] using hmem
        exact ⟨n, by omega, rfl⟩
    · have hset := JsMap.entries_set_of_notMem hnot 1
      have hsize : (s.replayCache.set (sampleKey n) 1).size = n + 1 := by
        rw [JsMap.size, hset, hs.entries]
        simp
      show (s.replayCache.reserve (sampleKey n) 1).entries = _
      rw [ReplayCache.reserve, if_neg (by rw [hsize, maxCacheSize]; omega), hset, hs.entries,
        List.range_succ, List.map_append]
      rfl

/-- A reservation under the first key takes the first place again. -/
theorem entries_reserve_first {cache : ReplayCache} {key : Utf16} {old : Int}
    {rest : List (Utf16 × Int)} (h : cache.entries = (key, old) :: rest)
    (hrest : ∀ e ∈ rest, e.1 ≠ key) (hlength : rest.length < maxCacheSize) (now : Int) :
    (cache.reserve key now).entries = (key, now) :: rest := by
  have hmem : key ∈ cache.keys := by
    rw [JsMap.keys, h]
    exact List.mem_cons_self ..
  have hset : (cache.set key now).entries = (key, now) :: rest := by
    rw [JsMap.entries_set_of_mem hmem, h, List.map_cons, if_pos rfl]
    refine congrArg _ ((List.map_congr_left fun e he => ?_).trans (List.map_id _))
    exact if_neg (hrest e he)
  rw [reserve_eq, JsMap.entries_trim, JsMap.size, hset, List.length_cons,
    Nat.sub_eq_zero_of_le hlength, List.drop_zero]

/-- A reservation under a new key evicts the first entry of a full cache. -/
theorem entries_reserve_new {cache : ReplayCache} {key : Utf16} {first : Utf16 × Int}
    {rest : List (Utf16 × Int)} (h : cache.entries = first :: rest) (hkey : key ∉ cache.keys)
    (hlength : rest.length + 1 = maxCacheSize) (now : Int) :
    (cache.reserve key now).entries = rest ++ [(key, now)] := by
  rw [reserve_eq, JsMap.entries_trim, JsMap.size, JsMap.entries_set_of_notMem hkey, h,
    List.length_append, List.length_cons, hlength, List.length_singleton, Nat.add_sub_cancel_left]
  rfl

/-- A full cache whose first entry is five minutes old: the entry is refreshed where it is, and the
next call evicts it. -/
theorem exists_refreshed {s : ReplayState} (h : Filled 1000 s) :
    ∃ s', Run paddedDigest s (alone (tupleOf 0) 300001 ++
        (alone (tupleOf 1000) 300001 ++ alone (tupleOf 0) 300001)) s' ∧
      s'.accepted = s.accepted ++
        [(tupleOf 0, 300001), (tupleOf 1000, 300001), (tupleOf 0, 300001)] := by
  obtain ⟨rest, hrest, hentries⟩ : ∃ rest, rest = (List.range' 1 999).map (fun k =>
      (sampleKey k, (1 : Int))) ∧ s.replayCache.entries = (sampleKey 0, 1) :: rest := by
    refine ⟨_, rfl, ?_⟩
    rw [h.entries, List.range_eq_range', List.range'_succ, List.map_cons]
  have hlength : rest.length = 999 := by simp [hrest]
  have hkeys : ∀ k, k = 0 ∨ k = 1000 → ∀ e ∈ rest, e.1 ≠ sampleKey k := by
    intro k hk e he heq
    rw [hrest] at he
    obtain ⟨j, hj, rfl⟩ := List.mem_map.mp he
    rw [List.mem_range'_1] at hj
    obtain rfl : j = k := sampleKey_inj (by omega) (by omega) heq
    omega
  have hlive : ∀ e ∈ rest, 300001 - replayWindowMs ≤ e.2 := by
    rw [hrest]
    intro e he
    obtain ⟨k, -, rfl⟩ := List.mem_map.mp he
    exact le_refl _
  -- the first entry is refreshed in its place
  have hget : s.replayCache.get (sampleKey 0) = some 1 := by
    rw [JsMap.get_eq_some_iff, hentries]
    exact List.mem_cons_self ..
  have hfirst := @run_accept paddedDigest s (tupleOf 0) 300001
    (by rw [h.now]; decide) h.waiting
    (by rw [hentries]; exact List.forall_mem_cons.mpr ⟨by decide, hlive⟩)
    (by rw [deriveKey_tupleOf, ReplayCache.isReserved, hget]; decide)
  rw [deriveKey_tupleOf] at hfirst
  have hcache := entries_reserve_first hentries (hkeys 0 (.inl rfl))
    (by rw [hlength]; decide) 300001
  -- a new entry evicts it
  generalize s.replayCache.reserve (sampleKey 0) 300001 = cache at hfirst hcache
  have hnew : sampleKey 1000 ∉ cache.keys := by
    rw [JsMap.keys, hcache, List.map_cons, List.mem_cons, not_or]
    refine ⟨fun heq => absurd (sampleKey_inj (by decide) (by decide) heq) (by decide), fun hm => ?_⟩
    obtain ⟨e, he, heq⟩ := List.mem_map.mp hm
    exact hkeys 1000 (.inr rfl) e he heq
  have hsecond := @run_accept paddedDigest
    { s with
      replayCache := cache
      now := 300001
      accepted := s.accepted ++ [(tupleOf 0, 300001)] }
    (tupleOf 1000) 300001
    (le_refl _) h.waiting
    (by simp only [hcache]; exact List.forall_mem_cons.mpr ⟨by decide, hlive⟩)
    (by rw [deriveKey_tupleOf]; exact isReserved_of_notMem hnew _)
  rw [deriveKey_tupleOf] at hsecond
  have hcache' := entries_reserve_new hcache hnew (by rw [hlength, maxCacheSize]) 300001
  simp only at hsecond
  generalize cache.reserve (sampleKey 1000) 300001 = cache' at hsecond hcache'
  have hgone : sampleKey 0 ∉ cache'.keys := by
    intro hm
    rw [JsMap.keys, hcache', List.map_append, List.mem_append] at hm
    rcases hm with hm | hm
    · obtain ⟨e, he, heq⟩ := List.mem_map.mp hm
      exact hkeys 0 (.inl rfl) e he heq
    · exact absurd (sampleKey_inj (by decide) (by decide) (List.mem_singleton.mp hm)) (by decide)
  have hthird := @run_accept paddedDigest
    { s with
      replayCache := cache'
      now := 300001
      accepted := s.accepted ++ [(tupleOf 0, 300001)] ++ [(tupleOf 1000, 300001)] }
    (tupleOf 0) 300001
    (le_refl _) h.waiting
    (by
      simp only [hcache', List.mem_append, List.mem_singleton]
      rintro e (he | rfl)
      · exact hlive e he
      · decide)
    (by rw [deriveKey_tupleOf]; exact isReserved_of_notMem hgone _)
  exact ⟨_, hfirst.append (hsecond.append hthird), by simp⟩

/-- A tuple is accepted twice within a millisecond, with a single call in between: its entry was
exactly five minutes old when it was reserved again, and kept its place at the front of a full
cache. -/
theorem refreshed_not_spaced :
    ∃ es s, Set.InjOn (deriveKey paddedDigest) {tuple | ∃ t, .call tuple t ∈ es} ∧
      Run paddedDigest { now := 1 } es s ∧ ¬Spaced s.accepted := by
  obtain ⟨es, s, hrun, htuples, hs⟩ := exists_filled 1000 (le_refl _)
  obtain ⟨s', hrun', haccepted⟩ := exists_refreshed hs
  refine ⟨_, s', ?_, hrun.append hrun', fun hspaced => ?_⟩
  · have hall : ∀ tuple t, .call tuple t ∈ es ++ (alone (tupleOf 0) 300001 ++
        (alone (tupleOf 1000) 300001 ++ alone (tupleOf 0) 300001)) →
        ∃ k < 1001, tuple = tupleOf k := by
      intro tuple t hmem
      rcases List.mem_append.mp hmem with hmem | hmem
      · exact htuples tuple t hmem
      · simp only [alone, List.cons_append, List.nil_append, List.mem_cons, reduceCtorEq,
          ReplayEvent.call.injEq, List.not_mem_nil, or_false, false_or] at hmem
        rcases hmem with ⟨rfl, -⟩ | ⟨rfl, -⟩ | ⟨rfl, -⟩
        · exact ⟨0, by decide, rfl⟩
        · exact ⟨1000, by decide, rfl⟩
        · exact ⟨0, by decide, rfl⟩
    rintro x ⟨t, hx⟩ y ⟨u, hy⟩ hxy
    obtain ⟨j, hj, rfl⟩ := hall x t hx
    obtain ⟨k, hk, rfl⟩ := hall y u hy
    rw [deriveKey_tupleOf, deriveKey_tupleOf] at hxy
    rw [sampleKey_inj (by omega) (by omega) hxy]
  · have hmany := hspaced s.accepted [(tupleOf 1000, 300001)] [] (tupleOf 0) 300001 300001
      haccepted (by decide)
    have hfew := (Finset.card_le_card (Finset.erase_subset (tupleOf 0)
      ([(tupleOf 1000, (300001 : Int))].map Prod.fst).toFinset)).trans (List.toFinset_card_le _)
    exact absurd (hmany.trans hfew) (by decide)

/-- The second of two calls with one tuple is refused. -/
theorem spaced_of_not_refreshes_sample :
    ∃ s, Run paddedDigest { now := 1 } (alone [65] 1 ++ alone [65] 2) s ∧ s.refused = [([65], 2)] ∧
      Spaced s.accepted ∧ s.Justified := by
  obtain ⟨s, hrun, hrefused⟩ : ∃ s, Run paddedDigest { now := 1 } (alone [65] 1 ++ alone [65] 2) s ∧
      (s.refused == [([65], 2)]) = true := Machine.exists_run_with (by decide +kernel)
  refine ⟨s, hrun, eq_of_beq hrefused, spaced_of_not_refreshes ?_ hrun ?_⟩
  · rintro x ⟨t, hx⟩ y ⟨u, hy⟩ -
    have honly : ∀ tuple t, .call tuple t ∈ alone [65] 1 ++ alone [65] 2 → tuple = [65] := by
      intro tuple t hmem
      have hmem' : tuple = [65] ∧ t = 1 ∨ tuple = [65] ∧ t = 2 := by simpa [alone] using hmem
      rcases hmem' with ⟨heq, -⟩ | ⟨heq, -⟩
      · exact heq
      · exact heq
    rw [honly x t hx, honly y u hy]
  · decide +kernel

end Samples

end ReplayState

end SmartIdVault.Auth
