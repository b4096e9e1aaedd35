import SmartIdVault.DeviceRegistry.Storage
import SmartIdVault.Lib.Machine
import SmartIdVault.Lib.Tasks

/-! The revocations that could not be told to anybody.  `revokeDevice` broadcasts outside the lock
of the registry; when that fails `cacheRevocationForLater` adds the id to 'pending:revocations', and
`flushPendingRevocations` broadcasts what is there and takes away what went out.  Both read the
list, go on, and write a list made from what they have read, and neither takes a lock: an id cached
in between is lost. -/

namespace SmartIdVault.DeviceRegistry

/-- What `broadcastRevocation` awaits: the post to the signaling server, or the message to the
offscreen document. -/
inductive Attempt where
  | fetch
  | sendMessage
  deriving DecidableEq

/-- Where a call stands: `revokeDevice` at its broadcast; `cacheRevocationForLater` at its read and
at its write; `flushPendingRevocations` at its read, at the broadcast of one id, with those it has
broadcast before and those that come after, and at its write; and at its end.  What has read the
list has it: the flush in the three parts, and at its write in those that went out and those left
from the first failure on. -/
inductive Progress where
  | revoking (deviceId : Utf16) (attempt : Attempt)
  | readingToCache (deviceId : Utf16)
  | caching (deviceId : Utf16) (pending : List Utf16)
  | readingToFlush
  | flushing (succeeded : List Utf16) (deviceId : Utf16) (later : List Utf16) (attempt : Attempt)
  | clearing (succeeded rest : List Utf16)
  | ended
  deriving DecidableEq

namespace Progress

/-- The list the call has read, while it still has to write. -/
def pending : Progress → List Utf16
  | .caching _ pending => pending
  | .flushing succeeded deviceId later _ => succeeded ++ deviceId :: later
  | .clearing succeeded rest => succeeded ++ rest
  | _ => []

def succeeded : Progress → List Utf16
  | .flushing succeeded .. | .clearing succeeded _ => succeeded
  | _ => []

def holdsList : Progress → Bool
  | .caching .. | .flushing .. | .clearing .. => true
  | _ => false

end Progress

/-- `missed` has the ids whose caching other calls have completed since this one read the list, and
that no call has broadcast since. -/
structure Revoker where
  progress : Progress
  missed : List Utf16 := []
  deriving DecidableEq

/-- `stored` is 'pending:revocations', and `owed` has the ids whose caching has completed and that
no call has broadcast since. -/
structure Revocations where
  stored : Option (List Utf16)
  revokers : List Revoker := []
  owed : List Utf16
  deriving DecidableEq

/-- The calls, made in any order and number, and the answers to what call `i` awaits. -/
inductive RevocationEvent where
  | revokeDevice (deviceId : Utf16)
  | cacheRevocationForLater (deviceId : Utf16)
  | flushPendingRevocations
  | fetched (i : Nat) (ok : Bool)
  | sent (i : Nat) (ok : Bool)
  | got (i : Nat) (ok : Bool)
  | set (i : Nat) (ok : Bool)
  deriving DecidableEq

namespace Revocations

/-- The first that `broadcastRevocation` awaits: an empty URL is none. -/
def broadcastRevocation (signalingUrl : Option Utf16) : Attempt :=
  if (signalingUrl.getD []).isEmpty then .sendMessage else .fetch

def start (s : Revocations) (progress : Progress) : Revocations :=
  { s with revokers := s.revokers ++ [{ progress }] }

/-- Call `i` goes on to `progress`, with nothing missed by now. -/
def put (s : Revocations) (i : Nat) (progress : Progress) (missed : List Utf16 := []) :
    Revocations :=
  { s with revokers := s.revokers.set i { progress, missed } }

/-- A broadcast of the id has succeeded. -/
def broadcast (s : Revocations) (deviceId : Utf16) : Revocations :=
  { s with
    revokers := s.revokers.map fun r => { r with missed := r.missed.filter (· ≠ deviceId) }
    owed := s.owed.filter (· ≠ deviceId) }

/-- The caching of the id has completed: the calls that have read the list miss it. -/
def cached (s : Revocations) (deviceId : Utf16) : Revocations :=
  { s with
    revokers := s.revokers.map fun r =>
      if r.progress.holdsList then { r with missed := deviceId :: r.missed } else r
    owed := deviceId :: s.owed }

/-- The loop of the flush, before the broadcast of the next id, or past its end. -/
def nextOf (signalingUrl : Option Utf16) (succeeded : List Utf16) : List Utf16 → Progress
  | [] => if succeeded.isEmpty then .ended else .clearing succeeded []
  | deviceId :: later => .flushing succeeded deviceId later (broadcastRevocation signalingUrl)

/-- The broadcast that call `i` awaits has succeeded. -/
def succeed (signalingUrl : Option Utf16) (s : Revocations) (i : Nat) (r : Revoker) :
    Revocations :=
  match r.progress with
  | .revoking deviceId _ => (s.put i .ended).broadcast deviceId
  | .flushing succeeded deviceId later _ =>
    (s.put i (nextOf signalingUrl (succeeded ++ [deviceId]) later) r.missed).broadcast deviceId
  | _ => s

/-- It has failed: the id is cached, or the loop is left. -/
def fail (s : Revocations) (i : Nat) (r : Revoker) : Revocations :=
  match r.progress with
  | .revoking deviceId _ => s.put i (.readingToCache deviceId)
  | .flushing succeeded deviceId later _ =>
    if succeeded.isEmpty then s.put i .ended
    else s.put i (.clearing succeeded (deviceId :: later)) r.missed
  | _ => s

/-- The signaling server has taken the revocation, or the offscreen document is asked next. -/
def fetched (signalingUrl : Option Utf16) (s : Revocations) (i : Nat) (r : Revoker) (ok : Bool) :
    Option Revocations :=
  match r.progress with
  | .revoking deviceId .fetch =>
    some (if ok then succeed signalingUrl s i r else s.put i (.revoking deviceId .sendMessage))
  | .flushing succeeded deviceId later .fetch =>
    some (if ok then succeed signalingUrl s i r
      else s.put i (.flushing succeeded deviceId later .sendMessage) r.missed)
  | _ => none

def sent (signalingUrl : Option Utf16) (s : Revocations) (i : Nat) (r : Revoker) (ok : Bool) :
    Option Revocations :=
  match r.progress with
  | .revoking _ .sendMessage | .flushing _ _ _ .sendMessage =>
    some (if ok then succeed signalingUrl s i r else fail s i r)
  | _ => none

/-- `storage.local.get` answers.  An id that is there already is not written again. -/
def got (signalingUrl : Option Utf16) (s : Revocations) (i : Nat) (r : Revoker) (ok : Bool) :
    Option Revocations :=
  let pending := s.stored.getD []
  match r.progress with
  | .readingToCache deviceId =>
    some (if !ok then s.put i .ended
      else if pending.contains deviceId then (s.put i .ended).cached deviceId
      else s.put i (.caching deviceId pending))
  | .readingToFlush =>
    some (if ok then s.put i (nextOf signalingUrl [] pending) else s.put i .ended)
  | _ => none

/-- `storage.local.set` answers, and on success the list is the one written. -/
def set (s : Revocations) (i : Nat) (r : Revoker) (ok : Bool) : Option Revocations :=
  match r.progress with
  | .caching deviceId pending =>
    some (if ok
      then ({ s.put i .ended with stored := some (pending ++ [deviceId]) }).cached deviceId
      else s.put i .ended)
  | .clearing succeeded rest =>
    some (if ok
      then { s.put i .ended with
        stored := some ((succeeded ++ rest).filter fun id => !succeeded.contains id) }
      else s.put i .ended)
  | _ => none

def step (signalingUrl : Option Utf16) (s : Revocations) : RevocationEvent → Option Revocations
  | .revokeDevice deviceId =>
    some (s.start (.revoking deviceId (broadcastRevocation signalingUrl)))
  | .cacheRevocationForLater deviceId => some (s.start (.readingToCache deviceId))
  | .flushPendingRevocations => some (s.start .readingToFlush)
  | .fetched i ok => s.revokers[i]?.bind fun r => fetched signalingUrl s i r ok
  | .sent i ok => s.revokers[i]?.bind fun r => sent signalingUrl s i r ok
  | .got i ok => s.revokers[i]?.bind fun r => got signalingUrl s i r ok
  | .set i ok => s.revokers[i]?.bind fun r => set s i r ok

/-- No call is there yet, and what is stored has been cached before. -/
def initial (stored : Option (List Utf16)) : Revocations :=
  { stored, owed := stored.getD [] }

/-- Every id whose caching has completed is stored until a broadcast of it has succeeded. -/
def Kept (s : Revocations) : Prop :=
  ∀ id ∈ s.owed, id ∈ s.stored.getD []

instance (s : Revocations) : Decidable s.Kept :=
  inferInstanceAs (Decidable (∀ id ∈ s.owed, id ∈ s.stored.getD []))

/-- What a call has missed is in the list it has read, and is not what it has broadcast itself; or
it is the very id that the call caches. -/
def Harmless (r : Revoker) : Prop :=
  match r.progress with
  | .caching deviceId pending => ∀ id ∈ r.missed, id ∈ pending ∨ id = deviceId
  | .clearing succeeded rest => ∀ id ∈ r.missed, id ∈ rest ∧ id ∉ succeeded
  | _ => True

instance (r : Revoker) : Decidable (Harmless r) :=
  match r with
  | ⟨.caching deviceId pending, missed⟩ =>
    inferInstanceAs (Decidable (∀ id ∈ missed, id ∈ pending ∨ id = deviceId))
  | ⟨.clearing succeeded rest, missed⟩ =>
    inferInstanceAs (Decidable (∀ id ∈ missed, id ∈ rest ∧ id ∉ succeeded))
  | ⟨.revoking .., _⟩ | ⟨.readingToCache _, _⟩ | ⟨.readingToFlush, _⟩ | ⟨.flushing .., _⟩
  | ⟨.ended, _⟩ => isTrue trivial

/-- No call writes a list that undoes what it has missed. -/
def Untroubled (s : Revocations) : RevocationEvent → Prop
  | .set i true => ∀ r ∈ s.revokers[i]?, Harmless r
  | _ => True

instance (s : Revocations) : ∀ e, Decidable (s.Untroubled e)
  | .set i true => inferInstanceAs (Decidable (∀ r ∈ s.revokers[i]?, Harmless r))
  | .set _ false | .revokeDevice _ | .cacheRevocationForLater _ | .flushPendingRevocations
  | .fetched .. | .sent .. | .got .. => isTrue trivial

/-- What a call knows of the owed ids: those it has not missed are in its list, and it has not
broadcast them. -/
structure Aware (owed : List Utf16) (r : Revoker) : Prop where
  missed : ∀ id ∈ r.missed, id ∈ owed
  listed : r.progress.holdsList → ∀ id ∈ owed, id ∉ r.missed →
    id ∈ r.progress.pending ∧ id ∉ r.progress.succeeded

structure Known (s : Revocations) : Prop where
  kept : s.Kept
  aware : ∀ r ∈ s.revokers, Aware s.owed r

variable {s t : Revocations} {r : Revoker} {progress : Progress} {owed missed : List Utf16}
  {deviceId : Utf16} {i : Nat} {ok : Bool} {signalingUrl : Option Utf16}

theorem aware_of_not_holdsList (h : progress.holdsList = false) : Aware owed { progress } where
  missed id hid := by cases hid
  listed hlist := by rw [h] at hlist; cases hlist

/-- The list has just been read. -/
theorem aware_of_listed
    (h : ∀ id ∈ owed, id ∈ progress.pending ∧ id ∉ progress.succeeded) :
    Aware owed { progress } where
  missed id hid := by cases hid
  listed _ id hid _ := h id hid

/-- The call goes on with the same list. -/
theorem aware_of_eq (h : Aware owed r) (hlist : r.progress.holdsList)
    (hpending : progress.pending = r.progress.pending)
    (hsucceeded : progress.succeeded = r.progress.succeeded) :
    Aware owed { progress, missed := r.missed } where
  missed := h.missed
  listed _ id hid hmissed := by
    simp only [hpending, hsucceeded]
    exact h.listed hlist id hid hmissed

theorem aware_broadcast (h : Aware owed r) (deviceId : Utf16) :
    Aware (owed.filter (· ≠ deviceId))
      { r with missed := r.missed.filter (· ≠ deviceId) } where
  missed id hid := by
    obtain ⟨hid, hne⟩ := List.mem_filter.mp hid
    exact List.mem_filter.mpr ⟨h.missed id hid, hne⟩
  listed hlist id hid hmissed := by
    obtain ⟨hid, hne⟩ := List.mem_filter.mp hid
    exact h.listed hlist id hid fun hm => hmissed (List.mem_filter.mpr ⟨hm, hne⟩)

theorem aware_cached (h : Aware owed r) (deviceId : Utf16) :
    Aware (deviceId :: owed)
      (if r.progress.holdsList then { r with missed := deviceId :: r.missed } else r) := by
  split
  next hlist =>
    refine ⟨fun id hid => ?_, fun _ id hid hmissed => ?_⟩
    · rcases List.mem_cons.mp hid with rfl | hid
      · exact List.mem_cons_self
      · exact List.mem_cons_of_mem _ (h.missed id hid)
    · simp only [List.mem_cons, not_or] at hid hmissed
      exact h.listed hlist id (hid.resolve_left hmissed.1) hmissed.2
  next hlist =>
    exact ⟨fun id hid => List.mem_cons_of_mem _ (h.missed id hid), fun h' => absurd h' hlist⟩

theorem known_initial (stored : Option (List Utf16)) : Known (initial stored) where
  kept _ hid := hid
  aware _ hr := by cases hr

theorem known_start (h : Known s) (hlist : progress.holdsList = false) :
    Known (s.start progress) where
  kept := h.kept
  aware r hr := by
    rcases List.mem_append.mp hr with hr | hr
    · exact h.aware r hr
    · rw [List.mem_singleton.mp hr]
      exact aware_of_not_holdsList hlist

theorem known_put (h : Known s) (hr : Aware s.owed { progress, missed }) :
    Known (s.put i progress missed) where
  kept := h.kept
  aware r hr' := by
    rcases Tasks.mem_set hr' with rfl | ⟨j, -, hj⟩
    · exact hr
    · exact h.aware r (List.mem_of_getElem? hj)

/-- A call that ends, or that goes on to a read. -/
theorem known_put_of_not_holdsList (h : Known s) (hlist : progress.holdsList = false) :
    Known (s.put i progress) :=
  known_put h (aware_of_not_holdsList hlist)

theorem known_broadcast_put (h : Known s)
    (hr : Aware (s.owed.filter (· ≠ deviceId))
      { progress, missed := missed.filter (· ≠ deviceId) }) :
    Known ((s.put i progress missed).broadcast deviceId) where
  kept id hid := h.kept id (List.mem_filter.mp hid).1
  aware r hmem := by
    obtain ⟨r', hr', rfl⟩ := List.mem_map.mp hmem
    rcases Tasks.mem_set hr' with rfl | ⟨j, -, hj⟩
    · exact hr
    · exact aware_broadcast (h.aware r' (List.mem_of_getElem? hj)) deviceId

theorem known_cached (h : Known s) (hid : deviceId ∈ s.stored.getD []) :
    Known (s.cached deviceId) where
  kept id hid' := by
    rcases List.mem_cons.mp hid' with rfl | hid'
    · exact hid
    · exact h.kept id hid'
  aware r hr := by
    obtain ⟨r', hr', rfl⟩ := List.mem_map.mp hr
    exact aware_cached (h.aware r' hr') deviceId

theorem known_store (h : Known s) {list : List Utf16} (hlist : ∀ id ∈ s.owed, id ∈ list) :
    Known { s with stored := some list } where
  kept := hlist
  aware := h.aware

/-- The broadcasts of a loop that has gone on past `deviceId`: its list and what it has missed are
as they were. -/
theorem aware_nextOf {succeeded later : List Utf16} (attempt : Attempt)
    (h : Aware owed { progress := .flushing succeeded deviceId later attempt, missed }) :
    Aware (owed.filter (· ≠ deviceId))
      { progress := nextOf signalingUrl (succeeded ++ [deviceId]) later
        missed := missed.filter (· ≠ deviceId) } where
  missed := (aware_broadcast h deviceId).missed
  listed _ id hid hmissed := by
    obtain ⟨hlist, hnot⟩ := (aware_broadcast h deviceId).listed rfl id hid hmissed
    have hne : id ≠ deviceId := by simpa using (List.mem_filter.mp hid).2
    cases later <;> simp_all [nextOf, Progress.pending, Progress.succeeded]

theorem known_succeed (h : Known s) (hr : s.revokers[i]? = some r) :
    Known (succeed signalingUrl s i r) := by
  have hr := h.aware r (List.mem_of_getElem? hr)
  unfold succeed
  split
  next => exact known_broadcast_put h (aware_of_not_holdsList rfl)
  next deviceId later attempt hp =>
    refine known_broadcast_put h (aware_nextOf attempt ?_)
    rw [← hp]
    exact hr
  next => exact h

theorem known_fail (h : Known s) (hr : s.revokers[i]? = some r) : Known (fail s i r) := by
  have hr := h.aware r (List.mem_of_getElem? hr)
  unfold fail
  split
  next => exact known_put_of_not_holdsList h rfl
  next hp =>
    split
    · exact known_put_of_not_holdsList h rfl
    · exact known_put h (aware_of_eq hr (by rw [hp]; rfl) (by rw [hp]; rfl) (by rw [hp]; rfl))
  next => exact h

theorem known_fetched (h : Known s) (hr : s.revokers[i]? = some r)
    (ht : fetched signalingUrl s i r ok = some t) : Known t := by
  unfold fetched at ht
  split at ht
  next =>
    obtain rfl := Option.some.inj ht
    split
    · exact known_succeed h hr
    · exact known_put_of_not_holdsList h rfl
  next hp =>
    obtain rfl := Option.some.inj ht
    have hr' := h.aware r (List.mem_of_getElem? hr)
    split
    · exact known_succeed h hr
    · exact known_put h (aware_of_eq hr' (by rw [hp]; rfl) (by rw [hp]; rfl) (by rw [hp]; rfl))
  next => cases ht

theorem known_sent (h : Known s) (hr : s.revokers[i]? = some r)
    (ht : sent signalingUrl s i r ok = some t) : Known t := by
  unfold sent at ht
  split at ht
  iterate 2
    next =>
      obtain rfl := Option.some.inj ht
      split
      · exact known_succeed h hr
      · exact known_fail h hr
  next => cases ht

theorem pending_nextOf_nil (list : List Utf16) : (nextOf signalingUrl [] list).pending = list := by
  cases list <;> rfl

theorem succeeded_nextOf_nil (list : List Utf16) :
    (nextOf signalingUrl [] list).succeeded = [] := by
  cases list <;> rfl

theorem known_got (h : Known s) (ht : got signalingUrl s i r ok = some t) : Known t := by
  simp only [got] at ht
  split at ht
  next =>
    obtain rfl := Option.some.inj ht
    split
    · exact known_put_of_not_holdsList h rfl
    · split
      next hid =>
        exact known_cached (known_put_of_not_holdsList h rfl) (List.contains_iff_mem.mp hid)
      next =>
        refine known_put h (aware_of_listed fun id hid => ⟨h.kept id hid, ?_⟩)
        exact List.not_mem_nil
  next =>
    obtain rfl := Option.some.inj ht
    split
    · refine known_put h (aware_of_listed fun id hid => ?_)
      rw [pending_nextOf_nil, succeeded_nextOf_nil]
      exact ⟨h.kept id hid, List.not_mem_nil⟩
    · exact known_put_of_not_holdsList h rfl
  next => cases ht
/-- The list a call writes. -/
def written : Progress → List Utf16
  | .caching deviceId pending => pending ++ [deviceId]
  | .clearing succeeded rest => (succeeded ++ rest).filter fun id => !succeeded.contains id
  | _ => []

theorem set_eq_some (h : set s i r true = some t) :
    (∃ deviceId pending, r.progress = .caching deviceId pending ∧
        t = ({ s.put i .ended with stored := some (written r.progress) }).cached deviceId) ∨
      (∃ succeeded rest, r.progress = .clearing succeeded rest ∧
        t = { s.put i .ended with stored := some (written r.progress) }) := by
  unfold set at h
  split at h
  next deviceId pending hp =>
    obtain rfl := Option.some.inj h
    exact .inl ⟨deviceId, pending, hp, by rw [hp]; rfl⟩
  next succeeded rest hp =>
    obtain rfl := Option.some.inj h
    exact .inr ⟨succeeded, rest, hp, by rw [hp]; rfl⟩
  next => cases h

theorem harmless_iff (h : set s i r true = some t) :
    Harmless r ↔ ∀ id ∈ r.missed, id ∈ written r.progress := by
  unfold Harmless
  obtain ⟨_, _, hp, -⟩ | ⟨_, _, hp, -⟩ := set_eq_some h
  · simp [hp, written]
  · simp +contextual [hp, written]

/-- A harmless write has every owed id. -/
theorem mem_written (h : Aware owed r) (ht : set s i r true = some t) (hr : Harmless r) :
    ∀ id ∈ owed, id ∈ written r.progress := by
  intro id hid
  by_cases hmissed : id ∈ r.missed
  · exact (harmless_iff ht).mp hr id hmissed
  · obtain ⟨_, _, hp, -⟩ | ⟨_, _, hp, -⟩ := set_eq_some ht
    · obtain ⟨hlist, -⟩ := h.listed (by rw [hp]; rfl) id hid hmissed
      rw [hp] at hlist ⊢
      exact List.mem_append_left _ hlist
    · obtain ⟨hlist, hnot⟩ := h.listed (by rw [hp]; rfl) id hid hmissed
      rw [hp] at hlist hnot ⊢
      exact List.mem_filter.mpr ⟨hlist, by simpa [Progress.succeeded] using hnot⟩

theorem known_set (h : Known s) (hr : s.revokers[i]? = some r) (hharm : Harmless r)
    (ht : set s i r true = some t) : Known t := by
  have hend : Known { s.put i .ended with stored := some (written r.progress) } :=
    known_store (known_put_of_not_holdsList h rfl)
      (mem_written (h.aware r (List.mem_of_getElem? hr)) ht hharm)
  obtain ⟨deviceId, _, hp, rfl⟩ | ⟨_, _, -, rfl⟩ := set_eq_some ht
  · refine known_cached hend ?_
    rw [hp]
    exact List.mem_append_right _ List.mem_cons_self
  · exact hend

theorem known_set_failed (h : Known s) (ht : set s i r false = some t) : Known t := by
  unfold set at ht
  split at ht
  iterate 2
    next =>
      obtain rfl := Option.some.inj ht
      exact known_put_of_not_holdsList h rfl
  next => cases ht

theorem known_step {e : RevocationEvent} (h : Known s) (hG : Untroubled s e)
    (ht : step signalingUrl s e = some t) : Known t := by
  cases e with
  | revokeDevice | cacheRevocationForLater | flushPendingRevocations =>
    obtain rfl := Option.some.inj ht
    exact known_start h rfl
  | fetched i ok =>
    obtain ⟨r, hr, ht⟩ := Option.bind_eq_some_iff.mp ht
    exact known_fetched h hr ht
  | sent i ok =>
    obtain ⟨r, hr, ht⟩ := Option.bind_eq_some_iff.mp ht
    exact known_sent h hr ht
  | got i ok =>
    obtain ⟨r, hr, ht⟩ := Option.bind_eq_some_iff.mp ht
    exact known_got h ht
  | set i ok =>
    obtain ⟨r, hr, ht⟩ := Option.bind_eq_some_iff.mp ht
    cases ok with
    | false => exact known_set_failed h ht
    | true => exact known_set h hr (hG r hr) ht

/-- A write that undoes what the call has missed loses an owed id. -/
theorem not_kept_of_set (h : Known s) (hr : s.revokers[i]? = some r) (hharm : ¬Harmless r)
    (ht : set s i r true = some t) : ¬t.Kept := by
  intro hkept
  refine hharm ((harmless_iff ht).mpr fun id hid => ?_)
  have howed := (h.aware r (List.mem_of_getElem? hr)).missed id hid
  obtain ⟨_, _, -, rfl⟩ | ⟨_, _, -, rfl⟩ := set_eq_some ht
  · exact hkept id (List.mem_cons_of_mem _ howed)
  · exact hkept id howed

/-- Pending revocations are kept exactly in the runs in which no call writes a list that undoes what
it has missed: every id whose caching another call has completed since this one read the list, and
that has not been broadcast since, was in the list already, and this call has not broadcast it. -/
theorem kept_iff {stored : Option (List Utf16)} {es : List RevocationEvent}
    (hrun : Machine.Run (step signalingUrl) (initial stored) es t) :
    Machine.Everywhere (step signalingUrl) Kept (initial stored) es ↔
      Machine.Throughout (step signalingUrl) Untroubled (initial stored) es := by
  refine Machine.everywhere_iff_throughout (A := fun _ _ => True) hrun
    (Machine.throughout_of_forall fun _ _ _ => trivial) (known_initial stored)
    (fun s hs => hs.kept) (fun s e t hs _ hG ht => known_step hs hG ht) ?_
  intro s e t hs _ hG ht
  unfold Untroubled at hG
  split at hG
  next i =>
    obtain ⟨r, hr, ht⟩ := Option.bind_eq_some_iff.mp ht
    refine not_kept_of_set hs hr (fun hharm => hG fun r' hr' => ?_) ht
    obtain rfl := Option.some.inj (hr.symm.trans hr')
    exact hharm
  next => exact absurd trivial hG

/-- A flush is under way with phone 97 when the broadcast for phone 98 fails and is cached; the
flush then writes what is left of the list it has read, and phone 98 is not in it. -/
def lostRevocation : List RevocationEvent :=
  [.flushPendingRevocations, .got 0 true, .revokeDevice [98], .sent 1 false, .got 1 true,
    .set 1 true, .sent 0 true, .set 0 true]

theorem flush_loses_cached_revocation :
    ∃ t, Machine.Run (step none) (initial (some [[97]])) lostRevocation t ∧
      [98] ∈ t.owed ∧ t.stored = some [] ∧ ¬t.Kept := by
  have hlost : (Machine.exec (step none) (initial (some [[97]])) lostRevocation).any
      (fun t => [98] ∈ t.owed ∧ t.stored = some [] ∧ ¬t.Kept) = true := by
    decide +kernel
  obtain ⟨t, hrun, ht⟩ := Machine.exists_run_with hlost
  exact ⟨t, hrun, of_decide_eq_true ht⟩

/-- The same two calls, with the flush at its end before the revocation is cached. -/
def keptRevocation : List RevocationEvent :=
  [.flushPendingRevocations, .got 0 true, .revokeDevice [98], .sent 1 false, .sent 0 true,
    .set 0 true, .got 1 true, .set 1 true]

theorem flush_before_caching_keeps_revocation :
    Machine.Everywhere (step none) Kept (initial (some [[97]])) keptRevocation := by
  have hrun : (Machine.exec (step none) (initial (some [[97]])) keptRevocation).isSome = true := by
    decide +kernel
  obtain ⟨t, hrun⟩ := Machine.exists_run_of_exec hrun
  exact (kept_iff hrun).mpr (by decide +kernel)

end Revocations

end SmartIdVault.DeviceRegistry
