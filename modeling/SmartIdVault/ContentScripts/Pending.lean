import SmartIdVault.Lib.KeyedList
import SmartIdVault.Lib.Machine
import SmartIdVault.Lib.Tasks
import SmartIdVault.Lib.Utf

/-! The domains that wait for the user's decision and those that the user has refused, in session
storage, and the badge that counts the former.  A call reads a list and writes one made from it, with
nothing to keep the calls apart; the badge shows the length of a list that has been read before. -/

namespace SmartIdVault.ContentScripts

structure FormSelectors where
  usernameSelector : Utf16
  passwordSelector : Utf16
  deriving DecidableEq

structure PendingDomain where
  domain : Utf16
  url : Utf16
  tabId : Int
  formSelectors : FormSelectors
  timestamp : Nat
  deriving DecidableEq

/-- Where a call stands: at the read of its list, at the write of one made from it, or in
`updateBadgeCount`, at its read, its text or its colour. -/
inductive PendingCall where
  | readingToAdd (domain url : Utf16) (tabId : Int) (formSelectors : FormSelectors)
  | adding (pending : List PendingDomain) (entry : PendingDomain)
  | readingToRemove (domain : Utf16)
  | removing (pending : List PendingDomain) (domain : Utf16)
  | readingToDeny (domain : Utf16)
  | denying (denied : List Utf16) (domain : Utf16)
  | readingBadge
  | settingText (count : Nat)
  | settingColor (count : Nat)
  | finished
  deriving DecidableEq

/-- The call has yet to set the text of the badge. -/
def PendingCall.updatesBadge : PendingCall → Bool
  | .readingBadge | .settingText _ => true
  | _ => false

/-- `pending` and `denied` are 'pendingDomains' and 'deniedDomains'; `added` has the domains of
which the last call to take effect is an `addPendingDomain`, and `refused` those of an
`addDeniedDomain`. -/
structure PendingLists where
  pending : Option (List PendingDomain) := none
  denied : Option (List Utf16) := none
  badgeText : Utf16 := []
  badgeColor : Option Utf16 := none
  calls : List PendingCall := []
  added : List Utf16 := []
  refused : List Utf16 := []
  deriving DecidableEq

namespace PendingLists

/-- The calls, and what call `i` awaits: its read, its write, the text and the colour. -/
inductive Event where
  | addPendingDomain (domain url : Utf16) (tabId : Int) (formSelectors : FormSelectors)
  | removePendingDomain (domain : Utf16)
  | addDeniedDomain (domain : Utf16)
  | updateBadgeCount
  | got (i now : Nat)
  | set (i : Nat)
  | setBadgeText (i : Nat)
  | setBadgeBackgroundColor (i : Nat)
  deriving DecidableEq

def getPendingDomains (s : PendingLists) : List PendingDomain := s.pending.getD []

def getDeniedDomains (s : PendingLists) : List Utf16 := s.denied.getD []

def start (s : PendingLists) (c : PendingCall) : PendingLists := { s with calls := s.calls ++ [c] }

def put (s : PendingLists) (i : Nat) (c : PendingCall) : PendingLists :=
  { s with calls := s.calls.set i c }

def got (s : PendingLists) (i now : Nat) : PendingCall → Option PendingLists
  | .readingToAdd domain url tabId formSelectors =>
    let pending := s.getPendingDomains
    some (if pending.any (·.domain = domain)
      then { s.put i .finished with added := domain :: s.added }
      else s.put i (.adding pending { domain, url, tabId, formSelectors, timestamp := now }))
  | .readingToRemove domain => some (s.put i (.removing s.getPendingDomains domain))
  | .readingToDeny domain =>
    let denied := s.getDeniedDomains
    some (if denied.contains domain
      then { s.put i .finished with refused := domain :: s.refused }
      else s.put i (.denying denied domain))
  | .readingBadge => some (s.put i (.settingText s.getPendingDomains.length))
  | _ => none

def set (s : PendingLists) (i : Nat) : PendingCall → Option PendingLists
  | .adding pending entry =>
    some { s.put i .readingBadge with
      pending := some (pending ++ [entry])
      added := entry.domain :: s.added }
  | .removing pending domain =>
    some { s.put i .readingBadge with
      pending := some (pending.filter (·.domain ≠ domain))
      added := s.added.filter (· ≠ domain) }
  | .denying denied domain =>
    some { s.put i .finished with
      denied := some (denied ++ [domain])
      refused := domain :: s.refused }
  | _ => none

def badgeTextOf (count : Nat) : Utf16 :=
  if 0 < count then Utf16.ofString (toString count) else []

def badgeColorOf (count : Nat) : Utf16 :=
  Utf16.ofString (if 0 < count then "#dc2626" else "#000000")

def setBadgeText (s : PendingLists) (i : Nat) : PendingCall → Option PendingLists
  | .settingText count =>
    some { s.put i (.settingColor count) with badgeText := badgeTextOf count }
  | _ => none

def setBadgeBackgroundColor (s : PendingLists) (i : Nat) : PendingCall → Option PendingLists
  | .settingColor count =>
    some { s.put i .finished with badgeColor := some (badgeColorOf count) }
  | _ => none

def step (s : PendingLists) : Event → Option PendingLists
  | .addPendingDomain domain url tabId formSelectors =>
    some (s.start (.readingToAdd domain url tabId formSelectors))
  | .removePendingDomain domain => some (s.start (.readingToRemove domain))
  | .addDeniedDomain domain => some (s.start (.readingToDeny domain))
  | .updateBadgeCount => some (s.start .readingBadge)
  | .got i now => s.calls[i]?.bind (s.got i now)
  | .set i => s.calls[i]?.bind (s.set i)
  | .setBadgeText i => s.calls[i]?.bind (s.setBadgeText i)
  | .setBadgeBackgroundColor i => s.calls[i]?.bind (s.setBadgeBackgroundColor i)

abbrev Run (s : PendingLists) (es : List Event) (t : PendingLists) : Prop := Machine.Run step s es t

/-! ### What the lists and the badge have to be -/

def Quiet (s : PendingLists) : Prop := ∀ c ∈ s.calls, c = .finished

instance (s : PendingLists) : Decidable s.Quiet := inferInstanceAs (Decidable (∀ c ∈ s.calls, _))

/-- The lists and the badge once all calls are at their ends. -/
def Settled (s : PendingLists) : Prop :=
  (∀ d, (s.getPendingDomains.map (·.domain)).count d = if d ∈ s.added then 1 else 0) ∧
    (∀ d, s.getDeniedDomains.count d = if d ∈ s.refused then 1 else 0) ∧
    s.badgeText = badgeTextOf s.getPendingDomains.length

/-- The lists are right after every step, and the badge is when no call has it to set. -/
structure Agrees (s : PendingLists) : Prop where
  pending : KeyedList.Holds (·.domain) s.getPendingDomains s.added
  denied : KeyedList.Holds id s.getDeniedDomains s.refused
  badge : (∀ c ∈ s.calls, c.updatesBadge = false) →
    s.badgeText = badgeTextOf s.getPendingDomains.length

/-- What a call at its write has read is, apart from its own domain, what is stored. -/
def ReadsCurrent (s : PendingLists) : PendingCall → Prop
  | .adding pending entry =>
    KeyedList.Current (·.domain) entry.domain pending s.getPendingDomains
  | .removing pending domain => KeyedList.Current (·.domain) domain pending s.getPendingDomains
  | .denying denied domain => KeyedList.Current id domain denied s.getDeniedDomains
  | _ => True

instance (s : PendingLists) : ∀ c, Decidable (s.ReadsCurrent c)
  | .adding pending entry => inferInstanceAs (Decidable
      (KeyedList.Current (·.domain) entry.domain pending s.getPendingDomains))
  | .removing pending domain => inferInstanceAs (Decidable
      (KeyedList.Current (·.domain) domain pending s.getPendingDomains))
  | .denying denied domain => inferInstanceAs (Decidable
      (KeyedList.Current id domain denied s.getDeniedDomains))
  | .readingToAdd .. | .readingToRemove _ | .readingToDeny _ | .readingBadge | .settingText _
  | .settingColor _ | .finished => isTrue trivial

/-- A call writes only a list that it has read as it is stored, and a text shows the length of the
stored list unless another call has yet to set it. -/
def Careful (s : PendingLists) : Event → Prop
  | .set i => ∀ c ∈ s.calls[i]?, s.ReadsCurrent c
  | .setBadgeText i => ∀ c ∈ s.calls[i]?, c = .settingText s.getPendingDomains.length ∨
    ∃ c' ∈ s.calls.eraseIdx i, c'.updatesBadge = true
  | _ => True

instance (s : PendingLists) : ∀ e, Decidable (s.Careful e)
  | .set i => inferInstanceAs (Decidable (∀ c ∈ s.calls[i]?, s.ReadsCurrent c))
  | .setBadgeText i => inferInstanceAs (Decidable (∀ c ∈ s.calls[i]?,
    c = .settingText s.getPendingDomains.length ∨
      ∃ c' ∈ s.calls.eraseIdx i, c'.updatesBadge = true))
  | .addPendingDomain .. | .removePendingDomain _ | .addDeniedDomain _ | .updateBadgeCount
  | .got .. | .setBadgeBackgroundColor _ => isTrue trivial

end PendingLists

open KeyedList (Holds Current)

variable {s t : PendingLists} {i now : Nat} {c c' : PendingCall}

/-- What a call that is at its write has read. -/
def PendingCall.Sound : PendingCall → Prop
  | .adding pending entry =>
    (pending.map (·.domain)).Nodup ∧ entry.domain ∉ pending.map (·.domain)
  | .removing pending _ => (pending.map (·.domain)).Nodup
  | .denying denied domain => (denied.map id).Nodup ∧ domain ∉ denied.map id
  | _ => True

namespace PendingLists

theorem badgeTextOf_inj {m n : Nat} (h : badgeTextOf m = badgeTextOf n) : m = n := by
  have hempty (n : Nat) : Utf16.ofString (toString n) ≠ [] := by
    intro hnil
    have hdigits : toString n = "" := Utf16.ofString_inj hnil
    simpa using congrArg String.toList hdigits
  unfold badgeTextOf at h
  split at h <;> split at h
  · exact Utf16.decimal_inj h
  · exact absurd h (hempty m)
  · exact absurd h.symm (hempty n)
  · omega

theorem settled_of_agrees (h : s.Agrees) (hquiet : s.Quiet) : s.Settled := by
  refine ⟨h.pending.count, fun d => ?_, h.badge fun c hc => ?_⟩
  · have hcount := h.denied.count d
    rwa [List.map_id] at hcount
  · rw [hquiet c hc]
    rfl

structure Known (s : PendingLists) : Prop where
  agrees : s.Agrees
  sound : ∀ c ∈ s.calls, c.Sound

theorem Known.init : Known {} where
  agrees := ⟨.nil, .nil, fun _ => rfl⟩
  sound := nofun

theorem Known.get (h : Known s) (hi : s.calls[i]? = some c) : c.Sound :=
  h.sound c (List.mem_of_getElem? hi)

theorem sound_set (h : Known s) (hnew : c'.Sound) : ∀ c ∈ s.calls.set i c', c.Sound := by
  intro c hc
  obtain rfl | ⟨j, -, hj⟩ := Tasks.mem_set hc
  · exact hnew
  · exact h.get hj

/-- The calls that have yet to set the badge, after a step of one of them. -/
theorem updates_set_iff (hi : s.calls[i]? = some c) :
    (∀ x ∈ s.calls.set i c', x.updatesBadge = false) ↔
      c'.updatesBadge = false ∧ ¬∃ x ∈ s.calls.eraseIdx i, x.updatesBadge = true := by
  constructor
  · intro h
    refine ⟨h c' (Tasks.mem_set_self hi c'), ?_⟩
    rintro ⟨x, hx, hupdates⟩
    obtain ⟨j, hji, hj⟩ := List.mem_eraseIdx_iff_getElem?.mp hx
    rw [h x (Tasks.mem_set_of_ne hji hj)] at hupdates
    cases hupdates
  · rintro ⟨hnew, hothers⟩ x hx
    obtain rfl | ⟨j, hji, hj⟩ := Tasks.mem_set hx
    · exact hnew
    · by_contra hupdates
      rw [Bool.not_eq_false] at hupdates
      exact hothers ⟨x, List.mem_eraseIdx_iff_getElem?.mpr ⟨j, hji, hj⟩, hupdates⟩

/-- A call goes on, and neither the lists nor the badge change. -/
theorem Known.put (h : Known s) (hi : s.calls[i]? = some c) (hnew : c'.Sound)
    (hbadge : c.updatesBadge = true → c'.updatesBadge = true) : Known (s.put i c') where
  agrees := by
    refine ⟨h.agrees.pending, h.agrees.denied, ?_⟩
    intro hnone
    obtain ⟨hnew, hothers⟩ := (updates_set_iff hi).mp hnone
    refine h.agrees.badge ?_
    intro x hx
    obtain ⟨j, hj⟩ := List.mem_iff_getElem?.mp hx
    by_contra hupdates
    rw [Bool.not_eq_false] at hupdates
    by_cases hji : j = i
    · subst hji
      obtain rfl := Option.some.inj (hi.symm.trans hj)
      rw [hbadge hupdates] at hnew
      cases hnew
    · exact hothers ⟨x, List.mem_eraseIdx_iff_getElem?.mpr ⟨j, hji, hj⟩, hupdates⟩
  sound := sound_set h hnew

theorem Known.start (h : Known s) (hnew : c.Sound) : Known (s.start c) where
  agrees := by
    refine ⟨h.agrees.pending, h.agrees.denied, ?_⟩
    intro hnone
    exact h.agrees.badge fun x hx => hnone x (List.mem_append_left _ hx)
  sound := by
    intro x hx
    obtain hold | hlast := List.mem_append.mp hx
    · exact h.sound x hold
    · rw [List.mem_singleton.mp hlast]
      exact hnew

theorem Known.got (h : Known s) (hi : s.calls[i]? = some c) (ht : s.got i now c = some t) :
    Known t := by
  cases c with
  | readingToAdd domain url tabId formSelectors =>
    obtain rfl := Option.some.inj ht
    split
    · rename_i hfound
      have hmem : domain ∈ s.getPendingDomains.map (·.domain) := by
        simpa using hfound
      have hput : Known (s.put i .finished) := h.put hi trivial nofun
      exact ⟨⟨hput.agrees.pending.cons_of_mem hmem, hput.agrees.denied, hput.agrees.badge⟩,
        hput.sound⟩
    · rename_i hmissing
      refine h.put hi ⟨h.agrees.pending.nodup, ?_⟩ nofun
      simpa using hmissing
  | readingToRemove domain =>
    obtain rfl := Option.some.inj ht
    exact h.put hi h.agrees.pending.nodup nofun
  | readingToDeny domain =>
    obtain rfl := Option.some.inj ht
    split
    · rename_i hfound
      have hmem : domain ∈ s.getDeniedDomains.map id := by
        rw [List.map_id]
        exact List.contains_iff_mem.mp hfound
      have hput : Known (s.put i .finished) := h.put hi trivial nofun
      exact ⟨⟨hput.agrees.pending, hput.agrees.denied.cons_of_mem hmem, hput.agrees.badge⟩,
        hput.sound⟩
    · rename_i hmissing
      refine h.put hi ⟨h.agrees.denied.nodup, ?_⟩ nofun
      rw [List.map_id]
      exact fun hmem => hmissing (List.contains_iff_mem.mpr hmem)
  | readingBadge =>
    obtain rfl := Option.some.inj ht
    exact h.put hi trivial fun _ => rfl
  | _ => cases ht

/-- After a write the lists are right if and only if the call has read them as they are stored. -/
theorem Known.agrees_set_iff (h : Known s) (hi : s.calls[i]? = some c)
    (ht : s.set i c = some t) : t.Agrees ↔ s.Careful (.set i) := by
  have hcareful : s.Careful (.set i) ↔ s.ReadsCurrent c := by
    simp only [Careful, hi, Option.mem_def, Option.some.injEq, forall_eq']
  have hsound := h.get hi
  rw [hcareful]
  cases c with
  | adding pending entry =>
    obtain rfl := Option.some.inj ht
    rw [ReadsCurrent, ← KeyedList.holds_append_iff h.agrees.pending hsound.1 hsound.2]
    refine ⟨Agrees.pending, fun hpending => ⟨hpending, h.agrees.denied, fun hnone => ?_⟩⟩
    cases hnone _ (Tasks.mem_set_self hi _)
  | removing pending domain =>
    obtain rfl := Option.some.inj ht
    rw [ReadsCurrent, ← KeyedList.holds_filter_iff h.agrees.pending hsound]
    refine ⟨Agrees.pending, fun hpending => ⟨hpending, h.agrees.denied, fun hnone => ?_⟩⟩
    cases hnone _ (Tasks.mem_set_self hi _)
  | denying denied domain =>
    obtain rfl := Option.some.inj ht
    have hwritten : Holds id (denied ++ [domain]) (domain :: s.refused) ↔ _ :=
      KeyedList.holds_append_iff h.agrees.denied hsound.1 hsound.2
    refine Iff.trans ?_ hwritten
    have hput : Known (s.put i .finished) := h.put hi trivial nofun
    exact ⟨Agrees.denied, fun hdenied => ⟨hput.agrees.pending, hdenied, hput.agrees.badge⟩⟩
  | _ => cases ht

theorem Known.sound_set (h : Known s) (ht : s.set i c = some t) : ∀ c ∈ t.calls, c.Sound := by
  cases c with
  | adding | removing | denying =>
    obtain rfl := Option.some.inj ht
    exact PendingLists.sound_set h trivial
  | _ => cases ht

/-- After its text is set the badge is right, or another call has it to set, if and only if the text
shows the length of the stored list or there is such a call. -/
theorem Known.agrees_setBadgeText_iff (h : Known s) (hi : s.calls[i]? = some c)
    (ht : s.setBadgeText i c = some t) : t.Agrees ↔ s.Careful (.setBadgeText i) := by
  cases c with
  | settingText count =>
    obtain rfl := Option.some.inj ht
    have hcareful : s.Careful (.setBadgeText i) ↔ count = s.getPendingDomains.length ∨
        ∃ c' ∈ s.calls.eraseIdx i, c'.updatesBadge = true := by
      simp only [Careful, hi, Option.mem_def, Option.some.injEq, forall_eq',
        PendingCall.settingText.injEq]
    rw [hcareful]
    constructor
    · intro hagrees
      by_contra hnot
      obtain ⟨hcount, hnone⟩ := not_or.mp hnot
      exact hcount (badgeTextOf_inj (hagrees.badge ((updates_set_iff hi).mpr ⟨rfl, hnone⟩)))
    · intro hgood
      refine ⟨h.agrees.pending, h.agrees.denied, ?_⟩
      intro hnone
      obtain ⟨-, hothers⟩ := (updates_set_iff hi).mp hnone
      exact congrArg badgeTextOf (hgood.resolve_right hothers)
  | _ => cases ht

theorem Known.sound_setBadgeText (h : Known s) (ht : s.setBadgeText i c = some t) :
    ∀ c ∈ t.calls, c.Sound := by
  cases c with
  | settingText count =>
    obtain rfl := Option.some.inj ht
    exact PendingLists.sound_set h trivial
  | _ => cases ht

theorem Known.step {e : Event} (h : Known s) (hg : s.Careful e)
    (hs : PendingLists.step s e = some t) : Known t := by
  cases e with
  | addPendingDomain | removePendingDomain | addDeniedDomain | updateBadgeCount =>
    obtain rfl := Option.some.inj hs
    exact h.start trivial
  | got i now =>
    obtain ⟨c, hi, ht⟩ := Option.bind_eq_some_iff.mp hs
    exact h.got hi ht
  | set i =>
    obtain ⟨c, hi, ht⟩ := Option.bind_eq_some_iff.mp hs
    exact ⟨(h.agrees_set_iff hi ht).mpr hg, h.sound_set ht⟩
  | setBadgeText i =>
    obtain ⟨c, hi, ht⟩ := Option.bind_eq_some_iff.mp hs
    exact ⟨(h.agrees_setBadgeText_iff hi ht).mpr hg, h.sound_setBadgeText ht⟩
  | setBadgeBackgroundColor i =>
    obtain ⟨c, hi, ht⟩ := Option.bind_eq_some_iff.mp hs
    cases c with
    | settingColor count =>
      obtain rfl := Option.some.inj ht
      have hput : Known (s.put i .finished) := h.put hi trivial nofun
      exact ⟨⟨hput.agrees.pending, hput.agrees.denied, hput.agrees.badge⟩, hput.sound⟩
    | _ => cases ht

theorem Known.careful {e : Event} (h : Known s) (hs : PendingLists.step s e = some t)
    (hagrees : t.Agrees) : s.Careful e := by
  cases e with
  | set i =>
    obtain ⟨c, hi, ht⟩ := Option.bind_eq_some_iff.mp hs
    exact (h.agrees_set_iff hi ht).mp hagrees
  | setBadgeText i =>
    obtain ⟨c, hi, ht⟩ := Option.bind_eq_some_iff.mp hs
    exact (h.agrees_setBadgeText_iff hi ht).mp hagrees
  | _ => trivial

/-- The lists and the badge are right in all states of a run exactly when every write and every text
is careful; and then, once all calls are at their ends, each domain whose last call is an add is in
its list once, no other domain is, and the badge shows the length of the pending list. -/
theorem agrees_iff_careful {es : List Event} (hrun : Run {} es t) :
    (Machine.Everywhere step Agrees {} es ↔ Machine.Throughout step Careful {} es) ∧
      (Machine.Throughout step Careful {} es → t.Quiet → t.Settled) := by
  constructor
  · refine Machine.everywhere_iff_throughout (A := fun _ _ => True) hrun
      (Machine.throughout_of_forall fun _ _ _ => trivial) Known.init (fun s h => h.agrees)
      (fun s e t h _ hg hs => h.step hg hs) ?_
    intro s e t h _ hg hs hagrees
    exact hg (h.careful hs hagrees)
  · intro hg hquiet
    have hknown : Known t := hrun.invariant Known.init hg fun s e t h hg hs => h.step hg hs
    exact settled_of_agrees hknown.agrees hquiet

/-! ### Two tabs -/

def sampleSelectors : FormSelectors := ⟨[117], [112]⟩

/-- Two tabs find a login form at once: both calls have read the empty list, and the second write is
without the first domain. -/
def twoTabs : List Event :=
  [.addPendingDomain [97] [] 1 sampleSelectors, .addPendingDomain [98] [] 2 sampleSelectors,
    .got 0 0, .got 1 0, .set 0, .set 1, .got 0 0, .got 1 0, .setBadgeText 0, .setBadgeText 1,
    .setBadgeBackgroundColor 0, .setBadgeBackgroundColor 1]

theorem two_tabs_lose_one : ∃ t, Run {} twoTabs t ∧ t.Quiet ∧ ¬t.Settled := by
  have hlost : (Machine.exec step {} twoTabs).any (fun t => t.Quiet ∧ [97] ∈ t.added ∧
      t.getPendingDomains.map (·.domain) = [[98]]) = true := by decide +kernel
  obtain ⟨t, hrun, ht⟩ := Machine.exists_run_with hlost
  obtain ⟨hquiet, hadded, hdomains⟩ := of_decide_eq_true ht
  refine ⟨t, hrun, hquiet, ?_⟩
  intro h
  have hcount := h.1 [97]
  rw [hdomains, if_pos hadded] at hcount
  cases hcount

/-- The same forms one after the other; the first domain is then denied. -/
def oneTabAfterTheOther : List Event :=
  [.addPendingDomain [97] [] 1 sampleSelectors, .got 0 0, .set 0, .got 0 0, .setBadgeText 0,
    .addPendingDomain [98] [] 2 sampleSelectors, .setBadgeBackgroundColor 0, .got 1 0, .set 1,
    .got 1 0, .setBadgeText 1, .setBadgeBackgroundColor 1, .addDeniedDomain [97], .got 2 0, .set 2,
    .removePendingDomain [97], .got 3 0, .set 3, .got 3 0, .setBadgeText 3,
    .setBadgeBackgroundColor 3]

theorem one_tab_after_the_other_settles : ∃ t, Run {} oneTabAfterTheOther t ∧ t.Settled := by
  have hquiet : (Machine.exec step {} oneTabAfterTheOther).any (fun t => t.Quiet) = true := by
    decide +kernel
  obtain ⟨t, hrun, ht⟩ := Machine.exists_run_with hquiet
  exact ⟨t, hrun, (agrees_iff_careful hrun).2 (by decide +kernel) (of_decide_eq_true ht)⟩

end PendingLists

end SmartIdVault.ContentScripts
