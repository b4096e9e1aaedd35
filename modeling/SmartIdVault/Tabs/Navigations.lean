import Mathlib.Data.List.Nodup
import SmartIdVault.Tabs.State

/-! The last navigation of a tab is the one whose domain is stored in the end, as long as no update
comes for the domain in the cache while a write of the tab for another one waits.  The cache is
behind the writes by all those that have not been reported back: after a quick change to another
site and back it still has the first site. -/

namespace SmartIdVault.Tabs.TabStates

open Domain (Platform ParsedDomain parseDomain)

variable {platform : Platform} {s t : TabStates} {e : Event} {i : Nat} {tabId : Int}
  {domain : Utf16}

/-- The domain that is stored for the tab. -/
def storedDomain (s : TabStates) (tabId : Int) : Option Utf16 :=
  (s.getTabDomain tabId).map (·.domain)

/-- The storage after all writes that have been issued. -/
def afterWrites (s : TabStates) : Storage :=
  s.writes.foldl (fun stored w => write stored w.2) s.stored

/-- The domain that the writes issued for the tab lead to. -/
def issuedDomain (s : TabStates) (tabId : Int) : Option Utf16 :=
  (s.afterWrites tabId).map (·.domain)

def Quiet (s : TabStates) : Prop := ∀ c ∈ s.calls, ∃ updated, c = .returned updated

/-- Each tab has, or will have, the domain of its last call. -/
def Latest (s : TabStates) : Prop :=
  ∀ tabId domain, s.last tabId = some domain → s.issuedDomain tabId = some domain

/-- The step leads to the domains of the last calls, and a call that is left out is one for the
domain that is stored. -/
def Sound (platform : Platform) (s : TabStates) (e : Event) : Prop :=
  ∀ t, step platform s e = some t → t.Latest ∧
    ∀ tabId url now data, e = .updateTabDomain tabId url now →
      parseDomain platform url = .ok data → t.calls = s.calls ++ [.returned false] →
        s.storedDomain tabId = some data.domain

/-- What a call has written and waits for, until the write is reported back. -/
def pending : Call → Option TabDomainState
  | .writing state | .written state => some state
  | .returned _ => none

/-- A call that finds its domain in the cache, not too old, comes when no call for its tab waits with
another domain; and the writes of a tab are reported back in the order in which they were issued. -/
def Timely (platform : Platform) (s : TabStates) : Event → Prop
  | .updateTabDomain tabId url now => ∀ data ∈ (parseDomain platform url).toOption,
    s.cached tabId data.domain now = true →
      ∀ c ∈ s.calls, ∀ state ∈ pending c, state.tabId = tabId → state.domain = data.domain
  | .resumed i => ∀ state ∈ s.calls[i]?.bind pending,
    ∀ c ∈ s.calls.take i, ∀ state' ∈ pending c, state'.tabId ≠ state.tabId
  | _ => True

instance (platform : Platform) (s : TabStates) : ∀ e, Decidable (Timely platform s e)
  | .updateTabDomain tabId url now => inferInstanceAs (Decidable
      (∀ data ∈ (parseDomain platform url).toOption, s.cached tabId data.domain now = true →
        ∀ c ∈ s.calls, ∀ state ∈ pending c, state.tabId = tabId → state.domain = data.domain))
  | .resumed i => inferInstanceAs (Decidable (∀ state ∈ s.calls[i]?.bind pending,
      ∀ c ∈ s.calls.take i, ∀ state' ∈ pending c, state'.tabId ≠ state.tabId))
  | .applied | .onRemoved _ => isTrue trivial

/-- A call that finds its domain in the cache, not too old, is one for the domain that is stored for
its tab and that the tab's writes lead to. -/
def Fresh (platform : Platform) (s : TabStates) : Event → Prop
  | .updateTabDomain tabId url now => ∀ data ∈ (parseDomain platform url).toOption,
    s.cached tabId data.domain now = true →
      s.storedDomain tabId = some data.domain ∧ s.issuedDomain tabId = some data.domain
  | _ => True

/-! ### Steps -/

/-- What a call of `updateTabDomain` does: its URL is not accepted, or it is left out, or it issues
its write. -/
inductive Update (platform : Platform) (s : TabStates) (tabId : Int) (url : Utf16) (now : Nat) :
    TabStates → Prop
  | refused (hparse : ∀ data, parseDomain platform url ≠ .ok data) :
    Update platform s tabId url now (s.returning false)
  | leftOut (data : ParsedDomain) (hparse : parseDomain platform url = .ok data)
      (hcached : s.cached tabId data.domain now = true) :
    Update platform s tabId url now
      { s.returning false with last := Function.update s.last tabId (some data.domain) }
  | issued (data : ParsedDomain) (state : TabDomainState)
      (hparse : parseDomain platform url = .ok data)
      (hcached : s.cached tabId data.domain now = false) (htab : state.tabId = tabId)
      (hdomain : state.domain = data.domain) :
    Update platform s tabId url now
      { s with
        last := Function.update s.last tabId (some data.domain)
        calls := s.calls ++ [.writing state]
        writes := s.writes ++ [(s.calls.length, state)] }

theorem update_of_step {url : Utf16} {now : Nat}
    (hs : step platform s (.updateTabDomain tabId url now) = some t) :
    Update platform s tabId url now t := by
  obtain rfl := Option.some.inj hs
  unfold updateTabDomain
  split
  · rename_i error hparse
    refine .refused ?_
    intro data hdata
    cases hparse.symm.trans hdata
  · rename_i data hparse
    dsimp only
    split
    · rename_i hcached
      exact .leftOut data hparse hcached
    · rename_i hcached
      exact .issued data _ hparse (Bool.eq_false_iff.mpr hcached) rfl rfl

/-- The calls whose writes have been issued and not applied are at their writes, and no others; they
have come in the order of the writes, and after those whose writes have been applied. -/
structure Linked (s : TabStates) : Prop where
  waits : ∀ w ∈ s.writes, s.calls[w.1]? = some (.writing w.2)
  issued : ∀ (i : Nat) state, s.calls[i]? = some (.writing state) → (i, state) ∈ s.writes
  sorted : s.writes.Pairwise fun w w' => w.1 < w'.1
  applied : ∀ (i : Nat) state, s.calls[i]? = some (.written state) → ∀ w ∈ s.writes, i < w.1

/-- A call is added that is at its end. -/
theorem Linked.returning (h : Linked s) {updated : Bool}
    (hcalls : t.calls = s.calls ++ [.returned updated]) (hwrites : t.writes = s.writes) :
    Linked t where
  waits w hw := by
    rw [hwrites] at hw
    rw [hcalls]
    exact Tasks.get_append_of_get (h.waits w hw) _
  issued i state hi := by
    rw [hcalls] at hi
    rw [hwrites]
    obtain hi | ⟨-, hlast⟩ := Tasks.get_append hi
    · exact h.issued i state hi
    · cases hlast
  sorted := by
    rw [hwrites]
    exact h.sorted
  applied i state hi w hw := by
    rw [hcalls] at hi
    rw [hwrites] at hw
    obtain hi | ⟨-, hlast⟩ := Tasks.get_append hi
    · exact h.applied i state hi w hw
    · cases hlast

theorem Linked.step (h : Linked s) (hs : TabStates.step platform s e = some t) : Linked t := by
  have hlength : ∀ w ∈ s.writes, w.1 < s.calls.length := fun w hw =>
    (List.getElem?_eq_some_iff.mp (h.waits w hw)).1
  cases e with
  | updateTabDomain tabId url now =>
    cases update_of_step hs with
    | refused | leftOut => exact h.returning rfl rfl
    | issued data state =>
      refine ⟨?_, ?_, ?_, ?_⟩
      · intro w hw
        obtain hw | hw := List.mem_append.mp hw
        · exact Tasks.get_append_of_get (h.waits w hw) _
        · rw [List.mem_singleton.mp hw]
          exact Tasks.append_self ..
      · intro i state' hi
        obtain hi | ⟨rfl, hlast⟩ := Tasks.get_append hi
        · exact List.mem_append_left _ (h.issued i state' hi)
        · cases hlast
          exact List.mem_append_right _ (List.mem_singleton_self _)
      · refine List.pairwise_append.mpr ⟨h.sorted, List.pairwise_singleton .., ?_⟩
        intro w hw w' hw'
        rw [List.mem_singleton.mp hw']
        exact hlength w hw
      · intro i state' hi w hw
        obtain hi | ⟨-, hlast⟩ := Tasks.get_append hi
        · obtain hw | hw := List.mem_append.mp hw
          · exact h.applied i state' hi w hw
          · rw [List.mem_singleton.mp hw]
            exact (List.getElem?_eq_some_iff.mp hi).1
        · cases hlast
  | applied =>
    simp only [TabStates.step, TabStates.applied] at hs
    split at hs
    · cases hs
    · rename_i i state writes hwrites
      obtain rfl := Option.some.inj hs
      have hsorted := h.sorted
      rw [hwrites, List.pairwise_cons] at hsorted
      have hold {w : Nat × TabDomainState} (hw : w ∈ writes) : w ∈ s.writes :=
        hwrites ▸ List.mem_cons_of_mem _ hw
      refine ⟨?_, ?_, hsorted.2, ?_⟩
      · intro w hw
        exact Tasks.get_set_of_ne (Nat.ne_of_gt (hsorted.1 w hw)) (h.waits w (hold hw))
      · intro j state' hj
        obtain ⟨-, hsame⟩ | ⟨hji, hj⟩ := Tasks.get_set hj
        · cases hsame
        · have hmem := h.issued j state' hj
          rw [hwrites] at hmem
          obtain hhead | hmem := List.mem_cons.mp hmem
          · exact absurd (congrArg Prod.fst hhead) hji
          · exact hmem
      · intro j state' hj w hw
        obtain ⟨rfl, -⟩ | ⟨-, hj⟩ := Tasks.get_set hj
        · exact hsorted.1 w hw
        · exact h.applied j state' hj w (hold hw)
  | resumed i =>
    obtain ⟨c, hi, ht⟩ := Option.bind_eq_some_iff.mp hs
    cases c with
    | written state =>
      obtain rfl := Option.some.inj ht
      refine ⟨?_, ?_, h.sorted, ?_⟩
      · intro w hw
        have hne : w.1 ≠ i := by
          rintro rfl
          cases (h.waits w hw).symm.trans hi
        exact Tasks.get_set_of_ne hne (h.waits w hw)
      · intro j state' hj
        obtain ⟨-, hsame⟩ | ⟨-, hj⟩ := Tasks.get_set hj
        · cases hsame
        · exact h.issued j state' hj
      · intro j state' hj
        obtain ⟨-, hsame⟩ | ⟨-, hj⟩ := Tasks.get_set hj
        · cases hsame
        · exact h.applied j state' hj
    | _ => cases ht
  | onRemoved tabId =>
    obtain rfl := Option.some.inj hs
    exact ⟨h.waits, h.issued, h.sorted, h.applied⟩

theorem Linked.quiet (h : Linked s) (hquiet : s.Quiet) (tabId : Int) :
    s.issuedDomain tabId = s.storedDomain tabId := by
  have hnone : s.writes = [] := by
    refine List.eq_nil_iff_forall_not_mem.mpr ?_
    intro w hw
    obtain ⟨updated, hcall⟩ := hquiet _ (List.mem_of_getElem? (h.waits w hw))
    cases hcall
  rw [issuedDomain, afterWrites, hnone]
  rfl

/-- A call whose domain the tab's writes lead to leaves each tab with the domain of its last call. -/
theorem Latest.update (h : s.Latest) (hlast : t.last = Function.update s.last tabId (some domain))
    (hdomain : t.issuedDomain tabId = some domain)
    (hothers : ∀ tab, tab ≠ tabId → t.issuedDomain tab = s.issuedDomain tab) : t.Latest := by
  intro tab d hd
  rw [hlast] at hd
  by_cases htab : tab = tabId
  · subst htab
    rw [Function.update_self] at hd
    rw [hdomain, hd]
  · rw [Function.update_of_ne htab] at hd
    rw [hothers tab htab]
    exact h tab d hd

/-- A write that is issued leads its tab, and no other, to its domain. -/
theorem issuedDomain_append {state : TabDomainState}
    (hwrites : t.writes = s.writes ++ [(i, state)]) (hstored : t.stored = s.stored) (tab : Int) :
    t.issuedDomain tab = if tab = state.tabId then some state.domain else s.issuedDomain tab := by
  rw [issuedDomain, afterWrites, hwrites, hstored, List.foldl_append, ← afterWrites]
  simp only [List.foldl_cons, List.foldl_nil, write, Function.update_apply]
  split <;> rfl

theorem Latest.step (h : s.Latest) (hg : s.Fresh platform e)
    (hs : TabStates.step platform s e = some t) : t.Latest := by
  cases e with
  | updateTabDomain tabId url now =>
    cases update_of_step hs with
    | refused => exact h
    | leftOut data hparse hcached =>
      have hdata : data ∈ (parseDomain platform url).toOption := by rw [hparse]; rfl
      exact h.update rfl (hg data hdata hcached).2 fun tab _ => rfl
    | issued data state hparse hcached htab hdomain =>
      have hissued := issuedDomain_append (s := s) (t := { s with
        last := Function.update s.last tabId (some data.domain)
        calls := s.calls ++ [.writing state]
        writes := s.writes ++ [(s.calls.length, state)] }) rfl rfl
      refine h.update rfl ?_ ?_
      · rw [hissued, if_pos htab.symm, hdomain]
      · intro tab hne
        rw [hissued, if_neg (htab ▸ hne)]
  | applied =>
    simp only [TabStates.step, TabStates.applied] at hs
    split at hs
    · cases hs
    · rename_i i state writes hwrites
      obtain rfl := Option.some.inj hs
      intro tab d hd
      have hissued := h tab d hd
      rwa [issuedDomain, afterWrites, hwrites] at hissued
  | resumed i =>
    obtain ⟨c, hi, ht⟩ := Option.bind_eq_some_iff.mp hs
    cases c with
    | written state =>
      obtain rfl := Option.some.inj ht
      exact h
    | _ => cases ht
  | onRemoved tabId =>
    obtain rfl := Option.some.inj hs
    exact h

theorem Latest.sound (h : s.Latest) (hg : s.Fresh platform e) : s.Sound platform e := by
  intro u hu
  refine ⟨h.step hg hu, ?_⟩
  rintro tabId url now data rfl hparse hcalls
  have hdata : data ∈ (parseDomain platform url).toOption := by rw [hparse]; rfl
  cases update_of_step hu with
  | refused hnot => exact absurd hparse (hnot data)
  | leftOut data' hparse' hcached =>
    obtain rfl := Except.ok.inj (hparse.symm.trans hparse')
    exact (hg data hdata hcached).1
  | issued data' state =>
    have hlast := List.append_cancel_left hcalls
    cases (List.cons.inj hlast).1

/-! ### The cache and the writes that wait -/

/-- The call of the tab whose write is the last one that has been applied and not reported back. -/
def LastWritten (s : TabStates) (i : Nat) (state : TabDomainState) : Prop :=
  s.calls[i]? = some (.written state) ∧
    ∀ j state', s.calls[j]? = some (.written state') → state'.tabId = state.tabId → j ≤ i

/-- The last write that has been applied is stored; where all have been reported back, it is the one
in the cache. -/
structure Following (s : TabStates) : Prop where
  linked : s.Linked
  written : ∀ i state, s.LastWritten i state → s.stored state.tabId = some state
  cached : ∀ tabId entry, s.lastUpdateCache tabId = some entry →
    (∃ i state, s.LastWritten i state ∧ state.tabId = tabId) ∨
      s.storedDomain tabId = some entry.domain

theorem exists_lastWritten {j : Nat} {state : TabDomainState}
    (hj : s.calls[j]? = some (.written state)) :
    ∃ i state', s.LastWritten i state' ∧ state'.tabId = state.tabId := by
  by_cases hlast : ∀ k state', s.calls[k]? = some (.written state') →
      state'.tabId = state.tabId → k ≤ j
  · exact ⟨j, state, ⟨hj, hlast⟩, rfl⟩
  · simp only [not_forall, Nat.not_le] at hlast
    obtain ⟨k, state', hk, htab, hjk⟩ := hlast
    have hlt : k < s.calls.length := (List.getElem?_eq_some_iff.mp hk).1
    obtain ⟨i, state'', hi, htab'⟩ := exists_lastWritten hk
    exact ⟨i, state'', hi, htab'.trans htab⟩
termination_by s.calls.length - j

/-- Where what is stored and all writes that wait are for one domain, they lead to it. -/
theorem issuedDomain_of_writes (hstored : s.storedDomain tabId = some domain)
    (h : ∀ w ∈ s.writes, w.2.tabId = tabId → w.2.domain = domain) :
    s.issuedDomain tabId = some domain := by
  rw [issuedDomain, afterWrites]
  rw [storedDomain, getTabDomain] at hstored
  generalize s.writes = writes at h
  generalize s.stored = stored at hstored
  induction writes generalizing stored with
  | nil => exact hstored
  | cons w writes ih =>
    refine ih (fun w' hw' => h w' (List.mem_cons_of_mem _ hw')) _ ?_
    show (Function.update stored w.2.tabId (some w.2) tabId).map (·.domain) = some domain
    by_cases htab : w.2.tabId = tabId
    · rw [← htab, Function.update_self]
      exact congrArg some (h w (List.mem_cons_self ..) htab)
    · rw [Function.update_of_ne (Ne.symm htab)]
      exact hstored

/-- A timely call finds in the cache only what is stored and what the writes lead to. -/
theorem Following.fresh (h : s.Following) (hg : s.Timely platform e) : s.Fresh platform e := by
  cases e with
  | updateTabDomain tabId url now =>
    intro data hdata hcached
    have hwaiting := hg data hdata hcached
    have hstored : s.storedDomain tabId = some data.domain := by
      simp only [TabStates.cached] at hcached
      split at hcached
      · rename_i entry hentry
        rw [Bool.and_eq_true, decide_eq_true_eq] at hcached
        obtain ⟨i, state, hlast, htab⟩ | hdomain := h.cached tabId entry hentry
        · have hdomain := hwaiting _ (List.mem_of_getElem? hlast.1) state rfl htab
          rw [storedDomain, getTabDomain, ← htab, h.written i state hlast, ← hdomain]
          rfl
        · rw [hdomain, hcached.1]
      · cases hcached
    refine ⟨hstored, issuedDomain_of_writes hstored fun w hw htab => ?_⟩
    exact hwaiting _ (List.mem_of_getElem? (h.linked.waits w hw)) w.2 rfl htab
  | _ => trivial

/-- The calls at written states, the storage and the cache stay as they are. -/
theorem Following.keep (h : s.Following) (hlinked : t.Linked)
    (hcalls : ∀ (i : Nat) state, t.calls[i]? = some (.written state) ↔
      s.calls[i]? = some (.written state))
    (hstored : t.stored = s.stored) (hcache : t.lastUpdateCache = s.lastUpdateCache) :
    t.Following := by
  have hlast (i : Nat) (state : TabDomainState) : t.LastWritten i state ↔ s.LastWritten i state := by
    simp only [LastWritten, hcalls]
  refine ⟨hlinked, fun i state hi => ?_, fun tab entry hentry => ?_⟩
  · rw [hstored]
    exact h.written i state ((hlast i state).mp hi)
  · rw [hcache] at hentry
    rw [storedDomain, getTabDomain, hstored]
    refine (h.cached tab entry hentry).imp_left ?_
    rintro ⟨i, state, hi, htab⟩
    exact ⟨i, state, (hlast i state).mpr hi, htab⟩

/-- The first write is applied, and stored for its tab. -/
theorem Following.applied {i : Nat} {state : TabDomainState} {writes : List (Nat × TabDomainState)}
    (h : s.Following) (hwrites : s.writes = (i, state) :: writes)
    (hlinked : Linked { s with
      writes
      stored := write s.stored state
      calls := s.calls.set i (.written state) }) :
    Following { s with
      writes
      stored := write s.stored state
      calls := s.calls.set i (.written state) } := by
  have hhead : (i, state) ∈ s.writes := hwrites ▸ List.mem_cons_self ..
  have hi : s.calls[i]? = some (.writing state) := h.linked.waits _ hhead
  -- the call is the last of those that have been applied
  have hbefore : ∀ (j : Nat) state', (s.calls.set i (.written state))[j]? = some (.written state') →
      j ≤ i := by
    intro j state' hj
    obtain ⟨rfl, -⟩ | ⟨-, hj⟩ := Tasks.get_set hj
    · exact Nat.le_refl j
    · exact Nat.le_of_lt (h.linked.applied j state' hj _ hhead)
  have hself : (s.calls.set i (.written state))[i]? = some (.written state) := Tasks.set_self hi _
  refine ⟨hlinked, fun j state' hj => ?_, fun tab entry hentry => ?_⟩
  · obtain ⟨hget, hlast⟩ := hj
    by_cases htab : state.tabId = state'.tabId
    · obtain rfl : j = i := Nat.le_antisymm (hbefore j state' hget) (hlast i state hself htab)
      obtain rfl := Call.written.inj (Option.some.inj (hget.symm.trans hself))
      exact Function.update_self ..
    · have hold : s.calls[j]? = some (.written state') := by
        obtain ⟨-, hsame⟩ | ⟨-, hget⟩ := Tasks.get_set hget
        · exact absurd (congrArg TabDomainState.tabId (Call.written.inj hsame)).symm htab
        · exact hget
      refine (Function.update_of_ne (Ne.symm htab) ..).trans (h.written j state' ⟨hold, ?_⟩)
      intro k state'' hk htab'
      have hki : k ≠ i := by
        rintro rfl
        cases hi.symm.trans hk
      exact hlast k state'' (Tasks.get_set_of_ne hki hk) htab'
  · by_cases htab : state.tabId = tab
    · exact .inl ⟨i, state, ⟨hself, fun j state' hj _ => hbefore j state' hj⟩, htab⟩
    · obtain ⟨j, state', ⟨hj, hlast⟩, htab'⟩ | hdomain := h.cached tab entry hentry
      · have hji : j ≠ i := by
          rintro rfl
          cases hi.symm.trans hj
        refine .inl ⟨j, state', ⟨Tasks.get_set_of_ne hji hj, fun k state'' hk htab'' => ?_⟩, htab'⟩
        obtain ⟨-, hsame⟩ | ⟨-, hk⟩ := Tasks.get_set hk
        · obtain rfl := Call.written.inj hsame
          exact absurd (htab''.trans htab') htab
        · exact hlast k state'' hk htab''
      · have hsame : write s.stored state tab = s.stored tab :=
          Function.update_of_ne (Ne.symm htab) ..
        exact .inr ((congrArg (Option.map _) hsame).trans hdomain)

/-- The first write of a tab that waits is reported back: it enters the cache, where it is the last
one too if no other has been applied. -/
theorem Following.entered {i : Nat} {state : TabDomainState} (h : s.Following)
    (hi : s.calls[i]? = some (.written state))
    (hfirst : ∀ (j : Nat) c, j < i → s.calls[j]? = some c → ∀ state' ∈ pending c,
      state'.tabId ≠ state.tabId)
    (hlinked : Linked { s with
      lastUpdateCache := Function.update s.lastUpdateCache state.tabId
        (some ⟨state.domain, state.timestamp⟩)
      calls := s.calls.set i (.returned true) }) :
    Following { s with
      lastUpdateCache := Function.update s.lastUpdateCache state.tabId
        (some ⟨state.domain, state.timestamp⟩)
      calls := s.calls.set i (.returned true) } := by
  have hget {j : Nat} {state' : TabDomainState} :
      (s.calls.set i (.returned true))[j]? = some (.written state') ↔
        j ≠ i ∧ s.calls[j]? = some (.written state') := by
    constructor
    · intro hj
      obtain ⟨-, hsame⟩ | ⟨hji, hj⟩ := Tasks.get_set hj
      · cases hsame
      · exact ⟨hji, hj⟩
    · rintro ⟨hji, hj⟩
      exact Tasks.get_set_of_ne hji hj
  -- what is the last one for its tab now has been so before
  have hlast {j : Nat} {state' : TabDomainState} (hj : s.calls[j]? = some (.written state'))
      (hji : j ≠ i) (hmax : ∀ (k : Nat) state'', k ≠ i → s.calls[k]? = some (.written state'') →
        state''.tabId = state'.tabId → k ≤ j) : s.LastWritten j state' := by
    refine ⟨hj, fun k state'' hk htab => ?_⟩
    by_cases hki : k = i
    · subst hki
      obtain rfl := Call.written.inj (Option.some.inj (hi.symm.trans hk))
      by_contra hlt
      exact hfirst j _ (Nat.lt_of_not_le hlt) hj state' rfl htab.symm
    · exact hmax k state'' hki hk htab
  refine ⟨hlinked, fun j state' hj => ?_, fun tab entry hentry => ?_⟩
  · obtain ⟨hji, hj'⟩ := hget.mp hj.1
    exact h.written j state' (hlast hj' hji fun k state'' hki hk =>
      hj.2 k state'' (hget.mpr ⟨hki, hk⟩))
  · by_cases htab : tab = state.tabId
    · subst htab
      have hnew : some ⟨state.domain, state.timestamp⟩ = some entry :=
        (Function.update_self state.tabId _ s.lastUpdateCache).symm.trans hentry
      obtain rfl := Option.some.inj hnew
      by_cases hother : ∃ k state', k ≠ i ∧ s.calls[k]? = some (.written state') ∧
          state'.tabId = state.tabId
      · obtain ⟨k, state', hki, hk, htab'⟩ := hother
        obtain ⟨j, state'', hj, htab''⟩ := exists_lastWritten (s := { s with
          lastUpdateCache := Function.update s.lastUpdateCache state.tabId
            (some ⟨state.domain, state.timestamp⟩)
          calls := s.calls.set i (.returned true) }) (hget.mpr ⟨hki, hk⟩)
        exact .inl ⟨j, state'', hj, htab''.trans htab'⟩
      · have honly : s.LastWritten i state := by
          refine ⟨hi, fun k state' hk htab' => ?_⟩
          by_contra hlt
          exact hother ⟨k, state', Nat.ne_of_gt (Nat.lt_of_not_le hlt), hk, htab'⟩
        exact .inr (congrArg (Option.map _) (h.written i state honly))
    · have hold : s.lastUpdateCache tab = some entry :=
        (Function.update_of_ne htab ..).symm.trans hentry
      refine (h.cached tab entry hold).imp_left ?_
      rintro ⟨j, state', hj, htab'⟩
      have hji : j ≠ i := by
        rintro rfl
        obtain rfl := Call.written.inj (Option.some.inj (hi.symm.trans hj.1))
        exact htab htab'.symm
      obtain ⟨k, state'', hk, htab''⟩ := exists_lastWritten (s := { s with
        lastUpdateCache := Function.update s.lastUpdateCache state.tabId
          (some ⟨state.domain, state.timestamp⟩)
        calls := s.calls.set i (.returned true) }) (hget.mpr ⟨hji, hj.1⟩)
      exact ⟨k, state'', hk, htab''.trans htab'⟩

theorem Following.step (h : s.Following) (hg : s.Timely platform e)
    (hs : TabStates.step platform s e = some t) : t.Following := by
  have hlinked : t.Linked := h.linked.step hs
  cases e with
  | updateTabDomain tabId url now =>
    have hcalls {c : Call} (hc : ∀ state, c ≠ .written state) (i : Nat) (state : TabDomainState) :
        (s.calls ++ [c])[i]? = some (.written state) ↔ s.calls[i]? = some (.written state) := by
      constructor
      · intro hi
        obtain hi | ⟨-, hlast⟩ := Tasks.get_append hi
        · exact hi
        · exact absurd hlast.symm (hc state)
      · intro hi
        exact Tasks.get_append_of_get hi c
    cases update_of_step hs with
    | refused | leftOut => exact h.keep hlinked (hcalls fun _ heq => by cases heq) rfl rfl
    | issued => exact h.keep hlinked (hcalls fun _ heq => by cases heq) rfl rfl
  | applied =>
    simp only [TabStates.step, TabStates.applied] at hs
    split at hs
    · cases hs
    · rename_i i state writes hwrites
      obtain rfl := Option.some.inj hs
      exact h.applied hwrites hlinked
  | resumed i =>
    obtain ⟨c, hi, ht⟩ := Option.bind_eq_some_iff.mp hs
    cases c with
    | written state =>
      obtain rfl := Option.some.inj ht
      refine h.entered hi (fun j c hj hc state' hstate' => ?_) hlinked
      have hmem : c ∈ s.calls.take i := by
        refine List.mem_of_getElem? (i := j) ?_
        rw [List.getElem?_take_of_lt hj]
        exact hc
      exact hg state (by rw [hi]; rfl) c hmem state' hstate'
    | _ => cases ht
  | onRemoved tabId =>
    obtain rfl := Option.some.inj hs
    refine ⟨hlinked, h.written, fun tab entry hentry => ?_⟩
    by_cases htab : tab = tabId
    · subst htab
      cases (Function.update_self tab none s.lastUpdateCache).symm.trans hentry
    · have hold : s.lastUpdateCache tab = some entry :=
        (Function.update_of_ne htab ..).symm.trans hentry
      exact h.cached tab entry hold

/-! ### Runs -/

/-- In every run of timely calls, writes and closed tabs, from any storage: each step leads every tab
to the domain of its last accepted call, and leaves out a call only for the domain that is stored;
and the domain of the last accepted call is the one that is stored when all calls are complete. -/
theorem sound_of_timely {stored : Storage} {es : List Event}
    (hrun : Run platform { stored } es t)
    (htimely : Machine.Throughout (step platform) (Timely platform) { stored } es) :
    Machine.Throughout (step platform) (Sound platform) { stored } es ∧
      (t.Quiet → ∀ tabId domain, t.last tabId = some domain →
        t.storedDomain tabId = some domain) := by
  have hlinked : Linked { stored } :=
    ⟨fun w hw => (by cases hw), fun i state hi => (by cases hi), .nil,
      fun i state hi => by cases hi⟩
  have hfollowing : Following { stored } := by
    refine ⟨hlinked, fun i state hi => ?_, fun tabId entry hentry => by cases hentry⟩
    cases hi.1
  have hlatest : Latest { stored } := fun tabId domain hdomain => by cases hdomain
  have hfresh : Machine.Throughout (step platform) (Fresh platform) { stored } es :=
    htimely.of_invariant hfollowing (fun _ _ _ h hg hs => Following.step h hg hs)
      fun _ _ h hg => Following.fresh h hg
  refine ⟨hfresh.of_invariant hlatest (fun _ _ _ h hg hs => Latest.step h hg hs)
    fun _ _ h hg => Latest.sound h hg, fun hquiet tabId domain hlast => ?_⟩
  have ht : Latest t := hrun.invariant hlatest hfresh fun _ _ _ h hg hs => Latest.step h hg hs
  have htlinked : Linked t := hrun.invariant_all hlinked fun _ _ _ h hs => h.step hs
  rw [← htlinked.quiet hquiet tabId]
  exact ht tabId domain hlast


/-! ### There and back -/

def siteA : Utf16 := Utf16.ofString "https://a.ee/"

def siteB : Utf16 := Utf16.ofString "https://b.ee/"

/-- A URL parser that knows the two sites. -/
def twoSites : Platform where
  parseUrl url :=
    if url = siteA then some ⟨Utf16.ofString "https:", Utf16.ofString "a.ee"⟩
    else if url = siteB then some ⟨Utf16.ofString "https:", Utf16.ofString "b.ee"⟩
    else none
  dev := false

/-- A tab goes to one site, and within a second to another and back; the write for the other site
has not been reported back then. -/
def thereAndBack : List Event :=
  [.updateTabDomain 1 siteA 0, .applied, .resumed 0, .updateTabDomain 1 siteB 400,
    .updateTabDomain 1 siteA 800, .applied, .resumed 1]

/-- The tab is at the first site, and the second one is stored. -/
theorem there_and_back_stores_other :
    ∃ t, Run twoSites {} thereAndBack t ∧ t.Quiet ∧
      t.last 1 = some (Utf16.ofString "a.ee") ∧
      t.storedDomain 1 = some (Utf16.ofString "b.ee") := by
  have hexec : (Machine.exec (step twoSites) {} thereAndBack).any (fun t =>
      t.calls = [.returned true, .returned true, .returned false] ∧
        t.last 1 = some (Utf16.ofString "a.ee") ∧
        t.storedDomain 1 = some (Utf16.ofString "b.ee")) = true := by decide +kernel
  obtain ⟨t, hrun, ht⟩ := Machine.exists_run_with hexec
  obtain ⟨hcalls, hlast, hstored⟩ := of_decide_eq_true ht
  refine ⟨t, hrun, ?_, hlast, hstored⟩
  intro c hc
  rw [hcalls] at hc
  simp only [List.mem_cons, List.not_mem_nil, or_false] at hc
  obtain rfl | rfl | rfl := hc
  all_goals exact ⟨_, rfl⟩

/-- The same, but each write is reported back before the tab goes on; the first site is then asked
for once more. -/
def stepByStep : List Event :=
  [.updateTabDomain 1 siteA 0, .applied, .resumed 0, .updateTabDomain 1 siteB 400, .applied,
    .resumed 1, .updateTabDomain 1 siteA 800, .applied, .resumed 2, .updateTabDomain 1 siteA 900]

theorem step_by_step_is_sound :
    (∃ t, Run twoSites {} stepByStep t ∧ t.storedDomain 1 = some (Utf16.ofString "a.ee")) ∧
      Machine.Throughout (step twoSites) (Sound twoSites) {} stepByStep := by
  have hexec : (Machine.exec (step twoSites) {} stepByStep).any (fun t =>
      t.storedDomain 1 = some (Utf16.ofString "a.ee")) = true := by decide +kernel
  obtain ⟨t, hrun, ht⟩ := Machine.exists_run_with hexec
  have hsound := sound_of_timely hrun (by decide +kernel)
  exact ⟨⟨t, hrun, of_decide_eq_true ht⟩, hsound.1⟩

end SmartIdVault.Tabs.TabStates
