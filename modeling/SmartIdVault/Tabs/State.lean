import Mathlib.Logic.Function.Basic
import SmartIdVault.Domain.Parser
import SmartIdVault.Lib.Machine
import SmartIdVault.Lib.Tasks

/-! `TabStateManager`: the domain of each tab in session storage, and the cache by which an update
for the domain of the one before is left out.  An update looks at the cache, issues its write, and
enters the cache when the write has been reported back; writes are applied in the order in which
they are issued. -/

namespace SmartIdVault.Tabs

open Domain (Platform parseDomain)

structure TabDomainState where
  tabId : Int
  domain : Utf16
  registrableDomain : Utf16
  url : Utf16
  timestamp : Nat
  isPublic : Bool
  deriving DecidableEq

structure CachedDomain where
  domain : Utf16
  timestamp : Nat
  deriving DecidableEq

def cacheTtlMs : Nat := 1000

/-- A call of `updateTabDomain`: its write has been issued, or applied, or the call is at its end. -/
inductive Call where
  | writing (state : TabDomainState)
  | written (state : TabDomainState)
  | returned (updated : Bool)
  deriving DecidableEq

abbrev Storage := Int → Option TabDomainState

/-- `writes` are those issued and not yet applied, with their calls; `last` has the domain of the
last call for each tab whose URL `parseDomain` accepts. -/
structure TabStates where
  stored : Storage := fun _ => none
  lastUpdateCache : Int → Option CachedDomain := fun _ => none
  writes : List (Nat × TabDomainState) := []
  calls : List Call := []
  last : Int → Option Utf16 := fun _ => none

/-- A call; the write issued first is applied; the write of call `i` is reported back to it; a tab
is closed. -/
inductive Event where
  | updateTabDomain (tabId : Int) (url : Utf16) (now : Nat)
  | applied
  | resumed (i : Nat)
  | onRemoved (tabId : Int)
  deriving DecidableEq

namespace TabStates

/-- The cache has the domain, and not for too long. -/
def cached (s : TabStates) (tabId : Int) (domain : Utf16) (now : Nat) : Bool :=
  match s.lastUpdateCache tabId with
  | some entry => entry.domain = domain && (now : Int) - entry.timestamp < cacheTtlMs
  | none => false

def returning (s : TabStates) (updated : Bool) : TabStates :=
  { s with calls := s.calls ++ [.returned updated] }

def updateTabDomain (platform : Platform) (s : TabStates) (tabId : Int) (url : Utf16)
    (now : Nat) : TabStates :=
  match parseDomain platform url with
  | .error _ => s.returning false
  | .ok data =>
    let s := { s with last := Function.update s.last tabId (some data.domain) }
    if s.cached tabId data.domain now then s.returning false
    else
      let state : TabDomainState := {
        tabId
        domain := data.domain
        registrableDomain := data.registrableDomain
        url
        timestamp := now
        isPublic := data.isPublic }
      { s with
        calls := s.calls ++ [.writing state]
        writes := s.writes ++ [(s.calls.length, state)] }

def write (stored : Storage) (state : TabDomainState) : Storage :=
  Function.update stored state.tabId (some state)

def applied (s : TabStates) : Option TabStates :=
  match s.writes with
  | [] => none
  | (i, state) :: writes => some { s with
    stored := write s.stored state
    writes
    calls := s.calls.set i (.written state) }

def resumed (s : TabStates) (i : Nat) : Call → Option TabStates
  | .written state => some { s with
    lastUpdateCache :=
      Function.update s.lastUpdateCache state.tabId (some ⟨state.domain, state.timestamp⟩)
    calls := s.calls.set i (.returned true) }
  | _ => none

/-- With and without an entry in the cache, it is the stored state that is returned. -/
def getTabDomain (s : TabStates) (tabId : Int) : Option TabDomainState := s.stored tabId

def step (platform : Platform) (s : TabStates) : Event → Option TabStates
  | .updateTabDomain tabId url now => some (s.updateTabDomain platform tabId url now)
  | .applied => s.applied
  | .resumed i => s.calls[i]?.bind (s.resumed i)
  | .onRemoved tabId =>
    some { s with lastUpdateCache := Function.update s.lastUpdateCache tabId none }

abbrev Run (platform : Platform) (s : TabStates) (es : List Event) (t : TabStates) : Prop :=
  Machine.Run (step platform) s es t

end TabStates

end SmartIdVault.Tabs
