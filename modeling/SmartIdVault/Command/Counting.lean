import SmartIdVault.Command.Sequence

/-! What a step of the command client does to its message count.  The chain of promises has the
calls at the count, in the order in which they came; only the first of them is served, and when its
access to storage fails all of them are rejected with it. -/

namespace SmartIdVault.Command

open Pairing (ResponseStatus)

/-- The call is at the message count. -/
def Pc.isCount : Pc → Bool
  | .counting | .countWriting _ => true
  | _ => false

/-- The count that the call writes. -/
def Pc.written : Pc → Option Nat
  | .countWriting next => some next
  | _ => none

/-- The call has had its sequence number and needs it still. -/
def Pc.needsSequence : Pc → Bool
  | .signing | .counting | .countWriting _ | .rotating => true
  | _ => false

namespace Client

variable {s t u : Client} {e : Event} {i j now n m k : Nat} {c c' : Call} {p q : Pc}

/-- The count that `handleKeyRotation` obtains in a step, in which the write of a call is made. -/
def obtained (s : Client) : Event → Option Nat
  | .settle i _ => if s.countChain.head? = some i then (s.pcOf i).bind Pc.written else none
  | _ => none

/-- The count that `keyRotationProvider.rotate` is called with in a step, after which the call that
has obtained the count awaits the rotation. -/
def rotated (s : Client) : Event → Option Nat
  | .settle i now => (s.obtained (.settle i now)).filter fun _ =>
      (step s (.settle i now)).any (·.pcOf i = some .rotating)
  | _ => none

/-- Call `j` is rejected for a reason of its own: what it awaits rejects, its attempts are used up,
its answer is an error, or it is a ping and another one is in flight. -/
def OwnFault (s : Client) (j : Nat) : Event → Prop
  | .fail i | .retry i => i = j
  | .response n status => status = .error ∧ s.pending.lookup n = some j
  | .sendPing => j = s.calls.length
  | _ => False

/-- Every call at the message count has its turn to come: it is in the chain, whose first call can
go on. -/
def Flows (s : Client) : Prop :=
  (∀ i, s.AtCount i → i ∈ s.countChain) ∧
    ∀ i now, s.countChain.head? = some i → (step s (.settle i now)).isSome

/-- A step rejects no call but for a reason of its own, and leaves the others their turn. -/
def FailsAlone (s : Client) (e : Event) : Prop :=
  ∀ t, step s e = some t →
    (∀ j, t.pcOf j = some .rejected → s.pcOf j = some .rejected ∨ s.OwnFault j e) ∧ t.Flows

/-- No call waits behind one whose access to the message count fails, and none comes after it. -/
def NobodyBehind (s : Client) : Event → Prop
  | .fail i => s.AtCount i → ∀ j ∈ s.countChain, j = i
  | .settle i _ => s.pcOf i = some .signing → s.countChainBroken = false
  | _ => True

theorem atCount_iff : s.AtCount i ↔ ∃ p, s.pcOf i = some p ∧ p.isCount = true := by
  constructor
  · rintro (h | ⟨n, h⟩)
    · exact ⟨_, h, rfl⟩
    · exact ⟨_, h, rfl⟩
  · rintro ⟨p, hp, hcount⟩
    cases p with
    | counting => exact .inl hp
    | countWriting n => exact .inr ⟨n, hp⟩
    | _ => cases hcount

instance (s : Client) (i : Nat) : Decidable (s.AtCount i) :=
  decidable_of_iff ((s.pcOf i).any Pc.isCount) (by rw [atCount_iff, Option.any_eq_true])

instance (s : Client) : (e : Event) → Decidable (s.NobodyBehind e)
  | .fail i => inferInstanceAs (Decidable (s.AtCount i → ∀ j ∈ s.countChain, j = i))
  | .settle i _ => inferInstanceAs
      (Decidable (s.pcOf i = some .signing → s.countChainBroken = false))
  | .sendCommand _ | .sendPing | .heartbeat _ | .retry _ | .pingTimeout _ | .response .. =>
      instDecidableTrue

/-! ### What a step does to the message count -/

/-- The chain, the count and the calls at the count are the same. -/
structure SameCount (s t : Client) : Prop where
  stored : t.storedCount = s.storedCount
  chain : t.countChain = s.countChain
  broken : t.countChainBroken = s.countChainBroken
  calls : ∀ j p, p.isCount = true → (t.pcOf j = some p ↔ s.pcOf j = some p)

/-- A step leaves the message count alone; a call joins the chain, or is rejected by a broken one;
the first call of the chain reads the count, writes it and leaves, or breaks the chain. -/
inductive CountStep (s : Client) (e : Event) (t : Client) : Prop
  | same (hobtained : s.obtained e = none) (h : SameCount s t)
      (hrejected : ∀ j, t.pcOf j = some .rejected → s.pcOf j = some .rejected ∨ s.OwnFault j e)
      (hgood : s.NobodyBehind e)
  | joins (i now : Nat) (he : e = .settle i now) (hi : s.pcOf i = some .signing)
      (hbroken : s.countChainBroken = false) (hbroken' : t.countChainBroken = false)
      (hstored : t.storedCount = s.storedCount) (hchain : t.countChain = s.countChain ++ [i])
      (hm : MovesTo s t i .counting)
  | refused (i now : Nat) (he : e = .settle i now) (hi : s.pcOf i = some .signing)
      (hbroken : s.countChainBroken = true) (h : SameCount s t) (hm : MovesTo s t i .rejected)
  | reads (i now : Nat) (he : e = .settle i now) (hhead : s.countChain.head? = some i)
      (hi : s.pcOf i = some .counting) (hstored : t.storedCount = s.storedCount)
      (hchain : t.countChain = s.countChain)
      (hm : MovesTo s t i (.countWriting (s.storedCount + 1)))
  | writes (i now n : Nat) (he : e = .settle i now) (hhead : s.countChain.head? = some i)
      (hi : s.pcOf i = some (.countWriting n)) (hstored : t.storedCount = n)
      (hchain : t.countChain = s.countChain.tail)
      (hm : MovesTo s t i (if n % rotationThreshold = 0 then .rotating else .waiting 1))
  | breaks (i : Nat) (he : e = .fail i) (hhead : s.countChain.head? = some i)
      (hi : s.AtCount i) (ht : t = s.breakChain)

theorem not_atCount (hi : s.pcOf i = some p) (hp : p.isCount = false) : ¬s.AtCount i := by
  rw [atCount_iff]
  rintro ⟨q, hq, hcount⟩
  rw [← Option.some.inj (hi.symm.trans hq), hp] at hcount
  cases hcount

/-- A call that is not at the count goes on to something else. -/
theorem MovesTo.sameCount (hm : MovesTo s t i p) (hp : p.isCount = false)
    (hi : ∀ q, s.pcOf i = some q → q.isCount = false) (hstored : t.storedCount = s.storedCount)
    (hchain : t.countChain = s.countChain) (hbroken : t.countChainBroken = s.countChainBroken) :
    SameCount s t := by
  refine ⟨hstored, hchain, hbroken, ?_⟩
  intro j q hq
  by_cases hj : j = i
  · subst hj
    rw [hm.self]
    constructor
    · intro h
      rw [Option.some.inj h, hq] at hp
      cases hp
    · intro h
      rw [hi q h] at hq
      cases hq
  · rw [hm.other hj]

/-- A call is rejected only if it goes on to be. -/
theorem MovesTo.rejected (hm : MovesTo s t i p) (hj : t.pcOf j = some .rejected) :
    s.pcOf j = some .rejected ∨ j = i ∧ p = .rejected := by
  obtain ⟨rfl, hp⟩ | ⟨-, hp⟩ := hm.cases hj
  · exact .inr ⟨rfl, hp⟩
  · exact .inl hp

/-- A step in which a call that is not at the count goes on without being rejected. -/
theorem CountStep.moves (hm : MovesTo s t i p) (hp : p.isCount = false) (hp' : p ≠ .rejected)
    (hi : ∀ q, s.pcOf i = some q → q.isCount = false) (hobtained : s.obtained e = none)
    (hstored : t.storedCount = s.storedCount) (hchain : t.countChain = s.countChain)
    (hbroken : t.countChainBroken = s.countChainBroken) (hgood : s.NobodyBehind e) :
    CountStep s e t := by
  refine .same hobtained (hm.sameCount hp hi hstored hchain hbroken) ?_ hgood
  intro j hj
  exact .inl ((hm.rejected hj).resolve_right fun h => hp' h.2)

theorem obtained_settle (hi : s.pcOf i = some p) (hp : p.written = none) :
    s.obtained (.settle i now) = none := by
  simp [obtained, hi, hp]

theorem start_step (hp : c.pc.isCount = false) (hobtained : s.obtained e = none)
    (hgood : s.NobodyBehind e)
    (hrejected : c.pc = .rejected → s.OwnFault s.calls.length e) :
    CountStep s e (s.start c) := by
  have hnone : s.pcOf s.calls.length = none := by simp [pcOf]
  have hm : MovesTo s (s.start c) s.calls.length c.pc := pcOf_start
  refine .same hobtained (hm.sameCount hp (by simp [hnone]) rfl rfl rfl) ?_ hgood
  intro j hj
  obtain hold | ⟨rfl, hrej⟩ := hm.rejected hj
  · exact .inl hold
  · exact .inr (hrejected hrej)

theorem settle_step (hc : s.calls[i]? = some c) (hs : s.settle i now c = some t) :
    CountStep s (.settle i now) t := by
  have hi := pcOf_eq hc
  -- a call away from the message count
  have moves {t : Client} {p : Pc} (hm : MovesTo s t i p) (hp : p.isCount = false)
      (hp' : p ≠ .rejected) (hcount : c.pc.isCount = false) (hsigning : c.pc ≠ .signing)
      (hstored : t.storedCount = s.storedCount) (hchain : t.countChain = s.countChain)
      (hbroken : t.countChainBroken = s.countChainBroken) : CountStep s (.settle i now) t := by
    have hwritten : c.pc.written = none := by
      cases hq : c.pc with
      | countWriting n => simp [hq, Pc.isCount] at hcount
      | _ => rfl
    refine .moves hm hp hp' ?_ (obtained_settle hi hwritten) hstored hchain hbroken ?_
    · intro q hq
      rwa [← Option.some.inj (hi.symm.trans hq)]
    · intro hsign
      exact absurd (Option.some.inj (hi.symm.trans hsign)) hsigning
  cases hp : c.pc with simp only [Client.settle, hp] at hs
  | guarding =>
    obtain rfl := Option.some.inj hs
    exact moves (pcOf_put hc) rfl (by simp) (by simp [hp, Pc.isCount]) (by simp [hp]) rfl rfl rfl
  | reading =>
    obtain rfl := Option.some.inj hs
    exact moves (pcOf_put hc) rfl (by simp) (by simp [hp, Pc.isCount]) (by simp [hp]) rfl rfl rfl
  | writing n =>
    obtain rfl := Option.some.inj hs
    have hcount : c.pc.isCount = false := by simp [hp, Pc.isCount]
    have hsigning : c.pc ≠ .signing := by simp [hp]
    unfold Client.assign
    split
    · exact moves (p := .signing) (pcOf_put hc) rfl (by simp) hcount hsigning rfl rfl rfl
    · exact moves (p := .sendingPing) (pcOf_put hc) rfl (by simp) hcount hsigning rfl rfl rfl
  | signing =>
    rw [hp] at hi
    split at hs
    · rename_i hbroken
      obtain rfl := Option.some.inj hs
      have hm : MovesTo s (s.put i { c with pc := .rejected }) i .rejected := pcOf_put hc
      refine .refused i now rfl hi hbroken (hm.sameCount rfl ?_ rfl rfl rfl) hm
      intro q hq
      rw [← Option.some.inj (hi.symm.trans hq)]
      rfl
    · rename_i hbroken
      obtain rfl := Option.some.inj hs
      have hbroken : s.countChainBroken = false := by simpa using hbroken
      exact .joins i now rfl hi hbroken hbroken rfl rfl (pcOf_put hc)
  | counting =>
    rw [hp] at hi
    split at hs
    · rename_i hhead
      obtain rfl := Option.some.inj hs
      exact .reads i now rfl hhead hi rfl rfl (pcOf_put hc)
    · contradiction
  | countWriting n =>
    rw [hp] at hi
    split at hs
    · rename_i hhead
      split at hs
      · rename_i hmod
        obtain rfl := Option.some.inj hs
        refine .writes i now n rfl hhead hi rfl rfl ?_
        rw [if_pos hmod]
        exact pcOf_put hc
      · rename_i hmod
        obtain ⟨m, -, rfl⟩ := Option.map_eq_some_iff.mp hs
        refine .writes i now n rfl hhead hi rfl rfl ?_
        rw [if_neg hmod]
        exact pcOf_put hc
    · contradiction
  | rotating =>
    obtain ⟨m, -, rfl⟩ := Option.map_eq_some_iff.mp hs
    exact moves (p := .waiting 1) (pcOf_put hc) rfl (by simp) (by simp [hp, Pc.isCount])
      (by simp [hp]) rfl rfl rfl
  | sendingPing =>
    obtain ⟨m, -, rfl⟩ := Option.map_eq_some_iff.mp hs
    exact moves (p := .pinged) (pcOf_put hc) rfl (by simp) (by simp [hp, Pc.isCount])
      (by simp [hp]) rfl rfl rfl
  | waiting | pinged | resolved | rejected | orphaned => contradiction

theorem fail_step (hc : s.calls[i]? = some c) (hs : s.fail i c = some t) :
    CountStep s (.fail i) t := by
  have hi := pcOf_eq hc
  have rejects (hcount : c.pc.isCount = false) :
      CountStep s (.fail i) (s.put i { c with pc := .rejected }) := by
    have hm : MovesTo s (s.put i { c with pc := .rejected }) i .rejected := pcOf_put hc
    refine .same rfl (hm.sameCount rfl ?_ rfl rfl rfl) ?_ ?_
    · intro q hq
      rwa [← Option.some.inj (hi.symm.trans hq)]
    · intro j hj
      exact (hm.rejected hj).imp_right fun h => h.1.symm
    · exact fun hat => absurd hat (not_atCount hi hcount)
  cases hp : c.pc with simp only [Client.fail, hp] at hs
  | guarding | reading | writing | rotating =>
    obtain rfl := Option.some.inj hs
    exact rejects (by simp [hp, Pc.isCount])
  | counting | countWriting =>
    split at hs
    · rename_i hhead
      obtain rfl := Option.some.inj hs
      exact .breaks i rfl hhead (atCount_iff.mpr ⟨c.pc, hi, by simp [hp, Pc.isCount]⟩) rfl
    · contradiction
  | signing | waiting | sendingPing | pinged | resolved | rejected | orphaned => contradiction

theorem retry_step (hc : s.calls[i]? = some c) (hs : s.retry i c = some t) :
    CountStep s (.retry i) t := by
  have hi := pcOf_eq hc
  unfold Client.retry at hs
  split at hs
  · rename_i attempts sequence hp _
    have hcount : ∀ q, s.pcOf i = some q → q.isCount = false := by
      intro q hq
      rw [← Option.some.inj (hi.symm.trans hq), hp]
      rfl
    split at hs
    · contradiction
    split at hs
    · split at hs
      · obtain rfl := Option.some.inj hs
        have hm : MovesTo s { s.put i { c with pc := .rejected } with
            pendingTimeouts := s.pendingTimeouts.erase sequence
            pending := s.pending.erase sequence } i .rejected := pcOf_put hc
        refine .same rfl (hm.sameCount rfl hcount rfl rfl rfl) ?_ trivial
        intro j hj
        exact (hm.rejected hj).imp_right fun h => h.1.symm
      · obtain rfl := Option.some.inj hs
        exact .moves (pcOf_put hc) rfl (by simp) hcount rfl rfl rfl rfl trivial
    · obtain rfl := Option.some.inj hs
      exact .moves (pcOf_put hc) rfl (by simp) hcount rfl rfl rfl rfl trivial
  · contradiction

theorem pingTimeout_step (hc : s.calls[i]? = some c) (hs : s.pingTimeout i c = some t) :
    CountStep s (.pingTimeout i) t := by
  have hi := pcOf_eq hc
  unfold Client.pingTimeout at hs
  split at hs
  · rename_i sequence hp _
    have hcount : ∀ q, s.pcOf i = some q → q.isCount = false := by
      intro q hq
      rw [← Option.some.inj (hi.symm.trans hq), hp]
      rfl
    have hm : MovesTo s (s.put i { c with pc := .resolved }) i .resolved := pcOf_put hc
    dsimp only at hs
    split at hs
    · obtain rfl := Option.some.inj hs
      exact .moves hm rfl (by simp) hcount rfl rfl rfl rfl trivial
    split at hs
    · obtain rfl := Option.some.inj hs
      exact .moves (p := .resolved) hm rfl (by simp) hcount rfl rfl rfl rfl trivial
    · obtain rfl := Option.some.inj hs
      exact .moves hm rfl (by simp) hcount rfl rfl rfl rfl trivial
  · contradiction

/-! ### Responses -/

theorem SameCount.of_pcOf (hpc : t.pcOf = s.pcOf) (hstored : t.storedCount = s.storedCount)
    (hchain : t.countChain = s.countChain) (hbroken : t.countChainBroken = s.countChainBroken) :
    SameCount s t :=
  ⟨hstored, hchain, hbroken, fun j p _ => by rw [hpc]⟩

theorem sameCount_abort (s : Client) (n : Nat) : SameCount s (s.abort n) := by
  refine .of_pcOf (pcOf_abort n) ?_ ?_ ?_
  all_goals
    unfold abort
    split <;> rfl

theorem SameCount.trans (h : SameCount s t) (h' : SameCount t u) : SameCount s u :=
  ⟨h'.stored.trans h.stored, h'.chain.trans h.chain, h'.broken.trans h.broken,
    fun j p hp => (h'.calls j p hp).trans (h.calls j p hp)⟩

theorem pong_same (s : Client) (n : Nat) (status : ResponseStatus) : SameCount s (s.pong n status) ∧
    (s.pong n status).pcOf = s.pcOf ∧ (s.pong n status).pending = s.pending := by
  unfold pong
  split
  · refine ⟨.trans ?_ (sameCount_abort _ n), pcOf_abort n, (rest_abort n).2.1⟩
    exact .of_pcOf rfl rfl rfl rfl
  · exact ⟨.of_pcOf rfl rfl rfl rfl, rfl, rfl⟩

theorem response_step (h : Named s) (n : Nat) (status : ResponseStatus) :
    CountStep s (.response n status) (s.handleIncomingResponse n status) := by
  obtain ⟨hsame, hpc, hpending⟩ := s.pong_same n status
  unfold Client.handleIncomingResponse
  generalize s.pong n status = u at hsame hpc hpending ⊢
  dsimp only
  split
  · refine .same rfl hsame ?_ trivial
    rw [hpc]
    exact fun j hj => .inl hj
  · rename_i i hlook
    have habort := u.sameCount_abort n
    have hpc' : (u.abort n).pcOf = s.pcOf := (pcOf_abort n).trans hpc
    rw [hpending] at hlook
    generalize u.abort n = v at habort hpc' ⊢
    obtain ⟨-, k, hk⟩ := h n i hlook
    have hkv : v.pcOf i = some (.waiting k) := by rw [hpc', hk]
    obtain ⟨c, hc, -⟩ := Option.map_eq_some_iff.mp hkv
    have hm : MovesTo v ({ v with pending := v.pending.erase n }.answer i status) i
        (if status = .error then .rejected else .resolved) :=
      movesTo_answer (s := { v with pending := v.pending.erase n }) hc status
    refine .same rfl ((hsame.trans habort).trans (hm.sameCount ?_ ?_ rfl rfl rfl)) ?_ trivial
    · split <;> rfl
    · intro q hq
      rw [← Option.some.inj (hkv.symm.trans hq)]
      rfl
    · intro j hj
      obtain hold | ⟨rfl, hrej⟩ := hm.rejected hj
      · exact .inl (hpc' ▸ hold)
      · split at hrej
        · rename_i herror
          exact .inr ⟨herror, hlook⟩
        · cases hrej

theorem count_step (h : Named s) (hs : step s e = some t) : CountStep s e t := by
  cases e with
  | sendCommand command =>
    obtain rfl := Option.some.inj hs
    exact start_step rfl rfl trivial (by simp)
  | sendPing =>
    obtain rfl := Option.some.inj hs
    unfold Client.sendPing
    split
    · exact start_step rfl rfl trivial fun _ => rfl
    · exact start_step rfl rfl trivial (by simp)
  | heartbeat now =>
    rw [Client.step, Option.ite_none_right_eq_some] at hs
    obtain rfl := Option.some.inj hs.2
    unfold Client.heartbeat
    split
    · exact .same rfl (.of_pcOf rfl rfl rfl rfl) (fun _ => .inl) trivial
    · exact start_step rfl rfl trivial (by simp)
  | settle i now =>
    obtain ⟨c, hc, hset⟩ := Option.bind_eq_some_iff.mp hs
    exact settle_step hc hset
  | fail i =>
    obtain ⟨c, hc, hfail⟩ := Option.bind_eq_some_iff.mp hs
    exact fail_step hc hfail
  | retry i =>
    obtain ⟨c, hc, hretry⟩ := Option.bind_eq_some_iff.mp hs
    exact retry_step hc hretry
  | pingTimeout i =>
    obtain ⟨c, hc, htimeout⟩ := Option.bind_eq_some_iff.mp hs
    exact pingTimeout_step hc htimeout
  | response n status =>
    obtain rfl := Option.some.inj hs
    exact response_step h n status

/-! ### The calls' numbers -/

/-- An entry of the map names a command that waits, and a call has a number from its signature to
its rotation. -/
structure Entered (s : Client) : Prop where
  named : Named s
  numbered : ∀ i p, s.pcOf i = some p → p.needsSequence = true → (s.seqOf i).isSome = true

/-- Only call `i` goes on, and it has a number if it needs one. -/
theorem Entered.goesOn (h : Entered s) (hnamed : Named t) (hm : MovesTo s t i p)
    (hseq : ∀ j, j ≠ i → t.seqOf j = s.seqOf j)
    (hp : p.needsSequence = true → (t.seqOf i).isSome = true) : Entered t := by
  refine ⟨hnamed, ?_⟩
  intro j q hq hneeds
  obtain ⟨rfl, rfl⟩ | ⟨hj, hold⟩ := hm.cases hq
  · exact hp hneeds
  · rw [hseq j hj]
    exact h.numbered j q hold hneeds

theorem Entered.put (h : Entered s) (hc : s.calls[i]? = some c) (hseq : c'.sequence = c.sequence)
    (hold : ∀ k, c.pc ≠ .waiting k)
    (hneeds : c'.pc.needsSequence = true → c.pc.needsSequence = true) : Entered (s.put i c') := by
  have hm : MovesTo s (s.put i c') i c'.pc := pcOf_put hc
  have hsame := seqOf_put_same hc hseq
  refine h.goesOn (h.named.move hm (fun j _ => congrFun hsame j) rfl ?_) hm
    (fun j _ => congrFun hsame j) ?_
  · intro k hk
    exact hold k (Option.some.inj ((pcOf_eq hc).symm.trans hk))
  · intro hp
    rw [hsame]
    exact h.numbered i c.pc (pcOf_eq hc) (hneeds hp)

/-- Only the chain and the stored count, or nothing that is at stake here, change. -/
theorem Entered.congr (h : Entered s) (hseq : t.seqOf = s.seqOf) (hpc : t.pcOf = s.pcOf)
    (hpending : t.pending = s.pending) : Entered t := by
  refine ⟨?_, ?_⟩
  · rw [Named, hseq, hpc, hpending]
    exact h.named
  · rw [hseq, hpc]
    exact h.numbered

theorem Entered.start (h : Entered s) (hneeds : c.pc.needsSequence = false) :
    Entered (s.start c) := by
  have hnone : s.pcOf s.calls.length = none := by simp [pcOf]
  have hm : MovesTo s (s.start c) s.calls.length c.pc := pcOf_start
  have hsame : ∀ j, j ≠ s.calls.length → (s.start c).seqOf j = s.seqOf j := by
    intro j hj
    rw [seqOf_start, if_neg hj]
  refine h.goesOn (h.named.move hm hsame rfl (by simp [hnone])) hm hsame ?_
  intro hp
  rw [hneeds] at hp
  cases hp

theorem Entered.assign (h : Entered s) (hc : s.calls[i]? = some c) (hp : c.pc = .writing n) :
    Entered (s.assign i c n) := by
  have hi : s.pcOf i = some (.writing n) := by rw [pcOf_eq hc, hp]
  have hall (t : Client) (p : Pc) (hseq : ∀ j, t.seqOf j = if j = i then some n else s.seqOf j)
      (hm : MovesTo s t i p) (hpending : t.pending = s.pending) : Entered t := by
    have hother : ∀ j, j ≠ i → t.seqOf j = s.seqOf j := fun j hj => by rw [hseq, if_neg hj]
    refine h.goesOn (h.named.move hm hother hpending (by simp [hi])) hm hother ?_
    intro _
    rw [hseq, if_pos rfl]
    rfl
  unfold Client.assign
  split
  · exact hall _ .signing (seqOf_put hc) (pcOf_put hc) rfl
  · exact hall _ .sendingPing (seqOf_put hc) (pcOf_put hc) rfl

theorem Entered.dispatch (h : Entered s) (hc : s.calls[i]? = some c) (hseq : c.sequence = some n)
    (hold : ∀ k, c.pc ≠ .waiting k) : Entered (s.dispatch i now c n) := by
  have hsame : (s.put i { c with pc := .waiting 1 }).seqOf = s.seqOf := seqOf_put_same hc rfl
  have hm : MovesTo s (s.dispatch i now c n) i (.waiting 1) := pcOf_put hc
  have hi : s.seqOf i = some n := by rw [seqOf_eq hc, hseq]
  refine h.goesOn (h.named.insert hi ?_ hm hsame rfl) hm (fun j _ => congrFun hsame j) nofun
  simpa [pcOf_eq hc] using hold

theorem Entered.breakChain (h : Entered s) (hchain : Chain s) : Entered s.breakChain := by
  refine ⟨?_, ?_⟩
  · intro n i hn
    obtain ⟨hs, k, hk⟩ := h.named n i hn
    have hnot := hchain.notMem hk (by simp) (by simp)
    exact ⟨by rw [seqOf_breakChain, hs], k, by rw [pcOf_breakChain hchain, if_neg hnot, hk]⟩
  · intro i p hp hneeds
    rw [pcOf_breakChain hchain] at hp
    rw [seqOf_breakChain]
    split at hp
    · rw [← Option.some.inj hp] at hneeds
      cases hneeds
    · exact h.numbered i p hp hneeds

theorem Entered.settle (h : Entered s) (hc : s.calls[i]? = some c)
    (hs : s.settle i now c = some t) : Entered t := by
  cases hp : c.pc with simp only [Client.settle, hp] at hs
  | guarding | reading =>
    obtain rfl := Option.some.inj hs
    exact h.put hc rfl (by simp [hp]) (by simp [Pc.needsSequence])
  | writing n =>
    obtain rfl := Option.some.inj hs
    exact h.assign hc hp
  | signing =>
    split at hs
    · obtain rfl := Option.some.inj hs
      exact h.put hc rfl (by simp [hp]) (by simp [Pc.needsSequence])
    · obtain rfl := Option.some.inj hs
      have hput : Entered (s.put i { c with pc := .counting }) :=
        h.put hc rfl (by simp [hp]) (by simp [hp, Pc.needsSequence])
      exact hput.congr rfl rfl rfl
  | counting =>
    split at hs
    · obtain rfl := Option.some.inj hs
      exact h.put hc rfl (by simp [hp]) (by simp [hp, Pc.needsSequence])
    · contradiction
  | countWriting n =>
    split at hs
    · have hcount : Entered { s with storedCount := n, countChain := s.countChain.tail } :=
        h.congr rfl rfl rfl
      split at hs
      · obtain rfl := Option.some.inj hs
        exact hcount.put hc rfl (by simp [hp]) (by simp [hp, Pc.needsSequence])
      · obtain ⟨m, hm, rfl⟩ := Option.map_eq_some_iff.mp hs
        exact hcount.dispatch hc hm (by simp [hp])
    · contradiction
  | rotating =>
    obtain ⟨m, hm, rfl⟩ := Option.map_eq_some_iff.mp hs
    exact h.dispatch hc hm (by simp [hp])
  | sendingPing =>
    obtain ⟨m, hm, rfl⟩ := Option.map_eq_some_iff.mp hs
    have hput : Entered (s.put i { c with pc := .pinged }) :=
      h.put hc rfl (by simp [hp]) (by simp [Pc.needsSequence])
    exact hput.congr rfl rfl rfl
  | waiting | pinged | resolved | rejected | orphaned => contradiction

theorem Entered.fail (h : Entered s) (hchain : Chain s) (hc : s.calls[i]? = some c)
    (hs : s.fail i c = some t) : Entered t := by
  cases hp : c.pc with simp only [Client.fail, hp] at hs
  | guarding | reading | writing | rotating =>
    obtain rfl := Option.some.inj hs
    exact h.put hc rfl (by simp [hp]) (by simp [Pc.needsSequence])
  | counting | countWriting =>
    split at hs
    · obtain rfl := Option.some.inj hs
      exact h.breakChain hchain
    · contradiction
  | signing | waiting | sendingPing | pinged | resolved | rejected | orphaned => contradiction

theorem Entered.retry (h : Entered s) (hc : s.calls[i]? = some c)
    (hs : s.retry i c = some t) : Entered t := by
  unfold Client.retry at hs
  split at hs
  · rename_i attempts sequence hp hseq
    have hi : s.seqOf i = some sequence := by rw [seqOf_eq hc, hseq]
    have hsame (c' : Call) (hc' : c'.sequence = c.sequence) : (s.put i c').seqOf = s.seqOf :=
      seqOf_put_same hc hc'
    split at hs
    · contradiction
    split at hs
    · split at hs
      · obtain rfl := Option.some.inj hs
        have hm : MovesTo s { s.put i { c with pc := .rejected } with
            pendingTimeouts := s.pendingTimeouts.erase sequence
            pending := s.pending.erase sequence } i .rejected := pcOf_put hc
        have hseqs := hsame { c with pc := .rejected } rfl
        exact h.goesOn (h.named.erase hi hm hseqs rfl) hm (fun j _ => congrFun hseqs j) nofun
      · obtain rfl := Option.some.inj hs
        have hm : MovesTo s (s.put i { c with pc := .waiting (attempts + 1) }) i
            (.waiting (attempts + 1)) := pcOf_put hc
        have hseqs := hsame { c with pc := .waiting (attempts + 1) } rfl
        exact h.goesOn (h.named.again hm hseqs rfl) hm (fun j _ => congrFun hseqs j) nofun
    · rename_i hlook
      obtain rfl := Option.some.inj hs
      have hm : MovesTo s (s.put i { c with pc := .orphaned }) i .orphaned := pcOf_put hc
      have hseqs := hsame { c with pc := .orphaned } rfl
      refine h.goesOn ?_ hm (fun j _ => congrFun hseqs j) nofun
      -- no entry names the call that stops, which has none under its number
      intro n j hn
      obtain ⟨hj, k, hk⟩ := h.named n j hn
      have hji : j ≠ i := by
        rintro rfl
        rw [← Option.some.inj (hj.symm.trans hi), show s.pending.lookup n = some j from hn] at hlook
        exact hlook rfl
      exact ⟨by rw [hseqs, hj], k, (hm.other hji).trans hk⟩
  · contradiction

theorem Entered.pingTimeout (h : Entered s) (hc : s.calls[i]? = some c)
    (hs : s.pingTimeout i c = some t) : Entered t := by
  unfold Client.pingTimeout at hs
  split at hs
  · rename_i sequence hp _
    have hput : Entered (s.put i { c with pc := .resolved }) := h.put hc rfl (by simp [hp]) nofun
    dsimp only at hs
    split at hs
    · obtain rfl := Option.some.inj hs
      exact hput
    split at hs
    · obtain rfl := Option.some.inj hs
      exact hput.congr rfl rfl rfl
    · obtain rfl := Option.some.inj hs
      exact hput
  · contradiction

theorem Entered.abort (h : Entered s) (n : Nat) : Entered (s.abort n) :=
  h.congr (seqOf_abort n) (pcOf_abort n) (rest_abort n).2.1

theorem Entered.response (h : Entered s) (n : Nat) (status : ResponseStatus) :
    Entered (s.handleIncomingResponse n status) := by
  have hpong : Entered (s.pong n status) := by
    unfold pong
    split
    · refine Entered.abort ?_ n
      exact h.congr rfl rfl rfl
    · exact h
  unfold Client.handleIncomingResponse
  generalize s.pong n status = u at hpong ⊢
  dsimp only
  split
  · exact hpong
  · rename_i i hlook
    have habort := hpong.abort n
    rw [← (rest_abort (s := u) n).2.1] at hlook
    generalize u.abort n = v at habort hlook ⊢
    obtain ⟨hi, k, hk⟩ := habort.named n i hlook
    obtain ⟨c, hc, -⟩ := Option.map_eq_some_iff.mp hk
    have hm : MovesTo v ({ v with pending := v.pending.erase n }.answer i status) i
        (if status = .error then .rejected else .resolved) :=
      movesTo_answer (s := { v with pending := v.pending.erase n }) hc status
    have hseq : ({ v with pending := v.pending.erase n }.answer i status).seqOf = v.seqOf :=
      seqOf_answer status
    refine habort.goesOn (habort.named.erase hi hm hseq rfl) hm (fun j _ => congrFun hseq j) ?_
    split <;> nofun

theorem Entered.step (h : Entered s) (hchain : Chain s) (hs : step s e = some t) : Entered t := by
  cases e with
  | sendCommand command =>
    obtain rfl := Option.some.inj hs
    exact h.start rfl
  | sendPing =>
    obtain rfl := Option.some.inj hs
    unfold Client.sendPing
    split
    · exact h.start rfl
    · exact h.start rfl
  | heartbeat now =>
    rw [Client.step, Option.ite_none_right_eq_some] at hs
    obtain rfl := Option.some.inj hs.2
    unfold Client.heartbeat
    split
    · exact h
    · exact h.start rfl
  | settle i now =>
    obtain ⟨c, hc, hset⟩ := Option.bind_eq_some_iff.mp hs
    exact h.settle hc hset
  | fail i =>
    obtain ⟨c, hc, hfail⟩ := Option.bind_eq_some_iff.mp hs
    exact h.fail hchain hc hfail
  | retry i =>
    obtain ⟨c, hc, hretry⟩ := Option.bind_eq_some_iff.mp hs
    exact h.retry hc hretry
  | pingTimeout i =>
    obtain ⟨c, hc, htimeout⟩ := Option.bind_eq_some_iff.mp hs
    exact h.pingTimeout hc htimeout
  | response n status =>
    obtain rfl := Option.some.inj hs
    exact h.response n status

/-! ### The chain -/

/-- The chain has the calls at the message count, each once, and only the first of them has read the
count that is stored. -/
structure Counting (s : Client) : Prop extends Entered s where
  chain : Chain s
  listed : ∀ i, s.AtCount i → i ∈ s.countChain
  writer : ∀ i n, s.pcOf i = some (.countWriting n) →
    s.countChain.head? = some i ∧ n = s.storedCount + 1

theorem SameCount.atCount (h : SameCount s t) (i : Nat) : t.AtCount i ↔ s.AtCount i := by
  simp only [atCount_iff]
  constructor
  all_goals
    rintro ⟨p, hp, hcount⟩
    exact ⟨p, by simpa [h.calls i p hcount] using hp, hcount⟩

theorem Counting.same (h : Counting s) (ht : Entered t) (hsame : SameCount s t) : Counting t := by
  refine ⟨ht, ⟨?_, hsame.chain ▸ h.chain.nodup⟩, ?_, ?_⟩
  · intro j hj
    rw [hsame.chain] at hj
    exact (hsame.atCount j).mpr (h.chain.mem j hj)
  · intro j hj
    rw [hsame.chain]
    exact h.listed j ((hsame.atCount j).mp hj)
  · intro j n hj
    rw [hsame.chain, hsame.stored]
    exact h.writer j n ((hsame.calls j _ rfl).mp hj)

theorem MovesTo.atCount (hm : MovesTo s t i p) (j : Nat) :
    t.AtCount j ↔ j = i ∧ p.isCount = true ∨ j ≠ i ∧ s.AtCount j := by
  by_cases hj : j = i
  · subst hj
    simp [atCount_iff, hm.self]
  · simp [atCount_iff, hm.other hj, hj]

/-- A call comes to the end of the chain. -/
theorem Counting.joins (h : Counting s) (ht : Entered t) (hi : s.pcOf i = some .signing)
    (hstored : t.storedCount = s.storedCount) (hchain : t.countChain = s.countChain ++ [i])
    (hm : MovesTo s t i .counting) : Counting t := by
  have hnot : i ∉ s.countChain := h.chain.notMem hi (by simp) (by simp)
  refine ⟨ht, ⟨?_, ?_⟩, ?_, ?_⟩
  · intro j hj
    rw [hchain, List.mem_append, List.mem_singleton] at hj
    rw [hm.atCount]
    obtain hj | rfl := hj
    · exact .inr ⟨fun hji => hnot (hji ▸ hj), h.chain.mem j hj⟩
    · exact .inl ⟨rfl, rfl⟩
  · rw [hchain]
    exact List.nodup_append_comm.mp (List.nodup_cons.mpr ⟨hnot, h.chain.nodup⟩)
  · intro j hj
    rw [hchain, List.mem_append, List.mem_singleton]
    exact ((hm.atCount j).mp hj).symm.imp (fun hold => h.listed j hold.2) fun hnew => hnew.1
  · intro j n hj
    obtain ⟨-, hp⟩ | ⟨-, hp⟩ := hm.cases hj
    · cases hp
    · obtain ⟨hhead, hn⟩ := h.writer j n hp
      rw [hchain, hstored, List.head?_append, hhead]
      exact ⟨rfl, hn⟩

/-- The first call of the chain has read the count. -/
theorem Counting.reads (h : Counting s) (ht : Entered t) (hhead : s.countChain.head? = some i)
    (hi : s.pcOf i = some .counting) (hstored : t.storedCount = s.storedCount)
    (hchain : t.countChain = s.countChain)
    (hm : MovesTo s t i (.countWriting (s.storedCount + 1))) : Counting t := by
  have hat : ∀ j, t.AtCount j ↔ s.AtCount j := by
    intro j
    rw [hm.atCount]
    by_cases hj : j = i
    · subst hj
      simp [Pc.isCount, AtCount, hi]
    · simp [hj]
  refine ⟨ht, ⟨?_, hchain ▸ h.chain.nodup⟩, ?_, ?_⟩
  · intro j hj
    exact (hat j).mpr (h.chain.mem j (hchain ▸ hj))
  · intro j hj
    exact hchain ▸ h.listed j ((hat j).mp hj)
  · intro j n hj
    rw [hchain, hstored]
    obtain ⟨rfl, hp⟩ | ⟨hji, hp⟩ := hm.cases hj
    · exact ⟨hhead, (Pc.countWriting.inj hp).symm⟩
    · exact absurd (Option.some.inj ((h.writer j n hp).1.symm.trans hhead)) hji

/-- The first call of the chain has written the count and leaves. -/
theorem Counting.leaves (h : Counting s) (ht : Entered t) (hhead : s.countChain.head? = some i)
    (hchain : t.countChain = s.countChain.tail) (hm : MovesTo s t i p) (hp : p.isCount = false) :
    Counting t := by
  have hnot := h.chain.notMem_tail hhead
  refine ⟨ht, ⟨?_, hchain ▸ h.chain.nodup.tail⟩, ?_, ?_⟩
  · intro j hj
    rw [hchain] at hj
    rw [hm.atCount]
    exact .inr ⟨fun hji => hnot (hji ▸ hj), h.chain.mem j (List.mem_of_mem_tail hj)⟩
  · intro j hj
    obtain ⟨-, hcount⟩ | ⟨hji, hcount⟩ := (hm.atCount j).mp hj
    · rw [hp] at hcount
      cases hcount
    · have hin := h.listed j hcount
      rw [← List.cons_head?_tail hhead, List.mem_cons] at hin
      exact hchain ▸ hin.resolve_left hji
  · intro j m hj
    obtain ⟨-, hwriting⟩ | ⟨hji, hwriting⟩ := hm.cases hj
    · rw [hwriting] at hp
      cases hp
    · exact absurd (Option.some.inj ((h.writer j m hwriting).1.symm.trans hhead)) hji

/-- An access to the count fails, and all calls of the chain with it. -/
theorem Counting.breaks (h : Counting s) (ht : Entered s.breakChain) : Counting s.breakChain := by
  have hno : ∀ j, ¬s.breakChain.AtCount j := by
    intro j hj
    obtain ⟨p, hp, hcount⟩ := atCount_iff.mp hj
    rw [pcOf_breakChain h.chain] at hp
    split at hp
    · rw [← Option.some.inj hp] at hcount
      cases hcount
    · rename_i hout
      exact hout (h.listed j (atCount_iff.mpr ⟨p, hp, hcount⟩))
  refine ⟨ht, ⟨?_, List.nodup_nil⟩, fun j hj => absurd hj (hno j), ?_⟩
  · simp [Client.breakChain]
  · exact fun j n hj => absurd (.inr ⟨n, hj⟩) (hno j)

theorem Counting.step (h : Counting s) (hs : step s e = some t) : Counting t := by
  have ht := h.toEntered.step h.chain hs
  cases count_step h.named hs with
  | same _ hsame => exact h.same ht hsame
  | refused _ _ _ _ _ hsame => exact h.same ht hsame
  | joins i now _ hi _ _ hstored hchain hm => exact h.joins ht hi hstored hchain hm
  | reads i now _ hhead hi hstored hchain hm => exact h.reads ht hhead hi hstored hchain hm
  | writes i now n _ hhead hi hstored hchain hm =>
    exact h.leaves ht hhead hchain hm (by split <;> rfl)
  | breaks i _ hhead hi hbreak =>
    subst hbreak
    exact h.breaks ht

theorem Counting.init (m k : Nat) : Counting { storedSequence := m, storedCount := k } := by
  refine ⟨⟨?_, ?_⟩, ⟨?_, List.nodup_nil⟩, ?_, ?_⟩
  all_goals simp [Named, AtCount, seqOf, pcOf]

end Client

end SmartIdVault.Command
