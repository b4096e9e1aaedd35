import SmartIdVault.Command.Client
import SmartIdVault.Lib.Tasks

/-! The sequence numbers of a command client.  `getNextSequence` reads the counter in storage and
writes it back in two steps with nothing to keep others out, where the message count next to it is
kept by a chain of promises.  As long as no read comes between the read and the write of another
call, all numbers are distinct, every waiting command has its entry in the map, and a response
settles the command that was sent with its number. -/

namespace SmartIdVault.Command.Client

open Pairing (CommandType ResponseStatus maxRetries)

/-- The sequence number that call `i` has been assigned. -/
def seqOf (s : Client) (i : Nat) : Option Nat := s.calls[i]?.bind Call.sequence

def pcOf (s : Client) (i : Nat) : Option Pc := s.calls[i]?.map Call.pc

/-- The assigned numbers are distinct, a command that waits has its own entry in the map, and the
entry under a number is that of the command that was sent with it. -/
structure Distinct (s : Client) : Prop where
  unique : ∀ i j n, s.seqOf i = some n → s.seqOf j = some n → i = j
  kept : ∀ i k, s.pcOf i = some (.waiting k) →
    ∃ n, s.seqOf i = some n ∧ s.pending.lookup n = some i
  answered : ∀ n i, s.pending.lookup n = some i → s.seqOf i = some n

def isWriting : Pc → Bool
  | .writing _ => true
  | _ => false

/-- No call reads the counter while another one is between its read and its write. -/
def ReadsAlone (s : Client) : Event → Prop
  | .settle i _ => s.pcOf i = some .reading → ∀ c ∈ s.calls, isWriting c.pc = false
  | _ => True

instance (s : Client) : (e : Event) → Decidable (s.ReadsAlone e)
  | .settle i _ => inferInstanceAs
      (Decidable (s.pcOf i = some .reading → ∀ c ∈ s.calls, isWriting c.pc = false))
  | .sendCommand _ | .sendPing | .heartbeat _ | .fail _ | .retry _ | .pingTimeout _
  | .response .. => instDecidableTrue

/-- The counter bounds the numbers assigned, which are distinct, and at most one call is about to
write, the number after the counter. -/
structure Numbers (s : Client) : Prop where
  bound : ∀ i n, s.seqOf i = some n → n ≤ s.storedSequence
  unique : ∀ i j n, s.seqOf i = some n → s.seqOf j = some n → i = j
  next : ∀ i n, s.pcOf i = some (.writing n) → n = s.storedSequence + 1
  alone : ∀ i j m n, s.pcOf i = some (.writing m) → s.pcOf j = some (.writing n) → i = j

/-- The map has exactly the commands that wait, under their numbers. -/
structure Table (s : Client) : Prop where
  entry : ∀ n i, s.pending.lookup n = some i →
    s.seqOf i = some n ∧ ∃ k, s.pcOf i = some (.waiting k)
  kept : ∀ i k, s.pcOf i = some (.waiting k) →
    ∃ n, s.seqOf i = some n ∧ s.pending.lookup n = some i

/-- An entry of the map names a command that waits, under its number. -/
def Named (s : Client) : Prop :=
  ∀ n i, s.pending.lookup n = some i → s.seqOf i = some n ∧ ∃ k, s.pcOf i = some (.waiting k)

/-- Call `i` is at the message count. -/
def AtCount (s : Client) (i : Nat) : Prop :=
  s.pcOf i = some .counting ∨ ∃ n, s.pcOf i = some (.countWriting n)

/-- The chain of the message count has only calls that are at it, each once. -/
structure Chain (s : Client) : Prop where
  mem : ∀ i ∈ s.countChain, s.AtCount i
  nodup : s.countChain.Nodup

structure Inv (s : Client) : Prop where
  numbers : Numbers s
  table : Table s
  chain : Chain s

variable {s t : Client} {i j now : Nat} {c c' : Call}

theorem Inv.distinct (h : Inv s) : Distinct s :=
  ⟨h.numbers.unique, h.table.kept, fun n i hn => (h.table.entry n i hn).1⟩

/-! ### How calls change -/

theorem seqOf_eq (hc : s.calls[i]? = some c) : s.seqOf i = c.sequence := by
  simp [seqOf, hc]

theorem pcOf_eq (hc : s.calls[i]? = some c) : s.pcOf i = some c.pc := by
  simp [pcOf, hc]

theorem seqOf_put (hc : s.calls[i]? = some c) (j : Nat) :
    (s.put i c').seqOf j = if j = i then c'.sequence else s.seqOf j := by
  have hi : i < s.calls.length := (List.getElem?_eq_some_iff.mp hc).1
  by_cases hj : j = i
  · simp [seqOf, put, hj, hi]
  · simp [seqOf, put, hj, List.getElem?_set_ne (Ne.symm hj)]

theorem pcOf_put (hc : s.calls[i]? = some c) (j : Nat) :
    (s.put i c').pcOf j = if j = i then some c'.pc else s.pcOf j := by
  have hi : i < s.calls.length := (List.getElem?_eq_some_iff.mp hc).1
  by_cases hj : j = i
  · simp [pcOf, put, hj, hi]
  · simp [pcOf, put, hj, List.getElem?_set_ne (Ne.symm hj)]

theorem seqOf_start (j : Nat) : (s.start c).seqOf j =
    if j = s.calls.length then c.sequence else s.seqOf j := by
  by_cases hj : j = s.calls.length
  · simp [seqOf, start, hj]
  · simp [seqOf, start, hj, Tasks.append_ne hj]

theorem pcOf_start (j : Nat) : (s.start c).pcOf j =
    if j = s.calls.length then some c.pc else s.pcOf j := by
  by_cases hj : j = s.calls.length
  · simp [pcOf, start, hj]
  · simp [pcOf, start, hj, Tasks.append_ne hj]

/-- Call `i` goes on to `p`, and no other call moves. -/
def MovesTo (s t : Client) (i : Nat) (p : Pc) : Prop :=
  ∀ j, t.pcOf j = if j = i then some p else s.pcOf j

section Moves

variable {p q : Pc}

theorem MovesTo.self (hm : MovesTo s t i p) : t.pcOf i = some p := by
  rw [hm, if_pos rfl]

theorem MovesTo.other (hm : MovesTo s t i p) (hj : j ≠ i) : t.pcOf j = s.pcOf j := by
  rw [hm, if_neg hj]

theorem MovesTo.cases (hm : MovesTo s t i p) (hq : t.pcOf j = some q) :
    j = i ∧ p = q ∨ j ≠ i ∧ s.pcOf j = some q := by
  by_cases hj : j = i
  · subst hj
    exact .inl ⟨rfl, Option.some.inj (hm.self.symm.trans hq)⟩
  · exact .inr ⟨hj, (hm.other hj).symm.trans hq⟩

theorem seqOf_put_same (hc : s.calls[i]? = some c) (hseq : c'.sequence = c.sequence) :
    (s.put i c').seqOf = s.seqOf := by
  funext j
  rw [seqOf_put hc]
  split
  · rename_i hj
    rw [hseq, hj, seqOf_eq hc]
  · rfl

/-- A call goes on, and to a write only of the next number when nobody else is about to write. -/
theorem Numbers.move (h : Numbers s) (hm : MovesTo s t i p) (hseq : t.seqOf = s.seqOf)
    (hstored : t.storedSequence = s.storedSequence)
    (hwrite : ∀ n, p = .writing n →
      n = s.storedSequence + 1 ∧ ∀ j m, s.pcOf j ≠ some (.writing m)) : Numbers t := by
  refine ⟨?_, ?_, ?_, ?_⟩
  · rw [hseq, hstored]
    exact h.bound
  · rw [hseq]
    exact h.unique
  · intro j n hn
    obtain ⟨-, hp⟩ | ⟨-, hp⟩ := hm.cases hn
    · exact hstored ▸ (hwrite n hp).1
    · exact hstored ▸ h.next j n hp
  · intro j l m n hj hl
    obtain ⟨hji, hp⟩ | ⟨-, hp⟩ := hm.cases hj
    · obtain ⟨hli, -⟩ | ⟨-, hp'⟩ := hm.cases hl
      · exact hji.trans hli.symm
      · exact absurd hp' ((hwrite m hp).2 l n)
    · obtain ⟨-, hp'⟩ | ⟨-, hp'⟩ := hm.cases hl
      · exact absurd hp ((hwrite n hp').2 j m)
      · exact h.alone j l m n hp hp'

/-- A call that does not wait goes on to something else, perhaps with a new number. -/
theorem Named.move (h : Named s) (hm : MovesTo s t i p)
    (hseq : ∀ j, j ≠ i → t.seqOf j = s.seqOf j) (hpending : t.pending = s.pending)
    (hold : ∀ k, s.pcOf i ≠ some (.waiting k)) : Named t := by
  intro n j hn
  obtain ⟨hs, k, hk⟩ := h n j (hpending ▸ hn)
  have hj : j ≠ i := by
    rintro rfl
    exact hold k hk
  exact ⟨(hseq j hj).trans hs, k, (hm.other hj).trans hk⟩

theorem Table.move (h : Table s) (hm : MovesTo s t i p) (hseq : ∀ j, j ≠ i → t.seqOf j = s.seqOf j)
    (hpending : t.pending = s.pending) (hold : ∀ k, s.pcOf i ≠ some (.waiting k))
    (hnew : ∀ k, p ≠ .waiting k) : Table t := by
  constructor
  · exact Named.move h.entry hm hseq hpending hold
  · intro j k hk
    obtain ⟨-, hp⟩ | ⟨hj, hp⟩ := hm.cases hk
    · exact absurd hp (hnew k)
    · rw [hseq j hj, hpending]
      exact h.kept j k hp

/-- A call goes on, and stays at the message count if the chain has it. -/
theorem Chain.move (h : Chain s) (hm : MovesTo s t i p) (hchain : t.countChain = s.countChain)
    (hin : i ∈ s.countChain → t.AtCount i) : Chain t := by
  refine ⟨?_, hchain ▸ h.nodup⟩
  intro j hj
  rw [hchain] at hj
  by_cases hji : j = i
  · subst hji
    exact hin hj
  · rw [AtCount, hm.other hji]
    exact h.mem j hj

theorem Chain.notMem (h : Chain s) (hi : s.pcOf i = some p) (hp : p ≠ .counting)
    (hp' : ∀ n, p ≠ .countWriting n) : i ∉ s.countChain := by
  intro hin
  obtain hq | ⟨n, hq⟩ := h.mem i hin
  · exact hp (Option.some.inj (hi.symm.trans hq))
  · exact hp' n (Option.some.inj (hi.symm.trans hq))

end Moves

/-- The rest of the client plays no part. -/
theorem Inv.congr (h : Inv s) (hseq : t.seqOf = s.seqOf) (hpc : t.pcOf = s.pcOf)
    (hstored : t.storedSequence = s.storedSequence) (hpending : t.pending = s.pending)
    (hchain : t.countChain = s.countChain) : Inv t := by
  obtain ⟨⟨hbound, hunique, hnext, halone⟩, ⟨hentry, hkept⟩, ⟨hmem, hnodup⟩⟩ := h
  refine ⟨⟨?_, ?_, ?_, ?_⟩, ⟨?_, ?_⟩, ⟨?_, ?_⟩⟩
  all_goals simp only [AtCount, hseq, hpc, hstored, hpending, hchain]
  all_goals assumption

/-- A call moves on without its number, the map or the chain being at stake. -/
theorem Inv.put (h : Inv s) (hc : s.calls[i]? = some c) (hseq : c'.sequence = c.sequence)
    (hold : ∀ k, c.pc ≠ .waiting k) (hnew : ∀ k, c'.pc ≠ .waiting k)
    (hwrite : ∀ n, c'.pc ≠ .writing n) (hin : i ∈ s.countChain → (s.put i c').AtCount i) :
    Inv (s.put i c') := by
  have hm : MovesTo s (s.put i c') i c'.pc := pcOf_put hc
  have hsame := seqOf_put_same hc hseq
  refine ⟨?_, ?_, ?_⟩
  · exact h.numbers.move hm hsame rfl fun n hn => absurd hn (hwrite n)
  · exact h.table.move hm (fun j _ => congrFun hsame j) rfl (by simpa [pcOf_eq hc] using hold) hnew
  · exact h.chain.move hm rfl hin

theorem Inv.start (h : Inv s) (hseq : c.sequence = none) (hnew : ∀ k, c.pc ≠ .waiting k)
    (hwrite : ∀ n, c.pc ≠ .writing n) : Inv (s.start c) := by
  have hnone : s.pcOf s.calls.length = none := by simp [pcOf]
  have hm : MovesTo s (s.start c) s.calls.length c.pc := pcOf_start
  have hsame : (s.start c).seqOf = s.seqOf := by
    funext j
    rw [seqOf_start]
    split
    · rename_i hj
      simp [hseq, hj, seqOf]
    · rfl
  refine ⟨?_, ?_, ?_⟩
  · exact h.numbers.move hm hsame rfl fun n hn => absurd hn (hwrite n)
  · exact h.table.move hm (fun j _ => congrFun hsame j) rfl (by simp [hnone]) hnew
  · apply h.chain.move hm rfl
    intro hin
    have hcount := h.chain.mem _ hin
    simp [AtCount, hnone] at hcount

theorem Inv.sendPing (h : Inv s) : Inv s.sendPing := by
  unfold Client.sendPing
  split
  · exact h.start rfl (by simp) (by simp)
  · exact h.start rfl (by simp) (by simp)

theorem Inv.heartbeat (h : Inv s) : Inv (s.heartbeat now) := by
  unfold Client.heartbeat
  split
  · exact h
  · exact h.start rfl (by simp) (by simp)

/-! ### The sequence number -/

theorem Inv.read (h : Inv s) (hc : s.calls[i]? = some c) (hp : c.pc = .reading)
    (hg : ∀ d ∈ s.calls, isWriting d.pc = false) :
    Inv (s.put i { c with pc := .writing (s.storedSequence + 1) }) := by
  have hi : s.pcOf i = some .reading := by rw [pcOf_eq hc, hp]
  have hm : MovesTo s (s.put i { c with pc := .writing (s.storedSequence + 1) }) i
      (.writing (s.storedSequence + 1)) := pcOf_put hc
  have hsame : (s.put i { c with pc := .writing (s.storedSequence + 1) }).seqOf = s.seqOf :=
    seqOf_put_same hc rfl
  refine ⟨?_, ?_, ?_⟩
  · refine h.numbers.move hm hsame rfl fun n hn => ⟨(Pc.writing.inj hn).symm, ?_⟩
    intro j m hj
    obtain ⟨d, hd, hdp⟩ := Option.map_eq_some_iff.mp hj
    have hno := hg d (List.mem_of_getElem? hd)
    simp [isWriting, hdp] at hno
  · exact h.table.move hm (fun j _ => congrFun hsame j) rfl (by simp [hi]) (by simp)
  · exact h.chain.move hm rfl fun hin => absurd hin (h.chain.notMem hi (by simp) (by simp))

/-- The call that writes is assigned a number above all others. -/
theorem Numbers.assigned {n : Nat} {p : Pc} (h : Numbers s) (hi : s.pcOf i = some (.writing n))
    (hseq : ∀ j, t.seqOf j = if j = i then some n else s.seqOf j) (hm : MovesTo s t i p)
    (hp : ∀ k, p ≠ .writing k) (hstored : t.storedSequence = n) : Numbers t := by
  have hn := h.next i n hi
  have hlone : ∀ j k, t.pcOf j ≠ some (.writing k) := by
    intro j k hj
    obtain ⟨-, hq⟩ | ⟨hne, hj⟩ := hm.cases hj
    · exact hp k hq
    · exact hne (h.alone j i k n hj hi)
  refine ⟨?_, ?_, fun j k hj => absurd hj (hlone j k), fun j l k m hj _ => absurd hj (hlone j k)⟩
  · intro j m hm
    rw [hseq] at hm
    rw [hstored]
    split at hm
    · exact Nat.le_of_eq (Option.some.inj hm).symm
    · have := h.bound j m hm
      omega
  · intro j l m hj hl
    rw [hseq] at hj hl
    split at hj
    · rename_i hji
      split at hl
      · rename_i hli
        exact hji.trans hli.symm
      · have := h.bound l m hl
        have := Option.some.inj hj
        omega
    · split at hl
      · have := h.bound j m hj
        have := Option.some.inj hl
        omega
      · exact h.unique j l m hj hl

theorem Inv.assign {n : Nat} (h : Inv s) (hc : s.calls[i]? = some c) (hp : c.pc = .writing n) :
    Inv (s.assign i c n) := by
  have hi : s.pcOf i = some (.writing n) := by rw [pcOf_eq hc, hp]
  have hnot := h.chain.notMem hi (by simp) (by simp)
  have hall : ∀ (t : Client) (p : Pc), (∀ j, t.seqOf j = if j = i then some n else s.seqOf j) →
      MovesTo s t i p → (∀ k, p ≠ .writing k) → (∀ k, p ≠ .waiting k) → t.storedSequence = n →
      t.pending = s.pending → t.countChain = s.countChain → Inv t := by
    intro t p hseq hm hp hp' hstored hpending hchain
    refine ⟨h.numbers.assigned hi hseq hm hp hstored, ?_, ?_⟩
    · exact h.table.move hm (fun j hj => by rw [hseq, if_neg hj]) hpending (by simp [hi]) hp'
    · exact h.chain.move hm hchain fun hin => absurd hin hnot
  unfold Client.assign
  split
  · exact hall _ .signing (seqOf_put hc) (pcOf_put hc) (by simp) (by simp) rfl rfl rfl
  · exact hall _ .sendingPing (seqOf_put hc) (pcOf_put hc) (by simp) (by simp) rfl rfl rfl

/-! ### The message count -/

theorem Chain.enqueue (h : Chain s) (hi : s.pcOf i = some .counting) (hnot : i ∉ s.countChain) :
    Chain { s with countChain := s.countChain ++ [i] } := by
  constructor
  · intro j hj
    obtain hj | hj := List.mem_append.mp hj
    · exact h.mem j hj
    · rw [List.mem_singleton] at hj
      exact .inl (hj ▸ hi)
  · refine List.nodup_append.mpr ⟨h.nodup, List.nodup_singleton i, ?_⟩
    rintro a ha b hb rfl
    exact hnot (List.mem_singleton.mp hb ▸ ha)

theorem Chain.tail (h : Chain s) (count : Nat) :
    Chain { s with storedCount := count, countChain := s.countChain.tail } :=
  ⟨fun j hj => h.mem j (List.mem_of_mem_tail hj), h.nodup.tail⟩

/-- Only the chain and the stored count change. -/
theorem Inv.withChain {chain : List Nat} {count : Nat} (h : Inv s)
    (hchain : Chain { s with storedCount := count, countChain := chain }) :
    Inv { s with storedCount := count, countChain := chain } :=
  ⟨⟨h.numbers.bound, h.numbers.unique, h.numbers.next, h.numbers.alone⟩,
    ⟨h.table.entry, h.table.kept⟩, hchain⟩

theorem Chain.notMem_tail (h : Chain s) (hi : s.countChain.head? = some i) :
    i ∉ s.countChain.tail := by
  have hnodup := h.nodup
  cases hl : s.countChain with
  | nil => simp
  | cons j rest =>
    rw [hl] at hi hnodup
    obtain rfl := Option.some.inj hi
    exact (List.nodup_cons.mp hnodup).1

theorem seqOf_breakChain : s.breakChain.seqOf = s.seqOf := by
  funext j
  simp only [breakChain, seqOf, List.getElem?_mapIdx]
  cases s.calls[j]? with
  | none => rfl
  | some c =>
    simp only [Option.map_some, Option.bind_some]
    split <;> rfl

theorem pcOf_breakChain (h : Chain s) (j : Nat) :
    s.breakChain.pcOf j = if j ∈ s.countChain then some .rejected else s.pcOf j := by
  simp only [breakChain, pcOf, List.getElem?_mapIdx]
  cases hj : s.calls[j]? with
  | none =>
    have hnot : j ∉ s.countChain := by
      intro hin
      have hcount := h.mem j hin
      simp [AtCount, pcOf, hj] at hcount
    simp [hnot]
  | some c =>
    simp only [Option.map_some]
    split <;> rfl

/-- No call whose link rejects waits or is about to write its number. -/
theorem Inv.breakChain (h : Inv s) : Inv s.breakChain := by
  have hold : ∀ j q, s.breakChain.pcOf j = some q → q ≠ .rejected → s.pcOf j = some q := by
    intro j q hq hne
    rw [pcOf_breakChain h.chain] at hq
    split at hq
    · exact absurd (Option.some.inj hq).symm hne
    · exact hq
  refine ⟨⟨?_, ?_, ?_, ?_⟩, ⟨?_, ?_⟩, by simp [Client.breakChain], List.nodup_nil⟩
  · rw [seqOf_breakChain]
    exact h.numbers.bound
  · rw [seqOf_breakChain]
    exact h.numbers.unique
  · exact fun j n hj => h.numbers.next j n (hold j _ hj (by simp))
  · intro j l m n hj hl
    exact h.numbers.alone j l m n (hold j _ hj (by simp)) (hold l _ hl (by simp))
  · intro n j hn
    obtain ⟨hs, k, hk⟩ := h.table.entry n j hn
    have hnot := h.chain.notMem hk (by simp) (by simp)
    exact ⟨by rw [seqOf_breakChain, hs], k, by rw [pcOf_breakChain h.chain, if_neg hnot, hk]⟩
  · intro j k hk
    rw [seqOf_breakChain]
    exact h.table.kept j k (hold j _ hk (by simp))

/-! ### The map -/

/-- A command begins to wait under its number. -/
theorem Named.insert {n k : Nat} (h : Named s) (hi : s.seqOf i = some n)
    (hold : ∀ k, s.pcOf i ≠ some (.waiting k)) (hm : MovesTo s t i (.waiting k))
    (hseq : t.seqOf = s.seqOf) (hpending : t.pending = s.pending.insert n i) : Named t := by
  intro m j hlook
  rw [hpending] at hlook
  rw [hseq]
  by_cases hmn : m = n
  · subst hmn
    rw [AList.lookup_insert, Option.some.injEq] at hlook
    subst hlook
    exact ⟨hi, k, hm.self⟩
  · rw [AList.lookup_insert_ne hmn] at hlook
    obtain ⟨hs, l, hl⟩ := h m j hlook
    have hj : j ≠ i := by
      rintro rfl
      exact hold l hl
    exact ⟨hs, l, (hm.other hj).trans hl⟩

theorem Table.insert {n : Nat} (h : Table s) (hunique : ∀ j, s.seqOf j = some n → j = i)
    (hi : s.seqOf i = some n) (hold : ∀ k, s.pcOf i ≠ some (.waiting k)) {k : Nat}
    (hm : MovesTo s t i (.waiting k)) (hseq : t.seqOf = s.seqOf)
    (hpending : t.pending = s.pending.insert n i) : Table t := by
  constructor
  · exact Named.insert h.entry hi hold hm hseq hpending
  · intro j l hl
    rw [hseq, hpending]
    obtain ⟨rfl, -⟩ | ⟨hj, hp⟩ := hm.cases hl
    · exact ⟨n, hi, AList.lookup_insert _⟩
    · obtain ⟨m, hs, hlook⟩ := h.kept j l hp
      have hmn : m ≠ n := by
        rintro rfl
        exact hj (hunique j hs)
      exact ⟨m, hs, by rw [AList.lookup_insert_ne hmn, hlook]⟩

/-- A command is settled, and the entry under its number goes. -/
theorem Named.erase {n : Nat} (h : Named s) (hi : s.seqOf i = some n) (hm : MovesTo s t i p)
    (hseq : t.seqOf = s.seqOf) (hpending : t.pending = s.pending.erase n) : Named t := by
  intro m j hn
  rw [hpending] at hn
  have hmn : m ≠ n := by
    rintro rfl
    simp at hn
  rw [AList.lookup_erase_ne hmn] at hn
  obtain ⟨hs, k, hk⟩ := h m j hn
  have hj : j ≠ i := by
    rintro rfl
    exact hmn (Option.some.inj (hs.symm.trans hi))
  exact ⟨hseq ▸ hs, k, (hm.other hj).trans hk⟩

/-- A command that has its entry is settled, and the entry goes. -/
theorem Table.erase {n : Nat} {p : Pc} (h : Table s) (hlook : s.pending.lookup n = some i)
    (hm : MovesTo s t i p) (hp : ∀ k, p ≠ .waiting k) (hseq : t.seqOf = s.seqOf)
    (hpending : t.pending = s.pending.erase n) : Table t := by
  obtain ⟨hi, -⟩ := h.entry n i hlook
  constructor
  · exact Named.erase h.entry hi hm hseq hpending
  · intro j k hk
    obtain ⟨-, hq⟩ | ⟨hj, hq⟩ := hm.cases hk
    · exact absurd hq (hp k)
    · obtain ⟨m, hs, hn⟩ := h.kept j k hq
      have hmn : m ≠ n := by
        rintro rfl
        exact hj (Option.some.inj (hn.symm.trans hlook))
      rw [hseq, hpending]
      exact ⟨m, hs, by rw [AList.lookup_erase_ne hmn, hn]⟩

/-- A command that waits goes on waiting. -/
theorem Named.again {l : Nat} (h : Named s) (hm : MovesTo s t i (.waiting l))
    (hseq : t.seqOf = s.seqOf) (hpending : t.pending = s.pending) : Named t := by
  intro n j hn
  obtain ⟨hs, k, hk⟩ := h n j (hpending ▸ hn)
  rw [hseq]
  by_cases hji : j = i
  · subst hji
    exact ⟨hs, l, hm.self⟩
  · exact ⟨hs, k, (hm.other hji).trans hk⟩

theorem Table.again {k l : Nat} (h : Table s) (hk : s.pcOf i = some (.waiting k))
    (hm : MovesTo s t i (.waiting l)) (hseq : t.seqOf = s.seqOf)
    (hpending : t.pending = s.pending) :
    Table t := by
  constructor
  · exact Named.again h.entry hm hseq hpending
  · intro j k' hk'
    rw [hseq, hpending]
    obtain ⟨rfl, -⟩ | ⟨-, hp⟩ := hm.cases hk'
    · exact h.kept j k hk
    · exact h.kept j k' hp

theorem Inv.dispatch {n : Nat} (h : Inv s) (hc : s.calls[i]? = some c) (hseq : c.sequence = some n)
    (hold : ∀ k, c.pc ≠ .waiting k) (hnot : i ∉ s.countChain) : Inv (s.dispatch i now c n) := by
  have hsame : (s.put i { c with pc := .waiting 1 }).seqOf = s.seqOf := seqOf_put_same hc rfl
  have hm : MovesTo s (s.put i { c with pc := .waiting 1 }) i (.waiting 1) := pcOf_put hc
  have hi : s.seqOf i = some n := by rw [seqOf_eq hc, hseq]
  refine ⟨?_, ?_, ?_⟩
  · exact h.numbers.move hm hsame rfl (by simp)
  · exact h.table.insert (fun j hj => h.numbers.unique j i n hj hi) hi
      (by simpa [pcOf_eq hc] using hold) hm hsame rfl
  · exact h.chain.move hm rfl fun hin => absurd hin hnot

/-- A command that has its entry is settled. -/
theorem Inv.settled {n : Nat} {p : Pc} (h : Inv s) (hlook : s.pending.lookup n = some i)
    (hm : MovesTo s t i p) (hp : ∀ k, p ≠ .waiting k) (hp' : ∀ k, p ≠ .writing k)
    (hseq : t.seqOf = s.seqOf) (hstored : t.storedSequence = s.storedSequence)
    (hpending : t.pending = s.pending.erase n) (hchain : t.countChain = s.countChain) : Inv t := by
  obtain ⟨-, k, hk⟩ := h.table.entry n i hlook
  refine ⟨?_, ?_, ?_⟩
  · exact h.numbers.move hm hseq hstored fun m hq => absurd hq (hp' m)
  · exact h.table.erase hlook hm hp hseq hpending
  · exact h.chain.move hm hchain fun hin =>
      absurd hin (h.chain.notMem hk (by simp) (by simp))

/-! ### Steps -/

theorem Inv.settle (h : Inv s) (hc : s.calls[i]? = some c)
    (hg : c.pc = .reading → ∀ d ∈ s.calls, isWriting d.pc = false)
    (hs : s.settle i now c = some t) : Inv t := by
  have hnot : c.pc ≠ .counting → (∀ n, c.pc ≠ .countWriting n) → i ∉ s.countChain :=
    h.chain.notMem (pcOf_eq hc)
  cases hp : c.pc with simp only [Client.settle, hp] at hs
  | guarding =>
    obtain rfl := Option.some.inj hs
    exact h.put hc rfl (by simp [hp]) (by simp) (by simp)
      fun hin => absurd hin (hnot (by simp [hp]) (by simp [hp]))
  | reading =>
    obtain rfl := Option.some.inj hs
    exact h.read hc hp (hg hp)
  | writing n =>
    obtain rfl := Option.some.inj hs
    exact h.assign hc hp
  | signing =>
    have hout := hnot (by simp [hp]) (by simp [hp])
    split at hs
    · obtain rfl := Option.some.inj hs
      exact h.put hc rfl (by simp [hp]) (by simp) (by simp) fun hin => absurd hin hout
    · obtain rfl := Option.some.inj hs
      have hput : Inv (s.put i { c with pc := .counting }) :=
        h.put hc rfl (by simp [hp]) (by simp) (by simp) fun hin => absurd hin hout
      have hi : (s.put i { c with pc := .counting }).pcOf i = some .counting := by
        rw [pcOf_put hc, if_pos rfl]
      exact hput.withChain (hput.chain.enqueue hi hout)
  | counting =>
    split at hs
    · obtain rfl := Option.some.inj hs
      refine h.put hc rfl (by simp [hp]) (by simp) (by simp) fun _ =>
        .inr ⟨s.storedCount + 1, ?_⟩
      rw [pcOf_put hc, if_pos rfl]
    · contradiction
  | countWriting n =>
    split at hs
    · rename_i hhead
      have hout := h.chain.notMem_tail hhead
      have htail : Inv { s with storedCount := n, countChain := s.countChain.tail } :=
        h.withChain (h.chain.tail n)
      split at hs
      · obtain rfl := Option.some.inj hs
        exact htail.put hc rfl (by simp [hp]) (by simp) (by simp) fun hin => absurd hin hout
      · obtain ⟨m, hm, rfl⟩ := Option.map_eq_some_iff.mp hs
        exact htail.dispatch hc hm (by simp [hp]) hout
    · contradiction
  | rotating =>
    obtain ⟨m, hm, rfl⟩ := Option.map_eq_some_iff.mp hs
    exact h.dispatch hc hm (by simp [hp]) (hnot (by simp [hp]) (by simp [hp]))
  | sendingPing =>
    obtain ⟨m, hm, rfl⟩ := Option.map_eq_some_iff.mp hs
    have hput : Inv (s.put i { c with pc := .pinged }) :=
      h.put hc rfl (by simp [hp]) (by simp) (by simp)
        fun hin => absurd hin (hnot (by simp [hp]) (by simp [hp]))
    exact hput.congr rfl rfl rfl rfl rfl
  | waiting | pinged | resolved | rejected | orphaned => contradiction

theorem Inv.fail (h : Inv s) (hc : s.calls[i]? = some c) (hs : s.fail i c = some t) : Inv t := by
  have hnot : c.pc ≠ .counting → (∀ n, c.pc ≠ .countWriting n) → i ∉ s.countChain :=
    h.chain.notMem (pcOf_eq hc)
  have hreject : c.pc ≠ .counting → (∀ n, c.pc ≠ .countWriting n) → (∀ k, c.pc ≠ .waiting k) →
      Inv (s.put i { c with pc := .rejected }) := fun h₁ h₂ h₃ =>
    h.put hc rfl h₃ (by simp) (by simp) fun hin => absurd hin (hnot h₁ h₂)
  cases hp : c.pc with simp only [Client.fail, hp] at hs
  | guarding | reading | writing | rotating =>
    obtain rfl := Option.some.inj hs
    exact hreject (by simp [hp]) (by simp [hp]) (by simp [hp])
  | counting | countWriting =>
    split at hs
    · obtain rfl := Option.some.inj hs
      exact h.breakChain
    · contradiction
  | signing | waiting | sendingPing | pinged | resolved | rejected | orphaned => contradiction

theorem Inv.retry (h : Inv s) (hc : s.calls[i]? = some c) (hs : s.retry i c = some t) : Inv t := by
  unfold Client.retry at hs
  split at hs
  · rename_i k n hp hseq
    have hk : s.pcOf i = some (.waiting k) := by rw [pcOf_eq hc, hp]
    obtain ⟨m, hm, hlook⟩ := h.table.kept i k hk
    obtain rfl : n = m := Option.some.inj (hseq.symm.trans ((seqOf_eq hc).symm.trans hm))
    have hnot := h.chain.notMem hk (by simp) (by simp)
    split at hs
    · contradiction
    rw [hlook] at hs
    simp only [Option.isSome_some, if_true] at hs
    split at hs
    · obtain rfl := Option.some.inj hs
      exact h.settled hlook (pcOf_put hc) (by simp) (by simp) (seqOf_put_same hc rfl) rfl rfl rfl
    · obtain rfl := Option.some.inj hs
      have hmoves : MovesTo s (s.put i { c with pc := .waiting (k + 1) }) i (.waiting (k + 1)) :=
        pcOf_put hc
      have hsame : (s.put i { c with pc := .waiting (k + 1) }).seqOf = s.seqOf :=
        seqOf_put_same hc rfl
      exact ⟨h.numbers.move hmoves hsame rfl (by simp), h.table.again hk hmoves hsame rfl,
        h.chain.move hmoves rfl fun hin => absurd hin hnot⟩
  · contradiction

theorem Inv.pingTimeout (h : Inv s) (hc : s.calls[i]? = some c)
    (hs : s.pingTimeout i c = some t) : Inv t := by
  unfold Client.pingTimeout at hs
  split at hs
  · rename_i n hp hseq
    have hnot := h.chain.notMem (pcOf_eq hc) (by simp [hp]) (by simp [hp])
    have hput : Inv (s.put i { c with pc := .resolved }) :=
      h.put hc rfl (by simp [hp]) (by simp) (by simp) fun hin => absurd hin hnot
    dsimp only at hs
    split at hs
    · obtain rfl := Option.some.inj hs
      exact hput
    split at hs
    · obtain rfl := Option.some.inj hs
      exact hput.congr rfl rfl rfl rfl rfl
    · obtain rfl := Option.some.inj hs
      exact hput
  · contradiction

/-! ### Responses -/

theorem seqOf_abort (n : Nat) : (s.abort n).seqOf = s.seqOf := by
  unfold abort
  split
  · rfl
  · rename_i j _
    funext l
    simp only [seqOf, List.getElem?_modify]
    cases s.calls[l]? with
    | none => rfl
    | some c => by_cases hl : j = l <;> simp [hl]

theorem pcOf_abort (n : Nat) : (s.abort n).pcOf = s.pcOf := by
  unfold abort
  split
  · rfl
  · rename_i j _
    funext l
    simp only [pcOf, List.getElem?_modify]
    cases s.calls[l]? with
    | none => rfl
    | some c => by_cases hl : j = l <;> simp [hl]

theorem rest_abort (n : Nat) : (s.abort n).storedSequence = s.storedSequence ∧
    (s.abort n).pending = s.pending ∧ (s.abort n).countChain = s.countChain := by
  unfold abort
  split <;> exact ⟨rfl, rfl, rfl⟩

theorem Inv.abort (h : Inv s) (n : Nat) : Inv (s.abort n) :=
  h.congr (seqOf_abort n) (pcOf_abort n) (rest_abort n).1 (rest_abort n).2.1 (rest_abort n).2.2

theorem Inv.pong (h : Inv s) (n : Nat) (status : ResponseStatus) : Inv (s.pong n status) := by
  unfold Client.pong
  split
  · refine Inv.abort ?_ n
    exact h.congr rfl rfl rfl rfl rfl
  · exact h

theorem seqOf_answer (status : ResponseStatus) : (s.answer i status).seqOf = s.seqOf := by
  funext l
  simp only [answer, seqOf, List.getElem?_modify]
  cases s.calls[l]? with
  | none => rfl
  | some c => by_cases hl : i = l <;> simp [hl]

theorem movesTo_answer (hc : s.calls[i]? = some c) (status : ResponseStatus) :
    MovesTo s (s.answer i status) i (if status = .error then .rejected else .resolved) := by
  intro l
  simp only [answer, pcOf, List.getElem?_modify]
  by_cases hl : l = i
  · simp [hl, hc]
  · simp [hl, Ne.symm hl]

theorem Inv.handleIncomingResponse (h : Inv s) (n : Nat) (status : ResponseStatus) :
    Inv (s.handleIncomingResponse n status) := by
  unfold Client.handleIncomingResponse
  have hpong := h.pong n status
  generalize s.pong n status = u at hpong ⊢
  dsimp only
  split
  · exact hpong
  · rename_i i hlook
    have hu := hpong.abort n
    obtain ⟨-, hpending, -⟩ := rest_abort (s := u) n
    rw [← hpending] at hlook
    generalize u.abort n = v at hu hlook ⊢
    obtain ⟨-, k, hk⟩ := hu.table.entry n i hlook
    obtain ⟨c, hc, -⟩ := Option.map_eq_some_iff.mp hk
    have hm : MovesTo v ({ v with pending := v.pending.erase n }.answer i status) i
        (if status = .error then .rejected else .resolved) :=
      movesTo_answer (s := { v with pending := v.pending.erase n }) hc status
    refine hu.settled hlook hm ?_ ?_ (seqOf_answer status) rfl rfl rfl
    · intro k
      split <;> simp
    · intro k
      split <;> simp

theorem Inv.step {e : Event} (h : Inv s) (hg : s.ReadsAlone e) (hs : step s e = some t) :
    Inv t := by
  cases e with
  | sendCommand command =>
    obtain rfl := Option.some.inj hs
    exact h.start rfl (by simp) (by simp)
  | sendPing =>
    obtain rfl := Option.some.inj hs
    exact h.sendPing
  | heartbeat now =>
    rw [Client.step, Option.ite_none_right_eq_some] at hs
    obtain rfl := Option.some.inj hs.2
    exact h.heartbeat
  | settle i now =>
    obtain ⟨c, hc, hset⟩ := Option.bind_eq_some_iff.mp hs
    exact h.settle hc (fun hp => hg (by rw [pcOf_eq hc, hp])) hset
  | fail i =>
    obtain ⟨c, hc, hfail⟩ := Option.bind_eq_some_iff.mp hs
    exact h.fail hc hfail
  | retry i =>
    obtain ⟨c, hc, hretry⟩ := Option.bind_eq_some_iff.mp hs
    exact h.retry hc hretry
  | pingTimeout i =>
    obtain ⟨c, hc, htimeout⟩ := Option.bind_eq_some_iff.mp hs
    exact h.pingTimeout hc htimeout
  | response n status =>
    obtain rfl := Option.some.inj hs
    exact h.handleIncomingResponse n status

theorem Inv.init (n : Nat) : Inv { storedSequence := n } := by
  refine ⟨⟨?_, ?_, ?_, ?_⟩, ⟨?_, ?_⟩, ⟨?_, List.nodup_nil⟩⟩
  all_goals simp [seqOf, pcOf]

/-- In every run of calls, settling awaits, failures, timers and responses in which no call reads
the sequence counter while another one is between its read and its write, from any value of the
counter in storage: all sequence numbers assigned are distinct, every waiting command has its own
entry in the map, and the entry under a number is that of the command that was sent with it. -/
theorem distinct_of_readsAlone {n : Nat} {es : List Event}
    (hg : Machine.Throughout Client.step ReadsAlone { storedSequence := n } es) :
    Machine.Everywhere Client.step Distinct { storedSequence := n } es := by
  refine Machine.Everywhere.mono ?_ fun s h => Inv.distinct h
  exact Machine.everywhere_of_throughout (Inv.init n) hg fun s e t h hg hs => h.step hg hs

/-! ### Two commands -/

/-- The second command reads the counter before the first one has written it. -/
def atOnce : List Event :=
  [.sendCommand .authenticateTransaction, .sendCommand .credentialRequest, .settle 0 0, .settle 1 0,
    .settle 0 0, .settle 1 0, .settle 0 0, .settle 1 0, .settle 0 0, .settle 1 0, .settle 0 0,
    .settle 0 0, .settle 1 0, .settle 1 0]

/-- Both commands get the number 1, and the entry of the first one is overwritten. -/
theorem commands_share_number :
    ∃ t, Run {} atOnce t ∧ t.seqOf 0 = some 1 ∧ t.seqOf 1 = some 1 ∧
      t.pcOf 0 = some (.waiting 1) ∧ t.pending.lookup 1 = some 1 ∧ ¬t.Distinct := by
  have hexec : (Machine.exec step {} atOnce).map
      (fun t => (t.seqOf 0, t.seqOf 1, t.pcOf 0, t.pending.lookup 1)) =
        some (some 1, some 1, some (.waiting 1), some 1) := by decide +kernel
  obtain ⟨t, ht, hfields⟩ := Option.map_eq_some_iff.mp hexec
  simp only [Prod.mk.injEq] at hfields
  obtain ⟨h0, h1, hpc, hlook⟩ := hfields
  refine ⟨t, Machine.run_of_exec ht, h0, h1, hpc, hlook, ?_⟩
  intro h
  exact absurd (h.unique 0 1 1 h0 h1) (by decide)

/-- The second command begins when the first one has its number. -/
def inTurn : List Event :=
  [.sendCommand .authenticateTransaction, .settle 0 0, .settle 0 0, .settle 0 0,
    .sendCommand .credentialRequest, .settle 1 0, .settle 1 0, .settle 1 0, .settle 1 0,
    .settle 0 0, .settle 1 0, .settle 1 0, .settle 0 0, .settle 0 0, .response 1 .ok]

theorem commands_in_turn_are_distinct :
    ∃ t, Run {} inTurn t ∧ t.pcOf 0 = some .resolved ∧ t.pcOf 1 = some (.waiting 1) ∧
      Machine.Everywhere Client.step Distinct {} inTurn := by
  have hexec : (Machine.exec step {} inTurn).map (fun t => (t.pcOf 0, t.pcOf 1)) =
      some (some .resolved, some (.waiting 1)) := by decide +kernel
  obtain ⟨t, ht, hfields⟩ := Option.map_eq_some_iff.mp hexec
  obtain ⟨h0, h1⟩ := Prod.mk.inj hfields
  exact ⟨t, Machine.run_of_exec ht, h0, h1, distinct_of_readsAlone (by decide +kernel)⟩

end SmartIdVault.Command.Client
