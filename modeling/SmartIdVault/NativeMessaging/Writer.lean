import SmartIdVault.Lib.Framing
import SmartIdVault.Lib.Machine
import SmartIdVault.NativeMessaging.Message

/-! `MessageWriter.Write` of `native_messaging/message.go` on a writer that several goroutines
share.  A call makes two writes to the stream, the length and then the JSON, and nothing keeps
another call from writing in between.  The stream is a sequence of whole frames exactly when no call
begins while another one is between its two writes: a length is never the beginning of a JSON text.
-/

namespace SmartIdVault.NativeMessaging

variable {γ : Type} [DecidableEq γ]

/-- The shared writer: what has been written, and the calls that have written their length and still
have to write their JSON. -/
structure Output (γ : Type) where
  stream : Bytes := []
  pending : List (γ × Bytes) := []
  deriving DecidableEq, Repr

/-- A goroutine calls `Write`, up to the write of the length, or makes the second write of its
call. -/
inductive Event (γ : Type)
  | length (g : γ) (msg : Message)
  | body (g : γ)
  deriving DecidableEq, Repr

namespace Output

def write (s : Output γ) (data : Bytes) : Output γ := { s with stream := s.stream ++ data }

/-- One write to the stream, or `none` for a goroutine that is not there. -/
def step (s : Output γ) : Event γ → Option (Output γ)
  | .length g msg =>
    if g ∈ s.pending.map Prod.fst then none
    else if msg.fits then
      some ({ s with pending := s.pending ++ [(g, marshal msg)] }.write
        (Bytes.littleEndian 4 (marshal msg).length))
    else some s
  | .body g =>
    (s.pending.find? (·.1 = g)).map fun call =>
      { s with pending := s.pending.filter (·.1 ≠ g) }.write call.2

abbrev Run (s : Output γ) (es : List (Event γ)) (t : Output γ) : Prop := Machine.Run step s es t

/-- The messages that calls of `Write` accept, in the order of the calls. -/
def accepted (es : List (Event γ)) : List Message :=
  es.filterMap fun
    | .length _ msg => if msg.fits then some msg else none
    | .body _ => none

/-- The stream consists of the frames of the messages, in some order. -/
def WholeFrames (stream : Bytes) (msgs : List Message) : Prop :=
  ∃ ms : List Message, ms.Perm msgs ∧ stream = Framing.frames 4 (ms.map marshal)

/-- No call begins to write while another one is between its writes. -/
def OneAtATime (s : Output γ) : Event γ → Prop
  | .length _ msg => msg.fits = true → s.pending = []
  | .body _ => True

instance : (s : Output γ) → (e : Event γ) → Decidable (s.OneAtATime e)
  | s, .length _ msg => inferInstanceAs (Decidable (msg.fits = true → s.pending = []))
  | _, .body _ => instDecidableTrue

section Step

variable {s t : Output γ} {g : γ} {msg : Message}

/-- A call that is accepted writes its length; any other one returns an error. -/
theorem length_cases (hs : step s (.length g msg) = some t) :
    msg.fits = true ∧ t = ⟨s.stream ++ Bytes.littleEndian 4 (marshal msg).length,
      s.pending ++ [(g, marshal msg)]⟩ ∨ msg.fits = false ∧ t = s := by
  rw [step] at hs
  split at hs
  · contradiction
  split at hs
  · rename_i hf
    exact .inl ⟨hf, (Option.some.inj hs).symm⟩
  · rename_i hf
    exact .inr ⟨Bool.eq_false_iff.mpr hf, (Option.some.inj hs).symm⟩

end Step

/-! ### One call after the other -/

/-- The frames of `msgs` are written, or all but the JSON of the last one. -/
inductive Inv (msgs : List Message) (s : Output γ) : Prop
  | whole (hp : s.pending = []) (hs : s.stream = Framing.frames 4 (msgs.map marshal))
  | within (g : γ) (ms : List Message) (m : Message) (hm : msgs = ms ++ [m])
      (hp : s.pending = [(g, marshal m)])
      (hs : s.stream = Framing.frames 4 (ms.map marshal) ++
        Bytes.littleEndian 4 (marshal m).length)

variable {s t : Output γ} {es : List (Event γ)} {msgs : List Message}

theorem Inv.step {e : Event γ} (h : Inv msgs s) (hg : s.OneAtATime e)
    (hs : Output.step s e = some t) : Inv (msgs ++ accepted [e]) t := by
  cases e with
  | length g msg =>
    obtain ⟨hfits, rfl⟩ | ⟨hfits, rfl⟩ := length_cases hs
    · have hnil := hg hfits
      cases h with
      | whole hp hstream =>
        refine .within g msgs msg (by simp [accepted, hfits]) ?_ ?_
        · rw [hp, List.nil_append]
        · rw [hstream]
      | within g' ms m hm hp hstream => simp [hnil] at hp
    · simpa [accepted, hfits] using h
  | body g =>
    obtain ⟨call, hfind, rfl⟩ := Option.map_eq_some_iff.mp hs
    cases h with
    | whole hp hstream => simp [hp] at hfind
    | within g' ms m hm hp hstream =>
      simp only [hp, List.find?_singleton] at hfind
      split at hfind
      · rename_i hgg
        obtain rfl := Option.some.inj hfind
        refine .whole ?_ ?_
        · simpa [write, hp] using hgg
        · simp [write, hstream, accepted, hm, Framing.frames_append, Framing.frame]
      · contradiction

theorem Inv.run (hrun : Run s es t) (h : Inv msgs s)
    (hg : Machine.Throughout Output.step OneAtATime s es) : Inv (msgs ++ accepted es) t := by
  induction hrun generalizing msgs with
  | nil s => simpa [accepted] using h
  | @cons s u t e es hs _ ih =>
    have hrest := ih (h.step hg.1 hs) (hg.2 u hs)
    rwa [List.append_assoc, accepted, accepted, ← List.filterMap_append] at hrest

/-! ### Two calls at a time -/

/-- Somewhere after whole frames the stream has two lengths in a row. -/
def Broken (stream : Bytes) : Prop :=
  ∃ (ms : List Message) (a b : Message) (rest : Bytes), (∀ m ∈ ms, m.fits = true) ∧
    a.fits = true ∧ b.fits = true ∧
    stream = Framing.frames 4 (ms.map marshal) ++ (Bytes.littleEndian 4 (marshal a).length ++
      (Bytes.littleEndian 4 (marshal b).length ++ rest))

theorem length_lt_of_fits {m : Message} (h : m.fits = true) : (marshal m).length < 256 ^ 4 := by
  have hle := Message.fits_iff.mp h
  omega

/-- A length is not how a JSON text begins. -/
theorem littleEndian_ne_marshal {m b : Message} (hb : b.fits = true) {x y : Bytes} :
    Bytes.littleEndian 4 (marshal b).length ++ x ≠ marshal m ++ y := by
  obtain ⟨rest, hrest⟩ := exists_marshal_eq m
  intro h
  rw [hrest, List.append_assoc] at h
  obtain ⟨hlength, -⟩ := List.append_inj h (by simp)
  have hkey : Bytes.littleEndian 4 0x7974227b = [0x7b, 0x22, 0x74, 0x79] := by decide
  have hle := Message.fits_iff.mp hb
  have := Bytes.littleEndian_inj (length_lt_of_fits hb) (by decide) (hlength.trans hkey.symm)
  omega

theorem Broken.not_wholeFrames {stream : Bytes} (h : Broken stream)
    (hfits : ∀ m ∈ msgs, m.fits = true) : ¬WholeFrames stream msgs := by
  rintro ⟨ms', hperm, hstream⟩
  obtain ⟨ms, a, b, rest, hms, ha, hb, hbroken⟩ := h
  have hbound : ∀ (l : List Message), (∀ m ∈ l, m.fits = true) →
      ∀ c ∈ l.map marshal, c.length < 256 ^ 4 := by
    intro l hl c hc
    obtain ⟨m, hm, rfl⟩ := List.mem_map.mp hc
    exact length_lt_of_fits (hl m hm)
  have hms' : ∀ m ∈ ms', m.fits = true := fun m hm => hfits m (hperm.mem_iff.mp hm)
  obtain ⟨ds, hds, hrest⟩ := Framing.exists_frames_of_append (by decide) (hbound ms hms)
    (hbound ms' hms') (hstream.symm.trans hbroken)
  cases ds with
  | nil =>
    have := congrArg List.length hrest
    simp at this
    omega
  | cons d ds =>
    rw [Framing.frames_cons, Framing.frame, List.append_assoc] at hrest
    obtain ⟨-, hbody⟩ := List.append_inj hrest (by simp)
    have hd : d ∈ ms'.map marshal := by simp [hds]
    obtain ⟨m, -, rfl⟩ := List.mem_map.mp hd
    exact littleEndian_ne_marshal hb hbody.symm

theorem Broken.append {stream : Bytes} (h : Broken stream) (rest : Bytes) :
    Broken (stream ++ rest) := by
  obtain ⟨ms, a, b, rest', hms, ha, hb, rfl⟩ := h
  exact ⟨ms, a, b, rest' ++ rest, hms, ha, hb, by simp [List.append_assoc]⟩

theorem stream_step {e : Event γ} (hs : step s e = some t) :
    ∃ rest, t.stream = s.stream ++ rest := by
  cases e with
  | length g msg =>
    obtain ⟨-, rfl⟩ | ⟨-, rfl⟩ := length_cases hs
    · exact ⟨_, rfl⟩
    · exact ⟨[], by simp⟩
  | body g =>
    obtain ⟨call, -, rfl⟩ := Option.map_eq_some_iff.mp hs
    exact ⟨call.2, rfl⟩

theorem Broken.run (h : Broken s.stream) (hrun : Run s es t) : Broken t.stream := by
  apply hrun.invariant_all (I := fun s : Output γ => Broken s.stream) h
  intro s e t h hs
  obtain ⟨rest, hrest⟩ := stream_step hs
  rw [hrest]
  exact h.append rest

theorem broken_of_not_oneAtATime {e : Event γ} (h : Inv msgs s)
    (hfits : ∀ m ∈ msgs, m.fits = true) (hg : ¬s.OneAtATime e) (hs : step s e = some t) :
    Broken t.stream := by
  cases e with
  | length g msg =>
    simp only [OneAtATime, Classical.not_imp] at hg
    obtain ⟨hmsg, hne⟩ := hg
    cases h with
    | whole hp hstream => exact absurd hp hne
    | within g' ms m hm hp hstream =>
      obtain ⟨-, rfl⟩ | ⟨hno, -⟩ := length_cases hs
      · refine ⟨ms, m, msg, [], fun x hx => hfits x (by simp [hm, hx]), hfits m (by simp [hm]),
          hmsg, ?_⟩
        rw [hstream, List.append_assoc, List.append_nil]
      · simp [hmsg] at hno
  | body g => exact absurd trivial hg

omit [DecidableEq γ] in
theorem fits_accepted : ∀ m ∈ accepted es, m.fits = true := by
  intro m hm
  obtain ⟨e, -, he⟩ := List.mem_filterMap.mp hm
  cases e with
  | length g msg =>
    simp only [Option.ite_none_right_eq_some, Option.some.injEq] at he
    exact he.2 ▸ he.1
  | body g => contradiction

theorem broken_of_not_throughout (hrun : Run s es t) (h : Inv msgs s)
    (hfits : ∀ m ∈ msgs, m.fits = true) (hg : ¬Machine.Throughout step OneAtATime s es) :
    Broken t.stream := by
  induction hrun generalizing msgs with
  | nil s => exact absurd trivial hg
  | @cons s u t e es hs hrun ih =>
    by_cases he : s.OneAtATime e
    · refine ih (h.step he hs) ?_ ?_
      · intro m hm
        exact (List.mem_append.mp hm).elim (hfits m) (fits_accepted m)
      · intro hrest
        refine hg ⟨he, ?_⟩
        intro u' hu'
        obtain rfl := Option.some.inj (hs.symm.trans hu')
        exact hrest
    · exact (broken_of_not_oneAtATime h hfits he hs).run hrun

/-- When all calls have returned, the stream consists of the whole frames of the accepted messages,
in some order, if and only if no call began while another one was between its two writes. -/
theorem wholeFrames_iff_oneAtATime (hrun : Run {} es t) (hdone : t.pending = []) :
    WholeFrames t.stream (accepted es) ↔ Machine.Throughout step OneAtATime {} es := by
  have init : Inv (γ := γ) [] {} := .whole rfl rfl
  constructor
  · intro h
    by_contra hg
    exact (broken_of_not_throughout hrun init (by simp) hg).not_wholeFrames fits_accepted h
  · intro hg
    have hinv := Inv.run hrun init hg
    rw [List.nil_append] at hinv
    cases hinv with
    | whole hp hs => exact ⟨_, .refl _, hs⟩
    | within g ms m hm hp hs => simp [hdone] at hp

/-! ### A read loop that writes into a response, and one that waits -/

/-- A goroutine of the sample runs. -/
inductive Goroutine
  | stdin | readLoop
  deriving DecidableEq, Repr

def sendResult : Message := { type := "send-result", success := some true }

def payloadReceived : Message := { type := "payload-received", data := "QQ==" }

/-- The read loop writes its length between the two writes of the stdin goroutine. -/
theorem interleaved_writes_break_frames :
    ∃ t, Run {} [.length Goroutine.stdin sendResult, .length .readLoop payloadReceived,
        .body .stdin, .body .readLoop] t ∧ t.pending = [] ∧
      t.stream.take 8 = [37, 0, 0, 0, 41, 0, 0, 0] ∧
      ¬WholeFrames t.stream [sendResult, payloadReceived] := by
  refine ⟨_, Machine.run_of_exec rfl, by decide +kernel, by decide +kernel, ?_⟩
  refine Broken.not_wholeFrames ?_ (by decide +kernel)
  exact ⟨[], sendResult, payloadReceived, marshal sendResult ++ marshal payloadReceived,
    by simp, by decide +kernel, by decide +kernel, by decide +kernel⟩

def inTurn : List (Event Goroutine) :=
  [.length .stdin sendResult, .body .stdin, .length .readLoop payloadReceived, .body .readLoop]

theorem writes_in_turn_are_frames :
    ∃ t, Run {} inTurn t ∧ WholeFrames t.stream (accepted inTurn) := by
  have hexec : (Machine.exec step {} inTurn).map (·.pending) = some [] := by decide +kernel
  obtain ⟨t, ht, hdone⟩ := Option.map_eq_some_iff.mp hexec
  have hrun := Machine.run_of_exec ht
  exact ⟨t, hrun, (wholeFrames_iff_oneAtATime hrun hdone).mpr (by decide +kernel)⟩

end Output

end SmartIdVault.NativeMessaging
