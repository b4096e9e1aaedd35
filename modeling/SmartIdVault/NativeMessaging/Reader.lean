import Mathlib.Data.List.Forall2
import SmartIdVault.Lib.Framing
import SmartIdVault.NativeMessaging.Message

/-! `MessageWriter.Write` and `MessageReader.Read` of `native_messaging/message.go`, the two ends of
a stream.  The JSON codec is a parameter.  What the reader gets depends on the bytes of the stream
alone and not on the chunks they arrive in: the messages that the writer has accepted, as far as
their frames are complete, and then an error. -/

namespace SmartIdVault.NativeMessaging

/-- `json.Marshal` and `json.Unmarshal` for messages, which fail with the text of an error. -/
structure Codec (Msg : Type) where
  marshal : Msg → Except String Bytes
  unmarshal : Bytes → Except String Msg
  unmarshal_of_marshal : ∀ {m data}, marshal m = .ok data → unmarshal data = .ok m
  length_pos : ∀ {m data}, marshal m = .ok data → 0 < data.length

variable {Msg : Type} (c : Codec Msg)

def tooLargeText (n : Nat) : String :=
  "message too large: " ++ toString n ++ " bytes (max " ++ toString maxMessageSize ++ ")"

/-! ### `Write` -/

/-- What the stream does with a write: it takes all of it, or a part and fails. -/
inductive WriteOutcome
  | done
  | failed (written : Nat) (text : String)
  deriving DecidableEq, Repr

/-- What becomes of the two writes and of the flush in one call. -/
structure StreamIo where
  length : WriteOutcome := .done
  body : WriteOutcome := .done
  flush : Option String := none
  deriving DecidableEq, Repr

inductive WriteError
  | marshal (text : String)
  | tooLarge (n : Nat)
  | length (text : String)
  | body (text : String)
  | flush (text : String)
  deriving DecidableEq, Repr

def WriteError.text : WriteError → String
  | .marshal text => "marshal message: " ++ text
  | .tooLarge n => tooLargeText n
  | .length text => "write message length: " ++ text
  | .body text => "write message body: " ++ text
  | .flush text => "flush message: " ++ text

/-- One call on a stream that holds `out`. -/
def MessageWriter.write (io : StreamIo) (out : Bytes) (msg : Msg) :
    Except WriteError Unit × Bytes :=
  match c.marshal msg with
  | .error text => (.error (.marshal text), out)
  | .ok data =>
    if maxMessageSize < data.length then (.error (.tooLarge data.length), out)
    else
      let length := Bytes.littleEndian 4 data.length
      match io.length with
      | .failed n text => (.error (.length text), out ++ length.take n)
      | .done =>
        match io.body with
        | .failed n text => (.error (.body text), out ++ length ++ data.take n)
        | .done =>
          match io.flush with
          | some text => (.error (.flush text), out ++ length ++ data)
          | none => (.ok (), out ++ length ++ data)

/-- The stream after calls that all return without an error. -/
def MessageWriter.writeAll (out : Bytes) : List (StreamIo × Msg) → Option Bytes
  | [] => some out
  | (io, msg) :: calls =>
    match MessageWriter.write c io out msg with
    | (.ok (), out) => writeAll out calls
    | (.error _, _) => none

/-! ### `Read` -/

inductive ReadError
  | length (err : Framing.IoError)
  | tooLarge (n : Nat)
  | empty
  | body (err : Framing.IoError)
  | unmarshal (text : String)
  deriving DecidableEq, Repr

def ioErrorText : Framing.IoError → String
  | .eof => "EOF"
  | .unexpectedEof => "unexpected EOF"

def ReadError.text : ReadError → String
  | .length err => "read message length: " ++ ioErrorText err
  | .tooLarge n => tooLargeText n
  | .empty => "empty message (zero length)"
  | .body err => "read message body: " ++ ioErrorText err
  | .unmarshal text => "unmarshal message: " ++ text

/-- The stream ended before the length or the JSON was complete. -/
def ReadError.brokenOff : ReadError → Bool
  | .length _ | .body _ => true
  | .tooLarge _ | .empty | .unmarshal _ => false

/-- One call on a stream of which `chunks` are still to come. -/
def MessageReader.read (chunks : List Bytes) : Except ReadError Msg × List Bytes :=
  match Framing.readFull [] 4 chunks with
  | (.error err, chunks) => (.error (.length err), chunks)
  | (.ok lengthBytes, chunks) =>
    let length := Bytes.ofLittleEndian lengthBytes
    if maxMessageSize < length then (.error (.tooLarge length), chunks)
    else if length = 0 then (.error .empty, chunks)
    else
      match Framing.readFull [] length chunks with
      | (.error err, chunks) => (.error (.body err), chunks)
      | (.ok buf, chunks) =>
        match c.unmarshal buf with
        | .error text => (.error (.unmarshal text), chunks)
        | .ok msg => (.ok msg, chunks)

/-- The results of `k` calls, one after another. -/
def MessageReader.readMany : Nat → List Bytes → List (Except ReadError Msg)
  | 0, _ => []
  | k + 1, chunks => (read c chunks).1 :: readMany k (read c chunks).2

variable {c}

/-! ### What is accepted -/

/-- The bytes that stand for a message in a frame, within the limits that both ends check. -/
structure Encodes (c : Codec Msg) (msg : Msg) (data : Bytes) : Prop where
  marshal : c.marshal msg = .ok data
  pos : 0 < data.length
  le : data.length ≤ maxMessageSize

theorem Encodes.lt {msg : Msg} {data : Bytes} (h : Encodes c msg data) :
    data.length < 256 ^ 4 := by
  have hle : data.length ≤ 1048576 := h.le
  omega

namespace MessageWriter

theorem encodes_of_write {io : StreamIo} {out out' : Bytes} {msg : Msg}
    (h : write c io out msg = (.ok (), out')) :
    ∃ data, Encodes c msg data ∧ out' = out ++ Framing.frame 4 data := by
  rw [write] at h
  split at h
  · cases h
  · rename_i data hdata
    split at h
    · cases h
    · rename_i hsize
      refine ⟨data, ⟨hdata, c.length_pos hdata, Nat.le_of_not_lt hsize⟩, ?_⟩
      rw [Framing.frame, ← List.append_assoc]
      split at h
      · cases h
      split at h
      · cases h
      split at h
      · cases h
      · exact (Prod.mk.inj h).2.symm

theorem exists_of_writeAll {calls : List (StreamIo × Msg)} {out stream : Bytes}
    (h : writeAll c out calls = some stream) : ∃ bodies,
      List.Forall₂ (Encodes c) (calls.map (·.2)) bodies ∧
        ∀ i, writeAll c out (calls.take i) = some (out ++ Framing.frames 4 (bodies.take i)) := by
  induction calls generalizing out with
  | nil => exact ⟨[], .nil, by simp [writeAll]⟩
  | cons call calls ih =>
    obtain ⟨io, msg⟩ := call
    rw [writeAll] at h
    split at h
    · rename_i out' hwrite
      obtain ⟨data, hdata, rfl⟩ := encodes_of_write hwrite
      obtain ⟨bodies, hbodies, htake⟩ := ih h
      refine ⟨data :: bodies, .cons hdata hbodies, ?_⟩
      intro i
      cases i with
      | zero => simp [writeAll]
      | succ i =>
        rw [List.take_succ_cons, List.take_succ_cons, writeAll, hwrite, Framing.frames_cons,
          ← List.append_assoc]
        exact htake i
    · cases h

end MessageWriter

namespace MessageReader

variable {msg : Msg} {data rest : Bytes} {chunks : List Bytes}

/-- A stream that begins with a frame gives its message. -/
theorem exists_read_eq_ok (he : Encodes c msg data)
    (h : chunks.flatten = Framing.frame 4 data ++ rest) :
    ∃ chunks', read c chunks = (.ok msg, chunks') ∧ chunks'.flatten = rest := by
  rw [Framing.frame, List.append_assoc] at h
  have h4 : 4 ≤ chunks.flatten.length := by simp [h]
  obtain ⟨chunks₁, hlength, hflat₁⟩ := Framing.exists_readFull_eq [] h4
  rw [h, List.nil_append, List.take_left' (by simp)] at hlength
  rw [h, List.drop_left' (by simp)] at hflat₁
  have hdata : data.length ≤ chunks₁.flatten.length := by simp [hflat₁]
  obtain ⟨chunks₂, hbody, hflat₂⟩ := Framing.exists_readFull_eq [] hdata
  rw [hflat₁, List.nil_append, List.take_left' rfl] at hbody
  rw [hflat₁, List.drop_left' rfl] at hflat₂
  refine ⟨chunks₂, ?_, hflat₂⟩
  have hle := Nat.not_lt.mpr he.le
  have hne := he.pos.ne'
  simp only [read, hlength, Bytes.ofLittleEndian_littleEndian_of_lt he.lt, hle, hne, if_false,
    hbody, c.unmarshal_of_marshal he.marshal]

theorem read_eq_eof (h : chunks.flatten = []) : read c chunks = (.error (.length .eof), []) := by
  have h4 : chunks.flatten.length < 4 := by simp [h]
  have herror := Framing.readFull_eq_error [] h4
  rw [h, List.append_nil, if_pos rfl] at herror
  rw [read, herror]

/-- A stream that breaks off in a frame gives an error, and nothing is left of it. -/
theorem exists_read_eq_error (he : Encodes c msg data)
    (hp : chunks.flatten <+: Framing.frame 4 data) (hne : chunks.flatten ≠ Framing.frame 4 data) :
    ∃ err, err.brokenOff = true ∧ read c chunks = (.error err, []) := by
  rcases Framing.isPrefix_frame hp with h4 | ⟨q, hq, t, ht⟩
  · exact ⟨.length _, rfl, by rw [read, Framing.readFull_eq_error _ h4]⟩
  · have h4 : 4 ≤ chunks.flatten.length := by simp [hq]
    obtain ⟨chunks₁, hlength, hflat₁⟩ := Framing.exists_readFull_eq [] h4
    rw [hq, List.nil_append, List.take_left' (by simp)] at hlength
    rw [hq, List.drop_left' (by simp)] at hflat₁
    have hshort : chunks₁.flatten.length < data.length := by
      have hpos : 0 < t.length := by
        apply List.length_pos_of_ne_nil
        rintro rfl
        rw [List.append_nil] at ht
        exact hne (by rw [hq, ht, Framing.frame])
      rw [hflat₁, ← ht, List.length_append]
      omega
    have hle := Nat.not_lt.mpr he.le
    have hbody := Framing.readFull_eq_error [] hshort
    refine ⟨.body (if [] ++ chunks₁.flatten = [] then .eof else .unexpectedEof), rfl, ?_⟩
    simp only [read, hlength, Bytes.ofLittleEndian_littleEndian_of_lt he.lt, hle, he.pos.ne',
      if_false, hbody]

theorem readMany_eof (h : chunks.flatten = []) (k : Nat) :
    readMany c k chunks = List.replicate k (.error (.length .eof)) := by
  induction k generalizing chunks with
  | zero => rfl
  | succ k ih => rw [readMany, read_eq_eof h, ih rfl, List.replicate_succ]

/-- The messages of whole frames, and then what the rest of the stream gives. -/
theorem exists_readMany_eq {msgs : List Msg} {bodies : List Bytes}
    (he : List.Forall₂ (Encodes c) msgs bodies)
    (h : chunks.flatten = Framing.frames 4 bodies ++ rest) : ∃ chunks', chunks'.flatten = rest ∧
      ∀ k, readMany c (msgs.length + k) chunks = msgs.map .ok ++ readMany c k chunks' := by
  induction he generalizing chunks with
  | nil => exact ⟨chunks, h, fun k => by simp⟩
  | @cons msg data msgs bodies hmsg _ ih =>
    rw [Framing.frames_cons, List.append_assoc] at h
    obtain ⟨chunks₁, hread, hflat⟩ := exists_read_eq_ok hmsg h
    obtain ⟨chunks', hchunks', hmany⟩ := ih hflat
    refine ⟨chunks', hchunks', ?_⟩
    intro k
    rw [List.length_cons, Nat.add_right_comm, readMany, hread, hmany]
    rfl

/-- `Read` gives what `Write` has accepted: all of it and then the end of the stream, or, when the
stream breaks off, the messages with whole frames and then an error; and nothing that `Write`
accepts is too large for `Read`. -/
theorem readMany_writeAll {calls : List (StreamIo × Msg)} {stream : Bytes}
    (h : MessageWriter.writeAll c [] calls = some stream) :
    (∀ chunks : List Bytes, chunks.flatten = stream → ∀ k,
      readMany c (calls.length + k) chunks =
        (calls.map (·.2)).map .ok ++ List.replicate k (.error (.length .eof))) ∧
    (∀ chunks : List Bytes, chunks.flatten <+: stream → chunks.flatten ≠ stream →
      ∃ n err, n < calls.length ∧ err.brokenOff = true ∧
        (∀ i, (∃ s, MessageWriter.writeAll c [] (calls.take i) = some s ∧ s <+: chunks.flatten) ↔
          i ≤ n) ∧
        ∀ k, readMany c (n + (k + 1)) chunks = ((calls.take n).map (·.2)).map .ok ++
          .error err :: List.replicate k (.error (.length .eof))) ∧
    ∀ call ∈ calls, ∃ data, c.marshal call.2 = .ok data ∧ 0 < data.length ∧
      data.length ≤ maxMessageSize := by
  obtain ⟨bodies, he, htake⟩ := MessageWriter.exists_of_writeAll h
  have hlen : calls.length = bodies.length := by simpa using he.length_eq
  have hstream : stream = Framing.frames 4 bodies := by
    have hall := htake calls.length
    rw [List.take_length, h, hlen, List.take_length] at hall
    exact Option.some.inj hall
  refine ⟨?_, ?_, ?_⟩
  · intro chunks hchunks k
    have hall : chunks.flatten = Framing.frames 4 bodies ++ [] := by
      rw [hchunks, hstream, List.append_nil]
    obtain ⟨chunks', hend, hmany⟩ := exists_readMany_eq he hall
    rw [← readMany_eof hend, ← hmany, List.length_map]
  · intro chunks hp hne
    rw [hstream] at hp hne
    obtain ⟨ds, b, es, tail, rfl, hflat, htail, htail'⟩ :=
      Framing.exists_of_isPrefix_frames hp hne
    have hn : ds.length < calls.length := by simp [hlen]
    obtain ⟨msg, hb⟩ : ∃ msg, Encodes c msg b := by
      have hdrop := List.forall₂_drop_append _ _ _ he
      obtain ⟨msg, _, hmsg, -⟩ := List.forall₂_cons_right_iff.mp hdrop
      exact ⟨msg, hmsg⟩
    have hds : List.Forall₂ (Encodes c) ((calls.take ds.length).map (·.2)) ds := by
      rw [List.map_take]
      exact List.forall₂_take_append _ _ _ he
    obtain ⟨chunks', hrest, hmany⟩ := exists_readMany_eq hds hflat
    obtain ⟨err, herr, hread⟩ := exists_read_eq_error hb (hrest ▸ htail) (hrest ▸ htail')
    refine ⟨ds.length, err, hn, herr, ?_, ?_⟩
    · intro i
      simp only [htake, List.nil_append, Option.some.injEq, exists_eq_left', hflat]
      exact Framing.frames_take_isPrefix_iff htail htail'
    · intro k
      have hk := hmany (k + 1)
      rw [List.length_map, List.length_take, Nat.min_eq_left hn.le] at hk
      rw [hk, readMany, hread, readMany_eof rfl]
  · intro call hcall
    obtain ⟨i, hi, hget⟩ := List.getElem_of_mem (List.mem_map_of_mem (f := (·.2)) hcall)
    have hdata := he.get hi (by simpa [hlen] using hi)
    rw [List.get_eq_getElem, hget] at hdata
    exact ⟨_, hdata.marshal, hdata.pos, hdata.le⟩

/-! ### Two messages that arrive byte by byte -/

def connectResult : Message := { type := "connect-result", success := some true }

def statusRequest : Message := { type := "status" }

def sampleMessages : List Message := [connectResult, statusRequest]

/-- `encoding/json` on the sample messages. -/
def sampleCodec : Codec Message where
  marshal msg := if msg ∈ sampleMessages then .ok (marshal msg) else .error "unsupported value"
  unmarshal data :=
    match sampleMessages.find? (marshal · = data) with
    | some msg => .ok msg
    | none => .error "unexpected end of JSON input"
  unmarshal_of_marshal := by
    intro msg data h
    have hfind : ∀ msg ∈ sampleMessages,
        sampleMessages.find? (marshal · = marshal msg) = some msg := by decide +kernel
    split at h
    · rename_i hmem
      cases h
      rw [hfind msg hmem]
    · cases h
  length_pos := by
    intro msg data h
    split at h
    · cases h
      obtain ⟨rest, hrest⟩ := exists_marshal_eq msg
      simp [hrest]
    · cases h

theorem readMany_two_messages : ∃ stream,
    MessageWriter.writeAll sampleCodec [] [({}, connectResult), ({}, statusRequest)] =
      some stream ∧
    readMany sampleCodec 3 (stream.map ([·])) =
      [.ok connectResult, .ok statusRequest, .error (.length .eof)] := by
  have hsome : (MessageWriter.writeAll sampleCodec [] [({}, connectResult),
      ({}, statusRequest)]).isSome = true := by decide +kernel
  obtain ⟨stream, hstream⟩ := Option.isSome_iff_exists.mp hsome
  refine ⟨stream, hstream, ?_⟩
  have hflat : (stream.map ([·])).flatten = stream := by
    rw [← List.flatMap_def, List.flatMap_singleton']
  exact (readMany_writeAll hstream).1 _ hflat 1

end MessageReader

end SmartIdVault.NativeMessaging
