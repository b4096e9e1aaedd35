import SmartIdVault.Lib.Framing
import SmartIdVault.NativeMessaging.Reader

/-! The messages of the key exchange, `crypto/handshake.go`: a writer that splits transfers, the
loop that writes a buffer to its end all the same, and the framing by type and length.  What is read
depends on the bytes that were written, not on the chunks they were written or arrive in. -/

namespace SmartIdVault.NativeHost

/-! ### `writeFull` -/

/-- An `io.Writer` with what it has sent.  Call `i` takes as many bytes as `outcome i` says, or the
whole buffer when that is shorter, and returns the error that `outcome i` says. -/
structure Writer where
  outcome : Nat → Nat × Option String
  calls : Nat := 0
  sent : Bytes := []

def Writer.write (w : Writer) (buf : Bytes) : (Nat × Option String) × Writer :=
  let n := min (w.outcome w.calls).1 buf.length
  ((n, (w.outcome w.calls).2), { w with calls := w.calls + 1, sent := w.sent ++ buf.take n })

/-- `io.ErrShortWrite`. -/
def errShortWrite : String := "short write"

def writeFull (w : Writer) (buf : Bytes) : Except String Unit × Writer :=
  if _ : 0 < buf.length then
    match w.write buf with
    | ((_, some err), w) => (.error err, w)
    | ((0, none), w) => (.error errShortWrite, w)
    | ((n + 1, none), w) => writeFull w (buf.drop (n + 1))
  else (.ok (), w)
termination_by buf.length
decreasing_by simp only [List.length_drop]; omega

/-- A writer that takes at least one byte in every call and never fails. -/
def Writer.Accepts (w : Writer) : Prop := ∀ i, 0 < (w.outcome i).1 ∧ (w.outcome i).2 = none

theorem Writer.write_eq (w : Writer) (buf : Bytes) :
    w.write buf = ((min (w.outcome w.calls).1 buf.length, (w.outcome w.calls).2),
      { w with
        calls := w.calls + 1
        sent := w.sent ++ buf.take (min (w.outcome w.calls).1 buf.length) }) := rfl

/-- The writer's future calls are the same writer's. -/
theorem outcome_writeFull (w : Writer) (buf : Bytes) :
    (writeFull w buf).2.outcome = w.outcome := by
  fun_induction writeFull w buf with
  | case1 w buf hbuf n err w' h =>
    rw [Writer.write_eq, Prod.mk.injEq] at h
    exact h.2 ▸ rfl
  | case2 w buf hbuf w' h =>
    rw [Writer.write_eq, Prod.mk.injEq] at h
    exact h.2 ▸ rfl
  | case3 w buf hbuf n w' h ih =>
    rw [Writer.write_eq, Prod.mk.injEq] at h
    exact ih.trans (h.2 ▸ rfl)
  | case4 w buf hbuf => rfl

/-- Whatever the writer does, what it has been sent is a prefix of the buffer, and all of it when
no error is reported. -/
theorem sent_writeFull (w : Writer) (buf : Bytes) :
    ∃ p, p <+: buf ∧ (writeFull w buf).2.sent = w.sent ++ p ∧
      ((writeFull w buf).1 = .ok () → p = buf) := by
  fun_induction writeFull w buf with
  | case1 w buf hbuf n err w' h =>
    rw [Writer.write_eq, Prod.mk.injEq] at h
    exact ⟨_, List.take_prefix _ _, by rw [← h.2], fun hok => by cases hok⟩
  | case2 w buf hbuf w' h =>
    rw [Writer.write_eq, Prod.mk.injEq] at h
    exact ⟨_, List.take_prefix _ _, by rw [← h.2], fun hok => by cases hok⟩
  | case3 w buf hbuf n w' h ih =>
    rw [Writer.write_eq, Prod.mk.injEq, Prod.mk.injEq] at h
    obtain ⟨⟨hn, -⟩, hw⟩ := h
    obtain ⟨p, ⟨rest, hp⟩, hsent, hall⟩ := ih
    refine ⟨buf.take (n + 1) ++ p, ⟨rest, ?_⟩, ?_, fun hok => ?_⟩
    · rw [List.append_assoc, hp, List.take_append_drop]
    · rw [hsent, ← hw, hn, List.append_assoc]
    · rw [hall hok, List.take_append_drop]
  | case4 w buf hbuf =>
    have hnil : buf = [] := List.eq_nil_of_length_eq_zero (Nat.eq_zero_of_not_pos hbuf)
    exact ⟨[], List.nil_prefix, by simp, fun _ => hnil.symm⟩

/-- The loop ends after at most one call for each byte. -/
theorem calls_writeFull_le (w : Writer) (buf : Bytes) :
    (writeFull w buf).2.calls ≤ w.calls + buf.length := by
  fun_induction writeFull w buf with
  | case1 w buf hbuf n err w' h =>
    rw [Writer.write_eq, Prod.mk.injEq] at h
    rw [← h.2]
    exact Nat.add_le_add_left hbuf _
  | case2 w buf hbuf w' h =>
    rw [Writer.write_eq, Prod.mk.injEq] at h
    rw [← h.2]
    exact Nat.add_le_add_left hbuf _
  | case3 w buf hbuf n w' h ih =>
    rw [Writer.write_eq, Prod.mk.injEq] at h
    have hcalls : w'.calls = w.calls + 1 := by rw [← h.2]
    rw [hcalls, List.length_drop] at ih
    omega
  | case4 w buf hbuf => exact Nat.le_add_right _ _

theorem writeFull_of_accepts {w : Writer} (hw : w.Accepts) (buf : Bytes) :
    (writeFull w buf).1 = .ok () := by
  fun_induction writeFull w buf with
  | case1 w buf hbuf n err w' h =>
    rw [Writer.write_eq, Prod.mk.injEq, Prod.mk.injEq, (hw _).2] at h
    exact absurd h.1.2 (by simp)
  | case2 w buf hbuf w' h =>
    rw [Writer.write_eq, Prod.mk.injEq, Prod.mk.injEq] at h
    have hpos := (hw w.calls).1
    omega
  | case3 w buf hbuf n w' h ih =>
    rw [Writer.write_eq, Prod.mk.injEq] at h
    exact ih (h.2 ▸ hw)
  | case4 w buf hbuf => rfl

/-! ### Messages -/

structure KeyExchangeMsg where
  type : UInt8
  payload : Bytes
  deriving DecidableEq, Repr

def writeKeyExchangeMsg (w : Writer) (msg : KeyExchangeMsg) : Except String Unit × Writer :=
  let header := msg.type :: Bytes.bigEndian 2 (UInt16.ofNat msg.payload.length).toNat
  match writeFull w header with
  | (.error err, w) => (.error ("write kex header: " ++ err), w)
  | (.ok (), w) =>
    if 0 < msg.payload.length then
      match writeFull w msg.payload with
      | (.error err, w) => (.error ("write kex payload: " ++ err), w)
      | (.ok (), w) => (.ok (), w)
    else (.ok (), w)

/-- The messages one after another, up to the first error. -/
def writeMsgs (w : Writer) : List KeyExchangeMsg → Except String Unit × Writer
  | [] => (.ok (), w)
  | msg :: msgs =>
    match writeKeyExchangeMsg w msg with
    | (.error err, w) => (.error err, w)
    | (.ok (), w) => writeMsgs w msgs

inductive ReadKexError
  | header (err : Framing.IoError)
  | payload (err : Framing.IoError)
  deriving DecidableEq, Repr

def ReadKexError.text : ReadKexError → String
  | .header err => "read kex header: " ++ NativeMessaging.ioErrorText err
  | .payload err => "read kex payload: " ++ NativeMessaging.ioErrorText err

/-- One call on a stream of which `chunks` are still to come. -/
def readKeyExchangeMsg (chunks : List Bytes) : Except ReadKexError KeyExchangeMsg × List Bytes :=
  match Framing.readFull [] 3 chunks with
  | (.error err, chunks) => (.error (.header err), chunks)
  | (.ok header, chunks) =>
    let msgType := header.headD 0
    let length := Bytes.ofBigEndian (header.drop 1)
    if 0 < length then
      match Framing.readFull [] length chunks with
      | (.error err, chunks) => (.error (.payload err), chunks)
      | (.ok payload, chunks) => (.ok ⟨msgType, payload⟩, chunks)
    else (.ok ⟨msgType, []⟩, chunks)

/-- The results of `k` calls, one after another. -/
def readMsgs : Nat → List Bytes → List (Except ReadKexError KeyExchangeMsg)
  | 0, _ => []
  | k + 1, chunks => (readKeyExchangeMsg chunks).1 :: readMsgs k (readKeyExchangeMsg chunks).2

/-! ### The stream -/

namespace KeyExchangeMsg

/-- The payload fits the two bytes of the length. -/
def Fits (msg : KeyExchangeMsg) : Prop := msg.payload.length ≤ 65535

def header (msg : KeyExchangeMsg) : Bytes := msg.type :: Bytes.bigEndian 2 msg.payload.length

def bytes (msg : KeyExchangeMsg) : Bytes := msg.header ++ msg.payload

@[simp] theorem length_header (msg : KeyExchangeMsg) : msg.header.length = 3 := by
  simp [header]

end KeyExchangeMsg

def stream (msgs : List KeyExchangeMsg) : Bytes := msgs.flatMap KeyExchangeMsg.bytes

@[simp] theorem stream_cons (msg : KeyExchangeMsg) (msgs : List KeyExchangeMsg) :
    stream (msg :: msgs) = msg.bytes ++ stream msgs := rfl

theorem toNat_length {msg : KeyExchangeMsg} (h : msg.Fits) :
    (UInt16.ofNat msg.payload.length).toNat = msg.payload.length := by
  have hlt : msg.payload.length < 2 ^ 16 := Nat.lt_succ_of_le h
  rw [UInt16.toNat_ofNat', Nat.mod_eq_of_lt hlt]

/-! ### Writing -/

theorem Writer.Accepts.after {w : Writer} (hw : w.Accepts) (buf : Bytes) :
    (writeFull w buf).2.Accepts := by
  intro i
  rw [outcome_writeFull]
  exact hw i

/-- A writer that takes some of every buffer is sent the whole buffer. -/
theorem exists_writeFull_eq {w : Writer} (hw : w.Accepts) (buf : Bytes) :
    ∃ w', writeFull w buf = (.ok (), w') ∧ w'.Accepts ∧ w'.sent = w.sent ++ buf := by
  obtain ⟨p, -, hsent, hall⟩ := sent_writeFull w buf
  have hok := writeFull_of_accepts hw buf
  refine ⟨(writeFull w buf).2, Prod.ext hok rfl, hw.after buf, ?_⟩
  rw [hsent, hall hok]

theorem exists_writeKeyExchangeMsg_eq {w : Writer} (hw : w.Accepts) {msg : KeyExchangeMsg}
    (hmsg : msg.Fits) : ∃ w', writeKeyExchangeMsg w msg = (.ok (), w') ∧ w'.Accepts ∧
      w'.sent = w.sent ++ msg.bytes := by
  obtain ⟨w₁, hheader, hw₁, hsent₁⟩ := exists_writeFull_eq hw msg.header
  have hheader' : writeFull w
      (msg.type :: Bytes.bigEndian 2 (UInt16.ofNat msg.payload.length).toNat) = (.ok (), w₁) := by
    rw [toNat_length hmsg]
    exact hheader
  simp only [writeKeyExchangeMsg, hheader']
  by_cases hpos : 0 < msg.payload.length
  · obtain ⟨w₂, hpayload, hw₂, hsent₂⟩ := exists_writeFull_eq hw₁ msg.payload
    refine ⟨w₂, by rw [if_pos hpos, hpayload], hw₂, ?_⟩
    rw [hsent₂, hsent₁, List.append_assoc, KeyExchangeMsg.bytes]
  · have hnil : msg.payload = [] := List.eq_nil_of_length_eq_zero (Nat.eq_zero_of_not_pos hpos)
    refine ⟨w₁, by rw [if_neg hpos], hw₁, ?_⟩
    rw [hsent₁, KeyExchangeMsg.bytes, hnil, List.append_nil]

theorem exists_writeMsgs_eq {w : Writer} (hw : w.Accepts) {msgs : List KeyExchangeMsg}
    (hmsgs : ∀ msg ∈ msgs, msg.Fits) : ∃ w', writeMsgs w msgs = (.ok (), w') ∧
      w'.sent = w.sent ++ stream msgs := by
  induction msgs generalizing w with
  | nil => exact ⟨w, rfl, (List.append_nil _).symm⟩
  | cons msg msgs ih =>
    obtain ⟨hmsg, hrest⟩ := List.forall_mem_cons.mp hmsgs
    obtain ⟨w₁, hwrite, hw₁, hsent₁⟩ := exists_writeKeyExchangeMsg_eq hw hmsg
    obtain ⟨w₂, hrun, hsent₂⟩ := ih hw₁ hrest
    refine ⟨w₂, by rw [writeMsgs, hwrite]; exact hrun, ?_⟩
    rw [hsent₂, hsent₁, List.append_assoc, stream_cons]

/-! ### Reading -/

theorem ofBigEndian_drop_header {msg : KeyExchangeMsg} (h : msg.Fits) :
    Bytes.ofBigEndian (msg.header.drop 1) = msg.payload.length := by
  have hlt : msg.payload.length < 256 ^ 2 := Nat.lt_succ_of_le h
  exact Bytes.ofBigEndian_bigEndian_of_lt hlt

/-- A stream that starts with a message gives that message and keeps the rest. -/
theorem exists_readKeyExchangeMsg_eq {msg : KeyExchangeMsg} (hmsg : msg.Fits) {tail : Bytes}
    {chunks : List Bytes} (h : chunks.flatten = msg.bytes ++ tail) :
    ∃ rest, readKeyExchangeMsg chunks = (.ok msg, rest) ∧ rest.flatten = tail := by
  rw [KeyExchangeMsg.bytes, List.append_assoc] at h
  obtain ⟨rest, hheader, hrest⟩ := @Framing.exists_readFull_eq 3 chunks []
    (by rw [h, List.length_append, KeyExchangeMsg.length_header]; omega)
  have htake : chunks.flatten.take 3 = msg.header := by
    rw [h]
    exact List.take_left' msg.length_header
  have hdrop : chunks.flatten.drop 3 = msg.payload ++ tail := by
    rw [h]
    exact List.drop_left' msg.length_header
  rw [htake, List.nil_append] at hheader
  rw [hdrop] at hrest
  simp only [readKeyExchangeMsg, hheader, ofBigEndian_drop_header hmsg]
  by_cases hpos : 0 < msg.payload.length
  · obtain ⟨rest', hpayload, hrest'⟩ := @Framing.exists_readFull_eq msg.payload.length rest []
      (by rw [hrest, List.length_append]; omega)
    rw [hrest, List.take_left, List.nil_append] at hpayload
    rw [hrest, List.drop_left] at hrest'
    exact ⟨rest', by rw [if_pos hpos, hpayload]; rfl, hrest'⟩
  · have hnil : msg.payload = [] := List.eq_nil_of_length_eq_zero (Nat.eq_zero_of_not_pos hpos)
    refine ⟨rest, ?_, by rw [hrest, hnil, List.nil_append]⟩
    rw [if_neg hpos, ← hnil]
    rfl

/-- A stream that ends within a message gives an error. -/
theorem exists_readKeyExchangeMsg_error {msg : KeyExchangeMsg} (hmsg : msg.Fits)
    {chunks : List Bytes} (h : chunks.flatten <+: msg.bytes)
    (hlt : chunks.flatten.length < msg.bytes.length) :
    ∃ err, (readKeyExchangeMsg chunks).1 = .error err := by
  by_cases hheader : chunks.flatten.length < 3
  · simp only [readKeyExchangeMsg, Framing.readFull_eq_error [] hheader]
    exact ⟨_, rfl⟩
  · obtain ⟨rest, hread, hrest⟩ := @Framing.exists_readFull_eq 3 chunks []
      (Nat.le_of_not_lt hheader)
    have htake : chunks.flatten.take 3 = msg.header := by
      obtain ⟨missing, hmissing⟩ := h
      have happend : (chunks.flatten ++ missing).take 3 = chunks.flatten.take 3 :=
        List.take_append_of_le_length (Nat.le_of_not_lt hheader)
      rw [← happend, hmissing, KeyExchangeMsg.bytes]
      exact List.take_left' msg.length_header
    rw [htake, List.nil_append] at hread
    have hshort : rest.flatten.length < msg.payload.length := by
      rw [KeyExchangeMsg.bytes, List.length_append, KeyExchangeMsg.length_header] at hlt
      rw [hrest, List.length_drop]
      omega
    simp only [readKeyExchangeMsg, hread, ofBigEndian_drop_header hmsg,
      if_pos (Nat.zero_lt_of_lt hshort), Framing.readFull_eq_error [] hshort]
    exact ⟨_, rfl⟩

theorem readMsgs_stream {msgs : List KeyExchangeMsg} (hmsgs : ∀ msg ∈ msgs, msg.Fits)
    {chunks : List Bytes} (h : chunks.flatten = stream msgs) :
    readMsgs msgs.length chunks = msgs.map .ok := by
  induction msgs generalizing chunks with
  | nil => rfl
  | cons msg msgs ih =>
    obtain ⟨hmsg, hrest⟩ := List.forall_mem_cons.mp hmsgs
    obtain ⟨rest, hread, hflat⟩ := exists_readKeyExchangeMsg_eq hmsg h
    rw [List.length_cons, readMsgs, hread, List.map_cons]
    exact congrArg _ (ih hrest hflat)

/-- A stream that is cut off gives the messages before the cut and then an error. -/
theorem readMsgs_cut {msgs : List KeyExchangeMsg} (hmsgs : ∀ msg ∈ msgs, msg.Fits)
    {chunks : List Bytes} (h : chunks.flatten <+: stream msgs)
    (hne : chunks.flatten ≠ stream msgs) :
    ∃ k, k < msgs.length ∧ ∃ err,
      readMsgs (k + 1) chunks = (msgs.take k).map .ok ++ [Except.error err] := by
  induction msgs generalizing chunks with
  | nil => exact absurd (List.prefix_nil.mp h) hne
  | cons msg msgs ih =>
    obtain ⟨hmsg, hrest⟩ := List.forall_mem_cons.mp hmsgs
    rw [stream_cons] at h hne
    by_cases hlt : chunks.flatten.length < msg.bytes.length
    · have hprefix : chunks.flatten <+: msg.bytes :=
        List.prefix_of_prefix_length_le h (List.prefix_append _ _) hlt.le
      obtain ⟨err, herr⟩ := exists_readKeyExchangeMsg_error hmsg hprefix hlt
      refine ⟨0, Nat.succ_pos _, err, ?_⟩
      rw [readMsgs, herr]
      rfl
    · obtain ⟨tail, htail⟩ : msg.bytes <+: chunks.flatten :=
        List.prefix_of_prefix_length_le (List.prefix_append _ _) h (Nat.le_of_not_lt hlt)
      rw [← htail, List.prefix_append_right_inj] at h
      obtain ⟨rest, hread, hflat⟩ := exists_readKeyExchangeMsg_eq hmsg htail.symm
      have hne' : rest.flatten ≠ stream msgs := by
        rintro heq
        exact hne (by rw [← htail, ← hflat, heq])
      obtain ⟨k, hk, err, herr⟩ := ih hrest (hflat ▸ h) hne'
      refine ⟨k + 1, Nat.succ_lt_succ hk, err, ?_⟩
      rw [readMsgs, hread, List.take_succ_cons, List.map_cons, List.cons_append, ← herr]

/-- What is written one after another to a writer that splits transfers is read back, however the
stream is cut into chunks; `writeFull` returns after at most one call for each byte and has sent the
whole buffer or reports an error after a prefix of it; and a stream that is cut off gives whole
messages and then an error. -/
theorem readMsgs_writeMsgs :
    (∀ (msgs : List KeyExchangeMsg) (w : Writer), (∀ msg ∈ msgs, msg.Fits) → w.Accepts →
      ∃ w' sent, writeMsgs w msgs = (.ok (), w') ∧ w'.sent = w.sent ++ sent ∧
        (∀ chunks : List Bytes, chunks.flatten = sent →
          readMsgs msgs.length chunks = msgs.map .ok) ∧
        ∀ chunks : List Bytes, chunks.flatten <+: sent → chunks.flatten ≠ sent →
          ∃ k, k < msgs.length ∧ ∃ err,
            readMsgs (k + 1) chunks = (msgs.take k).map .ok ++ [.error err]) ∧
    ∀ (w : Writer) (buf : Bytes), (writeFull w buf).2.calls ≤ w.calls + buf.length ∧
      ∃ p, p <+: buf ∧ (writeFull w buf).2.sent = w.sent ++ p ∧
        ((writeFull w buf).1 = .ok () → p = buf) := by
  refine ⟨fun msgs w hmsgs hw => ?_, fun w buf => ⟨calls_writeFull_le w buf, sent_writeFull w buf⟩⟩
  obtain ⟨w', hwrite, hsent⟩ := exists_writeMsgs_eq hw hmsgs
  exact ⟨w', stream msgs, hwrite, hsent, fun _ => readMsgs_stream hmsgs,
    fun _ => readMsgs_cut hmsgs⟩

/-- Two messages through a writer that takes one byte at a time, read in two chunks. -/
theorem readMsgs_writeMsgs_bytewise :
    ∃ w, writeMsgs { outcome := fun _ => (1, none) } [⟨1, [9, 8]⟩, ⟨3, []⟩] = (.ok (), w) ∧
      readMsgs 2 [w.sent.take 4, w.sent.drop 4] = [.ok ⟨1, [9, 8]⟩, .ok ⟨3, []⟩] := by
  obtain ⟨w, sent, hwrite, hsent, hread, -⟩ := readMsgs_writeMsgs.1 [⟨1, [9, 8]⟩, ⟨3, []⟩]
    { outcome := fun _ => (1, none) } (by simp [KeyExchangeMsg.Fits])
    fun _ => ⟨Nat.one_pos, rfl⟩
  refine ⟨w, hwrite, hread _ ?_⟩
  rw [hsent, List.nil_append, List.flatten_cons, List.flatten_cons, List.flatten_nil,
    List.append_nil, List.take_append_drop]

end SmartIdVault.NativeHost
