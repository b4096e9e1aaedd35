import SmartIdVault.Lib.Bytes

/-! Frames with a length prefix: the number of bytes of the body in `w` bytes, least significant
first, and then the body.  A stream of frames can be read in one way only. -/

namespace Framing

variable {w : Nat}

def frame (w : Nat) (body : Bytes) : Bytes := Bytes.littleEndian w body.length ++ body

def frames (w : Nat) (bodies : List Bytes) : Bytes := bodies.flatMap (frame w)

@[simp] theorem frames_nil : frames w [] = [] := rfl

@[simp] theorem frames_cons (body : Bytes) (bodies : List Bytes) :
    frames w (body :: bodies) = frame w body ++ frames w bodies := List.flatMap_cons

theorem frames_append (bodies bodies' : List Bytes) :
    frames w (bodies ++ bodies') = frames w bodies ++ frames w bodies' := List.flatMap_append

theorem frame_append_inj {a b x y : Bytes} (ha : a.length < 256 ^ w) (hb : b.length < 256 ^ w)
    (h : frame w a ++ x = frame w b ++ y) : a = b ∧ x = y := by
  simp only [frame, List.append_assoc] at h
  obtain ⟨hlen, hrest⟩ := List.append_inj h (by simp)
  exact List.append_inj hrest (Bytes.littleEndian_inj ha hb hlen)

/-- A stream of frames that begins with the frames of `bodies` goes on with frames. -/
theorem exists_frames_of_append (hw : 0 < w) {bodies cs : List Bytes} {rest : Bytes}
    (hb : ∀ b ∈ bodies, b.length < 256 ^ w) (hc : ∀ c ∈ cs, c.length < 256 ^ w)
    (h : frames w cs = frames w bodies ++ rest) : ∃ ds, cs = bodies ++ ds ∧ frames w ds = rest := by
  induction bodies generalizing cs with
  | nil => exact ⟨cs, rfl, h⟩
  | cons b bodies ih =>
    cases cs with
    | nil =>
      have hlen := congrArg List.length h
      simp only [frames_nil, frames_cons, frame, List.length_append, List.length_nil,
        Bytes.length_littleEndian] at hlen
      omega
    | cons c cs =>
      rw [frames_cons, frames_cons, List.append_assoc] at h
      obtain ⟨rfl, htail⟩ := frame_append_inj (hc c (by simp)) (hb b (by simp)) h
      obtain ⟨ds, rfl, hds⟩ := ih (fun b hb' => hb b (by simp [hb']))
        (fun c hc' => hc c (by simp [hc'])) htail
      exact ⟨ds, rfl, hds⟩

@[simp] theorem length_frame (body : Bytes) : (frame w body).length = w + body.length := by
  simp [frame]

/-- A part of a frame has not all of the length yet, or the length and a part of the body. -/
theorem isPrefix_frame {p b : Bytes} (hp : p <+: frame w b) :
    p.length < w ∨ ∃ q, p = Bytes.littleEndian w b.length ++ q ∧ q <+: b := by
  obtain ⟨t, ht⟩ := hp
  rcases List.append_eq_append_iff.mp ht with ⟨u, hu, -⟩ | ⟨q, hq, hqt⟩
  · have hlen := congrArg List.length hu
    rw [Bytes.length_littleEndian, List.length_append] at hlen
    by_cases hw : p.length < w
    · exact .inl hw
    · obtain rfl := List.eq_nil_of_length_eq_zero (l := u) (by omega)
      exact .inr ⟨[], by rw [hu, List.append_nil, List.append_nil], List.nil_prefix⟩
  · exact .inr ⟨q, hq, t, hqt.symm⟩

/-- A stream that breaks off holds some whole frames and then a part of the next one. -/
theorem exists_of_isPrefix_frames {bodies : List Bytes} {p : Bytes} (hp : p <+: frames w bodies)
    (hne : p ≠ frames w bodies) : ∃ ds b es tail, bodies = ds ++ b :: es ∧
      p = frames w ds ++ tail ∧ tail <+: frame w b ∧ tail ≠ frame w b := by
  induction bodies generalizing p with
  | nil => exact absurd (List.prefix_nil.mp hp) hne
  | cons b bodies ih =>
    rw [frames_cons] at hp hne
    obtain ⟨t, ht⟩ := hp
    rcases List.append_eq_append_iff.mp ht with ⟨u, hu, -⟩ | ⟨q, rfl, hq⟩
    · by_cases hb : p = frame w b
      · subst hb
        have hq : [] ≠ frames w bodies := by
          intro h
          exact hne (by rw [← h, List.append_nil])
        obtain ⟨ds, b', es, tail, rfl, hnil, htail, htail'⟩ := ih List.nil_prefix hq
        refine ⟨b :: ds, b', es, tail, rfl, ?_, htail, htail'⟩
        rw [frames_cons, List.append_assoc, ← hnil, List.append_nil]
      · exact ⟨[], b, bodies, p, rfl, rfl, ⟨u, hu.symm⟩, hb⟩
    · have hq' : q ≠ frames w bodies := by
        rintro rfl
        exact hne rfl
      obtain ⟨ds, b', es, tail, rfl, rfl, htail, htail'⟩ := ih ⟨t, hq.symm⟩ hq'
      exact ⟨b :: ds, b', es, tail, rfl, by simp, htail, htail'⟩

/-- The whole frames of such a stream are those before the one it breaks off in. -/
theorem frames_take_isPrefix_iff {ds es : List Bytes} {b tail : Bytes} {i : Nat}
    (htail : tail <+: frame w b) (hne : tail ≠ frame w b) :
    frames w ((ds ++ b :: es).take i) <+: frames w ds ++ tail ↔ i ≤ ds.length := by
  constructor
  · intro h
    by_contra hlt
    obtain ⟨j, rfl⟩ : ∃ j, i = ds.length + (j + 1) := ⟨i - ds.length - 1, by omega⟩
    rw [List.take_length_add_append, List.take_succ_cons, frames_append,
      List.prefix_append_right_inj, frames_cons] at h
    exact hne (htail.eq_of_length_le ((List.prefix_append _ _).trans h).length_le)
  · intro hi
    rw [List.take_append_of_le_length hi]
    conv_rhs => rw [← List.take_append_drop i ds, frames_append, List.append_assoc]
    exact List.prefix_append _ _

/-! ### Reading a stream that arrives in chunks -/

inductive IoError
  | eof | unexpectedEof
  deriving DecidableEq, Repr

/-- `io.ReadFull`, when `got` has been read and `n` bytes are missing: every read of the stream
gives one chunk, or as much of it as there is room for. -/
def readFull (got : Bytes) (n : Nat) : List Bytes → Except IoError Bytes × List Bytes
  | [] =>
    if n = 0 then (.ok got, []) else (.error (if got = [] then .eof else .unexpectedEof), [])
  | chunk :: chunks =>
    if n = 0 then (.ok got, chunk :: chunks)
    else if n < chunk.length then (.ok (got ++ chunk.take n), chunk.drop n :: chunks)
    else readFull (got ++ chunk) (n - chunk.length) chunks

theorem readFull_zero (got : Bytes) (chunks : List Bytes) :
    readFull got 0 chunks = (.ok got, chunks) := by
  cases chunks <;> simp [readFull]

/-- It gives the first `n` bytes, however the stream is cut into chunks, and leaves the rest. -/
theorem exists_readFull_eq {n : Nat} {chunks : List Bytes} (got : Bytes)
    (h : n ≤ chunks.flatten.length) : ∃ rest,
      readFull got n chunks = (.ok (got ++ chunks.flatten.take n), rest) ∧
        rest.flatten = chunks.flatten.drop n := by
  induction chunks generalizing got n with
  | nil =>
    obtain rfl : n = 0 := by simpa using h
    exact ⟨[], by simp [readFull_zero], rfl⟩
  | cons chunk chunks ih =>
    rw [readFull]
    split
    · rename_i hn
      exact ⟨chunk :: chunks, by simp [hn], by simp [hn]⟩
    split
    · rename_i hlt
      refine ⟨chunk.drop n :: chunks, ?_, ?_⟩
      · rw [List.flatten_cons, List.take_append_of_le_length hlt.le]
      · rw [List.flatten_cons, List.flatten_cons, List.drop_append_of_le_length hlt.le]
    · rename_i hge
      rw [List.flatten_cons, List.length_append] at h
      have hchunk : chunk.length ≤ n := Nat.le_of_not_lt hge
      obtain ⟨rest, hread, hrest⟩ := ih (got ++ chunk) (n := n - chunk.length) (by omega)
      refine ⟨rest, ?_, ?_⟩
      · rw [hread, List.flatten_cons, List.take_append, List.take_of_length_le hchunk,
          List.append_assoc]
      · rw [hrest, List.flatten_cons, List.drop_append, List.drop_of_length_le hchunk,
          List.nil_append]

/-- A stream that is too short is read to its end. -/
theorem readFull_eq_error {n : Nat} {chunks : List Bytes} (got : Bytes)
    (h : chunks.flatten.length < n) : readFull got n chunks =
      (.error (if got ++ chunks.flatten = [] then .eof else .unexpectedEof), []) := by
  induction chunks generalizing got n with
  | nil =>
    have hn : n ≠ 0 := by
      rintro rfl
      exact Nat.not_lt_zero _ h
    simp [readFull, hn]
  | cons chunk chunks ih =>
    rw [List.flatten_cons, List.length_append] at h
    rw [readFull, if_neg (by omega), if_neg (by omega), ih _ (by omega), List.flatten_cons,
      List.append_assoc]

end Framing
