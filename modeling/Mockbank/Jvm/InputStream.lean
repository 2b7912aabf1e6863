import Mathlib.Tactic.Common

/-!
# Input streams

`InputStream.read(byte[])` puts some of the bytes that remain at the beginning of an
array that may be longer, leaves the rest of the array as it was, and answers how many
there are, or -1 at the end.  How many it delivers is up to the stream.

Main results:

- Theorem `delivers_remaining`: whoever reads a stream into whatever arrays sees its
  remaining bytes, in order, and -1 exactly behind the last one.
- Definitions `ByteArrayInputStream.stream` and `scheduled`: the stream over an array, and
  a stream that delivers as much as a schedule asks for.
- Definition `InputStream.sum`: a variable that holds a stream of either of two kinds.
-/

namespace Jvm

variable {σ τ : Type}

/-! ## Arrays -/

/-- A byte array that is not empty. -/
structure ByteBuffer where
  bytes : List UInt8
  nonempty : 0 < bytes.length

namespace ByteBuffer

/-- `new byte[n]`. -/
def zeros (n : Nat) (hn : 0 < n) : ByteBuffer where
  bytes := List.replicate n 0
  nonempty := by rwa [List.length_replicate]

/-- The array with `bs` at its beginning and its old content behind them. -/
def overwrite (buffer : ByteBuffer) (bs : List UInt8) : ByteBuffer where
  bytes := bs ++ buffer.bytes.drop bs.length
  nonempty := by
    have hbuffer := buffer.nonempty
    simp only [List.length_append, List.length_drop]
    omega

theorem take_overwrite (buffer : ByteBuffer) (bs : List UInt8) :
    (buffer.overwrite bs).bytes.take bs.length = bs :=
  List.take_left

end ByteBuffer

/-! ## Streams -/

/-- What a `read` did: its answer, and the array and the stream behind it. -/
structure ReadResult (σ : Type) where
  len : Int
  buffer : ByteBuffer
  stream : σ

/-- The bytes that a `read` delivered. -/
def ReadResult.delivered (result : ReadResult σ) : List UInt8 :=
  result.buffer.bytes.take result.len.toNat

/-- A stream by its states.  A `read` delivers any number of bytes from one up to what
fits and is available, and -1 when nothing remains. -/
structure InputStream (σ : Type) where
  remaining : σ → List UInt8
  read : σ → ByteBuffer → ReadResult σ
  read_of_nil : ∀ (s : σ) (buffer : ByteBuffer), remaining s = [] →
    (read s buffer).len = -1 ∧ (read s buffer).buffer = buffer ∧
      remaining (read s buffer).stream = []
  read_of_ne_nil : ∀ (s : σ) (buffer : ByteBuffer), remaining s ≠ [] →
    ∃ n : Nat, 0 < n ∧ n ≤ buffer.bytes.length ∧ n ≤ (remaining s).length ∧
      (read s buffer).len = n ∧
      (read s buffer).buffer = buffer.overwrite ((remaining s).take n) ∧
      remaining (read s buffer).stream = (remaining s).drop n

namespace InputStream

variable (input : InputStream σ)

/-- A `read` moves bytes from what remains to what has been delivered. -/
theorem delivered_append_remaining (s : σ) (buffer : ByteBuffer) :
    (input.read s buffer).delivered ++ input.remaining (input.read s buffer).stream =
      input.remaining s := by
  unfold ReadResult.delivered
  by_cases hend : input.remaining s = []
  · rcases input.read_of_nil s buffer hend with ⟨hlen, _, hrest⟩
    rw [hlen, hrest, hend]
    rfl
  · rcases input.read_of_ne_nil s buffer hend with ⟨n, _, _, hn, hlen, hbuffer, hrest⟩
    have htake : ((input.remaining s).take n).length = n := List.length_take_of_le hn
    have hdelivered := ByteBuffer.take_overwrite buffer ((input.remaining s).take n)
    rw [htake] at hdelivered
    rw [hlen, hbuffer, hrest, Int.toNat_natCast, hdelivered, List.take_append_drop]

/-- A `read` answers -1 at the end and a positive number in front of it. -/
theorem len_cases (s : σ) (buffer : ByteBuffer) :
    (input.remaining s = [] ∧ (input.read s buffer).len = -1) ∨
      (input.remaining s ≠ [] ∧ 0 < (input.read s buffer).len) := by
  by_cases hend : input.remaining s = []
  · rcases input.read_of_nil s buffer hend with ⟨hlen, _, _⟩
    exact Or.inl ⟨hend, hlen⟩
  · rcases input.read_of_ne_nil s buffer hend with ⟨n, hn, _, _, hlen, _, _⟩
    exact Or.inr ⟨hend, by omega⟩

theorem len_eq_neg_one_iff (s : σ) (buffer : ByteBuffer) :
    (input.read s buffer).len = -1 ↔ input.remaining s = [] := by
  rcases input.len_cases s buffer with ⟨hend, hlen⟩ | ⟨hne, hlen⟩
  · exact iff_of_true hlen hend
  · exact iff_of_false (by omega) hne

theorem neg_one_lt_len_iff (s : σ) (buffer : ByteBuffer) :
    -1 < (input.read s buffer).len ↔ input.remaining s ≠ [] := by
  rcases input.len_cases s buffer with ⟨hend, hlen⟩ | ⟨hne, hlen⟩
  · exact iff_of_false (by omega) (not_not_intro hend)
  · exact iff_of_true (by omega) hne

/-- A `read` that is not at the end leaves less to read. -/
theorem length_remaining_lt {s : σ} {buffer : ByteBuffer}
    (h : -1 < (input.read s buffer).len) :
    (input.remaining (input.read s buffer).stream).length < (input.remaining s).length := by
  have hne := (input.neg_one_lt_len_iff s buffer).mp h
  have hpos := List.length_pos_iff.mpr hne
  rcases input.read_of_ne_nil s buffer hne with ⟨n, hn, _, _, _, _, hrest⟩
  rw [hrest, List.length_drop]
  omega

/-! ## Reading on and on -/

/-- What reads into these arrays deliver, one after the other. -/
def delivered : σ → List ByteBuffer → List UInt8
  | _, [] => []
  | s, buffer :: buffers =>
      (input.read s buffer).delivered ++ delivered (input.read s buffer).stream buffers

/-- The stream behind reads into these arrays. -/
def after : σ → List ByteBuffer → σ
  | s, [] => s
  | s, buffer :: buffers => after (input.read s buffer).stream buffers

/-- A stream delivers `body`, into whatever arrays it is read: what has been delivered is
always a beginning of `body`, the next `read` answers -1 exactly when that is all of it,
and until then it delivers something. -/
structure Delivers (s : σ) (body : List UInt8) : Prop where
  inOrder : ∀ buffers, input.delivered s buffers <+: body
  ending : ∀ buffers buffer, (input.read (input.after s buffers) buffer).len = -1 ↔
    input.delivered s buffers = body
  progress : ∀ buffers buffer, input.delivered s buffers ≠ body →
    0 < (input.read (input.after s buffers) buffer).len

theorem delivered_append_remaining_after (s : σ) (buffers : List ByteBuffer) :
    input.delivered s buffers ++ input.remaining (input.after s buffers) =
      input.remaining s := by
  induction buffers generalizing s with
  | nil => rfl
  | cons buffer buffers ih =>
      unfold delivered after
      rw [List.append_assoc, ih, input.delivered_append_remaining]

/-- Everything has been delivered when nothing remains. -/
theorem delivered_eq_iff (s : σ) (buffers : List ByteBuffer) :
    input.delivered s buffers = input.remaining s ↔
      input.remaining (input.after s buffers) = [] := by
  rw [← input.delivered_append_remaining_after s buffers]
  exact List.self_eq_append_right

/-- A stream delivers what remains of it. -/
theorem delivers_remaining (s : σ) : input.Delivers s (input.remaining s) where
  inOrder buffers := ⟨_, input.delivered_append_remaining_after s buffers⟩
  ending buffers buffer := by
    rw [input.len_eq_neg_one_iff, input.delivered_eq_iff]
  progress buffers buffer h := by
    rw [ne_eq, input.delivered_eq_iff] at h
    rcases input.len_cases (input.after s buffers) buffer with ⟨hend, _⟩ | ⟨_, hlen⟩
    · exact absurd hend h
    · exact hlen

/-! ## Two kinds of streams -/

/-- A stream of either of two kinds. -/
def sum (input : InputStream σ) (other : InputStream τ) : InputStream (σ ⊕ τ) where
  remaining := Sum.elim input.remaining other.remaining
  read
    | .inl s, buffer =>
        ⟨(input.read s buffer).len, (input.read s buffer).buffer,
          .inl (input.read s buffer).stream⟩
    | .inr t, buffer =>
        ⟨(other.read t buffer).len, (other.read t buffer).buffer,
          .inr (other.read t buffer).stream⟩
  read_of_nil s buffer h := by
    cases s with
    | inl s => exact input.read_of_nil s buffer h
    | inr t => exact other.read_of_nil t buffer h
  read_of_ne_nil s buffer h := by
    cases s with
    | inl s => exact input.read_of_ne_nil s buffer h
    | inr t => exact other.read_of_ne_nil t buffer h

end InputStream

/-! ## The stream over an array -/

/-- `ByteArrayInputStream`: the array, the position and the mark. -/
structure ByteArrayInputStream where
  buf : List UInt8
  pos : Nat
  mark : Nat

namespace ByteArrayInputStream

/-- `new ByteArrayInputStream(byte[])`. -/
def new (buf : List UInt8) : ByteArrayInputStream where
  buf := buf
  pos := 0
  mark := 0

/-- `ByteArrayInputStream.reset`. -/
def reset (is : ByteArrayInputStream) : ByteArrayInputStream :=
  { is with pos := is.mark }

/-- `ByteArrayInputStream.read(byte[])`. -/
def read (is : ByteArrayInputStream) (buffer : ByteBuffer) : ReadResult ByteArrayInputStream :=
  if is.buf.length ≤ is.pos then
    ⟨-1, buffer, is⟩
  else
    let len := min buffer.bytes.length (is.buf.length - is.pos)
    ⟨len, buffer.overwrite ((is.buf.drop is.pos).take len), { is with pos := is.pos + len }⟩

/-- The bytes from the position on. -/
def remaining (is : ByteArrayInputStream) : List UInt8 :=
  is.buf.drop is.pos

/-- The array delivers as much as fits. -/
def stream : InputStream ByteArrayInputStream where
  remaining := remaining
  read := read
  read_of_nil is buffer h := by
    have hend : is.buf.length ≤ is.pos := List.drop_eq_nil_iff.mp h
    unfold read
    rw [if_pos hend]
    exact ⟨rfl, rfl, h⟩
  read_of_ne_nil is buffer h := by
    have hbuffer := buffer.nonempty
    have hlt : is.pos < is.buf.length := by
      by_contra hend
      exact h (List.drop_eq_nil_iff.mpr (Nat.le_of_not_lt hend))
    refine ⟨min buffer.bytes.length (is.buf.length - is.pos), ?_, ?_, ?_, ?_⟩
    · omega
    · exact Nat.min_le_left _ _
    · unfold remaining
      rw [List.length_drop]
      exact Nat.min_le_right _ _
    · unfold read remaining
      rw [if_neg (Nat.not_le_of_lt hlt), List.drop_drop]
      exact ⟨rfl, rfl, rfl⟩

end ByteArrayInputStream

/-! ## A stream that follows a schedule -/

/-- The bytes that remain and how many of them the next reads would like to deliver. -/
structure Schedule where
  remaining : List UInt8
  counts : List Nat

/-- The stream that delivers at each `read` the scheduled number of bytes, as far as one
`read` can; behind the schedule it delivers one by one. -/
def scheduled : InputStream Schedule where
  remaining := Schedule.remaining
  read s buffer :=
    if s.remaining = [] then
      ⟨-1, buffer, s⟩
    else
      let n := min (max 1 (s.counts.headD 1)) (min buffer.bytes.length s.remaining.length)
      ⟨n, buffer.overwrite (s.remaining.take n), ⟨s.remaining.drop n, s.counts.tail⟩⟩
  read_of_nil s buffer h := by
    simp [h]
  read_of_ne_nil s buffer h := by
    have hbuffer := buffer.nonempty
    have hpos := List.length_pos_iff.mpr h
    rw [if_neg h]
    refine ⟨_, ?_, ?_, ?_, rfl, rfl, rfl⟩ <;> omega

/-- Any sequence of counts that the reads can deliver is a schedule. -/
theorem len_read_scheduled {bs : List UInt8} {buffer : ByteBuffer} {count : Nat}
    (hpos : 0 < count) (hbuffer : count ≤ buffer.bytes.length) (hbs : count ≤ bs.length)
    (counts : List Nat) :
    (scheduled.read ⟨bs, count :: counts⟩ buffer).len = count ∧
      (scheduled.read ⟨bs, count :: counts⟩ buffer).stream = ⟨bs.drop count, counts⟩ := by
  have hne : bs ≠ [] := List.ne_nil_of_length_pos (by omega)
  have hcount : min (max 1 count) (min buffer.bytes.length bs.length) = count := by omega
  unfold scheduled
  simp only [List.headD_cons, List.tail_cons]
  rw [if_neg hne, hcount]
  exact ⟨rfl, rfl⟩

end Jvm
